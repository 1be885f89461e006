import AstraIndexator.Foundation.Composition
import AstraIndexator.Normalization.WordBoundaries

/-!
# Normalised texts are canonical

The words of a text decide whether it is canonical, and the passes over lines keep
the words.  So the output is canonical when the text is that is left after the
deletions and the joins of hyphenated words.  The passes over lines change nothing
the second time; only a hyphen that trimming brought to a line end can be joined
then.
-/

namespace AstraIndexator

open Text Words Composition

/-! ## The hyphens at line ends -/

namespace UnicodeLibrary

variable (unicode : UnicodeLibrary)

/-- The hyphen at `start` belongs to a protected token. -/
def hyphenProtected (value : List Char) (start : Nat) : Bool :=
  unicode.overlapsProtectedSpan
    ((value.take (min value.length (start + 2 + 64))).drop (start - 64)) (start - (start - 64))
    (start + 2 - (start - 64))

/-- Every word broken at a line end is protected. -/
def Unbreakable (value : List Char) : Prop :=
  ∀ start ∈ unicode.hyphenBreaks value, unicode.hyphenProtected value start = true

variable {unicode} {value : List Char}

theorem dehyphenateStep_eq (start : Nat) (state : List Char × Nat) :
    unicode.dehyphenateStep start state =
      if unicode.hyphenProtected state.1 start then state
      else (state.1.take start ++ state.1.drop (start + 2), state.2 + 1) := rfl

theorem dehyphenateStep_sublist (start : Nat) (state : List Char × Nat) :
    (unicode.dehyphenateStep start state).1.Sublist state.1 := by
  rw [dehyphenateStep_eq]
  split
  · exact List.Sublist.refl _
  · conv => rhs; rw [← List.take_append_drop start state.1]
    refine List.Sublist.append (List.Sublist.refl _) ?_
    rw [← List.drop_drop]
    exact List.drop_sublist 2 _

theorem mem_dehyphenate {c : Char} (h : c ∈ (unicode.dehyphenate value).1) : c ∈ value := by
  have hfold : ∀ breaks : List Nat,
      (breaks.foldr unicode.dehyphenateStep (value, 0)).1.Sublist value := by
    intro breaks
    induction breaks with
    | nil => exact List.Sublist.refl value
    | cons start breaks ih => exact (dehyphenateStep_sublist start _).trans ih
  exact (hfold _).subset h

/-- A match is a hyphen before a line feed. -/
theorem getElem?_of_mem_hyphenBreaks {start : Nat} (h : start ∈ unicode.hyphenBreaks value) :
    value[start]? = some '-' ∧ value[start + 1]? = some '\n' := by
  have hbreak := (List.mem_filter.mp h).2
  simp only [hyphenBreakAt, Bool.and_eq_true, beq_iff_eq] at hbreak
  exact ⟨hbreak.1.1.2, hbreak.1.2⟩

/-- Taking a hyphen and the line feed after it takes a letter. -/
theorem letters_cut_lt {text : List Char} {start : Nat} (h : text[start]? = some '-') :
    (letters true (text.take start ++ text.drop (start + 2))).length <
      (letters true text).length := by
  obtain ⟨hlt, hget⟩ := List.getElem?_eq_some_iff.mp h
  have hdrop : text.drop start = '-' :: text.drop (start + 1) := by
    rw [List.drop_eq_getElem_cons hlt, hget]
  have hrest : (letters true (text.drop (start + 2))).length ≤
      (letters true (text.drop (start + 1))).length := by
    have hsub : (text.drop (start + 2)).Sublist (text.drop (start + 1)) := by
      rw [show start + 2 = start + 1 + 1 from rfl, ← List.drop_drop]
      exact List.drop_sublist 1 _
    exact (hsub.filter _).length_le
  have hsplit : (letters true text).length = (letters true (text.take start)).length +
      ((letters true (text.drop (start + 1))).length + 1) := by
    conv => lhs; rw [← List.take_append_drop start text, hdrop]
    simp only [letters, List.filter_append, List.length_append]
    rw [List.filter_cons_of_pos (by decide), List.length_cons]
  have happend : (letters true (text.take start ++ text.drop (start + 2))).length =
      (letters true (text.take start)).length + (letters true (text.drop (start + 2))).length := by
    rw [letters, List.filter_append, List.length_append, letters, letters]
  omega

/-- The loop over some of the matches leaves a text alone whose hyphens are
protected, and takes a hyphen of another. -/
theorem foldr_dehyphenateStep_cases {breaks : List Nat}
    (hbreaks : ∀ start ∈ breaks, value[start]? = some '-') :
    ((∀ start ∈ breaks, unicode.hyphenProtected value start = true) ∧
        (breaks.foldr unicode.dehyphenateStep (value, 0)).1 = value) ∨
      ((¬ ∀ start ∈ breaks, unicode.hyphenProtected value start = true) ∧
        (letters true (breaks.foldr unicode.dehyphenateStep (value, 0)).1).length <
          (letters true value).length) := by
  induction breaks with
  | nil => exact .inl ⟨List.forall_mem_nil _, rfl⟩
  | cons start breaks ih =>
    rw [List.foldr_cons]
    rcases ih (fun x hx => hbreaks x (List.mem_cons_of_mem start hx)) with
      ⟨hall, hsame⟩ | ⟨hsome, hlost⟩
    · rw [dehyphenateStep_eq, hsame]
      cases hprotected : unicode.hyphenProtected value start with
      | true => exact .inl ⟨List.forall_mem_cons.mpr ⟨hprotected, hall⟩, hsame⟩
      | false =>
        refine .inr ⟨fun hfalse => ?_, letters_cut_lt (hbreaks start List.mem_cons_self)⟩
        rw [hfalse start List.mem_cons_self] at hprotected
        cases hprotected
    · refine .inr ⟨fun hfalse => hsome (List.forall_mem_cons.mp hfalse).2, ?_⟩
      exact lt_of_le_of_lt ((dehyphenateStep_sublist start _).filter _).length_le hlost

/-- Either all hyphens are protected and the text is left as it is, or a hyphen is
lost. -/
theorem dehyphenate_cases (value : List Char) :
    (unicode.Unbreakable value ∧ (unicode.dehyphenate value).1 = value) ∨
      (¬ unicode.Unbreakable value ∧
        (letters true (unicode.dehyphenate value).1).length < (letters true value).length) :=
  foldr_dehyphenateStep_cases (fun _ hstart => (getElem?_of_mem_hyphenBreaks hstart).1)

/-- A text of one line has no words broken at line ends. -/
theorem unbreakable_of_notMem (h : '\n' ∉ value) : unicode.Unbreakable value := by
  intro start hstart
  exact absurd (List.mem_of_getElem? (getElem?_of_mem_hyphenBreaks hstart).2) h

end UnicodeLibrary

/-! ## The passes over lines, a second time -/

section Lines

variable {profile : NormalizationProfile} {lines : List (List Char)} {line : List Char}

/-- The passes over the line are done. -/
structure Tidy (profile : NormalizationProfile) (line : List Char) : Prop where
  fixed : (normalizeLine profile line).1 = line
  notMem : '\n' ∉ line

theorem tidy_tidyLines {value : List Char} : ∀ line ∈ tidyLines profile value, Tidy profile line := by
  intro line hline
  obtain ⟨raw, hraw, rfl⟩ := List.mem_map.mp hline
  refine ⟨normalizeLine_idem profile raw, fun hmem => ?_⟩
  rcases mem_normalizeLine hmem with hnewline | hspace
  · exact notMem_of_mem_splitOn hraw hnewline
  · cases hspace

theorem Tidy.stripped (h : Tidy profile line) : Stripped line := by
  rw [← h.fixed]
  exact stripped_normalizeLine profile line

theorem tidy_nil : Tidy profile [] := ⟨normalizeLine_of_nil profile, List.not_mem_nil⟩

theorem mem_finishLines {allowLineJoin : Bool} {c : Char}
    (h : c ∈ finishLines allowLineJoin lines) :
    c = (if allowLineJoin then ' ' else '\n') ∨ ∃ line ∈ lines, c ∈ line := by
  cases allowLineJoin with
  | true =>
    refine (mem_of_mem_intercalate h).imp_right ?_
    rintro ⟨line, hline, hc⟩
    exact ⟨line, (List.mem_filter.mp hline).1, hc⟩
  | false =>
    refine (mem_of_mem_intercalate h).imp_right ?_
    rintro ⟨line, hline, hc⟩
    rcases mem_compactLines hline with rfl | hmem
    · cases hc
    · exact ⟨line, hmem, hc⟩

theorem collapseFrom_of_tidy (h : Tidy profile line)
    (hcollapse : profile.collapseHorizontalWhitespace = true) (inRun : Bool) :
    (collapseFrom inRun line).1 = line := by
  have hfixed := h.fixed
  rw [normalizeLine, if_pos hcollapse] at hfixed
  change stripChars (collapseFrom false line).1 = line at hfixed
  rw [stripChars_collapseFrom, h.stripped.eq] at hfixed
  exact (stripped_collapseFrom h.stripped inRun).2.trans hfixed

theorem runAfter_of_stripped {inRun : Bool} (h : Stripped line) (hne : line ≠ []) :
    runAfter inRun line = false := by
  have hrun : ∀ l : List Char, ∀ b, l ≠ [] →
      runAfter b l = (l.getLast?.map isHorizontalSpace).getD false := by
    intro l
    induction l with
    | nil => exact fun b hnil => absurd rfl hnil
    | cons c l ih =>
      intro b _
      cases l with
      | nil => rfl
      | cons d l =>
        rw [runAfter, ih _ (List.cons_ne_nil d l), List.getLast?_cons_cons]
  rw [hrun line inRun hne, List.getLast?_eq_some_getLast hne]
  exact isHorizontalSpace_eq_false (h.last _ (List.getLast?_eq_some_getLast hne))

/-- Lines joined with single spaces have no run to collapse. -/
theorem collapseFrom_intercalate (hcollapse : profile.collapseHorizontalWhitespace = true)
    (htidy : ∀ line ∈ lines, Tidy profile line ∧ line ≠ []) (inRun : Bool) :
    (collapseFrom inRun ([' '].intercalate lines)).1 = [' '].intercalate lines := by
  induction lines generalizing inRun with
  | nil => rfl
  | cons line lines ih =>
    obtain ⟨hline, hne⟩ := htidy line List.mem_cons_self
    cases lines with
    | nil =>
      rw [List.intercalate_singleton]
      exact collapseFrom_of_tidy hline hcollapse inRun
    | cons next lines =>
      have hrest := ih (fun x hx => htidy x (List.mem_cons_of_mem line hx)) true
      rw [List.intercalate_cons_cons, List.append_assoc, List.singleton_append,
        collapseFrom_append, collapseFrom_of_tidy hline hcollapse,
        runAfter_of_stripped hline.stripped hne]
      exact congrArg (fun rest => line ++ ' ' :: rest) hrest

/-- Lines that are done come out as they are. -/
theorem finishLines_idem (htidy : ∀ line ∈ lines, Tidy profile line) (allowLineJoin : Bool) :
    finishLines allowLineJoin (tidyLines profile (finishLines allowLineJoin lines)) =
      finishLines allowLineJoin lines := by
  cases allowLineJoin with
  | true =>
    generalize hnonempty : lines.filter (fun line => line ≠ []) = nonempty
    have hmem : ∀ line ∈ nonempty, Tidy profile line ∧ line ≠ [] := by
      intro line hline
      rw [← hnonempty, List.mem_filter] at hline
      exact ⟨htidy line hline.1, by simpa using hline.2⟩
    have hout : finishLines true lines = [' '].intercalate nonempty := by
      rw [← hnonempty]
      rfl
    have hnewline : '\n' ∉ [' '].intercalate nonempty := by
      intro hfalse
      rcases mem_of_mem_intercalate hfalse with hspace | ⟨line, hline, hc⟩
      · cases hspace
      · exact (hmem line hline).1.notMem hc
    have hstripped : Stripped ([' '].intercalate nonempty) := by
      rw [← hout]
      exact stripped_finishLines (fun line hline => (htidy line hline).stripped) true
    have hfixed : (normalizeLine profile ([' '].intercalate nonempty)).1 =
        [' '].intercalate nonempty := by
      rw [normalizeLine]
      split
      · next hcollapse =>
        change stripChars (collapseFrom false ([' '].intercalate nonempty)).1 = _
        rw [collapseFrom_intercalate hcollapse hmem, hstripped.eq]
      · exact hstripped.eq
    rw [hout, tidyLines, List.splitOn_eq_singleton hnewline, List.map_singleton, hfixed, finishLines,
      if_pos rfl]
    by_cases hnil : [' '].intercalate nonempty = []
    · rw [hnil]
      rfl
    · rw [List.filter_cons_of_pos (by simpa using hnil), List.filter_nil,
        List.intercalate_singleton]
  | false =>
    have hmem : ∀ line ∈ compactLines lines, Tidy profile line := by
      intro line hline
      rcases mem_compactLines hline with rfl | hline
      · exact tidy_nil
      · exact htidy line hline
    change finishLines false (tidyLines profile (['\n'].intercalate (compactLines lines))) =
      ['\n'].intercalate (compactLines lines)
    by_cases hnil : compactLines lines = []
    · rw [hnil, List.intercalate_nil, tidyLines, List.splitOn_nil, List.map_singleton,
        normalizeLine_of_nil]
      rfl
    · have hsame : tidyLines profile (['\n'].intercalate (compactLines lines)) =
          compactLines lines := by
        rw [tidyLines, List.splitOn_intercalate '\n' (fun line hline => (hmem line hline).notMem)
          hnil]
        exact (List.map_congr_left (fun line hline => (hmem line hline).fixed)).trans
          (List.map_id' _)
      rw [hsame, finishLines, if_neg Bool.false_ne_true,
        compactLines_of_compacted (compacted_compactLines lines)]

theorem separates_true : separates true = isSpace := by
  funext c
  rw [separates, Bool.true_or, Bool.and_true]

/-- The passes over lines keep the words. -/
theorem words_finish_tidyLines (allowLineJoin : Bool) (value : List Char) :
    words isSpace (finishLines allowLineJoin (tidyLines profile value)) = words isSpace value := by
  have hlines := words_splitOn (@separates_newline true) value
  rw [← separates_true, words_finishLines, hlines, tidyLines, List.flatMap_map]
  refine List.flatMap_congr (fun line _ => ?_)
  rw [words_normalizeLine]
  exact (letters_stripChars line).2.2 (.inl rfl)

/-- Joined lines leave no hyphen to join, other lines those that are unprotected. -/
theorem dehyphenate_finished_iff {unicode : UnicodeLibrary} (value : List Char)
    (allowLineJoin : Bool) :
    finishLines allowLineJoin (tidyLines profile (unicode.dehyphenate
        (finishLines allowLineJoin (tidyLines profile value))).1) =
        finishLines allowLineJoin (tidyLines profile value) ↔
      (allowLineJoin = false →
        unicode.Unbreakable (finishLines false (tidyLines profile value))) := by
  generalize hout : finishLines allowLineJoin (tidyLines profile value) = out
  have hidem : finishLines allowLineJoin (tidyLines profile out) = out := by
    rw [← hout]
    exact finishLines_idem tidy_tidyLines allowLineJoin
  rcases @UnicodeLibrary.dehyphenate_cases unicode out with
    ⟨hunbreakable, hsame⟩ | ⟨hbreakable, hlost⟩
  · rw [hsame, hidem]
    refine ⟨fun _ hjoin => ?_, fun _ => rfl⟩
    subst hjoin
    rwa [hout]
  · have hchanged : finishLines allowLineJoin (tidyLines profile (unicode.dehyphenate out).1) ≠
        out := by
      -- a hyphen is a letter, and the passes over lines keep the letters
      intro hfalse
      have hwords := @words_finish_tidyLines profile allowLineJoin (unicode.dehyphenate out).1
      rw [hfalse] at hwords
      have hlength := congrArg (fun ws => ws.flatten.length) hwords
      simp only [words_flatten] at hlength
      simp only [letters, separates_true] at hlost
      omega
    refine ⟨fun hfalse => absurd hfalse hchanged, fun hcond => absurd ?_ hbreakable⟩
    cases allowLineJoin with
    | true =>
      refine UnicodeLibrary.unbreakable_of_notMem (fun hmem => ?_)
      rw [← hout] at hmem
      rcases mem_finishLines hmem with hspace | ⟨line, hline, hc⟩
      · cases hspace
      · exact (tidy_tidyLines line hline).notMem hc
    | false =>
      rw [← hout]
      exact hcond rfl

end Lines

/-! ## The whole text -/

theorem normalizeLineEndings_of_notMem {text : List Char} (h : '\r' ∉ text) :
    normalizeLineEndings text = text := by
  have hreplace : replaceCrLf text = text := by
    induction text with
    | nil => rfl
    | cons c text ih =>
      have hc : c ≠ '\r' := fun heq => h (heq ▸ List.mem_cons_self)
      rw [replaceCrLf, ih (fun hmem => h (List.mem_cons_of_mem c hmem))]
      rintro l rfl
      exact absurd rfl hc
  rw [normalizeLineEndings, hreplace]
  refine (List.map_congr_left (fun c hc => if_neg ?_)).trans (List.map_id' _)
  rintro rfl
  exact h hc

theorem notMem_normalizeLineEndings (text : List Char) : '\r' ∉ normalizeLineEndings text := by
  intro h
  obtain ⟨c, -, hc⟩ := List.mem_map.mp h
  by_cases hreturn : c = '\r'
  · rw [if_pos hreturn] at hc
    cases hc
  · rw [if_neg hreturn] at hc
    exact hreturn hc

namespace TextNormalizationService

variable (self : TextNormalizationService) (unicode : UnicodeLibrary)

/-- The text the deletions are made in. -/
def undeleted (text : List Char) : List Char := self.replaceNbsp (self.composed unicode text)

/-- The condition under which a text is in its final form: no character that stays
composes with those before it once deleted characters and joined line ends between
them are gone, and trimming brings no hyphen to a line end. -/
def Settled (text : List Char) (preserveLayout allowDehyphenation allowLineJoin : Bool) : Prop :=
  if allowDehyphenation && !preserveLayout then
    (∀ w, w <:+: (unicode.dehyphenate (self.kept (self.undeleted unicode text))).1 →
      (∀ c ∈ w.tail, ¬ Starts (unicode.normalize "NFC") c) →
        Canonical (unicode.normalize "NFC") w) ∧
    (allowLineJoin = false → unicode.Unbreakable (finishLines false (tidyLines self.profile
      (unicode.dehyphenate (self.kept (self.undeleted unicode text))).1)))
  else
    ∀ w, w <:+: self.undeleted unicode text →
      (∀ c ∈ (self.kept w).tail, ¬ Starts (unicode.normalize "NFC") c) →
        Canonical (unicode.normalize "NFC") (self.kept w)

/-- A character that no pass changes. -/
structure Clean (service : TextNormalizationService) (c : Char) : Prop where
  noReturn : c ≠ '\r'
  noBreak : service.profile.normalizeNbsp = true → c ≠ noBreakSpace
  stays : service.deletes c = false

variable {self unicode} {text : List Char}

theorem dropControls_beforeControls :
    dropControls (self.beforeControls unicode text) = self.kept (self.undeleted unicode text) := by
  rw [beforeControls, dropControls_dropSoftHyphens, undeleted]

theorem mem_undeleted {c : Char} (h : c ∈ self.undeleted unicode text) :
    c ∈ self.composed unicode text ∨ c = ' ' := by
  rw [undeleted, replaceNbsp] at h
  split at h
  · obtain ⟨a, ha, hc⟩ := List.mem_map.mp h
    split at hc
    · exact .inr hc.symm
    · exact .inl (hc ▸ ha)
  · exact .inl h

theorem clean_space : self.Clean ' ' := by
  refine ⟨by decide, fun _ => by decide, ?_⟩
  rw [deletes]
  cases self.profile.removeSoftHyphen <;> decide

theorem clean_newline : self.Clean '\n' := by
  refine ⟨by decide, fun _ => by decide, ?_⟩
  rw [deletes]
  cases self.profile.removeSoftHyphen <;> decide

/-- The characters left after the deletions. -/
theorem clean_kept (h : Composes (unicode.normalize "NFC")) :
    ∀ c ∈ self.kept (self.undeleted unicode text), self.Clean c := by
  intro c hc
  obtain ⟨hmem, hstays⟩ := List.mem_filter.mp hc
  rw [Bool.not_eq_true'] at hstays
  refine ⟨?_, fun hnbsp => ?_, hstays⟩
  · rintro rfl
    rcases mem_undeleted hmem with hcomposed | hspace
    · rw [composed_eq] at hcomposed
      exact h.noReturn _ (notMem_normalizeLineEndings text) hcomposed
    · cases hspace
  · rintro rfl
    rw [undeleted, replaceNbsp, if_pos hnbsp] at hmem
    obtain ⟨a, -, ha⟩ := List.mem_map.mp hmem
    split at ha
    · cases ha
    · next hne => exact hne ha

/-- A canonical text of such characters goes through the passes before its lines. -/
theorem kept_undeleted_of_clean (hcanonical : Canonical (unicode.normalize "NFC") text)
    (hclean : ∀ c ∈ text, self.Clean c) : self.kept (self.undeleted unicode text) = text := by
  have hcomposed : self.composed unicode text = text := by
    rw [composed_eq, normalizeLineEndings_of_notMem (fun hc => (hclean _ hc).noReturn rfl)]
    exact hcanonical
  have hnbsp : self.replaceNbsp text = text := by
    rw [replaceNbsp]
    split
    · next hon =>
      refine (List.map_congr_left (fun c hc => if_neg ?_)).trans (List.map_id' _)
      exact (hclean c hc).noBreak hon
    · rfl
  rw [undeleted, hcomposed, hnbsp, kept, List.filter_eq_self]
  intro c hc
  rw [(hclean c hc).stays, Bool.not_false]

/-- The whitespace left after the deletions composes with nothing. -/
theorem canonical_of_mem_kept (h : Composes (unicode.normalize "NFC")) :
    ∀ c ∈ self.kept (self.undeleted unicode text), Canonical (unicode.normalize "NFC") [c] := by
  intro c hc
  rcases mem_undeleted (List.mem_filter.mp hc).1 with hcomposed | rfl
  · rw [composed_eq] at hcomposed
    exact h.of_mem (h.idempotent _) hcomposed
  · exact h.ascii ' ' (by decide)

section Finished

variable {value : List Char} {allowLineJoin : Bool}

theorem mem_finish_tidyLines {profile : NormalizationProfile} {c : Char}
    (h : c ∈ finishLines allowLineJoin (tidyLines profile value)) :
    c ∈ value ∨ c = ' ' ∨ c = '\n' := by
  rcases mem_finishLines h with heq | ⟨line, hline, hc⟩
  · cases allowLineJoin with
    | true => exact .inr (.inl heq)
    | false => exact .inr (.inr heq)
  · obtain ⟨raw, hraw, rfl⟩ := List.mem_map.mp hline
    rcases mem_normalizeLine hc with hmem | hspace
    · refine .inl ?_
      have hjoin : ['\n'].intercalate (value.splitOn '\n') = value := List.intercalate_splitOn '\n'
      rw [← hjoin]
      exact mem_intercalate_of_mem hraw hmem
    · exact .inr (.inl hspace)

theorem canonical_finish_iff (h : Composes (unicode.normalize "NFC"))
    (hvalue : ∀ c ∈ value, Canonical (unicode.normalize "NFC") [c]) :
    Canonical (unicode.normalize "NFC") (finishLines allowLineJoin (tidyLines self.profile value)) ↔
      Canonical (unicode.normalize "NFC") value := by
  rw [h.canonical_iff_words, words_finish_tidyLines, ← h.canonical_iff_words]
  · exact fun c hc _ => hvalue c hc
  · intro c hc _
    rcases mem_finish_tidyLines hc with hmem | rfl | rfl
    · exact hvalue c hmem
    · exact h.ascii ' ' (by decide)
    · exact h.ascii '\n' (by decide)

end Finished

/-- The second run starts its lines with the text the first one left. -/
theorem normalizeText_again {preserveLayout allowDehyphenation allowLineJoin : Bool}
    {out : List Char} (hclean : ∀ c ∈ out, self.Clean c)
    (hcanonical : Canonical (unicode.normalize "NFC") out) :
    (self.normalizeText unicode out preserveLayout allowDehyphenation allowLineJoin).1 =
      if preserveLayout then out
      else finishLines allowLineJoin (tidyLines self.profile
        (unbroken unicode allowDehyphenation out)) := by
  have hbefore : dropControls (self.beforeControls unicode out) = out := by
    rw [dropControls_beforeControls]
    exact kept_undeleted_of_clean hcanonical hclean
  cases preserveLayout with
  | true =>
    rw [normalizeText, if_pos rfl, if_pos rfl]
    exact hbefore
  | false => rw [normalizeText_eq, hbefore, if_neg Bool.false_ne_true]

/-- The output is canonical and a second run leaves it as it is, exactly under the
condition. -/
theorem normalizeText_settled_iff (self : TextNormalizationService) (unicode : UnicodeLibrary)
    (h : Composes (unicode.normalize "NFC")) (text : List Char)
    (preserveLayout allowDehyphenation allowLineJoin : Bool) :
    (Canonical (unicode.normalize "NFC")
        (self.normalizeText unicode text preserveLayout allowDehyphenation allowLineJoin).1 ∧
      (self.normalizeText unicode
          (self.normalizeText unicode text preserveLayout allowDehyphenation allowLineJoin).1
          preserveLayout allowDehyphenation allowLineJoin).1 =
        (self.normalizeText unicode text preserveLayout allowDehyphenation allowLineJoin).1) ↔
      self.Settled unicode text preserveLayout allowDehyphenation allowLineJoin := by
  generalize hvalue : self.kept (self.undeleted unicode text) = value
  have hclean : ∀ c ∈ value, self.Clean c := hvalue ▸ clean_kept h
  have hfixed : ∀ c ∈ value, Canonical (unicode.normalize "NFC") [c] :=
    hvalue ▸ canonical_of_mem_kept h
  have hdeletions : Canonical (unicode.normalize "NFC") value ↔
      ∀ w, w <:+: self.undeleted unicode text →
        (∀ c ∈ (self.kept w).tail, ¬ Starts (unicode.normalize "NFC") c) →
          Canonical (unicode.normalize "NFC") (self.kept w) := by
    rw [← hvalue]
    exact h.filter_iff (fun c => !self.deletes c) (self.undeleted unicode text)
  cases preserveLayout with
  | true =>
    have hout : (self.normalizeText unicode text true allowDehyphenation allowLineJoin).1 =
        value := by
      rw [normalizeText, if_pos rfl, ← hvalue, ← dropControls_beforeControls]
    rw [hout, Settled, Bool.not_true, Bool.and_false, if_neg Bool.false_ne_true, ← hdeletions]
    refine ⟨And.left, fun hcanonical => ⟨hcanonical, ?_⟩⟩
    rw [normalizeText_again hclean hcanonical, if_pos rfl]
  | false =>
    generalize hjoined : unbroken unicode allowDehyphenation value = joined
    have hmem : ∀ c ∈ joined, c ∈ value := by
      intro c hc
      rw [← hjoined, unbroken] at hc
      split at hc
      · exact UnicodeLibrary.mem_dehyphenate hc
      · exact hc
    have hout : (self.normalizeText unicode text false allowDehyphenation allowLineJoin).1 =
        finishLines allowLineJoin (tidyLines self.profile joined) := by
      rw [normalizeText_eq, dropControls_beforeControls, hvalue, hjoined]
    have hcleanOut : ∀ c ∈ finishLines allowLineJoin (tidyLines self.profile joined),
        self.Clean c := by
      intro c hc
      rcases mem_finish_tidyLines hc with hc | rfl | rfl
      · exact hclean c (hmem c hc)
      · exact clean_space
      · exact clean_newline
    have hcanonical := @canonical_finish_iff self unicode joined allowLineJoin h
      (fun c hc => hfixed c (hmem c hc))
    have hidem := @finishLines_idem self.profile _ (@tidy_tidyLines self.profile joined) allowLineJoin
    rw [hout, Settled, hvalue, Bool.not_false, Bool.and_true]
    cases allowDehyphenation with
    | false =>
      rw [if_neg Bool.false_ne_true, ← hdeletions]
      obtain rfl : value = joined := hjoined
      rw [hcanonical]
      refine ⟨And.left, fun hvalueCanonical => ⟨hvalueCanonical, ?_⟩⟩
      rw [normalizeText_again hcleanOut (hcanonical.mpr hvalueCanonical),
        if_neg Bool.false_ne_true]
      exact hidem
    | true =>
      obtain rfl : (unicode.dehyphenate value).1 = joined := hjoined
      rw [if_pos rfl, ← h.canonical_iff_stretches, hcanonical]
      refine and_congr_right (fun hjoinedCanonical => ?_)
      rw [normalizeText_again hcleanOut (hcanonical.mpr hjoinedCanonical),
        if_neg Bool.false_ne_true, unbroken, if_pos rfl]
      exact dehyphenate_finished_iff _ allowLineJoin

theorem composes_plainUnicode : Composes (plainUnicode.normalize "NFC") where
  idempotent := fun _ => rfl
  parts := fun _ _ _ => ⟨rfl, rfl⟩
  space := fun _ _ _ _ _ => rfl
  ascii := fun _ _ => rfl
  noReturn := fun _ h => h

theorem normalizeText_settled_sample :
    Canonical (plainUnicode.normalize "NFC")
        (defaultService.normalizeText plainUnicode [' ', 'a', '\n'] false false true).1 ∧
      (defaultService.normalizeText plainUnicode
          (defaultService.normalizeText plainUnicode [' ', 'a', '\n'] false false true).1
          false false true).1 =
        (defaultService.normalizeText plainUnicode [' ', 'a', '\n'] false false true).1 :=
  (normalizeText_settled_iff defaultService plainUnicode composes_plainUnicode [' ', 'a', '\n']
    false false true).mpr (fun _ _ _ => rfl)

end TextNormalizationService

/-! ## An accent behind a soft hyphen -/

def acute : Char := Char.ofNat 0x301

def eAcute : Char := Char.ofNat 0xe9

/-- A character before a composed text. -/
def pushAcute (c : Char) (rest : List Char) : List Char :=
  if c = 'e' ∧ rest.head? = some acute then eAcute :: rest.tail else c :: rest

/-- Composition of one letter with one accent. -/
def composeAcute (text : List Char) : List Char := text.foldr pushAcute []

theorem composeAcute_cons (c : Char) (text : List Char) :
    composeAcute (c :: text) = pushAcute c (composeAcute text) := rfl

theorem mem_composeAcute {c : Char} {text : List Char} (h : c ∈ composeAcute text) :
    c ∈ text ∨ c = eAcute := by
  induction text with
  | nil => cases h
  | cons a text ih =>
    rw [composeAcute_cons, pushAcute] at h
    split at h
    · rcases List.mem_cons.mp h with heq | hmem
      · exact .inr heq
      · exact (ih (List.mem_of_mem_tail hmem)).imp_left (List.mem_cons_of_mem a)
    · rcases List.mem_cons.mp h with heq | hmem
      · exact .inl (heq ▸ List.mem_cons_self)
      · exact (ih hmem).imp_left (List.mem_cons_of_mem a)

/-- The letter and the accent nowhere stand together. -/
theorem canonical_cons_iff (c : Char) (text : List Char) :
    Canonical composeAcute (c :: text) ↔
      Canonical composeAcute text ∧ ¬ (c = 'e' ∧ text.head? = some acute) := by
  rw [Canonical, Canonical, composeAcute_cons, pushAcute]
  constructor
  · intro hfixed
    by_cases hpair : c = 'e' ∧ (composeAcute text).head? = some acute
    · rw [if_pos hpair] at hfixed
      have hc := (List.cons.inj hfixed).1
      rw [hpair.1] at hc
      exact absurd hc (by decide)
    · rw [if_neg hpair] at hfixed
      have htext := (List.cons.inj hfixed).2
      rw [htext] at hpair
      exact ⟨htext, hpair⟩
  · rintro ⟨htext, hpair⟩
    rw [htext, if_neg hpair]

theorem composes_composeAcute : Composes composeAcute where
  idempotent := by
    intro text
    induction text with
    | nil => rfl
    | cons c text ih =>
      rw [composeAcute_cons, pushAcute]
      split
      · next hpair =>
        cases hrest : composeAcute text with
        | nil =>
          rw [hrest] at hpair
          cases hpair.2
        | cons a rest =>
          rw [hrest, canonical_cons_iff] at ih
          rw [List.tail_cons, canonical_cons_iff]
          exact ⟨ih.1, fun hfalse => absurd hfalse.1 (by decide)⟩
      · next hpair => exact (canonical_cons_iff c _).mpr ⟨ih, hpair⟩
  parts := by
    intro x y h
    induction x with
    | nil => exact ⟨rfl, h⟩
    | cons c x ih =>
      rw [List.cons_append, canonical_cons_iff] at h
      obtain ⟨hx, hy⟩ := ih h.1
      refine ⟨(canonical_cons_iff c x).mpr ⟨hx, fun hpair => h.2 ⟨hpair.1, ?_⟩⟩, hy⟩
      rw [List.head?_append, hpair.2]
      rfl
  space := by
    intro c hc _ x y
    have hletter : c ≠ 'e' := by
      rintro rfl
      cases hc
    have haccent : c ≠ acute := by
      rintro rfl
      exact absurd hc (by decide)
    induction x with
    | nil => exact if_neg (fun hpair => hletter hpair.1)
    | cons a x ih =>
      rw [List.cons_append, composeAcute_cons, ih, composeAcute_cons, pushAcute, pushAcute]
      cases composeAcute x with
      | nil =>
        rw [if_neg (fun hpair => haccent (Option.some.inj hpair.2)),
          if_neg (fun hpair => by cases hpair.2)]
        rfl
      | cons b rest =>
        by_cases hpair : a = 'e' ∧ b = acute
        · rw [if_pos ⟨hpair.1, congrArg some hpair.2⟩, if_pos ⟨hpair.1, congrArg some hpair.2⟩]
          rfl
        · rw [if_neg (fun hfalse => hpair ⟨hfalse.1, Option.some.inj hfalse.2⟩),
            if_neg (fun hfalse => hpair ⟨hfalse.1, Option.some.inj hfalse.2⟩)]
          rfl
  ascii := fun c _ => if_neg (fun hpair => by cases hpair.2)
  noReturn := by
    intro text h hmem
    rcases mem_composeAcute hmem with hmem | heq
    · exact h hmem
    · exact absurd heq (by decide)

/-- A library that knows one composition. -/
def accentUnicode : UnicodeLibrary := { plainUnicode with normalize := fun _ => composeAcute }

/-- The soft hyphen is deleted after composition, and the letter before it then
stands beside its accent. -/
theorem not_canonical_accent :
    Composes (accentUnicode.normalize "NFC") ∧
      ¬ Canonical (accentUnicode.normalize "NFC") (defaultService.normalizeText accentUnicode
        ['e', softHyphen, acute] false false true).1 := by
  refine ⟨composes_composeAcute, ?_⟩
  rw [Canonical]
  decide

end AstraIndexator
