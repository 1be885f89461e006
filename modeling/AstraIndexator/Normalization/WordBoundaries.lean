import AstraIndexator.Normalization.Lines

/-!
# The words of a normalised text

The passes over lines keep the words of the text as they find it.  What fuses two
words is the deletion before them: the vertical tab, the form feed and the
information separators are whitespace, and they are deleted as control characters
before whitespace is looked at.
-/

namespace AstraIndexator

open Text Words

/-- Whitespace ends a word; whether a no-break space does is left open. -/
def separates (nbsp : Bool) (c : Char) : Bool := isSpace c && (nbsp || c != noBreakSpace)

namespace TextNormalizationService

variable (self : TextNormalizationService) (unicode : UnicodeLibrary)

/-- What the passes delete: soft hyphens, if enabled, and control characters. -/
def deletes (c : Char) : Bool := self.profile.removeSoftHyphen && c == softHyphen || isC0 c

/-- What should be deleted: soft hyphens, if enabled, and control characters that
are no whitespace. -/
def removes (c : Char) : Bool :=
  self.profile.removeSoftHyphen && c == softHyphen || isC0 c && !isSpace c

/-- The text without the deleted characters. -/
def kept (text : List Char) : List Char := text.filter fun c => !self.deletes c

end TextNormalizationService

/-! ## Separators -/

section Separators

variable {nbsp : Bool}

theorem separates_of_isHorizontalSpace {c : Char} (h : isHorizontalSpace c = true) :
    separates nbsp c = true := by
  have hne : c ≠ noBreakSpace := by
    rintro rfl
    revert h
    decide
  rw [separates, isSpace_of_isHorizontalSpace h, Bool.true_and, Bool.or_eq_true, bne_iff_ne]
  exact .inr hne

theorem separates_space : separates nbsp ' ' = true := separates_of_isHorizontalSpace rfl

theorem separates_newline : separates nbsp '\n' = true := by
  cases nbsp <;> rfl

/-- Whitespace that ends no word is a no-break space. -/
theorem separates_iff_of_isSpace {c : Char} (h : isSpace c = true) :
    separates nbsp c = true ↔ nbsp = true ∨ c ≠ noBreakSpace := by
  rw [separates, h, Bool.true_and, Bool.or_eq_true, bne_iff_ne]

theorem removes_eq_deletes {self : TextNormalizationService} {c : Char}
    (h : separates nbsp c = false) : self.removes c = self.deletes c := by
  have hspace : (isC0 c && !isSpace c) = isC0 c := by
    cases hc : isSpace c with
    | false => rw [Bool.not_false, Bool.and_true]
    | true =>
      have hnbsp : c = noBreakSpace := by
        by_contra hne
        rw [(separates_iff_of_isSpace hc).mpr (.inr hne)] at h
        cases h
      rw [hnbsp]
      rfl
  rw [TextNormalizationService.removes, TextNormalizationService.deletes, hspace]

end Separators

/-! ## The passes over lines -/

section Lines

variable {nbsp : Bool}

theorem wordsFrom_collapseFrom (l : List Char) :
    (∀ cur, wordsFrom (separates nbsp) cur (collapseFrom false l).1 =
      wordsFrom (separates nbsp) cur l) ∧
    words (separates nbsp) (collapseFrom true l).1 = words (separates nbsp) l := by
  induction l with
  | nil => exact ⟨fun cur => rfl, rfl⟩
  | cons c l ih =>
    obtain ⟨hline, hrun⟩ := ih
    cases hc : isHorizontalSpace c with
    | true =>
      have hsep := @separates_of_isHorizontalSpace nbsp c hc
      refine ⟨fun cur => ?_, ?_⟩
      · rw [collapseFrom, hc, if_pos rfl, if_neg Bool.false_ne_true,
          wordsFrom_cons_sep separates_space, hrun, wordsFrom_cons_sep hsep]
      · rw [collapseFrom, hc, if_pos rfl, if_pos rfl, hrun, words_cons_sep hsep]
    | false =>
      have hcons : ∀ inRun, (collapseFrom inRun (c :: l)).1 = c :: (collapseFrom false l).1 := by
        intro inRun
        rw [collapseFrom, hc]
        rfl
      have hword : ∀ cur, wordsFrom (separates nbsp) cur (c :: (collapseFrom false l).1) =
          wordsFrom (separates nbsp) cur (c :: l) := by
        intro cur
        rw [wordsFrom, wordsFrom, hline, hline]
      exact ⟨fun cur => by rw [hcons, hword], by rw [hcons, words, hword, words]⟩

theorem words_normalizeLine (profile : NormalizationProfile) (line : List Char) :
    words (separates nbsp) (normalizeLine profile line).1 =
      words (separates nbsp) (stripChars line) := by
  rw [normalizeLine]
  split
  · change words (separates nbsp) (stripChars (collapseFrom false line).1) = _
    rw [stripChars_collapseFrom, words, (wordsFrom_collapseFrom _).1, words]
  · rfl

/-- The characters that belong to words. -/
def letters (nbsp : Bool) (l : List Char) : List Char := l.filter fun c => !separates nbsp c

/-- Stripping takes no letter unless the line has a no-break space at an end that
ends no word. -/
theorem letters_stripChars (line : List Char) :
    (letters nbsp (stripChars line)).length ≤ (letters nbsp line).length ∧
    ((letters nbsp (stripChars line)).length = (letters nbsp line).length ↔
      nbsp = true ∨ noBreakSpace ∉ trimmed line) ∧
    (nbsp = true ∨ noBreakSpace ∉ trimmed line →
      words (separates nbsp) (stripChars line) = words (separates nbsp) line) := by
  obtain ⟨start, stop, hline, htrimmed, hstart, hstop⟩ := exists_stripChars line
  rw [htrimmed]
  have hends : (∀ c ∈ start ++ stop, separates nbsp c = true) ↔
      nbsp = true ∨ noBreakSpace ∉ start ++ stop := by
    have hspace : ∀ c ∈ start ++ stop, isSpace c = true := by
      intro c hc
      exact (List.mem_append.mp hc).elim (hstart c) (hstop c)
    constructor
    · intro hall
      by_cases hnbsp : nbsp = true
      · exact .inl hnbsp
      · refine .inr (fun hmem => ?_)
        have hsep := (separates_iff_of_isSpace (hspace _ hmem)).mp (hall _ hmem)
        exact hsep.elim hnbsp (fun hne => hne rfl)
    · intro hcond c hc
      refine (separates_iff_of_isSpace (hspace c hc)).mpr (hcond.imp_right ?_)
      rintro hmem rfl
      exact hmem hc
  have hlength : (letters nbsp line).length =
      (letters nbsp (stripChars line)).length + (letters nbsp (start ++ stop)).length := by
    conv => lhs; rw [hline]
    simp only [letters, List.filter_append, List.length_append]
    omega
  have hnone : (letters nbsp (start ++ stop)).length = 0 ↔
      nbsp = true ∨ noBreakSpace ∉ start ++ stop := by
    rw [← hends, letters, List.length_eq_zero_iff, List.filter_eq_nil_iff]
    simp
  refine ⟨by omega, ?_, fun hcond => ?_⟩
  · rw [← hnone]
    omega
  · have hall := hends.mpr hcond
    conv => rhs; rw [hline]
    exact (words_of_ends (fun c hc => hall c (List.mem_append_left stop hc))
      (fun c hc => hall c (List.mem_append_right start hc)) _).symm

theorem flatMap_filter_ne_nil (lines : List (List Char)) :
    (lines.filter fun line => line ≠ []).flatMap (words (separates nbsp)) =
      lines.flatMap (words (separates nbsp)) := by
  induction lines with
  | nil => rfl
  | cons line lines ih =>
    by_cases hline : line = []
    · rw [List.filter_cons_of_neg (by simpa using hline), ih, hline]
      rfl
    · rw [List.filter_cons_of_pos (by simpa using hline), List.flatMap_cons, List.flatMap_cons, ih]

theorem flatten_flatMap_words (lines : List (List Char)) (f : List Char → List Char) :
    (lines.flatMap fun line => words (separates nbsp) (f line)).flatten.length =
      (lines.map fun line => (letters nbsp (f line)).length).sum := by
  induction lines with
  | nil => rfl
  | cons line lines ih =>
    rw [List.flatMap_cons, List.flatten_append, List.length_append, ih, words_flatten, List.map_cons,
      List.sum_cons, letters]

/-- The lines of a text lose no letter exactly when none of them does. -/
theorem letters_lines_iff (lines : List (List Char)) :
    (lines.map fun line => (letters nbsp (stripChars line)).length).sum ≤
        (lines.map fun line => (letters nbsp line).length).sum ∧
    ((lines.map fun line => (letters nbsp (stripChars line)).length).sum =
        (lines.map fun line => (letters nbsp line).length).sum ↔
      ∀ line ∈ lines, nbsp = true ∨ noBreakSpace ∉ trimmed line) := by
  induction lines with
  | nil => exact ⟨Nat.le_refl 0, by simp⟩
  | cons line lines ih =>
    obtain ⟨hle, hiff⟩ := ih
    obtain ⟨hlineLe, hlineIff, -⟩ := @letters_stripChars nbsp line
    simp only [List.map_cons, List.sum_cons]
    refine ⟨by omega, ?_⟩
    rw [List.forall_mem_cons, ← hlineIff, ← hiff]
    omega

theorem words_finishLines (allowLineJoin : Bool) (lines : List (List Char)) :
    words (separates nbsp) (finishLines allowLineJoin lines) =
      lines.flatMap (words (separates nbsp)) := by
  cases allowLineJoin with
  | true =>
    change words (separates nbsp) ([' '].intercalate (lines.filter fun line => line ≠ [])) = _
    rw [words_intercalate separates_space, flatMap_filter_ne_nil]
  | false =>
    change words (separates nbsp) (['\n'].intercalate (compactLines lines)) = _
    rw [words_intercalate separates_newline, ← flatMap_filter_ne_nil, filter_compactLines,
      flatMap_filter_ne_nil]

end Lines

/-! ## The deletions -/

namespace TextNormalizationService

variable (self : TextNormalizationService) {nbsp : Bool}

theorem dropControls_dropSoftHyphens (value : List Char) :
    dropControls (self.dropSoftHyphens value) = self.kept value := by
  rw [dropControls, dropSoftHyphens, kept]
  by_cases hsoft : self.profile.removeSoftHyphen = true
  · rw [if_pos hsoft, List.filter_filter]
    refine List.filter_congr (fun c _ => ?_)
    rw [deletes, hsoft, Bool.true_and, Bool.not_or, Bool.and_comm]
    rfl
  · rw [if_neg hsoft]
    refine List.filter_congr (fun c _ => ?_)
    rw [deletes, Bool.eq_false_iff.mpr hsoft, Bool.false_and, Bool.false_or]

/-- No-break spaces and spaces are not deleted. -/
theorem kept_replaceNbsp (value : List Char) :
    self.kept (self.replaceNbsp value) = self.replaceNbsp (self.kept value) := by
  rw [replaceNbsp, replaceNbsp]
  by_cases hnbsp : self.profile.normalizeNbsp = true
  · rw [if_pos hnbsp, if_pos hnbsp, kept, List.filter_map, kept]
    congr 1
    refine List.filter_congr (fun c _ => ?_)
    rw [Function.comp_apply]
    by_cases hc : c = noBreakSpace
    · subst hc
      rw [if_pos rfl]
      cases self.profile.removeSoftHyphen <;> simp [deletes, isC0, softHyphen, noBreakSpace]
    · rw [if_neg hc]
  · rw [if_neg hnbsp, if_neg hnbsp]

theorem words_replaceNbsp (h : self.profile.normalizeNbsp = true → nbsp = true)
    (value : List Char) :
    words (separates nbsp) (self.replaceNbsp value) = words (separates nbsp) value := by
  rw [replaceNbsp]
  by_cases hnbsp : self.profile.normalizeNbsp = true
  · obtain rfl := h hnbsp
    rw [if_pos hnbsp]
    refine words_map (fun c => ?_) (fun c hc => if_neg ?_) value
    · by_cases hc : c = noBreakSpace
      · rw [if_pos hc, hc]
        rfl
      · rw [if_neg hc]
    · rintro rfl
      cases hc
  · rw [if_neg hnbsp]

theorem unicodeForm_eq : self.profile.unicodeForm = "NFC" := by
  have hvalid := self.valid
  by_contra hform
  rw [NormalizationProfile.validate, if_pos hform] at hvalid
  cases hvalid

theorem composed_eq (unicode : UnicodeLibrary) (text : List Char) :
    self.composed unicode text = unicode.normalize "NFC" (normalizeLineEndings text) := by
  rw [composed, unicodeForm_eq]

/-- The words of the text, each without its removed characters. -/
def wordsKept (nbsp : Bool) (text : List Char) : List (List Char) :=
  ((words (separates nbsp) text).map fun w => w.filter fun c => !self.removes c).filter
    fun w => w ≠ []

theorem wordsKept_eq (text : List Char) :
    self.wordsKept nbsp text =
      (words (separates nbsp) text).flatMap (trimWord fun c => !self.deletes c) := by
  have hletters : ∀ w ∈ words (separates nbsp) text,
      (w.filter fun c => !self.removes c) = w.filter fun c => !self.deletes c := by
    intro w hw
    refine List.filter_congr (fun c hc => ?_)
    have hmem : c ∈ (words (separates nbsp) text).flatten := List.mem_flatten.mpr ⟨w, hw, hc⟩
    rw [words_flatten, List.mem_filter, Bool.not_eq_true'] at hmem
    rw [removes_eq_deletes hmem.2]
  rw [wordsKept]
  generalize words (separates nbsp) text = ws at hletters
  induction ws with
  | nil => rfl
  | cons w ws ih =>
    rw [List.map_cons, List.flatMap_cons, ← ih (fun x hx => hletters x (List.mem_cons_of_mem w hx)),
      trimWord, ← hletters w List.mem_cons_self]
    by_cases hw : (w.filter fun c => !self.removes c) = []
    · rw [List.filter_cons_of_neg (by simpa using hw), hw, flush_nil, List.nil_append]
    · rw [List.filter_cons_of_pos (by simpa using hw), flush_of_ne_nil hw, List.singleton_append]

/-- The words of a text after the deletions hold the same letters. -/
theorem wordsKept_flatten (text : List Char) :
    (self.wordsKept nbsp text).flatten = (words (separates nbsp) (self.kept text)).flatten := by
  rw [wordsKept_eq, flatMap_trimWord_words, words_flatten, words_flatten, kept, List.filter_filter,
    List.filter_filter]
  refine List.filter_congr (fun c _ => ?_)
  cases separates nbsp c <;> simp

/-- The normalised text has the words of its input, less the removed characters,
exactly when no two characters that stay have deleted ones between them only, of
which one is whitespace, and no line begins or ends with a no-break space that is
no separator. -/
theorem words_normalizeText_iff (unicode : UnicodeLibrary) (text : List Char)
    (allowLineJoin nbsp : Bool) (h : self.profile.normalizeNbsp = true → nbsp = true) :
    words (separates nbsp) (self.normalizeText unicode text false false allowLineJoin).1 =
        self.wordsKept nbsp (unicode.normalize "NFC" (normalizeLineEndings text)) ↔
      fuses (separates nbsp) (fun c => !self.deletes c)
          (unicode.normalize "NFC" (normalizeLineEndings text)) = false ∧
        (nbsp = true ∨ ∀ line ∈ (self.kept (unicode.normalize "NFC"
          (normalizeLineEndings text))).splitOn '\n', noBreakSpace ∉ trimmed line) := by
  generalize hcomposed : unicode.normalize "NFC" (normalizeLineEndings text) = value
  have hvalue : dropControls (self.beforeControls unicode text) =
      self.replaceNbsp (self.kept value) := by
    rw [beforeControls, dropControls_dropSoftHyphens, kept_replaceNbsp, self.composed_eq, hcomposed]
  generalize hlines : (self.replaceNbsp (self.kept value)).splitOn '\n' = lines
  have hout : words (separates nbsp)
      (self.normalizeText unicode text false false allowLineJoin).1 =
        lines.flatMap fun line => words (separates nbsp) (stripChars line) := by
    rw [normalizeText_eq, words_finishLines, hvalue]
    change (tidyLines self.profile (self.replaceNbsp (self.kept value))).flatMap _ = _
    rw [tidyLines, hlines, List.flatMap_map]
    exact List.flatMap_congr (fun line _ => words_normalizeLine self.profile line)
  have hkept : words (separates nbsp) (self.kept value) =
      lines.flatMap (words (separates nbsp)) := by
    rw [← hlines, ← words_splitOn separates_newline, self.words_replaceNbsp h]
  have hfuses : words (separates nbsp) (self.kept value) = self.wordsKept nbsp value ↔
      fuses (separates nbsp) (fun c => !self.deletes c) value = false := by
    rw [wordsKept_eq, kept]
    exact words_filter_iff value
  have htrimmed : (nbsp = true ∨ ∀ line ∈ (self.kept value).splitOn '\n',
      noBreakSpace ∉ trimmed line) ↔ ∀ line ∈ lines, nbsp = true ∨ noBreakSpace ∉ trimmed line := by
    cases nbsp with
    | true => simp
    | false =>
      have hoff : self.profile.normalizeNbsp = false := by
        by_contra hon
        exact Bool.false_ne_true (h (by simpa using hon))
      rw [← hlines, replaceNbsp, if_neg (by rw [hoff]; exact Bool.false_ne_true)]
      simp
  rw [htrimmed, ← hfuses, hout]
  constructor
  · -- equal words have equally many letters, so no line lost one
    intro heq
    have hlength := congrArg (fun ws => ws.flatten.length) heq
    have hright := @flatten_flatMap_words nbsp lines fun line => line
    simp only [wordsKept_flatten, hkept, flatten_flatMap_words] at hlength
    have hlost := (letters_lines_iff lines).2.mp (hlength.trans hright)
    refine ⟨?_, hlost⟩
    rw [← heq, hkept]
    exact List.flatMap_congr (fun line hline =>
      ((letters_stripChars line).2.2 (hlost line hline)).symm)
  · rintro ⟨hwords, hlost⟩
    rw [← hwords, hkept]
    exact List.flatMap_congr (fun line hline => (letters_stripChars line).2.2 (hlost line hline))

theorem words_normalizeText_sample :
    words (separates true) (defaultService.normalizeText plainUnicode ['a', '\t', 'b'] false false
        true).1 = defaultService.wordsKept true ['a', '\t', 'b'] :=
  (words_normalizeText_iff defaultService plainUnicode ['a', '\t', 'b'] true true
    (fun _ => rfl)).mpr ⟨by decide, .inl rfl⟩

/-- A vertical tab between two letters is whitespace, and its deletion fuses them. -/
theorem words_normalizeText_verticalTab :
    words (separates true) (defaultService.normalizeText plainUnicode
        ['a', Char.ofNat 0xb, 'b'] false false true).1 ≠
      defaultService.wordsKept true (plainUnicode.normalize "NFC"
        (normalizeLineEndings ['a', Char.ofNat 0xb, 'b'])) := by
  decide

end TextNormalizationService

end AstraIndexator
