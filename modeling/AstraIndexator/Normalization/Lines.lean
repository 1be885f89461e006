import AstraIndexator.Foundation.Words
import AstraIndexator.Normalization.Service
import Mathlib.Data.List.DropRight
import Mathlib.Data.List.Chain

/-!
# Lines after their passes

Stripping, collapsing runs of whitespace and dropping blank lines each do nothing
the second time, and collapsing and stripping commute.
-/

namespace Text

/-- The whitespace at the ends, which `strip` takes away. -/
def trimmed (l : List Char) : List Char :=
  l.takeWhile isSpace ++ (l.dropWhile isSpace).rtakeWhile isSpace

/-- No whitespace at the ends. -/
structure Stripped (l : List Char) : Prop where
  head : ∀ c ∈ l.head?, isSpace c = false
  last : ∀ c ∈ l.getLast?, isSpace c = false

variable {l m : List Char}

theorem stripChars_eq (l : List Char) : stripChars l = (l.dropWhile isSpace).rdropWhile isSpace :=
  rfl

/-- A text is its stripped part between two stretches of whitespace. -/
theorem exists_stripChars (l : List Char) :
    ∃ start stop, l = start ++ stripChars l ++ stop ∧ trimmed l = start ++ stop ∧
      (∀ c ∈ start, isSpace c = true) ∧ ∀ c ∈ stop, isSpace c = true := by
  refine ⟨l.takeWhile isSpace, (l.dropWhile isSpace).rtakeWhile isSpace, ?_, rfl, ?_, ?_⟩
  · rw [stripChars_eq, List.append_assoc, List.rdropWhile_append_rtakeWhile,
      List.takeWhile_append_dropWhile]
  · intro c hc
    exact List.mem_takeWhile_imp hc
  · intro c hc
    exact List.mem_rtakeWhile_imp hc

/-- A text without a stripped part is blank. -/
theorem isSpace_of_stripChars_eq_nil {l : List Char} (h : stripChars l = []) :
    ∀ c ∈ l, isSpace c = true := by
  obtain ⟨start, stop, hl, -, hstart, hstop⟩ := exists_stripChars l
  intro c hc
  rw [hl, h, List.append_nil] at hc
  rcases List.mem_append.mp hc with hc | hc
  · exact hstart c hc
  · exact hstop c hc

/-- The words of a text are those of its stripped part. -/
theorem words_stripChars (l : List Char) :
    Words.words isSpace (stripChars l) = Words.words isSpace l := by
  obtain ⟨start, stop, hsplit, -, hstart, hstop⟩ := exists_stripChars l
  conv_rhs => rw [hsplit]
  exact (Words.words_of_ends hstart hstop _).symm

theorem stripped_nil : Stripped [] := ⟨by simp, by simp⟩

theorem stripped_stripChars (l : List Char) : Stripped (stripChars l) := by
  rw [stripChars_eq]
  constructor
  · intro c hc
    obtain ⟨rest, hrest⟩ := List.rdropWhile_prefix isSpace (l.dropWhile isSpace)
    have hhead : (l.dropWhile isSpace).head? = some c := by
      rw [← hrest, List.head?_append, Option.mem_def.mp hc]
      rfl
    have hnot := List.head?_dropWhile_not isSpace l
    rw [hhead] at hnot
    simpa using hnot
  · intro c hc
    have hne : (l.dropWhile isSpace).rdropWhile isSpace ≠ [] := by
      intro hnil
      rw [hnil] at hc
      cases hc
    have hlast := List.rdropWhile_last_not isSpace (l.dropWhile isSpace) hne
    rw [List.getLast?_eq_some_getLast hne] at hc
    obtain rfl := Option.some.inj hc
    simpa using hlast

theorem Stripped.eq (h : Stripped l) : stripChars l = l := by
  have hdrop : l.dropWhile isSpace = l := by
    cases l with
    | nil => rfl
    | cons c l => exact List.dropWhile_cons_of_neg (by simp [h.head c rfl])
  rw [stripChars_eq, hdrop, List.rdropWhile_eq_self_iff]
  intro hne
  simp [h.last _ (List.getLast?_eq_some_getLast hne)]

theorem stripChars_of_forall_isSpace (h : ∀ c ∈ l, isSpace c = true) : stripChars l = [] := by
  rw [stripChars_eq, List.dropWhile_eq_nil_iff.mpr h, List.rdropWhile_nil]

/-- Whitespace around a stripped text is taken away. -/
theorem Stripped.of_ends (hm : Stripped m) {start stop : List Char}
    (hstart : ∀ c ∈ start, isSpace c = true) (hstop : ∀ c ∈ stop, isSpace c = true) :
    stripChars (start ++ m ++ stop) = m := by
  by_cases hne : m = []
  · subst hne
    refine stripChars_of_forall_isSpace (fun c hc => ?_)
    rw [List.append_nil, List.mem_append] at hc
    exact hc.elim (hstart c) (hstop c)
  · have hdrop : (m ++ stop).dropWhile isSpace = m ++ stop := by
      cases m with
      | nil => exact absurd rfl hne
      | cons c m => exact List.dropWhile_cons_of_neg (by simp [hm.head c rfl])
    rw [stripChars, List.append_assoc, List.dropWhile_append_of_pos hstart, hdrop,
      List.reverse_append, List.dropWhile_append_of_pos (by simpa using hstop)]
    have hself := hm.eq
    rw [stripChars] at hself
    cases m with
    | nil => exact absurd rfl hne
    | cons c m =>
      rw [List.dropWhile_cons_of_neg (by simp [hm.head c rfl])] at hself
      exact hself

theorem head?_intercalate {sep : Char} {ls : List (List Char)} (h : ∀ l ∈ ls.head?, l ≠ []) :
    ([sep].intercalate ls).head? = ls.head?.bind List.head? := by
  cases ls with
  | nil => rfl
  | cons l ls =>
    cases ls with
    | nil => simp
    | cons l' ls =>
      obtain ⟨c, l, rfl⟩ := List.exists_cons_of_ne_nil (h l rfl)
      simp [List.intercalate_cons_cons]

theorem getLast?_intercalate {sep : Char} {ls : List (List Char)}
    (h : ∀ l ∈ ls.getLast?, l ≠ []) :
    ([sep].intercalate ls).getLast? = ls.getLast?.bind List.getLast? := by
  induction ls with
  | nil => rfl
  | cons l ls ih =>
    cases ls with
    | nil => simp
    | cons l' ls =>
      have hrest := ih (fun x hx => h x (by rwa [List.getLast?_cons_cons]))
      rw [List.intercalate_cons_cons, List.getLast?_append, hrest, List.getLast?_cons_cons]
      obtain ⟨x, hx⟩ : ∃ x, (l' :: ls).getLast? = some x :=
        ⟨_, List.getLast?_eq_some_getLast (List.cons_ne_nil l' ls)⟩
      have hne : x ≠ [] := h x (by rw [List.getLast?_cons_cons, hx]; rfl)
      rw [hx, Option.bind_some, List.getLast?_eq_some_getLast hne, Option.some_or]

/-- Stripped lines, of which the outer ones are not blank, make a stripped text. -/
theorem stripped_intercalate {sep : Char} {ls : List (List Char)}
    (hall : ∀ l ∈ ls, Stripped l) (hhead : ∀ l ∈ ls.head?, l ≠ [])
    (hlast : ∀ l ∈ ls.getLast?, l ≠ []) : Stripped ([sep].intercalate ls) := by
  constructor
  · intro c hc
    rw [head?_intercalate hhead, Option.mem_def, Option.bind_eq_some_iff] at hc
    obtain ⟨l, hl, hcl⟩ := hc
    exact (hall l (List.mem_of_mem_head? hl)).head c hcl
  · intro c hc
    rw [getLast?_intercalate hlast, Option.mem_def, Option.bind_eq_some_iff] at hc
    obtain ⟨l, hl, hcl⟩ := hc
    exact (hall l (List.mem_of_mem_getLast? hl)).last c hcl

end Text

namespace AstraIndexator

open Text Words

/-! ## Runs of whitespace -/

theorem isSpace_of_isHorizontalSpace {c : Char} (h : isHorizontalSpace c = true) :
    isSpace c = true := by
  simp only [isHorizontalSpace, isSpace, Bool.or_eq_true, beq_iff_eq, Bool.and_eq_true,
    decide_eq_true_eq] at h ⊢
  omega

/-- Whether a run is open after a text. -/
def runAfter : Bool → List Char → Bool
  | inRun, [] => inRun
  | _, c :: l => runAfter (isHorizontalSpace c) l

theorem collapseFrom_append (inRun : Bool) (l m : List Char) :
    (collapseFrom inRun (l ++ m)).1 =
      (collapseFrom inRun l).1 ++ (collapseFrom (runAfter inRun l) m).1 := by
  induction l generalizing inRun with
  | nil => rfl
  | cons c l ih =>
    rw [List.cons_append, collapseFrom, collapseFrom, runAfter]
    cases hc : isHorizontalSpace c with
    | true =>
      cases inRun with
      | true => exact ih true
      | false => exact congrArg (' ' :: ·) (ih true)
    | false => exact congrArg (c :: ·) (ih false)

theorem collapseFrom_idem (inRun : Bool) (l : List Char) :
    (collapseFrom inRun (collapseFrom inRun l).1).1 = (collapseFrom inRun l).1 := by
  induction l generalizing inRun with
  | nil => rfl
  | cons c l ih =>
    rw [collapseFrom]
    cases hc : isHorizontalSpace c with
    | true =>
      cases inRun with
      | true => exact ih true
      | false => exact congrArg (' ' :: ·) (ih true)
    | false =>
      change (collapseFrom inRun (c :: (collapseFrom false l).1)).1 = c :: (collapseFrom false l).1
      rw [collapseFrom, hc]
      exact congrArg (c :: ·) (ih false)

theorem mem_collapseFrom {inRun : Bool} {l : List Char} {c : Char}
    (h : c ∈ (collapseFrom inRun l).1) : c ∈ l ∨ c = ' ' ∧ ∃ x ∈ l, isHorizontalSpace x = true := by
  induction l generalizing inRun with
  | nil => cases h
  | cons a l ih =>
    have hlater : ∀ b, c ∈ (collapseFrom b l).1 →
        c ∈ a :: l ∨ c = ' ' ∧ ∃ x ∈ a :: l, isHorizontalSpace x = true := by
      intro b hb
      refine (ih hb).imp (List.mem_cons_of_mem a) ?_
      rintro ⟨heq, x, hx, hspace⟩
      exact ⟨heq, x, List.mem_cons_of_mem a hx, hspace⟩
    rw [collapseFrom] at h
    by_cases ha : isHorizontalSpace a = true
    · rw [if_pos ha] at h
      cases inRun with
      | true => exact hlater true h
      | false =>
        rcases List.mem_cons.mp h with heq | hmem
        · exact .inr ⟨heq, a, List.mem_cons_self, ha⟩
        · exact hlater true hmem
    · rw [if_neg ha] at h
      rcases List.mem_cons.mp h with heq | hmem
      · exact .inl (heq ▸ List.mem_cons_self)
      · exact hlater false hmem

theorem isSpace_collapseFrom {l : List Char} (h : ∀ c ∈ l, isSpace c = true) (inRun : Bool) :
    ∀ c ∈ (collapseFrom inRun l).1, isSpace c = true := by
  intro c hc
  rcases mem_collapseFrom hc with hmem | ⟨rfl, -⟩
  · exact h c hmem
  · rfl

theorem isHorizontalSpace_eq_false {c : Char} (h : isSpace c = false) :
    isHorizontalSpace c = false := by
  rw [← Bool.not_eq_true]
  intro hc
  rw [isSpace_of_isHorizontalSpace hc] at h
  cases h

theorem collapseFrom_cons {c : Char} (h : isSpace c = false) (inRun : Bool) (l : List Char) :
    (collapseFrom inRun (c :: l)).1 = c :: (collapseFrom false l).1 := by
  rw [collapseFrom, isHorizontalSpace_eq_false h, if_neg Bool.false_ne_true]

/-- A stripped text stays stripped, and what stood before it does not matter. -/
theorem stripped_collapseFrom {l : List Char} (h : Stripped l) (inRun : Bool) :
    Stripped (collapseFrom inRun l).1 ∧ (collapseFrom inRun l).1 = (collapseFrom false l).1 := by
  cases l with
  | nil => exact ⟨stripped_nil, rfl⟩
  | cons c l =>
    have hc := h.head c rfl
    refine ⟨⟨?_, ?_⟩, by rw [collapseFrom_cons hc, collapseFrom_cons hc]⟩
    · intro x hx
      rw [collapseFrom_cons hc] at hx
      obtain rfl := Option.some.inj hx
      exact hc
    · intro x hx
      rcases List.eq_nil_or_concat (c :: l) with hnil | ⟨start, last, heq⟩
      · cases hnil
      · rw [List.concat_eq_append] at heq
        have hlast : isSpace last = false := h.last last (by simp [heq])
        rw [heq, collapseFrom_append, collapseFrom_cons hlast] at hx
        have hxl : last = x := by simpa [collapseFrom] using hx
        exact hxl ▸ hlast

/-- Stripping and collapsing commute. -/
theorem stripChars_collapseFrom (l : List Char) :
    stripChars (collapseFrom false l).1 = (collapseFrom false (stripChars l)).1 := by
  obtain ⟨start, stop, hl, -, hstart, hstop⟩ := exists_stripChars l
  obtain ⟨hstripped, hfalse⟩ :=
    stripped_collapseFrom (stripped_stripChars l) (runAfter false start)
  have hsplit := collapseFrom_append false (start ++ stripChars l) stop
  rw [← hl, collapseFrom_append] at hsplit
  rw [hsplit, hstripped.of_ends (isSpace_collapseFrom hstart _) (isSpace_collapseFrom hstop _),
    hfalse]

/-! ## One line -/

theorem stripped_normalizeLine (profile : NormalizationProfile) (line : List Char) :
    Stripped (normalizeLine profile line).1 := by
  rw [normalizeLine]
  split
  · exact stripped_stripChars _
  · exact stripped_stripChars _

theorem normalizeLine_idem (profile : NormalizationProfile) (line : List Char) :
    (normalizeLine profile (normalizeLine profile line).1).1 = (normalizeLine profile line).1 := by
  rw [normalizeLine, normalizeLine]
  by_cases hcollapse : profile.collapseHorizontalWhitespace = true
  · rw [if_pos hcollapse, if_pos hcollapse]
    change stripChars (collapseFrom false (stripChars (collapseFrom false line).1)).1 = _
    rw [stripChars_collapseFrom, (stripped_stripChars _).eq, ← stripChars_collapseFrom,
      collapseFrom_idem]
  · rw [if_neg hcollapse, if_neg hcollapse]
    exact (stripped_stripChars line).eq

theorem normalizeLine_of_nil (profile : NormalizationProfile) :
    (normalizeLine profile []).1 = [] := by
  rw [normalizeLine]
  split <;> rfl

theorem mem_stripChars {l : List Char} {c : Char} (h : c ∈ stripChars l) : c ∈ l := by
  obtain ⟨start, stop, hl, -⟩ := exists_stripChars l
  rw [hl]
  exact List.mem_append_left stop (List.mem_append_right start h)

/-- A line only gains spaces. -/
theorem mem_normalizeLine {profile : NormalizationProfile} {line : List Char} {c : Char}
    (h : c ∈ (normalizeLine profile line).1) : c ∈ line ∨ c = ' ' := by
  rw [normalizeLine] at h
  split at h
  · exact (mem_collapseFrom (mem_stripChars h)).imp_right And.left
  · exact .inl (mem_stripChars h)

/-! ## Blank lines -/

/-- No blank line at the ends and no two in a row. -/
structure Compacted (lines : List (List Char)) : Prop where
  head : ∀ line ∈ lines.head?, line ≠ []
  last : ∀ line ∈ lines.getLast?, line ≠ []
  chain : lines.IsChain fun a b => a ≠ [] ∨ b ≠ []

/-- What holds of the lines kept so far. -/
structure Compacting (lines : List (List Char)) : Prop where
  head : ∀ line ∈ lines.head?, line ≠ []
  chain : lines.IsChain fun a b => a ≠ [] ∨ b ≠ []

theorem Compacting.step {compact : List (List Char)} (h : Compacting compact) (line : List Char) :
    Compacting (compactStep compact line) := by
  rw [compactStep]
  by_cases hkeep : line ≠ [] ∨ (compact ≠ [] ∧ compact.getLast? ≠ some [])
  · rw [if_pos hkeep]
    constructor
    · intro x hx
      cases compact with
      | nil =>
        obtain rfl := Option.some.inj hx
        exact hkeep.resolve_right (fun hfalse => hfalse.1 rfl)
      | cons a compact => exact h.head x hx
    · rw [List.isChain_append]
      refine ⟨h.chain, List.isChain_singleton line, fun a ha b hb => ?_⟩
      obtain rfl := Option.some.inj hb
      rcases hkeep with hline | ⟨-, hlast⟩
      · exact .inr hline
      · refine .inl (fun hnil => hlast ?_)
        rw [← hnil]
        exact ha
  · rw [if_neg hkeep]
    exact h

theorem compacting_foldl (lines : List (List Char)) :
    Compacting (lines.foldl compactStep []) := by
  have hfold : ∀ compact, Compacting compact → Compacting (lines.foldl compactStep compact) := by
    induction lines with
    | nil => exact fun compact h => h
    | cons line lines ih => exact fun compact h => ih _ (h.step line)
  exact hfold [] ⟨by simp, List.isChain_nil⟩

theorem compactLines_eq (lines : List (List Char)) :
    compactLines lines = (lines.foldl compactStep []).rdropWhile List.isEmpty := rfl

theorem compacted_compactLines (lines : List (List Char)) : Compacted (compactLines lines) := by
  have hcompacting := compacting_foldl lines
  rw [compactLines_eq]
  obtain ⟨rest, hrest⟩ :=
    List.rdropWhile_prefix List.isEmpty (lines.foldl compactStep [])
  refine ⟨fun line hline => hcompacting.head line ?_, fun line hline => ?_, ?_⟩
  · rw [← hrest, List.head?_append, Option.mem_def.mp hline]
    rfl
  · have hne : (lines.foldl compactStep []).rdropWhile List.isEmpty ≠ [] := by
      intro hnil
      rw [hnil] at hline
      cases hline
    have hlast := List.rdropWhile_last_not List.isEmpty (lines.foldl compactStep []) hne
    rw [List.getLast?_eq_some_getLast hne] at hline
    obtain rfl := Option.some.inj hline
    simpa using hlast
  · have hchain := hcompacting.chain
    rw [← hrest, List.isChain_append] at hchain
    exact hchain.1

theorem foldl_compactStep {compact lines : List (List Char)}
    (h : Compacting (compact ++ lines)) : lines.foldl compactStep compact = compact ++ lines := by
  induction lines generalizing compact with
  | nil => rw [List.append_nil]; rfl
  | cons line lines ih =>
    have hkeep : line ≠ [] ∨ (compact ≠ [] ∧ compact.getLast? ≠ some []) := by
      by_cases hline : line = []
      · subst hline
        have hne : compact ≠ [] := by
          intro hnil
          subst hnil
          exact h.head [] rfl rfl
        refine .inr ⟨hne, fun hlast => ?_⟩
        have hjoin := (List.isChain_append.mp h.chain).2.2 [] hlast [] rfl
        exact hjoin.elim (fun hfalse => hfalse rfl) (fun hfalse => hfalse rfl)
      · exact .inl hline
    rw [List.foldl_cons, compactStep, if_pos hkeep, ih]
    · rw [List.append_assoc, List.singleton_append]
    · rwa [List.append_assoc, List.singleton_append]

theorem compactLines_of_compacted {lines : List (List Char)} (h : Compacted lines) :
    compactLines lines = lines := by
  have hfold : lines.foldl compactStep [] = [] ++ lines := foldl_compactStep ⟨h.head, h.chain⟩
  rw [compactLines_eq, hfold, List.nil_append, List.rdropWhile_eq_self_iff]
  intro hne
  simpa using h.last _ (List.getLast?_eq_some_getLast hne)

/-- Lines that are not blank are kept. -/
theorem filter_compactLines (lines : List (List Char)) :
    (compactLines lines).filter (fun line => line ≠ []) = lines.filter fun line => line ≠ [] := by
  have hfold : ∀ compact, (lines.foldl compactStep compact).filter (fun line => line ≠ []) =
      compact.filter (fun line => line ≠ []) ++ lines.filter fun line => line ≠ [] := by
    induction lines with
    | nil => exact fun compact => (List.append_nil _).symm
    | cons line lines ih =>
      intro compact
      rw [List.foldl_cons, ih, compactStep]
      by_cases hline : line = []
      · subst hline
        split <;> simp
      · rw [if_pos (.inl hline), List.filter_append, List.append_assoc, ← List.filter_append,
          List.singleton_append]
  have hblank : ((lines.foldl compactStep []).rtakeWhile List.isEmpty).filter
      (fun line => line ≠ []) = [] := by
    rw [List.filter_eq_nil_iff]
    intro line hline
    simpa using List.mem_rtakeWhile_imp hline
  have hwhole := hfold []
  rw [← List.rdropWhile_append_rtakeWhile (l := lines.foldl compactStep []) (p := List.isEmpty),
    List.filter_append, hblank, List.append_nil] at hwhole
  exact hwhole

theorem mem_compactLines {lines : List (List Char)} {line : List Char}
    (h : line ∈ compactLines lines) : line = [] ∨ line ∈ lines := by
  by_cases hline : line = []
  · exact .inl hline
  · have hmem : line ∈ (compactLines lines).filter fun line => line ≠ [] :=
      List.mem_filter.mpr ⟨h, by simpa using hline⟩
    rw [filter_compactLines] at hmem
    exact .inr (List.mem_filter.mp hmem).1

/-! ## The text put together again -/

/-- The lines of a text, each after its passes. -/
def tidyLines (profile : NormalizationProfile) (value : List Char) : List (List Char) :=
  (value.splitOn '\n').map fun line => (normalizeLine profile line).1

/-- The lines joined again. -/
def finishLines (allowLineJoin : Bool) (lines : List (List Char)) : List Char :=
  if allowLineJoin then [' '].intercalate (lines.filter fun line => line ≠ [])
  else ['\n'].intercalate (compactLines lines)

theorem stripped_tidyLines {profile : NormalizationProfile} {value : List Char} :
    ∀ line ∈ tidyLines profile value, Stripped line := by
  intro line hline
  obtain ⟨raw, -, rfl⟩ := List.mem_map.mp hline
  exact stripped_normalizeLine profile raw

theorem stripped_finishLines {lines : List (List Char)} (h : ∀ line ∈ lines, Stripped line)
    (allowLineJoin : Bool) : Stripped (finishLines allowLineJoin lines) := by
  cases allowLineJoin with
  | true =>
    have hmem : ∀ line ∈ lines.filter (fun line => line ≠ []), line ∈ lines ∧ line ≠ [] := by
      simp
    exact stripped_intercalate (fun line hline => h line (hmem line hline).1)
      (fun line hline => (hmem line (List.mem_of_mem_head? hline)).2)
      (fun line hline => (hmem line (List.mem_of_mem_getLast? hline)).2)
  | false =>
    have hcompacted := compacted_compactLines lines
    refine stripped_intercalate (fun line hline => ?_) hcompacted.head hcompacted.last
    rcases mem_compactLines hline with rfl | hmem
    · exact stripped_nil
    · exact h line hmem

namespace TextNormalizationService

variable (self : TextNormalizationService) (unicode : UnicodeLibrary)

/-- The text that is cut into lines. -/
def unbroken (allowDehyphenation : Bool) (value : List Char) : List Char :=
  if allowDehyphenation then (unicode.dehyphenate value).1 else value

/-- Without layout the text is its lines after their passes. -/
theorem normalizeText_eq (text : List Char) (allowDehyphenation allowLineJoin : Bool) :
    (self.normalizeText unicode text false allowDehyphenation allowLineJoin).1 =
      finishLines allowLineJoin (tidyLines self.profile
        (unbroken unicode allowDehyphenation (dropControls (self.beforeControls unicode text)))) := by
  have hstrip := (stripped_finishLines (@stripped_tidyLines self.profile
    (unbroken unicode allowDehyphenation (dropControls (self.beforeControls unicode text))))
    allowLineJoin).eq
  rw [← hstrip, normalizeText, finishLines, unbroken, tidyLines]
  cases allowLineJoin <;> cases allowDehyphenation <;> simp [List.map_map, Function.comp_def]

end TextNormalizationService

end AstraIndexator
