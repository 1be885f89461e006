import Mathlib.Data.List.Basic

/-!
# Words between separators

The words of a list are its longest stretches without a separator.  Separators
may be doubled, replaced by others or taken from the ends without changing the
words.  Deleting letters that are no separators acts on each word alone; deleting
separators fuses two words exactly when nothing else stands between them.
-/

namespace Words

variable {α : Type} (sep : α → Bool)

/-- A word, unless it is empty. -/
def flush (cur : List α) : List (List α) := if cur.isEmpty then [] else [cur]

/-- The words of a list that continues an unfinished word. -/
def wordsFrom : List α → List α → List (List α)
  | cur, [] => flush cur
  | cur, c :: l => if sep c then flush cur ++ wordsFrom [] l else wordsFrom (cur ++ [c]) l

/-- The stretches between separators. -/
def words (l : List α) : List (List α) := wordsFrom sep [] l

variable {sep}

@[simp] theorem flush_nil : flush ([] : List α) = [] := rfl

theorem flush_of_ne_nil {cur : List α} (h : cur ≠ []) : flush cur = [cur] := by
  cases cur with
  | nil => exact absurd rfl h
  | cons c cur => rfl

@[simp] theorem words_nil : words sep [] = [] := rfl

@[simp] theorem flatten_flush (cur : List α) : (flush cur).flatten = cur := by
  cases cur with
  | nil => rfl
  | cons c cur => simp [flush]

theorem wordsFrom_cons_sep {c : α} (hc : sep c = true) (cur l : List α) :
    wordsFrom sep cur (c :: l) = flush cur ++ words sep l := by
  rw [wordsFrom, if_pos hc, words]

theorem wordsFrom_cons {c : α} (hc : sep c = false) (cur l : List α) :
    wordsFrom sep cur (c :: l) = wordsFrom sep (cur ++ [c]) l := by
  rw [wordsFrom, hc, if_neg Bool.false_ne_true]

theorem words_cons_sep {c : α} (hc : sep c = true) (l : List α) :
    words sep (c :: l) = words sep l :=
  wordsFrom_cons_sep hc [] l

theorem words_cons {c : α} (hc : sep c = false) (l : List α) :
    words sep (c :: l) = wordsFrom sep [c] l :=
  wordsFrom_cons hc [] l

theorem wordsFrom_append_sep {c : α} (hc : sep c = true) (cur l r : List α) :
    wordsFrom sep cur (l ++ c :: r) = wordsFrom sep cur l ++ words sep r := by
  induction l generalizing cur with
  | nil => exact wordsFrom_cons_sep hc cur r
  | cons a l ih =>
    rw [List.cons_append]
    by_cases ha : sep a = true
    · rw [wordsFrom_cons_sep ha, wordsFrom_cons_sep ha, words, ih, List.append_assoc]
      rfl
    · rw [Bool.not_eq_true] at ha
      rw [wordsFrom_cons ha, wordsFrom_cons ha, ih]

/-- A separator ends a word. -/
theorem words_append_sep {c : α} (hc : sep c = true) (l r : List α) :
    words sep (l ++ c :: r) = words sep l ++ words sep r :=
  wordsFrom_append_sep hc [] l r

theorem words_of_forall {l : List α} (h : ∀ c ∈ l, sep c = true) : words sep l = [] := by
  induction l with
  | nil => rfl
  | cons c l ih =>
    rw [words_cons_sep (h c List.mem_cons_self),
      ih (fun x hx => h x (List.mem_cons_of_mem c hx))]

theorem wordsFrom_append_of_forall {r : List α} (h : ∀ c ∈ r, sep c = true) (cur l : List α) :
    wordsFrom sep cur (l ++ r) = wordsFrom sep cur l := by
  cases r with
  | nil => rw [List.append_nil]
  | cons c r =>
    rw [wordsFrom_append_sep (h c List.mem_cons_self),
      words_of_forall (fun x hx => h x (List.mem_cons_of_mem c hx)), List.append_nil]

/-- Separators at the ends do not count. -/
theorem words_of_ends {l r : List α} (hl : ∀ c ∈ l, sep c = true) (hr : ∀ c ∈ r, sep c = true)
    (m : List α) : words sep (l ++ m ++ r) = words sep m := by
  rw [words, wordsFrom_append_of_forall hr]
  induction l with
  | nil => rfl
  | cons c l ih =>
    rw [List.cons_append, wordsFrom_cons_sep (hl c List.mem_cons_self)]
    exact ih (fun x hx => hl x (List.mem_cons_of_mem c hx))

theorem wordsFrom_flatten (cur l : List α) :
    (wordsFrom sep cur l).flatten = cur ++ l.filter (fun c => !sep c) := by
  induction l generalizing cur with
  | nil => rw [wordsFrom, flatten_flush, List.filter_nil, List.append_nil]
  | cons c l ih =>
    by_cases hc : sep c = true
    · rw [wordsFrom_cons_sep hc, List.flatten_append, flatten_flush, words, ih,
        List.filter_cons_of_neg (by simp [hc]), List.nil_append]
    · rw [Bool.not_eq_true] at hc
      rw [wordsFrom_cons hc, ih, List.filter_cons_of_pos (by simp [hc]), List.append_assoc]
      rfl

/-- The words hold every letter that is no separator, in order. -/
theorem words_flatten (l : List α) : (words sep l).flatten = l.filter (fun c => !sep c) :=
  wordsFrom_flatten [] l

/-- No word goes on behind a separator. -/
theorem words_append_left {l : List α} (h : ∀ c ∈ l.getLast?, sep c = true) (r : List α) :
    words sep (l ++ r) = words sep l ++ words sep r := by
  rcases List.eq_nil_or_concat l with rfl | ⟨init, c, rfl⟩
  · rfl
  · have hc : sep c = true := h c (by rw [List.concat_eq_append, List.getLast?_concat]; rfl)
    rw [List.concat_eq_append, List.append_assoc, List.singleton_append, words_append_sep hc,
      words_append_sep hc, words_nil, List.append_nil]

/-- A stretch up to a separator is one word. -/
theorem words_append_run {w r : List α} (hw : ∀ c ∈ w, sep c = false)
    (hr : ∀ c ∈ r.head?, sep c = true) : words sep (w ++ r) = flush w ++ words sep r := by
  have hfrom : ∀ cur, wordsFrom sep cur (w ++ r) = flush (cur ++ w) ++ words sep r := by
    induction w with
    | nil =>
      intro cur
      rw [List.nil_append, List.append_nil]
      cases r with
      | nil => rw [wordsFrom, words_nil, List.append_nil]
      | cons c r =>
        have hc := hr c rfl
        rw [wordsFrom_cons_sep hc, words_cons_sep hc]
    | cons c w ih =>
      intro cur
      obtain ⟨hc, hw⟩ := List.forall_mem_cons.mp hw
      rw [List.cons_append, wordsFrom_cons hc, ih hw, List.append_assoc, List.singleton_append]
  exact hfrom []

/-- A text without separators is one word, unless it is empty. -/
theorem words_of_not {w : List α} (hw : ∀ c ∈ w, sep c = false) : words sep w = flush w := by
  have hrun := words_append_run hw (r := []) fun c hc => by cases hc
  rw [List.append_nil, words_nil, List.append_nil] at hrun
  exact hrun

theorem mem_wordsFrom {cur l w : List α} (hcur : ∀ c ∈ cur, sep c = false)
    (h : w ∈ wordsFrom sep cur l) : w ≠ [] ∧ ∀ c ∈ w, sep c = false := by
  have hflush : ∀ cur : List α, (∀ c ∈ cur, sep c = false) → w ∈ flush cur →
      w ≠ [] ∧ ∀ c ∈ w, sep c = false := by
    intro cur hcur hw
    cases cur with
    | nil => exact absurd hw List.not_mem_nil
    | cons c cur =>
      obtain rfl := List.mem_singleton.mp hw
      exact ⟨List.cons_ne_nil c cur, hcur⟩
  induction l generalizing cur with
  | nil => exact hflush cur hcur h
  | cons c l ih =>
    by_cases hc : sep c = true
    · rw [wordsFrom_cons_sep hc] at h
      rcases List.mem_append.mp h with h | h
      · exact hflush cur hcur h
      · exact ih (List.forall_mem_nil _) h
    · have hnot := Bool.eq_false_iff.mpr hc
      rw [wordsFrom_cons hnot] at h
      refine ih (fun d hd => ?_) h
      rcases List.mem_append.mp hd with hd | hd
      · exact hcur d hd
      · exact List.mem_singleton.mp hd ▸ hnot

/-- A word is not empty and has no separators. -/
theorem mem_words {l w : List α} (h : w ∈ words sep l) : w ≠ [] ∧ ∀ c ∈ w, sep c = false :=
  mem_wordsFrom (List.forall_mem_nil _) h

/-- Joining with a separator keeps the words of each part. -/
theorem words_intercalate {c : α} (hc : sep c = true) (ls : List (List α)) :
    words sep ([c].intercalate ls) = ls.flatMap (words sep) := by
  induction ls with
  | nil => rfl
  | cons l ls ih =>
    cases ls with
    | nil => rw [List.intercalate_singleton, List.flatMap_singleton]
    | cons l' ls =>
      rw [List.intercalate_cons_cons, List.append_assoc, List.singleton_append,
        words_append_sep hc, ih]
      rfl

theorem words_splitOn [DecidableEq α] {c : α} (hc : sep c = true) (l : List α) :
    words sep l = (l.splitOn c).flatMap (words sep) := by
  rw [← words_intercalate hc, List.intercalate_splitOn]

/-- A part between two cuts does not hold the letter that was cut at. -/
theorem notMem_of_mem_splitOn [DecidableEq α] {c : α} {l w : List α} (h : w ∈ l.splitOn c) :
    c ∉ w := by
  induction l generalizing w with
  | nil =>
    rw [List.splitOn_nil, List.mem_singleton] at h
    rw [h]
    exact List.not_mem_nil
  | cons a l ih =>
    rw [List.splitOn_cons_eq_if_modifyHead] at h
    by_cases ha : a = c
    · rw [if_pos (by simpa using ha), List.mem_cons] at h
      rcases h with rfl | h
      · exact List.not_mem_nil
      · exact ih h
    · rw [if_neg (by simpa using ha)] at h
      cases hsplit : l.splitOn c with
      | nil => exact absurd hsplit (List.splitOn_ne_nil c l)
      | cons first rest =>
        rw [hsplit, List.modifyHead_cons, List.mem_cons] at h
        rcases h with rfl | h
        · intro hmem
          rcases List.mem_cons.mp hmem with heq | hmem
          · exact ha heq.symm
          · exact ih (hsplit ▸ List.mem_cons_self) hmem
        · exact ih (hsplit ▸ List.mem_cons_of_mem first h)

theorem mem_of_mem_intercalate {c a : α} {ls : List (List α)} (h : a ∈ [c].intercalate ls) :
    a = c ∨ ∃ l ∈ ls, a ∈ l := by
  induction ls with
  | nil => cases h
  | cons l ls ih =>
    cases ls with
    | nil =>
      rw [List.intercalate_singleton] at h
      exact .inr ⟨l, List.mem_cons_self, h⟩
    | cons l' ls =>
      rw [List.intercalate_cons_cons, List.append_assoc, List.mem_append, List.mem_append,
        List.mem_singleton] at h
      rcases h with h | h | h
      · exact .inr ⟨l, List.mem_cons_self, h⟩
      · exact .inl h
      · refine (ih h).imp_right ?_
        rintro ⟨m, hm, ha⟩
        exact ⟨m, List.mem_cons_of_mem l hm, ha⟩

theorem mem_intercalate_of_mem {c a : α} {ls : List (List α)} {l : List α} (hl : l ∈ ls)
    (ha : a ∈ l) : a ∈ [c].intercalate ls := by
  induction ls with
  | nil => cases hl
  | cons first ls ih =>
    cases ls with
    | nil =>
      obtain rfl := List.mem_singleton.mp hl
      rwa [List.intercalate_singleton]
    | cons next ls =>
      rw [List.intercalate_cons_cons]
      rcases List.mem_cons.mp hl with rfl | hl
      · exact List.mem_append_left _ (List.mem_append_left _ ha)
      · exact List.mem_append_right _ (ih hl)

/-- Letters may be exchanged as long as separators remain separators. -/
theorem words_map {f : α → α} (hsep : ∀ c, sep (f c) = sep c)
    (hletter : ∀ c, sep c = false → f c = c) (l : List α) : words sep (l.map f) = words sep l := by
  have hfrom : ∀ cur, wordsFrom sep cur (l.map f) = wordsFrom sep cur l := by
    induction l with
    | nil => exact fun cur => rfl
    | cons c l ih =>
      intro cur
      rw [List.map_cons]
      by_cases hc : sep c = true
      · rw [wordsFrom_cons_sep ((hsep c).trans hc), wordsFrom_cons_sep hc, words, ih, words]
      · rw [Bool.not_eq_true] at hc
        rw [hletter c hc, wordsFrom_cons hc, wordsFrom_cons hc, ih]
  exact hfrom []

/-! ## Deleting letters -/

section Deletion

variable (sep) (keep : α → Bool)

/-- A kept letter follows across deleted ones, of which one is a separator or
`crossed` says that one was. -/
def meets (crossed : Bool) : List α → Bool
  | [] => false
  | c :: l => if keep c then !sep c && crossed else meets (crossed || sep c) l

/-- Two kept letters have deleted ones between them only, of which one is a
separator. -/
def fuses : List α → Bool
  | [] => false
  | c :: l => keep c && !sep c && meets sep keep false l || fuses l

/-- What a word keeps, unless nothing. -/
def trimWord (w : List α) : List (List α) := flush (w.filter keep)

variable {sep keep}

theorem trimWord_flush (cur : List α) :
    (flush cur).flatMap (trimWord keep) = flush (cur.filter keep) := by
  cases cur with
  | nil => rfl
  | cons c cur => simp [flush, trimWord]

theorem flatMap_trimWord_wordsFrom (cur l : List α) :
    (wordsFrom sep cur l).flatMap (trimWord keep) =
      wordsFrom sep (cur.filter keep) (l.filter (fun c => sep c || keep c)) := by
  induction l generalizing cur with
  | nil => exact trimWord_flush cur
  | cons c l ih =>
    by_cases hc : sep c = true
    · rw [wordsFrom_cons_sep hc, List.flatMap_append, trimWord_flush,
        List.filter_cons_of_pos (by simp [hc]), wordsFrom_cons_sep hc, words, ih]
      rfl
    · rw [Bool.not_eq_true] at hc
      rw [wordsFrom_cons hc, ih, List.filter_append]
      by_cases hk : keep c = true
      · have hkept : (c :: l).filter (fun c => sep c || keep c) =
            c :: l.filter (fun c => sep c || keep c) :=
          List.filter_cons_of_pos (by simp [hk])
        rw [hkept, wordsFrom_cons hc, List.filter_cons_of_pos hk, List.filter_nil]
      · have hdropped : (c :: l).filter (fun c => sep c || keep c) =
            l.filter (fun c => sep c || keep c) :=
          List.filter_cons_of_neg (by simp [hc, hk])
        rw [hdropped, List.filter_cons_of_neg hk, List.filter_nil, List.append_nil]

/-- Deleting letters that are no separators acts on each word alone. -/
theorem flatMap_trimWord_words (l : List α) :
    (words sep l).flatMap (trimWord keep) = words sep (l.filter fun c => sep c || keep c) :=
  flatMap_trimWord_wordsFrom [] l

theorem exists_wordsFrom {cur : List α} (h : cur ≠ []) (l : List α) :
    ∃ tail rest, wordsFrom sep cur l = (cur ++ tail) :: rest := by
  induction l generalizing cur with
  | nil => exact ⟨[], [], by rw [wordsFrom, flush_of_ne_nil h, List.append_nil]⟩
  | cons c l ih =>
    by_cases hc : sep c = true
    · exact ⟨[], words sep l, by
        rw [wordsFrom_cons_sep hc, flush_of_ne_nil h, List.append_nil, List.singleton_append]⟩
    · rw [Bool.not_eq_true] at hc
      obtain ⟨tail, rest, heq⟩ := ih (List.append_ne_nil_of_left_ne_nil h [c])
      exact ⟨c :: tail, rest, by rw [wordsFrom_cons hc, heq, List.append_assoc]; rfl⟩

/-- What deleting does to the words of a list that starts afresh, that continues a
word, and that follows a word and a deleted separator. -/
theorem wordsFrom_filter_iff (l : List α) :
    (words sep (l.filter keep) = words sep (l.filter fun c => sep c || keep c) ↔
      fuses sep keep l = false) ∧
    ∀ cur ≠ [],
      (wordsFrom sep cur (l.filter keep) = wordsFrom sep cur (l.filter fun c => sep c || keep c) ↔
        meets sep keep false l = false ∧ fuses sep keep l = false) ∧
      (wordsFrom sep cur (l.filter keep) = cur :: words sep (l.filter fun c => sep c || keep c) ↔
        meets sep keep true l = false ∧ fuses sep keep l = false) := by
  induction l with
  | nil =>
    refine ⟨by simp [fuses], fun cur hcur => ?_⟩
    simp [wordsFrom, flush_of_ne_nil hcur, meets, fuses]
  | cons c l ih =>
    obtain ⟨hfresh, hopen⟩ := ih
    by_cases hk : keep c = true
    · rw [List.filter_cons_of_pos hk, List.filter_cons_of_pos (by simp [hk])]
      by_cases hc : sep c = true
      · -- a kept separator closes the word on both sides
        have hmeets : ∀ b, meets sep keep b (c :: l) = false := by simp [meets, hk, hc]
        have hfuses : fuses sep keep (c :: l) = fuses sep keep l := by simp [fuses, hc]
        rw [hfuses, hmeets, hmeets]
        refine ⟨?_, fun cur hcur => ?_⟩
        · rw [words_cons_sep hc, words_cons_sep hc]
          exact hfresh
        · rw [wordsFrom_cons_sep hc, wordsFrom_cons_sep hc, words_cons_sep hc,
            flush_of_ne_nil hcur, List.singleton_append, List.singleton_append, List.cons.injEq]
          simpa using hfresh
      · -- a kept letter continues the word
        rw [Bool.not_eq_true] at hc
        have hword := (hopen [c] (List.cons_ne_nil c [])).1
        refine ⟨?_, fun cur hcur => ⟨?_, ?_⟩⟩
        · rw [words_cons hc, words_cons hc, hword]
          simp [fuses, hk, hc]
        · rw [wordsFrom_cons hc, wordsFrom_cons hc,
            (hopen (cur ++ [c]) (List.append_ne_nil_of_left_ne_nil hcur [c])).1]
          simp [fuses, meets, hk, hc]
        · rw [wordsFrom_cons hc]
          obtain ⟨tail, rest, heq⟩ := @exists_wordsFrom α sep (cur ++ [c])
            (List.append_ne_nil_of_left_ne_nil hcur [c]) (l.filter keep)
          rw [heq, List.cons.injEq]
          simp [meets, hk, hc]
    · rw [List.filter_cons_of_neg hk]
      by_cases hc : sep c = true
      · -- a deleted separator closes the word only in the text that keeps it
        rw [List.filter_cons_of_pos (by simp [hc])]
        refine ⟨?_, fun cur hcur => ⟨?_, ?_⟩⟩
        · rw [words_cons_sep hc]
          simpa [fuses, hk] using hfresh
        · rw [wordsFrom_cons_sep hc, flush_of_ne_nil hcur, List.singleton_append,
            (hopen cur hcur).2]
          simp [fuses, meets, hk, hc]
        · rw [words_cons_sep hc, (hopen cur hcur).2]
          simp [fuses, meets, hk]
      · rw [List.filter_cons_of_neg (by simp [hc, hk])]
        simpa [fuses, meets, hk, hc] using ⟨hfresh, hopen⟩

/-- Deleting letters keeps the words apart exactly when it fuses none. -/
theorem words_filter_iff (l : List α) :
    words sep (l.filter keep) = (words sep l).flatMap (trimWord keep) ↔
      fuses sep keep l = false := by
  rw [flatMap_trimWord_words]
  exact (wordsFrom_filter_iff l).1

end Deletion

end Words
