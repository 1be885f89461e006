import AstraIndexator.Foundation.Text

/-!
# Joined fields

A list of texts joined with a separator that occurs in none of them can be read
back.  Where the last text has no separator, the one before it may have.
-/

namespace Joined

/-- `sep.join(fields)` -/
def join (sep : Char) (fields : List String) : String :=
  String.intercalate (String.singleton sep) fields

variable {sep : Char}

theorem toList_join (fields : List String) :
    (join sep fields).toList = [sep].intercalate (fields.map String.toList) := by
  rw [join, String.toList_intercalate, String.toList_singleton]

theorem join_cons (first : String) {fields : List String} (h : fields ≠ []) :
    (join sep (first :: fields)).toList = first.toList ++ sep :: (join sep fields).toList := by
  obtain ⟨second, rest, rfl⟩ := List.exists_cons_of_ne_nil h
  rw [toList_join, toList_join, List.map_cons, List.map_cons, List.intercalate_cons_cons]
  simp

/-- Fields without the separator are read back. -/
theorem join_injective {xs ys : List String} (hx : ∀ s ∈ xs, sep ∉ s.toList)
    (hy : ∀ s ∈ ys, sep ∉ s.toList) (hxne : xs ≠ []) (hyne : ys ≠ [])
    (h : join sep xs = join sep ys) : xs = ys := by
  have hsplit : ∀ {fields : List String}, (∀ s ∈ fields, sep ∉ s.toList) → fields ≠ [] →
      (join sep fields).toList.splitOn sep = fields.map String.toList := by
    intro fields hfields hne
    rw [toList_join]
    apply List.splitOn_intercalate
    · intro l hl
      obtain ⟨s, hs, rfl⟩ := List.mem_map.mp hl
      exact hfields s hs
    · simpa using hne
  have hlists : xs.map String.toList = ys.map String.toList := by
    rw [← hsplit hx hxne, ← hsplit hy hyne, h]
  exact List.map_injective_iff.mpr (fun _ _ hs => String.toList_injective hs) hlists

/-- The parts before and behind the last separator. -/
theorem append_cons_injective {α : Type} {sep : α} {xs ys ls rs : List α} (hl : sep ∉ ls)
    (hr : sep ∉ rs) (h : xs ++ sep :: ls = ys ++ sep :: rs) : xs = ys ∧ ls = rs := by
  induction xs generalizing ys with
  | nil =>
    cases ys with
    | nil => exact ⟨rfl, (List.cons.inj h).2⟩
    | cons y ys =>
      obtain ⟨-, htail⟩ := List.cons.inj h
      exact absurd (htail ▸ List.mem_append_right ys List.mem_cons_self) hl
  | cons x xs ih =>
    cases ys with
    | nil =>
      obtain ⟨-, htail⟩ := List.cons.inj h
      exact absurd (htail ▸ List.mem_append_right xs List.mem_cons_self) hr
    | cons y ys =>
      obtain ⟨hhead, htail⟩ := List.cons.inj h
      obtain ⟨hxs, hls⟩ := ih htail
      exact ⟨by rw [hhead, hxs], hls⟩

/-- The same fields before two last ones, of which the very last has no separator. -/
theorem join_append_injective {fields : List String} {x x' y y' : String} (hy : sep ∉ y.toList)
    (hy' : sep ∉ y'.toList) (h : join sep (fields ++ [x, y]) = join sep (fields ++ [x', y'])) :
    x = x' ∧ y = y' := by
  induction fields with
  | nil =>
    have hlists := congrArg String.toList h
    rw [List.nil_append, List.nil_append, join_cons x (by simp), join_cons x' (by simp)] at hlists
    have hlast : ∀ s, (join sep [s]).toList = s.toList := by
      intro s
      rw [toList_join]
      simp [List.intercalate]
    rw [hlast, hlast] at hlists
    obtain ⟨hx, hy⟩ := append_cons_injective hy hy' hlists
    exact ⟨String.toList_injective hx, String.toList_injective hy⟩
  | cons first fields ih =>
    have hlists := congrArg String.toList h
    rw [List.cons_append, List.cons_append, join_cons first (by simp), join_cons first (by simp)]
      at hlists
    exact ih (String.toList_injective (List.cons.inj (List.append_cancel_left hlists)).2)

/-- Common fields in front are taken off. -/
theorem join_cancel_left (common : List String) {xs ys : List String} (hx : xs ≠ []) (hy : ys ≠ [])
    (h : join sep (common ++ xs) = join sep (common ++ ys)) : join sep xs = join sep ys := by
  induction common with
  | nil => exact h
  | cons first common ih =>
    have hlists := congrArg String.toList h
    rw [List.cons_append, List.cons_append, join_cons first (by simp [hx]),
      join_cons first (by simp [hy])] at hlists
    exact ih (String.toList_injective (List.cons.inj (List.append_cancel_left hlists)).2)

/-- A first field without the separator is read back. -/
theorem join_cons_injective {x y : String} {xs ys : List String} (hxs : xs ≠ []) (hys : ys ≠ [])
    (hx : sep ∉ x.toList) (hy : sep ∉ y.toList) (h : join sep (x :: xs) = join sep (y :: ys)) :
    x = y ∧ join sep xs = join sep ys := by
  have hlists := congrArg List.reverse (congrArg String.toList h)
  rw [join_cons x hxs, join_cons y hys, List.reverse_append, List.reverse_append,
    List.reverse_cons, List.reverse_cons, List.append_assoc, List.append_assoc] at hlists
  obtain ⟨hrest, hfirst⟩ := append_cons_injective (mt List.mem_reverse.mp hx)
    (mt List.mem_reverse.mp hy) hlists
  exact ⟨String.toList_injective (List.reverse_injective hfirst),
    String.toList_injective (List.reverse_injective hrest)⟩

theorem notMem_join {c : Char} (hc : c ≠ sep) {fields : List String}
    (h : ∀ s ∈ fields, c ∉ s.toList) : c ∉ (join sep fields).toList := by
  rw [toList_join]
  induction fields with
  | nil => exact List.not_mem_nil
  | cons first fields ih =>
    obtain ⟨hfirst, hfields⟩ := List.forall_mem_cons.mp h
    cases fields with
    | nil => simpa [List.intercalate] using hfirst
    | cons second fields =>
      rw [List.map_cons, List.map_cons, List.intercalate_cons_cons]
      intro hmem
      rcases List.mem_append.mp hmem with hmem | hmem
      · rcases List.mem_append.mp hmem with hmem | hmem
        · exact hfirst hmem
        · exact hc (List.mem_singleton.mp hmem)
      · exact ih hfields hmem

/-! ## Numerals -/

/-- Different numbers have different decimal numerals. -/
theorem toString_injective {m n : Nat} (h : toString m = toString n) : m = n := by
  rw [Nat.toString_eq_repr, Nat.toString_eq_repr] at h
  have hdigits := congrArg String.toList h
  rw [Nat.toList_repr, Nat.toList_repr] at hdigits
  rw [← @Nat.ofDigitChars_toDigits 10 m (by decide) (by decide), hdigits,
    Nat.ofDigitChars_toDigits (by decide) (by decide)]

/-- A numeral is made of digits. -/
theorem notMem_toString {c : Char} (hc : c.isDigit = false) (n : Nat) :
    c ∉ (toString n).toList := by
  intro hmem
  rw [Nat.toString_eq_repr, Nat.toList_repr] at hmem
  have hdigit := Nat.isDigit_of_mem_toDigits (by decide) (by decide) hmem
  rw [hc] at hdigit
  cases hdigit

end Joined
