import Mathlib.Data.List.Basic
import Mathlib.Data.List.Nodup
import Mathlib.Data.List.Range

/-!
# Pieces of a list

Pieces that lie in a list in order, each at its own span, with nothing but gap
elements in front of, between and behind them.  A search that goes on behind the
last piece finds each of them at its span, provided no piece begins with a gap
element.
-/

namespace Spans

variable {α : Type*} {gap : α → Bool} {l : List α}

/-- A stretch of a list and what follows it. -/
theorem drop_eq_append (l : List α) {start stop : Nat} (h : start ≤ stop) :
    l.drop start = (l.take stop).drop start ++ l.drop stop := by
  conv_lhs => rw [← List.take_append_drop stop l]
  by_cases hlength : stop ≤ l.length
  · rw [List.drop_append_of_le_length (by rw [List.length_take]; omega)]
  · have hnil : l.drop stop = [] := List.drop_eq_nil_of_le (by omega)
    rw [hnil, List.append_nil, List.append_nil]

/-- A member of a list of lists without repetitions is in one of them only. -/
theorem existsUnique_of_mem_flatten {ls : List (List α)} {a : α}
    (hnodup : ls.flatten.Nodup) (ha : a ∈ ls.flatten) :
    ∃! k : Nat, ∃ l, ls[k]? = some l ∧ a ∈ l := by
  obtain ⟨l, hl, ha⟩ := List.mem_flatten.mp ha
  obtain ⟨k, hk⟩ := List.mem_iff_getElem?.mp hl
  refine ⟨k, ⟨l, hk, ha⟩, ?_⟩
  rintro j ⟨m, hj, ham⟩
  by_contra hne
  have hdisjoint := (List.nodup_flatten.mp hnodup).2
  rw [List.pairwise_iff_getElem] at hdisjoint
  obtain ⟨hklt, hkget⟩ := List.getElem?_eq_some_iff.mp hk
  obtain ⟨hjlt, hjget⟩ := List.getElem?_eq_some_iff.mp hj
  rcases Nat.lt_or_gt_of_ne hne with hlt | hlt
  · exact hdisjoint j k hjlt hklt hlt (hjget ▸ ham) (hkget ▸ ha)
  · exact hdisjoint k j hklt hjlt hlt (hkget ▸ ha) (hjget ▸ ham)

/-- From `cursor` on the pieces lie at their spans, with gaps only around them. -/
inductive Located (gap : α → Bool) (l : List α) : Nat → List (List α) → List (Nat × Nat) → Prop
  | nil {cursor : Nat} (hgap : ∀ a ∈ l.drop cursor, gap a = true) : Located gap l cursor [] []
  | cons {cursor start stop : Nat} {piece : List α} {pieces : List (List α)}
      {spans : List (Nat × Nat)} (hcursor : cursor ≤ start) (hspan : start < stop)
      (hstop : stop ≤ l.length) (hgap : ∀ a ∈ (l.take start).drop cursor, gap a = true)
      (hpiece : (l.take stop).drop start = piece) (htail : Located gap l stop pieces spans) :
      Located gap l cursor (piece :: pieces) ((start, stop) :: spans)

namespace Located

variable {pieces : List (List α)} {spans : List (Nat × Nat)}

/-- Gap elements in front make no difference. -/
theorem widen {cursor next : Nat} {run : List α} (hrun : l.drop cursor = run ++ l.drop next)
    (hgap : ∀ a ∈ run, gap a = true) (h : Located gap l next pieces spans) :
    Located gap l cursor pieces spans := by
  have hlength := congrArg List.length hrun
  rw [List.length_append, List.length_drop, List.length_drop] at hlength
  cases h with
  | nil hrest =>
    apply Located.nil
    intro a ha
    rw [hrun] at ha
    rcases List.mem_append.mp ha with ha | ha
    · exact hgap a ha
    · exact hrest a ha
  | @cons _ start stop _ _ _ hnext hspan hstop hrest hpiece htail =>
    have hle : cursor ≤ next := by omega
    apply Located.cons (hle.trans hnext) hspan hstop _ hpiece htail
    intro a ha
    rw [List.drop_take, hrun, List.take_append] at ha
    rcases List.mem_append.mp ha with ha | ha
    · exact hgap a (List.mem_of_mem_take ha)
    · apply hrest a
      rw [List.drop_take]
      rwa [show start - cursor - run.length = start - next by omega] at ha

/-- A piece between two gaps in front of the others. -/
theorem cons_of_drop {cursor next : Nat} {before piece behind : List α}
    (hdrop : l.drop cursor = before ++ piece ++ behind ++ l.drop next)
    (hbefore : ∀ a ∈ before, gap a = true) (hbehind : ∀ a ∈ behind, gap a = true)
    (hpiece : piece ≠ []) (h : Located gap l next pieces spans) :
    Located gap l cursor (piece :: pieces)
      ((cursor + before.length, cursor + before.length + piece.length) :: spans) := by
  have hpos : 0 < piece.length := List.length_pos_of_ne_nil hpiece
  have hlength := congrArg List.length hdrop
  simp only [List.length_append, List.length_drop] at hlength
  have hstart : l.drop (cursor + before.length) = piece ++ (behind ++ l.drop next) := by
    rw [← List.drop_drop, hdrop, List.append_assoc, List.append_assoc, List.drop_left]
  have hstop : l.drop (cursor + before.length + piece.length) = behind ++ l.drop next := by
    rw [← List.drop_drop, hstart, List.drop_left]
  refine .cons (Nat.le_add_right cursor _) (by omega) (by omega) ?_ ?_ (h.widen hstop hbehind)
  · intro a ha
    rw [List.drop_take, Nat.add_sub_cancel_left, hdrop, List.append_assoc, List.append_assoc,
      List.take_left] at ha
    exact hbefore a ha
  · rw [List.drop_take, Nat.add_sub_cancel_left, hstart, List.take_left]

/-- The spans are as many as the pieces. -/
theorem length_spans {cursor : Nat} (h : Located gap l cursor pieces spans) :
    spans.length = pieces.length := by
  induction h with
  | nil => rfl
  | cons _ _ _ _ _ _ ih => rw [List.length_cons, List.length_cons, ih]

end Located

section Search

variable [DecidableEq α]

/-- The first place from `cursor` on at which the piece occurs. -/
def findFrom (l piece : List α) (cursor : Nat) : Option Nat :=
  (List.range (l.length + 1)).find? fun i => decide (cursor ≤ i) && decide (piece <+: l.drop i)

/-- A piece behind a gap is found where it is, when it does not begin with a gap element. -/
theorem findFrom_of_gap {cursor start stop : Nat} {piece : List α} (hcursor : cursor ≤ start)
    (hspan : start < stop) (hstop : stop ≤ l.length)
    (hgap : ∀ a ∈ (l.take start).drop cursor, gap a = true)
    (hpiece : (l.take stop).drop start = piece) (hhead : ∀ a ∈ piece.head?, gap a = false) :
    findFrom l piece cursor = some start := by
  rw [findFrom, List.find?_range_eq_some]
  refine ⟨?_, List.mem_range.mpr (by omega), ?_⟩
  · have hprefix : piece <+: l.drop start := by
      rw [← hpiece, drop_eq_append l hspan.le]
      exact List.prefix_append _ _
    rw [decide_eq_true hcursor, decide_eq_true hprefix]
    rfl
  · intro i hi
    by_cases hle : cursor ≤ i
    · -- The element at `i` is a gap element, so the piece does not begin there.
      have hi' : i < l.length := by omega
      have hmem : l[i] ∈ (l.take start).drop cursor := by
        rw [List.mem_drop_iff_getElem]
        refine ⟨i - cursor, by rw [List.length_take]; omega, ?_⟩
        rw [List.getElem_take]
        congr 1
        omega
      have hnot : ¬ piece <+: l.drop i := by
        rintro ⟨rest, hrest⟩
        cases hshape : piece with
        | nil =>
          have hlength := congrArg List.length (hpiece.trans hshape)
          rw [List.length_drop, List.length_take, List.length_nil] at hlength
          omega
        | cons a tail =>
          rw [hshape, List.drop_eq_getElem_cons (by omega), List.cons_append] at hrest
          have hne := hhead a (by rw [hshape]; rfl)
          rw [(List.cons.inj hrest).1, hgap _ hmem] at hne
          cases hne
      rw [decide_eq_false hnot, Bool.and_false]
      rfl
    · rw [decide_eq_false hle]
      rfl

end Search

end Spans
