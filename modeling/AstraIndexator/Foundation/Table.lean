import Mathlib.Data.List.Nodup

/-!
# Keyed tables

A table is a list of rows in insertion order whose keys are pairwise distinct.
The key is part of the type and its uniqueness is a field, so a table with two
rows of one key cannot be built.  An insertion of a present key has no result.
An update rewrites the row of one key and must leave the key alone.

The lemmas describe every operation through `find?`, and through `rows` where
the order or the number of rows matters.
-/

/-- Rows of type `α` with pairwise distinct keys. -/
structure Table (κ α : Type) (key : α → κ) where
  rows : List α
  keys_nodup : (rows.map key).Nodup

namespace Table

variable {κ α : Type} {key : α → κ}

def empty : Table κ α key := { rows := [], keys_nodup := List.nodup_nil }

variable [DecidableEq κ]

/-- The row with key `k`. -/
def find? (t : Table κ α key) (k : κ) : Option α := t.rows.find? (fun a => key a = k)

/-- Append a row.  A row of that key already present makes the insertion fail. -/
def insert? (t : Table κ α key) (a : α) : Option (Table κ α key) :=
  if h : key a ∈ t.rows.map key then none
  else some {
    rows := t.rows ++ [a]
    keys_nodup := by
      rw [List.map_append]
      exact List.Nodup.append t.keys_nodup (List.nodup_singleton _) (by simpa using h) }

omit [DecidableEq κ] in
theorem map_key_update (f : α → α) (hf : ∀ a, key (f a) = key a) (p : α → Prop)
    [DecidablePred p] (l : List α) :
    (l.map (fun a => if p a then f a else a)).map key = l.map key := by
  rw [List.map_map]
  apply List.map_congr_left
  intro a _
  show key (if p a then f a else a) = key a
  split
  · exact hf a
  · rfl

/-- Rewrite the row with key `k`. -/
def update (t : Table κ α key) (k : κ) (f : α → α)
    (hf : ∀ a, key (f a) = key a := by intro _; rfl) : Table κ α key where
  rows := t.rows.map (fun a => if key a = k then f a else a)
  keys_nodup := by
    rw [map_key_update f hf]
    exact t.keys_nodup

/-! ## Lookups -/

variable (t : Table κ α key) {k k' : κ} {a b : α}

theorem key_of_find? (h : t.find? k = some a) : key a = k := by
  have := List.find?_some h
  simpa using this

theorem mem_of_find? (h : t.find? k = some a) : a ∈ t.rows :=
  List.mem_of_find?_eq_some h

theorem find?_eq_none_iff : t.find? k = none ↔ ∀ a ∈ t.rows, key a ≠ k := by
  simp [find?, List.find?_eq_none]

omit [DecidableEq κ] in
/-- Two rows with one key are the same row. -/
theorem eq_of_key_eq (ha : a ∈ t.rows) (hb : b ∈ t.rows) (h : key a = key b) : a = b :=
  List.inj_on_of_nodup_map t.keys_nodup ha hb h

theorem find?_of_mem (ha : a ∈ t.rows) : t.find? (key a) = some a := by
  cases h : t.find? (key a) with
  | none => exact absurd rfl ((t.find?_eq_none_iff).mp h a ha)
  | some b =>
    have hb := t.key_of_find? h
    rw [t.eq_of_key_eq (t.mem_of_find? h) ha hb]

/-! ## Insertion -/

variable {t} {t' : Table κ α key}

theorem insert?_eq_some_iff :
    t.insert? a = some t' ↔ t.find? (key a) = none ∧ t'.rows = t.rows ++ [a] := by
  unfold insert?
  rw [find?_eq_none_iff]
  split
  · next h =>
    obtain ⟨b, hb, hk⟩ := List.mem_map.mp h
    constructor
    · intro h'
      cases h'
    · rintro ⟨hnone, -⟩
      exact absurd hk (hnone b hb)
  · next h =>
    constructor
    · intro h'
      cases h'
      exact ⟨fun b hb hk => h (List.mem_map.mpr ⟨b, hb, hk⟩), rfl⟩
    · rintro ⟨-, hrows⟩
      cases t'
      simp_all

theorem rows_insert (h : t.insert? a = some t') : t'.rows = t.rows ++ [a] :=
  (insert?_eq_some_iff.mp h).2

theorem find?_insert (h : t.insert? a = some t') (k : κ) :
    t'.find? k = if key a = k then some a else t.find? k := by
  obtain ⟨hnone, hrows⟩ := insert?_eq_some_iff.mp h
  unfold find? at hnone ⊢
  rw [hrows, List.find?_append]
  by_cases hk : key a = k
  · subst hk
    simp [hnone]
  · simp [hk]

theorem find?_insert_self (h : t.insert? a = some t') : t'.find? (key a) = some a := by
  rw [find?_insert h, if_pos rfl]

theorem find?_insert_of_ne (h : t.insert? a = some t') (hk : key a ≠ k) :
    t'.find? k = t.find? k := by
  rw [find?_insert h, if_neg hk]

/-- Append a row of a key that is not present. -/
def insert (t : Table κ α key) (a : α) (h : t.find? (key a) = none) : Table κ α key where
  rows := t.rows ++ [a]
  keys_nodup := by
    rw [List.map_append]
    refine List.Nodup.append t.keys_nodup (List.nodup_singleton _) ?_
    simpa using (t.find?_eq_none_iff).mp h

theorem insert?_of_none (h : t.find? (key a) = none) : t.insert? a = some (t.insert a h) :=
  insert?_eq_some_iff.mpr ⟨h, rfl⟩

/-! ## Update -/

variable {f : α → α} (hf : ∀ a, key (f a) = key a)

theorem rows_update :
    (t.update k f hf).rows = t.rows.map (fun a => if key a = k then f a else a) := rfl

theorem find?_update (k' : κ) :
    (t.update k f hf).find? k' = if k' = k then (t.find? k).map f else t.find? k' := by
  unfold find?
  rw [rows_update]
  induction t.rows with
  | nil => simp
  | cons a l ih =>
    rw [List.map_cons, List.find?_cons, List.find?_cons, List.find?_cons]
    by_cases hk : key a = k
    · by_cases hk' : k' = k
      · subst hk'
        simp [hk, hf]
      · have hne : key a ≠ k' := fun e => hk' (e.symm.trans hk)
        simp only [hk, if_true, hf, hk', if_false]
        rw [if_neg hk'] at ih
        have h₁ : decide (k = k') = false := by simpa using Ne.symm hk'
        simp only [h₁]
        exact ih
    · by_cases hk' : k' = k
      · subst hk'
        rw [if_pos rfl] at ih
        simp only [hk, if_false, decide_false, if_true]
        exact ih
      · rw [if_neg hk'] at ih
        by_cases hka : key a = k'
        · simp [hk', hka]
        · simp only [hk, hka, if_false, decide_false, hk']
          exact ih

theorem find?_update_self : (t.update k f hf).find? k = (t.find? k).map f := by
  rw [find?_update, if_pos rfl]

theorem find?_update_of_some (h : t.find? k = some a) : (t.update k f hf).find? k = some (f a) := by
  rw [find?_update_self, h, Option.map_some]

theorem find?_update_of_ne (h : k' ≠ k) : (t.update k f hf).find? k' = t.find? k' := by
  rw [find?_update, if_neg h]

/-- An update that keeps a row predicate maps the selected rows. -/
theorem filter_update (p : α → Bool) (hp : ∀ a, p (f a) = p a) :
    (t.update k f hf).rows.filter p =
      (t.rows.filter p).map (fun a => if key a = k then f a else a) := by
  rw [rows_update, List.filter_map]
  congr 1
  apply List.filter_congr
  intro a _
  show p (if key a = k then f a else a) = p a
  split
  · exact hp a
  · rfl

end Table

/-! ## First row in an order -/

/-- The first element of a list in the order `before`: the result of `ORDER BY`
with `LIMIT 1`. -/
def firstBy? {α : Type} (before : α → α → Bool) : List α → Option α
  | [] => none
  | a :: l =>
    match firstBy? before l with
    | none => some a
    | some b => if before b a then some b else some a

theorem firstBy?_mem {α : Type} {before : α → α → Bool} {l : List α} {a : α}
    (h : firstBy? before l = some a) : a ∈ l := by
  induction l generalizing a with
  | nil => cases h
  | cons c l ih =>
    unfold firstBy? at h
    cases hl : firstBy? before l with
    | none =>
      rw [hl] at h
      cases h
      exact List.mem_cons_self
    | some b =>
      rw [hl] at h
      by_cases hb : before b c = true
      · simp only [hb, if_true, Option.some.injEq] at h
        exact List.mem_cons_of_mem _ (h ▸ ih hl)
      · simp only [hb, if_false, Option.some.injEq, Bool.false_eq_true] at h
        exact h ▸ List.mem_cons_self

theorem firstBy?_eq_none {α : Type} {before : α → α → Bool} {l : List α} :
    firstBy? before l = none ↔ l = [] := by
  cases l with
  | nil => simp [firstBy?]
  | cons c l =>
    simp only [firstBy?, reduceCtorEq, iff_false]
    cases firstBy? before l with
    | none => simp
    | some b =>
      by_cases hb : before b c = true
      · simp [hb]
      · simp [hb]
