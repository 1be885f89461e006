import Mathlib.Data.Set.Insert
import Mathlib.Logic.Function.Basic
import Mathlib.Logic.Relation

/-!
# Registries

A registry answers every request with one item and keeps some data about it.  Some of
the items are open.  A new request opens a fresh item, and only where no open item
occupies the slot of its data.  Items are closed in any order and never opened again.
Whatever the order of the steps, a request keeps its item and its data, and no two open
items share a slot.
-/

/-- The item each request was answered with, and the items that are open. -/
structure Registry (κ ι α : Type*) where
  entry : κ → Option (ι × α)
  opened : Set ι

namespace Registry

variable {κ ι α β : Type*} {slot : α → β} {r r₁ r' : Registry κ ι α}

/-- No request was answered. -/
def empty : Registry κ ι α where
  entry _ := none
  opened := ∅

/-- An open item has its data in the slot. -/
def Occupied (r : Registry κ ι α) (slot : α → β) (b : β) : Prop :=
  ∃ k i a, r.entry k = some (i, a) ∧ i ∈ r.opened ∧ slot a = b

/-- No request was answered with the item. -/
def Fresh (r : Registry κ ι α) (i : ι) : Prop := ∀ k a, r.entry k ≠ some (i, a)

/-- Answer a request with a new item. -/
def register [DecidableEq κ] (r : Registry κ ι α) (k : κ) (i : ι) (a : α) : Registry κ ι α where
  entry := Function.update r.entry k (some (i, a))
  opened := insert i r.opened

/-- One step: a request is answered, or some items are closed. -/
inductive Step [DecidableEq κ] (slot : α → β) (r : Registry κ ι α) : Registry κ ι α → Prop
  | register (k : κ) (i : ι) (a : α) (hnew : r.entry k = none) (hfresh : r.Fresh i)
      (hfree : ¬ r.Occupied slot (slot a)) : Step slot r (r.register k i a)
  | settle (rest : Set ι) (hrest : rest ⊆ r.opened) : Step slot r { r with opened := rest }

/-- Every item answers one request, and no two open items share a slot. -/
structure Exclusive (slot : α → β) (r : Registry κ ι α) : Prop where
  item : ∀ {k k' i a a'}, r.entry k = some (i, a) → r.entry k' = some (i, a') → k = k'
  known : ∀ i ∈ r.opened, ∃ k a, r.entry k = some (i, a)
  slots : ∀ {k k' i i' a a'}, r.entry k = some (i, a) → r.entry k' = some (i', a') →
    i ∈ r.opened → i' ∈ r.opened → slot a = slot a' → k = k'

theorem empty_exclusive : (empty : Registry κ ι α).Exclusive slot where
  item h := by cases h
  known _ h := h.elim
  slots h := by cases h

/-- What a registry keeps of an earlier one. -/
structure Later (r r' : Registry κ ι α) : Prop where
  entry : ∀ {k x}, r.entry k = some x → r'.entry k = some x
  closed : ∀ {k i a}, r.entry k = some (i, a) → i ∉ r.opened → i ∉ r'.opened

theorem Later.refl (r : Registry κ ι α) : Later r r := ⟨id, fun _ => id⟩

theorem Later.trans (h : Later r r₁) (h' : Later r₁ r') : Later r r' where
  entry hk := h'.entry (h.entry hk)
  closed hk hi := h'.closed (h.entry hk) (h.closed hk hi)

section Steps

variable [DecidableEq κ] {k : κ} {i : ι} {a : α}

theorem register_entry_self : (r.register k i a).entry k = some (i, a) := Function.update_self ..

theorem register_entry_of_ne {k' : κ} (h : k' ≠ k) :
    (r.register k i a).entry k' = r.entry k' := Function.update_of_ne h ..

/-- An entry after a registration is the new one or an old one. -/
theorem register_entry {k' : κ} {x : ι × α} (h : (r.register k i a).entry k' = some x) :
    (k' = k ∧ x = (i, a)) ∨ (k' ≠ k ∧ r.entry k' = some x) := by
  by_cases hk : k' = k
  · subst hk
    rw [register_entry_self] at h
    exact .inl ⟨rfl, (Option.some.inj h).symm⟩
  · rw [register_entry_of_ne hk] at h
    exact .inr ⟨hk, h⟩

theorem register_exclusive (hr : r.Exclusive slot) (hnew : r.entry k = none) (hfresh : r.Fresh i)
    (hfree : ¬ r.Occupied slot (slot a)) : (r.register k i a).Exclusive slot where
  item {k₁ k₂ i' a₁ a₂} h₁ h₂ := by
    obtain ⟨rfl, he₁⟩ | ⟨-, hk₁⟩ := register_entry h₁ <;>
      obtain ⟨rfl, he₂⟩ | ⟨-, hk₂⟩ := register_entry h₂
    · rfl
    · cases he₁
      exact absurd hk₂ (hfresh _ _)
    · cases he₂
      exact absurd hk₁ (hfresh _ _)
    · exact hr.item hk₁ hk₂
  known i' hi' := by
    rcases hi' with rfl | hi'
    · exact ⟨k, a, register_entry_self⟩
    · obtain ⟨k', a', hk'⟩ := hr.known i' hi'
      have hne : k' ≠ k := by
        rintro rfl
        rw [hnew] at hk'
        cases hk'
      exact ⟨k', a', (register_entry_of_ne hne).trans hk'⟩
  slots {k₁ k₂ i₁ i₂ a₁ a₂} h₁ h₂ ho₁ ho₂ hslot := by
    -- an old open item of the slot of the new one would occupy it
    have hold : ∀ {k' i' a'}, r.entry k' = some (i', a') → i' ∈ insert i r.opened →
        slot a' ≠ slot a := by
      intro k' i' a' hk' hi' heq
      rcases hi' with rfl | hi'
      · exact hfresh _ _ hk'
      · exact hfree ⟨k', i', a', hk', hi', heq⟩
    obtain ⟨rfl, he₁⟩ | ⟨-, hk₁⟩ := register_entry h₁ <;>
      obtain ⟨rfl, he₂⟩ | ⟨-, hk₂⟩ := register_entry h₂
    · rfl
    · cases he₁
      exact absurd hslot.symm (hold hk₂ ho₂)
    · cases he₂
      exact absurd hslot (hold hk₁ ho₁)
    · have hopen : ∀ {k' i' a'}, r.entry k' = some (i', a') → i' ∈ insert i r.opened →
          i' ∈ r.opened := by
        intro k' i' a' hk' hi'
        rcases hi' with rfl | hi'
        · exact absurd hk' (hfresh _ _)
        · exact hi'
      exact hr.slots hk₁ hk₂ (hopen hk₁ ho₁) (hopen hk₂ ho₂) hslot

theorem register_later (hnew : r.entry k = none) (hfresh : r.Fresh i) :
    Later r (r.register k i a) where
  entry {k' x} hk' := by
    have hne : k' ≠ k := by
      rintro rfl
      rw [hnew] at hk'
      cases hk'
    exact (register_entry_of_ne hne).trans hk'
  closed {k' i' a'} hk' hi' hopen := by
    rcases hopen with rfl | hopen
    · exact hfresh _ _ hk'
    · exact hi' hopen

theorem Step.exclusive (h : Step slot r r') (hr : r.Exclusive slot) : r'.Exclusive slot := by
  cases h with
  | register k i a hnew hfresh hfree => exact register_exclusive hr hnew hfresh hfree
  | settle rest hrest =>
    refine ⟨hr.item, fun i hi => hr.known i (hrest hi), fun h₁ h₂ ho₁ ho₂ hslot => ?_⟩
    exact hr.slots h₁ h₂ (hrest ho₁) (hrest ho₂) hslot

theorem Step.later (h : Step slot r r') : Later r r' := by
  cases h with
  | register k i a hnew hfresh _ => exact register_later hnew hfresh
  | settle rest hrest => exact ⟨id, fun _ hi hopen => hi (hrest hopen)⟩

end Steps

end Registry
