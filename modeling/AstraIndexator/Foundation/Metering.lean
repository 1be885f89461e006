import Mathlib.Algebra.Order.BigOperators.Group.List
import Mathlib.Data.List.Induction

/-!
# Budgets charged after the work

Items are tested against a budget before work is done on them, and charged to it
afterwards.  Work that fails is not charged; an item can also be charged for work that was
done before.  The tests keep the work within the budget up to the first failure, and from
there they no longer see all of it.
-/

/-- What happens to an item that passed its test. -/
inductive Metered (ι : Type*)
  /-- Work is done on it and charged. -/
  | charged (item : ι)
  /-- Work is done on it and fails. -/
  | lost (item : ι)
  /-- It is charged without work. -/
  | reused (item : ι)

namespace Metered

variable {ι : Type*}

def item : Metered ι → ι
  | charged i => i
  | lost i => i
  | reused i => i

/-- The item, if work is done on it. -/
def worked : Metered ι → Option ι
  | charged i => some i
  | lost i => some i
  | reused _ => none

/-- The item, if it is charged. -/
def billed : Metered ι → Option ι
  | charged i => some i
  | lost _ => none
  | reused i => some i

/-- The work failed. -/
def Lost (event : Metered ι) : Prop := event.billed = none

instance (event : Metered ι) : Decidable event.Lost :=
  inferInstanceAs (Decidable (_ = none))

section Totals

variable {α : Type*} [AddCommMonoid α] (cost : ι → α)

/-- What the work comes to. -/
def work (events : List (Metered ι)) : α := ((events.filterMap worked).map cost).sum

/-- What is charged. -/
def bill (events : List (Metered ι)) : α := ((events.filterMap billed).map cost).sum

variable {cost}

theorem work_append (l l' : List (Metered ι)) : work cost (l ++ l') = work cost l + work cost l' := by
  rw [work, List.filterMap_append, List.map_append, List.sum_append]
  rfl

theorem bill_append (l l' : List (Metered ι)) : bill cost (l ++ l') = bill cost l + bill cost l' := by
  rw [bill, List.filterMap_append, List.map_append, List.sum_append]
  rfl

theorem work_singleton (event : Metered ι) :
    work cost [event] = (event.worked.map cost).getD 0 := by
  cases event with
  | charged i => exact List.sum_singleton
  | lost i => exact List.sum_singleton
  | reused i => rfl

theorem bill_singleton (event : Metered ι) :
    bill cost [event] = (event.billed.map cost).getD 0 := by
  cases event with
  | charged i => exact List.sum_singleton
  | lost i => rfl
  | reused i => exact List.sum_singleton

end Totals

section Budget

variable {α : Type*} [AddCommMonoid α] [LinearOrder α] (cost : ι → α) (limit : α)

/-- Every item that costs something was tested against what had been charged. -/
def Tested (events : List (Metered ι)) : Prop :=
  ∀ before event after, events = before ++ event :: after →
    cost event.item = 0 ∨ bill cost before + cost event.item ≤ limit

/-- Work that is done after a failure fits with the work done before. -/
def FitsAfterLoss (events : List (Metered ι)) : Prop :=
  ∀ before event after, events = before ++ event :: after →
    (∃ e ∈ before, e.Lost) → event.worked.isSome → work cost (before ++ [event]) ≤ limit

variable {cost limit}

/-- A property of the places of a list, for a list with one more item. -/
theorem split_concat {p : List (Metered ι) → Metered ι → Prop} {l : List (Metered ι)}
    {last : Metered ι}
    (h : ∀ before event after, l ++ [last] = before ++ event :: after → p before event) :
    (∀ before event after, l = before ++ event :: after → p before event) ∧ p l last := by
  constructor
  · intro before event after hl
    apply h before event (after ++ [last])
    rw [hl, List.append_assoc, List.cons_append]
  · exact h l last [] rfl

/-- A test more. -/
theorem Tested.concat {l : List (Metered ι)} {last : Metered ι} (h : Tested cost limit l)
    (hlast : cost last.item = 0 ∨ bill cost l + cost last.item ≤ limit) :
    Tested cost limit (l ++ [last]) := by
  intro before event after hsplit
  rcases List.eq_nil_or_concat after with rfl | ⟨init, e, rfl⟩
  · obtain ⟨rfl, hevent⟩ := List.append_inj' hsplit rfl
    obtain rfl := List.singleton_inj.mp hevent
    exact hlast
  · rw [List.concat_eq_append, ← List.cons_append, ← List.append_assoc] at hsplit
    exact h before event init (List.append_inj' hsplit rfl).1

/-- Without a failure no work is done after one. -/
theorem fitsAfterLoss_of_none {events : List (Metered ι)} (h : ∀ e ∈ events, ¬ e.Lost) :
    FitsAfterLoss cost limit events := by
  intro before event after hevents hlost
  obtain ⟨e, he, hfailed⟩ := hlost
  refine absurd hfailed (h e ?_)
  rw [hevents]
  exact List.mem_append_left _ he

variable [IsOrderedAddMonoid α]

theorem work_nonneg {events : List (Metered ι)} (hcost : ∀ e ∈ events, 0 ≤ cost e.item) :
    0 ≤ work cost events := by
  refine List.sum_nonneg fun a ha => ?_
  obtain ⟨i, hi, rfl⟩ := List.mem_map.mp ha
  obtain ⟨e, he, hworked⟩ := List.mem_filterMap.mp hi
  have hitem : e.item = i := by
    cases e with
    | charged j => exact Option.some.inj hworked
    | lost j => exact Option.some.inj hworked
    | reused j => cases hworked
  rw [← hitem]
  exact hcost e he

/-- Without a failure all the work is charged. -/
theorem work_le_bill {events : List (Metered ι)} (hcost : ∀ e ∈ events, 0 ≤ cost e.item)
    (hlost : ∀ e ∈ events, ¬ e.Lost) : work cost events ≤ bill cost events := by
  induction events with
  | nil => exact le_refl _
  | cons e l ih =>
    have hrest := ih (fun e he => hcost e (List.mem_cons_of_mem _ he))
      (fun e he => hlost e (List.mem_cons_of_mem _ he))
    rw [← List.singleton_append, work_append, bill_append, work_singleton, bill_singleton]
    refine add_le_add ?_ hrest
    cases e with
    | charged i => exact le_refl _
    | lost i => exact absurd rfl (hlost _ List.mem_cons_self)
    | reused i => exact hcost _ List.mem_cons_self

/-- The work is within the budget exactly when what is done of it after a failure is. -/
theorem work_le_iff (hlimit : 0 ≤ limit) {events : List (Metered ι)}
    (hcost : ∀ e ∈ events, 0 ≤ cost e.item) (htested : Tested cost limit events) :
    work cost events ≤ limit ↔ FitsAfterLoss cost limit events := by
  constructor
  · intro hwork before event after hevents _ _
    have hafter : 0 ≤ work cost after := by
      apply work_nonneg
      intro e he
      apply hcost
      rw [hevents]
      exact List.mem_append_right _ (List.mem_cons_of_mem _ he)
    have hsplit : work cost events = work cost (before ++ [event]) + work cost after := by
      rw [← work_append, hevents, List.append_assoc, List.singleton_append]
    calc work cost (before ++ [event]) ≤ work cost (before ++ [event]) + work cost after :=
          le_add_of_nonneg_right hafter
      _ = work cost events := hsplit.symm
      _ ≤ limit := hwork
  · intro hfits
    induction events using List.reverseRecOn with
    | nil => exact hlimit
    | append_singleton l e ih =>
      have hcosts : ∀ e ∈ l, 0 ≤ cost e.item := fun e he => hcost e (List.mem_append_left _ he)
      obtain ⟨hl, htest⟩ := split_concat htested
      obtain ⟨hlfits, hfit⟩ := split_concat hfits
      have hwork := ih hcosts hl hlfits
      by_cases hworked : e.worked.isSome
      · by_cases hlost : ∃ e ∈ l, e.Lost
        · exact hfit hlost hworked
        · have hitem : work cost [e] = cost e.item := by
            rw [work_singleton]
            cases e with
            | charged i => rfl
            | lost i => rfl
            | reused i => cases hworked
          rw [work_append, hitem]
          rcases htest with hzero | hroom
          · rw [hzero, add_zero]
            exact hwork
          · have hbill := work_le_bill hcosts (fun e he h => hlost ⟨e, he, h⟩)
            exact (add_le_add_left hbill _).trans hroom
      · rw [work_append, work_singleton, Option.not_isSome_iff_eq_none.mp hworked]
        change work cost l + 0 ≤ limit
        rw [add_zero]
        exact hwork

end Budget

end Metered
