import AstraIndexator.Foundation.Transaction

/-!
# Loops under a limit

A loop adds to what it holds and fails as soon as it holds too much, or at a member it does not
take.  What is within the limit was within it at every turn before, so such a loop, together
with a last check of the limit, succeeds exactly when the loop without checks ends within it.
-/

namespace Limited

open Transaction

variable {ε σ β τ : Type}

/-- A turn that succeeds takes its member and computes `next`.  It succeeds where `next` is
within the limit, and what is within the limit was so before. -/
structure Loop (step : σ → β → Except ε σ) (next : σ → β → σ) (Taken : β → Prop)
    (Within : σ → Prop) : Prop where
  taken : ∀ s b s', step s b = .ok s' → Taken b ∧ s' = next s b
  succeeds : ∀ s b, Taken b → Within (next s b) → step s b = .ok (next s b)
  earlier : ∀ s b, Within (next s b) → Within s

variable {step : σ → β → Except ε σ} {next : σ → β → σ} {Taken : β → Prop} {Within : σ → Prop}
  {items : List β} {s s' : σ}

theorem Loop.run_taken (h : Loop step next Taken Within)
    (hrun : items.foldlM step s = .ok s') :
    (∀ b ∈ items, Taken b) ∧ s' = items.foldl next s := by
  induction items generalizing s with
  | nil => exact ⟨List.forall_mem_nil _, (Except.ok.inj hrun).symm⟩
  | cons b items ih =>
    rw [List.foldlM_cons] at hrun
    obtain ⟨s₁, hstep, hrun⟩ := except_bind_ok.mp hrun
    obtain ⟨hb, rfl⟩ := h.taken s b s₁ hstep
    obtain ⟨hitems, hs'⟩ := ih hrun
    exact ⟨List.forall_mem_cons.mpr ⟨hb, hitems⟩, hs'⟩

theorem Loop.within_of_run (h : Loop step next Taken Within)
    (hwithin : Within (items.foldl next s)) : Within s := by
  induction items generalizing s with
  | nil => exact hwithin
  | cons b items ih => exact h.earlier s b (ih hwithin)

theorem Loop.run_succeeds (h : Loop step next Taken Within)
    (htaken : ∀ b ∈ items, Taken b) (hwithin : Within (items.foldl next s)) :
    items.foldlM step s = .ok (items.foldl next s) := by
  induction items generalizing s with
  | nil => rfl
  | cons b items ih =>
    rw [List.forall_mem_cons] at htaken
    rw [List.foldlM_cons, h.succeeds s b htaken.1 (h.within_of_run hwithin), except_ok_bind]
    exact ih htaken.2 hwithin

/-- A last step that checks the limit makes the checks of the loop superfluous. -/
theorem Loop.bind_ok_iff (h : Loop step next Taken Within) {finish : σ → Except ε τ} {t : τ}
    (hfinish : ∀ s t, finish s = .ok t → Within s) :
    (items.foldlM step s >>= finish) = .ok t ↔
      (∀ b ∈ items, Taken b) ∧ finish (items.foldl next s) = .ok t := by
  constructor
  · intro hrun
    obtain ⟨s', hloop, hlast⟩ := except_bind_ok.mp hrun
    obtain ⟨htaken, rfl⟩ := h.run_taken hloop
    exact ⟨htaken, hlast⟩
  · intro ⟨htaken, hlast⟩
    rw [h.run_succeeds htaken (hfinish _ _ hlast), except_ok_bind]
    exact hlast

end Limited
