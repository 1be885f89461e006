import Mathlib.Data.Sum.Basic
import Mathlib.Logic.Relation

/-!
# Loops that may run forever

One turn of a loop either ends it with a result or goes on from another state.  `Ends` says
that the loop ends, after how many turns, and with what.
-/

namespace Loop

variable {σ ρ : Type} {turn : σ → ρ ⊕ σ}

/-- The loop ends from a state with a result, after so many turns that go on. -/
inductive Ends (turn : σ → ρ ⊕ σ) : σ → Nat → ρ → Prop
  | done {s : σ} {r : ρ} (h : turn s = .inl r) : Ends turn s 0 r
  | next {s s' : σ} {n : Nat} {r : ρ} (h : turn s = .inr s') (hr : Ends turn s' n r) :
    Ends turn s (n + 1) r

/-- What every turn keeps holds where the loop ends. -/
theorem Ends.invariant {I : σ → Prop} (hI : ∀ s s', I s → turn s = .inr s' → I s') {s : σ} {n : Nat}
    {r : ρ} (h : Ends turn s n r) (hs : I s) : ∃ last, I last ∧ turn last = .inl r := by
  induction h with
  | done hlast => exact ⟨_, hs, hlast⟩
  | next hturn _ ih => exact ih (hI _ _ hs hturn)

end Loop

/-! ## Steps of which there is at most one -/

namespace Relation

variable {α : Type} {R : α → α → Prop}

/-- Where a walk with no choice comes to an end, it has not passed a point twice. -/
theorem ReflTransGen.not_transGen_self (hR : Relator.RightUnique R) {a last : α}
    (h : ReflTransGen R a last) (hlast : ∀ b, ¬ R last b) : ¬ TransGen R a a := by
  induction h using ReflTransGen.head_induction_on with
  | refl =>
    intro hcycle
    obtain ⟨b, hb, -⟩ := TransGen.head'_iff.mp hcycle
    exact hlast b hb
  | head hstep _ ih =>
    intro hcycle
    obtain ⟨b, hb, hrest⟩ := TransGen.head'_iff.mp hcycle
    obtain rfl := hR hstep hb
    exact ih (TransGen.tail' hrest hstep)

end Relation
