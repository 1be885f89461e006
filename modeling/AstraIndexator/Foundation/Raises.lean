import AstraIndexator.Foundation.Transaction

/-!
# What a computation may raise

`Raises P x` says that every exception of `x` satisfies `P`.  There is one rule for each way
such a computation is put together.
-/

def Raises {ε α : Type} (P : ε → Prop) (x : Except ε α) : Prop := ∀ e, x = .error e → P e

namespace Raises

open Transaction

variable {ε α β : Type} {P : ε → Prop}

theorem ok (a : α) : Raises P (.ok a : Except ε α) := fun _ h => by cases h

theorem error {e : ε} (he : P e) : Raises P (.error e : Except ε α) := fun e' h => by
  cases h
  exact he

theorem bind_of_ok {x : Except ε α} {f : α → Except ε β} (hx : Raises P x)
    (hf : ∀ a, x = .ok a → Raises P (f a)) : Raises P (x >>= f) := by
  intro e h
  rcases except_bind_error.mp h with h | ⟨a, ha, h⟩
  · exact hx e h
  · exact hf a ha e h

theorem bind {x : Except ε α} {f : α → Except ε β} (hx : Raises P x)
    (hf : ∀ a, Raises P (f a)) : Raises P (x >>= f) := bind_of_ok hx fun a _ => hf a

theorem ite {c : Prop} [Decidable c] {x y : Except ε α} (hx : Raises P x) (hy : Raises P y) :
    Raises P (if c then x else y) := by
  split
  · exact hx
  · exact hy

/-- `if c: raise e`, and what comes after it. -/
theorem guard {c : Prop} [Decidable c] {e : ε} {f : α → Except ε β} {y : Except ε β} (he : P e)
    (hy : Raises P y) : Raises P (if c then throw e >>= f else y) :=
  .ite (fun _ h => error he _ h) hy

/-- `if c: raise e`, and what comes after it where the condition fails. -/
theorem guard_of_not {c : Prop} [Decidable c] {e : ε} {f : α → Except ε β} {y : Except ε β}
    (he : P e) (hy : ¬ c → Raises P y) : Raises P (if c then throw e >>= f else y) := by
  by_cases hc : c
  · rw [if_pos hc]
    exact fun _ h => error he _ h
  · rw [if_neg hc]
    exact hy hc

theorem map {x : Except ε α} {f : α → β} (hx : Raises P x) : Raises P (f <$> x) := by
  cases x with
  | ok a => exact ok _
  | error e => exact error (hx e rfl)

theorem mapM {f : α → Except ε β} {l : List α} (h : ∀ a ∈ l, Raises P (f a)) :
    Raises P (l.mapM f) := by
  induction l with
  | nil => exact ok []
  | cons a l ih =>
    rw [List.mapM_cons]
    exact bind (h a List.mem_cons_self) fun b =>
      bind (ih fun c hc => h c (List.mem_cons_of_mem _ hc)) fun _ => ok _

theorem forM {f : α → Except ε Unit} {l : List α} (h : ∀ a ∈ l, Raises P (f a)) :
    Raises P (l.forM f) := by
  induction l with
  | nil => exact ok ()
  | cons a l ih =>
    rw [List.forM_eq_forM, List.forM_cons, ← List.forM_eq_forM]
    exact bind (h a List.mem_cons_self) fun _ => ih fun c hc => h c (List.mem_cons_of_mem _ hc)

theorem foldlM {step : α → β → Except ε α} {items : List β}
    (h : ∀ a, ∀ b ∈ items, Raises P (step a b)) (a : α) : Raises P (items.foldlM step a) := by
  induction items generalizing a with
  | nil => exact ok a
  | cons b items ih =>
    rw [List.foldlM_cons]
    exact bind (h a b List.mem_cons_self) fun next =>
      ih (fun a c hc => h a c (List.mem_cons_of_mem _ hc)) next

/-! ## What may be raised, exactly -/

theorem error_iff {e : ε} : Raises P (.error e : Except ε α) ↔ P e :=
  ⟨fun h => h e rfl, error⟩

theorem bind_iff {x : Except ε α} {f : α → Except ε β} :
    Raises P (x >>= f) ↔ Raises P x ∧ ∀ a, x = .ok a → Raises P (f a) := by
  refine ⟨fun h => ⟨fun e he => ?_, fun a ha e he => ?_⟩, fun ⟨hx, hf⟩ => bind_of_ok hx hf⟩
  · exact h e (except_bind_error.mpr (.inl he))
  · exact h e (except_bind_error.mpr (.inr ⟨a, ha, he⟩))

/-- What comes first raises nothing else. -/
theorem of_bind {x : Except ε α} {f : α → Except ε β} (h : Raises P (x >>= f)) : Raises P x :=
  (bind_iff.mp h).1

/-- What comes behind a result raises nothing else. -/
theorem of_bind_ok {x : Except ε α} {f : α → Except ε β} {a : α} (h : Raises P (x >>= f))
    (ha : x = .ok a) : Raises P (f a) := (bind_iff.mp h).2 a ha

/-- What comes behind a check that holds raises nothing else. -/
theorem of_guard {c : Prop} [Decidable c] {e : ε} {f : α → Except ε β} {y : Except ε β}
    (h : Raises P (if c then throw e >>= f else y)) (hc : ¬ c) : Raises P y := by
  rw [if_neg hc] at h
  exact h

/-- Only the first member that fails raises anything. -/
theorem mapM_iff {f : α → Except ε β} {l : List α} :
    Raises P (l.mapM f) ↔ ∀ front a back, l = front ++ a :: back →
      (∀ b ∈ front, ∃ c, f b = .ok c) → Raises P (f a) := by
  induction l with
  | nil =>
    refine iff_of_true (ok []) fun front a back heq => ?_
    exact absurd heq (by simp)
  | cons b l ih =>
    rw [List.mapM_cons, bind_iff]
    constructor
    · rintro ⟨hb, hl⟩ front a back heq hfront
      cases front with
      | nil =>
        obtain ⟨rfl, -⟩ := List.cons.inj heq
        exact hb
      | cons c front =>
        obtain ⟨rfl, hrest⟩ := List.cons.inj heq
        obtain ⟨⟨result, hresult⟩, hfront⟩ := List.forall_mem_cons.mp hfront
        exact ih.mp (bind_iff.mp (hl result hresult)).1 front a back hrest hfront
    · intro h
      refine ⟨h [] b l rfl (List.forall_mem_nil _), fun result hresult => ?_⟩
      refine bind (ih.mpr fun front a back heq hfront => ?_) fun _ => ok _
      refine h (b :: front) a back (by rw [heq]; rfl) ?_
      exact List.forall_mem_cons.mpr ⟨⟨result, hresult⟩, hfront⟩

end Raises
