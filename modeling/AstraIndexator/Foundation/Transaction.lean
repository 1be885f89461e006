import Mathlib.Logic.Basic

/-!
# Transactions over a shared state

A transaction reads the instant it started at, reads and writes a state, and
either commits a value or raises.  It is the standard stack of a reader, a state
and an exception monad, with the exception innermost, so that an exception
drops the writes made before it.  `commit` makes that rollback explicit.

The inversion lemmas below are the only place where the stack is unfolded.
Every fact about a modelled transaction is derived from them.
-/

namespace Transaction

/-- A transaction over the state `σ`, started at an instant of `τ`. -/
abbrev Tx (τ σ ε : Type) : Type → Type := ReaderT τ (StateT σ (Except ε))

variable {τ σ ε α β : Type}

/-- Run a transaction at instant `t` from state `s`. -/
def exec (x : Tx τ σ ε α) (t : τ) (s : σ) : Except ε (α × σ) := (x.run t).run s

/-- The answer a transaction gives and the state it leaves.  A transaction that
raises leaves the state it started from. -/
def commit (x : Tx τ σ ε α) (t : τ) (s : σ) : Except ε α × σ :=
  match exec x t s with
  | .ok (a, s') => (.ok a, s')
  | .error e => (.error e, s)

/-- Read a part of the state. -/
def query (f : σ → α) : Tx τ σ ε α := do return f (← get)

/-- The instant the transaction started at. -/
def startedAt : Tx τ σ ε τ := read

/-- Raise `e` when the condition holds. -/
def raiseIf (p : Prop) [Decidable p] (e : ε) : Tx τ σ ε Unit :=
  if p then throw e else pure ()

/-- The value of a computation that needs no state. -/
def lift : Except ε α → Tx τ σ ε α
  | .ok a => pure a
  | .error e => throw e

section Exec

variable (t : τ) (s : σ)

@[simp] theorem exec_pure (a : α) : exec (pure a : Tx τ σ ε α) t s = .ok (a, s) := rfl

@[simp] theorem exec_throw (e : ε) : exec (throw e : Tx τ σ ε α) t s = .error e := rfl

@[simp] theorem exec_query (f : σ → α) : exec (query f : Tx τ σ ε α) t s = .ok (f s, s) := rfl

@[simp] theorem exec_startedAt : exec (startedAt : Tx τ σ ε τ) t s = .ok (t, s) := rfl

@[simp] theorem exec_get : exec (get : Tx τ σ ε σ) t s = .ok (s, s) := rfl

@[simp] theorem exec_set (s' : σ) : exec (set s' : Tx τ σ ε PUnit) t s = .ok (⟨⟩, s') := rfl

@[simp] theorem exec_modify (f : σ → σ) :
    exec (modify f : Tx τ σ ε Unit) t s = .ok ((), f s) := rfl

theorem exec_bind (x : Tx τ σ ε α) (f : α → Tx τ σ ε β) :
    exec (x >>= f) t s =
      match exec x t s with
      | .ok (a, s') => exec (f a) t s'
      | .error e => .error e := by
  show (x t s).bind (fun p => f p.1 t p.2) = _
  cases h : x t s with
  | ok p => simp [exec, ReaderT.run, StateT.run, h, Except.bind]
  | error e => simp [exec, ReaderT.run, StateT.run, h, Except.bind]

theorem exec_ite (p : Prop) [Decidable p] (x y : Tx τ σ ε α) :
    exec (if p then x else y) t s = if p then exec x t s else exec y t s := by
  split <;> rfl

end Exec

/-! ## Inversion -/

theorem except_isOk {x : Except ε α} : x.isOk = true ↔ ∃ a, x = .ok a := by
  cases x with
  | ok a => exact ⟨fun _ => ⟨a, rfl⟩, fun _ => rfl⟩
  | error e =>
    constructor
    · intro h
      cases h
    · rintro ⟨a, h⟩
      cases h

theorem except_ok_bind (a : α) (f : α → Except ε β) : (Except.ok a >>= f) = f a := rfl

/-- A computation without state succeeds exactly when both of its parts do. -/
theorem except_bind_ok {x : Except ε α} {f : α → Except ε β} {b : β} :
    (x >>= f) = .ok b ↔ ∃ a, x = .ok a ∧ f a = .ok b := by
  cases x with
  | ok a => simp [bind, Except.bind]
  | error e => simp [bind, Except.bind]

/-- A computation without state fails where one of its parts does. -/
theorem except_bind_error {x : Except ε α} {f : α → Except ε β} {e : ε} :
    (x >>= f) = .error e ↔ x = .error e ∨ ∃ a, x = .ok a ∧ f a = .error e := by
  cases x with
  | ok a => simp [bind, Except.bind]
  | error e => simp [bind, Except.bind]

/-- What every step appends, the run appends for all items. -/
theorem except_foldlM_flatMap {β γ : Type} (step : α → β → Except ε α) {content : α → List γ}
    {part : β → List γ}
    (hstep : ∀ a b a', step a b = .ok a' → content a' = content a ++ part b)
    {items : List β} {a a' : α} (h : items.foldlM step a = .ok a') :
    content a' = content a ++ items.flatMap part := by
  induction items generalizing a with
  | nil =>
    obtain rfl := Except.ok.inj h
    exact (List.append_nil _).symm
  | cons b items ih =>
    rw [List.foldlM_cons] at h
    obtain ⟨next, hnext, h⟩ := except_bind_ok.mp h
    rw [ih h, hstep a b next hnext, List.flatMap_cons, List.append_assoc]

/-- A guarded exception that was not raised. -/
theorem except_guard_ok {p : Prop} [Decidable p] {e : ε} {f : α → Except ε β} {y : Except ε β}
    {b : β} : (if p then (throw e >>= f) else y) = .ok b ↔ ¬ p ∧ y = .ok b := by
  by_cases hp : p
  · simp [hp, bind, Except.bind, throw, throwThe, MonadExceptOf.throw]
  · simp [hp]

variable {t : τ} {s s' : σ}

theorem exec_bind_of_ok {x : Tx τ σ ε α} {f : α → Tx τ σ ε β} {a : α} {s₁ : σ}
    (h : exec x t s = .ok (a, s₁)) : exec (x >>= f) t s = exec (f a) t s₁ := by
  rw [exec_bind, h]

theorem exec_bind_of_error {x : Tx τ σ ε α} {f : α → Tx τ σ ε β} {e : ε}
    (h : exec x t s = .error e) : exec (x >>= f) t s = .error e := by
  rw [exec_bind, h]

/-- A sequence commits exactly when both of its parts do. -/
theorem exec_bind_ok {x : Tx τ σ ε α} {f : α → Tx τ σ ε β} {b : β} :
    exec (x >>= f) t s = .ok (b, s') ↔
      ∃ a s₁, exec x t s = .ok (a, s₁) ∧ exec (f a) t s₁ = .ok (b, s') := by
  rw [exec_bind]
  cases h : exec x t s with
  | ok p =>
    constructor
    · intro hf
      exact ⟨p.1, p.2, rfl, hf⟩
    · rintro ⟨a, s₁, hp, hf⟩
      cases hp
      exact hf
  | error e => simp

@[simp] theorem exec_raiseIf_ok {p : Prop} [Decidable p] {e : ε} {u : Unit} :
    exec (raiseIf p e : Tx τ σ ε Unit) t s = .ok (u, s') ↔ ¬ p ∧ s' = s := by
  unfold raiseIf
  by_cases hp : p
  · simp [hp]
  · simp [hp, eq_comm]

theorem exec_raiseIf_of_not {p : Prop} [Decidable p] {e : ε} (h : ¬ p) :
    exec (raiseIf p e : Tx τ σ ε Unit) t s = .ok ((), s) :=
  exec_raiseIf_ok.mpr ⟨h, rfl⟩

theorem exec_raiseIf_of_pos {p : Prop} [Decidable p] {e : ε} (h : p) :
    exec (raiseIf p e : Tx τ σ ε Unit) t s = .error e := by
  simp [raiseIf, h]

@[simp] theorem exec_lift_ok {x : Except ε α} {a : α} :
    exec (lift x : Tx τ σ ε α) t s = .ok (a, s') ↔ x = .ok a ∧ s' = s := by
  cases x with
  | ok b => simp [lift, eq_comm]
  | error e => simp [lift]

/-! ### First statements

A transaction that begins with a statement of known effect. -/

section First

variable {f : σ → Tx τ σ ε β} {r : β × σ}

@[simp] theorem exec_get_bind : exec (get >>= f) t s = exec (f s) t s := by
  rw [exec_bind, exec_get]

@[simp] theorem exec_query_bind {q : σ → α} {g : α → Tx τ σ ε β} :
    exec (query q >>= g) t s = exec (g (q s)) t s := by
  rw [exec_bind, exec_query]

@[simp] theorem exec_startedAt_bind {g : τ → Tx τ σ ε β} :
    exec (startedAt >>= g) t s = exec (g t) t s := by
  rw [exec_bind, exec_startedAt]

@[simp] theorem exec_modify_bind {m : σ → σ} {g : PUnit → Tx τ σ ε β} :
    exec (modify m >>= g) t s = exec (g ⟨⟩) t (m s) := by
  rw [exec_bind, exec_modify]

@[simp] theorem exec_raiseIf_bind_ok {p : Prop} [Decidable p] {e : ε}
    {g : Unit → Tx τ σ ε β} :
    exec (raiseIf p e >>= g) t s = .ok r ↔ ¬ p ∧ exec (g ()) t s = .ok r := by
  unfold raiseIf
  by_cases hp : p
  · simp [hp, exec_bind]
  · simp [hp]

@[simp] theorem exec_lift_bind_ok {x : Except ε α} {g : α → Tx τ σ ε β} :
    exec (lift x >>= g) t s = .ok r ↔ ∃ a, x = .ok a ∧ exec (g a) t s = .ok r := by
  cases x with
  | ok a => simp [lift]
  | error e => simp [lift, exec_bind]

end First

/-! ## Commit and rollback -/

theorem commit_of_ok {x : Tx τ σ ε α} {a : α} (h : exec x t s = .ok (a, s')) :
    commit x t s = (.ok a, s') := by
  simp [commit, h]

theorem commit_of_error {x : Tx τ σ ε α} {e : ε} (h : exec x t s = .error e) :
    commit x t s = (.error e, s) := by
  simp [commit, h]

/-- A transaction that raises changes nothing. -/
theorem commit_cases (x : Tx τ σ ε α) (t : τ) (s : σ) :
    (∃ a s', exec x t s = .ok (a, s') ∧ commit x t s = (.ok a, s')) ∨
      ∃ e, exec x t s = .error e ∧ commit x t s = (.error e, s) := by
  cases h : exec x t s with
  | ok p => exact .inl ⟨p.1, p.2, rfl, commit_of_ok h⟩
  | error e => exact .inr ⟨e, rfl, commit_of_error h⟩

/-- A reflexive relation kept by every committing execution is kept by the
transaction, whatever it answers. -/
theorem commit_rel {x : Tx τ σ ε α} {R : σ → σ → Prop} (hrefl : R s s)
    (h : ∀ a s', exec x t s = .ok (a, s') → R s s') : R s (commit x t s).2 := by
  obtain ⟨a, s', hx, hc⟩ | ⟨e, -, hc⟩ := commit_cases x t s
  · rw [hc]; exact h a s' hx
  · rw [hc]; exact hrefl

/-! ## Parts of the state -/

section Preserves

variable {γ : Type}

/-- No committing execution changes this part of the state. -/
def Preserves (f : σ → γ) (x : Tx τ σ ε α) : Prop :=
  ∀ t s a s', exec x t s = .ok (a, s') → f s' = f s

namespace Preserves

variable {f : σ → γ}

theorem pure {a : α} : Preserves f (Pure.pure a : Tx τ σ ε α) := by
  intro t s a s' h
  cases h
  rfl

theorem throw {e : ε} : Preserves f (throw e : Tx τ σ ε α) := by
  intro t s a s' h
  cases h

theorem query {q : σ → α} : Preserves f (query q : Tx τ σ ε α) := by
  intro t s a s' h
  cases h
  rfl

theorem startedAt : Preserves f (startedAt : Tx τ σ ε τ) := by
  intro t s a s' h
  cases h
  rfl

theorem get : Preserves f (MonadState.get : Tx τ σ ε σ) := by
  intro t s a s' h
  cases h
  rfl

theorem modify {m : σ → σ} (hm : ∀ s, f (m s) = f s) : Preserves f (modify m : Tx τ σ ε Unit) := by
  intro t s a s' h
  cases h
  exact hm s

theorem raiseIf {p : Prop} [Decidable p] {e : ε} :
    Preserves f (raiseIf p e : Tx τ σ ε Unit) := by
  intro t s a s' h
  rw [(exec_raiseIf_ok.mp h).2]

theorem lift {r : Except ε α} : Preserves f (lift r : Tx τ σ ε α) := by
  intro t s a s' h
  rw [(exec_lift_ok.mp h).2]

theorem bind {x : Tx τ σ ε α} {g : α → Tx τ σ ε β} (hx : Preserves f x)
    (hg : ∀ a, Preserves f (g a)) : Preserves f (x >>= g) := by
  intro t s b s' h
  obtain ⟨a, s₁, h₁, h₂⟩ := exec_bind_ok.mp h
  rw [hg a t s₁ b s' h₂, hx t s a s₁ h₁]

theorem ite {p : Prop} [Decidable p] {x y : Tx τ σ ε α} (hx : Preserves f x)
    (hy : Preserves f y) : Preserves f (if p then x else y) := by
  by_cases hp : p
  · rwa [if_pos hp]
  · rwa [if_neg hp]

/-- A rolled back transaction changes nothing at all. -/
theorem commit {x : Tx τ σ ε α} (hx : Preserves f x) (t : τ) (s : σ) :
    f (commit x t s).2 = f s :=
  commit_rel (R := fun s s' => f s' = f s) rfl fun a s' h => hx t s a s' h

end Preserves

end Preserves

end Transaction
