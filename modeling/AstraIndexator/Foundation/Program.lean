import Mathlib.Logic.Basic

/-!
# Programs over operations

A program performs operations of a given kind one after the other, and returns a
value or raises.  The answer to an operation, a result or an exception, is given
to the rest of the program, so a program can catch what an operation raises.

`wp` is the weakest precondition of a program that shares its state with others.
Between two operations the others move the state along the relation `rely`.  Each
operation must satisfy `guar` where it is performed.  Conditions may speak about
the events the program has seen so far.
-/

/-- A program with operations `Op`, whose answers have the type `Res op`. -/
inductive Prog (Op : Type) (Res : Op → Type) (ε α : Type) : Type
  | ret (a : α)
  | raise (e : ε)
  | perform (op : Op) (k : Except ε (Res op) → Prog Op Res ε α)

/-- An operation together with its answer. -/
structure Event (Op : Type) (Res : Op → Type) (ε : Type) where
  op : Op
  answer : Except ε (Res op)

namespace Prog

variable {Op : Type} {Res : Op → Type} {ε α β : Type}

/-- Continue with the outcome of a program, a value or an exception. -/
def andThen : Prog Op Res ε α → (Except ε α → Prog Op Res ε β) → Prog Op Res ε β
  | ret a, f => f (.ok a)
  | raise e, f => f (.error e)
  | perform op k, f => perform op fun r => (k r).andThen f

/-- The program that is left when the outcome of an operation or a program is known. -/
def ofExcept : Except ε α → Prog Op Res ε α
  | .ok a => ret a
  | .error e => raise e

/-- Continue with a value and let exceptions through. -/
def onOk (f : α → Prog Op Res ε β) : Except ε α → Prog Op Res ε β
  | .ok a => f a
  | .error e => raise e

/-- Handle an exception and let values through. -/
def onError (f : ε → Prog Op Res ε α) : Except ε α → Prog Op Res ε α
  | .ok a => ret a
  | .error e => f e

instance : Monad (Prog Op Res ε) where
  pure := ret
  bind p f := p.andThen (onOk f)

/-- `try p except e: handler e`. -/
def tryCatch (p : Prog Op Res ε α) (handler : ε → Prog Op Res ε α) : Prog Op Res ε α :=
  p.andThen (onError handler)

/-- Perform an operation and return its result. -/
def call (op : Op) : Prog Op Res ε (Res op) := perform op ofExcept

/-- Perform an operation and return its answer, caught if it is an exception. -/
def attempt (op : Op) : Prog Op Res ε (Except ε (Res op)) := perform op ret

/-! ## Weakest preconditions -/

variable {Choice : Op → Type} {σ : Type}

/-- The operations a thread performs, the moves of the others, and what every
operation has to satisfy after the events `h`. -/
structure Setting (Op : Type) (Res : Op → Type) (ε σ : Type) (Choice : Op → Type) where
  exec : (op : Op) → Choice op → σ → Except ε (Res op) × σ
  rely : σ → σ → Prop
  guar : List (Event Op Res ε) → (op : Op) → Choice op → σ → Prop

/-- The outcome, the events and the state a program may end with. -/
abbrev Post (Op : Type) (Res : Op → Type) (ε σ α : Type) :=
  Except ε α → List (Event Op Res ε) → σ → Prop

variable (S : Setting Op Res ε σ Choice)

/-- After the events `h` in state `s`, every operation of the program satisfies
`guar` and the program ends in `Q`. -/
def wp : Prog Op Res ε α → Post Op Res ε σ α → List (Event Op Res ε) → σ → Prop
  | ret a, Q, h, s => Q (.ok a) h s
  | raise e, Q, h, s => Q (.error e) h s
  | perform op k, Q, h, s => ∀ s₁, S.rely s s₁ → ∀ c, S.guar h op c s₁ ∧
      wp (k (S.exec op c s₁).1) Q (h ++ [⟨op, (S.exec op c s₁).1⟩]) (S.exec op c s₁).2

variable {S} {Q Q' : Post Op Res ε σ α} {h : List (Event Op Res ε)} {s : σ}

theorem wp_mono {p : Prog Op Res ε α} (hQ : ∀ r h s, Q r h s → Q' r h s)
    (hp : wp S p Q h s) : wp S p Q' h s := by
  induction p generalizing h s with
  | ret a => exact hQ _ _ _ hp
  | raise e => exact hQ _ _ _ hp
  | perform op k ih =>
    intro s₁ hs₁ c
    obtain ⟨hguar, hk⟩ := hp s₁ hs₁ c
    exact ⟨hguar, ih _ hk⟩

theorem wp_andThen {p : Prog Op Res ε α} {f : Except ε α → Prog Op Res ε β}
    {Q : Post Op Res ε σ β} :
    wp S (p.andThen f) Q h s ↔ wp S p (fun r h s => wp S (f r) Q h s) h s := by
  induction p generalizing h s with
  | ret a => rfl
  | raise e => rfl
  | perform op k ih =>
    simp only [andThen, wp]
    constructor
    · intro hp s₁ hs₁ c
      exact ⟨(hp s₁ hs₁ c).1, (ih _).mp (hp s₁ hs₁ c).2⟩
    · intro hp s₁ hs₁ c
      exact ⟨(hp s₁ hs₁ c).1, (ih _).mpr (hp s₁ hs₁ c).2⟩

theorem wp_bind {p : Prog Op Res ε α} {f : α → Prog Op Res ε β} {Q : Post Op Res ε σ β} :
    wp S (p >>= f) Q h s ↔ wp S p (fun r h s => wp S (onOk f r) Q h s) h s := wp_andThen

theorem wp_tryCatch {p : Prog Op Res ε α} {f : ε → Prog Op Res ε α} :
    wp S (p.tryCatch f) Q h s ↔ wp S p (fun r h s => wp S (onError f r) Q h s) h s := wp_andThen

theorem wp_ofExcept {r : Except ε α} : wp S (ofExcept r) Q h s ↔ Q r h s := by
  cases r with
  | ok a => exact Iff.rfl
  | error e => exact Iff.rfl

theorem wp_and {p : Prog Op Res ε α} (hp : wp S p Q h s) (hp' : wp S p Q' h s) :
    wp S p (fun r h s => Q r h s ∧ Q' r h s) h s := by
  induction p generalizing h s with
  | ret a => exact ⟨hp, hp'⟩
  | raise e => exact ⟨hp, hp'⟩
  | perform op k ih =>
    intro s₁ hs₁ c
    obtain ⟨hguar, hk⟩ := hp s₁ hs₁ c
    exact ⟨hguar, ih _ hk (hp' s₁ hs₁ c).2⟩

/-- What holds at the end of every run holds, when every operation can be performed where the
program stands. -/
theorem wp_elim {φ : Prop} {p : Prog Op Res ε α} (hchoice : ∀ op, Nonempty (Choice op))
    (hrely : ∀ s, S.rely s s) (hp : wp S p (fun _ _ _ => φ) h s) : φ := by
  induction p generalizing h s with
  | ret a => exact hp
  | raise e => exact hp
  | perform op k ih =>
    obtain ⟨c⟩ := hchoice op
    exact ih _ (hp s (hrely s) c).2

/-- A program that is right in a setting is right in one where less can happen. -/
theorem wp_restrict {Choice' : Op → Type} {S' : Setting Op Res ε σ Choice'}
    {p : Prog Op Res ε α} (hrely : ∀ s s', S'.rely s s' → S.rely s s')
    (hexec : ∀ op c s, ∃ c', S'.exec op c s = S.exec op c' s)
    (hguar : ∀ h op c s, S'.guar h op c s) (hp : wp S p Q h s) : wp S' p Q h s := by
  induction p generalizing h s with
  | ret a => exact hp
  | raise e => exact hp
  | perform op k ih =>
    intro s₁ hs₁ c
    obtain ⟨c', hc⟩ := hexec op c s₁
    refine ⟨hguar h op c s₁, ?_⟩
    rw [hc]
    exact ih _ (hp s₁ (hrely s s₁ hs₁) c').2

/-- When every operation satisfies `guar` anywhere, every program does. -/
theorem wp_of_forall (hguar : ∀ h op c s, S.guar h op c s) (p : Prog Op Res ε α) :
    wp S p (fun _ _ _ => True) h s := by
  induction p generalizing h s with
  | ret a => trivial
  | raise e => trivial
  | perform op k ih => exact fun s₁ _ c => ⟨hguar _ _ _ _, ih _⟩

/-! ## Triples -/

/-- A value with `Q`, or an exception with `E`. -/
def outcome (Q : α → List (Event Op Res ε) → σ → Prop) (E : ε → List (Event Op Res ε) → σ → Prop) :
    Post Op Res ε σ α
  | .ok a, h, s => Q a h s
  | .error e, h, s => E e h s

/-- From a state with `P`, the program returns with `Q` or raises with `E`. -/
def Triple (S : Setting Op Res ε σ Choice) (E : ε → List (Event Op Res ε) → σ → Prop)
    (P : List (Event Op Res ε) → σ → Prop) (p : Prog Op Res ε α)
    (Q : α → List (Event Op Res ε) → σ → Prop) : Prop :=
  ∀ h s, P h s → wp S p (outcome Q E) h s

section Rules

variable {E : ε → List (Event Op Res ε) → σ → Prop} {P P' : List (Event Op Res ε) → σ → Prop}
  {Q Q' : α → List (Event Op Res ε) → σ → Prop}

theorem Triple.pre {p : Prog Op Res ε α} (hP : ∀ h s, P' h s → P h s) (hp : Triple S E P p Q) :
    Triple S E P' p Q := fun h s hs => hp h s (hP h s hs)

theorem Triple.post {p : Prog Op Res ε α} (hQ : ∀ a h s, Q a h s → Q' a h s)
    (hp : Triple S E P p Q) : Triple S E P p Q' := by
  refine fun h s hs => wp_mono (fun r h s hr => ?_) (hp h s hs)
  cases r with
  | ok a => exact hQ a h s hr
  | error e => exact hr

theorem Triple.ret {a : α} (hP : ∀ h s, P h s → Q a h s) : Triple S E P (pure a) Q := hP

theorem Triple.raise {e : ε} (hP : ∀ h s, P h s → E e h s) :
    Triple S E P (.raise e : Prog Op Res ε α) Q := hP

/-- What holds where the program starts may be assumed in its proof. -/
theorem Triple.of_pre {p : Prog Op Res ε α} {φ : Prop} (hφ : ∀ h s, P h s → φ)
    (hp : φ → Triple S E P p Q) : Triple S E P p Q := fun h s hs => hp (hφ h s hs) h s hs

/-- A check that must hold for the program to go on. -/
theorem Triple.ofExcept_bind {β : Type} {r : Except ε α} {f : α → Prog Op Res ε β}
    {Q : β → List (Event Op Res ε) → σ → Prop} (hP : ∀ e h s, P h s → E e h s)
    (hf : ∀ a, r = .ok a → Triple S E P (f a) Q) : Triple S E P (ofExcept r >>= f) Q := by
  cases r with
  | ok a => exact hf a rfl
  | error e => exact hP e

/-- The rule for one operation.  `P₁` is what is left of `P` after the moves of the
others. -/
theorem Triple.perform {op : Op} {k : Except ε (Res op) → Prog Op Res ε α}
    (P₁ : List (Event Op Res ε) → σ → Prop)
    (hP : ∀ h s s₁, P h s → S.rely s s₁ → P₁ h s₁)
    (hguar : ∀ h s c, P₁ h s → S.guar h op c s)
    (hop : ∀ h s c, P₁ h s → wp S (k (S.exec op c s).1) (outcome Q E)
      (h ++ [⟨op, (S.exec op c s).1⟩]) (S.exec op c s).2) :
    Triple S E P (.perform op k) Q := by
  intro h s hs s₁ hs₁ c
  have hs' := hP h s s₁ hs hs₁
  exact ⟨hguar h s₁ c hs', hop h s₁ c hs'⟩

/-- The rule for one operation whose exceptions are let through. -/
theorem Triple.call {op : Op} {Q : Res op → List (Event Op Res ε) → σ → Prop}
    (P₁ : List (Event Op Res ε) → σ → Prop)
    (hP : ∀ h s s₁, P h s → S.rely s s₁ → P₁ h s₁)
    (hguar : ∀ h s c, P₁ h s → S.guar h op c s)
    (hok : ∀ h s c a, P₁ h s → (S.exec op c s).1 = .ok a →
      Q a (h ++ [⟨op, .ok a⟩]) (S.exec op c s).2)
    (herror : ∀ h s c e, P₁ h s → (S.exec op c s).1 = .error e →
      E e (h ++ [⟨op, .error e⟩]) (S.exec op c s).2) :
    Triple S E P (Prog.call op) Q := by
  refine .perform P₁ hP hguar fun h s c hs => ?_
  rw [wp_ofExcept]
  cases hr : (S.exec op c s).1 with
  | ok a => exact hok h s c a hs hr
  | error e => exact herror h s c e hs hr

/-- The rule for one operation whose exceptions are caught. -/
theorem Triple.attempt {op : Op} {Q : Except ε (Res op) → List (Event Op Res ε) → σ → Prop}
    (P₁ : List (Event Op Res ε) → σ → Prop)
    (hP : ∀ h s s₁, P h s → S.rely s s₁ → P₁ h s₁)
    (hguar : ∀ h s c, P₁ h s → S.guar h op c s)
    (hop : ∀ h s c, P₁ h s → Q (S.exec op c s).1 (h ++ [⟨op, (S.exec op c s).1⟩])
      (S.exec op c s).2) :
    Triple S E P (Prog.attempt op) Q :=
  .perform P₁ hP hguar fun h s c hs => hop h s c hs

theorem Triple.bind {p : Prog Op Res ε α} {f : α → Prog Op Res ε β}
    {R : β → List (Event Op Res ε) → σ → Prop} (hp : Triple S E P p Q)
    (hf : ∀ a, Triple S E (Q a) (f a) R) : Triple S E P (p >>= f) R := by
  intro h s hs
  rw [wp_bind]
  refine wp_mono (fun r h s hr => ?_) (hp h s hs)
  cases r with
  | ok a => exact hf a h s hr
  | error e => exact hr

theorem Triple.tryCatch {p : Prog Op Res ε α} {f : ε → Prog Op Res ε α}
    {E' : ε → List (Event Op Res ε) → σ → Prop} (hp : Triple S E' P p Q)
    (hf : ∀ e, Triple S E (E' e) (f e) Q) : Triple S E P (p.tryCatch f) Q := by
  intro h s hs
  rw [wp_tryCatch]
  refine wp_mono (fun r h s hr => ?_) (hp h s hs)
  cases r with
  | ok a => exact hr
  | error e => exact hf e h s hr

theorem Triple.of_exists {ι : Type} {p : Prog Op Res ε α} {P : ι → List (Event Op Res ε) → σ → Prop}
    (hp : ∀ i, Triple S E (P i) p Q) : Triple S E (fun h s => ∃ i, P i h s) p Q :=
  fun h s ⟨i, hs⟩ => hp i h s hs

/-- A value that needs no operation, or an exception. -/
theorem Triple.ofExcept {r : Except ε α} (hok : ∀ a h s, r = .ok a → P h s → Q a h s)
    (herror : ∀ e h s, r = .error e → P h s → E e h s) : Triple S E P (ofExcept r) Q := by
  cases r with
  | ok a => exact fun h s hs => hok a h s rfl hs
  | error e => exact fun h s hs => herror e h s rfl hs

end Rules

/-! ## Programs with few operations -/

/-- Every operation the program may perform satisfies `P`, whatever it is answered. -/
inductive Only (P : Op → Prop) : Prog Op Res ε α → Prop
  | ret {a : α} : Only P (ret a)
  | raise {e : ε} : Only P (raise e)
  | perform {op : Op} {k : Except ε (Res op) → Prog Op Res ε α} (hop : P op)
      (hk : ∀ r, Only P (k r)) : Only P (perform op k)

section Only

variable {P : Op → Prop}

theorem Only.imp {P' : Op → Prop} {p : Prog Op Res ε α} (h : ∀ op, P op → P' op)
    (hp : p.Only P) : p.Only P' := by
  induction hp with
  | ret => exact .ret
  | raise => exact .raise
  | perform hop _ ih => exact .perform (h _ hop) ih

theorem Only.andThen {p : Prog Op Res ε α} {f : Except ε α → Prog Op Res ε β} (hp : p.Only P)
    (hf : ∀ r, (f r).Only P) : (p.andThen f).Only P := by
  induction hp with
  | ret => exact hf _
  | raise => exact hf _
  | perform hop _ ih => exact .perform hop ih

theorem Only.bind {p : Prog Op Res ε α} {f : α → Prog Op Res ε β} (hp : p.Only P)
    (hf : ∀ a, (f a).Only P) : (p >>= f).Only P := by
  refine hp.andThen fun r => ?_
  cases r with
  | ok a => exact hf a
  | error e => exact .raise

theorem Only.pure {a : α} : (Pure.pure a : Prog Op Res ε α).Only P := .ret

theorem Only.tryCatch {p : Prog Op Res ε α} {f : ε → Prog Op Res ε α} (hp : p.Only P)
    (hf : ∀ e, (f e).Only P) : (p.tryCatch f).Only P := by
  refine hp.andThen fun r => ?_
  cases r with
  | ok a => exact .ret
  | error e => exact hf e

theorem Only.ofExcept {r : Except ε α} : (ofExcept r : Prog Op Res ε α).Only P := by
  cases r with
  | ok a => exact .ret
  | error e => exact .raise

theorem Only.call {op : Op} (hop : P op) : (call op : Prog Op Res ε (Res op)).Only P :=
  .perform hop fun _ => .ofExcept

theorem Only.attempt {op : Op} (hop : P op) :
    (attempt op : Prog Op Res ε (Except ε (Res op))).Only P :=
  .perform hop fun _ => .ret

theorem Only.ite {c : Prop} [Decidable c] {p q : Prog Op Res ε α} (hp : p.Only P)
    (hq : q.Only P) : (if c then p else q).Only P := by
  by_cases hc : c
  · rwa [if_pos hc]
  · rwa [if_neg hc]

/-- An invariant that the operations and the others keep holds at every operation. -/
theorem Only.wp {p : Prog Op Res ε α} (hp : p.Only P) {I : σ → Prop}
    (hrely : ∀ s s', S.rely s s' → I s → I s')
    (hexec : ∀ op c s, P op → I s → I (S.exec op c s).2)
    (hguar : ∀ h op c s, P op → I s → S.guar h op c s) (hs : I s) :
    wp S p (fun _ _ s => I s) h s := by
  induction hp generalizing h s with
  | ret => exact hs
  | raise => exact hs
  | perform hop _ ih =>
    intro s₁ hs₁ c
    have hI := hrely s s₁ hs₁ hs
    exact ⟨hguar h _ c s₁ hop hI, ih _ (hexec _ c s₁ hop hI)⟩

/-- What the operations keep of the events and the state holds at the end. -/
theorem Only.wp_events {p : Prog Op Res ε α} (hp : p.Only P) {I : List (Event Op Res ε) → σ → Prop}
    (hrely : ∀ h s s', S.rely s s' → I h s → I h s')
    (hexec : ∀ h op c s, P op → I h s → I (h ++ [⟨op, (S.exec op c s).1⟩]) (S.exec op c s).2)
    (hguar : ∀ h op c s, P op → S.guar h op c s) (hs : I h s) :
    Prog.wp S p (fun _ h s => I h s) h s := by
  induction hp generalizing h s with
  | ret => exact hs
  | raise => exact hs
  | perform hop _ ih =>
    intro s₁ hs₁ c
    exact ⟨hguar h _ c s₁ hop, ih _ (hexec h _ c s₁ hop (hrely h s s₁ hs₁ hs))⟩

end Only

end Prog
