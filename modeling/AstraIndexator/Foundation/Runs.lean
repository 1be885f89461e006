import AstraIndexator.Foundation.Program
import Mathlib.Data.List.Chain

/-!
# Runs against an environment

Nothing is known about who answers the operations of a program.  An environment picks
every answer from all the events so far, so a statement about all environments is one
about every sequence of answers.  `run` is the run against one environment, and the
rules for triples below prove statements about all of them.
-/

namespace Prog

variable {Op : Type} {Res : Op → Type} {ε α β : Type}

/-- The answer to the next operation, after the events so far. -/
abbrev Environment (Op : Type) (Res : Op → Type) (ε : Type) :=
  List (Event Op Res ε) → (op : Op) → Except ε (Res op)

/-- The events of a program that starts after `h`, those of `h` included, and its outcome. -/
def run (env : Environment Op Res ε) :
    Prog Op Res ε α → List (Event Op Res ε) → List (Event Op Res ε) × Except ε α
  | ret a, h => (h, .ok a)
  | raise e, h => (h, .error e)
  | perform op k, h => run env (k (env h op)) (h ++ [⟨op, env h op⟩])

/-- The environment that answers without looking at the events, for concrete runs. -/
def Environment.steady (answer : (op : Op) → Except ε (Res op)) : Environment Op Res ε :=
  fun _ op => answer op

/-- Every operation may be answered in any way. -/
def anyAnswer : Setting Op Res ε Unit fun op => Except ε (Res op) where
  exec _ answer s := (answer, s)
  rely _ _ := True
  guar _ _ _ _ := True

/-- What holds after any answers holds after the run against one environment. -/
theorem run_of_wp (env : Environment Op Res ε) {p : Prog Op Res ε α}
    {Q : Except ε α → List (Event Op Res ε) → Prop} {h : List (Event Op Res ε)}
    (hp : wp anyAnswer p (fun r h _ => Q r h) h ()) : Q (p.run env h).2 (p.run env h).1 := by
  induction p generalizing h with
  | ret a => exact hp
  | raise e => exact hp
  | perform op k ih => exact ih _ (hp () trivial (env h op)).2

/-! ## Triples about a trace -/

variable {C : Type}

/-- A trace keeps what `select` makes of the events.  After a trace with `P`, the program
returns after a trace with `Q` or raises after a trace with `E`, whatever it is answered. -/
def TraceTriple (select : Event Op Res ε → Option C) (E : ε → List C → Prop) (P : List C → Prop)
    (p : Prog Op Res ε α) (Q : α → List C → Prop) : Prop :=
  Triple anyAnswer (fun e h _ => E e (h.filterMap select)) (fun h _ => P (h.filterMap select)) p
    fun a h _ => Q a (h.filterMap select)

section Rules

variable {select : Event Op Res ε → Option C} {E : ε → List C → Prop} {P P' : List C → Prop}
  {Q : α → List C → Prop}

/-- What the run of a program against one environment ends with. -/
theorem TraceTriple.run {p : Prog Op Res ε α} (hp : TraceTriple select E P p Q)
    (env : Environment Op Res ε) (hP : P []) :
    match (p.run env []).2 with
    | .ok a => Q a ((p.run env []).1.filterMap select)
    | .error e => E e ((p.run env []).1.filterMap select) := by
  have hrun := run_of_wp env (Q := fun r h => outcome (fun a h (_ : Unit) => Q a (h.filterMap select))
    (fun e h _ => E e (h.filterMap select)) r h ()) (hp [] () hP)
  cases hr : (p.run env []).2 with
  | ok a => rwa [hr] at hrun
  | error e => rwa [hr] at hrun

theorem TraceTriple.pre {p : Prog Op Res ε α} (hP : ∀ l, P' l → P l)
    (hp : TraceTriple select E P p Q) : TraceTriple select E P' p Q :=
  Triple.pre (fun _ _ => hP _) hp

theorem TraceTriple.of_pre {p : Prog Op Res ε α} {φ : Prop} (hφ : ∀ l, P l → φ)
    (hp : φ → TraceTriple select E P p Q) : TraceTriple select E P p Q :=
  Triple.of_pre (fun _ _ => hφ _) hp

theorem TraceTriple.ret {a : α} (hP : ∀ l, P l → Q a l) :
    TraceTriple select E P (pure a : Prog Op Res ε α) Q := Triple.ret fun _ _ => hP _

theorem TraceTriple.raise {e : ε} (hP : ∀ l, P l → E e l) :
    TraceTriple select E P (.raise e : Prog Op Res ε α) Q := Triple.raise fun _ _ => hP _

theorem TraceTriple.bind {p : Prog Op Res ε α} {f : α → Prog Op Res ε β} {R : β → List C → Prop}
    (hp : TraceTriple select E P p Q) (hf : ∀ a, TraceTriple select E (Q a) (f a) R) :
    TraceTriple select E P (p >>= f) R := Triple.bind hp hf

theorem TraceTriple.ofExcept {r : Except ε α} (hok : ∀ a l, r = .ok a → P l → Q a l)
    (herror : ∀ e l, r = .error e → P l → E e l) : TraceTriple select E P (ofExcept r) Q :=
  Triple.ofExcept (fun a _ _ => hok a _) fun e _ _ => herror e _

theorem filterMap_concat_of_some {h : List (Event Op Res ε)} {ev : Event Op Res ε} {c : C}
    (hc : select ev = some c) : (h ++ [ev]).filterMap select = h.filterMap select ++ [c] := by
  rw [List.filterMap_append, List.filterMap_cons_some hc]
  rfl

theorem filterMap_concat_of_none {h : List (Event Op Res ε)} {ev : Event Op Res ε}
    (hc : select ev = none) : (h ++ [ev]).filterMap select = h.filterMap select := by
  rw [List.filterMap_append, List.filterMap_cons_none hc]
  exact List.append_nil _

/-- An operation that the trace shows, and whose exceptions are let through. -/
theorem TraceTriple.call {op : Op} {Q : Res op → List C → Prop} (c : Except ε (Res op) → C)
    (hselect : ∀ r, select ⟨op, r⟩ = some (c r)) (hok : ∀ l a, P l → Q a (l ++ [c (.ok a)]))
    (herror : ∀ l e, P l → E e (l ++ [c (.error e)])) :
    TraceTriple select E P (Prog.call op) Q := by
  refine Triple.call (fun h _ => P (h.filterMap select)) (fun _ _ _ hP _ => hP)
    (fun _ _ _ _ => trivial) ?_ ?_
  · rintro h s _ a hP rfl
    rw [filterMap_concat_of_some (hselect _)]
    exact hok _ a hP
  · rintro h s _ e hP rfl
    rw [filterMap_concat_of_some (hselect _)]
    exact herror _ e hP

/-- An operation that the trace shows, and whose exceptions are caught. -/
theorem TraceTriple.attempt {op : Op} {Q : Except ε (Res op) → List C → Prop}
    (c : Except ε (Res op) → C) (hselect : ∀ r, select ⟨op, r⟩ = some (c r))
    (hop : ∀ l r, P l → Q r (l ++ [c r])) : TraceTriple select E P (Prog.attempt op) Q := by
  refine Triple.attempt (fun h _ => P (h.filterMap select)) (fun _ _ _ hP _ => hP)
    (fun _ _ _ _ => trivial) fun h s r hP => ?_
  rw [filterMap_concat_of_some (hselect _)]
  exact hop _ r hP

/-- An operation that the trace does not show. -/
theorem TraceTriple.hidden {op : Op} (hselect : ∀ r, select ⟨op, r⟩ = none)
    (herror : ∀ l e, P l → E e l) : TraceTriple select E P (Prog.call op) fun _ => P := by
  refine Triple.call (fun h _ => P (h.filterMap select)) (fun _ _ _ hP _ => hP)
    (fun _ _ _ _ => trivial) ?_ ?_
  · rintro h s _ a hP rfl
    rwa [filterMap_concat_of_none (hselect _)]
  · rintro h s _ e hP rfl
    rw [filterMap_concat_of_none (hselect _)]
    exact herror _ e hP

end Rules

end Prog
