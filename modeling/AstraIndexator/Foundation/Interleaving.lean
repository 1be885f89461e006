import AstraIndexator.Foundation.Program
import Mathlib.Logic.Function.Basic
import Mathlib.Logic.Relation

/-!
# Interleaved programs

Threads run programs over one shared state, one operation at a time and in any
order, among moves of an environment.  A thread that has finished its program may
start another.  The log records every operation with the state it was performed in.
A thread that is not scheduled again has crashed, so every prefix of a run is a run
with crashes.

`sound` turns the weakest preconditions of the single programs into facts about
every operation of every run.  It asks that the moves of the environment and of
the other threads lie in the relation each thread relies on.
-/

open Relation

/-- Threads `Tid`, each started with an input, and an environment. -/
structure System (Tid Input Op : Type) (Res : Op → Type) (ε α σ : Type) where
  Choice : Op → Type
  exec : Tid → (op : Op) → Choice op → σ → Except ε (Res op) × σ
  program : Tid → Input → Prog Op Res ε α
  mayStart : Tid → σ → Bool
  Move : Type
  move : Move → σ → σ

namespace System

variable {Tid Input Op : Type} {Res : Op → Type} {ε α σ : Type}

variable {sys : System Tid Input Op Res ε α σ}

/-- A started thread: its input, the state it started in, the events it has seen and
the rest of its program. -/
structure Thread (sys : System Tid Input Op Res ε α σ) where
  input : Input
  start : σ
  history : List (Event Op Res ε)
  rest : Prog Op Res ε α

/-- The program has returned or raised. -/
def Thread.finished (th : sys.Thread) : Bool :=
  match th.rest with
  | .ret _ => true
  | .raise _ => true
  | .perform _ _ => false

/-- One operation of a run: who performed it, after which events, and in which state. -/
structure Entry (sys : System Tid Input Op Res ε α σ) where
  tid : Tid
  input : Input
  start : σ
  history : List (Event Op Res ε)
  op : Op
  choice : sys.Choice op
  before : σ

namespace Entry

def answer (e : sys.Entry) : Except ε (Res e.op) := (sys.exec e.tid e.op e.choice e.before).1

def after (e : sys.Entry) : σ := (sys.exec e.tid e.op e.choice e.before).2

def event (e : sys.Entry) : Event Op Res ε := ⟨e.op, e.answer⟩

end Entry

structure World (sys : System Tid Input Op Res ε α σ) where
  shared : σ
  threads : Tid → Option sys.Thread
  log : List sys.Entry

/-- Nobody has started yet. -/
def World.initial (sys : System Tid Input Op Res ε α σ) (s : σ) : sys.World where
  shared := s
  threads := fun _ => none
  log := []

/-- What the scheduler may do next.  Performing comes with a choice for whatever
operation is next. -/
inductive Action (sys : System Tid Input Op Res ε α σ)
  | env (m : sys.Move)
  | start (tid : Tid) (input : Input)
  | perform (tid : Tid) (choose : (op : Op) → sys.Choice op)

variable [DecidableEq Tid]

def startThread (sys : System Tid Input Op Res ε α σ) (w : sys.World) (tid : Tid) (input : Input) :
    sys.World :=
  { w with threads := Function.update w.threads tid (some {
      input, start := w.shared, history := [], rest := sys.program tid input }) }

def performOp (w : sys.World) (tid : Tid) (th : sys.Thread) (op : Op)
    (k : Except ε (Res op) → Prog Op Res ε α) (c : sys.Choice op) : sys.World :=
  let entry : sys.Entry := {
    tid, input := th.input, start := th.start, history := th.history, op, choice := c,
    before := w.shared }
  { shared := entry.after
    threads := Function.update w.threads tid (some { th with
      history := th.history ++ [entry.event], rest := k entry.answer })
    log := w.log ++ [entry] }

section Threads

variable {w : sys.World} {tid tid' : Tid} {th : sys.Thread} {op : Op} {input : Input}
  {k : Except ε (Res op) → Prog Op Res ε α} {c : sys.Choice op}

@[simp] theorem startThread_threads_self : (sys.startThread w tid input).threads tid = some {
    input, start := w.shared, history := [], rest := sys.program tid input } :=
  Function.update_self ..

theorem startThread_threads_of_ne (h : tid' ≠ tid) :
    (sys.startThread w tid input).threads tid' = w.threads tid' :=
  Function.update_of_ne h ..

@[simp] theorem performOp_threads_self : (performOp w tid th op k c).threads tid = some { th with
    history := th.history ++ [⟨op, (sys.exec tid op c w.shared).1⟩]
    rest := k (sys.exec tid op c w.shared).1 } :=
  Function.update_self ..

theorem performOp_threads_of_ne (h : tid' ≠ tid) :
    (performOp w tid th op k c).threads tid' = w.threads tid' :=
  Function.update_of_ne h ..

end Threads

def step (w : sys.World) : sys.Action → Option sys.World
  | .env m => some { w with shared := sys.move m w.shared }
  | .start tid input =>
    if (w.threads tid).all Thread.finished && sys.mayStart tid w.shared then
      some (sys.startThread w tid input)
    else none
  | .perform tid choose =>
    match w.threads tid with
    | none => none
    | some th =>
      match th.rest with
      | .ret _ => none
      | .raise _ => none
      | .perform op k => some (performOp w tid th op k (choose op))

/-- A finite schedule. -/
def run (w : sys.World) : List sys.Action → Option sys.World
  | [] => some w
  | a :: actions => (step w a).bind fun w' => run w' actions

abbrev Reaches : sys.World → sys.World → Prop := ReflTransGen fun w w' => ∃ a, step w a = some w'

theorem reaches_of_run {actions : List sys.Action} {w w' : sys.World}
    (h : run w actions = some w') : Reaches w w' := by
  induction actions generalizing w with
  | nil =>
    cases h
    exact .refl
  | cons a actions ih =>
    obtain ⟨w₁, hstep, hrun⟩ := Option.bind_eq_some_iff.mp h
    exact .head ⟨a, hstep⟩ (ih hrun)

/-- The ways a world moves. -/
theorem step_cases {w w' : sys.World} {a : sys.Action} (h : step w a = some w') :
    (∃ m, w' = { w with shared := sys.move m w.shared }) ∨
    (∃ tid input, sys.mayStart tid w.shared = true ∧ w' = sys.startThread w tid input) ∨
    ∃ tid th op k c, w.threads tid = some th ∧ th.rest = .perform op k ∧
      w' = performOp w tid th op k c := by
  cases a with
  | env m => exact .inl ⟨m, (Option.some.inj h).symm⟩
  | start tid input =>
    simp only [step] at h
    by_cases hc : ((w.threads tid).all Thread.finished && sys.mayStart tid w.shared) = true
    · rw [if_pos hc] at h
      rw [Bool.and_eq_true] at hc
      exact .inr (.inl ⟨tid, input, hc.2, (Option.some.inj h).symm⟩)
    · rw [if_neg hc] at h
      cases h
  | perform tid choose =>
    simp only [step] at h
    cases hth : w.threads tid with
    | none => simp [hth] at h
    | some th =>
      simp only [hth] at h
      cases hrest : th.rest with
      | ret a => simp [hrest] at h
      | raise e => simp [hrest] at h
      | perform op k =>
        simp only [hrest, Option.some.injEq] at h
        exact .inr (.inr ⟨tid, th, op, k, choose op, hth, hrest, h.symm⟩)

/-! ## Histories -/

/-- Every event a thread has seen is in the log, with the events before it. -/
def Logged (w : sys.World) : Prop :=
  ∀ tid th, w.threads tid = some th → ∀ h₁ ev h₂, th.history = h₁ ++ ev :: h₂ →
    ∃ e ∈ w.log, e.tid = tid ∧ e.input = th.input ∧ e.start = th.start ∧ e.history = h₁ ∧
      e.event = ev

theorem logged {w₀ w : sys.World} (hreach : Reaches w₀ w) (h₀ : Logged w₀) : Logged w := by
  induction hreach with
  | refl => exact h₀
  | @tail w w' _ hstep ih =>
    obtain ⟨a, hstep⟩ := hstep
    obtain ⟨m, rfl⟩ | ⟨tid, input, -, rfl⟩ | ⟨tid, th, op, k, c, hth, -, rfl⟩ := step_cases hstep
    · exact ih
    · intro tid' th' hth'
      by_cases heq : tid' = tid
      · subst heq
        rw [startThread_threads_self] at hth'
        cases hth'
        intro h₁ ev h₂ hsplit
        simp at hsplit
      · rw [startThread_threads_of_ne heq] at hth'
        exact ih tid' th' hth'
    · intro tid' th' hth' h₁ ev h₂ hsplit
      by_cases heq : tid' = tid
      · subst heq
        rw [performOp_threads_self] at hth'
        cases hth'
        -- the event is the new one, or lies in the history before it
        rcases List.eq_nil_or_concat h₂ with rfl | ⟨h₂', x, rfl⟩
        · obtain ⟨hhistory, hev⟩ := List.append_inj' hsplit rfl
          refine ⟨_, List.mem_append_right _ (List.mem_singleton_self _), rfl, rfl, rfl, hhistory, ?_⟩
          exact (List.cons.inj hev).1
        · rw [List.concat_eq_append, ← List.cons_append, ← List.append_assoc] at hsplit
          obtain ⟨hhistory, -⟩ := List.append_inj' hsplit rfl
          obtain ⟨e, he, hrest⟩ := ih tid' th hth h₁ ev h₂' hhistory
          exact ⟨e, List.mem_append_left _ he, hrest⟩
      · rw [performOp_threads_of_ne heq] at hth'
        obtain ⟨e, he, hrest⟩ := ih tid' th' hth' h₁ ev h₂ hsplit
        exact ⟨e, List.mem_append_left _ he, hrest⟩

theorem logged_of_reaches {s : σ} {w : sys.World} (hreach : Reaches (World.initial sys s) w) :
    Logged w := logged hreach fun tid th hth => by cases hth

/-- The events a logged operation comes after are in the log before it. -/
theorem history_logged {s : σ} {w : sys.World} (hreach : Reaches (World.initial sys s) w)
    {l₁ l₂ : List sys.Entry} {e : sys.Entry} (hlog : w.log = l₁ ++ e :: l₂)
    {h₁ h₂ : List (Event Op Res ε)} {ev : Event Op Res ε} (hsplit : e.history = h₁ ++ ev :: h₂) :
    ∃ e' ∈ l₁, e'.tid = e.tid ∧ e'.input = e.input ∧ e'.start = e.start ∧ e'.history = h₁ ∧
      e'.event = ev := by
  induction hreach generalizing l₁ l₂ with
  | refl => simp [World.initial] at hlog
  | @tail w w' hreach hstep ih =>
    have hlogged : Logged w := logged_of_reaches hreach
    obtain ⟨a, hstep⟩ := hstep
    obtain ⟨m, rfl⟩ | ⟨tid, input, -, rfl⟩ | ⟨tid, th, op, k, c, hth, -, rfl⟩ := step_cases hstep
    · exact ih hlog
    · exact ih hlog
    · -- the operation is the new one, or lies in the log before it
      rcases List.eq_nil_or_concat l₂ with rfl | ⟨l₂', x, rfl⟩
      · obtain ⟨rfl, he⟩ := List.append_inj' hlog rfl
        obtain rfl := (List.cons.inj he).1
        exact hlogged tid th hth h₁ ev h₂ hsplit
      · rw [List.concat_eq_append, ← List.cons_append, ← List.append_assoc] at hlog
        obtain ⟨hlog, -⟩ := List.append_inj' hlog rfl
        exact ih hlog

/-! ## Soundness -/

/-- An invariant of the shared state, a condition every started thread keeps, and the
moves each thread relies on the others to make. -/
structure Discipline (sys : System Tid Input Op Res ε α σ) (inv : σ → Prop)
    (live : Tid → σ → Prop) (rely : Tid → σ → σ → Prop) : Prop where
  refl : ∀ tid s, rely tid s s
  trans : ∀ tid s₁ s₂ s₃, rely tid s₁ s₂ → rely tid s₂ s₃ → rely tid s₁ s₃
  start : ∀ tid s, inv s → sys.mayStart tid s = true → live tid s
  move : ∀ m s, inv s → inv (sys.move m s) ∧
    ∀ tid, live tid s → live tid (sys.move m s) ∧ rely tid s (sys.move m s)
  exec : ∀ tid op c s, inv s → live tid s → inv (sys.exec tid op c s).2 ∧
    ∀ tid', live tid' s → live tid' (sys.exec tid op c s).2 ∧
      (tid' ≠ tid → rely tid' s (sys.exec tid op c s).2)

variable {inv : σ → Prop} {live : Tid → σ → Prop} {rely : Tid → σ → σ → Prop}

/-- What the thread that started with this input in this state owes. -/
abbrev Duty (sys : System Tid Input Op Res ε α σ) : Type :=
  Tid → Input → σ → List (Event Op Res ε) → (op : Op) → sys.Choice op → σ → Prop

/-- A discipline that is kept only by operations that meet their duty. -/
structure GuardedDiscipline (sys : System Tid Input Op Res ε α σ) (inv : σ → Prop)
    (live : Tid → σ → Prop) (rely : Tid → σ → σ → Prop) (duty : sys.Duty) : Prop where
  refl : ∀ tid s, rely tid s s
  trans : ∀ tid s₁ s₂ s₃, rely tid s₁ s₂ → rely tid s₂ s₃ → rely tid s₁ s₃
  start : ∀ tid s, inv s → sys.mayStart tid s = true → live tid s
  move : ∀ m s, inv s → inv (sys.move m s) ∧
    ∀ tid, live tid s → live tid (sys.move m s) ∧ rely tid s (sys.move m s)
  exec : ∀ tid input start h op c s, inv s → live tid s → duty tid input start h op c s →
    inv (sys.exec tid op c s).2 ∧
    ∀ tid', live tid' s → live tid' (sys.exec tid op c s).2 ∧
      (tid' ≠ tid → rely tid' s (sys.exec tid op c s).2)

omit [DecidableEq Tid] in
theorem Discipline.guarded (hd : Discipline sys inv live rely) (duty : sys.Duty) :
    GuardedDiscipline sys inv live rely duty where
  refl := hd.refl
  trans := hd.trans
  start := hd.start
  move := hd.move
  exec tid _ _ _ op c s hinv hlive _ := hd.exec tid op c s hinv hlive

/-- The setting of one thread.  Every state it meets satisfies the invariant. -/
def setting (sys : System Tid Input Op Res ε α σ) (inv : σ → Prop) (live : Tid → σ → Prop)
    (rely : Tid → σ → σ → Prop) (duty : sys.Duty) (tid : Tid) (input : Input) (start : σ) :
    Prog.Setting Op Res ε σ sys.Choice where
  exec := sys.exec tid
  rely s s' := inv s' ∧ live tid s' ∧ rely tid s s'
  guar := duty tid input start

/-- The state of a world in the middle of a run: every logged operation met its duty,
and every thread goes on to meet it. -/
structure Sound (inv : σ → Prop) (live : Tid → σ → Prop) (rely : Tid → σ → σ → Prop)
    (duty : sys.Duty) (post : Tid → Input → σ → Prog.Post Op Res ε σ α) (w : sys.World) :
    Prop where
  invariant : inv w.shared
  log : ∀ e ∈ w.log, duty e.tid e.input e.start e.history e.op e.choice e.before
  threads : ∀ tid th, w.threads tid = some th → live tid w.shared ∧ ∃ s, rely tid s w.shared ∧
    Prog.wp (sys.setting inv live rely duty tid th.input th.start) th.rest
      (post tid th.input th.start) th.history s

/-- If every program meets its duty against the moves it relies on, every operation of
every run does. -/
theorem GuardedDiscipline.sound {duty : sys.Duty} (hd : GuardedDiscipline sys inv live rely duty)
    (post : Tid → Input → σ → Prog.Post Op Res ε σ α)
    (hprogram : ∀ tid input s, inv s → live tid s →
      Prog.wp (sys.setting inv live rely duty tid input s) (sys.program tid input)
        (post tid input s) [] s)
    {s : σ} (hinv : inv s) {w : sys.World} (hreach : Reaches (World.initial sys s) w) :
    Sound inv live rely duty post w := by
  induction hreach with
  | refl => exact ⟨hinv, (fun e he => by cases he), (fun tid th hth => by cases hth)⟩
  | @tail w w' _ hstep ih =>
    obtain ⟨a, hstep⟩ := hstep
    obtain ⟨m, rfl⟩ | ⟨tid, input, hmay, rfl⟩ | ⟨tid, th, op, k, c, hth, hrest, rfl⟩ :=
      step_cases hstep
    · obtain ⟨hinv', hothers⟩ := hd.move m w.shared ih.invariant
      refine ⟨hinv', ih.log, fun tid th hth => ?_⟩
      obtain ⟨hlive, s₀, hrely, hwp⟩ := ih.threads tid th hth
      obtain ⟨hlive', hrely'⟩ := hothers tid hlive
      exact ⟨hlive', s₀, hd.trans _ _ _ _ hrely hrely', hwp⟩
    · have hlive := hd.start tid w.shared ih.invariant hmay
      refine ⟨ih.invariant, ih.log, fun tid' th' hth' => ?_⟩
      by_cases heq : tid' = tid
      · subst heq
        rw [startThread_threads_self] at hth'
        cases hth'
        exact ⟨hlive, w.shared, hd.refl _ _, hprogram _ input w.shared ih.invariant hlive⟩
      · rw [startThread_threads_of_ne heq] at hth'
        exact ih.threads tid' th' hth'
    · obtain ⟨hlive, s₀, hrely, hwp⟩ := ih.threads tid th hth
      rw [hrest] at hwp
      obtain ⟨hduty, hwp'⟩ := hwp w.shared ⟨ih.invariant, hlive, hrely⟩ c
      obtain ⟨hinv', hothers⟩ := hd.exec tid _ _ _ op c w.shared ih.invariant hlive hduty
      refine ⟨hinv', fun e he => ?_, fun tid' th' hth' => ?_⟩
      · rcases List.mem_append.mp he with he | he
        · exact ih.log e he
        · rw [List.mem_singleton.mp he]
          exact hduty
      · by_cases heq : tid' = tid
        · subst heq
          rw [performOp_threads_self] at hth'
          cases hth'
          exact ⟨(hothers tid' hlive).1, _, hd.refl _ _, hwp'⟩
        · rw [performOp_threads_of_ne heq] at hth'
          obtain ⟨hlive', s₁, hrely', hwp''⟩ := ih.threads tid' th' hth'
          obtain ⟨hlive'', hmoves⟩ := hothers tid' hlive'
          exact ⟨hlive'', s₁, hd.trans _ _ _ _ hrely' (hmoves heq), hwp''⟩

theorem sound (duty : sys.Duty) (post : Tid → Input → σ → Prog.Post Op Res ε σ α)
    (hd : Discipline sys inv live rely)
    (hprogram : ∀ tid input s, inv s → live tid s →
      Prog.wp (sys.setting inv live rely duty tid input s) (sys.program tid input)
        (post tid input s) [] s)
    {s : σ} (hinv : inv s) {w : sys.World} (hreach : Reaches (World.initial sys s) w) :
    Sound inv live rely duty post w :=
  (hd.guarded duty).sound post hprogram hinv hreach

/-- A step of a sound world moves the shared state by a move of the environment or by an
operation that meets its duty. -/
theorem Sound.step {duty : sys.Duty} {post : Tid → Input → σ → Prog.Post Op Res ε σ α}
    {w w' : sys.World} {a : sys.Action} (hw : Sound inv live rely duty post w)
    (hstep : step w a = some w') : w'.shared = w.shared ∨ (∃ m, w'.shared = sys.move m w.shared) ∨
      ∃ tid input start h op c, inv w.shared ∧ live tid w.shared ∧
        duty tid input start h op c w.shared ∧ w'.shared = (sys.exec tid op c w.shared).2 := by
  obtain ⟨m, rfl⟩ | ⟨tid, input, -, rfl⟩ | ⟨tid, th, op, k, c, hth, hrest, rfl⟩ := step_cases hstep
  · exact .inr (.inl ⟨m, rfl⟩)
  · exact .inl rfl
  · obtain ⟨hlive, s₀, hrely, hwp⟩ := hw.threads tid th hth
    rw [hrest] at hwp
    obtain ⟨hduty, -⟩ := hwp w.shared ⟨hw.invariant, hlive, hrely⟩ c
    exact .inr (.inr ⟨tid, th.input, th.start, th.history, op, c, hw.invariant, hlive, hduty, rfl⟩)

omit [DecidableEq Tid] in
/-- What the program relies on holds wherever it performs an operation. -/
theorem wp_of_rely {S : Prog.Setting Op Res ε σ sys.Choice}
    (hguar : ∀ h op c s s', S.rely s s' → S.guar h op c s') (p : Prog Op Res ε α)
    (h : List (Event Op Res ε)) (s : σ) : Prog.wp S p (fun _ _ _ => True) h s := by
  induction p generalizing h s with
  | ret a => trivial
  | raise e => trivial
  | perform op k ih => exact fun s₁ hs₁ c => ⟨hguar _ _ _ _ _ hs₁, ih _ _ _⟩

/-- The invariant and the condition of its thread hold wherever an operation is performed. -/
theorem Discipline.logged (hd : Discipline sys inv live rely) {s : σ} (hinv : inv s)
    {w : sys.World} (hreach : Reaches (World.initial sys s) w) :
    ∀ e ∈ w.log, inv e.before ∧ live e.tid e.before := by
  let duty : sys.Duty := fun tid _ _ _ _ _ s => inv s ∧ live tid s
  have hprogram : ∀ tid input s, Prog.wp (sys.setting inv live rely duty tid input s)
      (sys.program tid input) (fun _ _ _ => True) [] s := by
    intro tid input s
    apply wp_of_rely
    intro h op c s s' hs
    exact ⟨hs.1, hs.2.1⟩
  have hsound := sound duty (fun _ _ _ _ _ _ => True) hd
    (fun tid input s _ _ => hprogram tid input s) hinv hreach
  exact hsound.log

end System
