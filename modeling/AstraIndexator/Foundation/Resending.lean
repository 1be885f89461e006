import Mathlib.Data.List.Chain

/-!
# Sending a command again

A command to a session may fail with its effect open.  It is sent again only after the
session was inspected and the inspection allows it.  A protocol marks every call of a run
with what it is to this discipline.
-/

/-- A call, as far as the discipline goes. -/
inductive Mark (ε : Type)
  /-- The command, with the exception it failed with. -/
  | command (failure : Option ε)
  /-- An inspection of the session, and whether the command may be sent after it. -/
  | inspection (again : Bool)
  | other

namespace Mark

variable {ε : Type}

def isCommand : Mark ε → Bool
  | command _ => true
  | inspection _ => false
  | other => false

def isInspection : Mark ε → Bool
  | command _ => false
  | inspection _ => true
  | other => false

/-- What may follow a call.  `Open` holds of the failures that leave the effect open. -/
def Next (Open : ε → Prop) : Mark ε → Mark ε → Prop
  | command (some e), d => Open e ∧ d.isInspection = true
  | command none, d => d.isCommand = false
  | inspection again, d => d.isCommand = true → again = true
  | other, d => d.isCommand = false

end Mark

/-- How the calls `C` of a run are read, which of them are expected, and the bounds. -/
structure Resender (C ε : Type) where
  mark : C → Mark ε
  Expected : C → Prop
  Open : ε → Prop
  maxCommands : Nat
  maxPolls : Nat

namespace Resender

variable {C ε α : Type} (P : Resender C ε)

def isCommand (c : C) : Bool := (P.mark c).isCommand

def isInspection (c : C) : Bool := (P.mark c).isInspection

/-- What the calls of a run and its result satisfy. -/
structure Law (calls : List C) (result : Except ε α) : Prop where
  expected : ∀ c ∈ calls, P.Expected c
  commands : calls.countP P.isCommand ≤ P.maxCommands
  inspections : calls.countP P.isInspection ≤ P.maxCommands + P.maxPolls
  replay : ∀ before c after, calls = before ++ c :: after → P.isCommand c = true →
    before = [] ∨ ∃ b, before.getLast? = some b ∧ P.mark b = .inspection true
  inspected : ∀ before c after e, calls = before ++ c :: after →
    P.mark c = .command (some e) → P.Open e →
    ∃ d rest, after = d :: rest ∧ P.isInspection d = true
  raised : ∀ before c after e, calls = before ++ c :: after →
    P.mark c = .command (some e) → ¬ P.Open e → after = [] ∧ result = .error e

/-! ## Invariant -/

/-- The calls so far, with the commands that are left and the inspections that were made.
An inspection beyond `maxPolls` has a command of its own. -/
structure Sent (commandsLeft polls : Nat) (calls : List C) : Prop where
  expected : ∀ c ∈ calls, P.Expected c
  chain : calls.IsChain fun c d => Mark.Next P.Open (P.mark c) (P.mark d)
  commands : calls.countP P.isCommand + commandsLeft ≤ P.maxCommands
  inspections : calls.countP P.isInspection = polls
  room : polls ≤ P.maxPolls + calls.countP P.isCommand

/-- The last call is no failure of the command. -/
def Quiet (calls : List C) : Prop :=
  ∀ b e, calls.getLast? = some b → P.mark b ≠ .command (some e)

/-- The command is due: nothing was sent yet, or the last inspection allows it. -/
def Due (commandsLeft polls : Nat) (calls : List C) : Prop :=
  P.Sent commandsLeft polls calls ∧
    ∀ b, calls.getLast? = some b → P.mark b = .inspection true

/-- The session may be inspected. -/
def Inspectable (commandsLeft polls : Nat) (calls : List C) : Prop :=
  P.Sent commandsLeft polls calls ∧ polls < P.maxPolls + calls.countP P.isCommand ∧
    ∀ b e, calls.getLast? = some b → P.mark b = .command (some e) → P.Open e

/-- The run may end with this exception. -/
def Raised (e : ε) (calls : List C) : Prop :=
  (∃ commandsLeft polls, P.Sent commandsLeft polls calls) ∧
    ∀ b e', calls.getLast? = some b → P.mark b = .command (some e') → ¬ P.Open e' ∧ e' = e

section Sent

variable {P} {commandsLeft polls : Nat} {calls : List C} {d : C}

theorem Sent.nil : P.Sent P.maxCommands 0 [] :=
  ⟨by simp, .nil, by simp, rfl, Nat.zero_le _⟩

theorem expected_concat (h : ∀ c ∈ calls, P.Expected c) (hd : P.Expected d) :
    ∀ c ∈ calls ++ [d], P.Expected c :=
  List.forall_mem_append.mpr ⟨h, List.forall_mem_singleton.mpr hd⟩

theorem Sent.chain_concat (h : P.Sent commandsLeft polls calls)
    (hd : ∀ c, calls.getLast? = some c → Mark.Next P.Open (P.mark c) (P.mark d)) :
    (calls ++ [d]).IsChain fun c d => Mark.Next P.Open (P.mark c) (P.mark d) := by
  rw [List.isChain_append]
  refine ⟨h.chain, .singleton d, fun c hc d' hd' => ?_⟩
  cases hd'
  exact hd c hc

theorem countP_isCommand_concat {m : Mark ε} (hm : P.mark d = m) :
    (calls ++ [d]).countP P.isCommand = calls.countP P.isCommand + m.isCommand.toNat := by
  rw [List.countP_append, List.countP_singleton, isCommand, hm]
  cases m.isCommand <;> rfl

theorem countP_isInspection_concat {m : Mark ε} (hm : P.mark d = m) :
    (calls ++ [d]).countP P.isInspection = calls.countP P.isInspection + m.isInspection.toNat := by
  rw [List.countP_append, List.countP_singleton, isInspection, hm]
  cases m.isInspection <;> rfl

/-- The command makes room for one more inspection. -/
theorem Due.command (h : P.Due (commandsLeft + 1) polls calls) (d : C) (hd : P.Expected d)
    {failure : Option ε} (hm : P.mark d = .command failure) :
    P.Sent commandsLeft polls (calls ++ [d]) ∧
      polls < P.maxPolls + (calls ++ [d]).countP P.isCommand := by
  have hcount : (calls ++ [d]).countP P.isCommand = calls.countP P.isCommand + 1 :=
    countP_isCommand_concat hm
  have hinspections : (calls ++ [d]).countP P.isInspection = calls.countP P.isInspection :=
    countP_isInspection_concat hm
  have hcommands := h.1.commands
  have hroom := h.1.room
  refine ⟨⟨expected_concat h.1.expected hd, ?_, by omega, ?_, by omega⟩, by omega⟩
  · refine h.1.chain_concat fun c hc => ?_
    rw [h.2 c hc]
    exact fun _ => rfl
  · rw [hinspections, h.1.inspections]

theorem Inspectable.inspection (h : P.Inspectable commandsLeft polls calls) (d : C)
    (hd : P.Expected d) {again : Bool} (hm : P.mark d = .inspection again) :
    P.Sent commandsLeft (polls + 1) (calls ++ [d]) := by
  have hcount : (calls ++ [d]).countP P.isCommand = calls.countP P.isCommand :=
    countP_isCommand_concat hm
  have hinspections : (calls ++ [d]).countP P.isInspection = calls.countP P.isInspection + 1 :=
    countP_isInspection_concat hm
  have hcommands := h.1.commands
  have hroom := h.2.1
  refine ⟨expected_concat h.1.expected hd, ?_, by omega, ?_, by omega⟩
  · refine h.1.chain_concat fun c hc => ?_
    rw [hm]
    cases hmark : P.mark c with
    | command failure =>
      cases failure with
      | none => rfl
      | some e => exact ⟨h.2.2 c e hc hmark, rfl⟩
    | inspection again => exact fun hagain => absurd hagain Bool.false_ne_true
    | other => rfl
  · rw [hinspections, h.1.inspections]

theorem Sent.other (h : P.Sent commandsLeft polls calls) (hlast : P.Quiet calls) (d : C)
    (hd : P.Expected d) (hm : P.mark d = .other) : P.Sent commandsLeft polls (calls ++ [d]) := by
  have hcount : (calls ++ [d]).countP P.isCommand = calls.countP P.isCommand :=
    countP_isCommand_concat hm
  have hinspections : (calls ++ [d]).countP P.isInspection = calls.countP P.isInspection :=
    countP_isInspection_concat hm
  have hcommands := h.commands
  have hroom := h.room
  refine ⟨expected_concat h.expected hd, ?_, by omega, ?_, by omega⟩
  · refine h.chain_concat fun c hc => ?_
    rw [hm]
    cases hmark : P.mark c with
    | command failure =>
      cases failure with
      | none => rfl
      | some e => exact absurd hmark (hlast c e hc)
    | inspection again => exact fun hagain => absurd hagain Bool.false_ne_true
    | other => rfl
  · rw [hinspections, h.inspections]

theorem quiet_concat {m : Mark ε} (hm : P.mark d = m) (hne : ∀ e, m ≠ .command (some e)) :
    P.Quiet (calls ++ [d]) := by
  intro b e hb
  rw [List.getLast?_concat] at hb
  cases hb
  rw [hm]
  exact hne e

/-- Anything may be raised after a call that is no failure of the command. -/
theorem Sent.raised (h : P.Sent commandsLeft polls calls) (hlast : P.Quiet calls) {e : ε} :
    P.Raised e calls :=
  ⟨⟨_, _, h⟩, fun b e hb hm => absurd hm (hlast b e hb)⟩

theorem Due.quiet (h : P.Due commandsLeft polls calls) : P.Quiet calls := by
  intro b e hb hm
  rw [h.2 b hb] at hm
  cases hm

theorem Due.raised (h : P.Due commandsLeft polls calls) {e : ε} : P.Raised e calls :=
  h.1.raised h.quiet

/-- What the invariant says of a whole run. -/
theorem Sent.law (h : P.Sent commandsLeft polls calls) {result : Except ε α}
    (hlast : ∀ b e, calls.getLast? = some b → P.mark b = .command (some e) →
      ¬ P.Open e ∧ result = .error e) : P.Law calls result where
  expected := h.expected
  commands := by
    have hcommands := h.commands
    omega
  inspections := by
    have hcommands := h.commands
    have hinspections := h.inspections
    have hroom := h.room
    omega
  replay := by
    rintro before c after rfl hc
    cases hb : before.getLast? with
    | none => exact .inl (List.getLast?_eq_none_iff.mp hb)
    | some b =>
      have hnext := (List.isChain_append.mp h.chain).2.2 b hb c rfl
      refine .inr ⟨b, rfl, ?_⟩
      rw [isCommand] at hc
      cases hm : P.mark b with
      | command failure =>
        rw [hm] at hnext
        cases failure with
        | none => exact absurd (hnext.symm.trans hc) Bool.false_ne_true
        | some e =>
          obtain ⟨-, hinspection⟩ := hnext
          cases hd : P.mark c with
          | command failure => rw [hd] at hinspection; cases hinspection
          | inspection again => rw [hd] at hc; cases hc
          | other => rw [hd] at hc; cases hc
      | inspection again =>
        rw [hm] at hnext
        rw [hnext hc]
      | other =>
        rw [hm] at hnext
        exact absurd (hnext.symm.trans hc) Bool.false_ne_true
  inspected := by
    rintro before c after e rfl hm hopen
    cases after with
    | nil => exact absurd hopen (hlast c e List.getLast?_concat hm).1
    | cons d rest =>
      have hnext := (List.isChain_append_cons_cons.mp h.chain).2.1
      rw [hm] at hnext
      exact ⟨d, rest, rfl, hnext.2⟩
  raised := by
    rintro before c after e rfl hm hclosed
    cases after with
    | nil => exact ⟨rfl, (hlast c e List.getLast?_concat hm).2⟩
    | cons d rest =>
      have hnext := (List.isChain_append_cons_cons.mp h.chain).2.1
      rw [hm] at hnext
      exact absurd hnext.1 hclosed

end Sent

end Resender
