import AstraIndexator.Application.AbortReconciliation

/-!
# The law of Abort reconciliation

The loop of the runner keeps its laws whatever it is answered.  It follows the abort policy
exactly when every transport error of an Abort has a code on which the runner's set and the
policy agree.
-/

namespace AstraIndexator

open Prog Text

namespace AbortCall

def isAbort : AbortCall → Bool
  | ⟨.abort _, _⟩ => true
  | ⟨.getIngestionStatus _, _⟩ => false

def isStatusQuery : AbortCall → Bool
  | ⟨.abort _, _⟩ => false
  | ⟨.getIngestionStatus _, _⟩ => true

/-- A status query that reported the session as ACTIVE. -/
def ReportsActive (session : UUID) (c : AbortCall) : Prop :=
  ∃ status : IngestionStatus, c = ⟨.getIngestionStatus session, .ok status⟩ ∧
    status.ingestionSessionId = session ∧ status.state = .active

end AbortCall

namespace AbortReconciliationRunner

open AbortCall

/-! ## The laws -/

section Law

variable (runner : AbortReconciliationRunner) (session : UUID) (calls : List AbortCall)
  (outcome : Except AstraError AbortDeliveryOutcome)

/-- What the loop keeps whatever it is answered. -/
structure LoopLaw : Prop where
  attempts : calls.countP isAbort ≤ runner.maxAbortAttempts
  observations : calls.countP isStatusQuery ≤ runner.maxAbortAttempts + runner.maxStatusPolls
  replay : ∀ before c after, calls = before ++ c :: after → isAbort c = true →
    before = [] ∨ ∃ b, before.getLast? = some b ∧ ReportsActive session b
  success : ∀ o, outcome = .ok o → ∃ c, calls.getLast? = some c ∧ c.answer = .ok o.status ∧
    o.status.state ≠ .completed ∧ o.status.state ≠ .active ∧ o.status.state ≠ .finalizing

/-- After a transport error of Abort the session is inspected exactly when the policy says so,
and otherwise the error is raised without another call. -/
def FollowsPolicy : Prop :=
  ∀ before after command code message,
    calls = before ++ ⟨.abort command, .error (.astraVectorTransportError code message)⟩ :: after →
    ((∃ d rest, after = d :: rest ∧ d.op = .getIngestionStatus session) ↔
      classifyAbortFailure code message = .reconcileStatus) ∧
    (classifyAbortFailure code message ≠ .reconcileStatus →
      after = [] ∧ outcome = .error (.astraVectorTransportError code message))

/-- The runner's set of codes and the policy agree on every transport error of an Abort. -/
def CodesAgree : Prop :=
  ∀ command code message,
    (⟨.abort command, .error (.astraVectorTransportError code message)⟩ : AbortCall) ∈ calls →
    (code ∈ ambiguousAbortCodes ↔ upper (strip code) ∈ reconcileAbortCodes)

end Law

/-! ## The discipline of the loop -/

/-- The failures after which the runner inspects the session. -/
def Ambiguous : AstraError → Prop
  | .astraVectorTransportError code _ => code ∈ ambiguousAbortCodes
  | _ => False

def mark (session : UUID) : AbortCall → Mark AstraError
  | ⟨.abort _, .ok _⟩ => .command none
  | ⟨.abort _, .error e⟩ => .command (some e)
  | ⟨.getIngestionStatus s, .ok status⟩ => .inspection
      (decide (s = session ∧ status.ingestionSessionId = session ∧ status.state = .active))
  | ⟨.getIngestionStatus _, .error _⟩ => .inspection false

def Expected (session : UUID) (command : AbortIngestionCommand) : AbortRpc → Prop
  | .abort sent => sent = command
  | .getIngestionStatus s => s = session

/-- Abort as a command that is sent again after an inspection. -/
def resender (self : AbortReconciliationRunner) (session : UUID)
    (command : AbortIngestionCommand) : Resender AbortCall AstraError where
  mark := mark session
  Expected c := Expected session command c.op
  Open := Ambiguous
  maxCommands := self.maxAbortAttempts
  maxPolls := self.maxStatusPolls

section Marks

variable {session : UUID} {c : AbortCall}

theorem mark_abort (command : AbortIngestionCommand) (answer : Except AstraError IngestionStatus) :
    ∃ failure, mark session ⟨.abort command, answer⟩ = .command failure := by
  cases answer with
  | ok result => exact ⟨none, rfl⟩
  | error e => exact ⟨some e, rfl⟩

theorem isCommand_mark : (mark session c).isCommand = isAbort c := by
  obtain ⟨op, answer⟩ := c
  cases op <;> cases answer <;> rfl

theorem isInspection_mark : (mark session c).isInspection = isStatusQuery c := by
  obtain ⟨op, answer⟩ := c
  cases op <;> cases answer <;> rfl

theorem reportsActive_of_mark (h : mark session c = .inspection true) :
    ReportsActive session c := by
  unfold mark at h
  split at h
  · cases h
  · cases h
  · next s status =>
    obtain ⟨rfl, hs, hstate⟩ := of_decide_eq_true (Mark.inspection.inj h)
    exact ⟨status, rfl, hs, hstate⟩
  · cases h

end Marks

/-! ## Assertions -/

section Runner

variable (self : AbortReconciliationRunner) (session : UUID) (command : AbortIngestionCommand)

/-- The last call was an Abort with this answer. -/
def Answered (attemptsLeft polls : Nat) (answer : Except AstraError IngestionStatus)
    (calls : List AbortCall) : Prop :=
  (resender self session command).Sent attemptsLeft polls calls ∧
    polls < self.maxStatusPolls + calls.countP (resender self session command).isCommand ∧
    calls.getLast? = some ⟨.abort command, answer⟩

/-- The last call was answered with this status of the session. -/
def Known (attemptsLeft polls : Nat) (status : IngestionStatus) (calls : List AbortCall) : Prop :=
  (resender self session command).Sent attemptsLeft polls calls ∧
    (resender self session command).Quiet calls ∧
    ∃ c, calls.getLast? = some c ∧ c.answer = .ok status

/-- The last call reported this status of the session. -/
def Seen (attemptsLeft polls : Nat) (status : IngestionStatus) (calls : List AbortCall) : Prop :=
  (resender self session command).Sent attemptsLeft polls calls ∧
    calls.getLast? = some ⟨.getIngestionStatus session, .ok status⟩ ∧
    status.ingestionSessionId = session

/-- The run may end with this outcome. -/
def Finished (outcome : AbortDeliveryOutcome) (calls : List AbortCall) : Prop :=
  (∃ attemptsLeft polls, Known self session command attemptsLeft polls outcome.status calls) ∧
    outcome.status.state ≠ .completed ∧ outcome.status.state ≠ .active ∧
    outcome.status.state ≠ .finalizing

end Runner

section Runs

variable {self : AbortReconciliationRunner} {session : UUID} {command : AbortIngestionCommand}
  {attemptsLeft polls : Nat} {calls : List AbortCall} {e : AstraError}

theorem Known.raised {status : IngestionStatus}
    (h : Known self session command attemptsLeft polls status calls) :
    (resender self session command).Raised e calls := h.1.raised h.2.1

theorem Seen.known {status : IngestionStatus}
    (h : Seen self session command attemptsLeft polls status calls) :
    Known self session command attemptsLeft polls status calls := by
  refine ⟨h.1, fun b e hb hm => ?_, _, h.2.1, rfl⟩
  cases h.2.1.symm.trans hb
  cases hm

theorem Answered.known {status : IngestionStatus}
    (h : Answered self session command attemptsLeft polls (.ok status) calls) :
    Known self session command attemptsLeft polls status calls := by
  refine ⟨h.1, fun b e hb hm => ?_, _, h.2.2, rfl⟩
  cases h.2.2.symm.trans hb
  cases hm

/-- A failure that is not ambiguous is raised. -/
theorem Answered.refused (h : Answered self session command attemptsLeft polls (.error e) calls)
    (he : ¬ Ambiguous e) : (resender self session command).Raised e calls := by
  refine ⟨⟨_, _, h.1⟩, fun b e' hb hm => ?_⟩
  cases h.2.2.symm.trans hb
  cases hm
  exact ⟨he, rfl⟩

/-- A failure that is ambiguous asks for an inspection. -/
theorem Answered.inspectable
    (h : Answered self session command attemptsLeft polls (.error e) calls) (he : Ambiguous e) :
    (resender self session command).Inspectable attemptsLeft polls calls := by
  refine ⟨h.1, h.2.1, fun b e' hb hm => ?_⟩
  cases h.2.2.symm.trans hb
  cases hm
  exact he

/-- After calls with `P`, the program returns after calls with `Q` or raises as the discipline
allows.  Transactions and sleeps are not looked at. -/
abbrev AbortTriple {α : Type} (self : AbortReconciliationRunner) (session : UUID)
    (command : AbortIngestionCommand) (P : List AbortCall → Prop) (p : AbortProg α)
    (Q : α → List AbortCall → Prop) : Prop :=
  TraceTriple ofEvent? (resender self session command).Raised P p Q

theorem resolveObserved_ok {status : IngestionStatus} {direct : Bool}
    {outcome : AbortDeliveryOutcome} (h : resolveObserved status direct = .ok outcome) :
    outcome.status = status ∧ status.state ≠ .completed ∧ status.state ≠ .active ∧
      status.state ≠ .finalizing := by
  unfold resolveObserved at h
  split at h
  · next hstate =>
    cases h
    simp [hstate]
  · next hstate =>
    cases h
    simp [hstate]
  · next hstate =>
    cases h
    simp [hstate]
  · cases h
  · cases h
  · cases h
  · cases h

theorem resolveObserved_calls {status : IngestionStatus} {direct : Bool} :
    AbortTriple self session command (Known self session command attemptsLeft polls status)
      (Prog.ofExcept (resolveObserved status direct)) (Finished self session command) := by
  refine .ofExcept (fun outcome l ho hs => ?_) fun _ _ _ hs => hs.raised
  obtain ⟨rfl, hstates⟩ := resolveObserved_ok ho
  exact ⟨⟨_, _, hs⟩, hstates⟩

theorem accept_calls {status : IngestionStatus} {P : List AbortCall → Prop}
    (hraised : ∀ l e, P l → (resender self session command).Raised e l) :
    AbortTriple self session command P (accept session status)
      fun _ l => status.ingestionSessionId = session ∧ P l := by
  unfold accept validateStatusIdentity
  by_cases hsame : status.ingestionSessionId ≠ session
  · rw [if_pos hsame]
    exact .raise fun l hs => hraised l _ hs
  · rw [if_neg hsame]
    refine .bind (Q := fun _ => P) (.ret fun _ hs => hs) fun _ => ?_
    refine .pre (P := fun l => status.ingestionSessionId = session ∧ P l)
      (fun _ hs => ⟨not_not.mp hsame, hs⟩) ?_
    exact .hidden (fun _ => rfl) fun l e hs => hraised l e hs.2

/-- One observation of the session. -/
theorem observeStatus_calls :
    AbortTriple self session command
      ((resender self session command).Inspectable attemptsLeft polls) (observeStatus session)
      (Seen self session command attemptsLeft (polls + 1)) := by
  unfold observeStatus
  refine .bind (Q := fun status l =>
    (resender self session command).Sent attemptsLeft (polls + 1) l ∧
      l.getLast? = some ⟨.getIngestionStatus session, .ok status⟩)
    (.call (fun answer => ⟨.getIngestionStatus session, answer⟩) (fun _ => rfl)
      (fun l status h => ⟨h.inspection ⟨.getIngestionStatus session, .ok status⟩ rfl rfl,
        List.getLast?_concat⟩) fun l e h => ?_) fun status => ?_
  · have hinspection := h.inspection ⟨.getIngestionStatus session, .error e⟩ rfl rfl
    exact hinspection.raised (Resender.quiet_concat rfl fun _ h => by cases h)
  · refine .bind (accept_calls fun l e hs => hs.1.raised fun b e' hb hm => ?_)
      fun _ => .ret fun l hs => ⟨hs.2.1, hs.2.2, hs.1⟩
    cases hs.2.symm.trans hb
    cases hm

theorem sleepIfPositive_calls {seconds : Rat} {P : List AbortCall → Prop}
    (hraised : ∀ l e, P l → (resender self session command).Raised e l) :
    AbortTriple self session command P (sleepIfPositive seconds) fun _ => P := by
  unfold sleepIfPositive
  split
  · exact .ret fun _ hP => hP
  · exact .hidden (fun _ => rfl) hraised

/-- One round of the loop on an observed status. -/
theorem settle_calls {status : IngestionStatus} {retry poll : AbortProg AbortDeliveryOutcome}
    (hretry : AbortTriple self session command
      ((resender self session command).Due attemptsLeft polls) retry
      (Finished self session command))
    (hpoll : AbortTriple self session command
      (Seen self session command attemptsLeft polls status) poll
      (Finished self session command)) :
    AbortTriple self session command (Seen self session command attemptsLeft polls status)
      (settle status retry poll) (Finished self session command) := by
  unfold settle
  split
  · next hstate =>
    refine .pre (fun l hs => ⟨hs.1, fun b hb => ?_⟩) hretry
    cases hs.2.1.symm.trans hb
    exact congrArg Mark.inspection (decide_eq_true ⟨rfl, hs.2.2, hstate⟩)
  · exact hpoll
  · exact .pre (fun l hs => hs.known) resolveObserved_calls

/-- The polls of a session, within the polls that are left. -/
theorem reconcile_calls {retry : Nat → AbortProg AbortDeliveryOutcome}
    (hretry : ∀ polls, AbortTriple self session command
      ((resender self session command).Due attemptsLeft polls) (retry polls)
      (Finished self session command))
    {pollsLeft : Nat} {status : IngestionStatus} (hleft : pollsLeft ≤ self.maxStatusPolls - polls) :
    AbortTriple self session command (Seen self session command attemptsLeft polls status)
      (self.reconcile session retry pollsLeft polls status) (Finished self session command) := by
  induction pollsLeft generalizing polls status with
  | zero => exact settle_calls (hretry _) (.raise fun _ hs => hs.known.raised)
  | succ pollsLeft ih =>
    refine settle_calls (hretry _) ?_
    refine .bind (sleepIfPositive_calls fun _ _ hs => hs.known.raised) fun _ => ?_
    refine .bind (.pre (fun l hs => ?_) observeStatus_calls) fun status => ih (by omega)
    have hroom : polls < self.maxStatusPolls := by omega
    exact ⟨hs.1, Nat.lt_add_right _ hroom, fun b e hb hm => absurd hm (hs.known.2.1 b e hb)⟩

/-- The attempts that are left. -/
theorem attemptAbort_calls :
    AbortTriple self session command ((resender self session command).Due attemptsLeft polls)
      (self.attemptAbort session command attemptsLeft polls) (Finished self session command) := by
  induction attemptsLeft generalizing polls with
  | zero => exact .raise fun _ hs => hs.raised
  | succ attemptsLeft ih =>
    unfold attemptAbort
    have hcall : AbortTriple self session command
        ((resender self session command).Due (attemptsLeft + 1) polls)
        (Prog.attempt (AbortOp.rpc (.abort command)))
        (Answered self session command attemptsLeft polls) := by
      refine .attempt (fun answer => ⟨.abort command, answer⟩) (fun _ => rfl) fun l answer hs => ?_
      obtain ⟨failure, hm⟩ := @mark_abort session command answer
      obtain ⟨hsent, hroom⟩ := hs.command ⟨.abort command, answer⟩ rfl hm
      exact ⟨hsent, hroom, List.getLast?_concat⟩
    refine .bind hcall fun answer => ?_
    split
    · next status =>
      refine .bind (.pre (fun l hs => hs.known) (accept_calls fun _ _ hs => hs.raised))
        fun _ => .pre (fun l hs => hs.2) resolveObserved_calls
    · split
      · next hcode =>
        exact .bind (.pre (fun l hs => hs.inspectable hcode) observeStatus_calls)
          fun status => reconcile_calls (fun _ => ih) (Nat.le_refl _)
      · next hcode => exact .raise fun l hs => hs.refused hcode
    · next e hother =>
      refine .raise fun l hs => hs.refused fun hr => ?_
      unfold Ambiguous at hr
      split at hr
      · exact hother _ _ rfl
      · exact hr

theorem abort_calls {reason : String} :
    AbortTriple self session ⟨session, strip reason⟩ (· = []) (self.abort session reason)
      (Finished self session ⟨session, strip reason⟩) := by
  have hdue : ∀ l, l = [] → (resender self session ⟨session, strip reason⟩).Due
      self.maxAbortAttempts 0 l := by
    rintro l rfl
    exact ⟨.nil, fun b hb => by cases hb⟩
  unfold abort
  dsimp only
  split
  · exact .raise fun l hs => (hdue l hs).raised
  · exact .pre hdue (.bind (.hidden (fun _ => rfl) fun _ _ hs => hs.raised)
      fun _ => attemptAbort_calls)

end Runs

/-! ## Every run -/

/-- What the discipline says of a run that ended as `outcome`. -/
theorem abort_resender (self : AbortReconciliationRunner)
    (env : Environment AbortOp AbortOp.Result AstraError) (session : UUID) (reason : String) :
    let run := (self.abort session reason).run env []
    (resender self session ⟨session, strip reason⟩).Law (calls run.1) run.2 ∧
      ∀ o, run.2 = .ok o → Finished self session ⟨session, strip reason⟩ o (calls run.1) := by
  intro run
  have hrun := (@abort_calls self session reason).run env rfl
  split at hrun
  · next outcome hr =>
    have hfinished := hrun
    obtain ⟨⟨attemptsLeft, polls, hsent, hquiet, -⟩, -⟩ := hrun
    refine ⟨hsent.law fun b e hb hm => absurd hm (hquiet b e hb), fun o ho => ?_⟩
    cases hr.symm.trans ho
    exact hfinished
  · next e hr =>
    obtain ⟨⟨attemptsLeft, polls, hsent⟩, hlast⟩ := hrun
    refine ⟨hsent.law fun b e' hb hm => ?_, fun o ho => ?_⟩
    · obtain ⟨hnot, rfl⟩ := hlast b e' hb hm
      exact ⟨hnot, hr⟩
    · cases hr.symm.trans ho

section Every

variable {self : AbortReconciliationRunner} {session : UUID} {command : AbortIngestionCommand}
  {calls : List AbortCall} {outcome : Except AstraError AbortDeliveryOutcome}

theorem loopLaw_of_resender (h : (resender self session command).Law calls outcome)
    (hfinished : ∀ o, outcome = .ok o → Finished self session command o calls) :
    LoopLaw self session calls outcome where
  attempts := by
    have hcommand : (resender self session command).isCommand = isAbort :=
      funext fun _ => isCommand_mark
    exact hcommand ▸ h.commands
  observations := by
    have hquery : (resender self session command).isInspection = isStatusQuery :=
      funext fun _ => isInspection_mark
    exact hquery ▸ h.inspections
  replay := by
    intro before c after hcalls hc
    have hcommand : (resender self session command).isCommand c = true :=
      isCommand_mark.trans hc
    rcases h.replay before c after hcalls hcommand with hnil | ⟨b, hb, hm⟩
    · exact .inl hnil
    · exact .inr ⟨b, hb, reportsActive_of_mark hm⟩
  success := by
    intro o ho
    obtain ⟨⟨attemptsLeft, polls, -, -, c, hc, hanswer⟩, hstates⟩ := hfinished o ho
    exact ⟨c, hc, hanswer, hstates⟩

/-- The runner asks for the status exactly after the codes of its own set. -/
theorem inspected_iff (h : (resender self session command).Law calls outcome)
    {before after : List AbortCall} {sent : AbortIngestionCommand} {code message : String}
    (hcalls : calls =
      before ++ ⟨.abort sent, .error (.astraVectorTransportError code message)⟩ :: after) :
    ((∃ d rest, after = d :: rest ∧ d.op = .getIngestionStatus session) ↔
      code ∈ ambiguousAbortCodes) ∧
    (code ∉ ambiguousAbortCodes →
      after = [] ∧ outcome = .error (.astraVectorTransportError code message)) := by
  have hraised : code ∉ ambiguousAbortCodes →
      after = [] ∧ outcome = .error (.astraVectorTransportError code message) :=
    h.raised before _ after _ hcalls rfl
  refine ⟨⟨fun hnext => ?_, fun hcode => ?_⟩, hraised⟩
  · by_contra hcode
    obtain ⟨d, rest, hd, -⟩ := hnext
    rw [(hraised hcode).1] at hd
    cases hd
  · obtain ⟨d, rest, rfl, hd⟩ := h.inspected before _ after _ hcalls rfl hcode
    refine ⟨d, rest, rfl, ?_⟩
    have hexpected : Expected session command d.op := h.expected d (by rw [hcalls]; simp)
    obtain ⟨op, answer⟩ := d
    cases op with
    | abort sent =>
      have hquery := (@isInspection_mark session _).symm.trans hd
      cases hquery
    | getIngestionStatus s => exact congrArg AbortRpc.getIngestionStatus hexpected

theorem followsPolicy_iff (h : (resender self session command).Law calls outcome) :
    FollowsPolicy session calls outcome ↔ CodesAgree calls := by
  constructor
  · intro hpolicy sent code message hmem
    obtain ⟨before, after, hcalls⟩ := List.append_of_mem hmem
    rw [← @classifyAbortFailure_eq_reconcileStatus code message,
      ← (hpolicy before after sent code message hcalls).1, (inspected_iff h hcalls).1]
  · intro hagree before after sent code message hcalls
    have hcode := hagree sent code message (by rw [hcalls]; simp)
    obtain ⟨hinspected, hraised⟩ := inspected_iff h hcalls
    rw [Ne, classifyAbortFailure_eq_reconcileStatus, ← hcode]
    exact ⟨hinspected, hraised⟩

end Every

/-- The loop keeps its laws in every run, and follows the policy exactly in the runs on whose
errors the two sets of codes agree. -/
theorem abort_law_iff (self : AbortReconciliationRunner)
    (env : Environment AbortOp AbortOp.Result AstraError) (session : UUID) (reason : String) :
    let run := (self.abort session reason).run env []
    LoopLaw self session (calls run.1) run.2 ∧
      (FollowsPolicy session (calls run.1) run.2 ↔ CodesAgree (calls run.1)) := by
  intro run
  obtain ⟨hlaw, hfinished⟩ := abort_resender self env session reason
  exact ⟨loopLaw_of_resender hlaw hfinished, followsPolicy_iff hlaw⟩

/-- AstraVector answers every Abort with this error, and every status query with ABORTED. -/
def failingAbort (code : String) : Environment AbortOp AbortOp.Result AstraError :=
  .steady fun
    | .rpc (.abort _) => .error (.astraVectorTransportError code "")
    | .rpc (.getIngestionStatus s) => .ok ⟨s, "ABORTED", .aborted, 0, 0, 0, "", "", ""⟩
    | .transaction (.assertCheckpointSession _ _ _) => .ok ()
    | .transaction (.recordSessionStatus _ _) => .ok ()
    | .transaction _ => .error (.runtimeError "")
    | .sleep _ => .ok ()

def abortFailedWith (code : String) : AbortCall → Bool
  | ⟨.abort _, .error (.astraVectorTransportError code' _)⟩ => code' = code
  | _ => false

/-- An Abort that failed with ABORTED is raised although the policy asks for the status. -/
theorem not_followsPolicy_aborted :
    let run := (AbortReconciliationRunner.abort {} 0 "stop").run (failingAbort "ABORTED") []
    ¬ FollowsPolicy 0 (calls run.1) run.2 := by
  intro run hpolicy
  have hfailed : (calls run.1).any (abortFailedWith "ABORTED") = true := by decide +kernel
  obtain ⟨c, hc, hcode⟩ := List.any_eq_true.mp hfailed
  have hagree : CodesAgree (calls run.1) :=
    (followsPolicy_iff (abort_resender {} (failingAbort "ABORTED") 0 "stop").1).mp hpolicy
  unfold abortFailedWith at hcode
  split at hcode
  · next sent code message =>
    have hcodes := hagree sent code message hc
    rw [of_decide_eq_true hcode] at hcodes
    revert hcodes
    decide +kernel
  · cases hcode

end AbortReconciliationRunner

end AstraIndexator
