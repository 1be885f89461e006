import AstraIndexator.Application.FinalizeReconciliation
import AstraIndexator.Foundation.Resending
import AstraIndexator.Foundation.Runs

/-!
# The law of Finalize reconciliation

The calls of a run to AstraVector, in order, with their answers.  Whatever AstraVector
and the database answer, a Finalize is repeated only after the session was seen ACTIVE,
an ambiguous failure is followed by a status query, and the two counters bound the calls.
-/

namespace AstraIndexator

open Prog DeliveryProg

/-! ## Calls -/

/-- A call to AstraVector with its answer. -/
abbrev RpcEvent : Type := Event Rpc Rpc.Result AstraError

namespace RpcEvent

def ofEvent? : DeliveryEvent → Option RpcEvent
  | ⟨.rpc r, answer⟩ => some ⟨r, answer⟩
  | ⟨.transaction _, _⟩ => none
  | ⟨.sleep _, _⟩ => none

/-- The calls among the events of a run. -/
def calls (h : List DeliveryEvent) : List RpcEvent := h.filterMap ofEvent?

def isFinalize : RpcEvent → Bool
  | ⟨.finalize _, _⟩ => true
  | _ => false

def isStatusQuery : RpcEvent → Bool
  | ⟨.getIngestionStatus _, _⟩ => true
  | _ => false

/-- The exception of a Finalize that failed. -/
def finalizeFailure? : RpcEvent → Option AstraError
  | ⟨.finalize _, .error e⟩ => some e
  | _ => none

/-- A status query that reported the session in this state. -/
def Reports (session : UUID) (state : IngestionSessionState) (c : RpcEvent) : Prop :=
  ∃ status : IngestionStatus, c = ⟨.getIngestionStatus session, .ok status⟩ ∧
    status.ingestionSessionId = session ∧ status.state = state

end RpcEvent

/-! ## Triples about the calls -/

/-- After calls with `P`, the program returns after calls with `Q` or raises after calls with
`E`.  Transactions and sleeps are not looked at. -/
abbrev CallTriple {α : Type} (E : AstraError → List RpcEvent → Prop) (P : List RpcEvent → Prop)
    (p : DeliveryProg α) (Q : α → List RpcEvent → Prop) : Prop :=
  TraceTriple RpcEvent.ofEvent? E P p Q

section CallTriple

variable {E : AstraError → List RpcEvent → Prop} {P : List RpcEvent → Prop}

theorem request_calls {r : Rpc} {Q : r.Result → List RpcEvent → Prop}
    (hok : ∀ l a, P l → Q a (l ++ [⟨r, .ok a⟩]))
    (herror : ∀ l e, P l → E e (l ++ [⟨r, .error e⟩])) : CallTriple E P (request r) Q :=
  TraceTriple.call (fun answer => ⟨r, answer⟩) (fun _ => rfl) hok herror

theorem tryRequest_calls {r : Rpc} {Q : Except AstraError r.Result → List RpcEvent → Prop}
    (hop : ∀ l answer, P l → Q answer (l ++ [⟨r, answer⟩])) : CallTriple E P (tryRequest r) Q :=
  TraceTriple.attempt (fun answer => ⟨r, answer⟩) (fun _ => rfl) hop

theorem transact_calls {x : DeliveryTx} (herror : ∀ l e, P l → E e l) :
    CallTriple E P (transact x) fun _ => P := TraceTriple.hidden (fun _ => rfl) herror

theorem sleepIfPositive_calls {seconds : Rat} (herror : ∀ l e, P l → E e l) :
    CallTriple E P (sleepIfPositive seconds) fun _ => P := by
  unfold sleepIfPositive
  split
  · exact .ret fun _ hP => hP
  · exact .hidden (fun _ => rfl) herror

end CallTriple

/-! ## The law -/

namespace FinalizeReconciliationRunner

open RpcEvent

/-- The failures of Finalize that leave its effect open. -/
def Reconcilable : AstraError → Prop
  | .astraVectorTransportError code message => ShouldReconcileFinalizeFailure code message
  | _ => False

section Law

variable (runner : FinalizeReconciliationRunner) (session : UUID) (accessZoneId : Option UUID)
  (documentId : UUID) (documentVersion : Int) (command : FinalizeIngestionCommand)

/-- Success after a direct acknowledgement of this document. -/
def AcknowledgedBy (calls : List RpcEvent) (outcome : FinalizeDeliveryOutcome) : Prop :=
  ∃ result : FinalizeIngestionResult, ⟨.finalize command, .ok result⟩ ∈ calls ∧
    outcome.resolution = .directAck ∧ outcome.finalizeResult = some result ∧
    result.documentId = documentId ∧ result.documentVersion = documentVersion ∧
    ∀ zoneId, accessZoneId = some zoneId → result.accessZoneId = zoneId

/-- Success after the session was observed COMPLETED. -/
def CompletedBy (calls : List RpcEvent) (outcome : FinalizeDeliveryOutcome) : Prop :=
  ∃ c ∈ calls, Reports session .completed c ∧ outcome.resolution = .reconciledCompleted

/-- What the calls of a run and its outcome satisfy. -/
structure Law (calls : List RpcEvent) (outcome : Except AstraError FinalizeDeliveryOutcome) :
    Prop where
  attempts : calls.countP isFinalize ≤ runner.maxFinalizeAttempts
  observations : calls.countP isStatusQuery ≤ runner.maxFinalizeAttempts + runner.maxStatusPolls
  identical : ∀ c ∈ calls, isFinalize c = true → c.op = .finalize command
  replay : ∀ before c after, calls = before ++ c :: after → isFinalize c = true →
    before = [] ∨ ∃ b ∈ before.getLast?, Reports session .active b
  reconciled : ∀ before c after e, calls = before ++ c :: after → finalizeFailure? c = some e →
    Reconcilable e → ∃ d rest, after = d :: rest ∧ d.op = .getIngestionStatus session
  raised : ∀ before c after e, calls = before ++ c :: after → finalizeFailure? c = some e →
    ¬ Reconcilable e → after = [] ∧ outcome = .error e
  success : ∀ o, outcome = .ok o →
    AcknowledgedBy accessZoneId documentId documentVersion command calls o ∨
      CompletedBy session calls o

end Law

/-! ## The discipline of the loop -/

/-- What a call is to the discipline. -/
def mark (session : UUID) : RpcEvent → Mark AstraError
  | ⟨.finalize _, .ok _⟩ => .command none
  | ⟨.finalize _, .error e⟩ => .command (some e)
  | ⟨.getIngestionStatus s, .ok status⟩ => .inspection
      (decide (s = session ∧ status.ingestionSessionId = session ∧ status.state = .active))
  | ⟨.getIngestionStatus _, .error _⟩ => .inspection false
  | _ => .other

/-- The calls the loop makes. -/
def Expected (session : UUID) (command : FinalizeIngestionCommand) : Rpc → Prop
  | .finalize sent => sent = command
  | .getIngestionStatus s => s = session
  | .getDocumentVectorStatus _ _ _ => True
  | _ => False

/-- Finalize as a command that is sent again after an inspection. -/
def resender (self : FinalizeReconciliationRunner) (session : UUID)
    (command : FinalizeIngestionCommand) : Resender RpcEvent AstraError where
  mark := mark session
  Expected c := Expected session command c.op
  Open := Reconcilable
  maxCommands := self.maxFinalizeAttempts
  maxPolls := self.maxStatusPolls

section Marks

variable {session : UUID} {c : RpcEvent}

theorem mark_finalize (command : FinalizeIngestionCommand)
    (answer : Except AstraError FinalizeIngestionResult) :
    ∃ failure, mark session ⟨.finalize command, answer⟩ = .command failure := by
  cases answer with
  | ok result => exact ⟨none, rfl⟩
  | error e => exact ⟨some e, rfl⟩

theorem mark_of_failure {e : AstraError} (h : finalizeFailure? c = some e) :
    mark session c = .command (some e) := by
  unfold finalizeFailure? at h
  split at h
  · cases h
    rfl
  · cases h

theorem isCommand_mark : (mark session c).isCommand = isFinalize c := by
  obtain ⟨op, answer⟩ := c
  cases op <;> cases answer <;> rfl

theorem isInspection_mark : (mark session c).isInspection = isStatusQuery c := by
  obtain ⟨op, answer⟩ := c
  cases op <;> cases answer <;> rfl

theorem reports_of_mark (h : mark session c = .inspection true) : Reports session .active c := by
  unfold mark at h
  split at h
  · cases h
  · cases h
  · next s status =>
    obtain ⟨rfl, hs, hstate⟩ := of_decide_eq_true (Mark.inspection.inj h)
    exact ⟨status, rfl, hs, hstate⟩
  · cases h
  · cases h

end Marks

/-! ## Assertions -/

section Runner

variable (self : FinalizeReconciliationRunner) (session : UUID)
  (command : FinalizeIngestionCommand)

/-- The last call was a Finalize with this answer. -/
def Answered (attemptsLeft polls : Nat) (answer : Except AstraError FinalizeIngestionResult)
    (calls : List RpcEvent) : Prop :=
  (resender self session command).Sent attemptsLeft polls calls ∧
    polls < self.maxStatusPolls + calls.countP (resender self session command).isCommand ∧
    calls.getLast? = some ⟨.finalize command, answer⟩

/-- The last call reported this status of the session. -/
def Seen (attemptsLeft polls : Nat) (status : IngestionStatus) (calls : List RpcEvent) : Prop :=
  (resender self session command).Sent attemptsLeft polls calls ∧
    calls.getLast? = some ⟨.getIngestionStatus session, .ok status⟩ ∧
    status.ingestionSessionId = session

/-- The run may end with this outcome. -/
def Finished (accessZoneId : Option UUID) (documentId : UUID) (documentVersion : Int)
    (outcome : FinalizeDeliveryOutcome) (calls : List RpcEvent) : Prop :=
  (∃ attemptsLeft polls, (resender self session command).Sent attemptsLeft polls calls) ∧
    (resender self session command).Quiet calls ∧
    (AcknowledgedBy accessZoneId documentId documentVersion command calls outcome ∨
      CompletedBy session calls outcome)

end Runner

section Runs

variable {self : FinalizeReconciliationRunner} {session : UUID}
  {command : FinalizeIngestionCommand} {attemptsLeft polls : Nat} {accessZoneId : Option UUID}
  {documentId : UUID} {documentVersion : Int} {calls : List RpcEvent} {e : AstraError}

theorem Seen.quiet {status : IngestionStatus}
    (h : Seen self session command attemptsLeft polls status calls) :
    (resender self session command).Quiet calls := by
  intro b e hb hm
  cases h.2.1.symm.trans hb
  cases hm

theorem Seen.raised {status : IngestionStatus}
    (h : Seen self session command attemptsLeft polls status calls) :
    (resender self session command).Raised e calls := h.1.raised h.quiet

theorem Answered.quiet {result : FinalizeIngestionResult}
    (h : Answered self session command attemptsLeft polls (.ok result) calls) :
    (resender self session command).Quiet calls := by
  intro b e hb hm
  cases h.2.2.symm.trans hb
  cases hm

theorem Answered.raised {result : FinalizeIngestionResult}
    (h : Answered self session command attemptsLeft polls (.ok result) calls) :
    (resender self session command).Raised e calls := h.1.raised h.quiet

/-- A failure that is not reconcilable is raised. -/
theorem Answered.refused (h : Answered self session command attemptsLeft polls (.error e) calls)
    (he : ¬ Reconcilable e) : (resender self session command).Raised e calls := by
  refine ⟨⟨_, _, h.1⟩, fun b e' hb hm => ?_⟩
  cases h.2.2.symm.trans hb
  cases hm
  exact ⟨he, rfl⟩

/-- A failure that is reconcilable asks for an inspection. -/
theorem Answered.inspectable
    (h : Answered self session command attemptsLeft polls (.error e) calls)
    (he : Reconcilable e) :
    (resender self session command).Inspectable attemptsLeft polls calls := by
  refine ⟨h.1, h.2.1, fun b e' hb hm => ?_⟩
  cases h.2.2.symm.trans hb
  cases hm
  exact he

/-- The vector status that is asked for last. -/
theorem vectorStatus_calls {P : List RpcEvent → Prop}
    {outcome : DocumentVectorStatus → FinalizeDeliveryOutcome} {zoneId : UUID}
    (hsent : ∀ l, P l → (resender self session command).Sent attemptsLeft polls l)
    (hquiet : ∀ l, P l → (resender self session command).Quiet l)
    (hevidence : ∀ l d vectorStatus, P l →
      AcknowledgedBy accessZoneId documentId documentVersion command (l ++ [d])
          (outcome vectorStatus) ∨
        CompletedBy session (l ++ [d]) (outcome vectorStatus)) :
    CallTriple (resender self session command).Raised P
      (request (.getDocumentVectorStatus zoneId documentId documentVersion) >>= fun vectorStatus =>
        return outcome vectorStatus)
      (Finished self session command accessZoneId documentId documentVersion) := by
  refine .bind (request_calls (Q := fun vectorStatus => Finished self session command accessZoneId
    documentId documentVersion (outcome vectorStatus)) (fun l vectorStatus hP => ?_)
    fun l e hP => ?_) fun _ => .ret fun _ hs => hs
  · have hother := (hsent l hP).other (hquiet l hP)
      ⟨.getDocumentVectorStatus zoneId documentId documentVersion, .ok vectorStatus⟩ trivial rfl
    exact ⟨⟨_, _, hother⟩, Resender.quiet_concat rfl (fun _ h => by cases h),
      hevidence l _ vectorStatus hP⟩
  · have hother := (hsent l hP).other (hquiet l hP)
      ⟨.getDocumentVectorStatus zoneId documentId documentVersion, .error e⟩ trivial rfl
    exact hother.raised (Resender.quiet_concat rfl fun _ h => by cases h)

/-- One observation of the session. -/
theorem observeStatus_calls :
    CallTriple (resender self session command).Raised
      ((resender self session command).Inspectable attemptsLeft polls) (observeStatus session)
      (Seen self session command attemptsLeft (polls + 1)) := by
  unfold observeStatus
  refine .bind (Q := fun status l =>
    (resender self session command).Sent attemptsLeft (polls + 1) l ∧
      l.getLast? = some ⟨.getIngestionStatus session, .ok status⟩)
    (request_calls (fun l status h => ⟨h.inspection ⟨.getIngestionStatus session, .ok status⟩ rfl rfl,
      List.getLast?_concat⟩) fun l e h => ?_) fun status => ?_
  · have hinspection := h.inspection ⟨.getIngestionStatus session, .error e⟩ rfl rfl
    exact hinspection.raised (Resender.quiet_concat rfl fun _ h => by cases h)
  by_cases hsame : status.ingestionSessionId ≠ session
  · rw [if_pos hsame]
    refine .raise fun l hs => hs.1.raised fun b e hb hm => ?_
    cases hs.2.symm.trans hb
    cases hm
  · rw [if_neg hsame]
    refine .pre (P := Seen self session command attemptsLeft (polls + 1) status)
      (fun l hs => ⟨hs.1, hs.2, not_not.mp hsame⟩) ?_
    exact .bind (transact_calls fun _ _ hs => hs.raised) fun _ => .ret fun _ hs => hs

/-- An acknowledged Finalize. -/
theorem acknowledge_calls {result : FinalizeIngestionResult} :
    CallTriple (resender self session command).Raised
      (Answered self session command attemptsLeft polls (.ok result))
      (acknowledge accessZoneId documentId documentVersion result)
      (Finished self session command accessZoneId documentId documentVersion) := by
  unfold acknowledge
  refine .bind (Q := fun _ l => (result.documentId = documentId ∧
      result.documentVersion = documentVersion ∧
      ∀ zoneId, accessZoneId = some zoneId → result.accessZoneId = zoneId) ∧
      Answered self session command attemptsLeft polls (.ok result) l)
    (.ofExcept (fun _ _ hv hs => ⟨validateFinalizeIdentity_matches hv, hs⟩)
      fun _ _ _ hs => hs.raised) fun _ => ?_
  refine .of_pre (fun _ hs => hs.1) fun hmatch => .pre (fun _ hs => hs.2) ?_
  split
  · exact .raise fun _ hs => hs.raised
  · refine vectorStatus_calls (fun l hs => hs.1) (fun l hs => hs.quiet)
      fun l d vectorStatus hs => .inl ⟨result, ?_, rfl, rfl, hmatch⟩
    exact List.mem_append_left _ (List.mem_of_getLast? hs.2.2)

/-- A session that was seen COMPLETED. -/
theorem inspectCompleted_calls {status : IngestionStatus} (hstate : status.state = .completed) :
    CallTriple (resender self session command).Raised
      (Seen self session command attemptsLeft polls status)
      (inspectCompleted accessZoneId documentId documentVersion status)
      (Finished self session command accessZoneId documentId documentVersion) := by
  cases accessZoneId with
  | none => exact .raise fun _ hs => hs.raised
  | some zoneId =>
    refine vectorStatus_calls (fun l hs => hs.1) (fun l hs => hs.quiet)
      fun l d vectorStatus hs => .inr ⟨_, ?_, ⟨status, rfl, hs.2.2, hstate⟩, rfl⟩
    exact List.mem_append_left _ (List.mem_of_getLast? hs.2.1)

/-- One round of the loop on an observed status. -/
theorem resolve_calls {status : IngestionStatus}
    {retry poll : DeliveryProg FinalizeDeliveryOutcome}
    (hretry : CallTriple (resender self session command).Raised
      ((resender self session command).Due attemptsLeft polls) retry
      (Finished self session command accessZoneId documentId documentVersion))
    (hpoll : CallTriple (resender self session command).Raised
      (Seen self session command attemptsLeft polls status) poll
      (Finished self session command accessZoneId documentId documentVersion)) :
    CallTriple (resender self session command).Raised
      (Seen self session command attemptsLeft polls status)
      (resolve accessZoneId documentId documentVersion status polls retry poll)
      (Finished self session command accessZoneId documentId documentVersion) := by
  unfold resolve
  cases hstate : status.state with
  | active =>
    refine .pre (fun l hs => ⟨hs.1, fun b hb => ?_⟩) hretry
    cases hs.2.1.symm.trans hb
    exact congrArg Mark.inspection (decide_eq_true ⟨rfl, hs.2.2, hstate⟩)
  | finalizing => exact hpoll
  | completed => exact inspectCompleted_calls hstate
  | failed => exact .raise fun _ hs => hs.raised
  | aborted => exact .raise fun _ hs => hs.raised
  | expired => exact .raise fun _ hs => hs.raised
  | unknown => exact .raise fun _ hs => hs.raised

/-- The polls of a session, within the polls that are left. -/
theorem reconcile_calls {retry : Nat → DeliveryProg FinalizeDeliveryOutcome}
    (hretry : ∀ polls, CallTriple (resender self session command).Raised
      ((resender self session command).Due attemptsLeft polls) (retry polls)
      (Finished self session command accessZoneId documentId documentVersion))
    {pollsLeft : Nat} {status : IngestionStatus} (hleft : pollsLeft ≤ self.maxStatusPolls - polls) :
    CallTriple (resender self session command).Raised
      (Seen self session command attemptsLeft polls status)
      (self.reconcile session accessZoneId documentId documentVersion retry pollsLeft polls status)
      (Finished self session command accessZoneId documentId documentVersion) := by
  induction pollsLeft generalizing polls status with
  | zero => exact resolve_calls (hretry _) (.raise fun _ hs => hs.raised)
  | succ pollsLeft ih =>
    refine resolve_calls (hretry _) ?_
    refine .bind (sleepIfPositive_calls fun _ _ hs => hs.raised) fun _ => ?_
    refine .bind (.pre (fun l hs => ?_) observeStatus_calls) fun status => ih (by omega)
    have hroom : polls < self.maxStatusPolls := by omega
    exact ⟨hs.1, Nat.lt_add_right _ hroom, fun b e hb hm => absurd hm (hs.quiet b e hb)⟩

/-- The attempts that are left. -/
theorem attemptFinalize_calls :
    CallTriple (resender self session command).Raised
      ((resender self session command).Due attemptsLeft polls)
      (self.attemptFinalize session accessZoneId documentId documentVersion command attemptsLeft
        polls)
      (Finished self session command accessZoneId documentId documentVersion) := by
  induction attemptsLeft generalizing polls with
  | zero => exact .raise fun _ hs => hs.raised
  | succ attemptsLeft ih =>
    unfold attemptFinalize
    have hcall : CallTriple (resender self session command).Raised
        ((resender self session command).Due (attemptsLeft + 1) polls)
        (tryRequest (.finalize command)) (Answered self session command attemptsLeft polls) := by
      refine tryRequest_calls fun l answer hs => ?_
      obtain ⟨failure, hm⟩ := @mark_finalize session command answer
      obtain ⟨hsent, hroom⟩ := hs.command ⟨.finalize command, answer⟩ rfl hm
      exact ⟨hsent, hroom, List.getLast?_concat⟩
    refine .bind hcall fun answer => ?_
    split
    · exact acknowledge_calls
    · split
      · next hreconcile =>
        exact .bind (.pre (fun l hs => hs.inspectable hreconcile) observeStatus_calls)
          fun status => reconcile_calls (fun _ => ih) (Nat.le_refl _)
      · next hrefused => exact .raise fun l hs => hs.refused hrefused
    · next e hother =>
      refine .raise fun l hs => hs.refused fun hr => ?_
      unfold Reconcilable at hr
      split at hr
      · exact hother _ _ rfl
      · exact hr

theorem finalize_calls {finalContentHash : String} :
    CallTriple (resender self session ⟨session, finalContentHash⟩).Raised (· = [])
      (self.finalize session accessZoneId documentId documentVersion finalContentHash)
      (Finished self session ⟨session, finalContentHash⟩ accessZoneId documentId
        documentVersion) := by
  refine .bind (.pre (P := (resender self session ⟨session, finalContentHash⟩).Due
    self.maxFinalizeAttempts 0) (fun l hnil => ?_)
    (transact_calls fun _ _ hs => hs.raised)) fun _ => attemptFinalize_calls
  rw [hnil]
  exact ⟨.nil, fun b hb => by cases hb⟩

end Runs

/-! ## Every run -/

/-- The law of the discipline, told of the calls. -/
theorem law_of_resender {self : FinalizeReconciliationRunner} {session : UUID}
    {command : FinalizeIngestionCommand} {accessZoneId : Option UUID} {documentId : UUID}
    {documentVersion : Int} {calls : List RpcEvent}
    {outcome : Except AstraError FinalizeDeliveryOutcome}
    (h : (resender self session command).Law calls outcome)
    (hsuccess : ∀ o, outcome = .ok o →
      AcknowledgedBy accessZoneId documentId documentVersion command calls o ∨
        CompletedBy session calls o) :
    Law self session accessZoneId documentId documentVersion command calls outcome where
  attempts := by
    have hcommand : (resender self session command).isCommand = isFinalize :=
      funext fun _ => isCommand_mark
    exact hcommand ▸ h.commands
  observations := by
    have hquery : (resender self session command).isInspection = isStatusQuery :=
      funext fun _ => isInspection_mark
    exact hquery ▸ h.inspections
  identical := by
    intro c hc hf
    have hexpected : Expected session command c.op := h.expected c hc
    unfold isFinalize at hf
    split at hf
    · exact congrArg Rpc.finalize hexpected
    · cases hf
  replay := by
    intro before c after hcalls hf
    have hcommand : (resender self session command).isCommand c = true :=
      isCommand_mark.trans hf
    rcases h.replay before c after hcalls hcommand with hnil | ⟨b, hb, hm⟩
    · exact .inl hnil
    · exact .inr ⟨b, hb, reports_of_mark hm⟩
  reconciled := by
    intro before c after e hcalls hf hr
    obtain ⟨d, rest, rfl, hd⟩ := h.inspected before c after e hcalls (mark_of_failure hf) hr
    refine ⟨d, rest, rfl, ?_⟩
    have hexpected : Expected session command d.op := h.expected d (by rw [hcalls]; simp)
    have hquery : isStatusQuery d = true := isInspection_mark.symm.trans hd
    unfold isStatusQuery at hquery
    split at hquery
    · exact congrArg Rpc.getIngestionStatus hexpected
    · cases hquery
  raised := fun before c after e hcalls hf hr =>
    h.raised before c after e hcalls (mark_of_failure hf) hr
  success := hsuccess

/-- Finalize against any AstraVector and any database. -/
theorem finalize_law (self : FinalizeReconciliationRunner)
    (env : Environment DeliveryOp DeliveryOp.Result AstraError) (session : UUID)
    (accessZoneId : Option UUID) (documentId : UUID) (documentVersion : Int)
    (finalContentHash : String) :
    let run := (self.finalize session accessZoneId documentId documentVersion
      finalContentHash).run env []
    Law self session accessZoneId documentId documentVersion ⟨session, finalContentHash⟩
      (calls run.1) run.2 := by
  intro run
  have hrun := (@finalize_calls self session accessZoneId documentId documentVersion
    finalContentHash).run env rfl
  split at hrun
  · next outcome hr =>
    obtain ⟨⟨attemptsLeft, polls, hsent⟩, hquiet, hsuccess⟩ := hrun
    refine law_of_resender (hsent.law fun b e hb hm => absurd hm (hquiet b e hb)) fun o ho => ?_
    cases hr.symm.trans ho
    exact hsuccess
  · next e hr =>
    obtain ⟨⟨attemptsLeft, polls, hsent⟩, hlast⟩ := hrun
    refine law_of_resender (hsent.law fun b e' hb hm => ?_) fun o ho => ?_
    · obtain ⟨hnot, rfl⟩ := hlast b e' hb hm
      exact ⟨hnot, hr⟩
    · cases hr.symm.trans ho

end FinalizeReconciliationRunner

end AstraIndexator
