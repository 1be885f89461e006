import AstraIndexator.Application.DeliverySafety

/-!
# Delivery recovery

What a delivery does depends on the answers it has seen, and two of its rules can be read
off them alone.  A window check precedes a Start, an Append and the first Finalize, and no
other mutating call.  A session that AstraVector reports to be COMPLETED ends the delivery,
whatever zone the checkpoint has on record.
-/

namespace AstraIndexator

open Transaction Prog DeliveryProg

/-! ## What a worker has seen -/

/-- Whether the window check still covers the next call after one more event. -/
def windowAfter (deadline margin : Rat) (window : Bool) : DeliveryEvent → Bool
  | ⟨.transaction (.assertSafeRpcWindow d m), .ok _⟩ => window || decide (d = deadline ∧ m = margin)
  | ⟨.transaction _, _⟩ => window
  | ⟨.rpc _, _⟩ => false
  | ⟨.sleep _, _⟩ => false

/-- After the last call or sleep the window was checked. -/
def WindowOpen (deadline margin : Rat) (h : List DeliveryEvent) : Prop :=
  h.foldl (windowAfter deadline margin) false = true

def FinalizeSent (h : List DeliveryEvent) : Prop :=
  ∃ command answer, (⟨.rpc (.finalize command), answer⟩ : DeliveryEvent) ∈ h

/-- A session status was recorded. -/
def Recorded (h : List DeliveryEvent) : Prop :=
  ∃ session status u, (⟨.transaction (.recordSessionStatus session status), .ok u⟩ :
    DeliveryEvent) ∈ h

/-- The answer is the one of a session that is COMPLETED. -/
def ReportsCompletion : DeliveryEvent → Prop
  | ⟨.rpc (.finalize _), answer⟩ => ∃ code message,
      answer = .error (.astraVectorTransportError code message) ∧
        ShouldReconcileFinalizeFailure code message
  | ⟨.rpc (.getIngestionStatus session), answer⟩ => ∃ status, answer = .ok status ∧
      status.ingestionSessionId = session ∧ status.state = .completed
  | _ => True

/-- Every Finalize failed ambiguously and every status of the session was COMPLETED. -/
def CompletedRemotely (h : List DeliveryEvent) : Prop := ∀ ev ∈ h, ReportsCompletion ev

section Seen

variable {deadline margin : Rat} {h : List DeliveryEvent} {ev : DeliveryEvent}

theorem windowOpen_snoc :
    WindowOpen deadline margin (h ++ [ev]) ↔
      windowAfter deadline margin (h.foldl (windowAfter deadline margin) false) ev = true := by
  rw [WindowOpen, List.foldl_append]
  rfl

theorem not_windowOpen_rpc {r : Rpc} {answer : Except AstraError r.Result} :
    ¬ WindowOpen deadline margin (h ++ [⟨.rpc r, answer⟩]) := by
  rw [windowOpen_snoc]
  exact Bool.false_ne_true

theorem not_windowOpen_sleep {seconds : Rat} {answer : Except AstraError Unit} :
    ¬ WindowOpen deadline margin (h ++ [⟨.sleep seconds, answer⟩]) := by
  rw [windowOpen_snoc]
  exact Bool.false_ne_true

theorem windowOpen_transaction {x : DeliveryTx} {answer : Except AstraError x.Result}
    (hw : WindowOpen deadline margin h) :
    WindowOpen deadline margin (h ++ [⟨.transaction x, answer⟩]) := by
  rw [windowOpen_snoc, show h.foldl (windowAfter deadline margin) false = true from hw]
  cases x with
  | assertSafeRpcWindow d m =>
    cases answer with
    | ok u => rfl
    | error e => rfl
  | _ => rfl

theorem windowOpen_check {u : Unit} : WindowOpen deadline margin
    (h ++ [⟨.transaction (.assertSafeRpcWindow deadline margin), .ok u⟩]) := by
  rw [windowOpen_snoc]
  simp [windowAfter]

/-- Only a check opens the window. -/
theorem not_windowOpen_transaction {x : DeliveryTx} {answer : Except AstraError x.Result}
    (hx : ∀ d m, x ≠ .assertSafeRpcWindow d m) (hw : ¬ WindowOpen deadline margin h) :
    ¬ WindowOpen deadline margin (h ++ [⟨.transaction x, answer⟩]) := by
  rw [windowOpen_snoc]
  cases x with
  | assertSafeRpcWindow d m => exact absurd rfl (hx d m)
  | _ => exact hw

theorem windowOpen_iff : WindowOpen deadline margin h ↔ ∃ h₁ h₂ u,
    h = h₁ ++ ⟨.transaction (.assertSafeRpcWindow deadline margin), .ok u⟩ :: h₂ ∧
      ∀ ev ∈ h₂, ∃ x, ev.op = .transaction x := by
  constructor
  · intro hw
    induction h using List.reverseRecOn with
    | nil => cases hw
    | append_singleton h ev ih =>
      -- the last event is the check, or a transaction after it
      rw [windowOpen_snoc] at hw
      obtain ⟨op, answer⟩ := ev
      have hlast : WindowOpen deadline margin h → (∃ x, op = .transaction x) → ∃ h₁ h₂ u,
          h ++ [⟨op, answer⟩] = h₁ ++
            ⟨.transaction (.assertSafeRpcWindow deadline margin), .ok u⟩ :: h₂ ∧
          ∀ ev ∈ h₂, ∃ x, ev.op = .transaction x := by
        intro hopen hx
        obtain ⟨h₁, h₂, u, rfl, hall⟩ := ih hopen
        refine ⟨h₁, h₂ ++ [⟨op, answer⟩], u, by simp, fun ev hev => ?_⟩
        rcases List.mem_append.mp hev with hev | hev
        · exact hall ev hev
        · rw [List.mem_singleton.mp hev]
          exact hx
      cases op with
      | rpc r => cases hw
      | sleep seconds => cases hw
      | transaction x =>
        cases x with
        | assertSafeRpcWindow d m =>
          cases answer with
          | error e => exact hlast hw ⟨_, rfl⟩
          | ok u =>
            rw [windowAfter, Bool.or_eq_true, decide_eq_true_eq] at hw
            rcases hw with hw | ⟨rfl, rfl⟩
            · exact hlast hw ⟨_, rfl⟩
            · exact ⟨h, [], u, rfl, fun ev hev => by cases hev⟩
        | _ => exact hlast hw ⟨_, rfl⟩
  · rintro ⟨h₁, h₂, u, rfl, hall⟩
    induction h₂ using List.reverseRecOn with
    | nil => exact windowOpen_check
    | append_singleton h₂ ev ih =>
      obtain ⟨op, answer⟩ := ev
      obtain ⟨x, rfl⟩ := hall ⟨op, answer⟩ (List.mem_append_right _ (List.mem_singleton_self _))
      rw [← List.cons_append, ← List.append_assoc]
      exact windowOpen_transaction (ih fun ev hev => hall ev (List.mem_append_left _ hev))

theorem CompletedRemotely.left {h' : List DeliveryEvent} (hc : CompletedRemotely (h ++ h')) :
    CompletedRemotely h := fun ev hev => hc ev (List.mem_append_left _ hev)

theorem CompletedRemotely.last (hc : CompletedRemotely (h ++ [ev])) : ReportsCompletion ev :=
  hc ev (List.mem_append_right _ (List.mem_singleton_self ev))

theorem FinalizeSent.snoc (hs : FinalizeSent h) : FinalizeSent (h ++ [ev]) := by
  obtain ⟨command, answer, hmem⟩ := hs
  exact ⟨command, answer, List.mem_append_left _ hmem⟩

theorem finalizeSent_snoc {command : FinalizeIngestionCommand}
    {answer : Except AstraError FinalizeIngestionResult} :
    FinalizeSent (h ++ [⟨.rpc (.finalize command), answer⟩]) :=
  ⟨command, answer, List.mem_append_right _ (List.mem_singleton_self _)⟩

theorem not_finalizeSent_snoc (hs : ¬ FinalizeSent h)
    (hev : ∀ command, ev.op ≠ .rpc (.finalize command)) : ¬ FinalizeSent (h ++ [ev]) := by
  rintro ⟨command, answer, hmem⟩
  rcases List.mem_append.mp hmem with hmem | hmem
  · exact hs ⟨command, answer, hmem⟩
  · rw [← List.mem_singleton.mp hmem] at hev
    exact hev command rfl

theorem not_recorded_snoc (hr : ¬ Recorded h) (hev : ∀ session status u, ev ≠
    ⟨.transaction (.recordSessionStatus session status), .ok u⟩) : ¬ Recorded (h ++ [ev]) := by
  rintro ⟨session, status, u, hmem⟩
  rcases List.mem_append.mp hmem with hmem | hmem
  · exact hr ⟨session, status, u, hmem⟩
  · exact hev session status u (List.mem_singleton.mp hmem).symm

end Seen

/-! ## What a delivery owes -/

/-- Whether a mutating call comes right after a window check. -/
def Rpc.Guarded (r : Rpc) (h : List DeliveryEvent) : Prop :=
  match r with
  | .start _ => True
  | .append _ => True
  | .finalize _ => ¬ FinalizeSent h
  | .activateDocumentVersion _ => False
  | .getIngestionStatus _ => True
  | .getDocumentVectorStatus _ _ _ => True

/-- What an operation owes after the events its worker has seen. -/
structure RecoveryDuty (coordinator : AstraVectorDeliveryCoordinator) (h : List DeliveryEvent)
    (op : DeliveryOp) : Prop where
  ended : CompletedRemotely h → ¬ Recorded h
  window : ∀ r, op = .rpc r → r.Mutating →
    (WindowOpen coordinator.mutatingRpcDeadlineSeconds coordinator.rpcSafetyMarginSeconds h ↔
      r.Guarded h)
  readiness : ∀ zone id version, op = .rpc (.getDocumentVectorStatus zone id version) →
    ¬ CompletedRemotely h

/-- A delivery whose session is COMPLETED raises once it has recorded the status. -/
def RecoveryRaise (f : AstraError → AstraError) (e : AstraError) (h : List DeliveryEvent) : Prop :=
  CompletedRemotely h → Recorded h → ∃ message, f e = .deliveryRecoveryContractGap message

/-- A triple about what a worker has seen. -/
abbrev SeenTriple {α : Type} (self : AstraVectorDeliveryCoordinator) (token : LeaseToken)
    (f : AstraError → AstraError) (P : List DeliveryEvent → Prop) (p : DeliveryProg α)
    (Q : α → List DeliveryEvent → Prop) : Prop :=
  Triple (deliverySetting token fun h op _ _ => RecoveryDuty self h op)
    (fun e h _ => RecoveryRaise f e h) (fun h _ => P h) p fun a h _ => Q a h

section Walk

variable {self : AstraVectorDeliveryCoordinator} {token : LeaseToken} {f : AstraError → AstraError}

/-- One operation whose exceptions are let through. -/
theorem call_triple {op : DeliveryOp} {P : List DeliveryEvent → Prop}
    {Q : op.Result → List DeliveryEvent → Prop} (hguar : ∀ h, P h → RecoveryDuty self h op)
    (hok : ∀ h a, P h → Q a (h ++ [⟨op, .ok a⟩]))
    (herror : ∀ h e, P h → RecoveryRaise f e (h ++ [⟨op, .error e⟩])) :
    SeenTriple self token f P (Prog.call op) Q :=
  .call (fun h _ => P h) (fun _ _ _ hp _ => hp) (fun h _ _ hp => hguar h hp)
    (fun h _ _ a hp _ => hok h a hp) fun h _ _ e hp _ => herror h e hp

/-- One operation whose exceptions are caught. -/
theorem attempt_triple {op : DeliveryOp} {P : List DeliveryEvent → Prop}
    {Q : Except AstraError op.Result → List DeliveryEvent → Prop}
    (hguar : ∀ h, P h → RecoveryDuty self h op) (hop : ∀ h a, P h → Q a (h ++ [⟨op, a⟩])) :
    SeenTriple self token f P (Prog.attempt op) Q :=
  .attempt (fun h _ => P h) (fun _ _ _ hp _ => hp) (fun h _ _ hp => hguar h hp)
    fun h _ _ hp => hop h _ hp

/-! ## Before Finalize -/

/-- No Finalize was sent and no status recorded. -/
structure Opening (h : List DeliveryEvent) : Prop where
  finalize : ¬ FinalizeSent h
  recorded : ¬ Recorded h

/-- The same, right after a window check. -/
structure Checked (coordinator : AstraVectorDeliveryCoordinator) (h : List DeliveryEvent) : Prop
    extends Opening h where
  window : WindowOpen coordinator.mutatingRpcDeadlineSeconds coordinator.rpcSafetyMarginSeconds h

section Opening

variable {h : List DeliveryEvent} {ev : DeliveryEvent}

theorem Opening.snoc (ho : Opening h) (hfinalize : ∀ command, ev.op ≠ .rpc (.finalize command))
    (hrecord : ∀ session status, ev.op ≠ .transaction (.recordSessionStatus session status)) :
    Opening (h ++ [ev]) :=
  ⟨not_finalizeSent_snoc ho.finalize hfinalize,
    not_recorded_snoc ho.recorded fun session status _ heq => hrecord session status (heq ▸ rfl)⟩

theorem Opening.raise (ho : Opening h) (e : AstraError) : RecoveryRaise f e h :=
  fun _ hr => absurd hr ho.recorded

theorem Opening.raise_triple {α : Type} {e : AstraError} {Q : α → List DeliveryEvent → Prop} :
    SeenTriple self token f Opening (DeliveryProg.raise e : DeliveryProg α) Q :=
  .raise fun _ _ ho => ho.raise e

theorem Opening.ofExcept {α : Type} {r : Except AstraError α} :
    SeenTriple self token f Opening (Prog.ofExcept r) fun _ => Opening :=
  .ofExcept (fun _ _ _ _ ho => ho) fun e _ _ _ ho => ho.raise e

theorem Opening.transact {x : DeliveryTx}
    (hx : ∀ session status, x ≠ .recordSessionStatus session status) :
    SeenTriple self token f Opening (transact x) fun _ => Opening := by
  have hsnoc : ∀ h (a : Except AstraError x.Result), Opening h →
      Opening (h ++ [⟨.transaction x, a⟩]) := fun h a ho =>
    ho.snoc (fun command => by simp) fun session status => by simpa using hx session status
  exact call_triple (fun h ho => ⟨fun _ => ho.recorded, by simp, by simp⟩)
    (fun h a ho => hsnoc h _ ho) fun h e ho => (hsnoc h _ ho).raise e

theorem Checked.check : SeenTriple self token f Opening self.assertSafeMutatingRpcWindow
    fun _ => Checked self := by
  have hsnoc : ∀ h (a : Except AstraError Unit), Opening h → Opening (h ++ [⟨.transaction
      (.assertSafeRpcWindow self.mutatingRpcDeadlineSeconds self.rpcSafetyMarginSeconds), a⟩]) :=
    fun h a ho => ho.snoc (fun command => by simp) fun session status => by simp
  exact call_triple (fun h ho => ⟨fun _ => ho.recorded, by simp, by simp⟩)
    (fun h u ho => ⟨hsnoc h _ ho, windowOpen_check⟩) fun h e ho => (hsnoc h _ ho).raise e

/-- The window stays checked over a transaction. -/
theorem Checked.transact {x : DeliveryTx}
    (hx : ∀ session status, x ≠ .recordSessionStatus session status) :
    SeenTriple self token f (Checked self) (transact x) fun _ => Checked self := by
  have hsnoc : ∀ h (a : Except AstraError x.Result), Checked self h →
      Checked self (h ++ [⟨.transaction x, a⟩]) := fun h a hc => ⟨hc.toOpening.snoc
    (fun command => by simp) fun session status => by simpa using hx session status,
    windowOpen_transaction hc.window⟩
  exact call_triple (fun h hc => ⟨fun _ => hc.recorded, by simp, by simp⟩)
    (fun h a hc => hsnoc h _ hc) fun h e hc => (hsnoc h _ hc).toOpening.raise e

/-- A Start or an Append right after the check. -/
theorem Checked.request {r : Rpc} (hr : ∀ command, r ≠ .finalize command)
    (hguarded : ∀ h, r.Guarded h) (hstatus : ∀ zone id version,
      r ≠ .getDocumentVectorStatus zone id version) :
    SeenTriple self token f (Checked self) (request r) fun _ => Opening := by
  have hsnoc : ∀ h (a : Except AstraError r.Result), Checked self h →
      Opening (h ++ [⟨.rpc r, a⟩]) := fun h a hc =>
    hc.toOpening.snoc (fun command => by simpa using hr command)
      fun session status => by simp
  refine call_triple (fun h hc => ⟨fun _ => hc.recorded, fun r' heq _ => ?_, fun zone id version heq => ?_⟩)
    (fun h a hc => hsnoc h _ hc) fun h e hc => (hsnoc h _ hc).raise e
  · obtain rfl := DeliveryOp.rpc.inj heq
    exact ⟨fun _ => hguarded h, fun _ => hc.window⟩
  · exact absurd (DeliveryOp.rpc.inj heq) (hstatus zone id version)

end Opening

/-! ## After Finalize -/

/-- The session was not only reported COMPLETED, and the window was not checked since the last
call. -/
structure Settled (coordinator : AstraVectorDeliveryCoordinator) (h : List DeliveryEvent) :
    Prop where
  resolved : ¬ CompletedRemotely h
  closed : ¬ WindowOpen coordinator.mutatingRpcDeadlineSeconds
    coordinator.rpcSafetyMarginSeconds h

/-- A program that needs no window and keeps none. -/
abbrev SettledTriple {α : Type} (self : AstraVectorDeliveryCoordinator) (token : LeaseToken)
    (f : AstraError → AstraError) (p : DeliveryProg α) : Prop :=
  SeenTriple self token f (Settled self) p fun _ => Settled self

namespace Settled

variable {h : List DeliveryEvent}

theorem raise (hs : Settled self h) (e : AstraError) : RecoveryRaise f e h :=
  fun hc => absurd hc hs.resolved

theorem raise_triple {α : Type} {e : AstraError} :
    SettledTriple self token f (DeliveryProg.raise e : DeliveryProg α) :=
  .raise fun _ _ hs => hs.raise e

theorem ret {α : Type} {a : α} : SettledTriple self token f (pure a : DeliveryProg α) :=
  .ret fun _ _ hs => hs

theorem ofExcept {α : Type} {r : Except AstraError α} :
    SettledTriple self token f (Prog.ofExcept r) :=
  .ofExcept (fun _ _ _ _ hs => hs) fun e _ _ _ hs => hs.raise e

theorem rpc (hc : ¬ CompletedRemotely h) {r : Rpc} {answer : Except AstraError r.Result} :
    Settled self (h ++ [⟨.rpc r, answer⟩]) :=
  ⟨fun hc' => hc hc'.left, not_windowOpen_rpc⟩

theorem transact {x : DeliveryTx} (hx : ∀ d m, x ≠ .assertSafeRpcWindow d m) :
    SettledTriple self token f (transact x) := by
  have hsnoc : ∀ h (a : Except AstraError x.Result), Settled self h →
      Settled self (h ++ [⟨.transaction x, a⟩]) := fun h a hs =>
    ⟨fun hc => hs.resolved hc.left, not_windowOpen_transaction hx hs.closed⟩
  exact call_triple (fun h hs => ⟨fun hc => absurd hc hs.resolved, by simp, by simp⟩)
    (fun h a hs => hsnoc h _ hs) fun h e hs => (hsnoc h _ hs).raise e

/-- The calls after Finalize are read-only, but for the activation. -/
theorem duty {r : Rpc} (hr : r.Mutating → ∃ command, r = .activateDocumentVersion command)
    (hs : Settled self h) : RecoveryDuty self h (.rpc r) := by
  refine ⟨fun hc => absurd hc hs.resolved, fun r' heq hmut => ?_, fun _ _ _ _ => hs.resolved⟩
  obtain rfl := DeliveryOp.rpc.inj heq
  obtain ⟨command, rfl⟩ := hr hmut
  exact ⟨fun hw => absurd hw hs.closed, False.elim⟩

theorem request {r : Rpc} (hr : r.Mutating → ∃ command, r = .activateDocumentVersion command) :
    SettledTriple self token f (request r) :=
  call_triple (fun _ hs => hs.duty hr) (fun _ _ hs => rpc hs.resolved) fun h e hs =>
    (show Settled self (h ++ [⟨.rpc r, .error e⟩]) from rpc hs.resolved).raise e

theorem tryRequest {r : Rpc} (hr : r.Mutating → ∃ command, r = .activateDocumentVersion command) :
    SettledTriple self token f (tryRequest r) :=
  attempt_triple (fun _ hs => hs.duty hr) fun _ _ hs => rpc hs.resolved

theorem sleepIfPositive {seconds : Rat} : SettledTriple self token f (sleepIfPositive seconds) := by
  have hsnoc : ∀ h (a : Except AstraError Unit), Settled self h →
      Settled self (h ++ [⟨.sleep seconds, a⟩]) := fun h a hs =>
    ⟨fun hc => hs.resolved hc.left, not_windowOpen_sleep⟩
  unfold DeliveryProg.sleepIfPositive
  split
  · exact ret
  · exact call_triple (fun h hs => ⟨fun hc => absurd hc hs.resolved, by simp, by simp⟩)
      (fun h a hs => hsnoc h _ hs) fun h e hs => (hsnoc h _ hs).raise e

/-! ### Readiness and activation -/

variable {zone id : UUID} {version : Int} {session : UUID}

theorem getStatus : SettledTriple self token f (DeliveryProg.request
    (.getDocumentVectorStatus zone id version)) := request fun hmut => hmut.elim

theorem observe {runner : VectorReadinessRunner} {pollsLeft polls : Nat}
    {status : DocumentVectorStatus} :
    SettledTriple self token f (runner.observe zone id version pollsLeft polls status) := by
  have hjudge : ∀ (status : DocumentVectorStatus) (polls : Nat)
      (again : DeliveryProg VectorReadinessOutcome), SettledTriple self token f again →
      SettledTriple self token f (runner.judge status polls again) := by
    intro status polls again hagain
    unfold VectorReadinessRunner.judge
    refine .bind (transact (by simp)) fun _ => .bind ofExcept fun decision => ?_
    cases decision.disposition with
    | searchable => exact ret
    | readyToActivate => exact ret
    | terminal => exact raise_triple
    | wait => exact hagain
  induction pollsLeft generalizing polls status with
  | zero => exact hjudge _ _ _ raise_triple
  | succ pollsLeft ih =>
    exact hjudge _ _ _ (.bind sleepIfPositive fun _ => .bind getStatus fun status => ih)

theorem waitForActive {runner : VectorActivationRunner} {pollsLeft polls : Nat}
    {status last : Option DocumentVectorStatus} :
    SettledTriple self token f (runner.waitForActive zone id version pollsLeft polls status last) := by
  induction pollsLeft generalizing polls status last with
  | zero =>
    cases last with
    | none => exact raise_triple
    | some last => exact raise_triple
  | succ pollsLeft ih =>
    have hnext : SettledTriple self token f
        (VectorActivationRunner.nextStatus zone id version status) := by
      cases status with
      | some status => exact ret
      | none => exact getStatus
    unfold VectorActivationRunner.waitForActive
    refine .bind (transact (by simp)) fun _ => .bind hnext fun status => ?_
    refine .bind (transact (by simp)) fun _ => .bind ofExcept fun decision => ?_
    split
    · exact ret
    · exact .bind sleepIfPositive fun _ => ih

theorem activate {runner : VectorActivationRunner} :
    SettledTriple self token f (runner.activate zone id version) := by
  unfold VectorActivationRunner.activate
  refine .bind (transact (by simp)) fun _ => ?_
  refine .bind (tryRequest fun _ => ⟨_, rfl⟩) fun answer => ?_
  split
  · exact .bind (transact (by simp)) fun _ => .bind waitForActive fun active => ret
  · exact .bind getStatus fun status => .bind waitForActive fun active => ret
  · exact raise_triple

theorem activateUntilSearchable {runner : VectorActivationRunner} {status : DocumentVectorStatus} :
    SettledTriple self token f
      (runner.activateUntilSearchable zone id version session status) := by
  unfold VectorActivationRunner.activateUntilSearchable VectorReadinessRunner.waitUntilReady
  refine .bind (.bind (transact (by simp)) fun _ => observe) fun ready => ?_
  split
  · exact ret
  · split
    · exact raise_triple
    · exact activate

end Settled

/-! ### Reconciliation -/

/-- After a Finalize whose answer left the session open. -/
structure Waiting (coordinator : AstraVectorDeliveryCoordinator) (h : List DeliveryEvent) :
    Prop where
  sent : FinalizeSent h
  closed : ¬ WindowOpen coordinator.mutatingRpcDeadlineSeconds
    coordinator.rpcSafetyMarginSeconds h
  ended : CompletedRemotely h → ¬ Recorded h

/-- Where Finalize is due: right after a check, or in the loop. -/
def FinalizeDue (self : AstraVectorDeliveryCoordinator) (h : List DeliveryEvent) : Prop :=
  Checked self h ∨ (FinalizeSent h ∧ Settled self h)

/-- After the record of a status, COMPLETED unless the session was not only COMPLETED. -/
def Resolved (self : AstraVectorDeliveryCoordinator) (status : IngestionStatus)
    (h : List DeliveryEvent) : Prop :=
  FinalizeSent h ∧ ¬ WindowOpen self.mutatingRpcDeadlineSeconds self.rpcSafetyMarginSeconds h ∧
    (CompletedRemotely h → status.state = .completed)

section Reconciliation

variable {h : List DeliveryEvent} {id : UUID} {version : Int} {session : UUID}
  {command : FinalizeIngestionCommand}

theorem Resolved.settled {status : IngestionStatus} (hr : Resolved self status h)
    (hne : status.state ≠ .completed) : Settled self h := ⟨fun hc => hne (hr.2.2 hc), hr.2.1⟩

theorem FinalizeDue.duty (hd : FinalizeDue self h) :
    RecoveryDuty self h (.rpc (.finalize command)) := by
  rcases hd with hc | ⟨hsent, hs⟩
  · refine ⟨fun _ => hc.recorded, fun r heq _ => ?_, by simp⟩
    obtain rfl := DeliveryOp.rpc.inj heq
    exact ⟨fun _ => hc.finalize, fun _ => hc.window⟩
  · refine ⟨fun hc => absurd hc hs.resolved, fun r heq _ => ?_, by simp⟩
    obtain rfl := DeliveryOp.rpc.inj heq
    exact ⟨fun hw => absurd hw hs.closed, fun hg => absurd hsent hg⟩

theorem FinalizeDue.waiting (hd : FinalizeDue self h)
    {answer : Except AstraError FinalizeIngestionResult} :
    Waiting self (h ++ [⟨.rpc (.finalize command), answer⟩]) := by
  refine ⟨finalizeSent_snoc, not_windowOpen_rpc, fun hc => ?_⟩
  rcases hd with hd | ⟨-, hs⟩
  · exact not_recorded_snoc hd.recorded fun session status u heq => by cases heq
  · exact absurd hc.left hs.resolved

theorem Waiting.snoc (hw : Waiting self h) {op : DeliveryOp} {answer : Except AstraError op.Result}
    (hop : ∀ x, op ≠ .transaction x) : Waiting self (h ++ [⟨op, answer⟩]) where
  sent := hw.sent.snoc
  closed := by
    cases op with
    | transaction x => exact absurd rfl (hop x)
    | rpc r => exact not_windowOpen_rpc
    | sleep seconds => exact not_windowOpen_sleep
  ended hc := not_recorded_snoc (hw.ended hc.left) fun session status _ heq =>
    hop (.recordSessionStatus session status) (congrArg (·.op) heq)

theorem Waiting.raise (hw : Waiting self h) (e : AstraError) : RecoveryRaise f e h :=
  fun hc hr => absurd hr (hw.ended hc)

theorem Waiting.sleepIfPositive {seconds : Rat} :
    SeenTriple self token f (Waiting self) (DeliveryProg.sleepIfPositive seconds)
      fun _ => Waiting self := by
  have hsnoc : ∀ h (a : Except AstraError Unit), Waiting self h →
      Waiting self (h ++ [⟨.sleep seconds, a⟩]) := fun _ _ hw => hw.snoc (by simp)
  unfold DeliveryProg.sleepIfPositive
  split
  · exact .ret fun _ _ hw => hw
  · exact call_triple (fun h hw => ⟨hw.ended, by simp, by simp⟩) (fun h a hw => hsnoc h _ hw)
      fun h e hw => (hsnoc h _ hw).raise e

/-- A COMPLETED session answers with its status. -/
theorem Waiting.getIngestionStatus :
    SeenTriple self token f (Waiting self) (request (.getIngestionStatus session)) fun status h =>
      Waiting self h ∧ (CompletedRemotely h →
        status.ingestionSessionId = session ∧ status.state = .completed) := by
  refine call_triple (fun h hw => ⟨hw.ended, fun r heq hmut => ?_, by simp⟩)
    (fun h status hw => ⟨hw.snoc (by simp), fun hc => ?_⟩) fun h e hw hc => ?_
  · obtain rfl := DeliveryOp.rpc.inj heq
    exact hmut.elim
  · obtain ⟨status', hanswer, hsame⟩ := hc.last
    rw [Except.ok.inj hanswer]
    exact hsame
  · obtain ⟨status', hanswer, -⟩ := hc.last
    cases hanswer

theorem observeStatus_seen :
    SeenTriple self token f (Waiting self) (FinalizeReconciliationRunner.observeStatus session)
      (Resolved self) := by
  unfold FinalizeReconciliationRunner.observeStatus
  refine .bind Waiting.getIngestionStatus fun status => ?_
  split
  · next hne => exact .raise fun h _ hw hc => absurd (hw.2 hc).1 hne
  · refine .bind (Q := fun _ h _ => Resolved self status h) (call_triple
      (fun h hw => ⟨hw.1.ended, by simp, by simp⟩) (fun h u hw => ⟨hw.1.sent.snoc,
        not_windowOpen_transaction (by simp) hw.1.closed, fun hc => (hw.2 hc.left).2⟩)
      fun h e hw hc hr => ?_) fun _ => .ret fun _ _ hr => hr
    refine absurd hr (not_recorded_snoc (hw.1.ended hc.left) fun session status u heq => ?_)
    cases heq

theorem acknowledge_seen {zone : Option UUID} {result : FinalizeIngestionResult} :
    SettledTriple self token f
      (FinalizeReconciliationRunner.acknowledge zone id version result) := by
  unfold FinalizeReconciliationRunner.acknowledge
  refine .bind Settled.ofExcept fun _ => ?_
  split
  · exact Settled.raise_triple
  · exact .bind Settled.getStatus fun status => Settled.ret

/-- Without a zone the loop ends where the session is COMPLETED. -/
theorem resolve_seen (hf : ∀ message, ∃ message',
      f (.finalizeReadinessIdentityUnavailable message) = .deliveryRecoveryContractGap message')
    {status : IngestionStatus} {polls : Nat} {retry poll : DeliveryProg FinalizeDeliveryOutcome}
    (hretry : SeenTriple self token f (FinalizeDue self) retry fun _ => Settled self)
    (hpoll : SeenTriple self token f (Waiting self) poll fun _ => Settled self) :
    SeenTriple self token f (Resolved self status)
      (FinalizeReconciliationRunner.resolve none id version status polls retry poll)
      fun _ => Settled self := by
  unfold FinalizeReconciliationRunner.resolve
  have hsettled : status.state ≠ .completed → ∀ e, SeenTriple self token f (Resolved self status)
      (DeliveryProg.raise e : DeliveryProg FinalizeDeliveryOutcome) fun _ => Settled self :=
    fun hne e => .raise fun _ _ hr => (hr.settled hne).raise e
  cases hstate : status.state with
  | active =>
    exact hretry.pre fun _ _ hr => .inr ⟨hr.1, hr.settled (by simp [hstate])⟩
  | finalizing =>
    refine hpoll.pre fun _ _ hr => ⟨hr.1, hr.2.1, fun hc => absurd hc ?_⟩
    exact (hr.settled (by simp [hstate])).resolved
  | completed => exact .raise fun _ _ _ _ _ => hf _
  | failed => exact hsettled (by simp [hstate]) _
  | aborted => exact hsettled (by simp [hstate]) _
  | expired => exact hsettled (by simp [hstate]) _
  | unknown => exact hsettled (by simp [hstate]) _

theorem attemptFinalize_seen {runner : FinalizeReconciliationRunner} {attemptsLeft polls : Nat}
    (hf : ∀ message, ∃ message',
      f (.finalizeReadinessIdentityUnavailable message) = .deliveryRecoveryContractGap message') :
    SeenTriple self token f (FinalizeDue self)
      (runner.attemptFinalize session none id version command attemptsLeft polls)
      fun _ => Settled self := by
  induction attemptsLeft generalizing polls with
  | zero =>
    refine .raise fun h _ hd hc hr => ?_
    rcases hd with hd | ⟨-, hs⟩
    · exact absurd hr hd.recorded
    · exact absurd hc hs.resolved
  | succ attemptsLeft ih =>
    have hreconcile : ∀ pollsLeft polls status, SeenTriple self token f (Resolved self status)
        (runner.reconcile session none id version
          (runner.attemptFinalize session none id version command attemptsLeft) pollsLeft polls status)
        fun _ => Settled self := by
      intro pollsLeft
      induction pollsLeft with
      | zero =>
        intro polls status
        refine resolve_seen hf ih (.raise fun _ _ hw hc hr => absurd hr (hw.ended hc))
      | succ pollsLeft ihpolls =>
        intro polls status
        exact resolve_seen hf ih (.bind Waiting.sleepIfPositive fun _ =>
          .bind observeStatus_seen fun status => ihpolls _ _)
    unfold FinalizeReconciliationRunner.attemptFinalize
    -- an answer that is no ambiguous failure settles the session
    refine .bind (Q := fun answer h _ => Waiting self h ∧ (CompletedRemotely h →
      ∃ code message, answer = .error (.astraVectorTransportError code message) ∧
        ShouldReconcileFinalizeFailure code message)) (attempt_triple (fun h hd => hd.duty)
      fun h a hd => ⟨hd.waiting, fun hc => hc.last⟩) fun answer => ?_
    split
    · refine acknowledge_seen.pre fun h _ hw => ⟨fun hc => ?_, hw.1.closed⟩
      obtain ⟨code, message, hanswer, -⟩ := hw.2 hc
      cases hanswer
    · next code message =>
      split
      · exact .bind (observeStatus_seen.pre fun _ _ hw => hw.1) fun status => hreconcile _ _ _
      · next hnot =>
        refine .raise fun h _ hw hc => ?_
        obtain ⟨code', message', hanswer, hyes⟩ := hw.2 hc
        cases hanswer
        exact absurd hyes hnot
    · next e hne =>
      refine .raise fun h _ hw hc => ?_
      obtain ⟨code, message, hanswer, -⟩ := hw.2 hc
      cases hanswer
      exact absurd rfl (hne code message)

end Reconciliation

/-! ### The coordinator -/

namespace AstraVectorDeliveryCoordinator

variable {payload : AstraVectorDeliveryInput} {job : IndexationJob} {session : UUID}

theorem appendBatches_seen :
    SeenTriple self token f Opening (self.appendBatches session payload) fun _ => Opening := by
  have hbatch : ∀ batch, SeenTriple self token f Opening (self.appendRunner.deliverBatch session batch)
      fun _ => Opening := by
    intro batch
    unfold DurableAppendDeliveryRunner.deliverBatch
    refine .bind (Opening.transact (by simp)) fun prepared => ?_
    split
    · exact .ret fun _ _ ho => ho
    · refine .bind Checked.check fun _ => ?_
      refine .bind (Checked.request (by simp) (fun _ => trivial) (by simp)) fun result => ?_
      exact .bind (Opening.transact (by simp)) fun _ => .ret fun _ _ ho => ho
  have hbatches : ∀ batches, SeenTriple self token f Opening
      (self.appendRunner.deliverBatches session batches) fun _ => Opening := by
    intro batches
    induction batches with
    | nil => exact .ret fun _ _ ho => ho
    | cons batch rest ih =>
      exact .bind (hbatch batch) fun outcome => .bind ih fun outcomes => .ret fun _ _ ho => ho
  unfold appendBatches DurableAppendDeliveryRunner.deliver
  refine .bind (Opening.transact (by simp)) fun _ => .bind Opening.ofExcept fun batches => ?_
  dsimp only
  split
  · exact .ret fun _ _ ho => ho
  · split
    · exact Opening.raise_triple
    · exact .bind (Opening.transact (by simp)) fun _ => hbatches batches

theorem ensureSession_seen {sourceSha256 : String} :
    SeenTriple self token f Opening (self.ensureSession job payload sourceSha256)
      fun _ => Opening := by
  unfold ensureSession
  refine .bind (Opening.transact (by simp)) fun bound => ?_
  cases bound with
  | some session => exact .ret fun _ _ ho => ho
  | none =>
    refine .bind (Opening.transact (by simp)) fun _ => .bind Opening.ofExcept fun key => ?_
    refine .bind Checked.check fun _ => ?_
    refine .bind (Checked.request (by simp) (fun _ => trivial) (by simp)) fun started => ?_
    exact .bind (Opening.transact (by simp)) fun _ => .ret fun _ _ ho => ho

theorem finalizeSession_seen :
    SeenTriple self token id Opening (self.finalizeSession job session payload)
      fun _ => Settled self := by
  unfold finalizeSession
  refine .bind Opening.ofExcept fun finalHash => .bind (Opening.transact (by simp)) fun _ => ?_
  refine .bind (Opening.transact (by simp)) fun _ => .bind Checked.check fun _ => ?_
  have hfinalize : SeenTriple self token recoveryGap (Checked self)
      (self.finalizeRunner.finalize session none job.documentId job.documentVersion finalHash)
      fun _ => Settled self :=
    .bind (Checked.transact (by simp)) fun _ => (attemptFinalize_seen fun message =>
      ⟨message, rfl⟩).pre fun _ _ hc => .inl hc
  exact .tryCatch hfinalize fun e => .raise fun _ _ hraise => hraise

/-- `deliver` meets the duty at every operation.  It does not return while the session was only
reported COMPLETED, and what it raises after recording that is a gap. -/
theorem deliver_seen : SeenTriple self token id Opening (self.deliver payload)
    fun _ h => ¬ CompletedRemotely h := by
  unfold deliver prepare
  refine .bind (Q := fun _ h _ => Opening h) ?_ fun ⟨job, sourceSha256⟩ => ?_
  · refine .bind Opening.ofExcept fun _ => .bind (Opening.transact (by simp)) fun job => ?_
    refine .bind Opening.ofExcept fun sourceSha256 => .bind Opening.ofExcept fun compatibility => ?_
    exact .bind (Opening.transact (by simp)) fun _ => .ret fun _ _ ho => ho
  refine .bind ensureSession_seen fun session => .bind appendBatches_seen fun batches => ?_
  refine .bind finalizeSession_seen fun outcome => ?_
  cases outcome.finalizeResult with
  | none => exact .raise fun _ _ hs => hs.raise _
  | some result =>
    unfold activateDocument
    refine .bind (.bind (Settled.transact (by simp)) fun _ => .bind (Settled.transact (by simp))
      fun _ => .bind (Settled.transact (by simp)) fun _ => Settled.activateUntilSearchable)
      fun activation => ?_
    exact .bind (Settled.transact (by simp)) fun _ => .ret fun _ _ hs => hs.resolved

end AstraVectorDeliveryCoordinator

end Walk

/-! ## Runs -/

section Runs

variable {self : AstraVectorDeliveryCoordinator} {db₀ : Database}
  {w : (deliverySystem self.deliver).World}

theorem opening_nil : Opening [] where
  finalize := by
    rintro ⟨command, answer, hmem⟩
    cases hmem
  recorded := by
    rintro ⟨session, status, u, hmem⟩
    cases hmem

/-- The state of every run: the duties are met, and every worker goes on to meet them. -/
theorem recovery_sound (hdb : db₀.Coherent)
    (hreach : System.Reaches (System.World.initial _ db₀) w) :
    System.Sound Database.Coherent (fun token db => db.Issued token) LeaseRely
      (fun _ _ _ h op _ _ => RecoveryDuty self h op)
      (fun _ _ _ => outcome (fun _ h _ => ¬ CompletedRemotely h) fun e h _ => RecoveryRaise id e h)
      w :=
  System.sound _ _ (delivery_discipline self.deliver) (fun _ _ _ _ _ =>
    AstraVectorDeliveryCoordinator.deliver_seen [] _ opening_nil) hdb hreach

end Runs

/-! ## The window of a mutating call -/

/-- After the last call or sleep of its worker before the entry, a transaction confirmed that
the token owns the job and that the lease covers the deadline and the margin. -/
def WindowConfirmed (self : AstraVectorDeliveryCoordinator)
    (l : List (deliverySystem self.deliver).Entry) (e : (deliverySystem self.deliver).Entry) :
    Prop :=
  ∃ h₁ h₂ u, e.history = h₁ ++ ⟨.transaction (.assertSafeRpcWindow self.mutatingRpcDeadlineSeconds
      self.rpcSafetyMarginSeconds), .ok u⟩ :: h₂ ∧
    (∀ ev ∈ h₂, ∃ x, ev.op = .transaction x) ∧
    ∃ e' ∈ l, ∃ t : Clock, e'.tid = e.tid ∧ e'.op = .transaction (.assertSafeRpcWindow
        self.mutatingRpcDeadlineSeconds self.rpcSafetyMarginSeconds) ∧
      e'.op.clock? e'.choice = some t ∧ e'.before.Owns e.tid t.now ∧
      ∃ leaseUntil, DurableAppendLeaseFence.heldLease? e.tid e'.before = some leaseUntil ∧
        self.mutatingRpcDeadlineSeconds + self.rpcSafetyMarginSeconds ≤
          DurableAppendLeaseFence.seconds (leaseUntil - t.now)

section Window

variable {self : AstraVectorDeliveryCoordinator} {db₀ : Database}
  {w : (deliverySystem self.deliver).World} {l₁ l₂ : List (deliverySystem self.deliver).Entry}
  {e : (deliverySystem self.deliver).Entry}

theorem windowConfirmed_iff (hreach : System.Reaches (System.World.initial _ db₀) w)
    (hlog : w.log = l₁ ++ e :: l₂) : WindowConfirmed self l₁ e ↔
      WindowOpen self.mutatingRpcDeadlineSeconds self.rpcSafetyMarginSeconds e.history := by
  rw [windowOpen_iff]
  constructor
  · rintro ⟨h₁, h₂, u, hsplit, hall, -⟩
    exact ⟨h₁, h₂, u, hsplit, hall⟩
  · rintro ⟨h₁, h₂, u, hsplit, hall⟩
    have hmem : (⟨.transaction (.assertSafeRpcWindow self.mutatingRpcDeadlineSeconds
        self.rpcSafetyMarginSeconds), .ok u⟩ : DeliveryEvent) ∈ e.history := by
      rw [hsplit]
      exact List.mem_append_right _ List.mem_cons_self
    obtain ⟨e', he', t, htid, hop, hclock, hx⟩ := transaction_logged hreach hlog hmem
    obtain ⟨-, leaseUntil, hlease, hremaining, hrequired⟩ :=
      DurableAppendLeaseFence.exec_assertSafeRpcWindow hx
    exact ⟨h₁, h₂, u, hsplit, hall, e', he', t, htid, hop, hclock,
      DurableAppendLeaseFence.owns_of_heldLease? hlease hremaining, leaseUntil, hlease, hrequired⟩

/-- The window of a mutating call is confirmed exactly if the call is guarded. -/
theorem window_of_call (hdb : db₀.Coherent)
    (hreach : System.Reaches (System.World.initial _ db₀) w) (hlog : w.log = l₁ ++ e :: l₂)
    {r : Rpc} (hop : e.op = .rpc r) (hmutating : r.Mutating) :
    WindowConfirmed self l₁ e ↔ r.Guarded e.history := by
  rw [windowConfirmed_iff hreach hlog]
  have hduty := (recovery_sound hdb hreach).log e (hlog ▸ List.mem_append_right _ List.mem_cons_self)
  exact hduty.window r hop hmutating

end Window

/-- The window of a mutating call is confirmed after the last call or sleep exactly if it is a
Start, an Append or the first Finalize of its attempt. -/
theorem mutating_rpc_window_iff (self : AstraVectorDeliveryCoordinator) (db₀ : Database)
    (hfresh : db₀.Fresh) (w : (deliverySystem self.deliver).World)
    (hreach : System.Reaches (System.World.initial _ db₀) w)
    (l₁ l₂ : List (deliverySystem self.deliver).Entry) (e : (deliverySystem self.deliver).Entry)
    (hlog : w.log = l₁ ++ e :: l₂) (r : Rpc) (hop : e.op = .rpc r) (hmutating : r.Mutating) :
    WindowConfirmed self l₁ e ↔ r.Guarded e.history :=
  window_of_call hfresh.coherent hreach hlog hop hmutating

theorem threeWorkers_finalizeAgain : ∃ (w : SampleSystem.World)
    (l₁ l₂ : List SampleSystem.Entry) (e : SampleSystem.Entry) (command : FinalizeIngestionCommand),
    System.Reaches (System.World.initial _ (.ofJob (sampleJob 5))) w ∧ w.log = l₁ ++ e :: l₂ ∧
      e.op = .rpc (.finalize command) ∧ FinalizeSent e.history := by
  have hfinalize : ∀ op, SampleRun.isFinalize op = true →
      ∃ command, op = .rpc (.finalize command) := by
    intro op hop
    unfold SampleRun.isFinalize at hop
    split at hop
    · next command => exact ⟨command, rfl⟩
    · cases hop
  obtain ⟨w, hw, -, -, hlog, -⟩ := threeWorkers_run
  obtain ⟨e, he, hagain⟩ := List.any_eq_true.mp hlog
  rw [SampleRun.finalizeAgain, Bool.and_eq_true, List.any_eq_true] at hagain
  obtain ⟨hop, ⟨op, answer⟩, hmem, hsent⟩ := hagain
  obtain ⟨command, hop⟩ := hfinalize e.op hop
  obtain ⟨command', rfl⟩ := hfinalize op hsent
  obtain ⟨l₁, l₂, hsplit⟩ := List.append_of_mem he
  exact ⟨w, l₁, l₂, e, command, System.reaches_of_run hw, hsplit, hop, command', answer, hmem⟩

/-- The second worker sends Finalize again without a check. -/
theorem finalize_again_unchecked : ∃ (w : SampleSystem.World)
    (l₁ l₂ : List SampleSystem.Entry) (e : SampleSystem.Entry) (command : FinalizeIngestionCommand),
    System.Reaches (System.World.initial _ (.ofJob (sampleJob 5))) w ∧ w.log = l₁ ++ e :: l₂ ∧
      e.op = .rpc (.finalize command) ∧ ¬ WindowConfirmed sampleCoordinator l₁ e := by
  obtain ⟨w, l₁, l₂, e, command, hreach, hlog, hop, hsent⟩ := threeWorkers_finalizeAgain
  refine ⟨w, l₁, l₂, e, command, hreach, hlog, hop, fun hconfirmed => ?_⟩
  exact (window_of_call (Database.Fresh.ofJob 5).coherent hreach hlog hop trivial).mp hconfirmed hsent

theorem mutating_rpc_window_iff_three_workers : ∃ (w : SampleSystem.World)
    (l₁ l₂ : List SampleSystem.Entry) (e : SampleSystem.Entry) (command : FinalizeIngestionCommand),
    w.log = l₁ ++ e :: l₂ ∧ e.op = .rpc (.finalize command) ∧
      (WindowConfirmed sampleCoordinator l₁ e ↔ ¬ FinalizeSent e.history) := by
  obtain ⟨w, l₁, l₂, e, command, hreach, hlog, hop, -⟩ := threeWorkers_finalizeAgain
  exact ⟨w, l₁, l₂, e, command, hlog, hop, mutating_rpc_window_iff sampleCoordinator
    (.ofJob (sampleJob 5)) (.ofJob 5) w hreach l₁ l₂ e hlog (.finalize command) hop trivial⟩

/-! ## A session that is COMPLETED -/

section Completed

variable {self : AstraVectorDeliveryCoordinator} {db₀ : Database}
  {w : (deliverySystem self.deliver).World} {tid : LeaseToken}
  {th : (deliverySystem self.deliver).Thread}

/-- A delivery that saw its session COMPLETED only does not look at the vector status, does not
return, and raises a gap once it has recorded the session status. -/
theorem delivery_of_completed (hdb : db₀.Coherent)
    (hreach : System.Reaches (System.World.initial _ db₀) w) (hth : w.threads tid = some th)
    (hcompleted : CompletedRemotely th.history) :
    (∀ ev ∈ th.history, ∀ zone id version, ev.op ≠ .rpc (.getDocumentVectorStatus zone id version)) ∧
      (∀ outcome, th.rest ≠ .ret outcome) ∧
      (Recorded th.history → ∃ message, th.rest = .raise (.deliveryRecoveryContractGap message)) := by
  have hsound := recovery_sound hdb hreach
  obtain ⟨hlive, s, hrely, hwp⟩ := hsound.threads tid th hth
  refine ⟨fun ev hev zone id version hop => ?_, fun outcome hrest => ?_, fun hrecorded => ?_⟩
  · obtain ⟨h₁, h₂, hsplit⟩ := List.append_of_mem hev
    obtain ⟨e, he, -, -, -, hhistory, hevent⟩ :=
      System.logged_of_reaches hreach tid th hth h₁ ev h₂ hsplit
    have hop' : e.op = .rpc (.getDocumentVectorStatus zone id version) := by
      rw [← hop, ← hevent]
      rfl
    rw [hsplit] at hcompleted
    refine (hsound.log e he).readiness zone id version hop' ?_
    rw [hhistory]
    exact hcompleted.left
  · rw [hrest] at hwp
    exact hwp hcompleted
  · cases hrest : th.rest with
    | ret outcome =>
      rw [hrest] at hwp
      exact absurd hcompleted hwp
    | raise e =>
      rw [hrest] at hwp
      obtain ⟨message, he⟩ := hwp hcompleted hrecorded
      exact ⟨message, congrArg _ he⟩
    | perform op k =>
      -- there is nothing to perform after the record
      rw [hrest] at hwp
      obtain ⟨hduty, -⟩ := hwp w.shared ⟨hsound.invariant, hlive, hrely⟩
        (DeliveryOp.scripted 0 Rpc.unavailable op)
      exact absurd hrecorded (hduty.ended hcompleted)

end Completed

/-- No delivery recovers a session that AstraVector reports to be COMPLETED: it never polls the
vector status and never returns, and when it has recorded the status it raises a gap. -/
theorem completed_session_not_recovered (self : AstraVectorDeliveryCoordinator) (db₀ : Database)
    (hfresh : db₀.Fresh) (w : (deliverySystem self.deliver).World)
    (hreach : System.Reaches (System.World.initial _ db₀) w) (tid : LeaseToken)
    (th : (deliverySystem self.deliver).Thread) (hth : w.threads tid = some th)
    (hcompleted : CompletedRemotely th.history) :
    (∀ ev ∈ th.history, ∀ zone id version, ev.op ≠ .rpc (.getDocumentVectorStatus zone id version)) ∧
      (∀ outcome, th.rest ≠ .ret outcome) ∧
      (Recorded th.history → ∃ message, th.rest = .raise (.deliveryRecoveryContractGap message)) :=
  delivery_of_completed hfresh.coherent hreach hth hcompleted

namespace SampleRun

/-- The first worker has the zone on record and stops, and the second finds the session
COMPLETED. -/
def completedSession : List SampleSystem.Action :=
  sampleClaim tokenA 0 :: .start tokenA (samplePayload [sampleBlock]) ::
  samplePerform tokenA 0 true 20 ++
  sampleClaim tokenB 61000000 :: .start tokenB (samplePayload [sampleBlock]) ::
  List.replicate 13 (.perform tokenB (DeliveryOp.scripted 61000000 (sampleAnswer false .completed)))

def reportsCompletion : DeliveryEvent → Bool
  | ⟨.rpc (.finalize _), .error (.astraVectorTransportError code message)⟩ =>
    ShouldReconcileFinalizeFailure code message
  | ⟨.rpc (.finalize _), _⟩ => false
  | ⟨.rpc (.getIngestionStatus session), .ok status⟩ =>
    status.ingestionSessionId = session ∧ status.state = .completed
  | ⟨.rpc (.getIngestionStatus _), _⟩ => false
  | _ => true

def isRecord : DeliveryEvent → Bool
  | ⟨.transaction (.recordSessionStatus _ _), .ok _⟩ => true
  | _ => false

theorem reportsCompletion_sound {ev : DeliveryEvent} (h : reportsCompletion ev = true) :
    ReportsCompletion ev := by
  obtain ⟨op, answer⟩ := ev
  cases op with
  | transaction x => trivial
  | sleep seconds => trivial
  | rpc r =>
    cases r with
    | finalize command =>
      cases answer with
      | ok result => simp [reportsCompletion] at h
      | error e =>
        cases e with
        | astraVectorTransportError code message =>
          rw [reportsCompletion, decide_eq_true_eq] at h
          exact ⟨code, message, rfl, h⟩
        | _ => simp [reportsCompletion] at h
    | getIngestionStatus session =>
      cases answer with
      | ok status =>
        rw [reportsCompletion, decide_eq_true_eq] at h
        exact ⟨status, rfl, h⟩
      | error e => simp [reportsCompletion] at h
    | _ => trivial

theorem recorded_of_isRecord {h : List DeliveryEvent} (hr : h.any isRecord = true) : Recorded h := by
  obtain ⟨ev, hmem, hev⟩ := List.any_eq_true.mp hr
  unfold isRecord at hev
  split at hev
  · next session status u => exact ⟨session, status, u, hmem⟩
  · cases hev

end SampleRun

theorem completedSession_run : ∃ (w : SampleSystem.World) (th : SampleSystem.Thread),
    System.run (System.World.initial _ (.ofJob (sampleJob 5))) SampleRun.completedSession = some w ∧
      w.threads tokenB = some th ∧ (th.start.delivery tokenB.jobId).zone = some 11 ∧
      CompletedRemotely th.history ∧ Recorded th.history := by
  have hrun : (System.run (System.World.initial _ (.ofJob (sampleJob 5)))
      SampleRun.completedSession).any (fun w : SampleSystem.World => (w.threads tokenB).any fun th =>
        decide ((th.start.delivery tokenB.jobId).zone = some 11) &&
          (th.history.all SampleRun.reportsCompletion && th.history.any SampleRun.isRecord)) = true := by
    decide +kernel
  obtain ⟨w, hw, hthread⟩ := (Option.any_eq_true _ _).mp hrun
  obtain ⟨th, hth, hfacts⟩ := (Option.any_eq_true _ _).mp hthread
  simp only [Bool.and_eq_true, decide_eq_true_eq, List.all_eq_true] at hfacts
  obtain ⟨hzone, hcompleted, hrecorded⟩ := hfacts
  exact ⟨w, th, hw, hth, hzone, fun ev hev => SampleRun.reportsCompletion_sound (hcompleted ev hev),
    SampleRun.recorded_of_isRecord hrecorded⟩

/-- The second worker raises a gap, with the zone on record. -/
theorem completed_session_with_zone : ∃ (w : SampleSystem.World) (th : SampleSystem.Thread)
    (message : String), System.Reaches (System.World.initial _ (.ofJob (sampleJob 5))) w ∧
      w.threads tokenB = some th ∧ (th.start.delivery tokenB.jobId).zone = some 11 ∧
      CompletedRemotely th.history ∧ th.rest = .raise (.deliveryRecoveryContractGap message) := by
  obtain ⟨w, th, hw, hth, hzone, hcompleted, hrecorded⟩ := completedSession_run
  have hreach := System.reaches_of_run hw
  obtain ⟨-, -, hgap⟩ :=
    delivery_of_completed (Database.Fresh.ofJob 5).coherent hreach hth hcompleted
  obtain ⟨message, hmessage⟩ := hgap hrecorded
  exact ⟨w, th, message, hreach, hth, hzone, hcompleted, hmessage⟩

theorem completed_session_not_recovered_zone : ∃ (w : SampleSystem.World)
    (th : SampleSystem.Thread), w.threads tokenB = some th ∧
      (th.start.delivery tokenB.jobId).zone = some 11 ∧ (∀ outcome, th.rest ≠ .ret outcome) ∧
      ∃ message, th.rest = .raise (.deliveryRecoveryContractGap message) := by
  obtain ⟨w, th, hw, hth, hzone, hcompleted, hrecorded⟩ := completedSession_run
  obtain ⟨-, hreturn, hgap⟩ := completed_session_not_recovered sampleCoordinator
    (.ofJob (sampleJob 5)) (.ofJob 5) w (System.reaches_of_run hw) tokenB th hth hcompleted
  exact ⟨w, th, hth, hzone, hreturn, hgap hrecorded⟩

end AstraIndexator
