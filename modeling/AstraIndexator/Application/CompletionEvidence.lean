import AstraIndexator.Application.DeliveryProgress
import AstraIndexator.Application.FinalizeReconciliation
import AstraIndexator.Application.VectorActivation

/-!
# Evidence of a completion

The way from Finalize to a searchable version, through reconciliation, readiness and
activation.  A branch that goes on has an acknowledged Finalize behind it and a vector
status observed after it, and the last status it evaluated is searchable.
-/

namespace AstraIndexator

open Transaction DeliveryRows Prog DeliveryProg

/-! ## Records of a status -/

def DeliveryTx.Commits (x : DeliveryTx) (token : LeaseToken) (t : Clock) (db : Database) : Prop :=
  ∃ a db', exec (x.run token) t db = .ok (a, db')

/-- A guarantee that asks of a transaction only that the record of a status commits, and of a
request nothing but before a Finalize. -/
structure Lenient (token : LeaseToken) (guar : Guarantee) : Prop where
  transaction : ∀ h x c db, x ≠ .complete → (x.RecordsStatus → x.Commits token c db) →
    guar h (.transaction x) c db
  request : ∀ h r c db, (∀ command, r ≠ .finalize command) → guar h (.rpc r) c db
  sleep : ∀ h seconds c db, guar h (.sleep seconds) c db

theorem Lenient.unrecorded {token : LeaseToken} {guar : Guarantee} (hg : Lenient token guar)
    (h : List DeliveryEvent) (x : DeliveryTx) (c : Clock) (db : Database) (hx : ¬ x.RecordsStatus)
    (hne : x ≠ .complete) : guar h (.transaction x) c db :=
  hg.transaction h x c db hne fun hr => absurd hr hx

section Records

variable {token : LeaseToken} {start db : Database} {m : Milestones} {session : UUID} {t : Clock}

theorem Reached.bound (h : Reached token start m db) (hsession : m.session = some session) :
    ∃ c, db.checkpoint? token.jobId = some c ∧ c.ingestionSessionId = some session :=
  Option.bind_eq_some_iff.mp (h.session session hsession)

/-- A delivery with a bound session records what it observes. -/
theorem Reached.recordSessionStatus (h : Reached token start m db)
    (hsession : m.session = some session) (status : IngestionStatus) :
    (DeliveryTx.recordSessionStatus session status).Commits token t db := by
  obtain ⟨c, hc, hbound⟩ := h.bound hsession
  exact ⟨(), DeliveryBatchRepository.recordSessionStatus_commits hc hbound⟩

theorem Reached.recordVectorStatus (h : Reached token start m db)
    (hsession : m.session = some session) {status : DocumentVectorStatus}
    (hr : (DeliveryTx.recordVectorStatus status).RecordsStatus) :
    (DeliveryTx.recordVectorStatus status).Commits token t db := by
  obtain ⟨c, hc, -⟩ := h.bound hsession
  exact ⟨(), DeliveryBatchRepository.recordVectorStatus_commits hc hr.1 hr.2⟩

end Records

/-! ## Evidence -/

section Evidence

variable (command : FinalizeIngestionCommand) (result : FinalizeIngestionResult)

/-- The worker saw Finalize acknowledged. -/
def Acknowledged : Assertion := fun h _ =>
  (⟨.rpc (.finalize command), .ok result⟩ : DeliveryEvent) ∈ h

/-- The vector status of the acknowledged document. -/
abbrev statusRequest : Rpc :=
  .getDocumentVectorStatus result.accessZoneId result.documentId result.documentVersion

/-- The worker saw Finalize acknowledged and, after it, this vector status. -/
def Observed (status : DocumentVectorStatus) : Assertion := fun h _ =>
  ([⟨.rpc (.finalize command), .ok result⟩, ⟨.rpc (statusRequest result), .ok status⟩] :
    List DeliveryEvent).Sublist h

/-- Finalize was acknowledged, and a status in hand was observed after it. -/
def InHand (status : Option DocumentVectorStatus) : Assertion := fun h db =>
  Acknowledged command result h db ∧ ∀ s, status = some s → Observed command result s h db

variable {command : FinalizeIngestionCommand} {result : FinalizeIngestionResult}
  {token : LeaseToken} {status : DocumentVectorStatus} {h : List DeliveryEvent} {db : Database}

theorem Lasting.acknowledged (token : LeaseToken) : Lasting token (Acknowledged command result) :=
  ⟨fun _ _ _ hk => List.mem_append_left _ hk, fun _ _ _ _ hk => hk⟩

theorem Lasting.observed (token : LeaseToken) : Lasting token (Observed command result status) :=
  ⟨fun h _ _ hk => hk.trans (List.sublist_append_left h _), fun _ _ _ _ hk => hk⟩

theorem Lasting.inHand (token : LeaseToken) {status : Option DocumentVectorStatus} :
    Lasting token (InHand command result status) where
  event h ev db hk := ⟨(Lasting.acknowledged token).event h ev db hk.1,
    fun s hs => (Lasting.observed token).event h ev db (hk.2 s hs)⟩
  progress _ _ _ _ hk := hk

theorem Observed.acknowledged (hk : Observed command result status h db) :
    Acknowledged command result h db := hk.subset List.mem_cons_self

theorem Acknowledged.observe (hk : Acknowledged command result h db) :
    Observed command result status (h ++ [⟨.rpc (statusRequest result), .ok status⟩]) db :=
  (List.singleton_sublist.mpr hk).append (.refl _)

end Evidence

/-- A readiness outcome that says searchable, and the status it was read from. -/
def VectorReadinessOutcome.Searchable (outcome : VectorReadinessOutcome) : Prop :=
  outcome.status.searchable = true ∧ outcome.status.Synced

section Runners

variable {token : LeaseToken} {start : Database} {m : Milestones} {guar : Guarantee}
  {session : UUID} {command : FinalizeIngestionCommand} {result : FinalizeIngestionResult}

/-- A poll of the vector status. -/
theorem pollVectorStatus_triple (hguar : Lenient token guar) {H : Assertion} (hH : Lasting token H)
    (hack : ∀ h db, H h db → Acknowledged command result h db) :
    DeliveryTriple token guar (Knows token start m H) (request (statusRequest result))
      fun status => Knows token start m (Observed command result status) :=
  request_triple (r := statusRequest result) (fun status => Observed command result status) hH
    (fun h db c _ => hguar.request h _ c db (by simp)) fun h db _ hk => (hack h db hk).observe

theorem recordVectorStatus_triple (hguar : Lenient token guar) (hsession : m.session = some session)
    {H : Assertion} (hH : Lasting token H) {status : DocumentVectorStatus} :
    DeliveryTriple token guar (Knows token start m H) (transact (.recordVectorStatus status))
      fun _ => Knows token start m H :=
  transact_keeps hH (by simp) fun h db c hready =>
    hguar.transaction h _ c db (by simp) (hready.reached.recordVectorStatus hsession)

theorem recordSessionStatus_triple (hguar : Lenient token guar)
    (hsession : m.session = some session) {H : Assertion} (hH : Lasting token H)
    {status : IngestionStatus} :
    DeliveryTriple token guar (Knows token start m H)
      (transact (.recordSessionStatus session status)) fun _ => Knows token start m H :=
  transact_keeps hH (by simp) fun h db c hready =>
    hguar.transaction h _ c db (by simp) fun _ => hready.reached.recordSessionStatus hsession status

/-- A transaction that is neither a record nor the completion. -/
theorem quiet_triple (hguar : Lenient token guar) {H : Assertion} (hH : Lasting token H)
    {x : DeliveryTx} (hmark : ∀ batch raw, x ≠ .markAccepted batch raw) (hne : x ≠ .complete)
    (hrecord : ¬ x.RecordsStatus) :
    DeliveryTriple token guar (Knows token start m H) (transact x) fun _ => Knows token start m H :=
  transact_keeps hH hmark fun h db c _ => hguar.unrecorded h x c db hrecord hne

theorem pause_triple (hguar : Lenient token guar) {H : Assertion} (hH : Lasting token H)
    {seconds : Rat} :
    DeliveryTriple token guar (Knows token start m H) (sleepIfPositive seconds)
      fun _ => Knows token start m H :=
  sleepIfPositive_triple hH fun h db c _ => hguar.sleep h seconds c db

/-! ## Readiness -/

namespace VectorReadinessRunner

variable {self : VectorReadinessRunner}

/-- The answer of a round is the decision on its status. -/
def Answers (self : VectorReadinessRunner) (token : LeaseToken) (start : Database) (m : Milestones)
    (command : FinalizeIngestionCommand) (result : FinalizeIngestionResult)
    (outcome : VectorReadinessOutcome) : Assertion := fun h db =>
  evaluateVectorReadiness outcome.status self.policy = .ok outcome.decision ∧
    Knows token start m (Observed command result outcome.status) h db

theorem judge_triple (hguar : Lenient token guar) (hsession : m.session = some session)
    {status : DocumentVectorStatus} {polls : Nat} {again : DeliveryProg VectorReadinessOutcome}
    (hagain : DeliveryTriple token guar (Knows token start m (Observed command result status)) again
      (self.Answers token start m command result)) :
    DeliveryTriple token guar (Knows token start m (Observed command result status))
      (self.judge status polls again) (self.Answers token start m command result) := by
  unfold judge
  refine .bind (recordVectorStatus_triple hguar hsession (.observed token)) fun _ => ?_
  refine .bind (Q := fun decision h db => evaluateVectorReadiness status self.policy =
    .ok decision ∧ Knows token start m (Observed command result status) h db)
    (.ofExcept (fun _ _ _ hd hk => ⟨hd, hk⟩) fun _ _ _ _ _ => trivial) fun decision => ?_
  cases hd : decision.disposition with
  | searchable => exact .ret fun _ _ hk => hk
  | readyToActivate => exact .ret fun _ _ hk => hk
  | terminal => exact raise_triple
  | wait => exact hagain.pre fun _ _ hk => hk.2

theorem observe_triple (hguar : Lenient token guar) (hsession : m.session = some session)
    {pollsLeft polls : Nat} {status : DocumentVectorStatus} :
    DeliveryTriple token guar (Knows token start m (Observed command result status))
      (self.observe result.accessZoneId result.documentId result.documentVersion pollsLeft polls
        status) (self.Answers token start m command result) := by
  induction pollsLeft generalizing polls status with
  | zero => exact judge_triple hguar hsession raise_triple
  | succ pollsLeft ih =>
    refine judge_triple hguar hsession (.bind (pause_triple hguar (.observed token)) fun _ => ?_)
    refine .bind (pollVectorStatus_triple hguar (.observed token) fun _ _ hk => hk.acknowledged)
      fun status => ?_
    exact ih

theorem waitUntilReady_triple (hguar : Lenient token guar) (hsession : m.session = some session)
    {status : DocumentVectorStatus} :
    DeliveryTriple token guar (Knows token start m (Observed command result status))
      (self.waitUntilReady result.accessZoneId result.documentId result.documentVersion session
        (some status)) (self.Answers token start m command result) :=
  .bind (quiet_triple hguar (.observed token) (by simp) (by simp) id) fun _ =>
    observe_triple hguar hsession

end VectorReadinessRunner

/-! ## Activation -/

namespace VectorActivationRunner

variable {self : VectorActivationRunner}

/-- The outcome is searchable, and its status is the last one observed. -/
def Active (token : LeaseToken) (start : Database) (m : Milestones)
    (command : FinalizeIngestionCommand) (result : FinalizeIngestionResult)
    (outcome : VectorReadinessOutcome) : Assertion := fun h db =>
  outcome.Searchable ∧ Knows token start m (Observed command result outcome.status) h db

theorem waitForActive_triple (hguar : Lenient token guar) (hsession : m.session = some session)
    {pollsLeft polls : Nat} {status last : Option DocumentVectorStatus} :
    DeliveryTriple token guar (Knows token start m (InHand command result status))
      (self.waitForActive result.accessZoneId result.documentId result.documentVersion pollsLeft
        polls status last) (Active token start m command result) := by
  induction pollsLeft generalizing polls status last with
  | zero =>
    cases last with
    | none => exact raise_triple
    | some last => exact raise_triple
  | succ pollsLeft ih =>
    unfold waitForActive
    refine .bind (quiet_triple hguar (.inHand token) (by simp) (by simp) id) fun _ => ?_
    refine .bind (Q := fun status => Knows token start m (Observed command result status)) ?_
      fun status => ?_
    · cases status with
      | some status => exact .ret fun _ _ hk => ⟨hk.1, hk.2.2 status rfl⟩
      | none => exact pollVectorStatus_triple hguar (.inHand token) fun _ _ hk => hk.1
    refine .bind (recordVectorStatus_triple hguar hsession (.observed token)) fun _ => ?_
    refine .bind (Q := fun decision h db => evaluateVectorReadiness status .requireSearchable =
      .ok decision ∧ Knows token start m (Observed command result status) h db)
      (.ofExcept (fun _ _ _ hd hk => ⟨hd, hk⟩) fun _ _ _ _ _ => trivial) fun decision => ?_
    by_cases hd : decision.disposition = .searchable
    · rw [if_pos hd]
      exact .ret fun _ _ hk => ⟨evaluateVectorReadiness_searchable hk.1 hd, hk.2⟩
    · rw [if_neg hd]
      refine .pre (fun _ _ hk => hk.2) (.bind (pause_triple hguar (.observed token)) fun _ => ?_)
      exact ih.pre fun _ _ hk => ⟨hk.1, hk.2.acknowledged, fun _ hs => by cases hs⟩

theorem activate_triple (hguar : Lenient token guar) (hsession : m.session = some session) :
    DeliveryTriple token guar (Knows token start m (Acknowledged command result))
      (self.activate result.accessZoneId result.documentId result.documentVersion)
      fun outcome => Active token start m command result outcome.readiness := by
  unfold activate
  refine .bind (quiet_triple hguar (.acknowledged token) (by simp) (by simp) id) fun _ => ?_
  refine .bind (tryRequest_triple (fun _ => Acknowledged command result) (.acknowledged token)
    (fun h db c _ => hguar.request h _ c db (by simp))
    fun h db a hk => List.mem_append_left _ hk) fun answer => ?_
  split
  · refine .bind (quiet_triple hguar (.acknowledged token) (by simp) (by simp) id) fun _ => ?_
    refine .bind ((waitForActive_triple hguar hsession).pre fun _ _ hk =>
      ⟨hk.1, hk.2, fun _ hs => by cases hs⟩) fun active => .ret fun _ _ hk => hk
  · refine .bind (pollVectorStatus_triple hguar (.acknowledged token) fun _ _ hk => hk)
      fun status => ?_
    refine .bind ((waitForActive_triple hguar hsession).pre fun _ _ hk => ⟨hk.1,
      hk.2.acknowledged, fun s hs => ?_⟩) fun active => .ret fun _ _ hk => hk
    rw [← Option.some.inj hs]
    exact hk.2
  · exact raise_triple

/-- A version that was activated, or was searchable before, has a searchable status. -/
theorem activateUntilSearchable_triple (hguar : Lenient token guar)
    (hsession : m.session = some session) {status : DocumentVectorStatus} :
    DeliveryTriple token guar (Knows token start m (Observed command result status))
      (self.activateUntilSearchable result.accessZoneId result.documentId result.documentVersion
        session status) fun outcome => Active token start m command result outcome.readiness := by
  unfold activateUntilSearchable
  refine .bind (VectorReadinessRunner.waitUntilReady_triple hguar hsession) fun ready => ?_
  by_cases hd : ready.decision.disposition = .searchable
  · rw [if_pos hd]
    exact .ret fun _ _ hk => ⟨evaluateVectorReadiness_searchable hk.1 hd, hk.2⟩
  rw [if_neg hd]
  by_cases hready : ready.decision.disposition ≠ .readyToActivate
  · rw [if_pos hready]
    exact raise_triple
  · rw [if_neg hready]
    exact (activate_triple hguar hsession).pre fun _ _ hk => ⟨hk.2.1, hk.2.2.acknowledged⟩

end VectorActivationRunner

/-! ## Finalize -/

namespace FinalizeReconciliationRunner

variable {self : FinalizeReconciliationRunner} {accessZoneId : Option UUID} {documentId : UUID}
  {documentVersion : Int}

/-- An acknowledged Finalize names the document, and its vector status was observed. -/
def Finalized (documentId : UUID) (documentVersion : Int) (command : FinalizeIngestionCommand)
    (outcome : FinalizeDeliveryOutcome) : Assertion := fun h db =>
  ∀ result, outcome.finalizeResult = some result → result.documentId = documentId ∧
    result.documentVersion = documentVersion ∧ Observed command result outcome.vectorStatus h db

theorem acknowledge_triple (hguar : Lenient token guar) :
    DeliveryTriple token guar (Knows token start m (Acknowledged command result))
      (acknowledge accessZoneId documentId documentVersion result)
      fun outcome => Knows token start m (Finalized documentId documentVersion command outcome) := by
  unfold acknowledge
  refine .bind (Q := fun _ h db => (result.documentId = documentId ∧
    result.documentVersion = documentVersion) ∧ Knows token start m (Acknowledged command result) h db)
    (.ofExcept (fun _ _ _ hv hk =>
      have hsame := validateFinalizeIdentity_matches hv
      ⟨⟨hsame.1, hsame.2.1⟩, hk⟩) fun _ _ _ _ _ => trivial)
    fun _ => ?_
  refine .of_pre (fun _ _ hk => hk.1) fun hsame => .pre (fun _ _ hk => hk.2) ?_
  obtain ⟨rfl, rfl⟩ := hsame
  split
  · exact raise_triple
  · refine .bind (pollVectorStatus_triple hguar (.acknowledged token) fun _ _ hk => hk)
      fun status => ?_
    refine .ret fun _ _ hk => ⟨hk.1, fun r hr => ?_⟩
    rw [← Option.some.inj hr]
    exact ⟨rfl, rfl, hk.2⟩

theorem observeStatus_triple (hguar : Lenient token guar) (hsession : m.session = some session) :
    DeliveryTriple token guar (Knows token start m Anything) (observeStatus session)
      fun _ => Knows token start m Anything := by
  unfold observeStatus
  refine .bind (request_triple (fun _ => Anything) (.anything token)
    (fun h db c _ => hguar.request h _ c db (by simp)) fun _ _ _ _ => trivial) fun status => ?_
  split
  · exact raise_triple
  · exact .bind (recordSessionStatus_triple hguar hsession (.anything token)) fun _ =>
      .ret fun _ _ hk => hk

theorem resolve_triple (hguar : Lenient token guar) {status : IngestionStatus} {statusPolls : Nat}
    {retry poll : DeliveryProg FinalizeDeliveryOutcome}
    (hretry : DeliveryTriple token guar (Knows token start m Anything) retry
      fun outcome => Knows token start m (Finalized documentId documentVersion command outcome))
    (hpoll : DeliveryTriple token guar (Knows token start m Anything) poll
      fun outcome => Knows token start m (Finalized documentId documentVersion command outcome)) :
    DeliveryTriple token guar (Knows token start m Anything)
      (resolve accessZoneId documentId documentVersion status statusPolls retry poll)
      fun outcome => Knows token start m (Finalized documentId documentVersion command outcome) := by
  unfold resolve
  split
  · exact hretry
  · exact hpoll
  · -- a completed session is inspected for its vector status only
    cases accessZoneId with
    | none => exact raise_triple
    | some zone =>
      refine .bind (request_triple (fun _ => Anything) (.anything token)
        (fun h db c _ => hguar.request h _ c db (by simp)) fun _ _ _ _ => trivial) fun status => ?_
      exact .ret fun _ _ hk => ⟨hk.1, fun _ hr => by cases hr⟩
  · exact raise_triple
  · exact raise_triple
  · exact raise_triple
  · exact raise_triple

theorem reconcile_triple (hguar : Lenient token guar) (hsession : m.session = some session)
    {retry : Nat → DeliveryProg FinalizeDeliveryOutcome}
    (hretry : ∀ polls, DeliveryTriple token guar (Knows token start m Anything) (retry polls)
      fun outcome => Knows token start m (Finalized documentId documentVersion command outcome))
    {pollsLeft statusPolls : Nat} {status : IngestionStatus} :
    DeliveryTriple token guar (Knows token start m Anything)
      (self.reconcile session accessZoneId documentId documentVersion retry pollsLeft statusPolls
        status)
      fun outcome => Knows token start m (Finalized documentId documentVersion command outcome) := by
  induction pollsLeft generalizing statusPolls status with
  | zero => exact resolve_triple hguar (hretry _) raise_triple
  | succ pollsLeft ih =>
    refine resolve_triple hguar (hretry _) (.bind (pause_triple hguar (.anything token)) fun _ => ?_)
    exact .bind (observeStatus_triple hguar hsession) fun _ => ih

theorem attemptFinalize_triple (hguar : Lenient token guar)
    (hsession : m.session = some session)
    (hfinalize : ∀ h db c, Ready token start m Anything h db → guar h (.rpc (.finalize command)) c db)
    {attemptsLeft statusPolls : Nat} :
    DeliveryTriple token guar (Knows token start m Anything)
      (self.attemptFinalize session accessZoneId documentId documentVersion command attemptsLeft
        statusPolls)
      fun outcome => Knows token start m (Finalized documentId documentVersion command outcome) := by
  induction attemptsLeft generalizing statusPolls with
  | zero => exact raise_triple
  | succ attemptsLeft ih =>
    unfold attemptFinalize
    refine .bind (tryRequest_triple (r := .finalize command)
      (fun answer => fun h db => ∀ result, answer = .ok result → Acknowledged command result h db)
      (.anything token) hfinalize fun h db a _ result ha => ?_) fun answer => ?_
    · rw [ha]
      exact List.mem_append_right _ (List.mem_singleton_self _)
    split
    · exact (acknowledge_triple hguar).pre fun _ _ hk => ⟨hk.1, hk.2 _ rfl⟩
    · split
      · refine .bind ((observeStatus_triple hguar hsession).pre fun _ _ hk => ⟨hk.1, trivial⟩)
          fun status => ?_
        exact reconcile_triple hguar hsession fun _ => ih
      · exact raise_triple
    · exact raise_triple

theorem finalize_triple (hguar : Lenient token guar) (hsession : m.session = some session)
    {finalContentHash : String} (hfinalize : ∀ h db c, Ready token start m Anything h db →
      guar h (.rpc (.finalize { ingestionSessionId := session, finalContentHash })) c db) :
    DeliveryTriple token guar (Knows token start m Anything)
      (self.finalize session accessZoneId documentId documentVersion finalContentHash)
      fun outcome => Knows token start m (Finalized documentId documentVersion
        { ingestionSessionId := session, finalContentHash } outcome) :=
  .bind (quiet_triple hguar (.anything token) (by simp) (by simp) id) fun _ =>
    attemptFinalize_triple hguar hsession hfinalize

end FinalizeReconciliationRunner

end Runners

end AstraIndexator
