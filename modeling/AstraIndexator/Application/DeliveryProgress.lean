import AstraIndexator.Application.DeliverySystem

/-!
# What a delivery knows

A worker forgets nothing it has written: a session, a hash, a zone or an accepted
batch stays in the rows whatever the others do.  The append position is the one fact
that lasts only as long as the lease.  `Reached` collects what a delivery has
established so far, and the rules below carry it over one operation.
-/

namespace AstraIndexator

open Transaction DeliveryRows Prog

/-! ## Facts about the rows -/

namespace DeliveryRows

def session (d : DeliveryRows) : Option UUID := d.checkpoint.bind (·.ingestionSessionId)

def finalHash (d : DeliveryRows) : Option String := d.checkpoint.bind (·.finalContentHash)

def zone (d : DeliveryRows) : Option UUID := d.checkpoint.bind (·.resolvedAccessZoneId)

/-- The batch is ACCEPTED with its hash. -/
def Holds (d : DeliveryRows) (batch : PlannedDeliveryBatch) : Prop :=
  ∃ row, d.batch batch.batchIndex = some row ∧ row.status = .accepted ∧
    row.batchContentHash = batch.batchContentHash

variable {d d' : DeliveryRows}

theorem Progress.column {α : Type} (h : d.Progress d') (f : DeliveryCheckpoint → Option α)
    (hf : ∀ c c' : DeliveryCheckpoint, c.Keeps c' → KeepsValue (f c) (f c')) :
    KeepsValue (d.checkpoint.bind f) (d'.checkpoint.bind f) := by
  intro a ha
  obtain ⟨c, hc, hfc⟩ := Option.bind_eq_some_iff.mp ha
  obtain ⟨c', hc', -, hkeeps⟩ := h.checkpoint c hc
  rw [hc']
  exact hf c c' hkeeps a hfc

theorem Progress.session (h : d.Progress d') : KeepsValue d.session d'.session :=
  h.column _ fun _ _ hk => hk.session

theorem Progress.finalHash (h : d.Progress d') : KeepsValue d.finalHash d'.finalHash :=
  h.column _ fun _ _ hk => hk.finalHash

theorem Progress.zone (h : d.Progress d') : KeepsValue d.zone d'.zone :=
  h.column _ fun _ _ hk => hk.zone

theorem Progress.holds (h : d.Progress d') {batch : PlannedDeliveryBatch} (hb : d.Holds batch) :
    d'.Holds batch := by
  obtain ⟨row, hrow, hst, hhash⟩ := hb
  obtain ⟨row', hrow', -, hsame⟩ := h.batch _ row hrow
  obtain rfl := hsame hst
  exact ⟨row', hrow', hst, hhash⟩

theorem Progress.acceptedAt (h : d.Progress d') {i : Nat} (hi : d.AcceptedAt i) :
    d'.AcceptedAt i := by
  obtain ⟨row, hrow, hst⟩ := hi
  obtain ⟨row', hrow', -, hsame⟩ := h.batch i row hrow
  obtain rfl := hsame hst
  exact ⟨row', hrow', hst⟩

/-- A stored row is the row of the batch when its hash says so. -/
theorem Hashed.hash_eq (h : d.Hashed) {batch : PlannedDeliveryBatch} {row : DeliveryBatch}
    {hash : String} (hrow : d.batch batch.batchIndex = some row)
    (hbatch : IsSha256Hex batch.batchContentHash)
    (hnorm : normalizeSha256Hex batch.batchContentHash = .ok hash)
    (hsame : DeliveryBatchRepository.SameBatch row batch hash) :
    row.batchContentHash = batch.batchContentHash := by
  have hstored := hsame.hash
  rw [normalizeSha256Hex_of_isSha256Hex (h _ row hrow)] at hstored
  rw [normalizeSha256Hex_of_isSha256Hex hbatch] at hnorm
  exact Except.ok.inj (hstored.trans hnorm.symm)

end DeliveryRows

/-! ## Milestones -/

/-- What a delivery has established so far. -/
structure Milestones where
  session : Option UUID := none
  accepted : List PlannedDeliveryBatch := []
  finalHash : Option String := none
  zone : Option UUID := none

/-- The rows of the job carry the milestones.  While the lease is current, the append
position is the one the delivery found at its start, or lies behind its own batches. -/
structure Reached (token : LeaseToken) (start : Database) (m : Milestones) (db : Database) :
    Prop where
  steps : Steps (start.delivery token.jobId) (db.delivery token.jobId)
  session : KeepsValue m.session (db.delivery token.jobId).session
  accepted : ∀ batch ∈ m.accepted, (db.delivery token.jobId).Holds batch
  finalHash : KeepsValue m.finalHash (db.delivery token.jobId).finalHash
  zone : KeepsValue m.zone (db.delivery token.jobId).zone
  position : db.Current token → (db.delivery token.jobId).position =
    max (start.delivery token.jobId).position m.accepted.length

namespace Reached

variable {token : LeaseToken} {start db db' : Database} {m : Milestones}

theorem initial (token : LeaseToken) (start : Database) : Reached token start {} start where
  steps := .refl
  session _ h := by cases h
  accepted _ h := by cases h
  finalHash _ h := by cases h
  zone _ h := by cases h
  position _ := (Nat.max_eq_left (Nat.zero_le _)).symm

theorem rely (h : Reached token start m db) (hr : LeaseRely token db db') :
    Reached token start m db' where
  steps := h.steps.trans hr.steps
  session := h.session.trans hr.steps.progress.session
  accepted batch hb := hr.steps.progress.holds (h.accepted batch hb)
  finalHash := h.finalHash.trans hr.steps.progress.finalHash
  zone := h.zone.trans hr.steps.progress.zone
  position hc := (hr.position hc).trans (h.position (hr.current hc))

end Reached

/-! ## Rules -/

/-- A worker keeps what it relies on itself, but for the acknowledgement of a batch. -/
theorem DeliveryTx.run_rely {token : LeaseToken} {x : DeliveryTx} {a : x.Result}
    {db db' : Database} {t : Clock} (hx : exec (x.run token) t db = .ok (a, db'))
    (hdb : db.Coherent) (hi : db.Issued token) (hquiet : ∀ batch raw, x ≠ .markAccepted batch raw) :
    LeaseRely token db db' := by
  obtain ⟨-, heff⟩ := run_effect hx
  cases heff with
  | quiet heff => exact .quiet heff
  | accept batch raw => exact absurd rfl (hquiet batch raw)
  | advance stage heff => exact .job hdb hi heff
  | complete heff => exact .job hdb hi heff

/-- What an operation has to satisfy after some events. -/
abbrev Guarantee : Type :=
  List DeliveryEvent → (op : DeliveryOp) → op.Choice → Database → Prop

/-- A condition on the events a worker has seen and on the state. -/
abbrev Assertion : Type := List DeliveryEvent → Database → Prop

/-- The setting of one worker in a delivery system. -/
def deliverySetting (token : LeaseToken) (guar : Guarantee) :
    Setting DeliveryOp DeliveryOp.Result AstraError Database DeliveryOp.Choice where
  exec := DeliveryOp.exec token
  rely db db' := db'.Coherent ∧ db'.Issued token ∧ LeaseRely token db db'
  guar := guar

/-- A condition that neither later events nor the progress of the job destroy. -/
structure Lasting (token : LeaseToken) (H : Assertion) : Prop where
  event : ∀ h ev db, H h db → H (h ++ [ev]) db
  progress : ∀ h db db', (db.delivery token.jobId).Progress (db'.delivery token.jobId) →
    H h db → H h db'

/-- The worker knows the milestones, and `H`. -/
def Knows (token : LeaseToken) (start : Database) (m : Milestones) (H : Assertion) : Assertion :=
  fun h db => Reached token start m db ∧ H h db

/-- The same where an operation is performed, in a state that keeps the bookkeeping. -/
structure Ready (token : LeaseToken) (start : Database) (m : Milestones) (H : Assertion)
    (h : List DeliveryEvent) (db : Database) : Prop where
  coherent : db.Coherent
  issued : db.Issued token
  reached : Reached token start m db
  holds : H h db

/-- A worker that may raise anything.  The triples below are about what it does. -/
abbrev DeliveryTriple {α : Type} (token : LeaseToken) (guar : Guarantee) (P : Assertion)
    (p : DeliveryProg α) (Q : α → Assertion) : Prop :=
  Triple (deliverySetting token guar) (fun _ _ _ => True) P p Q

section Rules

variable {token : LeaseToken} {start : Database} {m : Milestones} {guar : Guarantee}
  {H : Assertion}

theorem Knows.ready (hH : Lasting token H) {h : List DeliveryEvent} {db db' : Database}
    (hk : Knows token start m H h db) (hr : (deliverySetting token guar).rely db db') :
    Ready token start m H h db' :=
  ⟨hr.1, hr.2.1, hk.1.rely hr.2.2, hH.progress _ _ _ hr.2.2.steps.progress hk.2⟩

open DeliveryProg

/-- A transaction, with what its result says. -/
theorem transact_triple {x : DeliveryTx} (Q : x.Result → Assertion) (hH : Lasting token H)
    (hguar : ∀ h db c, Ready token start m H h db → guar h (.transaction x) c db)
    (hok : ∀ h db c a db', Ready token start m H h db → exec (x.run token) c db = .ok (a, db') →
      Q a (h ++ [⟨.transaction x, .ok a⟩]) db') :
    DeliveryTriple token guar (Knows token start m H) (transact x) Q := by
  refine .call (Ready token start m H) (fun _ _ _ hk hr => hk.ready hH hr) hguar
    (fun h db c a hready hanswer => ?_) fun _ _ _ _ _ _ => trivial
  obtain ⟨a', db', hx, hc⟩ | ⟨e, -, hc⟩ := commit_cases (x.run token) c db
  · have hexec : DeliveryOp.exec token (.transaction x) c db = (.ok a', db') := hc
    simp only [deliverySetting, hexec, Except.ok.injEq] at hanswer ⊢
    rw [← hanswer]
    exact hok h db c a' db' hready hx
  · have hexec : DeliveryOp.exec token (.transaction x) c db = (Except.error e, db) := hc
    simp only [deliverySetting, hexec] at hanswer
    cases hanswer

/-- A transaction that adds no milestone. -/
theorem transact_keeps {x : DeliveryTx} (hH : Lasting token H)
    (hquiet : ∀ batch raw, x ≠ .markAccepted batch raw)
    (hguar : ∀ h db c, Ready token start m H h db → guar h (.transaction x) c db) :
    DeliveryTriple token guar (Knows token start m H) (transact x)
      fun _ => Knows token start m H := by
  refine transact_triple _ hH hguar fun h db c a db' hready hx => ?_
  have hrely := DeliveryTx.run_rely hx hready.coherent hready.issued hquiet
  exact ⟨hready.reached.rely hrely,
    hH.event _ _ _ (hH.progress _ _ _ hrely.steps.progress hready.holds)⟩

/-- A request. -/
theorem request_triple {r : Rpc} (H' : r.Result → Assertion) (hH : Lasting token H)
    (hguar : ∀ h db c, Ready token start m H h db → guar h (.rpc r) c db)
    (hok : ∀ h db a, H h db → H' a (h ++ [⟨.rpc r, .ok a⟩]) db) :
    DeliveryTriple token guar (Knows token start m H) (request r)
      fun a => Knows token start m (H' a) :=
  .call (Ready token start m H) (fun _ _ _ hk hr => hk.ready hH hr) hguar
    (fun h db _ a hready _ => ⟨hready.reached, hok h db a hready.holds⟩) fun _ _ _ _ _ _ => trivial

/-- A request in a `try` block. -/
theorem tryRequest_triple {r : Rpc} (H' : Except AstraError r.Result → Assertion)
    (hH : Lasting token H)
    (hguar : ∀ h db c, Ready token start m H h db → guar h (.rpc r) c db)
    (hanswer : ∀ h db a, H h db → H' a (h ++ [⟨.rpc r, a⟩]) db) :
    DeliveryTriple token guar (Knows token start m H) (tryRequest r)
      fun a => Knows token start m (H' a) :=
  .attempt (Ready token start m H) (fun _ _ _ hk hr => hk.ready hH hr) hguar
    fun h db c hready => ⟨hready.reached, hanswer h db c hready.holds⟩

theorem sleepIfPositive_triple {seconds : Rat} (hH : Lasting token H)
    (hguar : ∀ h db c, Ready token start m H h db → guar h (.sleep seconds) c db) :
    DeliveryTriple token guar (Knows token start m H) (sleepIfPositive seconds)
      fun _ => Knows token start m H := by
  unfold sleepIfPositive
  split
  · exact .ret fun _ _ hk => hk
  · exact .call (Ready token start m H) (fun _ _ _ hk hr => hk.ready hH hr) hguar
      (fun h db _ _ hready _ => ⟨hready.reached, hH.event _ _ _ hready.holds⟩)
      fun _ _ _ _ _ _ => trivial

theorem raise_triple {α : Type} {e : AstraError} {P : Assertion} {Q : α → Assertion} :
    DeliveryTriple token guar P (DeliveryProg.raise e : DeliveryProg α) Q :=
  .raise fun _ _ _ => trivial

end Rules

/-! ## Runs -/

/-- The empty assertion. -/
def Anything : Assertion := fun _ _ => True

theorem Lasting.anything (token : LeaseToken) : Lasting token Anything :=
  ⟨fun _ _ _ _ => trivial, fun _ _ _ _ _ => trivial⟩

section Runs

variable {Input α : Type} {program : Input → DeliveryProg α} {db : Database}
  {w : (deliverySystem program).World}

/-- Every operation of every run meets the duty of its worker, if the program of the worker
meets it from the state it starts in. -/
theorem delivery_sound (duty : LeaseToken → Input → Database → Guarantee)
    (hprogram : ∀ token input start, start.Coherent →
      DeliveryTriple token (duty token input start) (Knows token start {} Anything) (program input)
        fun _ => Anything)
    (hdb : db.Coherent) (hreach : System.Reaches (System.World.initial _ db) w) :
    ∀ e ∈ w.log, duty e.tid e.input e.start e.history e.op e.choice e.before := by
  have hsound : System.Sound Database.Coherent (fun token db => db.Issued token) LeaseRely duty
      (fun _ _ _ => outcome (fun _ => Anything) fun _ => Anything) w := by
    refine System.sound _ _ (delivery_discipline program) (fun token input start hstart _ => ?_) hdb
      hreach
    exact hprogram token input start hstart [] start ⟨.initial token start, trivial⟩
  exact hsound.log

/-- When the transaction of an operation ran. -/
def DeliveryOp.clock? : (op : DeliveryOp) → op.Choice → Option Clock
  | .transaction _, t => some t
  | .rpc _, _ => none
  | .sleep _, _ => none

/-- A transaction that was answered with a result was committed. -/
theorem exec_of_event {e : (deliverySystem program).Entry} {x : DeliveryTx} {a : x.Result}
    (h : e.event = ⟨.transaction x, .ok a⟩) : e.op = .transaction x ∧ ∃ t : Clock,
      e.op.clock? e.choice = some t ∧ exec (x.run e.tid) t e.before = .ok (a, e.after) := by
  obtain ⟨tid, input, start, history, op, choice, before⟩ := e
  obtain ⟨rfl, hanswer⟩ := Event.mk.inj h
  refine ⟨rfl, choice, rfl, ?_⟩
  have hanswer := eq_of_heq hanswer
  obtain ⟨a', db', hx, hc⟩ | ⟨e, -, hc⟩ := commit_cases (x.run tid) choice before
  · simp only [System.Entry.answer, DeliveryOp.exec, hc, Except.ok.injEq] at hanswer
    simp only [System.Entry.after, DeliveryOp.exec, hc]
    rw [← hanswer]
    exact hx
  · simp only [System.Entry.answer, DeliveryOp.exec, hc] at hanswer
    cases hanswer

/-- An operation leaves the database alone or commits a transaction. -/
theorem entry_cases (e : (deliverySystem program).Entry) : e.after = e.before ∨
    ∃ (x : DeliveryTx) (a : x.Result) (t : Clock), e.event = ⟨.transaction x, .ok a⟩ ∧
      e.op.clock? e.choice = some t ∧ exec (x.run e.tid) t e.before = .ok (a, e.after) := by
  obtain ⟨tid, input, start, history, op, choice, before⟩ := e
  cases op with
  | rpc r => exact .inl rfl
  | sleep seconds => exact .inl rfl
  | transaction x =>
    obtain ⟨a, db', hx, hc⟩ | ⟨e, -, hc⟩ := commit_cases (x.run tid) choice before
    · refine .inr ⟨x, a, choice, ?_, rfl, ?_⟩
      · simp only [System.Entry.event, System.Entry.answer, DeliveryOp.exec, hc]
      · simpa only [System.Entry.after, DeliveryOp.exec, hc] using hx
    · left
      simp only [System.Entry.after, DeliveryOp.exec, hc]

/-- The transaction a worker got an answer from is in the log before what it does next. -/
theorem transaction_logged (hreach : System.Reaches (System.World.initial _ db) w)
    {l₁ l₂ : List (deliverySystem program).Entry} {e : (deliverySystem program).Entry}
    (hlog : w.log = l₁ ++ e :: l₂) {x : DeliveryTx} {a : x.Result}
    (h : (⟨.transaction x, .ok a⟩ : DeliveryEvent) ∈ e.history) :
    ∃ e' ∈ l₁, ∃ t : Clock, e'.tid = e.tid ∧ e'.op = .transaction x ∧
      e'.op.clock? e'.choice = some t ∧ exec (x.run e.tid) t e'.before = .ok (a, e'.after) := by
  obtain ⟨h₁, h₂, hsplit⟩ := List.append_of_mem h
  obtain ⟨e', he', htid, -, -, -, hevent⟩ := System.history_logged hreach hlog hsplit
  obtain ⟨hop, t, hclock, hx⟩ := exec_of_event hevent
  rw [htid] at hx
  exact ⟨e', he', t, htid, hop, hclock, hx⟩

end Runs

end AstraIndexator
