import AstraIndexator.Application.VectorActivation
import AstraIndexator.Foundation.Raises
import AstraIndexator.Foundation.Runs

/-!
# Terminal vector statuses

What a run of the activation does with a status from which the document cannot become
searchable.  A status counts as observed when its record is committed, which is the first
thing both loops do with it.  The readiness loop raises at a terminal status, and the loop
after Activate waits on.
-/

namespace AstraIndexator

open Prog DeliveryProg Transaction

/-! ## Terminal statuses -/

namespace DocumentVectorStatus

def IsTerminal (status : DocumentVectorStatus) : Prop :=
  normalizeOperationState status.rawState ∈ terminalStates

instance (status : DocumentVectorStatus) : Decidable status.IsTerminal :=
  inferInstanceAs (Decidable (_ ∈ _))

/-- A terminal status that is evaluated as one. -/
structure Consistent (status : DocumentVectorStatus) : Prop where
  counters : ∀ n ∈ syncCounters status, 0 ≤ n
  searchable : status.searchable = false
  readyToActivate : status.readyToActivate = false

end DocumentVectorStatus

section Evaluation

variable {status : DocumentVectorStatus} {policy : ActivationReadinessPolicy}

theorem assertNonNegativeSyncCounters_of_nonneg (h : ∀ n ∈ syncCounters status, 0 ≤ n) :
    assertNonNegativeSyncCounters status = .ok () :=
  if_neg fun ⟨n, hn, hlt⟩ => absurd (h n hn) (Int.not_le.mpr hlt)

theorem assertNonNegativeSyncCounters_of_neg (h : ¬ ∀ n ∈ syncCounters status, 0 ≤ n) :
    assertNonNegativeSyncCounters status =
      .error (integrityError "AstraVector readiness counters must be non-negative") := by
  refine if_pos ?_
  by_contra hnone
  exact h fun n hn => Int.not_lt.mp fun hlt => hnone ⟨n, hn, hlt⟩

/-- The states before the terminal ones are no terminal states. -/
theorem not_mem_terminalStates {state : String} (h : state ∈ transitionalStates ∨
    state = "READY_TO_ACTIVATE" ∨ state = "ACTIVE") : state ∉ terminalStates := by
  rcases h with h | rfl | rfl
  · revert h
    simp only [transitionalStates, List.mem_cons, List.not_mem_nil, or_false]
    rintro (rfl | rfl | rfl | rfl | rfl) <;> decide
  · decide
  · decide

/-- A consistent terminal status is evaluated as terminal. -/
theorem evaluateVectorReadiness_terminal (h : status.IsTerminal) (hc : status.Consistent) :
    ∃ decision, evaluateVectorReadiness status policy = .ok decision ∧
      decision.disposition = .terminal := by
  have hterminal : normalizeOperationState status.rawState ∈ terminalStates := h
  unfold evaluateVectorReadiness
  rw [assertNonNegativeSyncCounters_of_nonneg hc.counters]
  dsimp only
  rw [if_neg fun hs => not_mem_terminalStates (.inl hs) hterminal,
    if_neg fun hs => not_mem_terminalStates (.inr (.inl hs)) hterminal,
    if_neg fun hs => not_mem_terminalStates (.inr (.inr hs)) hterminal, if_pos hterminal,
    hc.searchable, hc.readyToActivate]
  exact ⟨_, rfl, rfl⟩

/-- Another terminal status is refused. -/
theorem evaluateVectorReadiness_inconsistent (h : status.IsTerminal) (hc : ¬ status.Consistent) :
    ∃ message, evaluateVectorReadiness status policy =
      .error (.vectorReadinessIntegrityError message) := by
  have hterminal : normalizeOperationState status.rawState ∈ terminalStates := h
  unfold evaluateVectorReadiness
  by_cases hcounters : ∀ n ∈ syncCounters status, 0 ≤ n
  · rw [assertNonNegativeSyncCounters_of_nonneg hcounters]
    dsimp only
    rw [if_neg fun hs => not_mem_terminalStates (.inl hs) hterminal,
      if_neg fun hs => not_mem_terminalStates (.inr (.inl hs)) hterminal,
      if_neg fun hs => not_mem_terminalStates (.inr (.inr hs)) hterminal, if_pos hterminal]
    have hflags : status.searchable = true ∨ status.readyToActivate = true := by
      by_contra hnone
      rw [not_or, Bool.not_eq_true, Bool.not_eq_true] at hnone
      exact hc ⟨hcounters, hnone.1, hnone.2⟩
    rw [if_pos hflags]
    exact ⟨_, rfl⟩
  · rw [assertNonNegativeSyncCounters_of_neg hcounters]
    exact ⟨_, rfl⟩

/-- Only a terminal status is evaluated as terminal. -/
theorem isTerminal_of_disposition {decision : VectorReadinessDecision}
    (h : evaluateVectorReadiness status policy = .ok decision)
    (hd : decision.disposition = .terminal) : status.IsTerminal := by
  unfold evaluateVectorReadiness at h
  simp only [except_bind_ok] at h
  obtain ⟨-, -, h⟩ := h
  split at h
  · rw [except_guard_ok] at h
    obtain ⟨-, h⟩ := h
    cases h
    cases hd
  split at h
  · rw [except_guard_ok] at h
    obtain ⟨-, h⟩ := h
    obtain ⟨_, -, h⟩ := except_bind_ok.mp h
    split at h
    · cases h
      cases hd
    split at h
    · cases h
      cases hd
    · cases h
      cases hd
  split at h
  · rw [except_guard_ok] at h
    obtain ⟨-, h⟩ := h
    obtain ⟨_, -, h⟩ := except_bind_ok.mp h
    cases h
    cases hd
  split at h
  · next hterminal => exact hterminal
  · cases h

/-- The exception the evaluation refuses a status with. -/
def IsRefusal (e : AstraError) : Prop := ∃ message, e = .vectorReadinessIntegrityError message

theorem assertNonNegativeSyncCounters_raises :
    Raises IsRefusal (assertNonNegativeSyncCounters status) := .ite (.error ⟨_, rfl⟩) (.ok _)

theorem assertReadySyncConsistency_raises :
    Raises IsRefusal (assertReadySyncConsistency status) := by
  unfold assertReadySyncConsistency
  refine .guard ⟨_, rfl⟩ (.guard ⟨_, rfl⟩ (.guard ⟨_, rfl⟩ ?_))
  exact .ite (.error ⟨_, rfl⟩) (.ok _)

theorem evaluateVectorReadiness_raises :
    Raises IsRefusal (evaluateVectorReadiness status policy) := by
  unfold evaluateVectorReadiness
  refine .bind assertNonNegativeSyncCounters_raises fun _ =>
    .ite ?_ (.ite ?_ (.ite ?_ (.ite ?_ ?_)))
  · exact .guard ⟨_, rfl⟩ (.ok _)
  · refine .guard ⟨_, rfl⟩ (.bind assertReadySyncConsistency_raises fun _ => ?_)
    exact .ite (.ok _) (.ite (.ok _) (.ok _))
  · exact .guard ⟨_, rfl⟩ (.bind assertReadySyncConsistency_raises fun _ => .ok _)
  · exact .guard ⟨_, rfl⟩ (.ok _)
  · exact .error ⟨_, rfl⟩

end Evaluation

/-! ## The law -/

namespace VectorActivationRunner

/-- The terminal status whose record an event commits. -/
def observedTerminal? : DeliveryEvent → Option DocumentVectorStatus
  | ⟨.transaction (.recordVectorStatus status), .ok _⟩ =>
    if status.IsTerminal then some status else none
  | _ => none

def isActivate : DeliveryEvent → Bool
  | ⟨.rpc (.activateDocumentVersion _), _⟩ => true
  | _ => false

/-- A terminal status is the last thing the run sees, and it raises with it. -/
def StopsAtTerminal {α : Type} (h : List DeliveryEvent) (outcome : Except AstraError α) : Prop :=
  ∀ before ev after status, h = before ++ ev :: after → observedTerminal? ev = some status →
    after = [] ∧ ∃ reason, outcome = .error (.vectorReadinessTerminalError status reason)

/-- A terminal status is seen before Activate only, and it is consistent. -/
def TerminalBeforeActivate (h : List DeliveryEvent) : Prop :=
  ∀ before ev after status, h = before ++ ev :: after → observedTerminal? ev = some status →
    (∀ a ∈ before, isActivate a = false) ∧ status.Consistent

/-! ## Invariants -/

/-- Before Activate, as long as the run goes on. -/
def Waiting (h : List DeliveryEvent) : Prop :=
  ∀ ev ∈ h, observedTerminal? ev = none ∧ isActivate ev = false

/-- No terminal status was seen before Activate. -/
def Activated (h : List DeliveryEvent) : Prop :=
  ∃ early act late, h = early ++ act :: late ∧ isActivate act = true ∧
    ∀ ev ∈ early, observedTerminal? ev = none

/-- The run may end with this outcome. -/
def Ended {α : Type} (outcome : Except AstraError α) (h : List DeliveryEvent) : Prop :=
  StopsAtTerminal h outcome ↔ TerminalBeforeActivate h

section Invariants

variable {α : Type} {h : List DeliveryEvent} {ev : DeliveryEvent} {outcome : Except AstraError α}
  {status : DocumentVectorStatus}

theorem observedTerminal?_of_isActivate (hev : isActivate ev = true) :
    observedTerminal? ev = none := by
  unfold isActivate at hev
  split at hev
  · rfl
  · cases hev

theorem observedTerminal?_record (hterminal : status.IsTerminal) :
    observedTerminal? ⟨.transaction (.recordVectorStatus status), .ok ()⟩ = some status := by
  unfold observedTerminal?
  dsimp only
  rw [if_pos hterminal]

theorem observedTerminal?_record_of_not (hterminal : ¬ status.IsTerminal) :
    observedTerminal? ⟨.transaction (.recordVectorStatus status), .ok ()⟩ = none := by
  unfold observedTerminal?
  dsimp only
  rw [if_neg hterminal]

theorem Waiting.concat (hh : Waiting h) (hterminal : observedTerminal? ev = none)
    (hactivate : isActivate ev = false) : Waiting (h ++ [ev]) :=
  List.forall_mem_append.mpr ⟨hh, List.forall_mem_singleton.mpr ⟨hterminal, hactivate⟩⟩

theorem Waiting.ended (hh : Waiting h) : Ended outcome h := by
  have hnone : ∀ before ev after status, h = before ++ ev :: after →
      observedTerminal? ev ≠ some status := by
    rintro before ev after status rfl hev
    rw [(hh ev (by simp)).1] at hev
    cases hev
  exact ⟨fun _ before ev after status hh hev => absurd hev (hnone before ev after status hh),
    fun _ before ev after status hh hev => absurd hev (hnone before ev after status hh)⟩

/-- A terminal status after a wait ends the run well when it is consistent and raised. -/
theorem Waiting.ended_concat (hh : Waiting h) (hev : observedTerminal? ev = some status)
    (houtcome : (∃ reason, outcome = .error (.vectorReadinessTerminalError status reason)) ↔
      status.Consistent) : Ended outcome (h ++ [ev]) := by
  have hsplit : ∀ before ev' after status', h ++ [ev] = before ++ ev' :: after →
      observedTerminal? ev' = some status' → before = h ∧ after = [] ∧ status' = status := by
    intro before ev' after status' heq hev'
    rcases List.append_eq_append_iff.mp heq with ⟨rest, rfl, hrest⟩ | ⟨rest, rfl, hrest⟩
    · cases rest with
      | nil =>
        obtain ⟨rfl, rfl⟩ := List.cons.inj hrest
        exact ⟨List.append_nil _, rfl, Option.some.inj (hev'.symm.trans hev)⟩
      | cons a rest => exact absurd (congrArg List.length hrest) (by simp)
    · cases rest with
      | nil =>
        obtain ⟨rfl, rfl⟩ := List.cons.inj hrest
        exact ⟨(List.append_nil _).symm, rfl, Option.some.inj (hev'.symm.trans hev)⟩
      | cons a rest =>
        obtain ⟨rfl, -⟩ := List.cons.inj hrest
        rw [(hh ev' (by simp)).1] at hev'
        cases hev'
  constructor
  · intro hstops before ev' after status' heq hev'
    obtain ⟨rfl, rfl, rfl⟩ := hsplit before ev' after status' heq hev'
    exact ⟨fun a ha => (hh a ha).2, houtcome.mp (hstops before ev' [] status' heq hev').2⟩
  · intro hterminal before ev' after status' heq hev'
    obtain ⟨rfl, rfl, rfl⟩ := hsplit before ev' after status' heq hev'
    exact ⟨rfl, houtcome.mpr (hterminal before ev' [] status' heq hev').2⟩

theorem Waiting.activated (hh : Waiting h) (hev : isActivate ev = true) : Activated (h ++ [ev]) :=
  ⟨h, ev, [], rfl, hev, fun a ha => (hh a ha).1⟩

theorem Activated.concat (hh : Activated h) : Activated (h ++ [ev]) := by
  obtain ⟨early, act, late, rfl, hact, hearly⟩ := hh
  exact ⟨early, act, late ++ [ev], by simp, hact, hearly⟩

/-- After Activate, a run that does not raise at its last event meets neither side once it has
seen a terminal status. -/
theorem Activated.ended (hh : Activated h) (hlast : ∀ ev status, h.getLast? = some ev →
    observedTerminal? ev = some status → ∀ reason,
      outcome ≠ .error (.vectorReadinessTerminalError status reason)) : Ended outcome h := by
  constructor
  · rintro hstops before ev after status rfl hev
    obtain ⟨rfl, reason, houtcome⟩ := hstops before ev after status rfl hev
    exact absurd houtcome (hlast ev status List.getLast?_concat hev reason)
  · intro hterminal before ev after status heq hev
    obtain ⟨early, act, late, rfl, hact, hearly⟩ := hh
    have hbefore := (hterminal before ev after status heq hev).1
    have hne : ev ≠ act := by
      rintro rfl
      rw [observedTerminal?_of_isActivate hact] at hev
      cases hev
    rcases List.append_eq_append_iff.mp heq with ⟨rest, rfl, hrest⟩ | ⟨rest, rfl, hrest⟩
    · cases rest with
      | nil => exact absurd (List.cons.inj hrest).1.symm hne
      | cons a rest =>
        obtain ⟨rfl, -⟩ := List.cons.inj hrest
        rw [hbefore act (by simp)] at hact
        cases hact
    · cases rest with
      | nil => exact absurd (List.cons.inj hrest).1 hne
      | cons a rest =>
        obtain ⟨rfl, -⟩ := List.cons.inj hrest
        rw [hearly ev (by simp)] at hev
        cases hev

end Invariants

/-! ## Triples -/

/-- After events with `P`, the program returns after events with `Q` or raises where the run
may end. -/
abbrev WaitTriple {α : Type} (P : List DeliveryEvent → Prop) (p : DeliveryProg α)
    (Q : α → List DeliveryEvent → Prop) : Prop :=
  TraceTriple some (fun e h => Ended (.error e : Except AstraError VectorActivationOutcome) h) P p Q

section Triples

variable {α : Type} {op : DeliveryOp}

theorem waiting_call (hterminal : ∀ r, observedTerminal? ⟨op, r⟩ = none)
    (hactivate : ∀ r, isActivate ⟨op, r⟩ = false) :
    WaitTriple Waiting (Prog.call op) fun _ => Waiting :=
  .call (fun r => ⟨op, r⟩) (fun _ => rfl)
    (fun _ _ hl => hl.concat (hterminal _) (hactivate _))
    fun _ _ hl => (hl.concat (hterminal _) (hactivate _)).ended

theorem waiting_sleep {seconds : Rat} :
    WaitTriple Waiting (sleepIfPositive seconds) fun _ => Waiting := by
  unfold sleepIfPositive
  split
  · exact .ret fun _ hl => hl
  · exact waiting_call (fun _ => rfl) fun _ => rfl

/-- After Activate an exception of an operation that shows no terminal status ends the run. -/
theorem activated_call (hok : ∀ e, observedTerminal? ⟨op, .error e⟩ = none) :
    WaitTriple Activated (Prog.call op) fun _ => Activated := by
  refine .call (fun r => ⟨op, r⟩) (fun _ => rfl) (fun _ _ hl => hl.concat)
    fun _ e hl => hl.concat.ended fun ev status hlast hev => ?_
  rw [List.getLast?_concat] at hlast
  cases hlast
  rw [hok e] at hev
  cases hev

theorem activated_sleep {seconds : Rat} :
    WaitTriple Activated (sleepIfPositive seconds) fun _ => Activated := by
  unfold sleepIfPositive
  split
  · exact .ret fun _ hl => hl
  · exact activated_call fun _ => rfl

/-- After Activate any exception but that of a terminal status ends the run. -/
theorem activated_raise {e : AstraError} {Q : α → List DeliveryEvent → Prop}
    (he : ∀ status reason, e ≠ .vectorReadinessTerminalError status reason) :
    WaitTriple Activated (DeliveryProg.raise e) Q :=
  .raise fun _ hl => hl.ended fun _ status _ _ reason houtcome =>
    he status reason (Except.error.inj houtcome)

end Triples

/-! ## Before Activate -/

section Readiness

variable {runner : VectorReadinessRunner} {accessZoneId documentId session : UUID}
  {documentVersion : Int}

/-- The evaluation of a status that was just recorded. -/
theorem evaluate_waits {status : DocumentVectorStatus} {α : Type}
    {f : VectorReadinessDecision → DeliveryProg α} {Q : α → List DeliveryEvent → Prop}
    (hterminal : status.IsTerminal → status.Consistent → ∀ decision : VectorReadinessDecision,
      decision.disposition = .terminal → f decision =
        DeliveryProg.raise (.vectorReadinessTerminalError status decision.reason))
    (hother : ¬ status.IsTerminal → ∀ decision : VectorReadinessDecision,
      decision.disposition ≠ .terminal → WaitTriple Waiting (f decision) Q)
    {policy : ActivationReadinessPolicy} :
    WaitTriple (fun l => ∃ l₀, Waiting l₀ ∧
        l = l₀ ++ [⟨.transaction (.recordVectorStatus status), .ok ()⟩])
      (Prog.ofExcept (evaluateVectorReadiness status policy) >>= f) Q := by
  cases hresult : evaluateVectorReadiness status policy with
  | error e =>
    refine TraceTriple.raise fun l hl => ?_
    obtain ⟨l₀, hl₀, rfl⟩ := hl
    by_cases hstate : status.IsTerminal
    · refine hl₀.ended_concat (observedTerminal?_record hstate) (iff_of_false ?_ ?_)
      · rintro ⟨reason, he⟩
        obtain ⟨message, rfl⟩ := evaluateVectorReadiness_raises e hresult
        cases he
      · intro hconsistent
        obtain ⟨decision, hdecision, -⟩ :=
          @evaluateVectorReadiness_terminal status policy hstate hconsistent
        cases hresult.symm.trans hdecision
    · exact (hl₀.concat (observedTerminal?_record_of_not hstate) rfl).ended
  | ok decision =>
    show WaitTriple _ (f decision) Q
    by_cases hd : decision.disposition = .terminal
    · have hstate : status.IsTerminal := isTerminal_of_disposition hresult hd
      have hconsistent : status.Consistent := by
        by_contra hinconsistent
        obtain ⟨message, herror⟩ :=
          @evaluateVectorReadiness_inconsistent status policy hstate hinconsistent
        cases hresult.symm.trans herror
      rw [hterminal hstate hconsistent decision hd]
      refine TraceTriple.raise fun l hl => ?_
      obtain ⟨l₀, hl₀, rfl⟩ := hl
      exact hl₀.ended_concat (observedTerminal?_record hstate)
        (iff_of_true ⟨decision.reason, rfl⟩ hconsistent)
    · have hstate : ¬ status.IsTerminal := by
        intro hstate
        by_cases hconsistent : status.Consistent
        · obtain ⟨decision', hdecision, hd'⟩ :=
            @evaluateVectorReadiness_terminal status policy hstate hconsistent
          cases hresult.symm.trans hdecision
          exact hd hd'
        · obtain ⟨message, herror⟩ :=
            @evaluateVectorReadiness_inconsistent status policy hstate hconsistent
          cases hresult.symm.trans herror
      refine .pre (fun l hl => ?_) (hother hstate decision hd)
      obtain ⟨l₀, hl₀, rfl⟩ := hl
      exact hl₀.concat (observedTerminal?_record_of_not hstate) rfl

/-- A round of the readiness loop. -/
theorem judge_waits {status : DocumentVectorStatus} {polls : Nat}
    {again : DeliveryProg VectorReadinessOutcome}
    (hagain : WaitTriple Waiting again fun _ => Waiting) :
    WaitTriple Waiting (runner.judge status polls again) fun _ => Waiting := by
  unfold VectorReadinessRunner.judge
  refine .bind (Q := fun _ l => ∃ l₀, Waiting l₀ ∧
      l = l₀ ++ [⟨.transaction (.recordVectorStatus status), .ok ()⟩])
    (.call (fun r => ⟨.transaction (.recordVectorStatus status), r⟩) (fun _ => rfl)
      (fun l _ hl => ⟨l, hl, rfl⟩) fun l e hl => (hl.concat rfl rfl).ended) fun _ => ?_
  refine evaluate_waits (fun _ _ decision hd => ?_) fun _ decision hd => ?_
  · rw [hd]
  · cases hdisposition : decision.disposition with
    | searchable => exact .ret fun _ hl => hl
    | readyToActivate => exact .ret fun _ hl => hl
    | terminal => exact absurd hdisposition hd
    | wait => exact hagain

theorem observe_waits {pollsLeft polls : Nat} {status : DocumentVectorStatus} :
    WaitTriple Waiting
      (runner.observe accessZoneId documentId documentVersion pollsLeft polls status)
      fun _ => Waiting := by
  induction pollsLeft generalizing polls status with
  | zero => exact judge_waits (.raise fun _ hl => hl.ended)
  | succ pollsLeft ih =>
    refine judge_waits (.bind waiting_sleep fun _ => ?_)
    exact .bind (waiting_call (fun _ => rfl) fun _ => rfl) fun status => ih

theorem waitUntilReady_waits {status : DocumentVectorStatus} :
    WaitTriple Waiting
      (runner.waitUntilReady accessZoneId documentId documentVersion session (some status))
      fun _ => Waiting :=
  .bind (waiting_call (fun _ => rfl) fun _ => rfl) fun _ => observe_waits

end Readiness

/-! ## After Activate -/

section Activation

variable {self : VectorActivationRunner} {accessZoneId documentId session : UUID}
  {documentVersion : Int}

theorem waitForActive_activated {pollsLeft polls : Nat}
    {status last : Option DocumentVectorStatus} :
    WaitTriple Activated
      (self.waitForActive accessZoneId documentId documentVersion pollsLeft polls status last)
      fun _ l => ∀ a : VectorActivationOutcome, Ended (.ok a) l := by
  induction pollsLeft generalizing polls status last with
  | zero =>
    cases last with
    | none => exact activated_raise fun _ _ h => by cases h
    | some last => exact activated_raise fun _ _ h => by cases h
  | succ pollsLeft ih =>
    unfold waitForActive
    refine .bind (activated_call fun _ => rfl) fun _ => ?_
    refine .bind (Q := fun _ => Activated) ?_ fun status => ?_
    · cases status with
      | none => exact activated_call fun _ => rfl
      | some status => exact .ret fun _ hl => hl
    refine .bind (activated_call fun _ => rfl) fun _ => ?_
    refine .bind (Q := fun _ => Activated) (.ofExcept (fun _ _ _ hl => hl) fun e l he hl => ?_)
      fun decision => ?_
    · obtain ⟨message, rfl⟩ := evaluateVectorReadiness_raises e he
      exact hl.ended fun _ _ _ _ _ h => by cases h
    split
    · exact .ret fun l hl a => hl.ended fun _ _ _ _ _ h => by cases h
    · exact .bind activated_sleep fun _ => ih

theorem activate_waits :
    WaitTriple Waiting (self.activate accessZoneId documentId documentVersion)
      fun outcome => Ended (.ok outcome) := by
  unfold activate
  refine .bind (waiting_call (fun _ => rfl) fun _ => rfl) fun _ => ?_
  refine .bind (Q := fun _ l => Activated l ∧ ∀ ev, l.getLast? = some ev → isActivate ev = true)
    (.attempt (fun r => ⟨.rpc (.activateDocumentVersion _), r⟩) (fun _ => rfl)
      fun l r hl => ⟨hl.activated rfl, fun ev hlast => ?_⟩) fun answer => ?_
  · rw [List.getLast?_concat] at hlast
    cases hlast
    rfl
  split
  · refine .pre (fun _ hl => hl.1) (.bind (activated_call fun _ => rfl) fun _ => ?_)
    exact .bind waitForActive_activated fun active => .ret fun l hl => hl _
  · refine .pre (fun _ hl => hl.1) (.bind (activated_call fun _ => rfl) fun status => ?_)
    exact .bind waitForActive_activated fun active => .ret fun l hl => hl _
  · -- an exception of Activate that is no transport error is let through
    refine .raise fun l hl => hl.1.ended fun ev status hlast hev => ?_
    rw [observedTerminal?_of_isActivate (hl.2 ev hlast)] at hev
    cases hev

theorem activateUntilSearchable_waits {status : DocumentVectorStatus} :
    WaitTriple Waiting
      (self.activateUntilSearchable accessZoneId documentId documentVersion session status)
      fun outcome => Ended (.ok outcome) := by
  unfold activateUntilSearchable
  refine .bind waitUntilReady_waits fun ready => ?_
  split
  · exact .ret fun l hl => hl.ended
  split
  · exact .raise fun l hl => hl.ended
  · exact activate_waits

end Activation

/-! ## Every run -/

/-- A run raises at every terminal status it observes, and goes no further, exactly when it
observes them before Activate only and they are consistent. -/
theorem stopsAtTerminal_iff (self : VectorActivationRunner)
    (env : Environment DeliveryOp DeliveryOp.Result AstraError)
    (accessZoneId documentId session : UUID) (documentVersion : Int)
    (initialStatus : DocumentVectorStatus) :
    let run := (self.activateUntilSearchable accessZoneId documentId documentVersion session
      initialStatus).run env []
    StopsAtTerminal run.1 run.2 ↔ TerminalBeforeActivate run.1 := by
  intro run
  have hrun := (@activateUntilSearchable_waits self accessZoneId documentId session documentVersion
    initialStatus).run env (fun _ h => by cases h)
  rw [List.filterMap_some] at hrun
  split at hrun
  · next outcome hr =>
    rw [show run.2 = .ok outcome from hr]
    exact hrun
  · next e hr =>
    rw [show run.2 = .error e from hr]
    exact hrun

/-- A status in one of the states, with no counters and no flags. -/
def plainStatus (rawState : String) : DocumentVectorStatus :=
  { rawState, searchable := false, readyToActivate := false }

def isStatusPoll : DeliveryEvent → Bool
  | ⟨.rpc (.getDocumentVectorStatus _ _ _), _⟩ => true
  | _ => false

/-- The first poll reports the version as FAILED, and every later one as ACTIVE. -/
def failsOnce : Environment DeliveryOp DeliveryOp.Result AstraError := fun h op =>
  match op with
  | .transaction (.assertCheckpointSession _ _ _) => .ok ()
  | .transaction (.recordVectorStatus _) => .ok ()
  | .transaction .assertOwned => .ok ()
  | .transaction _ => .error (.runtimeError "")
  | .rpc (.activateDocumentVersion command) =>
    .ok ⟨command.documentId, command.documentVersion, "ACTIVATING"⟩
  | .rpc (.getDocumentVectorStatus _ _ _) =>
    .ok (if h.any isStatusPoll then { plainStatus "ACTIVE" with searchable := true }
      else plainStatus "FAILED")
  | .rpc _ => .error (.runtimeError "")
  | .sleep _ => .ok ()

/-- A version that failed after Activate is polled again and returned as searchable. -/
theorem not_stopsAtTerminal_failed :
    let run := (VectorActivationRunner.activateUntilSearchable {} 0 0 1 0
      { plainStatus "READY_TO_ACTIVATE" with readyToActivate := true }).run failsOnce []
    run.2.isOk = true ∧ ¬ StopsAtTerminal run.1 run.2 := by
  intro run
  have hok : run.2.isOk = true := by decide +kernel
  have hseen : run.1.any (fun ev => (observedTerminal? ev).isSome) = true := by decide +kernel
  refine ⟨hok, fun hstops => ?_⟩
  obtain ⟨outcome, houtcome⟩ := except_isOk.mp hok
  obtain ⟨ev, hev, hsome⟩ := List.any_eq_true.mp hseen
  obtain ⟨status, hstatus⟩ := Option.isSome_iff_exists.mp hsome
  obtain ⟨before, after, hsplit⟩ := List.append_of_mem hev
  obtain ⟨-, reason, hraised⟩ := hstops before ev after status hsplit hstatus
  cases houtcome.symm.trans hraised

end VectorActivationRunner

end AstraIndexator
