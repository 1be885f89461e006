import AstraIndexator.Application.DeliveryExecution

/-!
# Worker loop

A worker claims one job after the other, asks the payload provider for its input and
runs the executor.  What the provider raises goes to the failure handler, what the
executor raises stops the loop.  The loop is given by the number of turns it is
followed for, so a loop that runs for ever is all its finite beginnings.
-/

namespace AstraIndexator

open Transaction Text

/-- The configuration a worker runs with, as `RuntimeConfig` checks it. -/
structure RuntimeWorker where
  workerId : String
  leaseSeconds : Int := 120
  pollIntervalSeconds : Rat := 1
  maxIterations : Option Nat := none
  workerId_notBlank : isBlank workerId = false
  leaseSeconds_pos : 0 < leaseSeconds

/-! ## Sleeping -/

/-- The two readings of the monotonic clock in one round of `_sleep`: the one that is
tested against the deadline, and the one the length of the sleep is computed from. -/
structure SleepRound where
  requested : Bool
  tested : Rat
  read : Rat

/-- The readings of one call of `_sleep`. -/
structure SleepReadings where
  start : Rat
  rounds : List SleepRound

/-- The rounds of `_sleep`.  `time.sleep` refuses a negative length. -/
def sleepUntil (deadline : Rat) : List SleepRound → Except AstraError Unit
  | [] => .ok ()
  | r :: rounds =>
    if r.requested = true ∨ deadline ≤ r.tested then .ok ()
    else if min (1 / 10) (deadline - r.read) < 0 then
      .error (.valueError .valueError "sleep length must be non-negative")
    else sleepUntil deadline rounds

/-- `_sleep`. -/
def RuntimeWorker.sleep (pollIntervalSeconds : Rat) (readings : SleepReadings) :
    Except AstraError Unit :=
  sleepUntil (readings.start + pollIntervalSeconds) readings.rounds

/-! ## Operations -/

inductive WorkerOp
  | shutdownRequested
  | claimNext (workerId : String) (leaseSeconds : Int)
  | payloadFor (claimed : ClaimedJob)
  | payloadFailure (claimed : ClaimedJob) (exc : AstraError)
  | execution (token : LeaseToken) (op : ExecutionOp)
  | sleep (pollIntervalSeconds : Rat)

/-- The surroundings of a claim: its clock, the rows others hold locked and the fresh
identifier of the attempt. -/
structure ClaimChoice where
  clock : Clock
  locked : UUID → Bool
  attemptId : UUID

namespace WorkerOp

abbrev Result : WorkerOp → Type
  | shutdownRequested => Bool
  | claimNext _ _ => Option ClaimedJob
  | payloadFor _ => AstraVectorDeliveryInput
  | payloadFailure _ _ => FailureDecision
  | execution _ op => op.Result
  | sleep _ => Unit

abbrev Choice : WorkerOp → Type
  | shutdownRequested => Bool
  | claimNext _ _ => ClaimChoice
  | payloadFor _ => Except AstraError AstraVectorDeliveryInput
  | payloadFailure _ _ => Clock
  | execution _ op => op.Choice
  | sleep _ => SleepReadings

/-- A failure before the delivery. -/
def payloadError (exc : AstraError) : ClassifiedFailure := ⟨.permanentInput, exc.typeName, exc.text⟩

def exec (handler : DurableFailureHandler) :
    (op : WorkerOp) → op.Choice → Database → Except AstraError op.Result × Database
  | shutdownRequested, requested, db => (.ok requested, db)
  | claimNext workerId leaseSeconds, c, db =>
    commit (JobCoordinator.claimNext c.locked workerId leaseSeconds c.attemptId) c.clock db
  | payloadFor _, answer, db => (answer, db)
  | payloadFailure claimed exc, clock, db =>
    commit (handler.handleFailure claimed.token (payloadError exc)) clock db
  | execution token op, c, db => op.exec handler token c db
  | sleep seconds, readings, db => (RuntimeWorker.sleep seconds readings, db)

end WorkerOp

abbrev WorkerProg : Type → Type := Prog WorkerOp WorkerOp.Result AstraError

abbrev WorkerEvent : Type := Event WorkerOp WorkerOp.Result AstraError

/-- An execution as a part of the loop. -/
def WorkerProg.ofExecution {α : Type} (token : LeaseToken) : ExecutionProg α → WorkerProg α
  | .ret a => .ret a
  | .raise e => .raise e
  | .perform op k => .perform (.execution token op) fun answer => ofExecution token (k answer)

/-! ## The loop -/

/-- Why a loop is left, or that it goes on after the turns it was followed for. -/
inductive WorkerExit
  | shutdownRequested | maxIterations | running
  deriving DecidableEq

namespace RuntimeWorker

section Loop

variable (coordinator : AstraVectorDeliveryCoordinator) (worker : RuntimeWorker)

def executeClaimed (claimed : ClaimedJob) : WorkerProg Unit := do
  match ← Prog.attempt (WorkerOp.payloadFor claimed) with
  | .ok payload =>
    let _ ← WorkerProg.ofExecution claimed.token
      (AstraVectorDeliveryExecutor.execute coordinator payload)
    return ()
  | .error exc =>
    let _ ← Prog.call (WorkerOp.payloadFailure claimed exc)
    return ()

/-- The rest of an iteration after `_claim_next`. -/
def turn : Option ClaimedJob → WorkerProg Unit
  | none => Prog.call (WorkerOp.sleep worker.pollIntervalSeconds)
  | some claimed => executeClaimed coordinator claimed

/-- The loop after some iterations, followed for `turns` more. -/
def loop : Nat → Nat → WorkerProg WorkerExit
  | 0, _ => return .running
  | turns + 1, iterations => do
    let requested ← Prog.call WorkerOp.shutdownRequested
    if requested = true then return .shutdownRequested
    else if worker.maxIterations.any (fun limit => limit ≤ iterations) = true then
      return .maxIterations
    else do
      let claimed ← Prog.call (WorkerOp.claimNext worker.workerId worker.leaseSeconds)
      turn coordinator worker claimed
      loop turns (iterations + 1)

def run (turns : Nat) : WorkerProg WorkerExit := loop coordinator worker turns 0

end Loop

end RuntimeWorker

/-- Workers that run the loop, each followed for some turns, among the transactions of the
coordinator. -/
@[reducible] def workerSystem (coordinator : AstraVectorDeliveryCoordinator)
    (handler : DurableFailureHandler) :
    System String (RuntimeWorker × Nat) WorkerOp WorkerOp.Result AstraError WorkerExit Database where
  Choice := WorkerOp.Choice
  exec _ := WorkerOp.exec handler
  program _ input := input.1.run coordinator input.2
  mayStart _ _ := true
  Move := JobCall × Clock
  move m db := (commit m.1.run m.2 db).2

end AstraIndexator
