import Mathlib.Algebra.Order.Ring.Rat
import OpenaiAuth.Interleave.Chain

/-! # The account pool's background runs

`createPoolLifecycle` runs the migration into the account pool and later adoptions of host
logins. Its runs form one chain of promises; a timer queues the next try. A run stands at one
of its `await`s, or has ended, and each event is what happens between two `await`s. The
transfers themselves (`migrate`, `adopt`), the version fence and `paused` only answer here.

`log` is what a watcher of the lifecycle would have seen, newest first.
-/

namespace PoolLifecycle

/-! ## Transfers -/

/-- `PoolTransferOutcome['status']` -/
inductive PoolTransferOutcome where
  | slotReadOnly
  | vaultOwnsAccounts
  | deferred
  | alreadyMigrated
  | refused
  | notMigrated
  | nothingToImport
  | completed
  | ambiguous
  | retry
  | error
deriving DecidableEq, Repr

/-- Outcomes after which the install counts as migrated. -/
def marksMigrated (outcome : PoolTransferOutcome) : Bool :=
  outcome = .completed || outcome = .alreadyMigrated || outcome = .nothingToImport ||
    outcome = .ambiguous

/-- Outcomes that call for another attempt soon. -/
def wantsRetry (outcome : PoolTransferOutcome) : Bool :=
  outcome = .deferred || outcome = .retry || outcome = .error

/-- First retry delay, and the step the backoff doubles from. -/
def POOL_RETRY_BASE_MS : ℕ := 60000

/-- Longest retry delay, and the adoption interval once migrated. -/
def POOL_RETRY_MAX_MS : ℕ := 15 * 60000

/-! ## Runs -/

/-- `runMigration`, or `runAdoption`, also right after this run's own migration. -/
inductive Body where
  | migration
  | adoption (after : Bool)
deriving DecidableEq, Repr

/-- Where a run stands. -/
inductive Phase where
  | waiting
  /-- at `deps.paused` -/
  | pausing (body : Body)
  /-- not paused, and `pausedNow` is about to say so -/
  | checked (body : Body)
  /-- at `migrate` -/
  | migrating
  /-- at `fence`, before an adoption -/
  | fencing (after : Bool)
  /-- at `adopt` -/
  | adopting
  | ended (threw : Bool)
deriving DecidableEq, Repr

def Phase.isEnded : Phase → Bool
  | .ended _ => true
  | _ => false

/-- What `enqueue` was given: `runMigration`, `tick`, or the task of `requestAdoption`. -/
inductive Task where
  | migration
  | tick
  | adoption
deriving DecidableEq, Repr

structure Run where
  task : Task
  phase : Phase
deriving DecidableEq, Repr

def Run.Begun (run : Run) : Prop := run.phase ≠ .waiting

def Run.Ended (run : Run) : Prop := ∃ threw, run.phase = .ended threw

inductive Settled where
  | fulfilled
  | rejected
deriving DecidableEq, Repr

/-- How the task itself ends. -/
def Run.result (run : Run) : Option Settled :=
  match run.phase with
  | .ended threw => some (if threw then .rejected else .fulfilled)
  | _ => none

/-- The promise of `enqueue`: what the task throws is caught and logged. -/
def Run.promise (run : Run) : Option Settled := run.result.map fun _ => .fulfilled

/-! ## The lifecycle -/

/-- What can be seen of the lifecycle. The promise of a request is named by its run. -/
inductive Entry where
  | requested (run : ℕ)
  | migrate
  | fence
  | adopt
  /-- a migration or an adoption ended -/
  | over
  | paused
  | stopped
  | resolved (run : ℕ)
deriving DecidableEq, Repr

/-- An armed timer, with its delay before the jitter. -/
structure Timer where
  handle : ℕ
  ms : ℕ
deriving DecidableEq, Repr

structure State where
  started : Bool := false
  stopped : Bool := false
  isMigrated : Bool := false
  failures : ℕ := 0
  timer : Option ℕ := none
  /-- The runs in the order of `enqueue`. -/
  runs : List Run := []
  pendingAdoption : Option ℕ := none
  lastNoticedRefresh : Option String := none
  /-- The timers of the host. -/
  armed : List Timer := []
  nextHandle : ℕ := 0
  log : List Entry := []
  lastOutcome : Option PoolTransferOutcome := none
deriving DecidableEq, Repr

/-- The part of `enqueue` that runs at once. -/
def State.enqueue (s : State) (task : Task) : State :=
  { s with runs := s.runs ++ [⟨task, .waiting⟩] }

def State.note (s : State) (entry : Entry) : State := { s with log := entry :: s.log }

/-- `timers.clear(timer)`, where one is set. -/
def State.cleared (s : State) : List Timer := s.armed.filter fun t => some t.handle ≠ s.timer

def State.schedule (s : State) (ms : ℕ) : State :=
  if s.stopped then s
  else { s with timer := some s.nextHandle
                nextHandle := s.nextHandle + 1
                armed := ⟨s.nextHandle, ms⟩ :: s.cleared }

/-- `retryDelay` before its jitter. -/
def retryBase (failures : ℕ) : ℕ :=
  min (POOL_RETRY_BASE_MS * 2 ^ min failures 10) POOL_RETRY_MAX_MS

/-- `schedule(retryDelay())` -/
def State.scheduleRetry (s : State) : State :=
  { s with failures := s.failures + 1 }.schedule (retryBase s.failures)

def State.phaseAt (s : State) (n : ℕ) : Option Phase := (s.runs[n]?).map (·.phase)

/-- The `n`-th run goes on to its next `await`. -/
def State.goTo (s : State) (n : ℕ) (phase : Phase) : State :=
  { s with runs := s.runs.modify n fun run => { run with phase := phase } }

def State.finish (s : State) (n : ℕ) (threw : Bool) : State :=
  (s.goTo n (.ended threw)).note (.resolved n)

/-- Enters `runMigration` or `runAdoption`. -/
def State.enter (s : State) (n : ℕ) (body : Body) : State :=
  if s.stopped then s.finish n false else s.goTo n (.pausing body)

def State.transfer (s : State) (n : ℕ) : State :=
  if s.stopped then s.finish n false
  else s.enter n (if s.isMigrated then .adoption false else .migration)

/-- The task begins. -/
def State.begin (s : State) (n : ℕ) : Task → State
  | .migration => s.enter n .migration
  | .tick => s.transfer n
  | .adoption => { s with pendingAdoption := none }.transfer n

/-- `deps.paused` answers, or throws. -/
def State.answerPaused (s : State) (n : ℕ) (body : Body) : Option Bool → State
  | none => s.finish n true
  | some true => ((s.note .paused).schedule POOL_RETRY_BASE_MS).finish n false
  | some false => s.goTo n (.checked body)

/-- `pausedNow` has answered. -/
def State.resume (s : State) (n : ℕ) (body : Body) : State :=
  if s.stopped then s.finish n false
  else
    match body with
    | .migration => (s.note .migrate).goTo n .migrating
    | .adoption after => (s.note .fence).goTo n (.fencing after)

/-- `migrate` answers, or throws. -/
def State.answerMigrate (s : State) (n : ℕ) : Option PoolTransferOutcome → State
  | none => (({ s with lastOutcome := none }.note .over).scheduleRetry).finish n false
  | some outcome =>
      let s := { s with lastOutcome := some outcome }.note .over
      if outcome = .refused then (s.schedule POOL_RETRY_MAX_MS).finish n false
      else if marksMigrated outcome then
        { s with isMigrated := true, failures := 0 }.enter n (.adoption true)
      else if wantsRetry outcome then s.scheduleRetry.finish n false
      else s.finish n false

/-- `fence` answers, or throws. -/
def State.answerFence (s : State) (n : ℕ) : Option Bool → State
  | none => (({ s with lastOutcome := none }.note .over).scheduleRetry).finish n false
  | some isOpen =>
      if s.stopped then s.finish n false
      else if isOpen then (s.note .adopt).goTo n .adopting
      else (({ s with lastOutcome := none }.note .over).scheduleRetry).finish n false

/-- `adopt` answers, or throws. -/
def State.answerAdopt (s : State) (n : ℕ) : Option PoolTransferOutcome → State
  | none => (({ s with lastOutcome := none }.note .over).scheduleRetry).finish n false
  | some outcome =>
      let s := { s with lastOutcome := some outcome }.note .over
      if outcome = .notMigrated || outcome = .slotReadOnly then s.finish n false
      else
        let s := { s with isMigrated := true }
        if wantsRetry outcome then s.scheduleRetry.finish n false
        else ({ s with failures := 0 }.schedule POOL_RETRY_MAX_MS).finish n false

def State.start (s : State) : State :=
  if s.started || s.stopped then s else { s with started := true }.enqueue .migration

def State.requestAdoption (s : State) : State :=
  match s.pendingAdoption with
  | some run => s.note (.requested run)
  | none =>
      ({ s with pendingAdoption := some s.runs.length }.enqueue .adoption).note
        (.requested s.runs.length)

def State.noticeRealSlot (s : State) (refreshToken : String) : State :=
  if !s.isMigrated || s.stopped || s.lastNoticedRefresh = some refreshToken then s
  else { s with lastNoticedRefresh := some refreshToken }.requestAdoption

def State.dispose (s : State) : State :=
  { s with stopped := true, armed := s.cleared, timer := none }.note .stopped

/-- The timer's callback. -/
def State.fire (s : State) (handle : ℕ) : State :=
  { s with armed := s.armed.filter (·.handle ≠ handle), timer := none }.enqueue .tick

/-- What happens next: a call from outside, a timer, or the run whose promise or answer has
come. -/
inductive Event where
  | start
  | requestAdoption
  | noticeRealSlot (refreshToken : String)
  | dispose
  | fire (handle : ℕ)
  | begin (run : ℕ)
  | paused (run : ℕ) (answer : Option Bool)
  | resume (run : ℕ)
  | migrated (run : ℕ) (answer : Option PoolTransferOutcome)
  | fenced (run : ℕ) (answer : Option Bool)
  | adopted (run : ℕ) (answer : Option PoolTransferOutcome)
deriving DecidableEq, Repr

/-- The run that an event takes on. -/
def Event.serves : Event → Option ℕ
  | .begin n | .paused n _ | .resume n | .migrated n _ | .fenced n _ | .adopted n _ => some n
  | _ => none

/-- The promise that the `n`-th run waits for has settled. -/
def State.ready (s : State) (n : ℕ) : Bool :=
  n = 0 || (s.phaseAt (n - 1)).any Phase.isEnded

def State.step (s : State) : Event → Option State
  | .start => some s.start
  | .requestAdoption => some s.requestAdoption
  | .noticeRealSlot refreshToken => some (s.noticeRealSlot refreshToken)
  | .dispose => some s.dispose
  | .fire handle => if s.armed.any (·.handle = handle) then some (s.fire handle) else none
  | .begin n =>
      match s.runs[n]? with
      | some ⟨task, .waiting⟩ => if s.ready n then some (s.begin n task) else none
      | _ => none
  | .paused n answer =>
      match s.phaseAt n with
      | some (.pausing body) => some (s.answerPaused n body answer)
      | _ => none
  | .resume n =>
      match s.phaseAt n with
      | some (.checked body) => some (s.resume n body)
      | _ => none
  | .migrated n answer =>
      match s.phaseAt n with
      | some .migrating => some (s.answerMigrate n answer)
      | _ => none
  | .fenced n answer =>
      match s.phaseAt n with
      | some (.fencing _) => some (s.answerFence n answer)
      | _ => none
  | .adopted n answer =>
      match s.phaseAt n with
      | some .adopting => some (s.answerAdopt n answer)
      | _ => none

/-- The events one after the other, where each can happen. -/
def State.run (s : State) (events : List Event) : Option State := events.foldlM State.step s

end PoolLifecycle
