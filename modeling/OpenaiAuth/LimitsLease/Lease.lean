import Mathlib.Algebra.Order.Ring.Int
import Mathlib.Data.List.Basic

/-! # The limits lease

`core/src/limit-registry.ts`: one `NamespaceLease` acquires the limits registry for the owners of a
namespace, reads through it, and gives it back with its last owner. The registry and its adapter
are the library's (`common-auth`): what they answer, and when, is an event.

A step is what runs between two `await`s. A timer that is due is taken before the clock goes on.
-/

namespace LimitsLease

def acquireMs : ℤ := 5000

def retryMs : ℤ := 1000

def failureRunMs : ℤ := 60000

structure View (B N : Type) where
  snapshot : N
  authoritative : Bool
  degradedAgreement : Bool
  bindings : List B

/-- What the lease asks of a binding, a snapshot, and the recovery latch. -/
structure Library (B N L R : Type) where
  accountId : B → String
  limitAccountId : B → String
  isIdentityCompatible : B → B → Bool
  limitsBindingProjection : List B → String
  generation : N → String
  revision : N → ℤ
  /-- The spelled keys of `snapshot.operationIds`. -/
  operationIds : N → List String
  /-- `isAccessRestrictive` of the access that the snapshot has for the binding's account. -/
  restricted : N → B → Bool
  /-- `recovery.capture` and `recovery.adopt` -/
  capture : L → View B N → ℤ → L × R
  adopt : L → R → N → L × Bool
  view : R → View B N

inductive AcquireError
  | conflict
  | unsupported
  | poolNotReady
  | other
deriving DecidableEq

inductive Disposal
  | none
  | pending
  | settled
  | failed
deriving DecidableEq

structure Registry (N : Type) where
  /-- What the registry shows, once `acquireLimitsRegistry` has returned it. -/
  snapshot : Option N := none
  abandoned : Bool := false
  /-- How often `dispose` was called. -/
  disposals : ℕ := 0
  disposal : Disposal := .none

/-- The promise of a `dispose`, with a `catch` or without. -/
structure Releasing where
  registry : ℕ
  caught : Bool
deriving DecidableEq

/-- An attempt to acquire: it makes the adapter, and then the registry. -/
inductive Attempt
  | adapter
  | acquiring (r : ℕ)
  | got (r : ℕ)
  | failed (error : AcquireError)
deriving DecidableEq

/-- Where a call of `acquire` is. -/
inductive RunPhase
  | releasing (promise : Option Releasing)
  | attempting (attempt : Attempt) (due : ℤ)
  | retrying (due : ℤ)
  /-- It has ended, and the `finally` of its promise is to come. -/
  | over (rejected : Bool)
  | done (rejected : Bool)
deriving DecidableEq

structure Run where
  phase : RunPhase
  /-- When it had waited for the disposal before it. -/
  since : ℤ := 0

/-- Where a call of `release` by the last owner is. -/
inductive ReleasePhase
  | acquiring (run : Option ℕ)
  | disposing (r : ℕ)
  | ended
  | rejected
deriving DecidableEq

/-- Where a call of `forRequest` is. -/
inductive RequestPhase
  | acquiring (run : ℕ)
  | returned
  | rejected
  /-- The owner was disposed before. -/
  | ownerDisposed
deriving DecidableEq

structure Request where
  phase : RequestPhase
  projectionDeadline : Option ℤ := none

inductive Status
  | ready
  | absent
  | changed
  | blocked
deriving DecidableEq

inductive Call (B : Type)
  | reloadForBindings
  /-- The id is that of the expected binding unless the caller gives one. -/
  | beforeDispatch (expected : Option B) (accountId : Option String)

/-- Where a call on a request is, with the registry it asked and the time it waits until. -/
inductive CallPhase
  | reloading (r : ℕ) (due : ℤ)
  | asking (r : ℕ) (due deadline : ℤ)
  | reloadingAgain (r : ℕ) (due deadline : ℤ)
  | askingAgain (due : ℤ)
  | answered (status : Status)
  /-- `reloadForBindings` alone has no answer. -/
  | ended
  | threw
deriving DecidableEq

structure Ask (B : Type) where
  request : ℕ
  call : Call B
  phase : CallPhase

/-- What a read was to the run of failures. -/
inductive ReadKind
  | failed
  | adopted
  | stale
deriving DecidableEq

structure State (B N L R : Type) where
  now : ℤ
  owners : ℕ := 0
  /-- Every owner, and whether it was disposed. -/
  disposed : List Bool := []
  registry : Option ℕ := none
  adapter : Bool := false
  acquiring : Option ℕ := none
  releasing : Option Releasing := none
  deadline : Option ℤ := none
  fallback : Bool := false
  failureAt : Option ℤ := none
  retryAt : ℤ := 0
  retryDelay : ℤ := retryMs
  /-- When `failureTimer` is due. -/
  failureTimer : Option ℤ := none
  recovery : L
  latestRead : Option R := none
  adoptedBindings : List B := []
  /-- The controls that the registry has not applied, with the binding of each. -/
  controls : List (String × B) := []
  projection : Option String := none
  registries : List (Registry N) := []
  runs : List Run := []
  /-- The attempts that nobody waits for any longer. -/
  late : List Attempt := []
  releases : List ReleasePhase := []
  requests : List Request := []
  asks : List (Ask B) := []
  /-- The reads under way, with the snapshot before. -/
  reads : List (Option (Option N)) := []
  /-- Every read that has ended, newest first. -/
  readLog : List (ℤ × ReadKind) := []

namespace State

variable {B N L R : Type} (lib : Library B N L R) (s : State B N L R)

/-! ## The lease -/

def dispose (r : ℕ) : State B N L R :=
  { s with
    registries := s.registries.modify r fun registry =>
      { registry with disposals := registry.disposals + 1, disposal := .pending } }

def stopTracking : State B N L R :=
  if s.fallback then s
  else
    let s' : State B N L R := { s with
      fallback := true
      failureTimer := none
      registry := none
      adapter := false
      latestRead := none }
    match s.registry with
    | none => s'
    | some r => { s'.dispose r with releasing := some ⟨r, true⟩ }

/-- `current`, for what it does to the lease; the registry is `registry` then. -/
def current : State B N L R :=
  match s.registry with
  | none => s
  | some r => if s.registries[r]?.any (·.abandoned) then s.stopTracking else s

def adoptRead : State B N L R :=
  let s := s.current
  match s.registry.bind fun r => s.registries[r]?.bind (·.snapshot), s.latestRead with
  | some snapshot, some read =>
      let (recovery, adopted) := lib.adopt s.recovery read snapshot
      if adopted then
        { s with
          recovery := recovery
          projection := some (lib.limitsBindingProjection (lib.view read).bindings)
          adoptedBindings := (lib.view read).bindings
          controls := s.controls.filter fun control => control.1 ∉ lib.operationIds snapshot }
      else { s with recovery := recovery }
  | _, _ => s

def snapshot : Option N :=
  let s := s.adoptRead lib
  s.registry.bind fun r => s.registries[r]?.bind (·.snapshot)

def recordFailure : State B N L R :=
  if s.registry.isNone ∨ s.fallback then s
  else
    let failureAt := s.failureAt.getD s.now
    let s := { s with
      failureAt := some failureAt
      failureTimer := if s.failureAt.isNone then some (s.now + failureRunMs) else s.failureTimer
      retryAt := s.now + s.retryDelay
      retryDelay := min failureRunMs (s.retryDelay * 2) }
    if s.now - failureAt ≥ failureRunMs then s.stopTracking else s

def recordSuccess : State B N L R :=
  { s with failureAt := none, retryAt := 0, retryDelay := retryMs, failureTimer := none }

/-- When a timer for the time `until` is due. Without a time it is due at once, as for
`setTimeout(callback, NaN)`. -/
def dueAt (time : Option ℤ) : ℤ :=
  match time with
  | some time => s.now + max 0 (time - s.now)
  | none => s.now + 1

/-! ## Acquiring -/

def setRun (k : ℕ) (phase : RunPhase) : State B N L R :=
  { s with runs := s.runs.modify k fun run => { run with phase := phase } }

/-- The call of the library's `acquireLimitsRegistry`. -/
def acquireLimitsRegistry : State B N L R × Attempt :=
  ({ s with registries := s.registries ++ [{}] }, .acquiring s.registries.length)

def startAttempt : State B N L R × Attempt :=
  if s.adapter then s.acquireLimitsRegistry else (s, .adapter)

/-- `acquire` has waited for `this.releasing`. -/
def begun (k : ℕ) : State B N L R :=
  { s with
    deadline := some (s.deadline.getD (s.now + acquireMs))
    runs := s.runs.modify k fun run => { run with since := s.now } }

/-- The head of the loop of `acquire`. -/
def loop (k : ℕ) : State B N L R :=
  if s.fallback ∨ s.registry.isSome then s.setRun k (.over false)
  else if s.deadline.any (s.now ≥ ·) then s.stopTracking.setRun k (.over false)
  else
    let (s', attempt) := s.startAttempt
    s'.setRun k (.attempting attempt (s.dueAt s.deadline))

/-- `makeAdapter` of an attempt ends. -/
def adapterMade (error : Option AcquireError) : State B N L R × Attempt :=
  match error with
  | some error => (s, .failed error)
  | none => { s with adapter := true }.acquireLimitsRegistry

/-- `acquireLimitsRegistry` of an attempt ends. -/
def acquired (r : ℕ) (answer : Except AcquireError N) : State B N L R × Attempt :=
  match answer with
  | .error error => (s, .failed error)
  | .ok snapshot =>
      ({ s with
        registries := s.registries.modify r fun registry =>
          { registry with snapshot := some snapshot } }, .got r)

/-- `attempt.then((late) => late.dispose())` -/
def disposeLate (attempt : Attempt) : State B N L R :=
  match attempt with
  | .got r => s.dispose r
  | .failed _ => s
  | attempt => { s with late := s.late ++ [attempt] }

/-- The `acquire` goes on with the attempt that it waited for. -/
def attempted (k : ℕ) (attempt : Attempt) : Option (State B N L R) :=
  match attempt with
  | .got r =>
      if s.fallback then some ((s.stopTracking.disposeLate attempt).setRun k (.over false))
      else
        let s := { s with registry := some r }
        if s.registries[r]?.any (·.abandoned) then some (s.stopTracking.setRun k (.over false))
        else some ((s.adoptRead lib).setRun k (.over false))
  | .failed .conflict | .failed .unsupported => some (s.stopTracking.setRun k (.over false))
  | .failed .poolNotReady =>
      some ({ s with deadline := none, adapter := false }.setRun k (.over false))
  | .failed .other =>
      some (s.setRun k (.retrying (s.dueAt (s.deadline.map fun deadline =>
        s.now + min retryMs (max 0 (deadline - s.now))))))
  | _ => none

/-! ## Releasing -/

/-- The end of `release`. -/
def finishRelease : State B N L R :=
  { s with adapter := false, projection := none, deadline := none }

def setRelease (j : ℕ) (phase : ReleasePhase) : State B N L R :=
  { s with releases := s.releases.set j phase }

/-- `release` goes on after the acquisition that it waited for. -/
def released (j : ℕ) : State B N L R :=
  if s.owners ≠ 0 then s.setRelease j .ended
  else
    let s := s.current
    match s.registry with
    | none => { s with failureTimer := none }.finishRelease.setRelease j .ended
    | some r =>
        { ({ s with registry := none, failureTimer := none } : State B N L R).dispose r with
          releasing := some ⟨r, false⟩ }.setRelease j (.disposing r)

/-! ## Calls on a request -/

def projectionDeadline (request : ℕ) : Option ℤ :=
  s.requests[request]?.bind (·.projectionDeadline)

def setProjectionDeadline (request : ℕ) (deadline : ℤ) : State B N L R :=
  { s with
    requests := s.requests.modify request fun request =>
      { request with projectionDeadline := some deadline } }

def dispatchAtBound (expected : B) : State B N L R × Status :=
  let s := s.adoptRead lib
  match s.registry.bind fun r => s.registries[r]?.bind (·.snapshot) with
  | none => (s, .ready)
  | some snapshot =>
      let current := s.adoptedBindings.find? fun binding =>
        lib.limitAccountId binding = lib.limitAccountId expected
      let controlled := s.controls.any fun control =>
        lib.limitAccountId control.2 = lib.limitAccountId expected
      let compatible := current.any fun current => lib.isIdentityCompatible current expected
      (s,
        if !compatible || controlled || lib.restricted snapshot expected then .blocked else .ready)

def checkCurrent (lib : Library B N L R) (expected : Option B) (accountId : Option String)
    (bindings : List B) : Status :=
  match accountId.filter (· ≠ "") with
  | none => .ready
  | some accountId =>
      match bindings.find? fun binding => lib.accountId binding = accountId, expected with
      | none, some _ => .absent
      | none, none | some _, none => .ready
      | some current, some expected =>
          if lib.limitAccountId current ≠ lib.limitAccountId expected ∨
              !lib.isIdentityCompatible current expected then .changed
          else .ready

/-- `beforeDispatch` after `reloadForBindings`. -/
def reloaded (request : ℕ) (call : Call B) (bindings : List B) : State B N L R × CallPhase :=
  match call with
  | .reloadForBindings => (s, .ended)
  | .beforeDispatch expected accountId =>
      match checkCurrent lib expected accountId bindings with
      | .ready =>
          let s := s.current
          match s.registry, expected with
          | some r, some expected =>
              if (s.projectionDeadline request).any (s.now ≥ ·) then
                let (s, status) := s.dispatchAtBound lib expected
                (s, .answered status)
              else
                let deadline := (s.projectionDeadline request).getD (s.now + acquireMs)
                (s, .asking r (s.dueAt (some deadline)) deadline)
          | _, _ => (s, .answered .ready)
      | status => (s, .answered status)

/-- The head of the loop of `reloadForBindings`. -/
def reloadForBindings (request : ℕ) (call : Call B) (bindings : List B) :
    State B N L R × CallPhase :=
  let s := s.adoptRead lib
  match s.registry with
  | none => s.reloaded lib request call bindings
  | some r =>
      if s.projection = some (lib.limitsBindingProjection bindings) then
        s.reloaded lib request call bindings
      else
        let deadline := (s.projectionDeadline request).getD (s.now + acquireMs)
        let s := s.setProjectionDeadline request deadline
        if s.now ≥ deadline then s.reloaded lib request call bindings
        else (s, .reloading r (s.dueAt (some deadline)))

/-- The end of `beforeDispatch`, with what the registry said of the account, if it did. -/
def decided (expected : Option B) (accountId : Option String) (bindings : List B)
    (blocked : Option Bool) : State B N L R × CallPhase :=
  match checkCurrent lib expected accountId bindings with
  | .ready =>
      let s := s.current
      match s.registry with
      | none => (s, .answered .ready)
      | some _ => (s.adoptRead lib, .answered (if blocked.getD true then .blocked else .ready))
  | status => (s, .answered status)

/-- How a `bounded` promise settles. -/
inductive Settled
  /-- With the `degradedAgreement` of a registry that was reloaded, or the `blocked` of a view. -/
  | value (flag : Bool)
  | undefined
  | threw

/-- A call on a request goes on after its `bounded` promise. -/
def askResumed (ask : Ask B) (settled : Settled) (degradedAgreement : Bool) (bindings : List B) :
    Option (State B N L R × CallPhase) :=
  match ask.phase, settled, ask.call with
  | .reloading _ _, .threw, _ | .asking _ _ _, .threw, _ | .reloadingAgain _ _ _, .threw, _
  | .askingAgain _, .threw, _ => some (s, .threw)
  | .reloading _ _, _, call =>
      let s := s.adoptRead lib
      if (s.projectionDeadline ask.request).any (s.now ≥ ·) ∨ degradedAgreement then
        some (s.reloaded lib ask.request call bindings)
      else some (s.reloadForBindings lib ask.request call bindings)
  | .asking r _ deadline, .value true, .beforeDispatch expected accountId =>
      let s := s.current
      match s.registry with
      | some _ => some (s, .reloadingAgain r (s.dueAt (some deadline)) deadline)
      | none => some (s.decided lib expected accountId bindings (some true))
  | .asking _ _ _, .value false, .beforeDispatch expected accountId =>
      some (s.decided lib expected accountId bindings (some false))
  | .asking _ _ _, .undefined, .beforeDispatch expected accountId =>
      some (s.decided lib expected accountId bindings none)
  | .reloadingAgain _ _ deadline, _, _ => some (s, .askingAgain (s.dueAt (some deadline)))
  | .askingAgain _, .value blocked, .beforeDispatch expected accountId =>
      some (s.decided lib expected accountId bindings (some blocked))
  | .askingAgain _, .undefined, .beforeDispatch expected accountId =>
      some (s.decided lib expected accountId bindings none)
  | _, _, _ => none

end State

/-! ## Steps -/

/-- Who waits for an attempt. -/
inductive Waiter
  | run (k : ℕ)
  | late (j : ℕ)

inductive Event (B N : Type)
  | acquire
  | dispose (owner : ℕ)
  | forRequest (owner : ℕ) (sourceReady : Bool)
  /-- `acquire` goes on after `this.releasing`. -/
  | waited (k : ℕ)
  | adapterMade (waiter : Waiter) (error : Option AcquireError)
  | acquired (waiter : Waiter) (answer : Except AcquireError N)
  /-- The `bounded` attempt settles, with the attempt or without. -/
  | attempted (k : ℕ) (settled : Bool)
  | retried (k : ℕ)
  | cleared (k : ℕ)
  | requestResumed (j : ℕ)
  | releaseResumed (j : ℕ)
  | disposalSettled (r : ℕ) (ok : Bool)
  | releaseEnded (j : ℕ)
  /-- A registry is abandoned, and calls `onAbandon` then. -/
  | abandoned (r : ℕ)
  | onAbandon (r : ℕ)
  | failureTimer
  | read (previous : Option N)
  | readEnded (i : ℕ) (view : Option (View B N))
  | committed (view : View B N)
  | published (r : ℕ) (snapshot : N)
  /-- `snapshot`, `observe`, `provenance` and the other calls that adopt the last read. -/
  | adoptRead
  /-- `enqueue` of a control. -/
  | enqueue (key : String) (binding : B)
  | onRejected (key : String)
  | ask (request : ℕ) (call : Call B) (bindings : List B)
  | askResumed (i : ℕ) (settled : State.Settled) (degradedAgreement : Bool) (bindings : List B)
  | advance (now : ℤ)

namespace State

variable {B N L R : Type} (lib : Library B N L R) (s : State B N L R)

def disposal (r : ℕ) : Disposal := (s.registries[r]?.map (·.disposal)).getD .none

/-- The promise of a `dispose` has settled. -/
def settled (promise : Option Releasing) : Bool :=
  promise.all fun promise => s.disposal promise.registry = .settled ∨
    s.disposal promise.registry = .failed

/-- The promise has rejected: nobody has caught the failure. -/
def rejects (promise : Option Releasing) : Bool :=
  promise.any fun promise => !promise.caught ∧ s.disposal promise.registry = .failed

/-- `ready`, called by `forRequest`. -/
def ready (sourceReady : Bool) : State B N L R :=
  if !sourceReady ∨ s.fallback ∨ s.registry.isSome then
    { s with requests := s.requests ++ [⟨.returned, none⟩] }
  else
    match s.acquiring with
    | some k => { s with requests := s.requests ++ [⟨.acquiring k, none⟩] }
    | none =>
        { s with
          acquiring := some s.runs.length
          runs := s.runs ++ [⟨.releasing s.releasing, 0⟩]
          requests := s.requests ++ [⟨.acquiring s.runs.length, none⟩] }

/-- A read through the adapter has ended. -/
def readEnded (previous : Option N) (view : Option (View B N)) : State B N L R :=
  match view with
  | none => { s.recordFailure with readLog := (s.now, .failed) :: s.readLog }
  | some view =>
      let (recovery, read) := lib.capture s.recovery view s.now
      let s : State B N L R := { s with recovery := recovery, latestRead := some read }
      let adoptable := previous.all fun previous =>
        lib.generation view.snapshot ≠ lib.generation previous ∨
          lib.revision view.snapshot ≥ lib.revision previous
      if view.authoritative && !view.degradedAgreement && adoptable then
        { s.recordSuccess with readLog := (s.now, .adopted) :: s.readLog }
      else if !view.authoritative || view.degradedAgreement then
        { s.recordFailure with readLog := (s.now, .failed) :: s.readLog }
      else { s with readLog := (s.now, .stale) :: s.readLog }

/-- The times that a timer of the lease is due at. -/
def timers : List ℤ :=
  s.failureTimer.toList ++ s.runs.filterMap fun run =>
    match run.phase with
    | .attempting _ due | .retrying due => some due
    | _ => none

def step : Event B N → Option (State B N L R)
  | .acquire => some { s with owners := s.owners + 1, disposed := s.disposed ++ [false] }
  | .dispose owner =>
      match s.disposed[owner]? with
      | none => none
      | some true => some s
      | some false =>
          let s := { s with disposed := s.disposed.set owner true, owners := s.owners - 1 }
          if s.owners ≠ 0 then some s
          else some { s with releases := s.releases ++ [.acquiring s.acquiring] }
  | .forRequest owner sourceReady =>
      match s.disposed[owner]? with
      | none => none
      | some true => some { s with requests := s.requests ++ [⟨.ownerDisposed, none⟩] }
      | some false => some (s.ready sourceReady)
  | .waited k =>
      match s.runs[k]? with
      | some { phase := .releasing promise, .. } =>
          -- a `release` awaits the disposal from the moment that it is called, and so goes on first
          if s.settled promise ∧ ∀ p ∈ promise, ReleasePhase.disposing p.registry ∉ s.releases then
            if s.rejects promise then some (s.setRun k (.over true))
            else some ((s.begun k).loop k)
          else none
      | _ => none
  | .adapterMade (.run k) error =>
      match s.runs[k]? with
      | some { phase := .attempting .adapter due, .. } =>
          let (s', attempt) := s.adapterMade error
          some (s'.setRun k (.attempting attempt due))
      | _ => none
  | .adapterMade (.late j) error =>
      match s.late[j]? with
      | some .adapter =>
          let (s', attempt) := s.adapterMade error
          some { s' with late := s'.late.set j attempt }
      | _ => none
  | .acquired (.run k) answer =>
      match s.runs[k]? with
      | some { phase := .attempting (.acquiring r) due, .. } =>
          let (s', attempt) := s.acquired r answer
          some (s'.setRun k (.attempting attempt due))
      | _ => none
  | .acquired (.late j) answer =>
      match s.late[j]? with
      | some (.acquiring r) =>
          let (s', attempt) := s.acquired r answer
          let s' := { s' with late := s'.late.set j attempt }
          match attempt with
          | .got r => some (s'.dispose r)
          | _ => some s'
      | _ => none
  | .attempted k settled =>
      match s.runs[k]? with
      | some { phase := .attempting attempt due, .. } =>
          if settled then s.attempted lib k attempt
          else if s.fallback ∨ due ≤ s.now then
            some ((s.stopTracking.disposeLate attempt).setRun k (.over false))
          else none
      | _ => none
  | .retried k =>
      match s.runs[k]? with
      | some { phase := .retrying due, .. } => if due ≤ s.now then some (s.loop k) else none
      | _ => none
  | .cleared k =>
      match s.runs[k]? with
      | some { phase := .over rejected, .. } =>
          some ({ s with acquiring := none }.setRun k (.done rejected))
      | _ => none
  | .requestResumed j =>
      match s.requests[j]? with
      | some request@{ phase := .acquiring k, .. } =>
          match s.runs[k]? with
          | some { phase := .done rejected, .. } =>
              let phase := if rejected then .rejected else .returned
              some { s with requests := s.requests.set j { request with phase := phase } }
          | _ => none
      | _ => none
  | .releaseResumed j =>
      match s.releases[j]? with
      | some (.acquiring none) => some (s.released j)
      | some (.acquiring (some k)) =>
          match s.runs[k]? with
          | some { phase := .done rejected, .. } =>
              if rejected then some (s.setRelease j .rejected) else some (s.released j)
          | _ => none
      | _ => none
  | .disposalSettled r ok =>
      if s.disposal r = .pending then
        some { s with
          registries := s.registries.modify r fun registry =>
            { registry with disposal := if ok then .settled else .failed } }
      else none
  | .releaseEnded j =>
      match s.releases[j]? with
      | some (.disposing r) =>
          match s.disposal r with
          | .settled => some (s.finishRelease.setRelease j .ended)
          | .failed => some (s.setRelease j .rejected)
          | _ => none
      | _ => none
  | .abandoned r =>
      some { s with
        registries := s.registries.modify r fun registry => { registry with abandoned := true } }
  | .onAbandon r =>
      if s.registries[r]?.any (·.abandoned) then some s.stopTracking else none
  | .failureTimer => if s.failureTimer.any (· ≤ s.now) then some s.stopTracking else none
  | .read previous =>
      let s := s.adoptRead lib
      if s.registry.isSome ∧ s.now < s.retryAt then some s
      else some { s with reads := s.reads ++ [some previous] }
  | .readEnded i view =>
      match s.reads[i]? with
      | some (some previous) =>
          some ({ s with reads := s.reads.set i none }.readEnded lib previous view)
      | _ => none
  | .committed view =>
      let (recovery, read) := lib.capture s.recovery view s.now
      some { s with recovery := recovery, latestRead := some read }
  | .published r snapshot =>
      some { s with
        registries := s.registries.modify r fun registry =>
          { registry with snapshot := registry.snapshot.map fun _ => snapshot } }
  | .adoptRead => some (s.adoptRead lib)
  | .enqueue key binding =>
      let s := s.current
      if s.registry.isSome then
        some { s with controls := s.controls.filter (·.1 ≠ key) ++ [(key, binding)] }
      else some s
  | .onRejected key => some { s with controls := s.controls.filter (·.1 ≠ key) }
  | .ask request call bindings =>
      match s.requests[request]? with
      | some { phase := .returned, .. } =>
          let (s', phase) := s.reloadForBindings lib request call bindings
          some { s' with asks := s'.asks ++ [⟨request, call, phase⟩] }
      | _ => none
  | .askResumed i settled degradedAgreement bindings =>
      match s.asks[i]? with
      | some ask =>
          let bounded := match ask.phase, settled with
            | .reloading _ due, .undefined | .asking _ due _, .undefined
            | .reloadingAgain _ due _, .undefined | .askingAgain due, .undefined =>
                decide (s.fallback ∨ due ≤ s.now)
            | _, _ => true
          if bounded then
            (s.askResumed lib ask settled degradedAgreement bindings).map fun (s', phase) =>
              { s' with asks := s'.asks.set i { ask with phase := phase } }
          else none
      | none => none
  | .advance now =>
      -- a timer that is due goes first
      if s.now ≤ now ∧ ∀ due ∈ s.timers, now ≤ due then some { s with now := now } else none

def run : State B N L R → List (Event B N) → Option (State B N L R)
  | s, [] => some s
  | s, e :: es => (s.step lib e).bind fun s' => s'.run es

end State

end LimitsLease
