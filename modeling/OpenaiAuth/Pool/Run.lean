import OpenaiAuth.Interleave.System
import OpenaiAuth.Pool.Plan

/-! # Migration and adoption runs

`migrateToPool` and `adoptHostSlotLogin` as programs over the calls they await.
Locks are taken by a call that waits for them and ends granted or timed out; an
update of the config is one call, since it runs under the `save` lock pair, and
so is a write of the store, which runs under the row's locks.
-/

namespace PoolMigration

open Js Interleave

/-! ## Calls -/

/-- The locks a run waits for itself. -/
inductive Lock where
  | slotTransfer
  | poolMigration
  | mainRefresh
deriving DecidableEq, Repr

/-- What a run throws, or lets a call throw. -/
inductive Thrown where
  | legacyLockContention
  | poolOperation (kind : String)
  | hostSlotChanged
  | other (message : String)
deriving DecidableEq, Repr

/-- Which read of the store a run makes. -/
inductive ReadSite where
  | gate
  | planning
  | rotating
  | verifying
deriving DecidableEq, Repr

/-- What reading the store gives. -/
inductive PoolLoad where
  | ready (rows : List PoolRow)
  | pendingMigration (roster : List PoolRow)
  | error (file reason : String)
deriving DecidableEq

def PoolLoad.rows : PoolLoad → List PoolRow
  | ready rows => rows
  | _ => []

def poolUntaggedTransferDisabledReason : String := "slot-transfer-origin-unknown"

/-- The store's writes, with the arguments a run passes. -/
inductive StoreWrite where
  | initializePool
  | add (id : String) (credential : SlotCredential) (identity : Option String)
  | replace (id : String) (credential : SlotCredential) (identity : Option String)
  | rotate (id : String) (credential : SlotCredential) (identity : Option String)
  | disable (id reason : String) (credentialEpoch : Option Nat) (identity : Option String)
  /-- Refused unless the row's fingerprint is `protect`. -/
  | remove (id : String) (protect : Fingerprint)
deriving DecidableEq

/-- The row a write puts a credential into, with that credential. -/
def StoreWrite.credential : StoreWrite → Option (String × SlotCredential)
  | add id c _ | replace id c _ | rotate id c _ => some (id, c)
  | _ => none

inductive Call where
  | migrationDisabledReason
  | fenceBlocked
  | acquire (lock : Lock)
  | release (lock : Lock)
  | readConfig
  | updateConfig (u : ConfigUpdate)
  | storeRead (site : ReadSite)
  | storeWrite (write : StoreWrite)
  | carryLegacyMainState (row : PoolRow)
  | slotGet
  | slotAll
  /-- Asks the adapter to write this store's placeholder. -/
  | slotSet
  | now
  | sleep (ms : Nat)
  | newId
  | legacyLeaseActive (refresh : String)
deriving DecidableEq

/-- What a call answers. -/
abbrev Call.Ans : Call → Type
  | migrationDisabledReason => Option String
  | fenceBlocked => Bool
  | acquire _ | updateConfig _ | storeWrite _ | carryLegacyMainState _ | slotSet =>
      Except Thrown Unit
  | release _ | sleep _ => Unit
  | readConfig => Except Thrown ConfigFile
  | storeRead _ => PoolLoad
  | slotGet => Option Json
  | slotAll => Bool
  | now => Nat
  | newId => String
  | legacyLeaseActive _ => Except Thrown Bool

abbrev calls : Sig := ⟨Call, Call.Ans⟩

abbrev Attempt (α : Type) := Throwing Thrown calls α

/-- Makes a call that may throw. -/
def callThrowing {α : Type} (o : Call) (ans : o.Ans → Except Thrown α) : Attempt α :=
  Throwing.perform (S := calls) o ans

/-- Makes a call that never throws. -/
def callPlain (o : Call) : Attempt o.Ans :=
  Throwing.perform (S := calls) o Except.ok

def readConfig : Attempt ConfigFile := callThrowing .readConfig id
def updateConfig (u : ConfigUpdate) : Attempt Unit := callThrowing (.updateConfig u) id
def storeRead (site : ReadSite) : Attempt PoolLoad := callPlain (.storeRead site)
def storeWrite (write : StoreWrite) : Attempt Unit := callThrowing (.storeWrite write) id
def slotGet : Attempt (Option Json) := callPlain .slotGet
/-- Whether `Object.keys(await slot.all())` is not empty. -/
def slotAll : Attempt Bool := callPlain .slotAll
def slotSet : Attempt Unit := callThrowing .slotSet id
def now : Attempt Nat := callPlain .now
def acquire (lock : Lock) : Attempt Unit := callThrowing (.acquire lock) id
def release (lock : Lock) : Attempt Unit := callPlain (.release lock)

/-- `if (c) await p` -/
def onlyIf (c : Bool) (p : Attempt Unit) : Attempt Unit :=
  if c then p else return ()

/-! ## Outcomes -/

inductive RetryReason where
  | hostSlotIndeterminate
  | legacyRefreshInProgress
  | lockContention
  | verifyFailed
  | tornRead
  | slotChanged
  | placeholderOverwritten
  | unsettled
  | store (kind : String)
deriving DecidableEq, Repr

inductive RefusedReason where
  | placeholderWithoutMain
  | placeholderOriginUnknown
deriving DecidableEq, Repr

inductive CompletedOperation where
  | fresh (operation : Operation)
  | resumed
deriving DecidableEq, Repr

inductive PlaceholderState where
  | written
  | alreadyPresent
  | slotMovedOn
deriving DecidableEq, Repr

inductive PoolTransferOutcome where
  | slotReadOnly (reason : String)
  | deferred
  | alreadyMigrated
  | refused (reason : RefusedReason)
  | notMigrated
  | nothingToImport (slot : SlotNothingKind)
  | completed (rowId : String) (operation : CompletedOperation) (placeholder : PlaceholderState)
  | ambiguous (rowId : String)
  | retry (reason : RetryReason)
  | error (reason : String)
deriving DecidableEq, Repr

/-- A run's next move: an outcome, or plan again from the top. -/
inductive RunStep where
  | outcome (o : PoolTransferOutcome)
  | restart
deriving DecidableEq, Repr

inductive FinishStep where
  | step (s : RunStep)
  | foreignPlaceholder
  | untaggedPlaceholder
deriving DecidableEq, Repr

def FinishStep.retry (reason : RetryReason) : FinishStep := .step (.outcome (.retry reason))

/-! ## Reading the slot -/

def slotAbsentConfirmationMs : Nat := 250

section Program

variable (setup : Setup)

/-- Absence needs two reads apart with a non-empty auth map both times. -/
def confirmAbsent : Attempt SlotView := do
  let firstMapNonEmpty ← slotAll
  let beforeSleep ← now
  callPlain (.sleep slotAbsentConfirmationMs)
  let afterSleep ← now
  if afterSleep - beforeSleep < slotAbsentConfirmationMs then return .indeterminate
  else do
    let second ← slotGet
    match second with
    | some value => return slotView setup value
    | none => do
        let secondMapNonEmpty ← slotAll
        return if firstMapNonEmpty && secondMapNonEmpty then .slotAbsent else .indeterminate

/-- `confirmMainAuthSlot`, and the view `readSlot` takes of its verdict. -/
def readSlot : Attempt SlotView := do
  let first ← slotGet
  match first with
  | some value => return slotView setup value
  | none => confirmAbsent setup

def legacyLeaseActive (refresh : String) : Attempt Bool :=
  callThrowing (.legacyLeaseActive refresh) id

def leaseWaitTimeoutMs : Nat := 4000
def leaseWaitPollMs : Nat := 50

/-- The slot view once no legacy lease covers its token, or `none` after the
deadline. The loop ends at the deadline; `polls` bounds its rounds, and a clock
that never reaches the deadline within them ends it the same way. -/
def pollSlot (deadline : Nat) : Nat → Attempt (Option SlotView)
  | 0 => return none
  | polls + 1 => do
      let view ← readSlot setup
      match view with
      | .real credential => do
          let active ← legacyLeaseActive credential.refresh
          if active then do
            let at_ ← now
            if deadline ≤ at_ then return none
            else do
              callPlain (.sleep leaseWaitPollMs)
              pollSlot deadline polls
          else return some view
      | view => return some view

def readSlotHonouringLease (polls : Nat) : Attempt (Option SlotView) := do
  let at_ ← now
  pollSlot setup (at_ + leaseWaitTimeoutMs) polls

/-! ## Execution -/

def applyToRow (record : PendingTransfer) (credential : SlotCredential) : Attempt Unit :=
  match record.operation with
  | .add => storeWrite (.add record.rowId credential record.identity)
  | .replace => storeWrite (.replace record.rowId credential record.identity)
  | .rotate => do
      let load ← storeRead .rotating
      let row := load.rows.find? (·.id = record.rowId)
      -- A rotate records an identity only where the row has none yet.
      storeWrite (.rotate record.rowId credential
        (if (row.bind (·.identity)).isNone then record.identity else none))

/-- The row that proves the transfer: it holds the record's credential. -/
def verifiedRow (record : PendingTransfer) (load : PoolLoad) : Option PoolRow :=
  (rowFor record.rowId load.rows).filter fun row =>
    row.fingerprint = some record.credentialFingerprint

def verifyRow (record : PendingTransfer) : Attempt (Option PoolRow) := do
  let load ← storeRead .verifying
  return verifiedRow record load

/-- A real login with another token pair, of the very account the record names. -/
def renewedLogin (record : PendingTransfer) : SlotView → Bool
  | .real c =>
      c.fingerprint ≠ record.slotFingerprint && record.identity.isSome &&
        c.identity setup = record.identity
  | _ => false

/-- The placeholder goes in through the fence, and is read back. -/
def writePlaceholder (mode : Mode) (record : PendingTransfer) (operation : CompletedOperation) :
    Attempt FinishStep := do
  let last ← slotGet
  if pairIn last ≠ some record.slotFingerprint then return .retry .slotChanged
  else do
    let written ← Throwing.attempt slotSet
    match written with
    | .error .hostSlotChanged => return .retry .slotChanged
    | .error e => throw e
    | .ok () => do
        let readback ← slotGet
        if !readback.any isPoolPlaceholder then return .retry .placeholderOverwritten
        else
          match readback.bind (·.get? "accountId") with
          | none => return .untaggedPlaceholder
          | some origin =>
              if origin ≠ .str setup.placeholderOrigin then return .foreignPlaceholder
              else do
                updateConfig (.writeFinished mode none)
                return .step (.outcome (.completed record.rowId operation .written))

def finishUnderMainLock (mode : Mode) (record : PendingTransfer)
    (operation : CompletedOperation) : Attempt FinishStep := do
  let current ← readSlot setup
  match current with
  | .indeterminate => return .retry .hostSlotIndeterminate
  | .placeholder none => return .untaggedPlaceholder
  | .placeholder (some origin) =>
      if origin ≠ setup.placeholderOrigin then return .foreignPlaceholder
      else do
        updateConfig (.writeFinished mode none)
        return .step (.outcome (.completed record.rowId operation .alreadyPresent))
  | current => do
      let nonEmpty ← slotAll
      if !nonEmpty then return .retry .tornRead
      else if renewedLogin setup record current then do
        updateConfig .clearRecord
        return .step .restart
      else if (recordedLogin record current).isNone then do
        updateConfig (.writeFinished mode none)
        return .step (.outcome (.completed record.rowId operation .slotMovedOn))
      else writePlaceholder setup mode record operation

/-- Runs `body` holding `lock`, which is released however `body` ends. -/
def withLock {α : Type} (lock : Lock) (body : Attempt α) : Attempt α := do
  acquire lock
  let result ← Throwing.attempt body
  release lock
  match result with
  | .ok a => return a
  | .error e => throw e

def finishTransfer (mode : Mode) (record : PendingTransfer) (operation : CompletedOperation) :
    Attempt FinishStep :=
  withLock .mainRefresh (finishUnderMainLock setup mode record operation)

/-- What a finished transfer does about a placeholder another store, or an
unknown one, has put into the slot. -/
def settle (mode : Mode) (record : PendingTransfer) (row : PoolRow) :
    FinishStep → Attempt RunStep
  | .step s => return s
  | .untaggedPlaceholder => do
      storeWrite (.disable record.rowId poolUntaggedTransferDisabledReason row.credentialEpoch
        row.identity)
      updateConfig (.writeFinished mode none)
      return .outcome (.refused .placeholderOriginUnknown)
  | .foreignPlaceholder => do
      storeWrite (.remove record.rowId record.credentialFingerprint)
      updateConfig .clearRecord
      updateConfig .repairShield
      return .outcome (.refused .placeholderWithoutMain)

/-- Everything after the row write. -/
def completeTransfer (mode : Mode) (record : PendingTransfer) (operation : CompletedOperation) :
    Attempt RunStep := do
  let verified ← verifyRow record
  match verified with
  | none => return .outcome (.retry .verifyFailed)
  | some row => do
      onlyIf record.carryLegacyMain (callThrowing (.carryLegacyMainState row) id)
      let result ← finishTransfer setup mode record operation
      settle mode record row result

/-- From the record on disk to the row write and what follows it. -/
def moveRecorded (mode : Mode) (record : PendingTransfer) (credential : SlotCredential)
    (operation : CompletedOperation) : Attempt RunStep := do
  let active ← legacyLeaseActive credential.refresh
  if active then return .restart
  else do
    let confirmed ← readSlot setup
    if (recordedLogin record confirmed).isNone then return .restart
    else do
      applyToRow record credential
      completeTransfer setup mode record operation

def executeTransfer (mode : Mode) (record : PendingTransfer) (credential : SlotCredential)
    (fresh : Bool) : Attempt RunStep :=
  if fresh then do
    updateConfig (.writeRecord record)
    moveRecorded setup mode record credential (.fresh record.operation)
  else moveRecorded setup mode record credential .resumed

/-! ## The run -/

/-- The checks that end a run before any lock, on the migration marker. -/
def gate (mode : Mode) (config : ConfigFile) : Attempt (Option PoolTransferOutcome) :=
  if config.book.pending.isSome then return none
  else if mode = .migrate ∧ config.book.migratedAt.isSome then do
    let load ← storeRead .gate
    match load with
    | .ready rows =>
        if hasMain rows then return some .alreadyMigrated
        else do
          let slot ← readSlot setup
          return some <|
            if placeholderWithoutMain slot (hasMain rows) config.book then
              .refused .placeholderWithoutMain
            else .alreadyMigrated
    | _ => return some .alreadyMigrated
  else if mode = .adopt ∧ config.book.migratedAt.isNone then return some .notMigrated
  else return none

/-- The rows to plan with; a legacy roster is initialized first. -/
def loadRows (book : PoolMigrationBookkeeping) :
    Attempt (PoolTransferOutcome ⊕ List PoolRow) := do
  let load ← storeRead .planning
  match load with
  | .ready rows => return .inr rows
  | .error file reason => return .inl (.error (file ++ ": " ++ reason))
  | .pendingMigration roster => do
      let slot ← readSlot setup
      if placeholderWithoutMain slot (hasMain roster) book then
        return .inl (.refused .placeholderWithoutMain)
      else do
        storeWrite .initializePool
        let load ← storeRead .planning
        match load with
        | .ready rows => return .inr rows
        | .error file reason => return .inl (.error (file ++ ": " ++ reason))
        | .pendingMigration _ => return .inl (.error "pool still pending migration")

/-- The plan made of the rows and of a slot view no lease covers. -/
def makePlan (mode : Mode) (book : PoolMigrationBookkeeping) (polls : Nat)
    (idHint : Option String) (rows : List PoolRow) : Attempt (PoolTransferOutcome ⊕ Plan) := do
  let slot ← readSlotHonouringLease setup polls
  match slot with
  | none => return .inl (.retry .legacyRefreshInProgress)
  | some .indeterminate => return .inl (.retry .hostSlotIndeterminate)
  | some slot =>
      if placeholderWithoutMain slot (hasMain rows) book then
        return .inl (.refused .placeholderWithoutMain)
      else do
        let at_ ← now
        let newId ← callPlain .newId
        return .inr (plan setup mode book rows slot idHint at_ newId)

/-- Carries out a plan. -/
def carryOut (mode : Mode) : Plan → Attempt RunStep
  | .nothing slot => do
      onlyIf (mode = .migrate) (updateConfig (.writeFinished mode none))
      return .outcome (.nothingToImport slot)
  | .dropRecord => do
      updateConfig .clearRecord
      return .restart
  | .ambiguous record => do
      updateConfig (.writeFinished mode (some record.slotFingerprint))
      return .outcome (.ambiguous record.rowId)
  | .finish record => completeTransfer setup mode record .resumed
  | .transfer record credential fresh => executeTransfer setup mode record credential fresh

/-- A later attempt of the same run names a new row as the first one did. -/
def Plan.idHint (idHint : Option String) : Plan → Option String
  | .transfer record _ true => some record.rowId
  | _ => idHint

/-- One round of `runLocked` from the gate on. -/
def planAndAct (mode : Mode) (polls : Nat) (book : PoolMigrationBookkeeping)
    (idHint : Option String) : Attempt (RunStep × Option String) := do
  let loaded ← loadRows setup book
  match loaded with
  | .inl o => return (.outcome o, idHint)
  | .inr rows => do
      let planned ← makePlan setup mode book polls idHint rows
      match planned with
      | .inl o => return (.outcome o, idHint)
      | .inr first => do
          let step ← carryOut setup mode first
          return (step, first.idHint idHint)

/-- `runLocked` with so many attempts left. -/
def runLockedFrom (mode : Mode) (polls : Nat) :
    Nat → Option String → Attempt PoolTransferOutcome
  | 0, _ => return .retry .unsettled
  | attempts + 1, idHint => do
      let config ← readConfig
      let early ← gate setup mode config
      match early with
      | some early => do
          onlyIf (early = .alreadyMigrated) (updateConfig .repairShield)
          return early
      | none => do
          let (step, idHint) ← planAndAct setup mode polls config.book idHint
          match step with
          | .outcome o => return o
          | .restart => runLockedFrom mode polls attempts idHint

def runLocked (mode : Mode) (polls : Nat) : Attempt PoolTransferOutcome :=
  runLockedFrom setup mode polls 4 none

/-- The outcome of a run that threw, where it is one. -/
def outcomeOfThrown : Except Thrown PoolTransferOutcome → Attempt PoolTransferOutcome
  | .ok o => return o
  | .error .legacyLockContention => return .retry .lockContention
  | .error (.poolOperation kind) =>
      return .retry (if kind = "lock-contention" then .lockContention else .store kind)
  | .error e => throw e

/-- The run from its locks on: a lock that times out ends it retryably. -/
def runWithLocks (mode : Mode) (polls : Nat) : Attempt PoolTransferOutcome := do
  let result ← Throwing.attempt
    (withLock .slotTransfer (withLock .poolMigration (runLocked setup mode polls)))
  outcomeOfThrown result

/-- Only a migration is given a version fence. -/
def fenceShut (mode : Mode) : Attempt Bool :=
  if mode = .migrate then callPlain .fenceBlocked else return false

/-- `run`: what `migrateToPool` and `adoptHostSlotLogin` both do. -/
def run (mode : Mode) (polls : Nat) : Attempt PoolTransferOutcome := do
  let disabled ← callPlain .migrationDisabledReason
  match disabled with
  | some reason => return .slotReadOnly reason
  | none => do
      let config ← Throwing.attempt readConfig
      match config with
      | .error (.other message) => return .error message
      | .error _ => return .error "config"
      | .ok config => do
          let early ← gate setup mode config
          match early with
          | some early => do
              onlyIf (early = .alreadyMigrated && config.mainAccountId.isSome)
                (updateConfig .repairShield)
              return early
          | none => do
              let blocked ← fenceShut mode
              if blocked then return .deferred
              else runWithLocks setup mode polls

def migrateToPool (polls : Nat) : Attempt PoolTransferOutcome := run setup .migrate polls

def adoptHostSlotLogin (polls : Nat) : Attempt PoolTransferOutcome := run setup .adopt polls

end Program

end PoolMigration
