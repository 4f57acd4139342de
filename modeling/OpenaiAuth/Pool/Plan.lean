import OpenaiAuth.Pool.Slot

/-! # Planning a transfer

The pool's rows, the bookkeeping of `pool-migration.ts` in the config file with
the four updates it makes to it, and the planner: which row a slot login goes
to, and what a run does next given the record an interrupted run may have left.
-/

namespace PoolMigration

open Js

/-! ## Pool rows -/

inductive Credential where
  | oauth (credential : SlotCredential)
  | api (key : String)
deriving DecidableEq, Repr

inductive RowType where
  | oauth
  | api
deriving DecidableEq, Repr

structure PoolRow where
  id : String
  type : RowType
  enabled : Bool
  /-- The row's stored record could not be read. -/
  invalid : Bool := false
  identity : Option String := none
  credential : Option Credential := none
  credentialEpoch : Option Nat := none
deriving DecidableEq, Repr

namespace PoolRow

/-- `row.fingerprint`, the pool's fingerprint of the credential it holds. -/
def fingerprint (row : PoolRow) : Option Fingerprint :=
  row.credential.map fun
    | .oauth c => c.credentialFingerprint
    | .api key => .api key

/-- The refresh token the row holds. -/
def refresh (row : PoolRow) : Option String :=
  match row.credential with
  | some (.oauth c) => some c.refresh
  | _ => none

theorem fingerprint_eq_oauth {row : PoolRow} {token : String} :
    row.fingerprint = some (.oauth token) ↔ row.refresh = some token := by
  unfold fingerprint refresh
  rcases row.credential with _ | c | key <;> simp [SlotCredential.credentialFingerprint]

end PoolRow

/-- `rows.find((r) => r.id === id && !r.invalid)` -/
def rowFor (id : String) (rows : List PoolRow) : Option PoolRow :=
  rows.find? fun row => row.id = id && !row.invalid

def hasMain (rows : List PoolRow) : Bool := rows.any (·.id = "main")

/-! ## Bookkeeping -/

inductive Mode where
  | migrate
  | adopt
deriving DecidableEq, Repr

inductive Operation where
  | add
  | rotate
  | replace
deriving DecidableEq, Repr

/-- Durable record of one slot-to-row transfer, written before the row. -/
structure PendingTransfer where
  rowId : String
  operation : Operation
  /-- The row's credential fingerprint before the transfer. -/
  rowFingerprint : Option Fingerprint
  slotFingerprint : Fingerprint
  credentialFingerprint : Fingerprint
  identity : Option String
  /-- Carry the legacy `state.main` quota and backoff onto the row. -/
  carryLegacyMain : Bool
  recordedAt : Nat
deriving DecidableEq, Repr

structure PoolMigrationBookkeeping where
  migratedAt : Option Nat := none
  pending : Option PendingTransfer := none
  declinedSlotFingerprint : Option Fingerprint := none
deriving DecidableEq, Repr

/-- The config file. `others` are the keys no code here reads. -/
structure ConfigFile where
  mainAccountId : Option String := none
  routing : Option Json := none
  book : PoolMigrationBookkeeping := {}
  others : Members := []
deriving DecidableEq

/-- The legacy meaning of an unset `routing.mode` is written out. -/
def pinLegacyRoutingDefault : Option Json → Option Json
  | none => some (.obj [("mode", .str "main-first")])
  | some (.obj members) =>
      if (members.lookup "mode").isNone then
        some (.obj (Members.set "mode" (.str "main-first") members))
      else some (.obj members)
  | some routing => some routing

/-- The updates a run makes to the config, each under the `save` lock pair. -/
inductive ConfigUpdate where
  | writeFinished (mode : Mode) (declinedSlotFingerprint : Option Fingerprint)
  | clearRecord
  | writeRecord (record : PendingTransfer)
  | repairShield
deriving DecidableEq

namespace ConfigUpdate

/-- What an update leaves of the config; `now` is the time it reads. -/
def apply (now : Nat) (config : ConfigFile) : ConfigUpdate → ConfigFile
  | writeFinished mode declined =>
      let book := config.book
      { config with
        mainAccountId := none
        routing :=
          if mode = .migrate ∧ book.migratedAt = none then pinLegacyRoutingDefault config.routing
          else config.routing
        book := {
          migratedAt :=
            if book.migratedAt.isSome ∨ mode = .migrate then some (book.migratedAt.getD now)
            else none
          pending := none
          declinedSlotFingerprint := declined.or book.declinedSlotFingerprint } }
  | clearRecord => { config with book := { config.book with pending := none } }
  | writeRecord record =>
      { config with
        mainAccountId := record.identity.or config.mainAccountId
        book := { config.book with pending := some record } }
  | repairShield =>
      if config.book.pending.isSome then config else { config with mainAccountId := none }

/-- The record in the config after an update. -/
def pendingAfter (pending : Option PendingTransfer) : ConfigUpdate → Option PendingTransfer
  | writeFinished _ _ | clearRecord => none
  | writeRecord record => some record
  | repairShield => pending

@[simp] theorem apply_pending (u : ConfigUpdate) (now : Nat) (config : ConfigFile) :
    (u.apply now config).book.pending = u.pendingAfter config.book.pending := by
  cases u with
  | repairShield =>
      unfold apply pendingAfter
      dsimp only
      split <;> rfl
  | _ => rfl

end ConfigUpdate

/-! ## The planner -/

inductive SlotNothingKind where
  | api
  | placeholder
  | empty
  | tombstone
  | slotAbsent
  | declined
deriving DecidableEq, Repr

inductive Plan where
  | nothing (slot : SlotNothingKind)
  | dropRecord
  | ambiguous (record : PendingTransfer)
  | finish (record : PendingTransfer)
  | transfer (record : PendingTransfer) (credential : SlotCredential) (fresh : Bool)
deriving DecidableEq, Repr

def placeholderWithoutMain (slot : SlotView) (hasMain : Bool)
    (book : PoolMigrationBookkeeping) : Bool :=
  match slot with
  | .placeholder _ => !hasMain && book.pending.isNone
  | _ => false

def usableAsId (value : String) : Bool :=
  !value.isEmpty && !(value.toList.head?.any isTrimmed) && !(value.toList.getLast?.any isTrimmed) &&
    value ∉ ["__proto__", "constructor", "prototype", "main"]

/-- The row a slot login goes to, as the record of its transfer. -/
def resolveTarget (setup : Setup) (mode : Mode) (rows : List PoolRow) (slot : SlotCredential)
    (idHint : Option String) (now : Nat) (newId : String) : PendingTransfer :=
  let identity := slot.identity setup
  let record : PendingTransfer := {
    rowId := "main"
    operation := .add
    rowFingerprint := none
    slotFingerprint := slot.fingerprint
    credentialFingerprint := slot.credentialFingerprint
    identity
    carryLegacyMain := mode = .migrate
    recordedAt := now }
  let same := rows.find? fun row =>
    !row.invalid && row.fingerprint = some slot.credentialFingerprint
  match same with
  | some same =>
      { record with
        rowId := same.id
        operation := .rotate
        rowFingerprint := same.fingerprint
        carryLegacyMain := mode = .migrate && same.id = "main" }
  | none =>
      -- A missing or empty `main` is filled whoever signs in.
      let fillMain := match rows.find? (·.id = "main") with
        | none => true
        | some main => !main.invalid && main.credential.isNone
      if fillMain then record
      else
        let holder := identity.bind fun identity => rows.find? fun row =>
          !row.invalid && row.type = .oauth && row.enabled && row.identity = some identity
        match holder with
        | some holder =>
            { record with
              rowId := holder.id
              operation := .replace
              rowFingerprint := holder.fingerprint
              carryLegacyMain := mode = .migrate && holder.id = "main" }
        | none =>
            let named := identity.filter fun identity =>
              usableAsId identity && rows.all (·.id ≠ identity)
            { record with
              rowId := idHint.getD (named.getD newId)
              carryLegacyMain := false }

/-- The slot's login, when it is the one `record` names. -/
def recordedLogin (record : PendingTransfer) : SlotView → Option SlotCredential
  | .real c => if c.fingerprint = record.slotFingerprint then some c else none
  | _ => none

/-- What a run does with a pending record: the recorded row's credential says
how far the interrupted transfer got. -/
def planPending (record : PendingTransfer) (rows : List PoolRow) (slot : SlotView) : Plan :=
  let row := rowFor record.rowId rows
  let rowFingerprint := row.bind (·.fingerprint)
  if row.isSome ∧ rowFingerprint = some record.credentialFingerprint then .finish record
  else if (row.isSome ∨ record.rowFingerprint = none) ∧ rowFingerprint = record.rowFingerprint then
    match recordedLogin record slot with
    | some credential => .transfer record credential false
    | none => .dropRecord
  else if row = none then .dropRecord
  else if (recordedLogin record slot).isSome then .ambiguous record
  else .dropRecord

/-- Decides what one run does. -/
def plan (setup : Setup) (mode : Mode) (book : PoolMigrationBookkeeping) (rows : List PoolRow)
    (slot : SlotView) (idHint : Option String) (now : Nat) (newId : String) : Plan :=
  match book.pending with
  | some record => planPending record rows slot
  | none =>
      match slot with
      | .indeterminate => .dropRecord
      | .api => .nothing .api
      | .placeholder _ => .nothing .placeholder
      | .empty => .nothing .empty
      | .tombstone => .nothing .tombstone
      | .slotAbsent => .nothing .slotAbsent
      | .real credential =>
          if book.declinedSlotFingerprint = some credential.fingerprint then .nothing .declined
          else .transfer (resolveTarget setup mode rows credential idHint now newId) credential true

end PoolMigration
