import OpenaiAuth.Pool.Run

/-! # The world of a run

The host's login slot with one adapter over it, the config file, the pool store
and the locks. The store itself is not part of this repository: what its writes
do to the rows is a parameter. The host writes its slot whenever it likes, other
callers read the slot through the same adapter, rows are refreshed or changed
from outside, and a run stops for good at any call.

Every event the properties of a run speak about is logged, newest first.
-/

namespace PoolMigration

open Js Interleave

/-- The pool's files: the rows, once the pool key is written; before, the
legacy roster. -/
structure Pool where
  initialized : Bool
  rows : List PoolRow
deriving DecidableEq

def Pool.load (pool : Pool) : PoolLoad :=
  if pool.initialized then .ready pool.rows else .pendingMigration pool.rows

/-- What the store's writes do; `.error kind` is a `PoolOperationError`. -/
structure PoolStore where
  write : StoreWrite → Pool → Except String Pool

inductive Entry where
  /-- The start: the record an earlier run left in the config. -/
  | recordWritten (record : PendingTransfer)
  /-- Run `t` got the slot's value. -/
  | slotRead (t : Nat) (value : Option Json)
  /-- Another caller of the adapter got it. -/
  | slotReadByOther (value : Option Json)
  | poolRead (t : Nat) (site : ReadSite) (load : PoolLoad)
  /-- Run `t` gave row `id` a credential. -/
  | rowWritten (t : Nat) (id : String) (credential : SlotCredential)
  /-- A completed refresh of row `id` spent `spent` and stored `stored`. -/
  | refreshed (id spent stored : String)
  /-- The adapter re-read `was` and wrote the placeholder over it; `pending` is
  the record in the config then. -/
  | placeholderWritten (t : Nat) (was : Option Json) (pending : Option PendingTransfer)
  /-- Run `t` removed `record` together with the shield, while `row` was the
  row it names. -/
  | finished (t : Nat) (record : PendingTransfer) (row : Option PoolRow)
deriving DecidableEq

/-- The run an event belongs to. -/
def Entry.run? : Entry → Option Nat
  | recordWritten _ | slotReadByOther _ | refreshed _ _ _ => none
  | slotRead t _ | poolRead t _ _ | rowWritten t _ _ | placeholderWritten t _ _ |
    finished t _ _ => some t

structure World where
  slot : Option Json
  /-- The host's file holds a login of another provider. -/
  otherLogins : Bool
  /-- What the adapter's `get` last returned, if it was called. -/
  seen : Option (Option Json)
  config : ConfigFile
  pool : Pool
  holder : Lock → Option Nat
  /-- Newest first. -/
  log : List Entry

namespace World

/-- A world in which no run has started yet. -/
def initial (slot : Option Json) (otherLogins : Bool) (config : ConfigFile) (pool : Pool) :
    World where
  slot := slot
  otherLogins := otherLogins
  seen := none
  config := config
  pool := pool
  holder := fun _ => none
  log := (config.book.pending.map Entry.recordWritten).toList

def record (w : World) (e : Entry) : World := { w with log := e :: w.log }

def setHolder (w : World) (lock : Lock) (t : Option Nat) : World :=
  { w with holder := fun l => if l = lock then t else w.holder l }

/-- The adapter's `get` for run `t`. -/
def get (w : World) (t : Nat) : World :=
  { w with seen := some w.slot, log := .slotRead t w.slot :: w.log }

/-- The adapter's `get` for another caller. -/
def getByOther (w : World) : World :=
  { w with seen := some w.slot, log := .slotReadByOther w.slot :: w.log }

/-- The placeholder goes into the slot. -/
def putPlaceholder (w : World) (t : Nat) (origin : String) : World :=
  { w with
    slot := some (poolPlaceholder origin)
    log := .placeholderWritten t w.slot w.config.book.pending :: w.log }

/-- What an update of the config by run `t` adds to the log. -/
def updateEntries (w : World) (t : Nat) : ConfigUpdate → List Entry
  | .writeFinished _ _ =>
      (w.config.book.pending.map fun record =>
        Entry.finished t record (rowFor record.rowId w.pool.rows)).toList
  | .writeRecord record => [.recordWritten record]
  | _ => []

def update (w : World) (t now : Nat) (u : ConfigUpdate) : World :=
  { w with config := u.apply now w.config, log := w.updateEntries t u ++ w.log }

def writeRows (w : World) (t : Nat) (write : StoreWrite) (pool : Pool) : World :=
  { w with
    pool
    log := (write.credential.map fun (id, c) => Entry.rowWritten t id c).toList ++ w.log }

/-- The locks of a run whose process has ended are free again. -/
def dropLocks (w : World) (t : Nat) : World :=
  { w with holder := fun l => if w.holder l = some t then none else w.holder l }

/-- Row `id` holds a new token pair. -/
def refreshRow (w : World) (id spent : String) (credential : SlotCredential) : World :=
  { w with
    pool := { w.pool with rows := w.pool.rows.map fun row =>
      if row.id = id && !row.invalid then { row with credential := some (.oauth credential) }
      else row }
    log := .refreshed id spent credential.refresh :: w.log }

section Projections

variable (w : World) (t now : Nat) (e : Entry) (u : ConfigUpdate)

@[simp] theorem record_log : (w.record e).log = e :: w.log := rfl
@[simp] theorem record_slot : (w.record e).slot = w.slot := rfl
@[simp] theorem record_seen : (w.record e).seen = w.seen := rfl
@[simp] theorem record_config : (w.record e).config = w.config := rfl
@[simp] theorem record_pool : (w.record e).pool = w.pool := rfl
@[simp] theorem record_holder : (w.record e).holder = w.holder := rfl

@[simp] theorem update_slot : (w.update t now u).slot = w.slot := rfl
@[simp] theorem update_seen : (w.update t now u).seen = w.seen := rfl
@[simp] theorem update_pool : (w.update t now u).pool = w.pool := rfl
@[simp] theorem update_holder : (w.update t now u).holder = w.holder := rfl

@[simp] theorem setHolder_self (lock : Lock) (h : Option Nat) :
    (w.setHolder lock h).holder lock = h := by
  simp [setHolder]

theorem setHolder_ne {lock l : Lock} (h : Option Nat) (hne : l ≠ lock) :
    (w.setHolder lock h).holder l = w.holder l := by
  simp [setHolder, hne]

end Projections

end World

/-! ## The machine -/

/-- What the world chooses at a call. -/
inductive Choice where
  /-- The call does what it is for. -/
  | done
  /-- The call throws, or reads a store file it cannot parse. -/
  | fails (message : String)
  /-- The lock the call waits for stays held. -/
  | contended
  /-- What the clock shows. -/
  | time (n : Nat)
  | name (s : String)
  | flag (b : Bool)
deriving DecidableEq

section Machine

variable (setup : Setup) (store : PoolStore)

def exec (t : Nat) : (o : Call) → Choice → World → Option (o.Ans × World)
  | .migrationDisabledReason, .done, w => some (none, w)
  | .migrationDisabledReason, .name reason, w => some (some reason, w)
  | .fenceBlocked, .flag b, w => some (b, w)
  | .acquire lock, .done, w =>
      if w.holder lock = none then some (.ok (), w.setHolder lock (some t)) else none
  | .acquire _, .contended, w => some (.error .legacyLockContention, w)
  | .release lock, .done, w =>
      some ((), if w.holder lock = some t then w.setHolder lock none else w)
  | .readConfig, .done, w => some (.ok w.config, w)
  | .readConfig, .fails message, w => some (.error (.other message), w)
  | .updateConfig u, .time now, w => some (.ok (), w.update t now u)
  | .updateConfig _, .contended, w => some (.error .legacyLockContention, w)
  | .updateConfig _, .fails message, w => some (.error (.other message), w)
  | .storeRead site, .done, w =>
      some (w.pool.load, w.record (.poolRead t site w.pool.load))
  | .storeRead site, .fails message, w =>
      some (.error "" message, w.record (.poolRead t site (.error "" message)))
  | .storeWrite write, .done, w =>
      match store.write write w.pool with
      | .ok pool => some (.ok (), w.writeRows t write pool)
      | .error kind => some (.error (.poolOperation kind), w)
  | .storeWrite _, .contended, w => some (.error (.poolOperation "lock-contention"), w)
  | .storeWrite _, .fails message, w => some (.error (.other message), w)
  | .carryLegacyMainState _, .done, w => some (.ok (), w)
  | .carryLegacyMainState _, .fails message, w => some (.error (.other message), w)
  | .slotGet, .done, w => some (w.slot, w.get t)
  | .slotAll, .done, w => some (w.slot.isSome || w.otherLogins, w)
  | .slotSet, .done, w =>
      -- The adapter compares its last read, whoever made it, with one of its own.
      if w.seen = some w.slot then some (.ok (), w.putPlaceholder t setup.placeholderOrigin)
      else some (.error .hostSlotChanged, w)
  | .slotSet, .fails message, w => some (.error (.other message), w)
  | .now, .time now, w => some (now, w)
  | .sleep _, .done, w => some ((), w)
  | .newId, .name id, w => some (id, w)
  | .legacyLeaseActive _, .flag b, w => some (.ok b, w)
  | .legacyLeaseActive _, .fails message, w => some (.error (.other message), w)
  | _, _, _ => none

/-- What happens beside the runs. -/
inductive Move where
  /-- The host, or another store, leaves `slot` in the login slot. -/
  | hostWrites (slot : Option Json) (otherLogins : Bool)
  /-- Another caller of the adapter reads the slot, as `watchHostWrite` does. -/
  | otherReads
  /-- A pool refresh of row `id` completes; it holds the row's locks, so it is
  one step. -/
  | refreshed (id : String) (credential : SlotCredential)
  /-- The rows change in any other way. -/
  | poolChanges (pool : Pool)
deriving DecidableEq

def move : Move → World → Option World
  | .hostWrites slot otherLogins, w => some { w with slot, otherLogins }
  | .otherReads, w => some w.getByOther
  | .refreshed id credential, w =>
      ((rowFor id w.pool.rows).bind (·.refresh)).map fun spent => w.refreshRow id spent credential
  | .poolChanges pool, w => some { w with pool }

def machine : Machine calls where
  World := World
  Choice := Choice
  Move := Move
  exec := exec setup store
  move := move
  halt t w := w.dropLocks t

abbrev PoolConfig := Config (machine setup store) (Except Thrown PoolTransferOutcome)

abbrev PoolEvent := Event (machine setup store) (Except Thrown PoolTransferOutcome)

/-- `p` is a migration or an adoption. -/
def IsRun (p : Prog calls (Except Thrown PoolTransferOutcome)) : Prop :=
  ∃ mode polls, p = (run setup mode polls).run

/-- `w` is reached from `w₀` by the events `es`, which start only migrations
and adoptions: any number of them, in any order of their steps, each free to
stop at any call. -/
def Reaches (w₀ : World) (es : List (PoolEvent setup store)) (w : World) : Prop :=
  (∀ p, Event.start p ∈ es → IsRun setup p) ∧
    ∃ c : PoolConfig setup store, (Config.initial w₀).run es = some c ∧ c.world = w

end Machine

/-! ## Reading the log -/

/-- The tokens completed refreshes have spent. -/
def spent (log : List Entry) : List String :=
  log.filterMap fun
    | .refreshed _ spent _ => some spent
    | _ => none

/-- What the adapter's `get` last returned. -/
def lastSeen (log : List Entry) : Option (Option Json) :=
  log.findSome? fun
    | .slotRead _ value | .slotReadByOther value => some value
    | _ => none

/-- What the adapter's `get` last returned to run `t`. -/
def lastRead (t : Nat) (log : List Entry) : Option (Option Json) :=
  log.findSome? fun
    | .slotRead t' value => if t' = t then some value else none
    | _ => none

end PoolMigration
