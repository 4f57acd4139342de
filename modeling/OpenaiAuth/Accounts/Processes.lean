import OpenaiAuth.Accounts.Writes
import OpenaiAuth.Interleave.Knowledge

/-! # Processes on one account store

The writers of the two files and the refresh of a row, call by call, and the
world they share: the files, their locks, the provider and the snapshots that
callers hold. Any number of processes run at once, and each may stop for good at
any call, which frees its locks. What the properties speak about is logged,
newest first.
-/

namespace Accounts

open Js Interleave

/-! ## Calls -/

/-- The lock files: one for each store file, one for the refresh of a row. -/
inductive StoreLock where
  | config
  | state
  | refresh (id : String)
deriving DecidableEq, Repr

/-- Who writes the state file: a writer of the whole store, or a save of the state
alone with its accounts scope. -/
inductive Writer where
  | store
  | state (accounts : Option AccountsScope)
deriving DecidableEq, Repr

/-- What a caller holds a store in memory for. -/
inductive Purpose where
  | saveStore
  | saveState (scope : AccountStateSaveScope)
  | refresh (id : String)
deriving DecidableEq, Repr

/-- What the provider answers to a refresh. -/
structure TokenAnswer where
  access : String
  refresh : String
  expires : ℚ
  expiresIn : ℚ
deriving DecidableEq, Repr

/-- The time the token was minted. -/
def TokenAnswer.refreshedAt (answer : TokenAnswer) : ℚ := answer.expires - answer.expiresIn * 1000

inductive Call where
  /-- Waits for a lock file until a deadline; whether it was acquired. -/
  | acquire (lock : StoreLock)
  | release (lock : StoreLock)
  | readConfig
  | readState
  | writeConfig (value : Json)
  | writeState (writer : Writer) (value : Json)
  | canWrite
  | clock
  | newIds
  /-- The store a caller has in hand. -/
  | snapshot (purpose : Purpose)
  /-- Sends a row's refresh token to the provider. -/
  | provider (id token : String)
  /-- One wait of the poll for another process's refresh. -/
  | sleep
deriving DecidableEq

def Call.Ans : Call → Type
  | acquire _ | canWrite => Bool
  | release _ | sleep => Unit
  | readConfig | readState => Except Unit (Option Json)
  | writeConfig _ | writeState _ _ => Except Unit Unit
  | clock => ℚ
  | newIds => ℕ → String
  | snapshot _ => AccountStorage
  | provider _ _ => Except Unit TokenAnswer

abbrev calls : Sig where
  Call := Call
  Ans := Call.Ans

/-- A piece of a process; which error it throws does not matter here. -/
abbrev StoreOp (α : Type) := Throwing Unit calls α

def callPlain (o : Call) : StoreOp o.Ans := Throwing.perform o Except.ok

def callThrowing {α : Type} (o : Call) (ans : o.Ans → Except Unit α) : StoreOp α :=
  Throwing.perform o ans

def acquire (lock : StoreLock) : StoreOp Bool := callPlain (.acquire lock)

def release (lock : StoreLock) : StoreOp Unit := callPlain (.release lock)

def canWrite : StoreOp Bool := callPlain .canWrite

def clock : StoreOp ℚ := callPlain .clock

def newIds : StoreOp (ℕ → String) := callPlain .newIds

def snapshot (purpose : Purpose) : StoreOp AccountStorage := callPlain (.snapshot purpose)

def provider (id token : String) : StoreOp TokenAnswer :=
  callThrowing (.provider id token) fun answer => answer

def sleep : StoreOp Unit := callPlain .sleep

/-! ## The files -/

def readConfig : StoreOp (Option Json) := callThrowing .readConfig id

def readState : StoreOp (Option Json) := callThrowing .readState id

def writeConfig (value : Json) : StoreOp Unit := callThrowing (.writeConfig value) id

def writeState (writer : Writer) (value : Json) : StoreOp Unit :=
  callThrowing (.writeState writer value) id

/-- `try { body } finally { lock.release() }` -/
def releasing {α : Type} (lock : StoreLock) (body : StoreOp α) : StoreOp α := do
  let result ← Throwing.attempt body
  release lock
  match result with
  | .ok a => pure a
  | .error e => throw e

/-- `acquireSaveAccountsLock`, the body, and the release. -/
def withLock {α : Type} (lock : StoreLock) (body : StoreOp α) : StoreOp α := do
  if ← acquire lock then releasing lock body else throw ()

/-- `loadAccounts`, which takes no lock. -/
def load (rt : Runtime) : StoreOp (Option AccountStorage) := do
  match ← readConfig with
  | none => pure none
  | some config =>
      let state ← readState
      let uuid ← newIds
      pure (loadAccounts rt uuid { config := some config, state })

/-- `null` when the config cannot be read. -/
def readConfigRosterIds : StoreOp (Option (List String)) := do
  match ← Throwing.attempt readConfig with
  | .ok value => pure (collectConfigRosterIds (value.getD .null))
  | .error _ => pure none

variable (rt : Runtime)

/-! ## The writers -/

/-- The part of a store write that runs under both locks. -/
def writeLocked (call : ℚ → StoreCall) : StoreOp Unit := do
  let config ← readConfig
  let state ← readState
  let uuid ← newIds
  let now ← clock
  let disk : Disk := { config, state }
  if ← canWrite then
    writeConfig ((call now).config rt uuid disk)
    if ← canWrite then
      writeState .store ((call now).state rt uuid disk)

/-- The config lock is the outer one. -/
def writeStore (call : ℚ → StoreCall) : StoreOp Unit :=
  withLock .config (withLock .state (writeLocked rt call))

def mutateAccounts (mutate : AccountStorage → MutateAccountsContext → AccountStorage)
    (allowDrop : List String) : StoreOp Unit :=
  writeStore rt fun _ => .mutateAccounts mutate allowDrop

def saveAccounts (storage : AccountStorage) (owns : String → Bool) : StoreOp Unit :=
  writeStore rt fun now => .saveAccounts storage owns now

/-- The roster is read only for a save with an accounts scope. -/
def rosterFor (scope : AccountStateSaveScope) : StoreOp (Option (List String)) :=
  if scope.accounts.isSome then readConfigRosterIds else pure none

/-- The end of a state save; `none` is a patch that threw. -/
def writeNext (accounts : Option AccountsScope) : Option Json → StoreOp Unit
  | none => throw ()
  | some next => do
      if ← canWrite then writeState (.state accounts) next

/-- The part of a state save that runs under the state lock. -/
def saveLocked (storage : AccountStorage) (scope : AccountStateSaveScope) : StoreOp Unit := do
  let existing ← readState
  let roster ← rosterFor scope
  let now ← clock
  writeNext scope.accounts (nextState rt now scope roster storage (existing.getD .null))

/-- It takes the state lock only. -/
def saveAccountState (storage : AccountStorage) (scope : AccountStateSaveScope) : StoreOp Unit :=
  withLock .state (saveLocked rt storage scope)

/-! ## The refresh of a row -/

/-- The row with this id, if it is a readable OAuth row. -/
def findOAuth (storage : Option AccountStorage) (id : String) : Option OAuthAccount := do
  let storage ← storage
  storage.accounts.findSome? fun account => if account.id = id then account.oauth? else none

def updateRow (row : OAuthAccount) : List FallbackAccount → List FallbackAccount
  | [] => []
  | account :: rest =>
      if account.id = row.id then .oauth row :: rest else account :: updateRow row rest

/-- The first row with the id is replaced; a row that is not there is not added. -/
def updateStoredAccount (storage : AccountStorage) (row : OAuthAccount) : AccountStorage :=
  { storage with accounts := updateRow row storage.accounts }

def truthy (text : Option String) : Bool := text.any fun s => s ≠ ""

def isShieldedMainRow (storage : Option AccountStorage) (row : OAuthAccount) : Bool :=
  let mainAccountId := storage.bind AccountStorage.mainAccountId
  truthy mainAccountId && truthy row.accountId && row.accountId == mainAccountId

def refreshBeforeExpiryMs (storage : Option AccountStorage) : Option ℚ :=
  let minutes := (storage.bind AccountStorage.refresh).bind fun refresh =>
    refresh "refreshBeforeExpiryMinutes"
  match minutes with
  | none | some .null => some (240 * 60000)
  | some minutes => (rt.number minutes).map fun minutes => minutes * 60000

def tokenNeedsRefresh (row : OAuthAccount) (storage : Option AccountStorage) (now : ℚ) : Bool :=
  !truthy row.access ||
    match row.expires with
    | none => true
    | some expires =>
        expires = 0 || (refreshBeforeExpiryMs rt storage).any fun before => expires - now ≤ before

/-- The part of `refreshBackoffActive` on a stored error. -/
def refreshBackoffActive (error : Option Json) (refreshToken : String) (now : ℚ) : Bool :=
  match error with
  | none => false
  | some error =>
      match rt.numberOf (error.get? "nextRetryAt") with
      | none => false
      | some nextRetryAt =>
          nextRetryAt ≠ 0 && now < nextRetryAt &&
            (refreshToken = "" ||
              stringOf (error.get? "tokenHash") = some (rt.hashRefreshToken refreshToken))

structure RefreshAccountOptions where
  force : Bool := false
  asPoolMain : Bool := false
deriving DecidableEq, Repr

/-- What the loaded row decides before any request: a tombstone or a shielded row
throws, and a token that is not due is used as it is. -/
def checkRow (options : RefreshAccountOptions) (latest : Option AccountStorage)
    (row : Option OAuthAccount) : StoreOp (Option OAuthAccount) :=
  match row with
  | none => pure none
  | some row =>
      if rt.isTombstoneRefresh row.refresh then throw ()
      else if !options.asPoolMain && isShieldedMainRow latest row then throw ()
      else if options.force then pure none
      else do
        let now ← clock
        pure (if tokenNeedsRefresh rt row latest now then none else some row)

/-- Polls for another process's refresh; it writes nothing. -/
def waitForConcurrentFallbackRefresh (id : String) (storage : AccountStorage)
    (previous : OAuthAccount) (options : RefreshAccountOptions) :
    ℕ → StoreOp (Option AccountStorage)
  | 0 => pure none
  | polls + 1 => do
      sleep
      let latest ← load rt
      match findOAuth latest id with
      | none => waitForConcurrentFallbackRefresh id storage previous options polls
      | some row =>
          if rt.isTombstoneRefresh row.refresh then throw ()
          else do
            let now ← clock
            let changed := row.access ≠ previous.access ∨ row.refresh ≠ previous.refresh ∨
              previous.expires.getD 0 + 60000 < row.expires.getD 0
            if changed ∧ (options.force ∨ ¬tokenNeedsRefresh rt row latest now) then
              pure (some (updateStoredAccount storage row))
            else if refreshBackoffActive rt row.lastRefreshError row.refresh now then throw ()
            else waitForConcurrentFallbackRefresh id storage previous options polls

/-- `FALLBACK_REFRESH_JOIN_WAIT_MS / FALLBACK_REFRESH_JOIN_POLL_MS` -/
def joinPolls : ℕ := 10000 / 100

/-- The row with the tokens of an answer. -/
def OAuthAccount.refreshedBy (row : OAuthAccount) (answer : TokenAnswer) : OAuthAccount :=
  { row with
    access := some answer.access
    refresh := answer.refresh
    expires := some answer.expires
    lastRefreshedAt := some answer.refreshedAt
    lastRefreshError := none }

/-- The part of a refresh that runs under the row's lock. -/
def refreshLocked (id : String) (storage : AccountStorage) (options : RefreshAccountOptions) :
    StoreOp AccountStorage := do
  let latest ← load rt
  match findOAuth latest id with
  | none => throw ()
  | some row =>
      match ← checkRow rt options latest (some row) with
      | some usable => pure (updateStoredAccount storage usable)
      | none =>
          let answer ← provider id row.refresh
          let storage := updateStoredAccount storage (row.refreshedBy answer)
          saveAccountState rt storage { accounts := some .all }
          let refreshed ← load rt
          if refreshed.any fun storage => storage.accounts.any fun account => account.id == id then
            pure storage
          else throw ()

/-- The caller's `account` names the row; its `storage` is changed in place. -/
def refreshAccountNow (account : OAuthAccount) (storage : AccountStorage)
    (options : RefreshAccountOptions) : StoreOp AccountStorage := do
  let latest ← load rt
  match ← checkRow rt options latest (findOAuth latest account.id) with
  | some usable => pure (updateStoredAccount storage usable)
  | none =>
      let previous := (findOAuth latest account.id).getD account
      if ← acquire (.refresh previous.id) then
        releasing (.refresh previous.id) (refreshLocked rt account.id storage options)
      else
        match ← waitForConcurrentFallbackRefresh rt account.id storage previous options joinPolls with
        | some storage => pure storage
        | none => throw ()

/-! ## Processes -/

/-- What a process does: a mutation, a save with a store it holds, or a refresh. -/
inductive Process where
  | mutateAccounts (mutate : AccountStorage → MutateAccountsContext → AccountStorage)
      (allowDrop : List String)
  | saveAccounts (owns : String → Bool)
  | saveAccountState (scope : AccountStateSaveScope)
  | refreshAccount (account : OAuthAccount) (options : RefreshAccountOptions)

def Process.program : Process → StoreOp Unit
  | .mutateAccounts mutate allowDrop => Accounts.mutateAccounts rt mutate allowDrop
  | .saveAccounts owns => do
      let storage ← snapshot .saveStore
      Accounts.saveAccounts rt storage owns
  | .saveAccountState scope => do
      let storage ← snapshot (.saveState scope)
      Accounts.saveAccountState rt storage scope
  | .refreshAccount account options => do
      let storage ← snapshot (.refresh account.id)
      let _ ← refreshAccountNow rt account storage options
      pure ()

/-! ## The world -/

inductive Logged where
  | configWritten (t : ℕ) (value : Json)
  | stateWritten (t : ℕ) (writer : Writer) (before : Option Json) (after : Json)
  | snapshotTaken (t : ℕ) (purpose : Purpose) (storage : AccountStorage)
  | tokenRefreshed (t : ℕ) (id sent : String) (answer : TokenAnswer)

structure World where
  config : Option Json
  state : Option Json
  holder : StoreLock → Option ℕ
  /-- Newest first. -/
  log : List Logged

namespace World

/-- No lock is held. -/
def quiet (config state : Option Json) (log : List Logged) : World where
  config := config
  state := state
  holder := fun _ => none
  log := log

def initial (config state : Option Json) : World := quiet config state []

def setHolder (w : World) (lock : StoreLock) (t : Option ℕ) : World :=
  { w with holder := fun l => if l = lock then t else w.holder l }

theorem setHolder_self (w : World) (lock : StoreLock) (t : Option ℕ) :
    (w.setHolder lock t).holder lock = t :=
  if_pos rfl

theorem setHolder_of_ne (w : World) {lock l : StoreLock} (t : Option ℕ) (h : l ≠ lock) :
    (w.setHolder lock t).holder l = w.holder l :=
  if_neg h

def record (w : World) (entry : Logged) : World := { w with log := entry :: w.log }

def putConfig (w : World) (t : ℕ) (value : Json) : World :=
  { w with config := some value, log := .configWritten t value :: w.log }

def putState (w : World) (t : ℕ) (writer : Writer) (value : Json) : World :=
  { w with state := some value, log := .stateWritten t writer w.state value :: w.log }

/-- The locks of a process that has stopped are free again. -/
def dropLocks (w : World) (t : ℕ) : World :=
  { w with holder := fun l => if w.holder l = some t then none else w.holder l }

end World

/-- What the world chooses at a call. -/
inductive Choice where
  | done
  /-- The call throws, or the lock stays held. A write that throws may still have
  replaced the file. -/
  | fails (effect : Bool)
  | flag (b : Bool)
  | time (now : ℚ)
  | ids (uuid : ℕ → String)
  | store (storage : AccountStorage)
  | answer (answer : TokenAnswer)

/-- A file that is there can be read; the state file may fail to. -/
def exec (t : ℕ) : (o : Call) → Choice → World → Option (o.Ans × World)
  | .acquire lock, .done, w =>
      if w.holder lock = none then some (true, w.setHolder lock (some t)) else none
  | .acquire _, .fails _, w => some (false, w)
  | .release lock, .done, w =>
      some ((), if w.holder lock = some t then w.setHolder lock none else w)
  | .readConfig, .done, w => some (.ok w.config, w)
  | .readState, .done, w => some (.ok w.state, w)
  | .readState, .fails _, w => some (.error (), w)
  | .writeConfig value, .done, w => some (.ok (), w.putConfig t value)
  | .writeConfig value, .fails effect, w =>
      some (.error (), if effect then w.putConfig t value else w)
  | .writeState writer value, .done, w => some (.ok (), w.putState t writer value)
  | .writeState writer value, .fails effect, w =>
      some (.error (), if effect then w.putState t writer value else w)
  | .canWrite, .flag b, w => some (b, w)
  | .clock, .time now, w => some (now, w)
  | .newIds, .ids uuid, w => some (uuid, w)
  | .snapshot purpose, .store storage, w => some (storage, w.record (.snapshotTaken t purpose storage))
  | .provider id token, .answer answer, w =>
      some (.ok answer, w.record (.tokenRefreshed t id token answer))
  | .provider _ _, .fails _, w => some (.error (), w)
  | .sleep, .done, w => some ((), w)
  | _, _, _ => none

/-! ### What a call does -/

section Exec

variable {t : ℕ} {lock : StoreLock} {ch : Choice} {w w' : World}

theorem exec_acquire {r : Bool} (h : exec t (.acquire lock) ch w = some (r, w')) :
    (r = true ∧ w.holder lock = none ∧ w' = w.setHolder lock (some t)) ∨ (r = false ∧ w' = w) := by
  cases ch with
  | done =>
      rw [exec] at h
      split at h
      · rename_i hfree
        obtain ⟨rfl, rfl⟩ := Prod.mk.inj (Option.some.inj h)
        exact .inl ⟨rfl, hfree, rfl⟩
      · cases h
  | fails effect =>
      obtain ⟨rfl, rfl⟩ := Prod.mk.inj (Option.some.inj h)
      exact .inr ⟨rfl, rfl⟩
  | _ => cases h

theorem exec_release {r : Unit} (h : exec t (.release lock) ch w = some (r, w')) :
    w' = if w.holder lock = some t then w.setHolder lock none else w := by
  cases ch with
  | done => exact (Prod.mk.inj (Option.some.inj h)).2.symm
  | _ => cases h

theorem exec_readConfig {r : Except Unit (Option Json)}
    (h : exec t .readConfig ch w = some (r, w')) : r = .ok w.config ∧ w' = w := by
  cases ch with
  | done =>
      obtain ⟨rfl, rfl⟩ := Prod.mk.inj (Option.some.inj h)
      exact ⟨rfl, rfl⟩
  | _ => cases h

theorem exec_readState {r : Except Unit (Option Json)}
    (h : exec t .readState ch w = some (r, w')) :
    (r = .ok w.state ∨ r = .error ()) ∧ w' = w := by
  cases ch with
  | done =>
      obtain ⟨rfl, rfl⟩ := Prod.mk.inj (Option.some.inj h)
      exact ⟨.inl rfl, rfl⟩
  | fails effect =>
      obtain ⟨rfl, rfl⟩ := Prod.mk.inj (Option.some.inj h)
      exact ⟨.inr rfl, rfl⟩
  | _ => cases h

/-- A write that throws may have taken effect. -/
theorem exec_writeConfig {value : Json} {r : Except Unit Unit}
    (h : exec t (.writeConfig value) ch w = some (r, w')) :
    w' = w.putConfig t value ∨ (r = .error () ∧ w' = w) := by
  cases ch with
  | done => exact .inl (Prod.mk.inj (Option.some.inj h)).2.symm
  | fails effect =>
      obtain ⟨rfl, rfl⟩ := Prod.mk.inj (Option.some.inj h)
      cases effect with
      | true => exact .inl rfl
      | false => exact .inr ⟨rfl, rfl⟩
  | _ => cases h

theorem exec_writeState {writer : Writer} {value : Json} {r : Except Unit Unit}
    (h : exec t (.writeState writer value) ch w = some (r, w')) :
    w' = w.putState t writer value ∨ (r = .error () ∧ w' = w) := by
  cases ch with
  | done => exact .inl (Prod.mk.inj (Option.some.inj h)).2.symm
  | fails effect =>
      obtain ⟨rfl, rfl⟩ := Prod.mk.inj (Option.some.inj h)
      cases effect with
      | true => exact .inl rfl
      | false => exact .inr ⟨rfl, rfl⟩
  | _ => cases h

theorem exec_canWrite {r : Bool} (h : exec t .canWrite ch w = some (r, w')) : w' = w := by
  cases ch with
  | flag b => exact (Prod.mk.inj (Option.some.inj h)).2.symm
  | _ => cases h

theorem exec_clock {r : ℚ} (h : exec t .clock ch w = some (r, w')) : w' = w := by
  cases ch with
  | time now => exact (Prod.mk.inj (Option.some.inj h)).2.symm
  | _ => cases h

theorem exec_newIds {r : ℕ → String} (h : exec t .newIds ch w = some (r, w')) : w' = w := by
  cases ch with
  | ids uuid => exact (Prod.mk.inj (Option.some.inj h)).2.symm
  | _ => cases h

theorem exec_sleep {r : Unit} (h : exec t .sleep ch w = some (r, w')) : w' = w := by
  cases ch with
  | done => exact (Prod.mk.inj (Option.some.inj h)).2.symm
  | _ => cases h

theorem exec_snapshot {purpose : Purpose} {r : AccountStorage}
    (h : exec t (.snapshot purpose) ch w = some (r, w')) :
    w' = w.record (.snapshotTaken t purpose r) := by
  cases ch with
  | store storage =>
      obtain ⟨rfl, rfl⟩ := Prod.mk.inj (Option.some.inj h)
      rfl
  | _ => cases h

theorem exec_provider {id token : String} {r : Except Unit TokenAnswer}
    (h : exec t (.provider id token) ch w = some (r, w')) :
    (∃ answer, r = .ok answer ∧ w' = w.record (.tokenRefreshed t id token answer)) ∨
      (r = .error () ∧ w' = w) := by
  cases ch with
  | answer answer =>
      obtain ⟨rfl, rfl⟩ := Prod.mk.inj (Option.some.inj h)
      exact .inl ⟨answer, rfl, rfl⟩
  | fails effect =>
      obtain ⟨rfl, rfl⟩ := Prod.mk.inj (Option.some.inj h)
      exact .inr ⟨rfl, rfl⟩
  | _ => cases h

end Exec

def machine : Machine calls where
  World := World
  Choice := Choice
  Move := Empty
  exec := exec
  move m := nomatch m
  halt t w := w.dropLocks t

abbrev StoreConfig := Config machine (Except Unit Unit)

abbrev StoreEvent := Event machine (Except Unit Unit)

/-- `p` is what one of the processes runs. -/
def IsProcess (p : Prog calls (Except Unit Unit)) : Prop :=
  ∃ process : Process, p = (process.program rt).run

/-- The world `w` is reached from `w₀` by some interleaving of processes. -/
def Reaches (w₀ w : World) : Prop :=
  ∃ c : StoreConfig, Config.RunsTo (IsProcess rt) (Config.initial w₀) c ∧ c.world = w

/-! ### Processes that run alone -/

section Alone

variable {rt} {w₀ : World} {config state : Option Json} {log : List Logged}

/-- A mutation whose process dies between its two writes. -/
theorem reaches_mutation_cut (h : Reaches rt w₀ (World.quiet config state log))
    (mutate : AccountStorage → MutateAccountsContext → AccountStorage) (allowDrop : List String)
    (uuid : ℕ → String) (now : ℚ) :
    let value := (StoreCall.mutateAccounts mutate allowDrop).config rt uuid { config, state }
    ∃ t, Reaches rt w₀ (World.quiet (some value) state (.configWritten t value :: log)) := by
  intro value
  obtain ⟨c, hruns, hw⟩ := h
  have hprocess : IsProcess rt ((Process.mutateAccounts mutate allowDrop).program rt).run :=
    ⟨_, rfl⟩
  obtain ⟨q, w, hdrive, hw'⟩ : ∃ (q : Prog calls (Except Unit Unit)) (w : World),
      machine.drive c.next
        [.done, .done, .done, .done, .ids uuid, .time now, .flag true, .done]
        ((Process.mutateAccounts mutate allowDrop).program rt).run c.world = some (q, w) ∧
      w.dropLocks c.next = World.quiet (some value) state (.configWritten c.next value :: log) := by
    rw [hw]
    refine ⟨_, _, rfl, ?_⟩
    simp only [World.dropLocks, World.putConfig, World.quiet, World.setHolder]
    congr 1
    funext lock
    split_ifs <;> simp_all
  obtain ⟨d, hstarted, rfl, hthread, -, -⟩ := Machine.runsTo_start hprocess hdrive
  let stopped : StoreConfig := { d.setThread c.next none with world := d.world.dropLocks c.next }
  have hstop : d.run [.stop c.next] = some stopped := by
    simp only [Config.run, Config.step, hthread, Option.map_some, Option.bind_some]
    rfl
  exact ⟨c.next, stopped, (hruns.trans hstarted).trans ⟨[.stop c.next], by simp, hstop⟩, hw'⟩

/-- A save of the state file with an accounts scope. -/
theorem reaches_save (h : Reaches rt w₀ (World.quiet config state log)) (storage : AccountStorage)
    (accounts : AccountsScope) (now : ℚ) {next : Json}
    (hnext : nextState rt now { accounts := some accounts }
      (collectConfigRosterIds (config.getD .null)) storage (state.getD .null) = some next) :
    ∃ t, Reaches rt w₀ (World.quiet config (some next)
      (.stateWritten t (.state (some accounts)) state next ::
        .snapshotTaken t (.saveState { accounts := some accounts }) storage :: log)) := by
  obtain ⟨c, hruns, hw⟩ := h
  let scope : AccountStateSaveScope := { accounts := some accounts }
  let taken := World.quiet config state (.snapshotTaken c.next (.saveState scope) storage :: log)
  have hprocess : IsProcess rt ((Process.saveAccountState scope).program rt).run := ⟨_, rfl⟩
  obtain ⟨q, w, hend, hw'⟩ : ∃ (q : Prog calls (Except Unit Unit)) (w : World),
      machine.drive c.next [.flag true, .done, .done]
        (releasing .state (writeNext (some accounts) (nextState rt now scope
          (collectConfigRosterIds (config.getD .null)) storage (state.getD .null)))).run
        (taken.setHolder .state (some c.next)) = some (q, w) ∧
      w = World.quiet config (some next)
        (.stateWritten c.next (.state (some accounts)) state next :: taken.log) := by
    rw [hnext]
    refine ⟨_, _, rfl, ?_⟩
    simp only [World.putState, World.setHolder, World.quiet, taken, if_true]
    congr 1
    funext lock
    split_ifs <;> rfl
  have hdrive : machine.drive c.next
      [.store storage, .done, .done, .done, .time now, .flag true, .done, .done]
      ((Process.saveAccountState scope).program rt).run c.world = some (q, w) := by
    rw [hw]
    exact hend
  obtain ⟨d, hstarted, hworld, -, -, -⟩ := Machine.runsTo_start hprocess hdrive
  exact ⟨c.next, d, hruns.trans hstarted, hworld.trans hw'⟩

end Alone

end Accounts
