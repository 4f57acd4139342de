import OpenaiAuth.Accounts.Account
import OpenaiAuth.ResetCredits.State

/-! # The account store in two files

The config file holds the settings and the roster, the state file what changes
at run time, secrets included. `mergeConfigAndState` and `normalizeStorage` make
the store a caller works with of the two; `configFromStorage` and
`stateFromStorage` take it apart again.
-/

namespace Accounts

open Js

/-- The members of a settings object, as far as they are defined. -/
abbrev Fields := String → Option Json

/-- The only main account there is: `{ type: 'opencode', provider: 'openai' }`. -/
inductive MainAccount where
  | opencode
deriving DecidableEq, Repr

def MainAccount.toJson : MainAccount → Json
  | .opencode => .obj [("type", .str "opencode"), ("provider", .str "openai")]

structure AccountStorage where
  main : Option MainAccount := none
  routing : Option Json := none
  fallbackOn : Option (List ℚ) := none
  refresh : Option Fields := none
  quota : Option Fields := none
  reset : Option Json := none
  dump : Option Json := none
  costZeroing : Option Json := none
  killswitch : Option Json := none
  logging : Option Json := none
  cachekeep : Option Json := none
  cacheKeep : Option Json := none
  mainAccountId : Option String := none
  accounts : List FallbackAccount

/-- What the two files hold; `none` is a file that is not there. -/
structure Disk where
  config : Option Json := none
  state : Option Json := none
deriving DecidableEq

/-! ## The reset state -/

/-- `code` and `at` of an outcome, where both can be used. -/
def outcomeParts (outcome : Option Json) : Option (String × ℚ) := do
  let outcome ← outcome
  let code ← (stringOf (outcome.get? "code")).filter fun code => code ≠ ""
  let time ← numberIn (outcome.get? "at")
  return (code, time)

def outcomeEntries (parts : String × ℚ) : List (String × Option Json) :=
  [("code", some (.str parts.1)), ("at", some (.num parts.2))]

def normalizeLastOutcome (lastOutcome : Option Json) : Option Json := do
  let parts ← outcomeParts lastOutcome
  let previous := outcomeParts (lastOutcome.bind fun outcome => outcome.get? "previousOutcome")
  return .obj (Members.literal (outcomeEntries parts ++
    [("previousOutcome", previous.map fun parts => .obj (Members.literal (outcomeEntries parts)))]))

def resetAccountEntries (candidate : Json) : List (String × Option Json) :=
  [("inFlight", (candidate.get? "inFlight").filter Json.isRecord),
   ("lastOutcome", normalizeLastOutcome (candidate.get? "lastOutcome")),
   ("cooldownUntil", (numberIn (candidate.get? "cooldownUntil")).map .num)]

/-- The state of one account, if any part of it can be used. -/
def normalizeResetAccount (candidate : Json) : Option Json :=
  let state := Members.literal (resetAccountEntries candidate)
  if state.isEmpty then none else some (.obj state)

def normalizeResetEntry (entry : String × Json) : Option (String × Json) :=
  if ResetCredits.isSafeResetAccountKey entry.1 then
    (normalizeResetAccount entry.2).map fun state => (entry.1, state)
  else none

def normalizeResetState (value : Option Json) : Option Json := do
  let value ← value
  let normalized := value.members.filterMap normalizeResetEntry
  guard (!normalized.isEmpty)
  return .obj normalized

/-! ## Reading the two files -/

/-- A member that is a record (`isRecord(value.key) ? value.key : undefined`). -/
def recordOf (value : Option Json) : Option Json := value.filter Json.isRecord

@[simp] theorem recordOf_none : recordOf none = none := rfl

@[simp] theorem recordOf_obj (m : Members) : recordOf (some (.obj m)) = some (.obj m) := rfl

theorem recordOf_recordOf (value : Option Json) : recordOf (recordOf value) = recordOf value := by
  simp [recordOf, Option.filter_filter]

/-- The state file's entry for a config entry with this id. -/
def stateEntry (state : Json) (id : String) : Option Json :=
  (recordOf (state.get? "accounts")).bind fun accounts => accounts.get? id

/-- A config entry with the state entry of its id spread over it. -/
def mergeAccount (state account : Json) : Json :=
  if account.isRecord then
    .obj (account.members.spread
      (((stringOf (account.get? "id")).bind (stateEntry state)).getD .null).members)
  else account

/-- The refresh lease, taken whole from the config if it holds one. -/
def mainLease (refreshConfig mainRefreshSource : Json) : Option Json × Option Json × Option Json :=
  if (refreshConfig.get? "mainRefreshLeaseId").isSome then
    (refreshConfig.get? "mainRefreshLeaseId", refreshConfig.get? "mainRefreshLeaseUntil",
      refreshConfig.get? "mainRefreshLeaseTokenHash")
  else
    (mainRefreshSource.get? "refreshLeaseId", mainRefreshSource.get? "refreshLeaseUntil",
      mainRefreshSource.get? "refreshLeaseTokenHash")

def mergeRefresh (mainState : Option Json) (refreshConfig : Json) : Members :=
  let mainRefreshSource := mainState.getD refreshConfig
  let lease := mainLease refreshConfig mainRefreshSource
  refreshConfig.members.putAll [
    ("mainLastRefreshError", Json.orElse (refreshConfig.get? "mainLastRefreshError")
      (mainRefreshSource.get? "lastRefreshError")),
    ("mainRefreshLeaseId", lease.1),
    ("mainRefreshLeaseUntil", lease.2.1),
    ("mainRefreshLeaseTokenHash", lease.2.2)]

def mergeQuota (mainState : Option Json) (quotaConfig : Json) : Members :=
  let mainQuotaSource := mainState.getD quotaConfig
  quotaConfig.members.putAll [
    ("mainQuota", mainQuotaSource.get? "quota"),
    ("mainQuotaCheckedAt", mainQuotaSource.get? "quotaCheckedAt"),
    ("mainQuotaToken", mainQuotaSource.get? "quotaToken"),
    ("mainLastQuotaApiError", mainQuotaSource.get? "lastQuotaApiError")]

/-- `isRecord(value) ? value : {}` -/
def recordOrEmpty (value : Option Json) : Json := (recordOf value).getD (.obj [])

def mergeConfigAndState (config state : Json) : Json :=
  if config.isRecord then
    let mainState := recordOf (state.get? "main")
    .obj (config.members.putAll [
      ("refresh", some (.obj (mergeRefresh mainState (recordOrEmpty (config.get? "refresh"))))),
      ("quota", some (.obj (mergeQuota mainState (recordOrEmpty (config.get? "quota"))))),
      ("accounts", ((config.get? "accounts").bind Json.array?).map fun accounts =>
        .arr (accounts.map (mergeAccount state)))])
  else config

variable (rt : Runtime)

/-- The rows that can be read, in order. `uuid i` is what `randomUUID` returns for
entry `i`. -/
def normalizeAccounts (uuid : ℕ → String) : List Json → List FallbackAccount
  | [] => []
  | value :: rest =>
      (normalizeAccount rt (uuid 0) value).toList ++ normalizeAccounts (fun i => uuid (i + 1)) rest

/-- `value.fallbackOn` without what is no integer. -/
def fallbackStatuses (value : Option Json) : Option (List ℚ) :=
  (value.bind Json.array?).map fun statuses =>
    (statuses.filterMap Json.number?).filter fun status => status.den = 1

def normalizeStorage (uuid : ℕ → String) (value : Json) : Option AccountStorage :=
  ((value.get? "accounts").bind Json.array?).map fun accounts => {
    main := some .opencode
    routing := recordOf (value.get? "routing")
    fallbackOn := fallbackStatuses (value.get? "fallbackOn")
    refresh := (recordOf (value.get? "refresh")).map fun refresh key => refresh.get? key
    quota := (recordOf (value.get? "quota")).map fun quota key => quota.get? key
    reset := normalizeResetState (value.get? "reset")
    dump := recordOf (value.get? "dump")
    costZeroing := recordOf (value.get? "costZeroing")
    killswitch := recordOf (value.get? "killswitch")
    logging := recordOf (value.get? "logging")
    cachekeep := recordOf (value.get? "cachekeep")
    cacheKeep := recordOf (value.get? "cacheKeep")
    mainAccountId := stringOf (value.get? "mainAccountId")
    accounts := normalizeAccounts rt uuid accounts }

def loadAccounts (uuid : ℕ → String) (disk : Disk) : Option AccountStorage :=
  disk.config.bind fun config =>
    normalizeStorage rt uuid (mergeConfigAndState config (disk.state.getD .null))

def emptyAccountStorage : AccountStorage where
  main := some .opencode
  accounts := []

/-! ## Taking the store apart -/

def refreshSettings (refresh : Fields) : Members :=
  Members.literal [
    ("enabled", refresh "enabled"),
    ("refreshBeforeExpiryMinutes", refresh "refreshBeforeExpiryMinutes")]

def quotaSettings (quota : Fields) : Members :=
  Members.literal [
    ("enabled", quota "enabled"),
    ("checkIntervalMinutes", quota "checkIntervalMinutes"),
    ("refreshEveryNRequests", quota "refreshEveryNRequests"),
    ("minimumRemaining", quota "minimumRemaining"),
    ("failClosedOnUnknownQuota", quota "failClosedOnUnknownQuota")]

def configFromStorage (storage : AccountStorage) : Members :=
  Members.literal [
    ("version", some (.num 1)),
    ("main", storage.main.map MainAccount.toJson),
    ("routing", storage.routing),
    ("fallbackOn", storage.fallbackOn.map fun statuses => .arr (statuses.map .num)),
    ("refresh", storage.refresh.map fun refresh => .obj (refreshSettings refresh)),
    ("quota", storage.quota.map fun quota => .obj (quotaSettings quota)),
    ("reset", storage.reset),
    ("dump", storage.dump),
    ("costZeroing", storage.costZeroing),
    ("killswitch", storage.killswitch),
    ("logging", storage.logging),
    ("cachekeep", storage.cachekeep),
    ("cacheKeep", storage.cacheKeep),
    ("mainAccountId", storage.mainAccountId.map .str),
    ("accounts", some (.arr (storage.accounts.map fun account => .obj (accountConfig account))))]

/-- A member of an object that may not be there (`storage.refresh?.key`). -/
def fieldOf (fields : Option Fields) (key : String) : Option Json := fields.bind fun f => f key

def mainStateFromStorage (storage : AccountStorage) : Members :=
  Members.literal [
    ("quota", fieldOf storage.quota "mainQuota"),
    ("quotaCheckedAt", fieldOf storage.quota "mainQuotaCheckedAt"),
    ("quotaToken", fieldOf storage.quota "mainQuotaToken"),
    ("lastQuotaApiError", fieldOf storage.quota "mainLastQuotaApiError"),
    ("lastRefreshError", fieldOf storage.refresh "mainLastRefreshError"),
    ("refreshLeaseId", fieldOf storage.refresh "mainRefreshLeaseId"),
    ("refreshLeaseUntil", fieldOf storage.refresh "mainRefreshLeaseUntil"),
    ("refreshLeaseTokenHash", fieldOf storage.refresh "mainRefreshLeaseTokenHash")]

/-- `Object.fromEntries`: of two entries with one key the later one stays. -/
def accountStates (accounts : List FallbackAccount) : Members :=
  accounts.foldl (fun built account =>
    built.set account.id (.obj (accountRuntimeState account))) []

def stateFromStorage (storage : AccountStorage) : Json :=
  .obj [
    ("version", .num 1),
    ("main", .obj (mainStateFromStorage storage)),
    ("accounts", .obj (accountStates storage.accounts))]

/-! ## Lemmas -/

theorem lookup_foldl_states (accounts : List FallbackAccount) (built : Members) (id : String) :
    (accounts.foldl (fun built account =>
        built.set account.id (.obj (accountRuntimeState account))) built).lookup id =
      ((accounts.reverse.find? fun account => account.id == id).map fun account =>
        Json.obj (accountRuntimeState account)).or (built.lookup id) := by
  induction accounts generalizing built with
  | nil => rfl
  | cons account rest ih =>
      rw [List.foldl_cons, ih, Members.lookup_set, List.reverse_cons, List.find?_append]
      cases rest.reverse.find? fun account => account.id == id with
      | some later => rfl
      | none =>
          by_cases h : id = account.id
          · simp [h]
          · have hne : (account.id == id) = false := by simpa using Ne.symm h
            simp [h, hne]

/-- The entry under an id is that of the last row with the id. -/
theorem lookup_accountStates (accounts : List FallbackAccount) (id : String) :
    (accountStates accounts).lookup id =
      (accounts.reverse.find? fun account => account.id == id).map fun account =>
        Json.obj (accountRuntimeState account) := by
  rw [accountStates, lookup_foldl_states]
  simp

theorem lookup_accountStates_eq_none {accounts : List FallbackAccount} {id : String} :
    (accountStates accounts).lookup id = none ↔ id ∉ accounts.map FallbackAccount.id := by
  simp only [lookup_accountStates, Option.map_eq_none_iff, List.find?_eq_none, List.mem_reverse,
    List.mem_map, not_exists, not_and, beq_iff_eq]

/-- Under distinct ids each row has its own entry. -/
theorem lookup_accountStates_of_mem {accounts : List FallbackAccount}
    (hnodup : (accounts.map FallbackAccount.id).Nodup) {account : FallbackAccount}
    (hmem : account ∈ accounts) :
    (accountStates accounts).lookup account.id = some (.obj (accountRuntimeState account)) := by
  rw [lookup_accountStates]
  cases h : accounts.reverse.find? fun a => a.id == account.id with
  | none =>
      have := List.find?_eq_none.mp h account (List.mem_reverse.mpr hmem)
      simp at this
  | some found =>
      have hid : found.id = account.id := by simpa using List.find?_some h
      have hfound : found ∈ accounts := List.mem_reverse.mp (List.mem_of_find?_eq_some h)
      rw [List.inj_on_of_nodup_map hnodup hfound hmem hid]
      rfl

theorem stateEntry_stateFromStorage (storage : AccountStorage) (id : String) :
    stateEntry (stateFromStorage storage) id = (accountStates storage.accounts).lookup id := by
  simp [stateEntry, stateFromStorage, List.lookup_cons]

@[simp] theorem lookup_accountConfig_id (account : FallbackAccount) :
    (accountConfig account).lookup "id" = some (.str account.id) := by
  simp [accountConfig]

theorem normalizeAccounts_append (uuid : ℕ → String) (before after : List Json) :
    normalizeAccounts rt uuid (before ++ after) =
      normalizeAccounts rt uuid before ++
        normalizeAccounts rt (fun i => uuid (i + before.length)) after := by
  induction before generalizing uuid with
  | nil => rfl
  | cons value rest ih =>
      simp only [List.cons_append, normalizeAccounts, ih, List.append_assoc, List.length_cons,
        Nat.add_assoc]

theorem mem_normalizeAccounts {uuid : ℕ → String} {values : List Json} {account : FallbackAccount} :
    account ∈ normalizeAccounts rt uuid values ↔
      ∃ i value, values[i]? = some value ∧ normalizeAccount rt (uuid i) value = some account := by
  induction values generalizing uuid with
  | nil => simp [normalizeAccounts]
  | cons value rest ih =>
      simp only [normalizeAccounts, List.mem_append, Option.mem_toList, ih]
      constructor
      · rintro (h | ⟨i, v, hv, h⟩)
        · exact ⟨0, value, rfl, h⟩
        · exact ⟨i + 1, v, hv, h⟩
      · rintro ⟨_ | i, v, hv, h⟩
        · cases hv
          exact .inl h
        · exact .inr ⟨i, v, hv, h⟩

theorem normal_of_mem {uuid : ℕ → String} (huuid : ∀ i, IsUuid (uuid i)) {values : List Json}
    {account : FallbackAccount} (h : account ∈ normalizeAccounts rt uuid values) :
    account.Normal rt := by
  obtain ⟨i, value, -, hvalue⟩ := (mem_normalizeAccounts rt).mp h
  exact normalizeAccount_normal rt (huuid i) hvalue

end Accounts
