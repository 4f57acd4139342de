import OpenaiAuth.Accounts.Merge

/-! # The two writes of a whole store

`mutateAccounts` and `saveAccounts` compute the next config file and the next
state file from what they read under both locks, then write one after the other.
`Planned` is what they are about to write; `StoreCall` is a call of either.
-/

namespace Accounts

open Js

/-! ## The roster of a config -/

/-- The id an entry puts on the roster. -/
def rosterId (account : Json) : Option String := (nonblank (account.get? "id")).map trim

/-- `none` where the value holds no roster at all. -/
def collectConfigRosterIds (value : Json) : Option (List String) :=
  ((value.get? "accounts").bind Json.array?).map fun accounts =>
    (accounts.filterMap rosterId).eraseDups

/-- The entries of a config value. -/
def configEntries (value : Json) : List Json := ((value.get? "accounts").bind Json.array?).getD []

/-- Whether an entry's id, trimmed, is `id`. -/
def hasTrimmedId (id : String) (account : Json) : Bool :=
  (stringOf (account.get? "id")).any fun s => trim s == id

def pickRawRosterEntriesForPreservation (rawValue : Json)
    (rawIds currentAccountIds allowDrop : List String) : List Json :=
  rawIds.filterMap fun id =>
    if currentAccountIds.contains id then none
    else if allowDrop.contains id then none
    else (configEntries rawValue).find? (hasTrimmedId id)

def buildPreservedAdditions (rawConfigValue : Json) (loadedIds allowDrop : List String) :
    List Json :=
  match collectConfigRosterIds rawConfigValue with
  | none => []
  | some rawIds => pickRawRosterEntriesForPreservation rawConfigValue rawIds loadedIds allowDrop

/-- The ids a store is written with. -/
def writtenIds (storage : AccountStorage) : List String :=
  (storage.accounts.map fun account => trim account.id).filter fun id => id ≠ ""

/-- The preserved entries whose id is not written anyway. -/
def additions (preserved : List Json) (written : List String) : List Json :=
  preserved.filter fun raw => (stringOf (raw.get? "id")).any fun id => !written.contains (trim id)

/-- The settings of the removed vault custody go with every config write. -/
def withoutRetiredSettings (config : Members) : Members := config.erase "claustrum"

/-- `nextConfig` -/
def nextConfig (existing : Json) (storage : AccountStorage) (added : List Json) : Json :=
  .obj (((withoutRetiredSettings existing.members).spread (configFromStorage storage)).set "accounts"
    (.arr ((storage.accounts.map fun account => .obj (accountConfig account)) ++ added)))

/-! ## The calls -/

structure MutateAccountsContext where
  rawRosterIds : List String
  loadedRosterIds : List String

inductive StoreCall where
  | mutateAccounts (mutate : AccountStorage → MutateAccountsContext → AccountStorage)
      (allowDrop : List String)
  | saveAccounts (storage : AccountStorage) (owns : String → Bool) (now : ℚ)

variable (rt : Runtime)

namespace StoreCall

/-- The store the call starts from. -/
def loaded (uuid : ℕ → String) (disk : Disk) : StoreCall → Option AccountStorage
  | .mutateAccounts _ _ => some ((loadAccounts rt uuid disk).getD emptyAccountStorage)
  | .saveAccounts _ _ _ => loadAccounts rt uuid disk

def loadedIds (uuid : ℕ → String) (disk : Disk) (call : StoreCall) : List String :=
  (call.loaded rt uuid disk).elim [] fun storage => storage.accounts.map FallbackAccount.id

def allowDrop : StoreCall → List String
  | .mutateAccounts _ allowDrop => allowDrop
  | .saveAccounts _ _ _ => []

/-- The store the call writes. -/
def next (uuid : ℕ → String) (disk : Disk) : StoreCall → AccountStorage
  | .mutateAccounts mutate _ =>
      let current := (loadAccounts rt uuid disk).getD emptyAccountStorage
      mutate current {
        rawRosterIds := (collectConfigRosterIds (disk.config.getD .null)).getD []
        loadedRosterIds := current.accounts.map FallbackAccount.id }
  | .saveAccounts storage owns now => mergeStorageForSave rt now owns (loadAccounts rt uuid disk) storage

/-- The entries of the old config the call writes back as they were. -/
def added (uuid : ℕ → String) (disk : Disk) (call : StoreCall) : List Json :=
  additions (buildPreservedAdditions (disk.config.getD .null) (call.loadedIds rt uuid disk)
    call.allowDrop) (writtenIds (call.next rt uuid disk))

/-- The config file the call writes first. -/
def config (uuid : ℕ → String) (disk : Disk) (call : StoreCall) : Json :=
  nextConfig (disk.config.getD .null) (call.next rt uuid disk) (call.added rt uuid disk)

/-- The state file the call writes second. -/
def state (uuid : ℕ → String) (disk : Disk) (call : StoreCall) : Json :=
  stateFromStorage (call.next rt uuid disk)

/-- The disk of a call that stopped between its two writes. -/
def between (uuid : ℕ → String) (disk : Disk) (call : StoreCall) : Disk :=
  { disk with config := some (call.config rt uuid disk) }

/-- The disk after both writes. -/
def done (uuid : ℕ → String) (disk : Disk) (call : StoreCall) : Disk where
  config := some (call.config rt uuid disk)
  state := some (call.state rt uuid disk)

end StoreCall

/-! ## What is written -/

theorem rosterId_eq_some {account : Json} {id : String} :
    rosterId account = some id ↔
      ∃ s, account.get? "id" = some (.str s) ∧ isBlank s = false ∧ trim s = id := by
  simp only [rosterId, Option.map_eq_some_iff, nonblank_eq_some, and_assoc]

theorem hasTrimmedId_of_rosterId {account : Json} {id : String} (h : rosterId account = some id) :
    hasTrimmedId id account = true := by
  obtain ⟨s, hs, -, htrim⟩ := rosterId_eq_some.mp h
  simp [hasTrimmedId, hs, htrim]

theorem collectConfigRosterIds_eq_some {value : Json} {ids : List String} :
    collectConfigRosterIds value = some ids ↔
      ∃ accounts, value.get? "accounts" = some (.arr accounts) ∧
        (accounts.filterMap rosterId).eraseDups = ids := by
  rcases h : value.get? "accounts" with _ | _ | _ | _ | _ | _ | _ <;>
    simp [collectConfigRosterIds, h, Json.array?]

/-- An entry of the old config that the call carries over. -/
structure CarriedOver (configValue : Json) (loadedIds allowDrop written : List String)
    (raw : Json) (id : String) : Prop where
  /-- It is the first entry with its id. -/
  first : (configEntries configValue).find? (hasTrimmedId id) = some raw
  listed : rosterId raw = some id
  notLoaded : id ∉ loadedIds
  notDropped : id ∉ allowDrop
  notWritten : id ∉ written

theorem mem_configEntries {value : Json} {accounts : List Json}
    (h : value.get? "accounts" = some (.arr accounts)) : configEntries value = accounts := by
  simp [configEntries, h, Json.array?]

theorem hasTrimmedId_iff {account : Json} {id : String} :
    hasTrimmedId id account = true ↔ ∃ s, account.get? "id" = some (.str s) ∧ trim s = id := by
  rcases h : account.get? "id" with _ | _ | _ | _ | _ | _ | _ <;>
    simp [hasTrimmedId, h, stringOf, Json.string?]

theorem mem_additions {configValue : Json} {loadedIds allowDrop written : List String} {raw : Json} :
    raw ∈ additions (buildPreservedAdditions configValue loadedIds allowDrop) written ↔
      ∃ id, CarriedOver configValue loadedIds allowDrop written raw id := by
  rw [additions, List.mem_filter, buildPreservedAdditions]
  cases hids : collectConfigRosterIds configValue with
  | none =>
      refine ⟨fun h => absurd h.1 (List.not_mem_nil), ?_⟩
      rintro ⟨id, h⟩
      have hmem : raw ∈ configEntries configValue := List.mem_of_find?_eq_some h.first
      rw [collectConfigRosterIds, Option.map_eq_none_iff] at hids
      simp [configEntries, hids] at hmem
  | some ids =>
      obtain ⟨accounts, haccounts, rfl⟩ := collectConfigRosterIds_eq_some.mp hids
      have hentries := mem_configEntries haccounts
      simp only [pickRawRosterEntriesForPreservation, List.mem_filterMap, List.mem_eraseDups,
        List.contains_iff_mem, Option.ite_none_left_eq_some]
      constructor
      · rintro ⟨⟨id, ⟨entry, hentry, hid⟩, hloaded, hdrop, hfirst⟩, hwritten⟩
        obtain ⟨s, hs, htrim⟩ := hasTrimmedId_iff.mp (List.find?_some hfirst)
        obtain ⟨s', hs', hblank, htrim'⟩ := rosterId_eq_some.mp hid
        have hblank' : isBlank s = false := by
          rw [← isBlank_trim, htrim, ← htrim', isBlank_trim, hblank]
        refine ⟨id, hfirst, rosterId_eq_some.mpr ⟨s, hs, hblank', htrim⟩, hloaded, hdrop, ?_⟩
        simpa [hs, htrim] using hwritten
      · rintro ⟨id, h⟩
        obtain ⟨s, hs, -, htrim⟩ := rosterId_eq_some.mp h.listed
        refine ⟨⟨id, ⟨raw, ?_, h.listed⟩, h.notLoaded, h.notDropped, h.first⟩, ?_⟩
        · exact hentries ▸ List.mem_of_find?_eq_some h.first
        · simpa [hs, htrim] using h.notWritten

@[simp] theorem get?_nextConfig_accounts (existing : Json) (storage : AccountStorage)
    (added : List Json) :
    (nextConfig existing storage added).get? "accounts" = some (.arr
      ((storage.accounts.map fun account => .obj (accountConfig account)) ++ added)) :=
  Members.lookup_set_self ..

theorem get?_nextConfig {existing : Json} {storage : AccountStorage} {added : List Json}
    {key : String} (h : key ≠ "accounts") (hretired : key ≠ "claustrum") :
    (nextConfig existing storage added).get? key =
      ((configFromStorage storage).lookup key).or (existing.get? key) := by
  rw [nextConfig, Json.get?_obj, Members.lookup_set_of_ne h, Members.lookup_spread,
    withoutRetiredSettings, Members.lookup_erase_of_ne hretired, Json.lookup_members]

theorem mem_writtenIds {storage : AccountStorage} {id : String} :
    id ∈ writtenIds storage ↔ id ≠ "" ∧ ∃ account ∈ storage.accounts, trim account.id = id := by
  simp only [writtenIds, List.mem_filter, List.mem_map, decide_eq_true_eq, and_comm]

/-- The entries of the config file that was written. -/
theorem configEntries_config (uuid : ℕ → String) (disk : Disk) (call : StoreCall) :
    configEntries (call.config rt uuid disk) =
      ((call.next rt uuid disk).accounts.map fun account => .obj (accountConfig account)) ++
        call.added rt uuid disk :=
  mem_configEntries (get?_nextConfig_accounts ..)

theorem mem_added {uuid : ℕ → String} {disk : Disk} {call : StoreCall} {raw : Json} :
    raw ∈ call.added rt uuid disk ↔
      ∃ id, CarriedOver (disk.config.getD .null) (call.loadedIds rt uuid disk) call.allowDrop
        (writtenIds (call.next rt uuid disk)) raw id :=
  mem_additions

/-- What a merged config says of each key outside the three that are merged. -/
theorem get?_mergeConfigAndState {config state : Json} {key : String} (hrefresh : key ≠ "refresh")
    (hquota : key ≠ "quota") (haccounts : key ≠ "accounts") :
    (mergeConfigAndState config state).get? key = config.get? key := by
  rw [mergeConfigAndState]
  split
  · rw [Json.get?_obj, Members.lookup_putAll_cons, if_neg hrefresh, Members.lookup_putAll_cons,
      if_neg hquota, Members.lookup_putAll_cons, if_neg haccounts, Members.lookup_putAll_nil,
      Json.lookup_members]
  · rfl

/-- The rows of a merged pair are the config's entries, each merged. -/
theorem get?_accounts_mergeConfigAndState (config state : Json) :
    ((mergeConfigAndState config state).get? "accounts").bind Json.array? =
      ((config.get? "accounts").bind Json.array?).map fun accounts =>
        accounts.map (mergeAccount state) := by
  rw [mergeConfigAndState]
  split
  · rw [Json.get?_obj, Members.lookup_putAll_cons, if_neg (by decide), Members.lookup_putAll_cons,
      if_neg (by decide), Members.lookup_putAll_cons, if_pos rfl]
    cases (config.get? "accounts").bind Json.array? <;> rfl
  · rename_i h
    cases config <;> simp_all [Json.isRecord, Json.get?]

theorem loadAccounts_accounts {uuid : ℕ → String} {disk : Disk} {storage : AccountStorage}
    (h : loadAccounts rt uuid disk = some storage) :
    storage.accounts = normalizeAccounts rt uuid
      ((configEntries (disk.config.getD .null)).map (mergeAccount (disk.state.getD .null))) := by
  obtain ⟨config, hconfig, h⟩ := Option.bind_eq_some_iff.mp h
  obtain ⟨accounts, haccounts, rfl⟩ := Option.map_eq_some_iff.mp h
  rw [get?_accounts_mergeConfigAndState, Option.map_eq_some_iff] at haccounts
  obtain ⟨entries, hentries, rfl⟩ := haccounts
  simp [configEntries, hconfig, hentries]

theorem loadAccounts_isSome (uuid : ℕ → String) (disk : Disk) :
    (loadAccounts rt uuid disk).isSome =
      (((disk.config.getD .null).get? "accounts").bind Json.array?).isSome := by
  cases hconfig : disk.config with
  | none => simp [loadAccounts, hconfig, Json.get?]
  | some config =>
      simp only [loadAccounts, hconfig, Option.bind_some, normalizeStorage, Option.isSome_map,
        get?_accounts_mergeConfigAndState, Option.getD_some]

/-- A row the files yield, whether or not there is a store in them. -/
def loadedAccounts (uuid : ℕ → String) (disk : Disk) : List FallbackAccount :=
  (loadAccounts rt uuid disk).elim [] AccountStorage.accounts

theorem loadedAccounts_eq (uuid : ℕ → String) (disk : Disk) :
    loadedAccounts rt uuid disk = normalizeAccounts rt uuid
      ((configEntries (disk.config.getD .null)).map (mergeAccount (disk.state.getD .null))) := by
  rw [loadedAccounts]
  cases h : loadAccounts rt uuid disk with
  | some storage => exact loadAccounts_accounts rt h
  | none =>
      have hnone := loadAccounts_isSome rt uuid disk
      rw [h] at hnone
      have hentries : ((disk.config.getD .null).get? "accounts").bind Json.array? = none := by
        simpa using hnone.symm
      simp [configEntries, hentries, normalizeAccounts]

/-- A row is read under the id its entry has on the roster, or a new one. -/
theorem normalizeAccount_id {uuid : String} {row : Json} {account : FallbackAccount}
    (h : normalizeAccount rt uuid row = some account) : account.id = (rosterId row).getD uuid := by
  unfold normalizeAccount at h
  split at h
  · simp only [normalizeApiAccount, Option.ite_none_right_eq_some, Option.some.injEq] at h
    obtain ⟨-, rfl⟩ := h
    rfl
  · split at h
    · unfold normalizeOAuthAccount at h
      split at h
      · simp only [Option.ite_none_right_eq_some, Option.some.injEq] at h
        obtain ⟨-, rfl⟩ := h
        rfl
      · split at h
        · simp only [Option.ite_none_right_eq_some, Option.some.injEq] at h
          obtain ⟨-, rfl⟩ := h
          rfl
        · cases h
          rfl
    · cases h

/-! ## A small store -/

/-- `Number` and the URL check, as far as these stores ask of them. -/
def plainRuntime : Runtime where
  number
    | .num q => some q
    | _ => none
  number_num _ := rfl
  isHttpUrl text := text == "https://api.example"
  hashRefreshToken token := "digest of " ++ token
  isTombstoneRefresh token := token == "custody:openai"

def newId (_ : ℕ) : String := "new"

/-- Any mutation that leaves the roster as it is. -/
def keepAll : StoreCall := .mutateAccounts (fun current _ => current) []

def oneRow (secret : Members) : Json :=
  .obj [("accounts", .arr [.obj ([("id", .str "a"), ("type", .str "oauth")] ++ secret)])]

/-- The token is in the state file. -/
def storedDisk : Disk where
  config := some (oneRow [])
  state := some (.obj [("accounts", .obj [("a", .obj [("refresh", .str "r1")])])])

end Accounts
