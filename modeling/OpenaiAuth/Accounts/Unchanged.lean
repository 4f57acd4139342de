import OpenaiAuth.Accounts.Preserved

/-! # A mutation that changes nothing

What is loaded after `mutateAccounts` wrote back the store it loaded. Settings and
loadable rows are read back as they were; what the writers do not carry is lost:
settings under `refresh` and `quota` they do not know, the last use of a corrupt
row, and the state entry of a row that was rejected.
-/

namespace Accounts

open Js

variable (rt : Runtime)

/-! ## Reading back what was read -/

theorem recordOf_or (value : Option Json) : recordOf ((recordOf value).or value) = recordOf value := by
  cases h : recordOf value with
  | none => exact h
  | some v =>
      rw [Option.some_or, ← h, recordOf_recordOf]

theorem stringOf_or (value : Option Json) :
    stringOf (((stringOf value).map .str).or value) = stringOf value := by
  cases h : stringOf value with
  | none => exact h
  | some s => rfl

theorem fallbackStatuses_or (value : Option Json) :
    fallbackStatuses (((fallbackStatuses value).map fun statuses =>
      .arr (statuses.map Json.num)).or value) = fallbackStatuses value := by
  cases h : fallbackStatuses value with
  | none => exact h
  | some statuses =>
      obtain ⟨items, -, rfl⟩ := Option.map_eq_some_iff.mp h
      simp [fallbackStatuses, Json.array?, List.filterMap_map, Function.comp_def, Json.number?,
        List.filter_filter]

/-! ### The reset state -/

theorem outcomeParts_entries (parts : String × ℚ) (h : parts.1 ≠ "")
    (more : List (String × Option Json)) :
    outcomeParts (some (.obj (Members.literal (outcomeEntries parts ++ more)))) = some parts := by
  simp [outcomeParts, outcomeEntries, Option.filter, h]

theorem outcomeParts_ne {outcome : Option Json} {parts : String × ℚ}
    (h : outcomeParts outcome = some parts) : parts.1 ≠ "" := by
  simp only [outcomeParts, Option.bind_eq_bind, Option.bind_eq_some_iff,
    Option.filter_eq_some_iff] at h
  obtain ⟨-, -, code, ⟨-, hcode⟩, time, -, hparts⟩ := h
  cases hparts
  simpa using hcode

theorem normalizeLastOutcome_idem (lastOutcome : Option Json) :
    normalizeLastOutcome (normalizeLastOutcome lastOutcome) = normalizeLastOutcome lastOutcome := by
  cases h : normalizeLastOutcome lastOutcome with
  | none => rfl
  | some kept =>
      simp only [normalizeLastOutcome, Option.bind_eq_bind, Option.bind_eq_some_iff] at h
      obtain ⟨parts, hparts, hkept⟩ := h
      cases hkept
      simp only [normalizeLastOutcome, Option.bind_eq_bind, outcomeParts_entries parts
        (outcomeParts_ne hparts), Option.bind_some, Json.get?_obj]
      cases hprevious : outcomeParts (lastOutcome.bind fun outcome =>
          outcome.get? "previousOutcome") with
      | none => simp [outcomeEntries, outcomeParts]
      | some previous =>
          have hread := outcomeParts_entries previous (outcomeParts_ne hprevious) []
          rw [List.append_nil] at hread
          simp [outcomeEntries] at hread ⊢
          simp [hread]

theorem normalizeResetAccount_idem {candidate kept : Json}
    (h : normalizeResetAccount candidate = some kept) : normalizeResetAccount kept = some kept := by
  have hrecord (v : Option Json) : (v.filter Json.isRecord).filter Json.isRecord =
      v.filter Json.isRecord := recordOf_recordOf v
  rw [normalizeResetAccount, Option.ite_none_left_eq_some, Option.some.injEq] at h
  obtain ⟨hne, rfl⟩ := h
  have hentries : resetAccountEntries (.obj (Members.literal (resetAccountEntries candidate))) =
      resetAccountEntries candidate := by
    simp [resetAccountEntries, normalizeLastOutcome_idem, hrecord]
  rw [normalizeResetAccount, hentries, if_neg hne]

theorem normalizeResetEntry_idem {entry kept : String × Json}
    (h : normalizeResetEntry entry = some kept) : normalizeResetEntry kept = some kept := by
  rw [normalizeResetEntry, Option.ite_none_right_eq_some, Option.map_eq_some_iff] at h
  obtain ⟨hsafe, state, hstate, rfl⟩ := h
  rw [normalizeResetEntry, if_pos hsafe, normalizeResetAccount_idem hstate]
  rfl

theorem filterMap_idem {α : Type*} {f : α → Option α} (h : ∀ a b, f a = some b → f b = some b)
    (items : List α) : (items.filterMap f).filterMap f = items.filterMap f := by
  rw [List.filterMap_filterMap]
  refine List.filterMap_congr fun a _ => ?_
  cases ha : f a with
  | none => rfl
  | some b => exact h a b ha

theorem normalizeResetState_or (value : Option Json) :
    normalizeResetState ((normalizeResetState value).or value) = normalizeResetState value := by
  cases h : normalizeResetState value with
  | none => exact h
  | some kept =>
      simp only [normalizeResetState, Option.bind_eq_bind, Option.bind_eq_some_iff] at h
      obtain ⟨value, -, _, hkept, hreset⟩ := h
      cases hreset
      have hidem := filterMap_idem (fun _ _ => normalizeResetEntry_idem) value.members
      simp only [Option.some_or, normalizeResetState, Option.bind_eq_bind, Option.bind_some,
        Json.members_obj, hidem, hkept]
      rfl

/-! ## The settings that are carried -/

/-- The settings of `refresh` that a store write carries over. -/
def refreshKeys : List String :=
  ["enabled", "refreshBeforeExpiryMinutes", "mainLastRefreshError", "mainRefreshLeaseId",
    "mainRefreshLeaseUntil", "mainRefreshLeaseTokenHash"]

/-- The settings of `quota` that a store write carries over. -/
def quotaKeys : List String :=
  ["enabled", "checkIntervalMinutes", "refreshEveryNRequests", "minimumRemaining",
    "failClosedOnUnknownQuota", "mainQuota", "mainQuotaCheckedAt", "mainQuotaToken",
    "mainLastQuotaApiError"]

/-- What is read under `refresh` after the store was written: two settings from the
config, the rest from the state file. -/
theorem lookup_mergeRefresh_reread (refresh : Fields) (main : Members)
    (herror : main.lookup "lastRefreshError" = refresh "mainLastRefreshError")
    (hid : main.lookup "refreshLeaseId" = refresh "mainRefreshLeaseId")
    (huntil : main.lookup "refreshLeaseUntil" = refresh "mainRefreshLeaseUntil")
    (hhash : main.lookup "refreshLeaseTokenHash" = refresh "mainRefreshLeaseTokenHash")
    (key : String) :
    (mergeRefresh (some (.obj main)) (.obj (refreshSettings refresh))).lookup key =
      if key ∈ refreshKeys then refresh key else none := by
  have hnoLease : (refreshSettings refresh).lookup "mainRefreshLeaseId" = none := by
    simp [refreshSettings]
  have hnoError : (refreshSettings refresh).lookup "mainLastRefreshError" = none := by
    simp [refreshSettings]
  have hsettings : (refreshSettings refresh).lookup key =
      if key = "enabled" then refresh "enabled"
      else if key = "refreshBeforeExpiryMinutes" then refresh "refreshBeforeExpiryMinutes"
      else none := by
    simp [refreshSettings]
  simp only [mergeRefresh, Option.getD_some, mainLease, Json.get?_obj, Json.members_obj, hnoLease,
    hnoError, Option.isSome_none, Bool.false_eq_true, if_false, Json.orElse,
    Members.lookup_putAll_cons, Members.lookup_putAll_nil, hsettings, herror, hid, huntil, hhash,
    refreshKeys, List.mem_cons, List.not_mem_nil, or_false]
  split_ifs <;> simp_all

theorem lookup_mergeQuota_reread (quota : Fields) (main : Members)
    (hquota : main.lookup "quota" = quota "mainQuota")
    (hchecked : main.lookup "quotaCheckedAt" = quota "mainQuotaCheckedAt")
    (htoken : main.lookup "quotaToken" = quota "mainQuotaToken")
    (herror : main.lookup "lastQuotaApiError" = quota "mainLastQuotaApiError") (key : String) :
    (mergeQuota (some (.obj main)) (.obj (quotaSettings quota))).lookup key =
      if key ∈ quotaKeys then quota key else none := by
  have hsettings : (quotaSettings quota).lookup key =
      if key = "enabled" then quota "enabled"
      else if key = "checkIntervalMinutes" then quota "checkIntervalMinutes"
      else if key = "refreshEveryNRequests" then quota "refreshEveryNRequests"
      else if key = "minimumRemaining" then quota "minimumRemaining"
      else if key = "failClosedOnUnknownQuota" then quota "failClosedOnUnknownQuota"
      else none := by
    simp [quotaSettings]
  simp only [mergeQuota, Option.getD_some, Json.get?_obj, Json.members_obj,
    Members.lookup_putAll_cons, Members.lookup_putAll_nil, hsettings, hquota, hchecked, htoken,
    herror, quotaKeys, List.mem_cons, List.not_mem_nil, or_false]
  split_ifs <;> simp_all

/-! ## What is loaded after the write -/

theorem isRecord_of_get? {value v : Json} {key : String} (h : value.get? key = some v) :
    value.isRecord = true := by
  cases value <;> simp_all [Json.get?, Json.isRecord]

/-- A store in its parts, for a config with a roster. -/
theorem loadAccounts_of_roster (uuid : ℕ → String) {disk : Disk} {config : Json}
    {entries : List Json} (hconfig : disk.config = some config)
    (hentries : config.get? "accounts" = some (.arr entries)) :
    loadAccounts rt uuid disk = some {
      main := some .opencode
      routing := recordOf (config.get? "routing")
      fallbackOn := fallbackStatuses (config.get? "fallbackOn")
      refresh := some fun key => (mergeRefresh (recordOf ((disk.state.getD .null).get? "main"))
        (recordOrEmpty (config.get? "refresh"))).lookup key
      quota := some fun key => (mergeQuota (recordOf ((disk.state.getD .null).get? "main"))
        (recordOrEmpty (config.get? "quota"))).lookup key
      reset := normalizeResetState (config.get? "reset")
      dump := recordOf (config.get? "dump")
      costZeroing := recordOf (config.get? "costZeroing")
      killswitch := recordOf (config.get? "killswitch")
      logging := recordOf (config.get? "logging")
      cachekeep := recordOf (config.get? "cachekeep")
      cacheKeep := recordOf (config.get? "cacheKeep")
      mainAccountId := stringOf (config.get? "mainAccountId")
      accounts := normalizeAccounts rt uuid
        (entries.map (mergeAccount (disk.state.getD .null))) } := by
  have hrecord := isRecord_of_get? hentries
  have hrefresh : (mergeConfigAndState config (disk.state.getD .null)).get? "refresh" =
      some (.obj (mergeRefresh (recordOf ((disk.state.getD .null).get? "main"))
        (recordOrEmpty (config.get? "refresh")))) := by
    rw [mergeConfigAndState, if_pos hrecord, Json.get?_obj, Members.lookup_putAll_cons, if_pos rfl]
  have hquota : (mergeConfigAndState config (disk.state.getD .null)).get? "quota" =
      some (.obj (mergeQuota (recordOf ((disk.state.getD .null).get? "main"))
        (recordOrEmpty (config.get? "quota")))) := by
    rw [mergeConfigAndState, if_pos hrecord, Json.get?_obj, Members.lookup_putAll_cons,
      if_neg (by decide), Members.lookup_putAll_cons, if_pos rfl]
  have harray : ((mergeConfigAndState config (disk.state.getD .null)).get? "accounts").bind
      Json.array? = some (entries.map (mergeAccount (disk.state.getD .null))) := by
    rw [get?_accounts_mergeConfigAndState, hentries]
    rfl
  have hsetting (key : String) (h₁ : key ≠ "refresh") (h₂ : key ≠ "quota")
      (h₃ : key ≠ "accounts") :
      (mergeConfigAndState config (disk.state.getD .null)).get? key = config.get? key :=
    get?_mergeConfigAndState h₁ h₂ h₃
  rw [loadAccounts, hconfig, Option.bind_some, normalizeStorage, harray, Option.map_some, hrefresh,
    hquota]
  simp only [recordOf_obj, Option.map_some, Json.get?_obj,
    hsetting "routing" (by decide) (by decide) (by decide),
    hsetting "fallbackOn" (by decide) (by decide) (by decide),
    hsetting "reset" (by decide) (by decide) (by decide),
    hsetting "dump" (by decide) (by decide) (by decide),
    hsetting "costZeroing" (by decide) (by decide) (by decide),
    hsetting "killswitch" (by decide) (by decide) (by decide),
    hsetting "logging" (by decide) (by decide) (by decide),
    hsetting "cachekeep" (by decide) (by decide) (by decide),
    hsetting "cacheKeep" (by decide) (by decide) (by decide),
    hsetting "mainAccountId" (by decide) (by decide) (by decide)]

variable {rt} in
/-- Where a store is loaded there is a config with a roster. -/
theorem roster_of_load {uuid : ℕ → String} {disk : Disk} {storage : AccountStorage}
    (h : loadAccounts rt uuid disk = some storage) :
    ∃ config entries, disk.config = some config ∧ config.get? "accounts" = some (.arr entries) := by
  obtain ⟨config, hconfig, h⟩ := Option.bind_eq_some_iff.mp h
  obtain ⟨merged, hmerged, -⟩ := Option.map_eq_some_iff.mp h
  rw [get?_accounts_mergeConfigAndState, Option.map_eq_some_iff] at hmerged
  obtain ⟨entries, hentries, -⟩ := hmerged
  obtain ⟨v, hv, harray⟩ := Option.bind_eq_some_iff.mp hentries
  refine ⟨config, entries, hconfig, ?_⟩
  cases v with
  | arr items =>
      cases harray
      exact hv
  | _ => cases harray

/-- The rows that are read back. -/
def rowsReread (uuid : ℕ → String) (storage : AccountStorage) (added : List Json) :
    List FallbackAccount :=
  normalizeAccounts rt uuid
    (((storage.accounts.map fun account => Json.obj (accountConfig account)) ++ added).map
      (mergeAccount (stateFromStorage storage)))

theorem setting_reread (storage : AccountStorage) (config : Json) (key : String)
    (field : Option Json) (hwritten : (configFromStorage storage).lookup key = field)
    (hread : field = recordOf (config.get? key)) :
    recordOf (((configFromStorage storage).lookup key).or (config.get? key)) = field := by
  rw [hwritten, hread, recordOf_or]

/-- A store that is written back is loaded again up to the settings the writers
carry and the rows that are read back. -/
theorem loadAccounts_done {uuid uuid' : ℕ → String} {disk : Disk} {call : StoreCall}
    {current : AccountStorage} (hload : loadAccounts rt uuid disk = some current)
    (hnext : call.next rt uuid disk = current) :
    loadAccounts rt uuid' (call.done rt uuid disk) = some { current with
      refresh := some fun key => if key ∈ refreshKeys then fieldOf current.refresh key else none
      quota := some fun key => if key ∈ quotaKeys then fieldOf current.quota key else none
      accounts := rowsReread rt uuid' current (call.added rt uuid disk) } := by
  obtain ⟨config, entries, hconfig, hentries⟩ := roster_of_load hload
  have hparts := loadAccounts_of_roster rt uuid hconfig hentries
  rw [hload, Option.some.injEq] at hparts
  have hdisk : disk.config.getD .null = config := by
    rw [hconfig]
    rfl
  have hwritten : (call.config rt uuid disk).get? "accounts" = some (.arr
      ((current.accounts.map fun account => .obj (accountConfig account)) ++
        call.added rt uuid disk)) := by
    rw [StoreCall.config, hnext]
    exact get?_nextConfig_accounts ..
  have hkey (key : String) (h₁ : key ≠ "accounts") (h₂ : key ≠ "claustrum") :
      (call.config rt uuid disk).get? key =
        ((configFromStorage current).lookup key).or (config.get? key) := by
    rw [StoreCall.config, hnext, hdisk]
    exact get?_nextConfig h₁ h₂
  have hstate : (call.done rt uuid disk).state.getD .null = stateFromStorage current := by
    rw [← hnext]
    rfl
  have hmain : recordOf ((stateFromStorage current).get? "main") =
      some (.obj (mainStateFromStorage current)) := by
    simp [stateFromStorage, List.lookup_cons]
  have hdone : (call.done rt uuid disk).config = some (call.config rt uuid disk) := rfl
  rw [loadAccounts_of_roster rt uuid' hdone hwritten, hstate, hmain,
    hkey "routing" (by decide) (by decide), hkey "fallbackOn" (by decide) (by decide),
    hkey "refresh" (by decide) (by decide), hkey "quota" (by decide) (by decide),
    hkey "reset" (by decide) (by decide), hkey "dump" (by decide) (by decide),
    hkey "costZeroing" (by decide) (by decide), hkey "killswitch" (by decide) (by decide),
    hkey "logging" (by decide) (by decide), hkey "cachekeep" (by decide) (by decide),
    hkey "cacheKeep" (by decide) (by decide), hkey "mainAccountId" (by decide) (by decide)]
  -- the settings are read back from what was written of them
  have hrouting := setting_reread current config "routing" current.routing
    (by simp [configFromStorage]) (by rw [hparts])
  have hdump := setting_reread current config "dump" current.dump
    (by simp [configFromStorage]) (by rw [hparts])
  have hcost := setting_reread current config "costZeroing" current.costZeroing
    (by simp [configFromStorage]) (by rw [hparts])
  have hkill := setting_reread current config "killswitch" current.killswitch
    (by simp [configFromStorage]) (by rw [hparts])
  have hlogging := setting_reread current config "logging" current.logging
    (by simp [configFromStorage]) (by rw [hparts])
  have hcachekeep := setting_reread current config "cachekeep" current.cachekeep
    (by simp [configFromStorage]) (by rw [hparts])
  have hcacheKeep := setting_reread current config "cacheKeep" current.cacheKeep
    (by simp [configFromStorage]) (by rw [hparts])
  have hfallback : fallbackStatuses (((configFromStorage current).lookup "fallbackOn").or
      (config.get? "fallbackOn")) = current.fallbackOn := by
    have hfield : current.fallbackOn = fallbackStatuses (config.get? "fallbackOn") := by rw [hparts]
    have hlookup : (configFromStorage current).lookup "fallbackOn" =
        current.fallbackOn.map fun statuses => .arr (statuses.map .num) := by
      simp [configFromStorage]
    rw [hlookup, hfield, fallbackStatuses_or]
  have hreset : normalizeResetState (((configFromStorage current).lookup "reset").or
      (config.get? "reset")) = current.reset := by
    have hfield : current.reset = normalizeResetState (config.get? "reset") := by rw [hparts]
    have hlookup : (configFromStorage current).lookup "reset" = current.reset := by
      simp [configFromStorage]
    rw [hlookup, hfield, normalizeResetState_or]
  have hmainId : stringOf (((configFromStorage current).lookup "mainAccountId").or
      (config.get? "mainAccountId")) = current.mainAccountId := by
    have hfield : current.mainAccountId = stringOf (config.get? "mainAccountId") := by rw [hparts]
    have hlookup : (configFromStorage current).lookup "mainAccountId" =
        current.mainAccountId.map .str := by
      simp [configFromStorage]
    rw [hlookup, hfield, stringOf_or]
  rw [hrouting, hdump, hcost, hkill, hlogging, hcachekeep, hcacheKeep, hfallback, hreset, hmainId]
  -- refresh and quota come from both files
  have hrefreshSome : ∃ refresh, current.refresh = some refresh := ⟨_, by rw [hparts]⟩
  have hquotaSome : ∃ quota, current.quota = some quota := ⟨_, by rw [hparts]⟩
  obtain ⟨refresh, hrefresh⟩ := hrefreshSome
  obtain ⟨quota, hquota⟩ := hquotaSome
  have hrefreshWritten : recordOrEmpty (((configFromStorage current).lookup "refresh").or
      (config.get? "refresh")) = .obj (refreshSettings refresh) := by
    simp [configFromStorage, hrefresh, recordOrEmpty]
  have hquotaWritten : recordOrEmpty (((configFromStorage current).lookup "quota").or
      (config.get? "quota")) = .obj (quotaSettings quota) := by
    simp [configFromStorage, hquota, recordOrEmpty]
  have hrefreshRead (key : String) := lookup_mergeRefresh_reread refresh
    (mainStateFromStorage current) (by simp [mainStateFromStorage, fieldOf, hrefresh])
    (by simp [mainStateFromStorage, fieldOf, hrefresh])
    (by simp [mainStateFromStorage, fieldOf, hrefresh])
    (by simp [mainStateFromStorage, fieldOf, hrefresh]) key
  have hquotaRead (key : String) := lookup_mergeQuota_reread quota
    (mainStateFromStorage current) (by simp [mainStateFromStorage, fieldOf, hquota])
    (by simp [mainStateFromStorage, fieldOf, hquota])
    (by simp [mainStateFromStorage, fieldOf, hquota])
    (by simp [mainStateFromStorage, fieldOf, hquota]) key
  have hmainAccount : current.main = some .opencode := by rw [hparts]
  simp only [hrefreshWritten, hquotaWritten, hrefreshRead, hquotaRead, hrefresh, hquota, fieldOf,
    Option.bind_some, hmainAccount, rowsReread]

/-! ## The rows -/

theorem normalizeAccounts_written {uuid : ℕ → String} {state : Json}
    {accounts : List FallbackAccount}
    (h : ∀ account ∈ accounts, account.Normal rt ∧
      stateEntry state account.id = some (.obj (accountRuntimeState account))) :
    normalizeAccounts rt uuid ((accounts.map fun account => Json.obj (accountConfig account)).map
      (mergeAccount state)) = accounts.map FallbackAccount.saved := by
  induction accounts generalizing uuid with
  | nil => rfl
  | cons account rest ih =>
      obtain ⟨hnormal, hentry⟩ := h account List.mem_cons_self
      have hrejoined : mergeAccount state (.obj (accountConfig account)) = account.rejoined := by
        rw [mergeAccount, if_pos (Json.isRecord_obj _), Json.get?_obj, lookup_accountConfig_id,
          stringOf_str, Option.bind_some, hentry]
        rfl
      rw [List.map_cons, List.map_cons, normalizeAccounts, hrejoined,
        normalizeAccount_rejoined hnormal, ih fun a ha => h a (List.mem_cons_of_mem _ ha)]
      rfl

variable {rt}

/-- Written rows come back without the last use of the corrupt ones, then come the
entries carried over, as far as they can be loaded without a state entry. -/
theorem rowsReread_eq {uuid : ℕ → String} {storage : AccountStorage} {added : List Json}
    (hnormal : ∀ account ∈ storage.accounts, account.Normal rt)
    (hnodup : (storage.accounts.map FallbackAccount.id).Nodup)
    (hadded : ∀ raw ∈ added, mergeAccount (stateFromStorage storage) raw = raw) :
    rowsReread rt uuid storage added = storage.accounts.map FallbackAccount.saved ++
      normalizeAccounts rt (fun i => uuid (i + storage.accounts.length)) added := by
  have hraw : added.map (mergeAccount (stateFromStorage storage)) = added := by
    conv_rhs => rw [← List.map_id added]
    exact List.map_congr_left hadded
  rw [rowsReread, List.map_append, hraw, normalizeAccounts_append, normalizeAccounts_written,
    List.length_map, List.length_map]
  intro account haccount
  refine ⟨hnormal account haccount, ?_⟩
  rw [stateEntry_stateFromStorage, lookup_accountStates_of_mem hnodup haccount]

theorem saved_eq_self {account : FallbackAccount} :
    account.saved = account ↔ ∀ base, account = .corrupt base → base.lastUsed = none := by
  cases account with
  | corrupt base =>
      rw [FallbackAccount.saved, FallbackAccount.corrupt.injEq]
      constructor
      · rintro h base' ⟨⟩
        rw [← h]
      · intro h
        have hnone := h base rfl
        cases base
        cases hnone
        rfl
  | oauth a =>
      refine iff_of_true rfl ?_
      intro base h
      cases h
  | api a =>
      refine iff_of_true rfl ?_
      intro base h
      cases h

/-- Nothing is loaded of entries that are all rejected, whatever new ids they get. -/
theorem normalizeAccounts_eq_nil {uuid : ℕ → String} {rows : List Json} :
    normalizeAccounts rt uuid rows = [] ↔ ∀ i row, rows[i]? = some row →
      normalizeAccount rt (uuid i) row = none := by
  rw [List.eq_nil_iff_forall_not_mem]
  constructor
  · intro h i row hrow
    cases hread : normalizeAccount rt (uuid i) row with
    | none => rfl
    | some account => exact absurd ((mem_normalizeAccounts rt).mpr ⟨i, row, hrow, hread⟩) (h account)
  · intro h account hmem
    obtain ⟨i, row, hrow, hread⟩ := (mem_normalizeAccounts rt).mp hmem
    rw [h i row hrow] at hread
    cases hread

/-- Whether a row is rejected does not depend on the id it would get. -/
theorem normalizeAccount_eq_none {u u' : String} {row : Json}
    (h : normalizeAccount rt u row = none) : normalizeAccount rt u' row = none := by
  unfold normalizeAccount at h ⊢
  split
  · rw [if_pos ‹_›] at h
    simp only [normalizeApiAccount] at h ⊢
    split
    · rw [if_pos ‹_›] at h
      cases h
    · rfl
  · rw [if_neg ‹_›] at h
    split
    · rw [if_pos ‹_›] at h
      unfold normalizeOAuthAccount at h ⊢
      split
      · rw [if_pos ‹_›] at h
        split
        · rw [if_pos ‹_›] at h
          cases h
        · rfl
      · rw [if_neg ‹_›] at h
        cases hrefresh : nonblank (row.get? "refresh") with
        | none =>
            rw [hrefresh] at h
            simp only [ite_eq_right_iff, reduceCtorEq] at h ⊢
            exact h
        | some refresh =>
            rw [hrefresh] at h
            cases h
    · rfl

/-! ## The result -/

/-- A mutation whose mutator changes nothing. -/
def StoreCall.ChangesNothing (rt : Runtime) (uuid : ℕ → String) (disk : Disk) : StoreCall → Prop
  | .mutateAccounts mutate allowDrop =>
      (StoreCall.mutateAccounts mutate allowDrop).next rt uuid disk =
        (loadAccounts rt uuid disk).getD emptyAccountStorage
  | .saveAccounts _ _ _ => False

/-- Each rejected entry keeps its config entry and its state, and a mutation that
changes nothing leaves what is loaded as it was. -/
def PreservesStore (rt : Runtime) (uuid uuid' : ℕ → String) (disk : Disk) (call : StoreCall) :
    Prop :=
  KeepsRejected rt uuid disk call ∧
    (call.ChangesNothing rt uuid disk →
      loadAccounts rt uuid' (call.done rt uuid disk) = loadAccounts rt uuid disk)

/-- What has to be true of the files for a mutation that changes nothing. -/
structure WritesBack (rt : Runtime) (uuid : ℕ → String) (disk : Disk) (call : StoreCall) : Prop where
  /-- There is a roster. -/
  roster : ∃ entries, (disk.config.getD .null).get? "accounts" = some (.arr entries)
  refresh : ∀ key, ((recordOrEmpty ((disk.config.getD .null).get? "refresh")).get? key).isSome →
    key ∈ refreshKeys
  quota : ∀ key, ((recordOrEmpty ((disk.config.getD .null).get? "quota")).get? key).isSome →
    key ∈ quotaKeys
  lastUsed : ∀ base, .corrupt base ∈ loadedAccounts rt uuid disk → base.lastUsed = none
  /-- No entry that is carried over can be loaded without its state entry. -/
  alone : ∀ raw id, CarriedOver (disk.config.getD .null) (call.loadedIds rt uuid disk)
    call.allowDrop (writtenIds (call.next rt uuid disk)) raw id → ∀ u, normalizeAccount rt u raw = none

theorem keepsRejected_iff {uuid : ℕ → String} {disk : Disk} {call : StoreCall}
    (hdisk : DistinctIds disk) (hnew : NewIds uuid disk) :
    KeepsRejected rt uuid disk call ↔
      ∀ entry id, Rejected rt uuid disk call entry id →
        ∀ s, entry.get? "id" = some (.str s) → stateEntry (disk.state.getD .null) s = none := by
  constructor
  · intro h entry id hrejected
    exact (keepsEntry_iff hrejected hdisk hnew).mp (h entry id hrejected)
  · intro h entry id hrejected
    exact (keepsEntry_iff hrejected hdisk hnew).mpr (h entry id hrejected)

/-- An entry that is carried over has no state any more. -/
theorem mergeAccount_added {uuid : ℕ → String} {disk : Disk} {call : StoreCall} {raw : Json}
    (h : raw ∈ call.added rt uuid disk) :
    mergeAccount (stateFromStorage (call.next rt uuid disk)) raw = raw := by
  obtain ⟨id, hraw⟩ := (mem_added rt).mp h
  obtain ⟨s, hs, hblank, htrim⟩ := rosterId_eq_some.mp hraw.listed
  have hstate : stateEntry (stateFromStorage (call.next rt uuid disk)) s = none :=
    stateEntry_done hblank (htrim ▸ hraw.notWritten)
  rw [mergeAccount, if_pos (isRecord_of_get? hs), hs, stringOf_str, Option.bind_some]
  rw [hstate]
  exact (Json.eq_obj_of_isRecord (isRecord_of_get? hs)).symm

theorem lookup_mergeRefresh_other {main : Option Json} {refreshConfig : Json} {key : String}
    (h : key ∉ refreshKeys) : (mergeRefresh main refreshConfig).lookup key = refreshConfig.get? key := by
  simp only [refreshKeys, List.mem_cons, List.not_mem_nil, or_false, not_or] at h
  simp [mergeRefresh, h, Json.lookup_members]

theorem lookup_mergeQuota_other {main : Option Json} {quotaConfig : Json} {key : String}
    (h : key ∉ quotaKeys) : (mergeQuota main quotaConfig).lookup key = quotaConfig.get? key := by
  simp only [quotaKeys, List.mem_cons, List.not_mem_nil, or_false, not_or] at h
  simp [mergeQuota, h, Json.lookup_members]

/-- Settings restricted to some keys are the settings where there are no others. -/
theorem restrict_eq_iff {keys : List String} {fields other : Fields}
    (hother : ∀ key, key ∉ keys → fields key = other key) :
    (some fun key => if key ∈ keys then fieldOf (some fields) key else none) = some fields ↔
      ∀ key, (other key).isSome → key ∈ keys := by
  rw [Option.some.injEq, funext_iff]
  refine forall_congr' fun key => ?_
  by_cases hkey : key ∈ keys
  · simp [hkey, fieldOf]
  · rw [if_neg hkey, hother key hkey]
    cases other key <;> simp [hkey]

theorem map_saved_eq_iff {accounts : List FallbackAccount} :
    accounts.map FallbackAccount.saved = accounts ↔
      ∀ base, .corrupt base ∈ accounts → base.lastUsed = none := by
  have hmap : accounts.map FallbackAccount.saved = accounts ↔
      ∀ account ∈ accounts, account.saved = account := by
    conv_lhs => rhs; rw [← List.map_id accounts]
    exact List.map_inj_left
  rw [hmap]
  constructor
  · intro h base hbase
    exact saved_eq_self.mp (h _ hbase) base rfl
  · intro h account haccount
    refine saved_eq_self.mpr ?_
    rintro base rfl
    exact h base haccount

theorem map_saved_append_eq_iff {accounts more : List FallbackAccount} :
    accounts.map FallbackAccount.saved ++ more = accounts ↔
      (∀ base, .corrupt base ∈ accounts → base.lastUsed = none) ∧ more = [] := by
  constructor
  · intro h
    have hmore : more = [] := by
      have hlength := congrArg List.length h
      rw [List.length_append, List.length_map, Nat.add_eq_left, List.length_eq_zero_iff] at hlength
      exact hlength
    rw [hmore, List.append_nil] at h
    exact ⟨map_saved_eq_iff.mp h, hmore⟩
  · rintro ⟨hlastUsed, rfl⟩
    rw [List.append_nil]
    exact map_saved_eq_iff.mpr hlastUsed

/-- The rows come back unchanged exactly when no corrupt one was ever used and no
entry that is carried over can be loaded on its own. -/
theorem rowsReread_eq_iff {uuid : ℕ → String} (uuid' : ℕ → String) {disk : Disk} {call : StoreCall}
    {current : AccountStorage} (hdisk : DistinctIds disk) (hnew : NewIds uuid disk)
    (hload : loadAccounts rt uuid disk = some current) (hnext : call.next rt uuid disk = current) :
    rowsReread rt uuid' current (call.added rt uuid disk) = current.accounts ↔
      (∀ base, .corrupt base ∈ loadedAccounts rt uuid disk → base.lastUsed = none) ∧
        ∀ raw id, CarriedOver (disk.config.getD .null) (call.loadedIds rt uuid disk) call.allowDrop
          (writtenIds (call.next rt uuid disk)) raw id → ∀ u, normalizeAccount rt u raw = none := by
  have hrows : loadedAccounts rt uuid disk = current.accounts := by
    rw [loadedAccounts, hload]
    rfl
  have hnormal : ∀ account ∈ current.accounts, account.Normal rt := by
    intro account haccount
    rw [← hrows, loadedAccounts_eq] at haccount
    exact normal_of_mem rt hnew.isUuid haccount
  have hadded : ∀ raw ∈ call.added rt uuid disk,
      mergeAccount (stateFromStorage current) raw = raw := by
    intro raw hraw
    rw [← hnext]
    exact mergeAccount_added hraw
  rw [rowsReread_eq hnormal (hrows ▸ hdisk.nodup hnew) hadded, map_saved_append_eq_iff, hrows,
    normalizeAccounts_eq_nil]
  refine and_congr_right fun _ => ⟨fun h raw id hraw u => ?_, fun h i raw hraw => ?_⟩
  · obtain ⟨i, hi⟩ := List.mem_iff_getElem?.mp ((mem_added rt).mpr ⟨id, hraw⟩)
    exact normalizeAccount_eq_none (h i raw hi)
  · obtain ⟨id, hid⟩ := (mem_added rt).mp (List.mem_of_getElem? hraw)
    exact h raw id hid _

/-- The settings come back unchanged exactly when there are none but those that are
carried. -/
theorem settings_eq_iff {uuid : ℕ → String} {disk : Disk} {current : AccountStorage}
    (hload : loadAccounts rt uuid disk = some current) :
    ((some fun key => if key ∈ refreshKeys then fieldOf current.refresh key else none) =
        current.refresh ↔
      ∀ key, ((recordOrEmpty ((disk.config.getD .null).get? "refresh")).get? key).isSome →
        key ∈ refreshKeys) ∧
    ((some fun key => if key ∈ quotaKeys then fieldOf current.quota key else none) =
        current.quota ↔
      ∀ key, ((recordOrEmpty ((disk.config.getD .null).get? "quota")).get? key).isSome →
        key ∈ quotaKeys) := by
  obtain ⟨config, entries, hconfig, hentries⟩ := roster_of_load hload
  have hparts := loadAccounts_of_roster rt uuid hconfig hentries
  rw [hload, Option.some.injEq] at hparts
  rw [hparts, hconfig, Option.getD_some]
  exact ⟨restrict_eq_iff fun key hkey => lookup_mergeRefresh_other hkey,
    restrict_eq_iff fun key hkey => lookup_mergeQuota_other hkey⟩

/-- A mutation that changes nothing leaves what is loaded as it was exactly when the
files hold nothing the writers do not carry. -/
theorem loadAccounts_done_eq_iff {uuid uuid' : ℕ → String} {disk : Disk} {call : StoreCall}
    (hdisk : DistinctIds disk) (hnew : NewIds uuid disk) (hcall : call.ChangesNothing rt uuid disk) :
    loadAccounts rt uuid' (call.done rt uuid disk) = loadAccounts rt uuid disk ↔
      WritesBack rt uuid disk call := by
  have hnext : call.next rt uuid disk =
      (loadAccounts rt uuid disk).getD emptyAccountStorage := by
    cases call with
    | mutateAccounts mutate allowDrop => exact hcall
    | saveAccounts storage owns now => exact hcall.elim
  cases hload : loadAccounts rt uuid disk with
  | none =>
      -- the write makes a roster where there was none
      refine iff_of_false (fun h => ?_) fun h => ?_
      · have hsome := loadAccounts_isSome rt uuid' (call.done rt uuid disk)
        have hconfig : (call.done rt uuid disk).config.getD .null = call.config rt uuid disk := rfl
        rw [h, hconfig, StoreCall.config, get?_nextConfig_accounts] at hsome
        cases hsome
      · obtain ⟨entries, hentries⟩ := h.roster
        have hsome := loadAccounts_isSome rt uuid disk
        rw [hload, hentries] at hsome
        cases hsome
  | some current =>
      rw [hload] at hnext
      have hcurrent : call.next rt uuid disk = current := hnext
      obtain ⟨hrefresh, hquota⟩ := settings_eq_iff hload
      have hrows := rowsReread_eq_iff uuid' hdisk hnew hload hcurrent
      have hroster : ∃ entries, (disk.config.getD .null).get? "accounts" = some (.arr entries) := by
        obtain ⟨config, entries, hconfig, hentries⟩ := roster_of_load hload
        exact ⟨entries, by rw [hconfig, Option.getD_some, hentries]⟩
      rw [loadAccounts_done rt hload hcurrent, Option.some.injEq]
      constructor
      · intro h
        have hrefreshEq := congrArg AccountStorage.refresh h
        have hquotaEq := congrArg AccountStorage.quota h
        have hrowsEq := hrows.mp (congrArg AccountStorage.accounts h)
        exact ⟨hroster, hrefresh.mp hrefreshEq, hquota.mp hquotaEq, hrowsEq.1, hrowsEq.2⟩
      · intro h
        rw [hrefresh.mpr h.refresh, hquota.mpr h.quota, hrows.mpr ⟨h.lastUsed, h.alone⟩]

/-- The two promises hold of a call exactly when no rejected entry has a state entry
and, for a mutation that changes nothing, the files hold nothing the writers do not
carry. -/
theorem preservesStore_iff (rt : Runtime) (uuid uuid' : ℕ → String) (disk : Disk)
    (call : StoreCall) (hdisk : DistinctIds disk) (hnew : NewIds uuid disk) :
    PreservesStore rt uuid uuid' disk call ↔
      (∀ entry id, Rejected rt uuid disk call entry id →
        ∀ s, entry.get? "id" = some (.str s) → stateEntry (disk.state.getD .null) s = none) ∧
      (call.ChangesNothing rt uuid disk → WritesBack rt uuid disk call) := by
  rw [PreservesStore, keepsRejected_iff hdisk hnew]
  refine and_congr_right fun _ => forall_congr' fun hcall => ?_
  exact loadAccounts_done_eq_iff hdisk hnew hcall

/-! ### Two small stores -/

theorem newIds_storedDisk : DistinctIds storedDisk ∧ NewIds newId storedDisk := by
  have hentries : configEntries (storedDisk.config.getD .null) =
      [.obj [("id", .str "a"), ("type", .str "oauth")]] := rfl
  refine ⟨⟨?_, by decide +kernel, by decide +kernel⟩, ⟨?_, ?_⟩⟩
  · intro entry h
    rw [hentries, List.mem_singleton] at h
    exact ⟨"a", h ▸ rfl⟩
  · intro _
    have hid : IsUuid "new" := ⟨by decide +kernel, by decide +kernel⟩
    exact hid
  · intro _
    have hnew : "new" ∉ (configEntries (storedDisk.config.getD .null)).map trimmedId := by
      decide +kernel
    exact hnew

/-- A store with one row and its token in the state file is left as it is. -/
theorem preservesStore_stored :
    PreservesStore plainRuntime newId newId storedDisk keepAll := by
  have hrows : loadedAccounts plainRuntime newId storedDisk =
      [.oauth { id := "a", refresh := "r1" }] := by
    decide +kernel
  have hentries : configEntries (storedDisk.config.getD .null) =
      [.obj [("id", .str "a"), ("type", .str "oauth")]] := rfl
  refine (preservesStore_iff plainRuntime newId newId storedDisk keepAll newIds_storedDisk.1
    newIds_storedDisk.2).mpr ⟨?_, fun _ => ⟨⟨_, rfl⟩, ?_, ?_, ?_, ?_⟩⟩
  · intro entry id h
    have hmem := h.mem
    rw [hentries, List.mem_singleton] at hmem
    have hread := h.rejected "new"
    rw [hmem] at hread
    exact absurd hread (by decide +kernel)
  · intro key h
    cases h
  · intro key h
    cases h
  · intro base h
    rw [hrows] at h
    cases List.mem_singleton.mp h
  · intro raw id h
    have hmem := List.mem_of_find?_eq_some h.first
    rw [hentries, List.mem_singleton] at hmem
    have hid := h.listed
    rw [hmem] at hid
    have hlisted : rosterId (.obj [("id", .str "a"), ("type", .str "oauth")]) = some "a" := by
      decide +kernel
    rw [hlisted, Option.some.injEq] at hid
    exact absurd (hid ▸ h.notLoaded) (by decide +kernel)

/-- An API row with a mistyped address and its key, and a corrupt row that was used. -/
def brokenDisk : Disk where
  config := some (.obj [("accounts", .arr [
    .obj [("id", .str "a"), ("type", .str "api"), ("baseURL", .str "htps:/api.example")],
    .obj [("id", .str "b"), ("type", .str "oauth"), ("corrupt", .bool true)]])])
  state := some (.obj [("accounts", .obj [
    ("a", .obj [("apiKey", .str "k1")]),
    ("b", .obj [("lastUsed", .num 5)])])])

/-- The write loses the key of the first row and the last use of the second. -/
theorem preservesStore_fails :
    DistinctIds brokenDisk ∧ NewIds newId brokenDisk ∧
      ¬KeepsRejected plainRuntime newId brokenDisk keepAll ∧
      keepAll.ChangesNothing plainRuntime newId brokenDisk ∧
      loadAccounts plainRuntime newId (keepAll.done plainRuntime newId brokenDisk) ≠
        loadAccounts plainRuntime newId brokenDisk := by
  have hentries : configEntries (brokenDisk.config.getD .null) =
      [.obj [("id", .str "a"), ("type", .str "api"), ("baseURL", .str "htps:/api.example")],
        .obj [("id", .str "b"), ("type", .str "oauth"), ("corrupt", .bool true)]] := rfl
  have hdistinct : DistinctIds brokenDisk := by
    refine ⟨?_, by decide +kernel, by decide +kernel⟩
    intro entry h
    rw [hentries] at h
    rcases List.mem_cons.mp h with rfl | h
    · exact ⟨"a", rfl⟩
    · exact ⟨"b", List.mem_singleton.mp h ▸ rfl⟩
  have hnew : NewIds newId brokenDisk := by
    refine ⟨fun _ => newIds_storedDisk.2.isUuid 0, fun _ => ?_⟩
    have hnew : "new" ∉ (configEntries (brokenDisk.config.getD .null)).map trimmedId := by
      decide +kernel
    exact hnew
  refine ⟨hdistinct, hnew, ?_, rfl, ?_⟩
  · intro h
    have hrejected : Rejected plainRuntime newId brokenDisk keepAll
        (.obj [("id", .str "a"), ("type", .str "api"), ("baseURL", .str "htps:/api.example")])
        "a" := {
      mem := by
        rw [hentries]
        exact List.mem_cons_self
      listed := by decide +kernel
      rejected := fun u => by
        have hread : normalizeAccount plainRuntime "new" (mergeAccount
            (brokenDisk.state.getD .null) (.obj [("id", .str "a"), ("type", .str "api"),
              ("baseURL", .str "htps:/api.example")])) = none := by
          decide +kernel
        exact normalizeAccount_eq_none hread
      notDropped := List.not_mem_nil
      notWritten := by decide +kernel }
    have hkept := (h _ _ hrejected).2 "a" rfl
    exact absurd hkept (by decide +kernel)
  · intro h
    have hrows := congrArg (fun storage => storage.elim [] AccountStorage.accounts) h
    exact absurd hrows (by decide +kernel)

end Accounts
