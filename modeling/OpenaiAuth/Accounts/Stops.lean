import OpenaiAuth.Accounts.Writes

/-! # A stop between the two writes

`mutateAccounts` and `saveAccounts` write the config file, which holds no secret,
before the state file. When nothing follows the first write, the rows of the new
config are read with the old state file: a row keeps its credential exactly when
the old state file supplies it.
-/

namespace Accounts

open Js

variable (rt : Runtime)

/-- Whether a merged row is read with a refresh token or an API key. -/
def CarriesCredential (row : Json) : Prop :=
  row.get? "type" = some (.str "api") ∧
      isValidApiBaseURL rt (trim ((stringOf (row.get? "baseURL")).getD "")) = true ∧
      trim ((stringOf (row.get? "apiKey")).getD "") ≠ "" ∨
    row.get? "type" = some (.str "oauth") ∧ row.get? "corrupt" ≠ some (.bool true) ∧
      (nonblank (row.get? "refresh")).isSome = true

instance (row : Json) : Decidable (CarriesCredential rt row) := by
  unfold CarriesCredential
  infer_instance

/-- A row read with a credential under `id`. -/
def Returned (accounts : List FallbackAccount) (id : String) : Prop :=
  ∃ account ∈ accounts, account.id = id ∧ account.holdsCredential = true

/-! ## Reading one row -/

/-- A row is read with a credential exactly when it carries one. -/
theorem normalizeAccount_holdsCredential (uuid : String) (row : Json) :
    (∃ account, normalizeAccount rt uuid row = some account ∧ account.holdsCredential = true) ↔
      CarriesCredential rt row := by
  unfold CarriesCredential normalizeAccount
  by_cases hapi : row.get? "type" = some (.str "api")
  · have hoauth : ¬row.get? "type" = some (.str "oauth") := by
      rw [hapi]
      decide
    rw [if_pos hapi]
    by_cases hvalid : isValidApiBaseURL rt (trim ((stringOf (row.get? "baseURL")).getD "")) = true
    · by_cases hkey : trim ((stringOf (row.get? "apiKey")).getD "") = "" <;>
        simp [normalizeApiAccount, hapi, hvalid, hkey, FallbackAccount.holdsCredential]
    · simp [normalizeApiAccount, hapi, hvalid]
  · rw [if_neg hapi]
    by_cases hoauth : row.get? "type" = some (.str "oauth")
    · rw [if_pos hoauth]
      unfold normalizeOAuthAccount
      by_cases hcorrupt : row.get? "corrupt" = some (.bool true)
      · simp [hoauth, hcorrupt, FallbackAccount.holdsCredential]
      · cases hrefresh : nonblank (row.get? "refresh") <;>
          simp [hoauth, hcorrupt, FallbackAccount.holdsCredential]
    · simp [hapi, hoauth]

theorem returned_normalizeAccounts {uuid : ℕ → String} {rows : List Json} {id : String}
    (hnew : ∀ i, uuid i ≠ id) :
    Returned (normalizeAccounts rt uuid rows) id ↔
      ∃ row ∈ rows, rosterId row = some id ∧ CarriesCredential rt row := by
  constructor
  · rintro ⟨account, hmem, hid, hcredential⟩
    obtain ⟨i, row, hrow, hread⟩ := (mem_normalizeAccounts rt).mp hmem
    refine ⟨row, List.mem_of_getElem? hrow, ?_, ?_⟩
    · have hrid := normalizeAccount_id rt hread
      rw [hid] at hrid
      cases h : rosterId row with
      | none =>
          -- the row would be read under the new id
          rw [h] at hrid
          exact absurd hrid.symm (hnew i)
      | some s =>
          rw [h] at hrid
          exact congrArg some hrid.symm
    · exact (normalizeAccount_holdsCredential rt (uuid i) row).mp ⟨account, hread, hcredential⟩
  · rintro ⟨row, hmem, hid, hcarries⟩
    obtain ⟨i, hrow⟩ := List.mem_iff_getElem?.mp hmem
    obtain ⟨account, hread, hcredential⟩ :=
      (normalizeAccount_holdsCredential rt (uuid i) row).mpr hcarries
    refine ⟨account, (mem_normalizeAccounts rt).mpr ⟨i, row, hrow, hread⟩, ?_, hcredential⟩
    rw [normalizeAccount_id rt hread, hid]
    rfl

/-! ## The old state file under the new config -/

/-- The old state file supplies a credential under `id`: to a row the call writes,
or to an entry it carries over. -/
def StateSupplies (uuid : ℕ → String) (disk : Disk) (call : StoreCall) (id : String) : Prop :=
  let state := disk.state.getD .null
  (∃ account ∈ (call.next rt uuid disk).accounts,
    rosterId (mergeAccount state (.obj (accountConfig account))) = some id ∧
      CarriesCredential rt (mergeAccount state (.obj (accountConfig account)))) ∨
  ∃ raw rawId, CarriedOver (disk.config.getD .null) (call.loadedIds rt uuid disk) call.allowDrop
      (writtenIds (call.next rt uuid disk)) raw rawId ∧
    rosterId (mergeAccount state raw) = some id ∧ CarriesCredential rt (mergeAccount state raw)

theorem returned_between {uuid uuid' : ℕ → String} {disk : Disk} {call : StoreCall} {id : String}
    (hnew : ∀ i, uuid' i ≠ id) :
    Returned (loadedAccounts rt uuid' (call.between rt uuid disk)) id ↔
      StateSupplies rt uuid disk call id := by
  have hconfig : (call.between rt uuid disk).config.getD .null = call.config rt uuid disk := rfl
  have hstate : (call.between rt uuid disk).state = disk.state := rfl
  rw [loadedAccounts_eq, returned_normalizeAccounts rt hnew, hconfig, hstate,
    configEntries_config, StateSupplies]
  constructor
  · rintro ⟨row, hmem, hid, hcarries⟩
    obtain ⟨entry, hentry, rfl⟩ := List.mem_map.mp hmem
    rcases List.mem_append.mp hentry with hwritten | hadded
    · obtain ⟨account, haccount, rfl⟩ := List.mem_map.mp hwritten
      exact .inl ⟨account, haccount, hid, hcarries⟩
    · obtain ⟨rawId, hraw⟩ := (mem_added rt).mp hadded
      exact .inr ⟨entry, rawId, hraw, hid, hcarries⟩
  · rintro (⟨account, haccount, hid, hcarries⟩ | ⟨raw, rawId, hraw, hid, hcarries⟩)
    · refine ⟨_, List.mem_map_of_mem (List.mem_append_left _ ?_), hid, hcarries⟩
      exact List.mem_map_of_mem haccount
    · refine ⟨_, List.mem_map_of_mem (List.mem_append_right _ ?_), hid, hcarries⟩
      exact (mem_added rt).mpr ⟨rawId, hraw⟩

/-! ## The result -/

/-- Every account that was returned with a credential and that the call keeps is
returned with a credential after a stop between the writes. -/
def KeepsCredentials (uuid₀ uuid uuid' : ℕ → String) (disk : Disk) (call : StoreCall) : Prop :=
  ∀ id, Returned (loadedAccounts rt uuid₀ disk) id →
    id ∈ (call.next rt uuid disk).accounts.map FallbackAccount.id →
    Returned (loadedAccounts rt uuid' (call.between rt uuid disk)) id

/-- The only copy of the token is in the config. -/
def inlineDisk : Disk where
  config := some (oneRow [("refresh", .str "r1")])

theorem returned_storedDisk {id : String}
    (h : Returned (loadedAccounts plainRuntime newId storedDisk) id) : id = "a" := by
  have hrows : loadedAccounts plainRuntime newId storedDisk =
      [.oauth { id := "a", refresh := "r1" }] := by
    decide +kernel
  obtain ⟨account, hmem, rfl, -⟩ := h
  rw [hrows, List.mem_singleton] at hmem
  exact hmem ▸ rfl

end Accounts
