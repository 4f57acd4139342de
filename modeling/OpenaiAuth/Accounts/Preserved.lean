import OpenaiAuth.Accounts.Writes

/-! # What a store write preserves

Two promises of the writers. Entries that cannot be loaded are carried over, so
that a repaired config brings the account back; and a mutation that changes
nothing leaves what is loaded as it was. The config half of the first holds for
every entry; the state file is rebuilt from the loaded rows, so its half holds
for the entries that have no state. What decides the second is found field by
field.
-/

namespace Accounts

open Js

variable (rt : Runtime)

/-! ## Distinct ids -/

/-- The id of an entry, trimmed. -/
def trimmedId (entry : Json) : String := ((stringOf (entry.get? "id")).map trim).getD ""

/-- The account ids of the pair are strings, distinct after trimming; an account's
id is the one its config entry has, so no state entry carries another. -/
structure DistinctIds (disk : Disk) : Prop where
  strings : ∀ entry ∈ configEntries (disk.config.getD .null),
    ∃ s, entry.get? "id" = some (.str s)
  distinct : ((configEntries (disk.config.getD .null)).map trimmedId).Nodup
  same : ∀ entry ∈ configEntries (disk.config.getD .null),
    (mergeAccount (disk.state.getD .null) entry).get? "id" = entry.get? "id"

/-- The ids `randomUUID` gives the call are trimmed, not blank and new. -/
structure NewIds (uuid : ℕ → String) (disk : Disk) : Prop where
  isUuid : ∀ i, IsUuid (uuid i)
  new : ∀ i, uuid i ∉ (configEntries (disk.config.getD .null)).map trimmedId

/-- The ids the entries are loaded under. -/
def loadIds (uuid : ℕ → String) : List Json → List String
  | [] => []
  | entry :: rest => (rosterId entry).getD (uuid 0) :: loadIds (fun i => uuid (i + 1)) rest

theorem loadIds_sublist (uuid : ℕ → String) (rows : List Json) :
    ((normalizeAccounts rt uuid rows).map FallbackAccount.id).Sublist (loadIds uuid rows) := by
  induction rows generalizing uuid with
  | nil => exact List.Sublist.refl _
  | cons row rest ih =>
      rw [normalizeAccounts, List.map_append, loadIds]
      cases h : normalizeAccount rt (uuid 0) row with
      | none => exact (ih _).cons _
      | some account =>
          rw [Option.toList_some, List.map_singleton, List.singleton_append,
            normalizeAccount_id rt h]
          exact (ih _).cons_cons _

theorem mem_loadIds {uuid : ℕ → String} {rows : List Json} {id : String}
    (h : id ∈ loadIds uuid rows) :
    (∃ row ∈ rows, rosterId row = some id) ∨ ∃ i, id = uuid i ∧ ∃ row ∈ rows, rosterId row = none := by
  induction rows generalizing uuid with
  | nil => cases h
  | cons row rest ih =>
      rcases List.mem_cons.mp h with rfl | h
      · cases hrow : rosterId row with
        | none => exact .inr ⟨0, rfl, row, List.mem_cons_self, hrow⟩
        | some s => exact .inl ⟨row, List.mem_cons_self, hrow⟩
      · rcases ih h with ⟨r, hr, hid⟩ | ⟨i, hi, r, hr, hid⟩
        · exact .inl ⟨r, List.mem_cons_of_mem _ hr, hid⟩
        · exact .inr ⟨i + 1, hi, r, List.mem_cons_of_mem _ hr, hid⟩

theorem trimmedId_of_rosterId {row : Json} {id : String} (h : rosterId row = some id) :
    trimmedId row = id := by
  obtain ⟨s, hs, -, rfl⟩ := rosterId_eq_some.mp h
  simp [trimmedId, hs]

/-- An entry with a string id is off the roster when that is blank. -/
theorem trimmedId_of_blank {row : Json} (hstring : ∃ s, row.get? "id" = some (.str s))
    (h : rosterId row = none) : trimmedId row = "" := by
  obtain ⟨s, hs⟩ := hstring
  rw [rosterId, Option.map_eq_none_iff, hs] at h
  cases hblank : isBlank s with
  | false =>
      rw [nonblank_str hblank] at h
      cases h
  | true =>
      have hempty : trim s = "" := by simpa [isBlank] using hblank
      simp [trimmedId, hs, hempty]

theorem nodup_loadIds {uuid : ℕ → String} {rows : List Json}
    (hstrings : ∀ row ∈ rows, ∃ s, row.get? "id" = some (.str s))
    (hdistinct : (rows.map trimmedId).Nodup) (hnew : ∀ i, uuid i ∉ rows.map trimmedId) :
    (loadIds uuid rows).Nodup := by
  induction rows generalizing uuid with
  | nil => exact List.nodup_nil
  | cons row rest ih =>
      rw [List.map_cons, List.nodup_cons] at hdistinct
      have hrest : (loadIds (fun i => uuid (i + 1)) rest).Nodup :=
        ih (fun r hr => hstrings r (List.mem_cons_of_mem _ hr)) hdistinct.2
          (fun i hi => hnew (i + 1) (List.mem_cons_of_mem _ hi))
      rw [loadIds, List.nodup_cons]
      refine ⟨fun hmem => ?_, hrest⟩
      have habsent : ∀ r ∈ rest, trimmedId r ≠ trimmedId row := fun r hr heq =>
        hdistinct.1 (heq ▸ List.mem_map_of_mem hr)
      cases hrow : rosterId row with
      | some s =>
          rw [hrow, Option.getD_some] at hmem
          rcases mem_loadIds hmem with ⟨r, hr, hid⟩ | ⟨i, hi, -⟩
          · exact habsent r hr ((trimmedId_of_rosterId hid).trans (trimmedId_of_rosterId hrow).symm)
          · refine hnew (i + 1) ?_
            rw [← hi, ← trimmedId_of_rosterId hrow]
            exact List.mem_map_of_mem List.mem_cons_self
      | none =>
          rw [hrow, Option.getD_none] at hmem
          rcases mem_loadIds hmem with ⟨r, hr, hid⟩ | ⟨i, -, r, hr, hid⟩
          · refine hnew 0 ?_
            rw [← trimmedId_of_rosterId hid]
            exact List.mem_map_of_mem (List.mem_cons_of_mem _ hr)
          · -- two blank ids are one id after trimming
            have hr0 := trimmedId_of_blank (hstrings r (List.mem_cons_of_mem _ hr)) hid
            have hrow0 := trimmedId_of_blank (hstrings row List.mem_cons_self) hrow
            exact habsent r hr (hr0.trans hrow0.symm)

variable {rt}

/-- The rows loaded from a pair with distinct ids have distinct ids. -/
theorem DistinctIds.nodup {uuid : ℕ → String} {disk : Disk} (h : DistinctIds disk)
    (hnew : NewIds uuid disk) : ((loadedAccounts rt uuid disk).map FallbackAccount.id).Nodup := by
  have htrimmed : ((configEntries (disk.config.getD .null)).map
      (mergeAccount (disk.state.getD .null))).map trimmedId =
        (configEntries (disk.config.getD .null)).map trimmedId := by
    rw [List.map_map]
    refine List.map_congr_left fun entry hentry => ?_
    rw [Function.comp_apply, trimmedId, h.same entry hentry, trimmedId]
  rw [loadedAccounts_eq]
  refine (nodup_loadIds ?_ ?_ ?_).sublist (loadIds_sublist rt uuid _)
  · intro row hrow
    obtain ⟨entry, hentry, rfl⟩ := List.mem_map.mp hrow
    rw [h.same entry hentry]
    exact h.strings entry hentry
  · exact htrimmed ▸ h.distinct
  · exact htrimmed ▸ hnew.new

/-! ## Rejected entries -/

variable (rt)

/-- A roster entry that cannot be loaded, and that the call neither drops nor
writes in another form. -/
structure Rejected (uuid : ℕ → String) (disk : Disk) (call : StoreCall) (entry : Json)
    (id : String) : Prop where
  mem : entry ∈ configEntries (disk.config.getD .null)
  listed : rosterId entry = some id
  rejected : ∀ u, normalizeAccount rt u (mergeAccount (disk.state.getD .null) entry) = none
  notDropped : id ∉ call.allowDrop
  notWritten : id ∉ writtenIds (call.next rt uuid disk)

/-- The entry is in the config as it was, and the state file holds under its id
what it held. -/
def KeepsEntry (disk disk' : Disk) (entry : Json) : Prop :=
  entry ∈ configEntries (disk'.config.getD .null) ∧
    ∀ s, entry.get? "id" = some (.str s) →
      stateEntry (disk'.state.getD .null) s = stateEntry (disk.state.getD .null) s

def KeepsRejected (uuid : ℕ → String) (disk : Disk) (call : StoreCall) : Prop :=
  ∀ entry id, Rejected rt uuid disk call entry id → KeepsEntry disk (call.done rt uuid disk) entry

variable {rt} {uuid : ℕ → String} {disk : Disk} {call : StoreCall} {entry : Json} {id : String}

/-- Of the entries with one trimmed id there is only the first. -/
theorem DistinctIds.find? (h : DistinctIds disk)
    (hmem : entry ∈ configEntries (disk.config.getD .null)) (hid : rosterId entry = some id) :
    (configEntries (disk.config.getD .null)).find? (hasTrimmedId id) = some entry := by
  cases hfind : (configEntries (disk.config.getD .null)).find? (hasTrimmedId id) with
  | none =>
      have := List.find?_eq_none.mp hfind entry hmem
      exact absurd (hasTrimmedId_of_rosterId hid) this
  | some found =>
      obtain ⟨s, hs, htrim⟩ := hasTrimmedId_iff.mp (List.find?_some hfind)
      have hfound : trimmedId found = id := by simp [trimmedId, hs, htrim]
      rw [List.inj_on_of_nodup_map h.distinct (List.mem_of_find?_eq_some hfind) hmem
        (hfound.trans (trimmedId_of_rosterId hid).symm)]

/-- A rejected entry is loaded under no id. -/
theorem Rejected.notLoaded (h : Rejected rt uuid disk call entry id) (hdisk : DistinctIds disk)
    (hnew : NewIds uuid disk) : id ∉ (loadedAccounts rt uuid disk).map FallbackAccount.id := by
  intro hmem
  obtain ⟨account, haccount, hid⟩ := List.mem_map.mp hmem
  rw [loadedAccounts_eq] at haccount
  obtain ⟨i, row, hrow, hread⟩ := (mem_normalizeAccounts rt).mp haccount
  obtain ⟨other, hother, rfl⟩ := List.mem_map.mp (List.mem_of_getElem? hrow)
  have hother' : rosterId (mergeAccount (disk.state.getD .null) other) = rosterId other := by
    rw [rosterId, hdisk.same other hother, rosterId]
  rw [normalizeAccount_id rt hread, hother'] at hid
  cases hroster : rosterId other with
  | none =>
      rw [hroster, Option.getD_none] at hid
      refine hnew.new i ?_
      rw [hid, ← trimmedId_of_rosterId h.listed]
      exact List.mem_map_of_mem h.mem
  | some s =>
      -- the entry that was loaded under this id would be this one
      rw [hroster, Option.getD_some] at hid
      have heq : other = entry := List.inj_on_of_nodup_map hdisk.distinct hother h.mem
        ((trimmedId_of_rosterId (hid ▸ hroster)).trans (trimmedId_of_rosterId h.listed).symm)
      rw [heq, h.rejected] at hread
      cases hread

theorem mem_loadedIds_of_call {id : String} (h : id ∈ call.loadedIds rt uuid disk) :
    id ∈ (loadedAccounts rt uuid disk).map FallbackAccount.id := by
  cases call with
  | saveAccounts storage owns now =>
      simp only [StoreCall.loadedIds, StoreCall.loaded] at h
      cases hload : loadAccounts rt uuid disk <;> simp_all [loadedAccounts]
  | mutateAccounts mutate allowDrop =>
      simp only [StoreCall.loadedIds, StoreCall.loaded] at h
      cases hload : loadAccounts rt uuid disk <;> simp_all [loadedAccounts, emptyAccountStorage]

/-- The config file keeps every rejected entry. -/
theorem Rejected.added (h : Rejected rt uuid disk call entry id) (hdisk : DistinctIds disk)
    (hnew : NewIds uuid disk) : entry ∈ call.added rt uuid disk :=
  (mem_added rt).mpr ⟨id, {
    first := hdisk.find? h.mem h.listed
    listed := h.listed
    notLoaded := fun hmem => h.notLoaded hdisk hnew (mem_loadedIds_of_call hmem)
    notDropped := h.notDropped
    notWritten := h.notWritten }⟩

/-- The state file is rebuilt from the rows that are written. -/
theorem stateEntry_done {s : String} (hs : isBlank s = false)
    (h : trim s ∉ writtenIds (call.next rt uuid disk)) :
    stateEntry ((call.done rt uuid disk).state.getD .null) s = none := by
  have hstate : (call.done rt uuid disk).state.getD .null =
      stateFromStorage (call.next rt uuid disk) := rfl
  rw [hstate, stateEntry_stateFromStorage, lookup_accountStates_eq_none]
  intro hmem
  obtain ⟨account, haccount, rfl⟩ := List.mem_map.mp hmem
  refine h (mem_writtenIds.mpr ⟨?_, account, haccount, rfl⟩)
  simpa [isBlank] using hs

/-- The config half of every rejected entry is kept. -/
theorem Rejected.inConfig (h : Rejected rt uuid disk call entry id) (hdisk : DistinctIds disk)
    (hnew : NewIds uuid disk) : entry ∈ configEntries (call.config rt uuid disk) := by
  rw [configEntries_config]
  exact List.mem_append_right _ (h.added hdisk hnew)

theorem keepsEntry_iff (h : Rejected rt uuid disk call entry id) (hdisk : DistinctIds disk)
    (hnew : NewIds uuid disk) :
    KeepsEntry disk (call.done rt uuid disk) entry ↔
      ∀ s, entry.get? "id" = some (.str s) → stateEntry (disk.state.getD .null) s = none := by
  obtain ⟨s, hs, hblank, htrim⟩ := rosterId_eq_some.mp h.listed
  have hdone := stateEntry_done (s := s) hblank (htrim ▸ h.notWritten)
  have hconfig : entry ∈ configEntries ((call.done rt uuid disk).config.getD .null) :=
    h.inConfig hdisk hnew
  constructor
  · intro hkeeps s' hs'
    rw [hs, Option.some.injEq, Json.str.injEq] at hs'
    rw [← hs', ← hkeeps.2 s hs, hdone]
  · intro hnone
    refine ⟨hconfig, fun s' hs' => ?_⟩
    rw [hs, Option.some.injEq, Json.str.injEq] at hs'
    rw [← hs', hdone, hnone s hs]

end Accounts
