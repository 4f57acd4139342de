import OpenaiAuth.KillswitchFloors.Floors

/-! # The floors through the migration

The rewritten block gives an account what the older one gave it, because it was written
by asking the older reader; what it does not write of an account is its defaults, and
those are the floors of the main account, as they were for every account without an
entry.

Main result: `floors_kept`.
-/

namespace KillswitchFloors

open Js

/-! ## Older blocks -/

/-- A finite number, or nothing. -/
def IsThreshold (value : Option Json) : Prop :=
  value = none ∨ value = some .null ∨ ∃ q, value = some (.num q)

/-- The thresholds of an entry, under either spelling. -/
def HasThresholds (entry : Json) : Prop :=
  ∀ key ∈ ["primary", "5h", "secondary", "1w"], IsThreshold (entry.get? key)

structure Legacy (block : Members) : Prop where
  unmarked : isMarked (.obj block) = false
  main : ∀ main, block.lookup "main" = some main → HasThresholds main
  accounts : ∀ accounts, block.lookup "accounts" = some (.obj accounts) →
    ∀ entry ∈ accounts, HasThresholds entry.2

/-- The ids whose floors the rewriting keeps: no inherited name, and neither `main` nor
`prototype` with an entry of its own. -/
def Judged (block : Members) (accountId : Option String) : Prop :=
  ∀ id ∈ accountId, id ∉ objectPrototypeMembers ∧
    (id = mainRowId ∨ id = "prototype" → ownEntry (.obj block) (some id) = none)

def Floors.Numbers (floors : Floors) : Prop :=
  floorOf (some floors.primary) = floors.primary ∧
    floorOf (some floors.secondary) = floors.secondary

theorem floorOf_orElse {first second : Option Json} {q : ℚ} (hfirst : IsThreshold first)
    (hsecond : IsThreshold second) :
    floorOf (some ((Json.orElse first (Json.orElse second (some (.num q)))).getD (.num q))) =
      (Json.orElse first (Json.orElse second (some (.num q)))).getD (.num q) := by
  rcases hfirst with rfl | rfl | ⟨p, rfl⟩ <;> rcases hsecond with rfl | rfl | ⟨p, rfl⟩ <;> rfl

theorem numbers_normalize {thresholds : Option Json}
    (h : ∀ entry ∈ thresholds, HasThresholds entry) :
    (normalizeKillswitchThresholds thresholds).Numbers := by
  have threshold (key : String) (hkey : key ∈ ["primary", "5h", "secondary", "1w"]) :
      IsThreshold (thresholds.bind (·.get? key)) := by
    cases thresholds with
    | none => exact .inl rfl
    | some entry => exact h entry rfl key hkey
  exact ⟨floorOf_orElse (threshold _ (by simp)) (threshold _ (by simp)),
    floorOf_orElse (threshold _ (by simp)) (threshold _ (by simp))⟩

theorem mem_of_lookup {members : Members} {key : String} {value : Json}
    (h : members.lookup key = some value) : (key, value) ∈ members := by
  obtain ⟨before, after, rfl, -⟩ := List.lookup_eq_some_iff.mp h
  simp

theorem Legacy.ownEntry_thresholds {block : Members} (legacy : Legacy block)
    {accountId : Option String} {entry : Json}
    (h : ownEntry (.obj block) accountId = some entry) : HasThresholds entry := by
  unfold ownEntry at h
  obtain ⟨id, -, h⟩ := Option.bind_eq_some_iff.mp h
  obtain ⟨h, -⟩ := Option.filter_eq_some_iff.mp h
  unfold entryAt at h
  split at h
  · rename_i accounts haccounts
    rcases Option.or_eq_some_iff.mp h with h | ⟨-, h⟩
    · exact legacy.accounts accounts haccounts _ (mem_of_lookup h)
    · split at h
      · cases h
        exact fun key _ => .inl rfl
      · cases h
  · cases h

theorem Legacy.numbers {block : Members} (legacy : Legacy block) (accountId : Option String) :
    (legacyFloors (.obj block) accountId).Numbers := by
  refine numbers_normalize ?_
  intro entry hentry
  rcases Option.or_eq_some_iff.mp hentry with h | ⟨-, h⟩
  · exact legacy.ownEntry_thresholds h
  · exact legacy.main entry h

/-! ## The members that are written -/

theorem lookup_setEach (value : String → Option Json) (ids : List String) (accounts : Members)
    (id : String) :
    (setEach value ids accounts).lookup id =
      if id ∈ ids then (value id).or (accounts.lookup id) else accounts.lookup id := by
  induction ids generalizing accounts with
  | nil => simp [setEach]
  | cons first rest ih =>
    unfold setEach at ih ⊢
    rw [List.foldl_cons, ih]
    cases hvalue : value first with
    | none =>
      by_cases hid : id = first
      · subst hid
        simp [hvalue]
      · simp [hid]
    | some entry =>
      rw [Members.lookup_set]
      by_cases hid : id = first
      · subst hid
        simp [hvalue]
      · simp [hid]

section Block

variable {block : Members} {rosterIds : List String} {accountId : Option String}

theorem Legacy.reads (legacy : Legacy block) (accountId : Option String) :
    getKillswitchThresholdsForAccount (some (.obj block)) accountId =
      legacyFloors (.obj block) accountId := by
  unfold getKillswitchThresholdsForAccount
  rw [show (some (Json.obj block)).filter truthy = some (.obj block) from rfl]
  exact if_neg (Bool.eq_false_iff.mp legacy.unmarked)

theorem marked_reads {members : Members}
    (h : members.lookup "schema" = some (.str killswitchFloorsSchema))
    (accountId : Option String) :
    getKillswitchThresholdsForAccount (some (.obj members)) accountId =
      markedFloors (.obj members) accountId := by
  have marked : isMarked (.obj members) = true := by simp [isMarked, h]
  unfold getKillswitchThresholdsForAccount
  rw [show (some (Json.obj members)).filter truthy = some (.obj members) from rfl]
  exact if_pos marked

theorem isRecord_toJson (floors : Floors) : floors.toJson.isRecord = true := rfl

/-- The floors that a record gives. -/
def floorsIn (record : Json) : Floors where
  primary := floorOf (record.get? "primary")
  secondary := floorOf (record.get? "secondary")

theorem floorsIn_toJson {floors : Floors} (numbers : floors.Numbers) :
    floorsIn floors.toJson = floors :=
  congrArg₂ Floors.mk numbers.1 numbers.2

/-- The marked reader goes by the account's entry, and else by the defaults. -/
theorem markedFloors_eq {members accounts : Members} {defaults : Json}
    (haccounts : members.lookup "accounts" = some (.obj accounts))
    (hdefaults : (Json.obj members).recordAt? "defaults" = some defaults) :
    markedFloors (.obj members) accountId = floorsIn
      (((accounts.lookup (accountId.getD "main")).filter Json.isRecord).getD defaults) := by
  have record : (Json.obj members).recordAt? "accounts" = some (.obj accounts) := by
    simp [Json.recordAt?, haccounts]
  unfold markedFloors
  rw [record, hdefaults, Option.bind_some, Json.get?_obj]
  cases (accounts.lookup (accountId.getD "main")).filter Json.isRecord <;> rfl

/-! ## The rewritten block -/

/-- The ids that the older block names. -/
def namedIds (block : Members) : List String :=
  ((Json.obj block).recordAt? "accounts").elim [] fun accounts => accounts.members.map Prod.fst

theorem ownEntry_of_unnamed {id : String} (hid : id ∉ namedIds block)
    (plain : id ∉ objectPrototypeMembers) : ownEntry (.obj block) (some id) = none := by
  have absent : entryAt (block.lookup "accounts") id = none := by
    unfold entryAt
    split
    · rename_i accounts haccounts
      rw [if_neg plain, Option.or_none, List.lookup_eq_none_iff]
      intro entry hentry
      rw [bne_iff_ne]
      rintro rfl
      refine hid ?_
      simp only [namedIds, Json.recordAt?, Json.get?_obj, haccounts, Option.filter_some,
        Json.isRecord_obj, if_true, Option.elim_some, Json.members_obj]
      exact List.mem_map_of_mem hentry
    · rfl
  unfold ownEntry
  rw [Json.get?_obj]
  cases h : (some id).filter (· ≠ "") with
  | none => rfl
  | some other =>
    obtain ⟨hother, -⟩ := Option.filter_eq_some_iff.mp h
    cases hother
    rw [Option.bind_some, absent]
    rfl

/-- Without an entry of its own an account has the floors of the main account. -/
theorem legacyFloors_of_none (h : ownEntry (.obj block) accountId = none) :
    legacyFloors (.obj block) accountId = legacyFloors (.obj block) none := by
  unfold legacyFloors
  rw [h]
  rfl

theorem lookup_rewritten (block : Members) (rosterIds : List String) (id : String) :
    (setEach (rewrittenEntry block) (mainRowId :: rosterIds ++ namedIds block) []).lookup id =
      if id ∈ mainRowId :: rosterIds ++ namedIds block then rewrittenEntry block id else none := by
  rw [lookup_setEach]
  simp

theorem Legacy.kept (legacy : Legacy block) (rosterIds : List String)
    (judged : Judged block accountId) :
    getKillswitchThresholdsForAccount (some (.obj (killswitchInFloors block rosterIds))) accountId =
      getKillswitchThresholdsForAccount (some (.obj block)) accountId := by
  have schema : (killswitchInFloors block rosterIds).lookup "schema" =
      some (.str killswitchFloorsSchema) := by simp [killswitchInFloors]
  have accounts : (killswitchInFloors block rosterIds).lookup "accounts" = some (.obj
      (setEach (rewrittenEntry block) (mainRowId :: rosterIds ++ namedIds block) [])) := by
    simp [killswitchInFloors, namedIds]
  have defaults : (Json.obj (killswitchInFloors block rosterIds)).recordAt? "defaults" =
      some (legacyFloors (.obj block) none).toJson := by
    simp [killswitchInFloors, legacy.reads, Json.recordAt?, Floors.toJson]
  rw [marked_reads schema, legacy.reads, markedFloors_eq accounts defaults, lookup_rewritten]
  by_cases written : accountId.getD "main" ∈ mainRowId :: rosterIds ++ namedIds block ∧
      accountId.getD "main" ∉ prototypeKeys
  · -- the account has an entry, written by asking for it
    have entry : rewrittenEntry block (accountId.getD "main") =
        some (legacyFloors (.obj block)
          (if accountId.getD "main" = mainRowId then none
            else some (accountId.getD "main"))).toJson := by
      rw [rewrittenEntry, if_neg written.2, legacy.reads]
    rw [if_pos written.1, entry, Option.filter_some, isRecord_toJson, if_pos rfl,
      Option.getD_some, floorsIn_toJson (legacy.numbers _)]
    cases accountId with
    | none => rfl
    | some id =>
      split
      · rename_i main
        exact (legacyFloors_of_none ((judged id rfl).2 (.inl main))).symm
      · rfl
  · have missing : (if accountId.getD "main" ∈ mainRowId :: rosterIds ++ namedIds block then
        rewrittenEntry block (accountId.getD "main") else none) = none := by
      split
      · rename_i listed
        rw [rewrittenEntry, if_pos]
        by_contra plain
        exact written ⟨listed, plain⟩
      · rfl
    rw [missing, Option.filter_none, Option.getD_none, floorsIn_toJson (legacy.numbers none)]
    symm
    refine legacyFloors_of_none ?_
    cases accountId with
    | none => rfl
    | some id =>
      obtain ⟨plain, unnamed⟩ := judged id rfl
      by_cases proto : id ∈ prototypeKeys
      · -- the other two of these names are inherited ones
        refine unnamed (.inr ?_)
        simp only [prototypeKeys, List.mem_cons, List.not_mem_nil, or_false] at proto
        rcases proto with rfl | rfl | rfl
        · exact absurd (by decide) plain
        · exact absurd (by decide) plain
        · rfl
      · refine ownEntry_of_unnamed (fun named => written ⟨?_, proto⟩) plain
        exact List.mem_append_right _ named

/-! ## Created blocks -/

/-- A block created by a write gives the default floors to the main account and to the
rows of the roster that it does not name, and its own defaults to any other. -/
theorem created_floors (given : (((Json.obj block).recordAt? "accounts").elim [] Json.members).lookup
      (accountId.getD "main") = none) :
    getKillswitchThresholdsForAccount (some (.obj (killswitchWithDefaultFloors block rosterIds)))
        accountId =
      if accountId.getD "main" ∈ mainRowId :: rosterIds ∧ accountId.getD "main" ∉ prototypeKeys then
        defaultKillswitchThresholds
      else (((Json.obj block).recordAt? "defaults").map floorsIn).getD
        defaultKillswitchThresholds := by
  have numbers : defaultKillswitchThresholds.Numbers := ⟨rfl, rfl⟩
  have schema : (killswitchWithDefaultFloors block rosterIds).lookup "schema" =
      some (.str killswitchFloorsSchema) := by simp [killswitchWithDefaultFloors]
  have accounts : (killswitchWithDefaultFloors block rosterIds).lookup "accounts" = some (.obj
      (setEach (fun id =>
        if id ∈ prototypeKeys ||
            ((((Json.obj block).recordAt? "accounts").elim [] Json.members).lookup id).isSome then
          none
        else some defaultKillswitchThresholds.toJson) (mainRowId :: rosterIds)
        (((Json.obj block).recordAt? "accounts").elim [] Json.members))) := by
    simp [killswitchWithDefaultFloors]
  have defaults : (Json.obj (killswitchWithDefaultFloors block rosterIds)).recordAt? "defaults" =
      some (((Json.obj block).recordAt? "defaults").getD defaultKillswitchThresholds.toJson) := by
    have written : (killswitchWithDefaultFloors block rosterIds).lookup "defaults" = some
        (((Json.obj block).recordAt? "defaults").getD defaultKillswitchThresholds.toJson) := by
      simp [killswitchWithDefaultFloors]
    rw [Json.recordAt?, Json.get?_obj, written, Option.filter_some, if_pos]
    cases h : (Json.obj block).recordAt? "defaults" with
    | none => rfl
    | some own => exact (Option.filter_eq_some_iff.mp h).2
  rw [marked_reads schema, markedFloors_eq accounts defaults, lookup_setEach, given]
  simp only [Option.isSome_none, Bool.or_false, decide_eq_true_eq, Option.or_none]
  by_cases listed : accountId.getD "main" ∈ mainRowId :: rosterIds
  · rw [if_pos listed]
    by_cases proto : accountId.getD "main" ∈ prototypeKeys
    · rw [if_pos proto, if_neg fun h => h.2 proto]
      cases (Json.obj block).recordAt? "defaults" <;> rfl
    · rw [if_neg proto, if_pos ⟨listed, proto⟩]
      exact floorsIn_toJson numbers
  · rw [if_neg listed, if_neg fun h => listed h.1]
    cases (Json.obj block).recordAt? "defaults" <;> rfl

end Block

/-! ## The settings -/

section Settings

variable {settings stored : Settings} {rosterIds otherIds : List String}
  {accountId : Option String}

theorem recordAt?_set (members : Members) (key key' : String) (value : Json) :
    (Json.obj (members.set key value)).recordAt? key' =
      if key' = key then (some value).filter Json.isRecord else (Json.obj members).recordAt? key' := by
  simp only [Json.recordAt?, Json.get?_obj, Members.lookup_set]
  split <;> rfl

theorem recordAt?_erase (members : Members) (key key' : String) :
    (Json.obj (members.erase key)).recordAt? key' =
      if key' = key then none else (Json.obj members).recordAt? key' := by
  simp only [Json.recordAt?, Json.get?_obj]
  split
  · rename_i h
    rw [h, Members.lookup_erase_self]
    rfl
  · rename_i h
    rw [Members.lookup_erase_of_ne h]

/-- Nothing is left to migrate. -/
structure Migrated (settings : Settings) : Prop where
  cacheKeep : (Json.obj settings).recordAt? "cachekeep" = none
  killswitch : ∀ block, (Json.obj settings).recordAt? "killswitch" = some block →
    isMarked block = true

theorem Migrated.migrate (migrated : Migrated settings) (rosterIds : List String) :
    migrateLegacySettings settings rosterIds = (false, settings) := by
  have cacheKeep : migrateCacheKeep settings = (false, settings) := by
    unfold migrateCacheKeep
    rw [migrated.cacheKeep]
  have killswitch : migrateKillswitch settings rosterIds = (false, settings) := by
    unfold migrateKillswitch
    cases h : (Json.obj settings).recordAt? "killswitch" with
    | none => rfl
    | some block => exact if_pos (migrated.killswitch block h)
  simp [migrateLegacySettings, cacheKeep, killswitch]

theorem isMarked_inFloors (block : Members) (rosterIds : List String) :
    isMarked (.obj (killswitchInFloors block rosterIds)) = true := by
  simp [isMarked, killswitchInFloors]

theorem cacheKeep_migrateCacheKeep (settings : Settings) :
    (Json.obj (migrateCacheKeep settings).2).recordAt? "cachekeep" = none := by
  unfold migrateCacheKeep
  split
  · rw [recordAt?_erase, if_pos rfl]
  · assumption

/-- The block is where it was, and as it was. -/
theorem lookup_migrateCacheKeep (settings : Settings) :
    (migrateCacheKeep settings).2.lookup "killswitch" = settings.lookup "killswitch" := by
  unfold migrateCacheKeep
  split
  · rw [Members.lookup_erase_of_ne (by decide), Members.lookup_set_of_ne (by decide)]
  · rfl

theorem migrated_migrate (settings : Settings) (rosterIds : List String) :
    Migrated (migrateLegacySettings settings rosterIds).2 := by
  have cacheKeep := cacheKeep_migrateCacheKeep settings
  unfold migrateLegacySettings migrateKillswitch
  simp only
  split
  · rename_i block h
    split
    · rename_i marked
      refine ⟨cacheKeep, fun other hother => ?_⟩
      cases h.symm.trans hother
      exact marked
    · refine ⟨?_, fun other hother => ?_⟩
      · rw [recordAt?_set, if_neg (by decide)]
        exact cacheKeep
      · rw [recordAt?_set, if_pos rfl] at hother
        cases hother
        exact isMarked_inFloors ..
  · rename_i h
    exact ⟨cacheKeep, fun other hother => by cases h.symm.trans hother⟩

theorem eq_obj_of_recordAt? {key : String} {block : Json}
    (h : (Json.obj settings).recordAt? key = some block) :
    block = .obj block.members ∧ settings.lookup key = some block := by
  obtain ⟨hlookup, hrecord⟩ := Option.filter_eq_some_iff.mp h
  exact ⟨Json.eq_obj_of_isRecord hrecord, hlookup⟩

/-- A block that is not marked is an older one with thresholds that are numbers. -/
def Sound (settings : Settings) : Prop :=
  ∀ block, (Json.obj settings).recordAt? "killswitch" = some block →
    isMarked block = true ∨ Legacy block.members

def JudgedIn (settings : Settings) (accountId : Option String) : Prop :=
  ∀ block, (Json.obj settings).recordAt? "killswitch" = some block → isMarked block = false →
    Judged block.members accountId

theorem floors_migrate (sound : Sound settings) (judged : JudgedIn settings accountId)
    (rosterIds : List String) :
    floorsOf (migrateLegacySettings settings rosterIds).2 accountId =
      floorsOf settings accountId := by
  have moved := lookup_migrateCacheKeep settings
  have record : (Json.obj (migrateCacheKeep settings).2).recordAt? "killswitch" =
      (Json.obj settings).recordAt? "killswitch" := by
    rw [Json.recordAt?, Json.recordAt?, Json.get?_obj, Json.get?_obj, moved]
  unfold floorsOf migrateLegacySettings migrateKillswitch
  simp only
  rw [record]
  cases h : (Json.obj settings).recordAt? "killswitch" with
  | none =>
    simp only
    rw [moved]
  | some block =>
    simp only
    split
    · rw [moved]
    · rename_i unmarked
      have unmarked := Bool.eq_false_iff.mpr unmarked
      obtain ⟨hobj, hlookup⟩ := eq_obj_of_recordAt? h
      have legacy := (sound block h).resolve_left (by rw [unmarked]; simp)
      rw [Members.lookup_set_self, hlookup, legacy.kept rosterIds (judged block h unmarked), ← hobj]

/-! ## Updates -/

/-- The stored settings after these writes. -/
def run (stored : Settings) (updates : List Update) : Settings := updates.foldl updateSettings stored

/-- The mutator leaves the killswitch block as it is handed in. -/
def LeavesBlock (stored : Settings) (update : Update) : Prop :=
  ∀ next, update.mutator (migrateLegacySettings stored update.rosterIds).2 = some next →
    next.lookup "killswitch" =
      (migrateLegacySettings stored update.rosterIds).2.lookup "killswitch"

def Marked (settings : Settings) : Prop :=
  ∀ block, (Json.obj settings).recordAt? "killswitch" = some block → isMarked block = true

theorem withDefaultFloors_of_marked (marked : Marked settings) (rosterIds : List String) :
    withDefaultFloors settings rosterIds = settings := by
  unfold withDefaultFloors
  cases h : (Json.obj settings).recordAt? "killswitch" with
  | none => rfl
  | some block => exact if_pos (marked block h)

theorem marked_withDefaultFloors (settings : Settings) (rosterIds : List String) :
    Marked (withDefaultFloors settings rosterIds) := by
  intro block h
  unfold withDefaultFloors at h
  split at h
  · rename_i created hcreated
    split at h
    · rename_i marked
      cases hcreated.symm.trans h
      exact marked
    · rw [recordAt?_set, if_pos rfl] at h
      cases h
      simp [isMarked, killswitchWithDefaultFloors]
  · rename_i hnone
    cases hnone.symm.trans h

/-- A write that leaves the block leaves every account's floors. -/
theorem floors_update (sound : Sound stored) (judged : JudgedIn stored accountId)
    {update : Update} (leaves : LeavesBlock stored update) :
    floorsOf (updateSettings stored update) accountId = floorsOf stored accountId := by
  unfold updateSettings
  cases hnext : update.mutator (migrateLegacySettings stored update.rosterIds).2 with
  | none => rfl
  | some next =>
    have same := leaves next hnext
    have marked : Marked next := by
      intro block h
      refine (migrated_migrate stored update.rosterIds).killswitch block ?_
      rw [← h, Json.recordAt?, Json.recordAt?, Json.get?_obj, Json.get?_obj, same]
    simp only
    rw [withDefaultFloors_of_marked marked, ← floors_migrate sound judged update.rosterIds,
      floorsOf, floorsOf, same]

/-- Until a write goes through the settings are what they were; then the block is marked. -/
theorem run_marked (stored : Settings) (updates : List Update) :
    run stored updates = stored ∨ Marked (run stored updates) := by
  induction updates generalizing stored with
  | nil => exact .inl rfl
  | cons update rest ih =>
    have step : run stored (update :: rest) = run (updateSettings stored update) rest := rfl
    rw [step]
    rcases ih (updateSettings stored update) with same | marked
    · rw [same]
      unfold updateSettings
      split
      · exact .inr fun block h => marked_withDefaultFloors _ _ block h
      · exact .inl rfl
    · exact .inr marked

theorem run_sound (sound : Sound stored) (judged : JudgedIn stored accountId)
    (updates : List Update) :
    Sound (run stored updates) ∧ JudgedIn (run stored updates) accountId := by
  rcases run_marked stored updates with same | marked
  · rw [same]
    exact ⟨sound, judged⟩
  · refine ⟨fun block h => .inl (marked block h), fun block h unmarked => ?_⟩
    rw [marked block h] at unmarked
    cases unmarked

end Settings

/-- The migration keeps the floors of every account it is judged by and is idempotent;
over every sequence of writes an account's floors stay with a write that leaves the
block; and what a created block does not name has the default floors, or its own
defaults where neither the main account nor the roster has it. -/
theorem floors_kept :
    (∀ (settings : Settings) (rosterIds : List String) (accountId : Option String) (block : Members),
      settings.lookup "killswitch" = some (.obj block) → Legacy block → Judged block accountId →
      floorsOf (migrateLegacySettings settings rosterIds).2 accountId =
        floorsOf settings accountId) ∧
    (∀ (settings : Settings) (rosterIds otherIds : List String),
      migrateLegacySettings (migrateLegacySettings settings rosterIds).2 otherIds =
        (false, (migrateLegacySettings settings rosterIds).2)) ∧
    (∀ (stored : Settings) (updates : List Update) (update : Update) (accountId : Option String),
      Sound stored → JudgedIn stored accountId → LeavesBlock (run stored updates) update →
      floorsOf (updateSettings (run stored updates) update) accountId =
        floorsOf (run stored updates) accountId) ∧
    ∀ (stored : Settings) (update : Update) (next : Settings) (block : Members)
      (accountId : Option String),
      update.mutator (migrateLegacySettings stored update.rosterIds).2 = some next →
      next.lookup "killswitch" = some (.obj block) → isMarked (.obj block) = false →
      (((Json.obj block).recordAt? "accounts").elim [] Json.members).lookup
        (accountId.getD "main") = none →
      floorsOf (updateSettings stored update) accountId =
        if accountId.getD "main" ∈ mainRowId :: update.rosterIds ∧
            accountId.getD "main" ∉ prototypeKeys then
          defaultKillswitchThresholds
        else (((Json.obj block).recordAt? "defaults").map floorsIn).getD
          defaultKillswitchThresholds := by
  have record {settings : Settings} {block : Members}
      (h : settings.lookup "killswitch" = some (.obj block)) :
      (Json.obj settings).recordAt? "killswitch" = some (.obj block) := by
    simp [Json.recordAt?, h]
  refine ⟨?_, ?_, ?_, ?_⟩
  · intro settings rosterIds accountId block hblock legacy judged
    refine floors_migrate ?_ ?_ rosterIds
    · intro other hother
      cases (record hblock).symm.trans hother
      exact .inr legacy
    · intro other hother _
      cases (record hblock).symm.trans hother
      exact judged
  · intro settings rosterIds otherIds
    exact (migrated_migrate settings rosterIds).migrate otherIds
  · intro stored updates update accountId sound judged leaves
    obtain ⟨sound, judged⟩ := run_sound sound judged updates
    exact floors_update sound judged leaves
  · intro stored update next block accountId hnext hblock unmarked given
    have created : withDefaultFloors next update.rosterIds = next.set "killswitch"
        (.obj (killswitchWithDefaultFloors block update.rosterIds)) := by
      unfold withDefaultFloors
      rw [record hblock]
      exact if_neg (Bool.eq_false_iff.mp unmarked)
    unfold updateSettings
    rw [hnext]
    simp only
    rw [created, floorsOf, Members.lookup_set_self, created_floors given]

/-! ## Blocks with every kind of entry -/

def thresholdsOf (primary : ℚ) : Json := .obj [("primary", .num primary)]

/-- An older block that names `main` and `prototype` as accounts too. -/
def olderBlock : Members :=
  [("enabled", .bool true), ("main", thresholdsOf 50),
    ("accounts", .obj [("alpha", .obj [("5h", .num 40)]), ("beta", .null),
      ("main", thresholdsOf 1), ("prototype", thresholdsOf 2)])]

def olderSettings : Settings := [("killswitch", .obj olderBlock)]

theorem isThreshold_get? (entry : Json)
    (h : ∀ key ∈ ["primary", "5h", "secondary", "1w"],
      (entry.get? key).all fun value => value = .null || value.number?.isSome) :
    HasThresholds entry := by
  intro key hkey
  have hvalue := h key hkey
  unfold IsThreshold
  cases hget : entry.get? key with
  | none => exact .inl rfl
  | some value =>
    rw [hget] at hvalue
    cases value with
    | null => exact .inr (.inl rfl)
    | num q => exact .inr (.inr ⟨q, rfl⟩)
    | _ => simp [Json.number?] at hvalue

theorem legacy_olderBlock : Legacy olderBlock where
  unmarked := by decide +kernel
  main main h := by
    cases h
    exact isThreshold_get? _ (by decide +kernel)
  accounts accounts h := by
    cases h
    simp only [List.forall_mem_cons, List.not_mem_nil, false_implies, implies_true, and_true]
    refine ⟨?_, ?_, ?_, ?_⟩ <;> exact isThreshold_get? _ (by decide +kernel)

/-- A row that is in neither the block nor the roster. -/
theorem floors_kept_later :
    floorsOf (migrateLegacySettings olderSettings ["alpha"]).2 (some "later") =
      floorsOf olderSettings (some "later") := by
  refine floors_kept.1 olderSettings ["alpha"] (some "later") olderBlock rfl legacy_olderBlock ?_
  rintro id ⟨⟩
  exact ⟨by decide, fun _ => by decide +kernel⟩

/-- Accounts named `main` and `prototype` are judged otherwise after the rewriting, and a
block created with defaults of its own does not give later rows the default floors. -/
theorem floors_changed :
    Legacy olderBlock ∧
    floorsOf (migrateLegacySettings olderSettings []).2 (some "main") ≠
      floorsOf olderSettings (some "main") ∧
    floorsOf (migrateLegacySettings olderSettings []).2 (some "prototype") ≠
      floorsOf olderSettings (some "prototype") ∧
    floorsOf (updateSettings [] ⟨[], fun _ => some
      [("killswitch", .obj [("enabled", .bool true), ("defaults", thresholdsOf 1)])]⟩)
      (some "later") ≠ defaultKillswitchThresholds :=
  ⟨legacy_olderBlock, by decide +kernel, by decide +kernel, by decide +kernel⟩

end KillswitchFloors
