import OpenaiAuth.Accounts.Processes

/-! # Removed accounts stay removed

The config file is the roster of record. A save of the state file alone reads it
under the state lock, and every writer of the config holds that lock too, so the
roster a save has read is still the one on disk when it writes. From this follows
what happens to the state entries of ids that are not on it, whatever snapshots
the saves were given and wherever a removal stopped.
-/

namespace Accounts

open Js Interleave

/-! ## Entries and ids -/

/-- The entry of an id in the state file. -/
def entryIn (state : Option Json) (id : String) : Option Json := stateEntry (state.getD .null) id

def rosterOf (config : Option Json) : Option (List String) := config.bind collectConfigRosterIds

def OnRoster (config : Option Json) (id : String) : Prop := id ∈ (rosterOf config).getD []

/-- The config has an entry with this id, as it stands or trimmed. -/
def Lists (config : Option Json) (id : String) : Prop :=
  ∃ entry ∈ configEntries (config.getD .null), ∃ s,
    entry.get? "id" = some (.str s) ∧ (s = id ∨ trim s = id)

theorem lists_of_mem_roster {config : Option Json} {ids : List String} {id : String}
    (h : rosterOf config = some ids) (hid : id ∈ ids) : Lists config id := by
  obtain ⟨value, rfl, hvalue⟩ := Option.bind_eq_some_iff.mp h
  obtain ⟨accounts, haccounts, rfl⟩ := collectConfigRosterIds_eq_some.mp hvalue
  rw [List.mem_eraseDups, List.mem_filterMap] at hid
  obtain ⟨entry, hentry, hrosterId⟩ := hid
  obtain ⟨s, hs, -, htrim⟩ := rosterId_eq_some.mp hrosterId
  have hmem : entry ∈ configEntries value := (mem_configEntries haccounts).symm ▸ hentry
  exact ⟨entry, hmem, s, hs, .inr htrim⟩

variable (rt : Runtime)

/-- A config that is written has a roster. -/
theorem rosterOf_config (uuid : ℕ → String) (disk : Disk) (call : StoreCall) :
    (rosterOf (some (call.config rt uuid disk))).isSome = true := by
  have haccounts := get?_nextConfig_accounts (disk.config.getD .null) (call.next rt uuid disk)
    (call.added rt uuid disk)
  rw [rosterOf, Option.bind_some, StoreCall.config, collectConfigRosterIds, haccounts]
  rfl

/-- The state file of a store write has entries for rows of its config only. -/
theorem lists_of_entry_state {uuid : ℕ → String} {disk : Disk} {call : StoreCall} {id : String}
    (h : entryIn (some (call.state rt uuid disk)) id ≠ none) :
    Lists (some (call.config rt uuid disk)) id := by
  have hids : id ∈ (call.next rt uuid disk).accounts.map FallbackAccount.id := by
    by_contra hnot
    apply h
    rw [entryIn, Option.getD_some, StoreCall.state, stateEntry_stateFromStorage]
    exact lookup_accountStates_eq_none.mpr hnot
  obtain ⟨account, haccount, rfl⟩ := List.mem_map.mp hids
  refine ⟨.obj (accountConfig account), ?_, account.id, lookup_accountConfig_id account, .inl rfl⟩
  rw [Option.getD_some, configEntries_config]
  exact List.mem_append_left _ (List.mem_map_of_mem haccount)

/-! ## The state a save of the state alone writes -/

theorem assignMain_map_accounts {main : Json} {entries : List (String × Option Json)}
    {state next : Members} (h : (assignMain main entries).map (state.set "main") = some next) :
    next.lookup "accounts" = state.lookup "accounts" := by
  obtain ⟨value, -, rfl⟩ := Option.map_eq_some_iff.mp h
  have hne : "accounts" ≠ "main" := by decide
  exact Members.lookup_set_of_ne hne _ _

theorem applyMainQuotaStatePatch_accounts {storage : AccountStorage} {state next : Members}
    (h : applyMainQuotaStatePatch rt storage state = some next) :
    next.lookup "accounts" = state.lookup "accounts" := by
  unfold applyMainQuotaStatePatch at h
  simp only at h
  split at h
  · cases h
    have hne : "accounts" ≠ "main" := by decide
    exact Members.lookup_set_of_ne hne _ _
  · exact assignMain_map_accounts h

theorem applyMainRefreshStatePatch_accounts {storage : AccountStorage} {state next : Members}
    (h : applyMainRefreshStatePatch storage state = some next) :
    next.lookup "accounts" = state.lookup "accounts" :=
  assignMain_map_accounts h

/-- The state before the accounts are merged into it has the accounts that were
there. -/
theorem nextState_eq {now : ℚ} {scope : AccountStateSaveScope} {roster : Option (List String)}
    {storage : AccountStorage} {existing next : Json}
    (h : nextState rt now scope roster storage existing = some next) :
    ∃ state : Members, state.lookup "accounts" = existing.get? "accounts" ∧
      next = .obj (scope.accounts.elim state fun accounts =>
        applyAccounts rt now accounts roster storage state) := by
  obtain ⟨patched, hpatched, h⟩ := Option.bind_eq_some_iff.mp h
  obtain ⟨state, hstate, rfl⟩ := Option.map_eq_some_iff.mp h
  have hversion : (existing.members.set "version" (.num 1)).lookup "accounts" =
      existing.get? "accounts" := by
    have hne : "accounts" ≠ "version" := by decide
    rw [Members.lookup_set_of_ne hne, Json.lookup_members]
  have hquota : patched.lookup "accounts" = existing.get? "accounts" := by
    split at hpatched
    · exact (applyMainQuotaStatePatch_accounts rt hpatched).trans hversion
    · cases hpatched
      exact hversion
  refine ⟨state, ?_, rfl⟩
  split at hstate
  · exact (applyMainRefreshStatePatch_accounts hstate).trans hquota
  · cases hstate
    exact hquota

/-- Outside an accounts scope the entries stay. -/
theorem entryIn_nextState {now : ℚ} {scope : AccountStateSaveScope} {roster : Option (List String)}
    {storage : AccountStorage} {existing : Option Json} {next : Json}
    (h : nextState rt now scope roster storage (existing.getD .null) = some next)
    (hscope : scope.accounts = none) (id : String) :
    entryIn (some next) id = entryIn existing id := by
  obtain ⟨state, hstate, rfl⟩ := nextState_eq rt h
  simp only [entryIn, stateEntry, hscope, Option.elim_none, Option.getD_some, Json.get?_obj, hstate]

/-- In an accounts scope there are entries of the roster only. -/
theorem mem_roster_of_entry {now : ℚ} {scope : AccountStateSaveScope} {ids : List String}
    {storage : AccountStorage} {existing next : Json}
    (h : nextState rt now scope (some ids) storage existing = some next)
    (hscope : scope.accounts.isSome) {id : String} (hentry : entryIn (some next) id ≠ none) :
    id ∈ ids := by
  obtain ⟨state, -, rfl⟩ := nextState_eq rt h
  obtain ⟨accounts, haccounts⟩ := Option.isSome_iff_exists.mp hscope
  by_contra hnot
  apply hentry
  simp only [haccounts, Option.elim_some, entryIn, Option.getD_some, stateEntry, applyAccounts,
    Json.get?_obj, Members.lookup_set_self, recordOf_obj, Option.bind_some, pruneOrphans]
  rw [List.lookup_eq_none_iff]
  intro entry hmem
  have hadmits := (List.mem_filter.mp hmem).2
  simp only [admits, Option.all_some, List.contains_iff_mem] at hadmits
  rw [bne_iff_ne]
  rintro rfl
  exact hnot hadmits

/-! ## What the log says -/

/-- The config file as it stood after what is logged. -/
def lastConfig (config : Option Json) : List Logged → Option Json
  | [] => config
  | .configWritten _ value :: _ => some value
  | _ :: older => lastConfig config older

/-- No save of the state alone gave an entry to an id outside the roster. -/
def NoRecreation (config : Option Json) (log : List Logged) : Prop :=
  ∀ t accounts before after older,
    .stateWritten t (.state accounts) before after :: older <:+ log →
      ∀ id, entryIn before id = none → ¬OnRoster (lastConfig config older) id →
        entryIn (some after) id = none

/-- After the config last stopped to list `id` the state was saved with an accounts
scope. -/
def Cleared (config : Option Json) (id : String) : List Logged → Prop
  | [] => False
  | .configWritten _ value :: older => Cleared config id older ∧ ¬Lists (some value) id
  | .stateWritten _ (.state (some _)) _ _ :: older =>
      Cleared config id older ∨ ¬Lists (lastConfig config older) id
  | _ :: older => Cleared config id older

/-- No config written in `log` lists `id`. -/
def NeverListed (id : String) (log : List Logged) : Prop :=
  ∀ t value, .configWritten t value ∈ log → ¬Lists (some value) id

/-- A config without `id` stays the last word on it while none lists it. -/
theorem not_lists_lastConfig {config : Option Json} {id : String} {mid older : List Logged}
    (h : NeverListed id mid) (hbase : ¬Lists (lastConfig config older) id) :
    ¬Lists (lastConfig config (mid ++ older)) id := by
  induction mid with
  | nil => exact hbase
  | cons entry mid ih =>
      have hrest : NeverListed id mid := fun t v hv => h t v (List.mem_cons_of_mem _ hv)
      cases entry with
      | configWritten t v => exact h t v List.mem_cons_self
      | _ => exact ih hrest

/-- Nothing but a config that lists the id undoes its removal. -/
theorem cleared_append {config : Option Json} {id : String} {newer older : List Logged}
    (h : NeverListed id newer) (hcleared : Cleared config id older) :
    Cleared config id (newer ++ older) := by
  induction newer with
  | nil => exact hcleared
  | cons entry newer ih =>
      have hrest := ih fun t v hv => h t v (List.mem_cons_of_mem _ hv)
      cases entry with
      | configWritten t v => exact ⟨hrest, h t v List.mem_cons_self⟩
      | stateWritten t writer before after =>
          rcases writer with _ | _ | _
          · exact hrest
          · exact hrest
          · exact .inl hrest
      | _ => exact hrest

/-! ## What a process knows -/

/-- What a process has seen of the files since it acquired the state lock. -/
structure Knows where
  locked : Bool := false
  config : Option (Option Json) := none
  state : Option (Option Json) := none
  /-- A read of the config failed. -/
  unreadable : Bool := false

def learn (k : Knows) : (o : Call) → o.Ans → Knows
  | .acquire .state => fun acquired : Bool =>
      if acquired then { k with locked := true, config := none, state := none } else k
  | .release .state => fun _ => { k with locked := false, config := none, state := none }
  | .readConfig => fun
      | .ok value => if k.locked then { k with config := some value } else k
      | .error _ => { k with unreadable := true }
  | .readState => fun
      | .ok value => if k.locked then { k with state := some value } else k
      | .error _ => k
  | .writeConfig value => fun
      | .ok _ => { k with config := some (some value) }
      | .error _ => { k with config := none }
  | .writeState _ _ => fun _ => { k with state := none }
  | _ => fun _ => k

def knowledge : Learning calls where
  Known := Knows
  start := {}
  learn := learn
  forget k := { k with locked := false, config := none, state := none }

/-- What a process knows about what it writes. -/
def may (k : Knows) : Call → Prop
  | .writeConfig value => k.locked = true ∧ (rosterOf (some value)).isSome
  | .writeState .store value =>
      ∃ config, k.config = some config ∧ ∀ id, entryIn (some value) id ≠ none → Lists config id
  | .writeState (.state none) value =>
      ∃ before, k.state = some before ∧ ∀ id, entryIn (some value) id = entryIn before id
  | .writeState (.state (some _)) value =>
      k.unreadable = true ∨ ∃ config, k.config = some config ∧
        ∀ ids, rosterOf config = some ids → ∀ id, entryIn (some value) id ≠ none → id ∈ ids
  | _ => True

/-! ## The programs write what they may -/

section Walk

variable {α β : Type} {k : Knows}

/-- The program makes allowed calls only, whatever is known when it starts. -/
def Free (p : StoreOp α) : Prop := ∀ k, knowledge.Returns may k p fun _ _ => True

theorem free_pure (a : α) : Free (pure a : StoreOp α) := fun _ => Learning.returns_pure trivial

theorem free_throw : Free (throw () : StoreOp α) := fun _ => Learning.returns_throw

theorem free_bind {p : StoreOp α} {f : α → StoreOp β} (hp : Free p) (hf : ∀ a, Free (f a)) :
    Free (p >>= f) :=
  fun k => Learning.returns_bind (Learning.returns_mono (hp k) fun a k' _ => hf a k')

theorem free_call {o : Call} {ans : o.Ans → Except Unit α} (hmay : ∀ k, may k o) :
    Free (callThrowing o ans) :=
  fun k => Learning.returns_perform (hmay k) fun _ _ _ => trivial

theorem free_plain {o : Call} (hmay : ∀ k, may k o) : Free (callPlain o) := free_call hmay

theorem free_readConfig : Free readConfig := free_call fun _ => trivial

theorem free_readState : Free readState := free_call fun _ => trivial

theorem free_clock : Free clock := free_plain fun _ => trivial

theorem free_acquire (lock : StoreLock) : Free (acquire lock) := free_plain fun _ => trivial

theorem free_release (lock : StoreLock) : Free (release lock) := free_plain fun _ => trivial

theorem free_load : Free (load rt) := by
  refine free_bind free_readConfig fun config => ?_
  cases config with
  | none => exact free_pure none
  | some config =>
      refine free_bind free_readState fun state => ?_
      exact free_bind (free_plain fun _ => trivial) fun uuid => free_pure _

/-- A body that is allowed is allowed with the release after it. -/
theorem returns_releasing {lock : StoreLock} {body : StoreOp α}
    (h : knowledge.Returns may k body fun _ _ => True) :
    knowledge.Returns may k (releasing lock body) fun _ _ => True := by
  have hattempt : knowledge.Returns may k (Throwing.attempt body) fun _ _ => True :=
    Learning.returns_attempt (Learning.justified_mono h fun _ _ _ => trivial)
  refine Learning.returns_bind (Learning.returns_mono hattempt ?_)
  rintro (_ | a) k' -
  · exact free_bind (free_release lock) (fun _ => free_throw) k'
  · exact free_bind (free_release lock) (fun _ => free_pure a) k'

theorem free_withLock {lock : StoreLock} {body : StoreOp α} (h : Free body) :
    Free (withLock lock body) := by
  refine free_bind (free_acquire lock) fun acquired => ?_
  cases acquired with
  | true => exact fun k => returns_releasing (h k)
  | false => exact free_throw

/-- Under the state lock what the files were seen to hold before counts no more. -/
def Knows.lock (k : Knows) : Knows := { k with locked := true, config := none, state := none }

theorem returns_withStateLock {body : StoreOp α}
    (h : knowledge.Returns may k.lock body fun _ _ => True) :
    knowledge.Returns may k (withLock .state body) fun _ _ => True := by
  refine Learning.returns_bind (Learning.returns_perform trivial ?_)
  rintro (_ | _) acquired hacquired
  · cases hacquired
    exact Learning.returns_throw
  · cases hacquired
    exact returns_releasing h

theorem returns_readConfig {Q : Option Json → Knows → Prop} (hlocked : k.locked = true)
    (h : ∀ config, Q config { k with config := some config }) :
    knowledge.Returns may k readConfig Q := by
  refine Learning.returns_perform trivial ?_
  rintro (_ | config) _ hok
  · cases hok
  · cases hok
    have hlearn : knowledge.learn k .readConfig (.ok config) = { k with config := some config } :=
      if_pos hlocked
    rw [hlearn]
    exact h config

theorem returns_readState {Q : Option Json → Knows → Prop} (hlocked : k.locked = true)
    (h : ∀ state, Q state { k with state := some state }) :
    knowledge.Returns may k readState Q := by
  refine Learning.returns_perform trivial ?_
  rintro (_ | state) _ hok
  · cases hok
  · cases hok
    have hlearn : knowledge.learn k .readState (.ok state) = { k with state := some state } :=
      if_pos hlocked
    rw [hlearn]
    exact h state

theorem returns_clock {Q : ℚ → Knows → Prop} (h : ∀ now, Q now k) :
    knowledge.Returns may k clock Q := by
  refine Learning.returns_perform trivial ?_
  intro now _ hok
  cases hok
  exact h now

theorem returns_newIds {Q : (ℕ → String) → Knows → Prop} (h : ∀ uuid, Q uuid k) :
    knowledge.Returns may k newIds Q := by
  refine Learning.returns_perform trivial ?_
  intro uuid _ hok
  cases hok
  exact h uuid

theorem returns_canWrite {Q : Bool → Knows → Prop} (h : ∀ b, Q b k) :
    knowledge.Returns may k canWrite Q := by
  refine Learning.returns_perform trivial ?_
  intro b _ hok
  cases hok
  exact h b

theorem returns_writeConfig {value : Json} {Q : Unit → Knows → Prop} (hlocked : k.locked = true)
    (hroster : (rosterOf (some value)).isSome) (h : Q () { k with config := some (some value) }) :
    knowledge.Returns may k (writeConfig value) Q := by
  refine Learning.returns_perform ⟨hlocked, hroster⟩ ?_
  rintro (_ | _) _ hok
  · cases hok
  · exact h

theorem returns_writeState {writer : Writer} {value : Json} (hmay : may k (.writeState writer value)) :
    knowledge.Returns may k (writeState writer value) fun _ _ => True :=
  Learning.returns_perform hmay fun _ _ _ => trivial

theorem returns_writeLocked (hlocked : k.locked = true) (call : ℚ → StoreCall) :
    knowledge.Returns may k (writeLocked rt call) fun _ _ => True := by
  refine Learning.returns_bind (returns_readConfig hlocked fun config => ?_)
  refine Learning.returns_bind (returns_readState hlocked fun state => ?_)
  refine Learning.returns_bind (returns_newIds fun uuid => ?_)
  refine Learning.returns_bind (returns_clock fun now => ?_)
  refine Learning.returns_bind (returns_canWrite fun first => ?_)
  cases first with
  | false => exact Learning.returns_pure trivial
  | true =>
      have hroster := rosterOf_config rt uuid { config, state } (call now)
      refine Learning.returns_bind (returns_writeConfig hlocked hroster ?_)
      refine Learning.returns_bind (returns_canWrite fun second => ?_)
      cases second with
      | false => exact Learning.returns_pure trivial
      | true =>
          -- the rows of the state file are those of the config just written
          exact returns_writeState ⟨_, rfl, fun id => lists_of_entry_state rt⟩

theorem free_writeStore (call : ℚ → StoreCall) : Free (writeStore rt call) :=
  free_withLock fun _ => returns_withStateLock (returns_writeLocked rt rfl call)

theorem collectConfigRosterIds_getD (config : Option Json) :
    collectConfigRosterIds (config.getD .null) = rosterOf config := by
  cases config <;> rfl

/-- The roster of a save with an accounts scope is that of a config just seen. -/
structure RosterRead (scope : AccountStateSaveScope) (k : Knows) (roster : Option (List String))
    (k' : Knows) : Prop where
  state : k'.state = k.state
  seen : scope.accounts.isSome →
    k'.unreadable = true ∨ ∃ config, k'.config = some config ∧ roster = rosterOf config

theorem returns_rosterFor (hlocked : k.locked = true) (scope : AccountStateSaveScope) :
    knowledge.Returns may k (rosterFor scope) (RosterRead scope k) := by
  unfold rosterFor
  split
  · refine Learning.returns_bind (Learning.returns_attempt ?_)
    refine ⟨trivial, ?_⟩
    rintro (_ | config)
    · have hread : RosterRead scope k none { k with unreadable := true } :=
        ⟨rfl, fun _ => .inl rfl⟩
      show knowledge.Returns may _ (pure none) (RosterRead scope k)
      exact Learning.returns_pure hread
    · have hread : RosterRead scope k (collectConfigRosterIds (config.getD .null))
          { k with config := some config } :=
        ⟨rfl, fun _ => .inr ⟨config, rfl, collectConfigRosterIds_getD config⟩⟩
      have hlearn : knowledge.learn k .readConfig (.ok config) = { k with config := some config } :=
        if_pos hlocked
      rw [hlearn]
      show knowledge.Returns may _ (pure _) (RosterRead scope k)
      exact Learning.returns_pure hread
  · rename_i hnone
    exact Learning.returns_pure ⟨rfl, fun hsome => absurd hsome hnone⟩

theorem returns_saveLocked (hlocked : k.locked = true) (storage : AccountStorage)
    (scope : AccountStateSaveScope) :
    knowledge.Returns may k (saveLocked rt storage scope) fun _ _ => True := by
  refine Learning.returns_bind (returns_readState hlocked fun existing => ?_)
  have hread := returns_rosterFor (k := { k with state := some existing }) hlocked scope
  refine Learning.returns_bind (Learning.returns_mono hread ?_)
  rintro roster k' ⟨hstate, hroster⟩
  refine Learning.returns_bind (returns_clock fun now => ?_)
  cases hnext : nextState rt now scope roster storage (existing.getD .null) with
  | none => exact Learning.returns_throw
  | some next =>
      refine Learning.returns_bind (returns_canWrite fun allowed => ?_)
      cases allowed with
      | false => exact Learning.returns_pure trivial
      | true =>
          refine returns_writeState ?_
          cases haccounts : scope.accounts with
          | none => exact ⟨existing, hstate, entryIn_nextState rt hnext haccounts⟩
          | some accounts =>
              have hscope : scope.accounts.isSome := by rw [haccounts]; rfl
              rcases hroster hscope with hunreadable | ⟨config, hconfig, rfl⟩
              · exact .inl hunreadable
              · refine .inr ⟨config, hconfig, fun ids hids id hentry => ?_⟩
                rw [hids] at hnext
                exact mem_roster_of_entry rt hnext hscope hentry

theorem free_saveAccountState (storage : AccountStorage) (scope : AccountStateSaveScope) :
    Free (saveAccountState rt storage scope) :=
  fun _ => returns_withStateLock (returns_saveLocked rt rfl storage scope)

theorem free_checkRow (options : RefreshAccountOptions) (latest : Option AccountStorage)
    (row : Option OAuthAccount) : Free (checkRow rt options latest row) := by
  cases row with
  | none => exact free_pure none
  | some row =>
      simp only [checkRow]
      split_ifs
      · exact free_throw
      · exact free_throw
      · exact free_pure none
      · exact free_bind free_clock fun now => free_pure _

theorem free_waitForConcurrentFallbackRefresh (id : String) (storage : AccountStorage)
    (previous : OAuthAccount) (options : RefreshAccountOptions) (polls : ℕ) :
    Free (waitForConcurrentFallbackRefresh rt id storage previous options polls) := by
  induction polls with
  | zero => exact free_pure none
  | succ polls ih =>
      refine free_bind (free_plain fun _ => trivial) fun _ => ?_
      refine free_bind (free_load rt) fun latest => ?_
      cases findOAuth latest id with
      | none => exact ih
      | some row =>
          simp only
          split_ifs
          · exact free_throw
          · refine free_bind free_clock fun now => ?_
            split_ifs
            · exact free_pure _
            · exact free_throw
            · exact ih

theorem free_refreshLocked (id : String) (storage : AccountStorage)
    (options : RefreshAccountOptions) : Free (refreshLocked rt id storage options) := by
  refine free_bind (free_load rt) fun latest => ?_
  cases findOAuth latest id with
  | none => exact free_throw
  | some row =>
      refine free_bind (free_checkRow rt options latest (some row)) fun usable => ?_
      cases usable with
      | some usable => exact free_pure _
      | none =>
          refine free_bind (free_call fun _ => trivial) fun answer => ?_
          refine free_bind (free_saveAccountState rt _ _) fun _ => ?_
          refine free_bind (free_load rt) fun refreshed => ?_
          split_ifs
          · exact free_pure _
          · exact free_throw

theorem free_refreshAccountNow (account : OAuthAccount) (storage : AccountStorage)
    (options : RefreshAccountOptions) : Free (refreshAccountNow rt account storage options) := by
  refine free_bind (free_load rt) fun latest => ?_
  refine free_bind (free_checkRow rt options latest _) fun usable => ?_
  cases usable with
  | some usable => exact free_pure _
  | none =>
      refine free_bind (free_acquire _) fun acquired => ?_
      cases acquired with
      | true => exact fun k => returns_releasing (free_refreshLocked rt account.id storage options k)
      | false =>
          refine free_bind (free_waitForConcurrentFallbackRefresh rt account.id storage _ options _) ?_
          rintro (_ | storage)
          · exact free_throw
          · exact free_pure storage

theorem free_program (process : Process) : Free (process.program rt) := by
  cases process with
  | mutateAccounts mutate allowDrop => exact free_writeStore rt _
  | saveAccounts owns =>
      exact free_bind (free_plain fun _ => trivial) fun storage => free_writeStore rt _
  | saveAccountState scope =>
      exact free_bind (free_plain fun _ => trivial) fun storage =>
        free_saveAccountState rt storage scope
  | refreshAccount account options =>
      refine free_bind (free_plain fun _ => trivial) fun storage => ?_
      exact free_bind (free_refreshAccountNow rt account storage options) fun _ => free_pure ()

/-- Every process writes only what it may. -/
theorem justified_process {p : Prog calls (Except Unit Unit)} (h : IsProcess rt p) :
    knowledge.Justified may knowledge.start p fun _ _ => True := by
  obtain ⟨process, rfl⟩ := h
  exact Learning.justified_mono (free_program rt process _) fun _ _ _ => trivial

end Walk

/-! ## The invariant -/

/-- What process `t` knows is so: nobody else writes the files while it holds the
state lock. -/
structure Fits (w : World) (t : ℕ) (k : Knows) : Prop where
  locked : k.locked = true → w.holder .state = some t
  config : ∀ value, k.config = some value → k.locked = true ∧ w.config = value
  state : ∀ value, k.state = some value → k.locked = true ∧ w.state = value
  readable : k.unreadable = false

/-- What the files and the log have come to. -/
structure Kept (config : Option Json) (w : World) : Prop where
  roster : (rosterOf w.config).isSome
  last : lastConfig config w.log = w.config
  noRecreation : NoRecreation config w.log
  cleared : ∀ id, Cleared config id w.log → ¬Lists w.config id ∧ entryIn w.state id = none

structure Inv (config : Option Json) (w : World) (g : ℕ → Knows) : Prop where
  fits : ∀ t, Fits w t (g t)
  kept : Kept config w

section Step

variable {config : Option Json} {w w' : World} {g : ℕ → Knows} {t : ℕ} {k : Knows}

/-- What the holder of the state lock relies on. -/
structure Spares (t : ℕ) (w w' : World) : Prop where
  holder : ∀ i, i ≠ t → w.holder .state = some i → w'.holder .state = some i
  config : ∀ i, i ≠ t → w.holder .state = some i → w'.config = w.config
  state : ∀ i, i ≠ t → w.holder .state = some i → w'.state = w.state

theorem Fits.of_spares {i : ℕ} (h : Fits w i k) (hi : i ≠ t) (hw : Spares t w w') : Fits w' i k where
  locked hlocked := hw.holder i hi (h.locked hlocked)
  config value hvalue := by
    obtain ⟨hlocked, hconfig⟩ := h.config value hvalue
    exact ⟨hlocked, (hw.config i hi (h.locked hlocked)).trans hconfig⟩
  state value hvalue := by
    obtain ⟨hlocked, hstate⟩ := h.state value hvalue
    exact ⟨hlocked, (hw.state i hi (h.locked hlocked)).trans hstate⟩
  readable := h.readable

theorem Inv.step (h : Inv config w g) (hself : Fits w' t k) (hothers : Spares t w w')
    (hkept : Kept config w') : Inv config w' (Function.update g t k) := by
  refine ⟨fun i => ?_, hkept⟩
  by_cases hi : i = t
  · rw [hi, Function.update_self]
    exact hself
  · rw [Function.update_of_ne hi]
    exact (h.fits i).of_spares hi hothers

theorem Spares.refl : Spares t w w := ⟨fun _ _ h => h, fun _ _ _ => rfl, fun _ _ _ => rfl⟩

/-- A writer of a file holds the state lock, so that no one else does. -/
theorem Spares.of_locked (hlocked : w.holder .state = some t) : Spares t w w' := by
  have hnone : ∀ i, i ≠ t → w.holder .state ≠ some i := by
    intro i hi hheld
    rw [hlocked, Option.some.injEq] at hheld
    exact hi hheld.symm
  exact ⟨fun i hi h => absurd h (hnone i hi), fun i hi h => absurd h (hnone i hi),
    fun i hi h => absurd h (hnone i hi)⟩

/-- A call that changes neither the world nor what is known. -/
theorem Inv.same (h : Inv config w g) : Inv config w (Function.update g t (g t)) := by
  rw [Function.update_eq_self]
  exact h

/-! ### Locks -/

theorem Kept.of_files (h : Kept config w) (hconfig : w'.config = w.config)
    (hstate : w'.state = w.state) (hlog : w'.log = w.log) : Kept config w' := by
  obtain ⟨hroster, hlast, hno, hcleared⟩ := h
  refine ⟨?_, ?_, ?_, ?_⟩
  · rwa [hconfig]
  · rwa [hconfig, hlog]
  · rwa [hlog]
  · rwa [hconfig, hstate, hlog]

theorem Inv.acquire {lock : StoreLock} {r : Bool} {ch : Choice} (h : Inv config w g)
    (hx : exec t (.acquire lock) ch w = some (r, w')) :
    Inv config w' (Function.update g t (learn (g t) (.acquire lock) r)) := by
  rcases exec_acquire hx with ⟨rfl, hfree, rfl⟩ | ⟨rfl, rfl⟩
  · have hkept : Kept config (w.setHolder lock (some t)) := h.kept.of_files rfl rfl rfl
    by_cases hlock : lock = .state
    · subst hlock
      have hself : Fits (w.setHolder .state (some t)) t (g t).lock :=
        ⟨fun _ => w.setHolder_self _ _, by rintro _ ⟨⟩, by rintro _ ⟨⟩, (h.fits t).readable⟩
      refine h.step hself ⟨?_, fun _ _ _ => rfl, fun _ _ _ => rfl⟩ hkept
      -- no one else held a lock that was free
      intro i _ hheld
      rw [hfree] at hheld
      cases hheld
    · have hholder : (w.setHolder lock (some t)).holder .state = w.holder .state :=
        w.setHolder_of_ne _ (Ne.symm hlock)
      have hlearn : learn (g t) (.acquire lock) true = g t := by
        cases lock with
        | state => exact absurd rfl hlock
        | _ => rfl
      rw [hlearn]
      have hself := h.fits t
      refine h.step ⟨?_, hself.config, hself.state, hself.readable⟩
        ⟨fun i _ hi => hholder.trans hi, fun _ _ _ => rfl, fun _ _ _ => rfl⟩ hkept
      exact fun hlocked => hholder.trans (hself.locked hlocked)
  · have hlearn : learn (g t) (.acquire lock) false = g t := by cases lock <;> rfl
    rw [hlearn]
    exact h.same

theorem Inv.release {lock : StoreLock} {r : Unit} {ch : Choice} (h : Inv config w g)
    (hx : exec t (.release lock) ch w = some (r, w')) :
    Inv config w' (Function.update g t (learn (g t) (.release lock) r)) := by
  have hw := exec_release hx
  have hfiles : w'.config = w.config ∧ w'.state = w.state ∧ w'.log = w.log := by
    rw [hw]
    split <;> exact ⟨rfl, rfl, rfl⟩
  have hkept : Kept config w' := h.kept.of_files hfiles.1 hfiles.2.1 hfiles.2.2
  have hspares : Spares t w w' := by
    refine ⟨fun i hi hheld => ?_, fun _ _ _ => hfiles.1, fun _ _ _ => hfiles.2.1⟩
    rw [hw]
    split
    · rename_i hmine
      have hne : StoreLock.state ≠ lock := by
        rintro rfl
        rw [hheld, Option.some.injEq] at hmine
        exact hi hmine
      exact (w.setHolder_of_ne _ hne).trans hheld
    · exact hheld
  have hself := h.fits t
  by_cases hlock : lock = .state
  · subst hlock
    have hfits : Fits w' t { g t with locked := false, config := none, state := none } :=
      ⟨by rintro ⟨⟩, by rintro _ ⟨⟩, by rintro _ ⟨⟩, hself.readable⟩
    exact h.step hfits hspares hkept
  · have hlearn : learn (g t) (.release lock) r = g t := by
      cases lock with
      | state => exact absurd rfl hlock
      | _ => rfl
    have hholder : w'.holder .state = w.holder .state := by
      rw [hw]
      split
      · exact w.setHolder_of_ne _ (Ne.symm hlock)
      · rfl
    rw [hlearn]
    refine h.step ⟨fun hlocked => hholder.trans (hself.locked hlocked), ?_, ?_, hself.readable⟩
      hspares hkept
    · intro value hvalue
      exact ⟨(hself.config value hvalue).1, hfiles.1.trans (hself.config value hvalue).2⟩
    · intro value hvalue
      exact ⟨(hself.state value hvalue).1, hfiles.2.1.trans (hself.state value hvalue).2⟩

/-- The locks of a process that stopped are free, and it knows nothing any more. -/
theorem Inv.halt (h : Inv config w g) :
    Inv config (w.dropLocks t) (Function.update g t (knowledge.forget (g t))) := by
  have hfits : Fits (w.dropLocks t) t (knowledge.forget (g t)) :=
    ⟨by rintro ⟨⟩, by rintro _ ⟨⟩, by rintro _ ⟨⟩, (h.fits t).readable⟩
  refine h.step hfits ⟨fun i hi hheld => ?_, fun _ _ _ => rfl, fun _ _ _ => rfl⟩
    (h.kept.of_files rfl rfl rfl)
  have hne : w.holder .state ≠ some t := by
    rw [hheld]
    simpa using hi
  exact (if_neg hne).trans hheld

/-! ### Reads -/

theorem Inv.readConfig {r : Except Unit (Option Json)} {ch : Choice} (h : Inv config w g)
    (hx : exec t .readConfig ch w = some (r, w')) :
    Inv config w' (Function.update g t (learn (g t) .readConfig r)) := by
  obtain ⟨rfl, rfl⟩ := exec_readConfig hx
  by_cases hlocked : (g t).locked = true
  · have hlearn : learn (g t) .readConfig (.ok w'.config) = { g t with config := some w'.config } :=
      if_pos hlocked
    rw [hlearn]
    have hself := h.fits t
    refine h.step ⟨hself.locked, ?_, hself.state, hself.readable⟩ .refl h.kept
    rintro value ⟨⟩
    exact ⟨hlocked, rfl⟩
  · have hlearn : learn (g t) .readConfig (.ok w'.config) = g t := if_neg hlocked
    rw [hlearn]
    exact h.same

theorem Inv.readState {r : Except Unit (Option Json)} {ch : Choice} (h : Inv config w g)
    (hx : exec t .readState ch w = some (r, w')) :
    Inv config w' (Function.update g t (learn (g t) .readState r)) := by
  obtain ⟨rfl | rfl, rfl⟩ := exec_readState hx
  · by_cases hlocked : (g t).locked = true
    · have hlearn : learn (g t) .readState (.ok w'.state) = { g t with state := some w'.state } :=
        if_pos hlocked
      rw [hlearn]
      have hself := h.fits t
      refine h.step ⟨hself.locked, hself.config, ?_, hself.readable⟩ .refl h.kept
      rintro value ⟨⟩
      exact ⟨hlocked, rfl⟩
    · have hlearn : learn (g t) .readState (.ok w'.state) = g t := if_neg hlocked
      rw [hlearn]
      exact h.same
  · exact h.same

/-- An entry of the log that is no write of a file. -/
def Logged.isWrite : Logged → Bool
  | .configWritten _ _ | .stateWritten _ _ _ _ => true
  | _ => false

theorem Inv.record {entry : Logged} (h : Inv config w g) (hentry : entry.isWrite = false) :
    Inv config (w.record entry) (Function.update g t (g t)) := by
  have hself := h.fits t
  refine h.step ⟨hself.locked, hself.config, hself.state, hself.readable⟩
    ⟨fun _ _ hi => hi, fun _ _ _ => rfl, fun _ _ _ => rfl⟩ ?_
  obtain ⟨hroster, hlast, hno, hcleared⟩ := h.kept
  cases entry with
  | configWritten t value => cases hentry
  | stateWritten t writer before after => cases hentry
  | _ =>
      refine ⟨hroster, hlast, ?_, hcleared⟩
      intro i accounts before after older hsuffix
      rcases List.suffix_cons_iff.mp hsuffix with heq | hsuffix
      · cases heq
      · exact hno i accounts before after older hsuffix

/-! ### Writes -/

theorem Kept.putConfig {value : Json} (h : Kept config w) (hroster : (rosterOf (some value)).isSome) :
    Kept config (w.putConfig t value) := by
  refine ⟨hroster, rfl, ?_, ?_⟩
  · intro i accounts before after older hsuffix
    rcases List.suffix_cons_iff.mp hsuffix with heq | hsuffix
    · cases heq
    · exact h.noRecreation i accounts before after older hsuffix
  · rintro id ⟨hcleared, hnot⟩
    exact ⟨hnot, (h.cleared id hcleared).2⟩

theorem Inv.writeConfig {value : Json} {r : Except Unit Unit} {ch : Choice} (h : Inv config w g)
    (hmay : may (g t) (.writeConfig value))
    (hx : exec t (.writeConfig value) ch w = some (r, w')) :
    Inv config w' (Function.update g t (learn (g t) (.writeConfig value) r)) := by
  obtain ⟨hlocked, hroster⟩ := hmay
  have hself := h.fits t
  have hheld := hself.locked hlocked
  rcases exec_writeConfig hx with rfl | ⟨rfl, rfl⟩
  · have hkept : Kept config (w.putConfig t value) := h.kept.putConfig hroster
    cases r with
    | ok _ =>
        refine h.step ⟨hself.locked, ?_, hself.state, hself.readable⟩ (.of_locked hheld) hkept
        rintro config ⟨⟩
        exact ⟨hlocked, rfl⟩
    | error _ =>
        refine h.step ⟨hself.locked, ?_, hself.state, hself.readable⟩ (.of_locked hheld) hkept
        rintro config ⟨⟩
  · refine h.step ⟨hself.locked, ?_, hself.state, hself.readable⟩ .refl h.kept
    rintro config ⟨⟩

/-- A state file is written whose entries the config lists, or as the roster has
them, or as they were. -/
theorem Kept.putState {writer : Writer} {value : Json} (h : Kept config w) (hfits : Fits w t k)
    (hmay : may k (.writeState writer value)) : Kept config (w.putState t writer value) := by
  obtain ⟨hroster, hlast, hno, hcleared⟩ := h
  obtain ⟨ids, hids⟩ := Option.isSome_iff_exists.mp hroster
  rcases writer with _ | _ | accounts
  · obtain ⟨seen, hseen, hlists⟩ := hmay
    have hconfig := (hfits.config seen hseen).2
    refine ⟨hroster, hlast, ?_, ?_⟩
    · intro i scope before after older hsuffix
      rcases List.suffix_cons_iff.mp hsuffix with heq | hsuffix
      · cases heq
      · exact hno i scope before after older hsuffix
    · intro id hid
      have hnot := (hcleared id hid).1
      refine ⟨hnot, ?_⟩
      by_contra hentry
      exact hnot (hconfig ▸ hlists id hentry)
  · obtain ⟨before, hbefore, hsame⟩ := hmay
    have hstate := (hfits.state before hbefore).2
    refine ⟨hroster, hlast, ?_, ?_⟩
    · intro i scope old after older hsuffix
      rcases List.suffix_cons_iff.mp hsuffix with heq | hsuffix
      · cases heq
        intro id hnone _
        exact (hsame id).trans (hstate ▸ hnone)
      · exact hno i scope old after older hsuffix
    · intro id hid
      exact ⟨(hcleared id hid).1, (hsame id).trans (hstate ▸ (hcleared id hid).2)⟩
  · -- the roster the save has read is that of the config on disk
    have hentries : ∀ id, entryIn (some value) id ≠ none → id ∈ ids := by
      rcases hmay with hunreadable | ⟨seen, hseen, hlisted⟩
      · rw [hfits.readable] at hunreadable
        cases hunreadable
      · exact hlisted ids ((hfits.config seen hseen).2 ▸ hids)
    refine ⟨hroster, hlast, ?_, ?_⟩
    · intro i scope before after older hsuffix
      rcases List.suffix_cons_iff.mp hsuffix with heq | hsuffix
      · cases heq
        intro id _ hoff
        by_contra hentry
        apply hoff
        rw [OnRoster, hlast, hids]
        exact hentries id hentry
      · exact hno i scope before after older hsuffix
    · intro id hid
      have hnot : ¬Lists w.config id := by
        rcases hid with hid | hnot
        · exact (hcleared id hid).1
        · exact hlast ▸ hnot
      refine ⟨hnot, ?_⟩
      by_contra hentry
      exact hnot (lists_of_mem_roster hids (hentries id hentry))

/-- Who may write the state file holds its lock. -/
theorem Fits.locked_of_may {writer : Writer} {value : Json} (h : Fits w t k)
    (hmay : may k (.writeState writer value)) : k.locked = true := by
  rcases writer with _ | _ | accounts
  · obtain ⟨seen, hseen, -⟩ := hmay
    exact (h.config seen hseen).1
  · obtain ⟨before, hbefore, -⟩ := hmay
    exact (h.state before hbefore).1
  · rcases hmay with hunreadable | ⟨seen, hseen, -⟩
    · rw [h.readable] at hunreadable
      cases hunreadable
    · exact (h.config seen hseen).1

theorem Inv.writeState {writer : Writer} {value : Json} {r : Except Unit Unit} {ch : Choice}
    (h : Inv config w g)
    (hmay : may (g t) (.writeState writer value))
    (hx : exec t (.writeState writer value) ch w = some (r, w')) :
    Inv config w' (Function.update g t (learn (g t) (.writeState writer value) r)) := by
  have hself := h.fits t
  rcases exec_writeState hx with rfl | ⟨rfl, rfl⟩
  · refine h.step ⟨hself.locked, hself.config, ?_, hself.readable⟩
      (.of_locked (hself.locked (hself.locked_of_may hmay))) (h.kept.putState hself hmay)
    rintro state ⟨⟩
  · refine h.step ⟨hself.locked, hself.config, ?_, hself.readable⟩ .refl h.kept
    rintro state ⟨⟩

theorem Inv.call {o : Call} {r : o.Ans} {ch : Choice} (h : Inv config w g) (hmay : may (g t) o)
    (hx : exec t o ch w = some (r, w')) : Inv config w' (Function.update g t (learn (g t) o r)) := by
  cases o with
  | acquire lock => exact h.acquire hx
  | release lock => exact h.release hx
  | readConfig => exact h.readConfig hx
  | readState => exact h.readState hx
  | writeConfig value => exact h.writeConfig hmay hx
  | writeState writer value => exact h.writeState hmay hx
  | canWrite =>
      rw [exec_canWrite hx]
      exact h.same
  | clock =>
      rw [exec_clock hx]
      exact h.same
  | newIds =>
      rw [exec_newIds hx]
      exact h.same
  | sleep =>
      rw [exec_sleep hx]
      exact h.same
  | snapshot purpose =>
      rw [exec_snapshot hx]
      exact h.record rfl
  | provider id token =>
      rcases exec_provider hx with ⟨answer, rfl, rfl⟩ | ⟨rfl, rfl⟩
      · exact h.record rfl
      · exact h.same

end Step

def rosterAssertion (config : Option Json) : Assertion machine knowledge may where
  inv := Inv config
  thread := fun _ => True
  okMove := fun _ _ => True
  call h _ hmay hx := h.call hmay hx
  move := fun {m} => nomatch m
  halt h := h.halt

/-- Every reachable world, from files whose config can be read. -/
theorem kept_of_reaches {config state : Option Json} {w : World}
    (hreadable : (rosterOf config).isSome) (h : Reaches rt (World.initial config state) w) :
    Kept config w := by
  obtain ⟨c, hruns, rfl⟩ := h
  have hinitial : Inv config (World.initial config state) fun _ => knowledge.start := by
    refine ⟨fun t => ⟨by rintro ⟨⟩, by rintro _ ⟨⟩, by rintro _ ⟨⟩, rfl⟩, hreadable, rfl, ?_, ?_⟩
    · intro t accounts before after older hsuffix
      exact absurd (List.suffix_nil.mp hsuffix) (List.cons_ne_nil _ _)
    · rintro id ⟨⟩
  obtain ⟨g, hinv⟩ := (rosterAssertion config).inv_of_runsTo (fun p hp => justified_process rt hp)
    (fun _ => trivial) (fun _ _ => trivial) hinitial hruns
  exact hinv.kept

/-! ## Removed accounts -/

/-- A save of the state alone gives no entry to an id that is off the roster, and
one with an accounts scope after a config without the id leaves none for it until
a config lists it again. -/
theorem removedStaysRemoved {config state : Option Json} {w : World}
    (hreadable : (rosterOf config).isSome) (h : Reaches rt (World.initial config state) w) :
    (∀ t accounts before after older,
      .stateWritten t (.state accounts) before after :: older <:+ w.log →
        ∀ id, entryIn before id = none → ¬OnRoster (lastConfig config older) id →
          entryIn (some after) id = none) ∧
    ∀ newer t accounts before after mid t' value older id,
      w.log = newer ++ .stateWritten t (.state (some accounts)) before after ::
        (mid ++ .configWritten t' value :: older) →
      ¬Lists (some value) id → NeverListed id mid → NeverListed id newer →
        entryIn w.state id = none := by
  have hkept := kept_of_reaches rt hreadable h
  refine ⟨hkept.noRecreation, ?_⟩
  intro newer t accounts before after mid t' value older id hlog hremoved hmid hnewer
  have hsaved : Cleared config id (.stateWritten t (.state (some accounts)) before after ::
      (mid ++ .configWritten t' value :: older)) :=
    .inr (not_lists_lastConfig hmid hremoved)
  have hcleared : Cleared config id w.log := hlog ▸ cleared_append hnewer hsaved
  exact (hkept.cleared id hcleared).2

/-- A process dies after it removed the row from the config, and a snapshot that
still has the row is saved. -/
theorem removedStaysRemoved_cut :
    entryIn storedDisk.state "a" ≠ none ∧
      ∃ w, Reaches plainRuntime (World.initial storedDisk.config storedDisk.state) w ∧
        entryIn w.state "a" = none := by
  refine ⟨by decide +kernel, ?_⟩
  let remove : AccountStorage → MutateAccountsContext → AccountStorage :=
    fun storage _ => { storage with accounts := [] }
  let value := (StoreCall.mutateAccounts remove []).config plainRuntime newId storedDisk
  let stale := (loadAccounts plainRuntime newId storedDisk).getD emptyAccountStorage
  have hnext : (nextState plainRuntime 0 { accounts := some .all } (collectConfigRosterIds value)
      stale (storedDisk.state.getD .null)).isSome := by
    decide +kernel
  obtain ⟨next, hnext⟩ := Option.isSome_iff_exists.mp hnext
  have hstart : Reaches plainRuntime (World.initial storedDisk.config storedDisk.state)
      (World.quiet storedDisk.config storedDisk.state []) :=
    ⟨_, .refl, rfl⟩
  obtain ⟨t, hremoved⟩ := reaches_mutation_cut hstart remove [] newId 0
  obtain ⟨t', hsaved⟩ := reaches_save hremoved stale .all 0 hnext
  have hentries : configEntries value = [] := by decide +kernel
  have hnot : ¬Lists (some value) "a" := by
    rintro ⟨entry, hentry, -⟩
    rw [Option.getD_some, hentries] at hentry
    cases hentry
  refine ⟨_, hsaved, ?_⟩
  refine (removedStaysRemoved plainRuntime (by decide +kernel) hsaved).2
    [] t' .all storedDisk.state next [_] t value [] "a" rfl hnot ?_ ?_
  · intro i v hv
    simp at hv
  · intro i v hv
    cases hv

end Accounts
