import Mathlib.Data.List.Basic
import OpenaiAuth.Sidebar.State

/-! # Whose quota the sidebar shows

`setSidebarMachineState` in local mode: a write of the same account merges the
quota slot by slot, any other write picks one whole snapshot, and the identity
follows the side that was picked.

Main results, for every list of writes:

* `attested_merge`: merging keeps what the snapshots attest;
* `machine_identity`: each record of a stored quota was written by a snapshot
  that asserted the identity stored beside it.
-/

namespace Sidebar.Quota

/-! ## Freshness -/

/-- The freshest stamp a snapshot carries. -/
def latestQuotaCheckedAt (quota : Option AccountQuota) : Option ℚ :=
  [quota.bind (·.primary) |>.bind (·.checkedAt), quota.bind (·.secondary) |>.bind (·.checkedAt),
    quota.bind (·.checkedAt)].foldl
    (fun latest checkedAt =>
      match checkedAt with
      | none => latest
      | some stamp => some (latest.elim stamp (max · stamp)))
    none

/-- `existingAt !== undefined && (incomingAt === undefined || existingAt > incomingAt)` -/
def existingIsFresher (incomingAt existingAt : Option ℚ) : Bool :=
  existingAt.any fun existing => incomingAt.all (· < existing)

inductive Side where
  | incoming
  | existing
deriving DecidableEq, Repr

def freshestSide (incoming existing : Option AccountQuota) : Side :=
  if existingIsFresher (latestQuotaCheckedAt incoming) (latestQuotaCheckedAt existing) then .existing
  else .incoming

def freshestQuota (incoming existing : Option AccountQuota) : Option AccountQuota :=
  match freshestSide incoming existing with
  | .existing => existing
  | .incoming => incoming

def sameAccountIdentity (incoming existing : Option String) : Bool :=
  incoming.isSome && existing.isSome && incoming = existing

/-! ## Merging slot by slot -/

def finiteWindowCheckedAt (window : Option QuotaWindow) (fallback : Option ℚ := none) : Option ℚ :=
  (window.bind (·.checkedAt)).or fallback

def freshestWindow (incoming existing : Option QuotaWindow) (existingSnapshotIsFresher : Bool)
    (incomingSnapshotCheckedAt existingSnapshotCheckedAt : Option ℚ) : Option QuotaWindow :=
  if incoming.isSome && existing.isSome then
    if existingIsFresher (finiteWindowCheckedAt incoming incomingSnapshotCheckedAt)
        (finiteWindowCheckedAt existing existingSnapshotCheckedAt) then existing
    else incoming
  else if existingSnapshotIsFresher then existing
  else incoming

def mergeSpendControl (fresher older : AccountQuota) : Option SpendControlReading :=
  if fresher.spendControl.isSome then fresher.spendControl
  else if fresher.spendControlCleared then none
  else older.spendControl

/-- An untimed record loses to a timed one. -/
def fresherCredits (incoming existing : Option AccountCredits) : Option AccountCredits :=
  match incoming, existing with
  | some i, some e => if existingIsFresher i.checkedAt e.checkedAt then some e else some i
  | some i, none => some i
  | none, e => e

def mergeQuotaByWindow (incoming existing : Option AccountQuota) : Option AccountQuota :=
  match incoming, existing with
  | none, existing => existing
  | some i, none => some i
  | some i, some e =>
      let existingSnapshotIsFresher :=
        existingIsFresher (latestQuotaCheckedAt (some i)) (latestQuotaCheckedAt (some e))
      let primary :=
        freshestWindow i.primary e.primary existingSnapshotIsFresher i.checkedAt e.checkedAt
      let secondary :=
        freshestWindow i.secondary e.secondary existingSnapshotIsFresher i.checkedAt e.checkedAt
      let spendControl :=
        if existingSnapshotIsFresher then mergeSpendControl e i else mergeSpendControl i e
      let spendControlCleared :=
        spendControl.isNone && (i.spendControlCleared || e.spendControlCleared)
      let checkedAt :=
        match finiteWindowCheckedAt primary, finiteWindowCheckedAt secondary with
        | some p, some s => some (max p s)
        | some p, none => some p
        | none, s => s
      some
        { i with
          primary, secondary, spendControl, spendControlCleared
          credits := fresherCredits i.credits e.credits
          checkedAt := checkedAt.or i.checkedAt }

/-! ## A reading and its identity -/

/-- A quota, and the identity asserted beside it. -/
structure Reading where
  identity : Option String
  quota : Option AccountQuota
deriving DecidableEq, Repr

/-- What is stored for an account. The file has just been read, so its quota is
another object than the incoming one, and comparing them by reference says
which side was picked. -/
def mergeReading (incoming existing : Reading) : Reading :=
  if sameAccountIdentity incoming.identity existing.identity then
    { identity := incoming.identity
      quota := mergeQuotaByWindow incoming.quota existing.quota }
  else
    { identity :=
        match freshestSide incoming.quota existing.quota with
        | .existing => existing.identity
        | .incoming => incoming.identity
      quota := freshestQuota incoming.quota existing.quota }

/-! ## The write -/

structure SidebarMachineState where
  main : MainState
  fallbacks : List SidebarAccountState
  route : String
  accountPool : Bool := false
  vaultAccounts : Option (List SidebarAccountState) := none
  vaultDiscovered : Option Bool := none
deriving DecidableEq, Repr

structure Write where
  machineState : SidebarMachineState
  hooks : SidebarMergeHooks := {}
  now : ℚ
deriving DecidableEq, Repr

def accountReading (account : SidebarAccountState) : Reading where
  identity := account.accountId
  quota := account.quota

def usableRoutingAccountIds (accounts : List SidebarAccountState) : List String :=
  "main" :: (accounts.filter fun account => account.enabled && !account.killed).map (·.id)

/-- The accounts a routing entry or a pin may name. -/
def routingAccountsOf (machineState : SidebarMachineState) : List SidebarAccountState :=
  machineState.fallbacks ++ machineState.vaultAccounts.getD []

def mergeMain (incoming latest : MainState) : MainState :=
  let merged := mergeReading ⟨incoming.mainAccountId, incoming.quota⟩
    ⟨latest.mainAccountId, latest.quota⟩
  { incoming with quota := merged.quota, mainAccountId := merged.identity }

/-- `latestFallbacks.get(id)`: of two entries with one id the later is found. -/
def latestFallback (fallbacks : List SidebarAccountState) (id : String) :
    Option SidebarAccountState :=
  fallbacks.reverse.find? fun account => account.id = id

def mergeFallback (latest : List SidebarAccountState) (account : SidebarAccountState) :
    SidebarAccountState :=
  let existing := (latestFallback latest account.id).elim ⟨none, none⟩ accountReading
  let merged := mergeReading (accountReading account) existing
  { account with quota := merged.quota, accountId := merged.identity }

/-- The merge of `setSidebarMachineState`. -/
def machineMerge (write : Write) (latest : SidebarState) : Option SidebarState :=
  let machineState := write.machineState
  let vaultMode := machineState.vaultAccounts.isSome
  some
    { latest with
      main := if vaultMode then machineState.main else mergeMain machineState.main latest.main
      fallbacks :=
        if vaultMode then machineState.fallbacks
        else machineState.fallbacks.map (mergeFallback latest.fallbacks)
      route := machineState.route
      stickyAssignments := pruneStickyAssignments latest.stickyAssignments
        (if vaultMode then none
          else some (usableRoutingAccountIds (routingAccountsOf machineState))) write.now
      lastUpdated := max write.now (latest.lastUpdated + 1)
      accountPool := machineState.accountPool
      vaultAccounts := machineState.vaultAccounts
      vaultDiscovered := machineState.vaultDiscovered }

def setSidebarMachineState (write : Write) (file : SidebarState) : SidebarState :=
  writeMergedSidebarState write.hooks (machineMerge write) file

def run (file : SidebarState) : List Write → SidebarState
  | [] => file
  | write :: rest => run (setSidebarMachineState write file) rest

/-! ## What was asserted -/

/-- The readings of the main account written so far; those the file held at the
start count as written before. -/
def mainReadings (file : SidebarState) (writes : List Write) : List Reading :=
  ⟨file.main.mainAccountId, file.main.quota⟩ ::
    (writes.filter (·.hooks.canWrite)).map fun write =>
      ⟨write.machineState.main.mainAccountId, write.machineState.main.quota⟩

/-- The readings written so far under one fallback's id. -/
def fallbackReadings (id : String) (file : SidebarState) (writes : List Write) : List Reading :=
  ((file.fallbacks ++
    (writes.filter (·.hooks.canWrite)).flatMap fun write => write.machineState.fallbacks).filter
      fun account => account.id = id).map accountReading

/-- Each record of `quota` comes from one of `quotas`, in the same place. -/
structure Traced (quotas : Set AccountQuota) (quota : AccountQuota) : Prop where
  primary : ∀ w, quota.primary = some w → ∃ q ∈ quotas, q.primary = some w
  secondary : ∀ w, quota.secondary = some w → ∃ q ∈ quotas, q.secondary = some w
  spendControl : ∀ s, quota.spendControl = some s → ∃ q ∈ quotas, q.spendControl = some s
  credits : ∀ c, quota.credits = some c → ∃ q ∈ quotas, q.credits = some c

/-- The records of a stored quota were asserted for exactly the stored identity,
and under an unknown identity nothing was merged. -/
structure Attested (readings : List Reading) (stored : Reading) : Prop where
  traced : ∀ q, stored.quota = some q →
    Traced {asserted | ⟨stored.identity, some asserted⟩ ∈ readings} q
  whole : stored.identity = none → ∀ q, stored.quota = some q → ⟨none, some q⟩ ∈ readings

/-! ## Merging keeps what is attested -/

theorem Traced.self {quotas : Set AccountQuota} {quota : AccountQuota} (h : quota ∈ quotas) :
    Traced quotas quota :=
  ⟨fun _ hw => ⟨quota, h, hw⟩, fun _ hw => ⟨quota, h, hw⟩, fun _ hs => ⟨quota, h, hs⟩,
    fun _ hc => ⟨quota, h, hc⟩⟩

theorem freshestWindow_or (incoming existing : Option QuotaWindow) (fresher : Bool)
    (incomingAt existingAt : Option ℚ) :
    freshestWindow incoming existing fresher incomingAt existingAt = incoming ∨
      freshestWindow incoming existing fresher incomingAt existingAt = existing := by
  unfold freshestWindow
  split
  · split
    · exact Or.inr rfl
    · exact Or.inl rfl
  · split
    · exact Or.inr rfl
    · exact Or.inl rfl

theorem mergeSpendControl_or (fresher older : AccountQuota) {reading : SpendControlReading}
    (h : mergeSpendControl fresher older = some reading) :
    fresher.spendControl = some reading ∨ older.spendControl = some reading := by
  unfold mergeSpendControl at h
  split at h
  · exact Or.inl h
  · split at h
    · cases h
    · exact Or.inr h

theorem fresherCredits_or (incoming existing : Option AccountCredits) :
    fresherCredits incoming existing = incoming ∨ fresherCredits incoming existing = existing := by
  unfold fresherCredits
  split
  · split
    · exact Or.inr rfl
    · exact Or.inl rfl
  · exact Or.inl rfl
  · exact Or.inr rfl

/-- A merge of two traced quotas is traced: each slot is one side's. -/
theorem Traced.merge {quotas : Set AccountQuota} {incoming existing : Option AccountQuota}
    (hi : ∀ q, incoming = some q → Traced quotas q)
    (he : ∀ q, existing = some q → Traced quotas q) {merged : AccountQuota}
    (hm : mergeQuotaByWindow incoming existing = some merged) : Traced quotas merged := by
  cases incoming with
  | none => exact he merged hm
  | some i =>
      cases existing with
      | none => exact hi merged hm
      | some e =>
          have hti := hi i rfl
          have hte := he e rfl
          simp only [mergeQuotaByWindow, Option.some.injEq] at hm
          rw [← hm]
          constructor
          · intro w hw
            simp only at hw
            rcases freshestWindow_or i.primary e.primary _ _ _ with hside | hside
            · exact hti.primary w (hside.symm.trans hw)
            · exact hte.primary w (hside.symm.trans hw)
          · intro w hw
            simp only at hw
            rcases freshestWindow_or i.secondary e.secondary _ _ _ with hside | hside
            · exact hti.secondary w (hside.symm.trans hw)
            · exact hte.secondary w (hside.symm.trans hw)
          · intro s hs
            simp only at hs
            split at hs
            · rcases mergeSpendControl_or e i hs with hside | hside
              · exact hte.spendControl s hside
              · exact hti.spendControl s hside
            · rcases mergeSpendControl_or i e hs with hside | hside
              · exact hti.spendControl s hside
              · exact hte.spendControl s hside
          · intro c hc
            simp only at hc
            rcases fresherCredits_or i.credits e.credits with hside | hside
            · exact hti.credits c (hside.symm.trans hc)
            · exact hte.credits c (hside.symm.trans hc)

section

variable {readings : List Reading} {incoming existing : Reading}

theorem Attested.of_mem (h : incoming ∈ readings) : Attested readings incoming := by
  constructor
  · intro q hq
    apply Traced.self
    change ⟨incoming.identity, some q⟩ ∈ readings
    rw [← hq]
    exact h
  · intro hid q hq
    rw [← hid, ← hq]
    exact h

theorem Attested.of_none {identity : Option String} : Attested readings ⟨identity, none⟩ := by
  constructor
  · intro q hq
    cases hq
  · intro _ q hq
    cases hq

/-- A merge happens under one known identity; a pick takes the identity along. -/
theorem attested_merge (hi : Attested readings incoming) (he : Attested readings existing) :
    Attested readings (mergeReading incoming existing) := by
  unfold mergeReading
  by_cases hsame : sameAccountIdentity incoming.identity existing.identity = true
  · -- both sides assert the same known account
    rw [if_pos hsame]
    have hknown : incoming.identity.isSome = true ∧ incoming.identity = existing.identity := by
      simp only [sameAccountIdentity, Bool.and_eq_true, decide_eq_true_eq] at hsame
      exact ⟨hsame.1.1, hsame.2⟩
    constructor
    · intro q hq
      refine Traced.merge ?_ ?_ hq
      · exact hi.traced
      · intro e heq
        rw [hknown.2]
        exact he.traced e heq
    · intro hid
      simp only at hid
      rw [hid] at hknown
      cases hknown.1
  · rw [if_neg hsame]
    unfold freshestQuota
    split
    · exact he
    · exact hi

end

/-! ## Runs -/

section

variable {file : SidebarState} {writes : List Write}

/-- What the readings attest about the stored accounts. -/
structure Inv (mains : List Reading) (fallbacks : String → List Reading)
    (state : SidebarState) : Prop where
  main : Attested mains ⟨state.main.mainAccountId, state.main.quota⟩
  fallback : ∀ account ∈ state.fallbacks, Attested (fallbacks account.id) (accountReading account)

variable {mains : List Reading} {fallbacks : String → List Reading} {write : Write}

theorem accounts_merged (hcan : write.hooks.canWrite = true)
    (hlocal : write.machineState.vaultAccounts = none) :
    (setSidebarMachineState write file).main = mergeMain write.machineState.main file.main ∧
      (setSidebarMachineState write file).fallbacks =
        write.machineState.fallbacks.map (mergeFallback file.fallbacks) := by
  have hmerge : machineMerge write (normalizeSidebarState file) = some _ := rfl
  have hwritten := accounts_written hcan hmerge
  simpa [setSidebarMachineState, hlocal, normalizeSidebarState] using hwritten

theorem Inv.step (h : Inv mains fallbacks file)
    (hlocal : write.machineState.vaultAccounts = none)
    (hmain : write.hooks.canWrite = true →
      ⟨write.machineState.main.mainAccountId, write.machineState.main.quota⟩ ∈ mains)
    (hfallback : write.hooks.canWrite = true →
      ∀ account ∈ write.machineState.fallbacks, (accountReading account) ∈ fallbacks account.id) :
    Inv mains fallbacks (setSidebarMachineState write file) := by
  by_cases hcan : write.hooks.canWrite = true
  · have hmerged := @accounts_merged file write hcan hlocal
    rcases hmerged with ⟨hm, hf⟩
    constructor
    · rw [hm]
      exact attested_merge (.of_mem (hmain hcan)) h.main
    · intro stored hstored
      rw [hf] at hstored
      rcases List.mem_map.mp hstored with ⟨account, hmem, heq⟩
      have hid : stored.id = account.id := by rw [← heq]; rfl
      have hreading : accountReading stored = mergeReading (accountReading account)
          ((latestFallback file.fallbacks account.id).elim ⟨none, none⟩
            accountReading) := by
        rw [← heq]
        rfl
      rw [hid, hreading]
      apply attested_merge (.of_mem (hfallback hcan account hmem))
      cases hlatest : latestFallback file.fallbacks account.id with
      | none => exact .of_none
      | some existing =>
          have hexisting : existing ∈ file.fallbacks :=
            List.mem_reverse.mp (List.mem_of_find?_eq_some hlatest)
          have hsameId : existing.id = account.id := by
            simpa using List.find?_some hlatest
          rw [← hsameId]
          exact h.fallback existing hexisting
  · have hrefused : setSidebarMachineState write file = file := by
      unfold setSidebarMachineState writeMergedSidebarState
      rw [if_pos hcan]
    rw [hrefused]
    exact h

theorem Inv.run (h : Inv mains fallbacks file)
    (hlocal : ∀ write ∈ writes, write.machineState.vaultAccounts = none)
    (hmain : ∀ write ∈ writes, write.hooks.canWrite = true →
      ⟨write.machineState.main.mainAccountId, write.machineState.main.quota⟩ ∈ mains)
    (hfallback : ∀ write ∈ writes, write.hooks.canWrite = true →
      ∀ account ∈ write.machineState.fallbacks, (accountReading account) ∈ fallbacks account.id) :
    Inv mains fallbacks (Quota.run file writes) := by
  induction writes generalizing file with
  | nil => exact h
  | cons write rest ih =>
      have hrest : ∀ {w : Write}, w ∈ rest → w ∈ write :: rest := List.mem_cons_of_mem write
      apply ih
      · exact h.step (hlocal write List.mem_cons_self) (hmain write List.mem_cons_self)
          (hfallback write List.mem_cons_self)
      · exact fun w hw => hlocal w (hrest hw)
      · exact fun w hw => hmain w (hrest hw)
      · exact fun w hw => hfallback w (hrest hw)

end

/-- After any list of local writes, whatever the identities: each record of the
stored main quota, and of each stored fallback's, was asserted for exactly the
identity stored beside it, and under an unknown one nothing was merged. -/
theorem machine_identity (file : SidebarState) (writes : List Write)
    (hlocal : ∀ write ∈ writes, write.machineState.vaultAccounts = none) :
    Attested (mainReadings file writes)
        ⟨(run file writes).main.mainAccountId, (run file writes).main.quota⟩ ∧
      ∀ account ∈ (run file writes).fallbacks,
        Attested (fallbackReadings account.id file writes) (accountReading account) := by
  have hstart : Inv (mainReadings file writes) (fallbackReadings · file writes) file := by
    constructor
    · exact .of_mem List.mem_cons_self
    · intro account hmem
      apply Attested.of_mem
      apply List.mem_map_of_mem
      exact List.mem_filter.mpr ⟨List.mem_append_left _ hmem, by simp⟩
  have hend := hstart.run hlocal ?_ ?_
  · exact ⟨hend.main, hend.fallback⟩
  · intro write hmem hcan
    apply List.mem_cons_of_mem
    exact List.mem_map_of_mem (f := fun write : Write =>
      (⟨write.machineState.main.mainAccountId, write.machineState.main.quota⟩ : Reading))
      (List.mem_filter.mpr ⟨hmem, hcan⟩)
  · intro write hmem hcan account haccount
    apply List.mem_map_of_mem
    have hin : account ∈ (writes.filter (·.hooks.canWrite)).flatMap
        fun write => write.machineState.fallbacks :=
      List.mem_flatMap.mpr ⟨write, List.mem_filter.mpr ⟨hmem, hcan⟩, haccount⟩
    exact List.mem_filter.mpr ⟨List.mem_append_right _ hin, by simp⟩

/-- A snapshot of a main account whose primary window was read at `checkedAt`. -/
def machineOf (accountId : String) (checkedAt : ℚ) : SidebarMachineState where
  main :=
    { quota := some
        { primary := some
            { usedPercent := 10, remainingPercent := 90, checkedAt := some checkedAt } }
      mainAccountId := some accountId }
  fallbacks := [{ id := "second" }]
  route := "main"

/-- A re-login: the old account's quota is fresher than the first reading of
the new one, and stays with its own identity. -/
def reloginWrites : List Write :=
  [{ machineState := machineOf "old" 20, now := 20 },
   { machineState := machineOf "new" 15, now := 21 }]

theorem machine_identity_relogin :
    (run {} reloginWrites).main.mainAccountId = some "old" ∧
      Attested (mainReadings {} reloginWrites)
        ⟨(run {} reloginWrites).main.mainAccountId, (run {} reloginWrites).main.quota⟩ :=
  ⟨by decide +kernel, (machine_identity {} reloginWrites (by decide)).1⟩

end Sidebar.Quota
