import Mathlib.Data.Rat.Defs
import Mathlib.Algebra.Order.Ring.Rat
import Mathlib.Data.List.Sort
import OpenaiAuth.Js.Table

/-! # The sidebar state file

What the plugin keeps in its sidebar file, and the write every writer makes: it
reads the file, merges, filters what a vault install may hold, and stores the
normalized state. The file lock makes each write one step. Numbers are the
finite ones; a stamp that is not one is absent.
-/

namespace Sidebar

/-! ## Data -/

structure QuotaWindow where
  usedPercent : ℚ
  remainingPercent : ℚ
  checkedAt : Option ℚ := none
  resetsAt : Option String := none
  windowMinutes : Option ℚ := none
deriving DecidableEq, Repr

structure SpendControlReading where
  limit : ℚ
  used : ℚ
  remaining : ℚ
  usedPercent : ℚ
  remainingPercent : ℚ
  resetsAt : Option String := none
  unit : Option String := none
  source : Option String := none
  reached : Bool
deriving DecidableEq, Repr

/-- Prepaid credits as the last reading that reported them saw them. -/
structure AccountCredits where
  hasCredits : Bool
  unlimited : Bool
  balance : Option ℚ := none
  overageLimitReached : Option Bool := none
  checkedAt : Option ℚ := none
deriving DecidableEq, Repr

structure AccountQuota where
  checkedAt : Option ℚ := none
  primary : Option QuotaWindow := none
  secondary : Option QuotaWindow := none
  spendControl : Option SpendControlReading := none
  spendControlCleared : Bool := false
  resetCreditsAvailable : Option ℚ := none
  credits : Option AccountCredits := none
deriving DecidableEq, Repr

structure MainState where
  quota : Option AccountQuota := none
  mainAccountId : Option String := none
  killed : Bool := false
deriving DecidableEq, Repr

structure SidebarAccountState where
  id : String
  accountId : Option String := none
  quota : Option AccountQuota := none
  killed : Bool := false
  enabled : Bool := true
deriving DecidableEq, Repr

structure ActiveRoutingEntry where
  activeId : String
  route : String
  updatedAt : ℚ
deriving DecidableEq, Repr

structure StickyAssignment where
  accountId : String
  wireAccountId : Option String := none
  assignedAt : ℚ
  lastSeenAt : ℚ
  inputBytes : ℚ
  quotaCheckedAt : Option ℚ := none
deriving DecidableEq, Repr

abbrev StickyAssignmentMap := Js.Table StickyAssignment

structure SidebarState where
  main : MainState := {}
  fallbacks : List SidebarAccountState := []
  activeId : Option String := none
  route : String := "main"
  activeRouting : Option (Js.Table ActiveRoutingEntry) := none
  stickyAssignments : Option StickyAssignmentMap := none
  lastUpdated : ℚ := 0
  accountPool : Bool := false
  vaultAccounts : Option (List SidebarAccountState) := none
  vaultDiscovered : Option Bool := none

/-- `undefined` for an empty map, as the normalizers leave it. -/
def nonEmpty {α : Type} (table : Js.Table α) : Option (Js.Table α) :=
  if table.size = 0 then none else some table

/-! ## Sessions -/

/-- `/^[a-f0-9]{64}$/` -/
def isSessionHash (hash : String) : Bool :=
  hash.toList.length = 64 && hash.toList.all fun c => c.isDigit || ('a' ≤ c && c ≤ 'f')

/-- `hashSidebarSessionId`: the hexadecimal SHA-256 digest of a session id. -/
structure SessionDigest where
  hash : String → String
  isHash : ∀ sessionId, isSessionHash (hash sessionId) = true

/-! ## Normalizing -/

/-- The checks a stored pin has to pass. -/
def StickyAssignment.isWellFormed (assignment : StickyAssignment) : Bool :=
  assignment.accountId ≠ "" && 0 ≤ assignment.assignedAt && 0 ≤ assignment.lastSeenAt &&
    0 ≤ assignment.inputBytes && assignment.quotaCheckedAt.all (0 ≤ ·)

def normalizeStickyAssignments (assignments : StickyAssignmentMap) : Option StickyAssignmentMap :=
  nonEmpty (assignments.filter fun sessionHash assignment =>
    isSessionHash sessionHash && assignment.isWellFormed)

def normalizeSidebarState (state : SidebarState) : SidebarState :=
  { state with
    activeRouting := state.activeRouting.bind nonEmpty
    stickyAssignments := state.stickyAssignments.bind normalizeStickyAssignments }

/-! ## Pruning and limiting pins -/

def stickyAssignmentMaxAgeMs : ℚ := 7 * 24 * 60 * 60 * 1000

@[irreducible] def stickyAssignmentMaxEntries : Nat := 256

def pruneStickyAssignments (assignments : Option StickyAssignmentMap)
    (validAccountIds : Option (List String)) (now : ℚ)
    (removedSessionHash : Option String := none) : Option StickyAssignmentMap :=
  assignments.bind fun assignments =>
    nonEmpty (assignments.filter fun sessionHash assignment =>
      some sessionHash ≠ removedSessionHash &&
        ¬ assignment.lastSeenAt < now - stickyAssignmentMaxAgeMs &&
        validAccountIds.all (assignment.accountId ∈ ·))

/-- The order of eviction: the pin seen longest ago first. -/
def seenBefore (left right : String × StickyAssignment) : Prop :=
  left.2.lastSeenAt < right.2.lastSeenAt ∨
    (left.2.lastSeenAt = right.2.lastSeenAt ∧ left.1 ≤ right.1)

instance : DecidableRel seenBefore := fun left right =>
  inferInstanceAs (Decidable (left.2.lastSeenAt < right.2.lastSeenAt ∨
    (left.2.lastSeenAt = right.2.lastSeenAt ∧ left.1 ≤ right.1)))

def limitStickyAssignments (assignments : StickyAssignmentMap) (protectedSessionHash : String) :
    StickyAssignmentMap :=
  let overflow := assignments.size - stickyAssignmentMaxEntries
  if overflow = 0 then assignments
  else
    let others := assignments.entries.filter fun entry => entry.1 ≠ protectedSessionHash
    let evicted := ((others.insertionSort seenBefore).take overflow).map Prod.fst
    assignments.filter fun sessionHash _ => sessionHash ∉ evicted

/-- The two maps hold the same pins; the entries of the one come from the other. -/
def stickyAssignmentsEqual (left right : Option StickyAssignmentMap) : Bool :=
  match left, right with
  | none, none => true
  | some left, some right =>
      left.size = right.size &&
        left.entries.all fun entry => right.get entry.1 = some entry.2
  | _, _ => false

/-! ## The merged write -/

structure SidebarMergeHooks where
  /-- What `canWrite` answers under the lock. -/
  canWrite : Bool := true
  vaultMode : Option Bool := none
deriving DecidableEq, Repr

def isVaultId (id : String) : Bool := "vault:".toList.isPrefixOf id.toList

/-- What a vault install may keep of the session records. -/
def SidebarState.vaultOnly (next : SidebarState) : SidebarState :=
  { next with
    activeId := next.activeId.filter isVaultId
    activeRouting :=
      some ((next.activeRouting.getD .empty).filter fun _ entry => isVaultId entry.activeId)
    stickyAssignments :=
      some ((next.stickyAssignments.getD .empty).filter fun _ pin =>
        isVaultId pin.accountId &&
          !(next.vaultAccounts.getD []).any fun account =>
            account.id = pin.accountId && account.killed) }

/-- A local writer clears the roster another process's vault left behind. -/
def SidebarState.localRoster (hooks : SidebarMergeHooks) (next : SidebarState) : SidebarState :=
  if hooks.vaultMode = some false then
    { next with vaultAccounts := none, vaultDiscovered := none }
  else next

/-- `writeMergedSidebarState`: the file after the write. -/
def writeMergedSidebarState (hooks : SidebarMergeHooks)
    (merge : SidebarState → Option SidebarState) (file : SidebarState) : SidebarState :=
  if ¬ hooks.canWrite then file
  else
    match merge (normalizeSidebarState file) with
    | none => file
    | some next =>
        let next := next.localRoster hooks
        normalizeSidebarState
          (if hooks.vaultMode.getD next.vaultAccounts.isSome then next.vaultOnly else next)

theorem localRoster_accounts (hooks : SidebarMergeHooks) (next : SidebarState) :
    (next.localRoster hooks).main = next.main ∧
      (next.localRoster hooks).fallbacks = next.fallbacks := by
  unfold SidebarState.localRoster
  split
  · exact ⟨rfl, rfl⟩
  · exact ⟨rfl, rfl⟩

/-- The filters after the merge leave the accounts alone. -/
theorem accounts_written {hooks : SidebarMergeHooks} {merge : SidebarState → Option SidebarState}
    {file next : SidebarState} (hcan : hooks.canWrite = true)
    (hmerge : merge (normalizeSidebarState file) = some next) :
    (writeMergedSidebarState hooks merge file).main = next.main ∧
      (writeMergedSidebarState hooks merge file).fallbacks = next.fallbacks := by
  unfold writeMergedSidebarState
  rw [if_neg (by simp [hcan]), hmerge]
  simp only
  split
  · exact localRoster_accounts hooks next
  · exact localRoster_accounts hooks next

/-! ## The pin of one session -/

/-- The pin a reader of the state finds for a session. -/
def SidebarState.pin (state : SidebarState) (sessionHash : String) : Option StickyAssignment :=
  state.stickyAssignments.bind (·.get sessionHash)

theorem get_nonEmpty {α : Type} (table : Js.Table α) (key : String) :
    (nonEmpty table).bind (·.get key) = table.get key := by
  unfold nonEmpty
  split
  · rename_i hsize
    rw [Js.Table.get_of_size_zero hsize]
    rfl
  · rfl

theorem pin_normalize (state : SidebarState) {sessionHash : String}
    (hhash : isSessionHash sessionHash = true) :
    (normalizeSidebarState state).pin sessionHash =
      (state.pin sessionHash).filter (·.isWellFormed) := by
  unfold SidebarState.pin normalizeSidebarState
  cases state.stickyAssignments with
  | none => rfl
  | some assignments =>
      simp only [Option.bind_some, normalizeStickyAssignments, get_nonEmpty, Js.Table.get_filter,
        hhash, Bool.true_and]

theorem get_pruned (assignments : Option StickyAssignmentMap)
    (validAccountIds : Option (List String)) (now : ℚ) (sessionHash : String) :
    (pruneStickyAssignments assignments validAccountIds now).bind (·.get sessionHash) =
      (assignments.bind (·.get sessionHash)).filter fun assignment =>
        ¬ assignment.lastSeenAt < now - stickyAssignmentMaxAgeMs &&
          validAccountIds.all (assignment.accountId ∈ ·) := by
  unfold pruneStickyAssignments
  cases assignments with
  | none => rfl
  | some assignments =>
      simp only [Option.bind_some, get_nonEmpty, Js.Table.get_filter, ne_eq, reduceCtorEq,
        not_false_eq_true, decide_true, Bool.true_and]

/-- The protected session is never evicted. -/
theorem get_limited (assignments : StickyAssignmentMap) (sessionHash : String) :
    (limitStickyAssignments assignments sessionHash).get sessionHash =
      assignments.get sessionHash := by
  unfold limitStickyAssignments
  by_cases hover : assignments.size - stickyAssignmentMaxEntries = 0
  · simp [hover]
  · -- what is evicted was taken from the other sessions
    have habsent : sessionHash ∉ (((assignments.entries.filter fun entry =>
        entry.1 ≠ sessionHash).insertionSort seenBefore).take
          (assignments.size - stickyAssignmentMaxEntries)).map Prod.fst := by
      intro hmem
      rcases List.mem_map.mp hmem with ⟨entry, hentry, hkey⟩
      have hother := (List.perm_insertionSort seenBefore _).mem_iff.mp (List.mem_of_mem_take hentry)
      have hne := (List.mem_filter.mp hother).2
      simp [hkey] at hne
    simp only [hover, if_false, Js.Table.get_filter]
    rw [decide_eq_true habsent]
    cases assignments.get sessionHash <;> rfl

theorem pin_vaultOnly (state : SidebarState) (sessionHash : String) :
    state.vaultOnly.pin sessionHash =
      (state.pin sessionHash).filter fun pin =>
        isVaultId pin.accountId &&
          !(state.vaultAccounts.getD []).any fun account =>
            account.id = pin.accountId && account.killed := by
  unfold SidebarState.vaultOnly SidebarState.pin
  cases state.stickyAssignments with
  | none => simp [Js.Table.get_filter]
  | some assignments => simp only [Option.bind_some, Option.getD_some, Js.Table.get_filter]

end Sidebar
