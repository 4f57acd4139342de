import Mathlib.Tactic.NormNum
import OpenaiAuth.Sidebar.Placement

/-! # What a placement leaves of the other sessions

`planSidebarStickyAssignment` prunes the dead pins, keeps or replaces one session's pin, and
evicts the pins seen longest ago when the map grows beyond its bound.

Main result: `placement_leaves`, for every state within the bound and every input.
-/

namespace Sidebar

/-! ## Eviction -/

section Limit

variable {assignments : StickyAssignmentMap} {sessionHash hash : String}

theorem seenBefore_total (left right : String × StickyAssignment) :
    seenBefore left right ∨ seenBefore right left := by
  unfold seenBefore
  rcases lt_trichotomy left.2.lastSeenAt right.2.lastSeenAt with earlier | same | later
  · exact .inl (.inl earlier)
  · rcases String.le_total left.1 right.1 with first | second
    · exact .inl (.inr ⟨same, first⟩)
    · exact .inr (.inr ⟨same.symm, second⟩)
  · exact .inr (.inl later)

theorem seenBefore_trans {first second third : String × StickyAssignment}
    (h : seenBefore first second) (h' : seenBefore second third) : seenBefore first third := by
  unfold seenBefore at h h' ⊢
  rcases h with earlier | ⟨same, le⟩
  · rcases h' with earlier' | ⟨same', -⟩
    · exact .inl (earlier.trans earlier')
    · exact .inl (same' ▸ earlier)
  · rcases h' with earlier' | ⟨same', le'⟩
    · exact .inl (same ▸ earlier')
    · exact .inr ⟨same.trans same', String.le_trans le le'⟩

theorem seenBefore.le {left right : String × StickyAssignment} (h : seenBefore left right) :
    left.2.lastSeenAt ≤ right.2.lastSeenAt := by
  rcases h with earlier | ⟨same, -⟩
  · exact earlier.le
  · exact same.le

/-- The pins that may be evicted, the one seen longest ago first. -/
def byAge (assignments : StickyAssignmentMap) (sessionHash : String) :
    List (String × StickyAssignment) :=
  (assignments.entries.filter fun entry => entry.1 ≠ sessionHash).insertionSort seenBefore

variable (assignments sessionHash) in
theorem byAge_sorted : (byAge assignments sessionHash).Pairwise seenBefore := by
  have : Std.Total seenBefore := ⟨seenBefore_total⟩
  have : IsTrans _ seenBefore := ⟨fun _ _ _ => seenBefore_trans⟩
  exact List.pairwise_insertionSort seenBefore _

theorem mem_byAge {entry : String × StickyAssignment} :
    entry ∈ byAge assignments sessionHash ↔
      assignments.get entry.1 = some entry.2 ∧ entry.1 ≠ sessionHash := by
  rw [byAge, (List.perm_insertionSort seenBefore _).mem_iff, List.mem_filter, Js.Table.get_eq_some,
    decide_eq_true_eq]

/-- The keys that go when the map is beyond its bound. -/
def evicted (assignments : StickyAssignmentMap) (sessionHash : String) : List String :=
  ((byAge assignments sessionHash).take (assignments.size - stickyAssignmentMaxEntries)).map Prod.fst

theorem limit_eq (full : stickyAssignmentMaxEntries < assignments.size) :
    limitStickyAssignments assignments sessionHash =
      assignments.filter fun hash _ => hash ∉ evicted assignments sessionHash := by
  unfold limitStickyAssignments evicted byAge
  exact if_neg (Nat.sub_ne_zero_of_lt full)

theorem evicted_nodup : (evicted assignments sessionHash).Nodup := by
  have keys : ((byAge assignments sessionHash).map Prod.fst).Nodup := by
    rw [byAge, ((List.perm_insertionSort seenBefore _).map Prod.fst).nodup_iff]
    exact assignments.nodup.sublist (List.filter_sublist.map Prod.fst)
  exact keys.sublist ((List.take_sublist _ _).map Prod.fst)

theorem one_le_maxEntries : 1 ≤ stickyAssignmentMaxEntries := by
  unfold stickyAssignmentMaxEntries
  decide

/-- There are enough other sessions to evict from. -/
theorem length_evicted :
    (evicted assignments sessionHash).length = assignments.size - stickyAssignmentMaxEntries := by
  have sorted : (byAge assignments sessionHash).length =
      (assignments.entries.filter fun entry => entry.1 ≠ sessionHash).length :=
    (List.perm_insertionSort seenBefore _).length_eq
  have others : assignments.size ≤ (byAge assignments sessionHash).length + 1 := by
    rw [sorted]
    exact assignments.size_le_filter_ne sessionHash
  have bound := one_le_maxEntries
  rw [evicted, List.length_map, List.length_take]
  omega

theorem size_limit_le :
    (limitStickyAssignments assignments sessionHash).size ≤ stickyAssignmentMaxEntries := by
  by_cases full : stickyAssignmentMaxEntries < assignments.size
  · rw [limit_eq full]
    have gone : (evicted assignments sessionHash).length +
        (assignments.filter fun hash _ => hash ∉ evicted assignments sessionHash).size ≤
          assignments.size := by
      refine assignments.size_filter_not_mem evicted_nodup ?_
      intro hash mem
      obtain ⟨entry, taken, rfl⟩ := List.mem_map.mp mem
      exact ⟨entry.2, (mem_byAge.mp (List.mem_of_mem_take taken)).1⟩
    rw [length_evicted] at gone
    omega
  · unfold limitStickyAssignments
    simp only [Nat.sub_eq_zero_of_le (Nat.le_of_not_lt full), if_true]
    exact Nat.le_of_not_lt full

/-- A pin goes only when the map is beyond its bound, and then none that stays was seen
before it. -/
theorem get_limited_other {pin : StickyAssignment} (held : assignments.get hash = some pin)
    (other : hash ≠ sessionHash) :
    (limitStickyAssignments assignments sessionHash).get hash = some pin ∨
      (limitStickyAssignments assignments sessionHash).get hash = none ∧
        stickyAssignmentMaxEntries < assignments.size ∧
        ∀ stays kept, stays ≠ sessionHash →
          (limitStickyAssignments assignments sessionHash).get stays = some kept →
          pin.lastSeenAt ≤ kept.lastSeenAt := by
  by_cases full : stickyAssignmentMaxEntries < assignments.size
  swap
  · left
    unfold limitStickyAssignments
    simp only [Nat.sub_eq_zero_of_le (Nat.le_of_not_lt full), if_true]
    exact held
  rw [limit_eq full]
  simp only [Js.Table.get_filter, held]
  by_cases gone : hash ∈ evicted assignments sessionHash
  swap
  · left
    rw [Option.filter_some, if_pos (decide_eq_true gone)]
  refine .inr ⟨by rw [Option.filter_some, if_neg (by simpa using gone)], full, ?_⟩
  intro stays kept apart stayed
  obtain ⟨present, spared⟩ := Option.filter_eq_some_iff.mp stayed
  -- the pin stands in the part that is taken, the one that stays in the rest
  obtain ⟨entry, taken, rfl⟩ := List.mem_map.mp gone
  have same : entry.2 = pin := by
    have here := (mem_byAge.mp (List.mem_of_mem_take taken)).1
    rw [held] at here
    exact (Option.some.inj here).symm
  have left : (stays, kept) ∈ (byAge assignments sessionHash).drop
      (assignments.size - stickyAssignmentMaxEntries) := by
    have mem : (stays, kept) ∈ byAge assignments sessionHash := mem_byAge.mpr ⟨present, apart⟩
    rw [← List.take_append_drop (assignments.size - stickyAssignmentMaxEntries)
      (byAge assignments sessionHash)] at mem
    rcases List.mem_append.mp mem with took | rest
    · exact absurd (List.mem_map.mpr ⟨_, took, rfl⟩) (of_decide_eq_true spared)
    · exact rest
  have ordered := byAge_sorted assignments sessionHash
  rw [← List.take_append_drop (assignments.size - stickyAssignmentMaxEntries)
    (byAge assignments sessionHash)] at ordered
  rw [← same]
  exact ((List.pairwise_append.mp ordered).2.2 entry taken (stays, kept) left).le

end Limit

/-! ## The decision -/

namespace Placement

section Leaves

variable {latest : SidebarState} {input : ResolveStickyAssignmentInput}
  {choose : (String → ℚ) → Option Choice} {hash : String} {pin : StickyAssignment}

/-- How many pins a state holds. -/
def pinCount (state : SidebarState) : ℕ := (state.stickyAssignments.map (·.size)).getD 0

/-- The pin was seen within the age a pin may have. -/
def Unexpired (pin : StickyAssignment) (now : ℚ) : Prop :=
  now - stickyAssignmentMaxAgeMs ≤ pin.lastSeenAt

/-- The state after the plan: the one to persist, or the one it was made from. -/
def StickyAssignmentPlan.state (plan : StickyAssignmentPlan) (latest : SidebarState) : SidebarState :=
  plan.next.getD latest

def prunedTable (latest : SidebarState) (input : ResolveStickyAssignmentInput) : StickyAssignmentMap :=
  (prunedAssignments latest input).getD .empty

theorem get_prunedTable (hash : String) :
    (prunedTable latest input).get hash = (prunedAssignments latest input).bind (·.get hash) := by
  unfold prunedTable
  cases prunedAssignments latest input <;> rfl

theorem get_pruned_of_live (held : latest.pin hash = some pin) (unexpired : Unexpired pin input.now)
    (valid : pin.accountId ∈ input.validPinnedAccountIds) :
    (prunedTable latest input).get hash = some pin := by
  have stored : latest.stickyAssignments.bind (·.get hash) = some pin := held
  rw [get_prunedTable, prunedAssignments, get_pruned, stored, Option.filter_some, if_pos]
  have live : ¬pin.lastSeenAt < input.now - stickyAssignmentMaxAgeMs := not_lt.mpr unexpired
  simp [live, valid]

theorem size_prunedTable_le : (prunedTable latest input).size ≤ pinCount latest := by
  unfold prunedTable prunedAssignments pruneStickyAssignments pinCount
  cases latest.stickyAssignments with
  | none => exact Nat.le_refl 0
  | some assignments =>
      simp only [Option.bind_some, Option.map_some, Option.getD_some]
      unfold nonEmpty
      split_ifs
      · exact Nat.zero_le _
      · rw [Option.getD_some]
        exact assignments.size_filter_le _

theorem lastUpdated_withAssignments (assignments : Option StickyAssignmentMap) (now : ℚ) :
    latest.lastUpdated < (withAssignments latest assignments now).lastUpdated := by
  have later : latest.lastUpdated < latest.lastUpdated + 1 := lt_add_one _
  exact later.trans_le (le_max_right _ _)

/-- What holds of a state that a plan leaves, for the session and for the others. -/
structure Leaves (latest : SidebarState) (input : ResolveStickyAssignmentInput)
    (plan : StickyAssignmentPlan) : Prop where
  bounded : pinCount (plan.state latest) ≤ stickyAssignmentMaxEntries
  placed : ∀ assignment, plan.assignment = some assignment →
    (plan.state latest).pin input.sessionHash = some assignment
  others : ∀ hash pin, hash ≠ input.sessionHash → latest.pin hash = some pin →
    Unexpired pin input.now → pin.accountId ∈ input.validPinnedAccountIds →
    (plan.state latest).pin hash = some pin ∨
      (plan.state latest).pin hash = none ∧
        stickyAssignmentMaxEntries <
          (prunedTable latest input).size + (if (prunedTable latest input).get input.sessionHash =
            none then 1 else 0) ∧
        ∀ stays kept, stays ≠ input.sessionHash →
          (plan.state latest).pin stays = some kept → pin.lastSeenAt ≤ kept.lastSeenAt
  updated : ∀ next, plan.next = some next → latest.lastUpdated < next.lastUpdated

/-- A plan that writes nothing leaves the state. -/
theorem Leaves.unwritten {assignment : Option StickyAssignment}
    (small : pinCount latest ≤ stickyAssignmentMaxEntries)
    (placed : ∀ a, assignment = some a → latest.pin input.sessionHash = some a) :
    Leaves latest input ⟨assignment, none⟩ where
  bounded := small
  placed := placed
  others := fun _ _ _ held _ _ => .inl held
  updated := fun next h => absurd h (Option.some_ne_none next).symm

theorem keepPlan_leaves {current : StickyAssignment} (small : pinCount latest ≤ stickyAssignmentMaxEntries)
    (here : currentPin latest input = some current) :
    Leaves latest input (keepPlan latest input current) := by
  have present : (prunedTable latest input).get input.sessionHash = some current := by
    rw [get_prunedTable]
    exact here
  unfold keepPlan
  simp only
  split
  · -- the state records the pin as it is
    rename_i unchanged
    have plain := (Bool.and_eq_true_iff.mp unchanged).2
    refine Leaves.unwritten small ?_
    rintro assignment ⟨⟩
    rw [Bool.not_eq_true'] at plain
    rw [plain]
    exact pin_of_currentPin here
  · refine ⟨?_, ?_, ?_, ?_⟩
    · change ((prunedTable latest input).set input.sessionHash _).size ≤ _
      rw [Js.Table.size_set_of_present present]
      exact size_prunedTable_le.trans small
    · rintro assignment ⟨⟩
      exact Js.Table.get_set_self _ _ _
    · intro hash pin other held unexpired valid
      left
      change ((prunedTable latest input).set input.sessionHash _).get hash = some pin
      rw [Js.Table.get_set_of_ne other]
      exact get_pruned_of_live held unexpired valid
    · rintro next ⟨⟩
      exact lastUpdated_withAssignments _ _

theorem size_set_prunedTable (assignment : StickyAssignment) :
    ((prunedTable latest input).set input.sessionHash assignment).size =
      (prunedTable latest input).size +
        (if (prunedTable latest input).get input.sessionHash = none then 1 else 0) := by
  cases present : (prunedTable latest input).get input.sessionHash with
  | none => rw [Js.Table.size_set_of_absent present, if_pos rfl]
  | some old => rw [Js.Table.size_set_of_present present, if_neg (by simp), Nat.add_zero]

theorem freshPlan_leaves (small : pinCount latest ≤ stickyAssignmentMaxEntries) :
    Leaves latest input (freshPlan latest input choose) := by
  unfold freshPlan
  cases choose (placementPending latest input) with
  | none =>
      simp only
      split
      · -- nothing is eligible, and dead pins go
        refine ⟨?_, fun assignment h => absurd h (Option.some_ne_none assignment).symm, ?_, ?_⟩
        · have counted : ((prunedAssignments latest input).map (·.size)).getD 0 =
              (prunedTable latest input).size := by
            unfold prunedTable
            cases prunedAssignments latest input <;> rfl
          change ((prunedAssignments latest input).map (·.size)).getD 0 ≤ _
          rw [counted]
          exact size_prunedTable_le.trans small
        · intro hash pin _ held unexpired valid
          left
          have kept := get_pruned_of_live held unexpired valid
          rw [get_prunedTable] at kept
          exact kept
        · rintro next ⟨⟩
          exact lastUpdated_withAssignments _ _
      · refine Leaves.unwritten small ?_
        intro assignment h
        exact absurd h (Option.some_ne_none assignment).symm
  | some choice =>
      refine ⟨size_limit_le, ?_, ?_, ?_⟩
      · rintro assignment ⟨⟩
        change (limitStickyAssignments _ _).get _ = _
        rw [get_limited, Js.Table.get_set_self]
      · intro hash pin other held unexpired valid
        have before : ((prunedTable latest input).set input.sessionHash
            (placeAssignment choice input)).get hash = some pin := by
          rw [Js.Table.get_set_of_ne other]
          exact get_pruned_of_live held unexpired valid
        have limited := get_limited_other before other
        rw [size_set_prunedTable] at limited
        exact limited
      · rintro next ⟨⟩
        exact lastUpdated_withAssignments _ _

/-- A keeping plan refreshes the pin and never lowers its size. -/
theorem keepPlan_keeps (current : StickyAssignment) :
    ∃ assignment, (keepPlan latest input current).assignment = some assignment ∧
      assignment.accountId = current.accountId ∧ current.inputBytes ≤ assignment.inputBytes := by
  unfold keepPlan
  simp only
  split
  all_goals refine ⟨_, rfl, ?_⟩
  all_goals split
  · exact ⟨rfl, le_max_left _ _⟩
  · exact ⟨rfl, le_refl _⟩
  · exact ⟨rfl, le_max_left _ _⟩
  · exact ⟨rfl, le_refl _⟩

theorem plan_leaves (small : pinCount latest ≤ stickyAssignmentMaxEntries) :
    Leaves latest input (planSidebarStickyAssignment latest input choose) := by
  unfold planSidebarStickyAssignment
  split
  · rename_i current found
    exact keepPlan_leaves small (Option.filter_eq_some_iff.mp found).1
  · exact freshPlan_leaves small

/-- A pin that is neither expired nor unusable, and whose slot is not known to hold another
account, is kept. -/
theorem plan_of_live (held : latest.pin input.sessionHash = some pin)
    (unexpired : Unexpired pin input.now) (valid : pin.accountId ∈ input.validPinnedAccountIds)
    (included : pin.accountId ∉ input.excludeAccountIds)
    (same : hasStickyIdentityMismatch pin (input.wireAccountIdByAccount pin.accountId) = false) :
    planSidebarStickyAssignment latest input choose = keepPlan latest input pin := by
  have usable : isValidStickyAssignment pin input = true := by
    unfold isValidStickyAssignment
    rw [Bool.and_eq_true, Bool.and_eq_true]
    exact ⟨⟨decide_eq_true valid, decide_eq_true included⟩, decide_eq_true unexpired⟩
  have found : (currentPin latest input).filter (fun current =>
      isValidStickyAssignment current input && !currentIdentityMismatch latest input) = some pin := by
    have here := currentPin_of_valid held usable
    rw [currentIdentityMismatch, here, Option.any_some, Option.filter_some, if_pos]
    rw [usable, same]
    rfl
  unfold planSidebarStickyAssignment
  rw [found]

private def keptPin : StickyAssignment where
  accountId := "main"
  assignedAt := 0
  lastSeenAt := 1000
  inputBytes := 40

private def onePin : SidebarState where
  stickyAssignments := some (Js.Table.empty.set "session" keptPin)

private def smallRequest : ResolveStickyAssignmentInput where
  sessionHash := "session"
  requestBytes := 7
  now := 5000
  validPinnedAccountIds := ["main"]
  quotaCheckedAtByAccount := fun _ => none
  wireAccountIdByAccount := fun _ => some "acct"

end Leaves

end Placement

end Sidebar
