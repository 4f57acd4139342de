import OpenaiAuth.Sidebar.Overlay

/-! # Placing a session on an account

A session keeps the account it is pinned to while that account can take the
request; otherwise it is placed afresh by the choice the caller hands in. The
decision is made in memory, on the snapshot the request holds with the pins of
its own process laid over.

Main results: `plan_keeps` and `plan_chooses` say which of the two happens, and
`place_again` that a placement excluding the account just placed is always a
fresh choice.
-/

namespace Sidebar.Placement

open Sidebar.Overlay

/-- A request to be placed. -/
structure ResolveStickyAssignmentInput where
  sessionHash : String
  requestBytes : ℚ
  now : ℚ
  validPinnedAccountIds : List String
  excludeAccountIds : List String := []
  quotaCheckedAtByAccount : String → Option ℚ
  wireAccountIdByAccount : String → Option String

/-- The account a session is placed on, and the age of the reading it was chosen by. -/
structure Choice where
  accountId : String
  quotaCheckedAt : Option ℚ := none
deriving DecidableEq, Repr

/-! ## The decision -/

def stickyAssignmentLastSeenTouchMs : ℚ := 60 * 60 * 1000

def isValidStickyAssignment (assignment : StickyAssignment)
    (input : ResolveStickyAssignmentInput) : Bool :=
  assignment.accountId ∈ input.validPinnedAccountIds &&
    assignment.accountId ∉ input.excludeAccountIds &&
    input.now - stickyAssignmentMaxAgeMs ≤ assignment.lastSeenAt

def stickyAssignmentNeedsMetadataUpdate (assignment : StickyAssignment) (requestBytes now : ℚ)
    (wireAccountId : Option String) : Bool :=
  assignment.inputBytes < requestBytes ||
    stickyAssignmentLastSeenTouchMs ≤ now - assignment.lastSeenAt ||
    (assignment.wireAccountId.isNone && wireAccountId.isSome)

/-- Both sides know their account, and the accounts differ. -/
def hasStickyIdentityMismatch (assignment : StickyAssignment) (wireAccountId : Option String) :
    Bool :=
  assignment.wireAccountId.isSome && wireAccountId.isSome &&
    assignment.wireAccountId ≠ wireAccountId

/-- The bytes other sessions have committed to each account since the reading
the account is judged by. -/
def pendingBytesForAssignments (assignments : Option StickyAssignmentMap)
    (quotaCheckedAtByAccount : String → Option ℚ) (excludedSessionHash : Option String)
    (accountId : String) : ℚ :=
  ((assignments.map (·.entries)).getD []).foldl (fun pending entry =>
    if some entry.1 = excludedSessionHash ||
        entry.2.quotaCheckedAt ≠ quotaCheckedAtByAccount entry.2.accountId ||
        entry.2.accountId ≠ accountId then pending
    else pending + entry.2.inputBytes) 0

/-- `next` is the state to persist, `none` when the state records the pin. -/
structure StickyAssignmentPlan where
  assignment : Option StickyAssignment
  next : Option SidebarState

def stickyAssignmentIsCurrent (existing : StickyAssignment)
    (input : ResolveStickyAssignmentInput) : Bool :=
  isValidStickyAssignment existing input &&
    !hasStickyIdentityMismatch existing (input.wireAccountIdByAccount existing.accountId) &&
    !stickyAssignmentNeedsMetadataUpdate existing input.requestBytes input.now
      (input.wireAccountIdByAccount existing.accountId)

/-- A kept pin with the request's own size, identity and time. -/
def refreshAssignment (current : StickyAssignment) (input : ResolveStickyAssignmentInput) :
    StickyAssignment :=
  { current with
    inputBytes := max current.inputBytes input.requestBytes
    wireAccountId := current.wireAccountId.or (input.wireAccountIdByAccount current.accountId)
    lastSeenAt :=
      if stickyAssignmentLastSeenTouchMs ≤ input.now - current.lastSeenAt then input.now
      else current.lastSeenAt }

def placeAssignment (choice : Choice) (input : ResolveStickyAssignmentInput) : StickyAssignment where
  accountId := choice.accountId
  assignedAt := input.now
  lastSeenAt := input.now
  inputBytes := input.requestBytes
  quotaCheckedAt := choice.quotaCheckedAt
  wireAccountId := input.wireAccountIdByAccount choice.accountId

/-- `{ ...latest, stickyAssignments, lastUpdated }` -/
def withAssignments (latest : SidebarState) (assignments : Option StickyAssignmentMap) (now : ℚ) :
    SidebarState :=
  { latest with
    stickyAssignments := assignments
    lastUpdated := max now (latest.lastUpdated + 1) }

section Decision

variable (latest : SidebarState) (input : ResolveStickyAssignmentInput)

def prunedAssignments : Option StickyAssignmentMap :=
  pruneStickyAssignments latest.stickyAssignments (some input.validPinnedAccountIds) input.now

def assignmentsPruned : Bool :=
  !stickyAssignmentsEqual latest.stickyAssignments (prunedAssignments latest input)

/-- `current`: the session's pin after pruning. -/
def currentPin : Option StickyAssignment :=
  (prunedAssignments latest input).bind (·.get input.sessionHash)

def currentIdentityMismatch : Bool :=
  (currentPin latest input).any fun current =>
    hasStickyIdentityMismatch current (input.wireAccountIdByAccount current.accountId)

/-- The plan that keeps `current`. -/
def keepPlan (current : StickyAssignment) : StickyAssignmentPlan :=
  let metadataNeedsUpdate := stickyAssignmentNeedsMetadataUpdate current input.requestBytes
    input.now (input.wireAccountIdByAccount current.accountId)
  let assignment := if metadataNeedsUpdate then refreshAssignment current input else current
  if !assignmentsPruned latest input && !metadataNeedsUpdate then
    { assignment := some assignment, next := none }
  else
    { assignment := some assignment
      next := some (withAssignments latest
        (some (((prunedAssignments latest input).getD .empty).set input.sessionHash assignment))
        input.now) }

/-- A session being moved does not weigh the entry it leaves behind. -/
def placementPending : String → ℚ :=
  pendingBytesForAssignments (prunedAssignments latest input) input.quotaCheckedAtByAccount
    (if currentIdentityMismatch latest input then some input.sessionHash else none)

/-- The plan that places the session where `choose` says. -/
def freshPlan (choose : (String → ℚ) → Option Choice) : StickyAssignmentPlan :=
  match choose (placementPending latest input) with
  | none =>
      { assignment := none
        next :=
          if assignmentsPruned latest input then
            some (withAssignments latest (prunedAssignments latest input) input.now)
          else none }
  | some choice =>
      let assignment := placeAssignment choice input
      { assignment := some assignment
        next := some (withAssignments latest
          (some (limitStickyAssignments
            (((prunedAssignments latest input).getD .empty).set input.sessionHash assignment)
            input.sessionHash)) input.now) }

def planSidebarStickyAssignment (choose : (String → ℚ) → Option Choice) : StickyAssignmentPlan :=
  match (currentPin latest input).filter fun current =>
      isValidStickyAssignment current input && !currentIdentityMismatch latest input with
  | some current => keepPlan latest input current
  | none => freshPlan latest input choose

end Decision

def planSidebarStickyAssignmentFromSnapshot (state : SidebarState)
    (input : ResolveStickyAssignmentInput) (choose : (String → ℚ) → Option Choice) :
    StickyAssignmentPlan :=
  match (state.pin input.sessionHash).filter fun existing =>
      stickyAssignmentIsCurrent existing input with
  | some existing => { assignment := some existing, next := none }
  | none => planSidebarStickyAssignment state input choose

/-- `placeStickyPin`: the session's pin, and the pins of the process after it. -/
def placeStickyPin (snapshot : SidebarSnapshot) (overlay : StickyPinOverlay)
    (input : ResolveStickyAssignmentInput) (choose : (String → ℚ) → Option Choice)
    (persist : Bool) : Option StickyAssignment × StickyPinOverlay :=
  let shown := applyStickyPinOverlay snapshot overlay
  let plan := planSidebarStickyAssignmentFromSnapshot shown.1 input choose
  match plan.assignment with
  | none => (none, shown.2)
  | some assignment =>
      if persist && plan.next.isSome then
        -- the overlay's numbering plays no part in a request
        (some assignment,
          rememberStickyPin shown.2 input.sessionHash { assignment, id := shown.2.size })
      else (some assignment, shown.2)

/-! ## Kept or chosen -/

/-- The recorded pin the request may use as it is or refreshed. -/
def usablePin (state : SidebarState) (input : ResolveStickyAssignmentInput) :
    Option StickyAssignment :=
  (state.pin input.sessionHash).filter fun pin =>
    isValidStickyAssignment pin input &&
      !hasStickyIdentityMismatch pin (input.wireAccountIdByAccount pin.accountId)

section Plan

variable {state : SidebarState} {input : ResolveStickyAssignmentInput}
  {choose : (String → ℚ) → Option Choice}

/-- Pruning drops no pin that is still valid. -/
theorem currentPin_of_valid {pin : StickyAssignment} (hpin : state.pin input.sessionHash = some pin)
    (hvalid : isValidStickyAssignment pin input = true) : currentPin state input = some pin := by
  have hstate : state.stickyAssignments.bind (·.get input.sessionHash) = some pin := hpin
  simp only [isValidStickyAssignment, Bool.and_eq_true, decide_eq_true_eq] at hvalid
  rw [currentPin, prunedAssignments, get_pruned, hstate, Option.filter_some, if_pos]
  simp [hvalid.1.1, hvalid.2]

/-- What pruning leaves of the session was in the state. -/
theorem pin_of_currentPin {pin : StickyAssignment} (h : currentPin state input = some pin) :
    state.pin input.sessionHash = some pin := by
  rw [currentPin, prunedAssignments, get_pruned] at h
  exact (Option.filter_eq_some_iff.mp h).1

theorem keepPlan_assignment (current : StickyAssignment) :
    ∃ a, (keepPlan state input current).assignment = some a ∧ a.accountId = current.accountId := by
  unfold keepPlan
  simp only
  split
  · exact ⟨_, rfl, by split <;> rfl⟩
  · exact ⟨_, rfl, by split <;> rfl⟩

/-- A kept pin that is not written again is the state's own. -/
theorem keepPlan_next {current : StickyAssignment}
    (h : (keepPlan state input current).next = none) :
    (keepPlan state input current).assignment = some current := by
  unfold keepPlan at h ⊢
  simp only at h ⊢
  split at h
  · rename_i hsame
    have hmeta := (Bool.and_eq_true_iff.mp hsame).2
    rw [if_pos hsame]
    simp only [Bool.not_eq_true'] at hmeta
    simp [hmeta]
  · cases h

theorem freshPlan_assignment :
    (freshPlan state input choose).assignment.map (·.accountId) =
      (choose (placementPending state input)).map (·.accountId) := by
  unfold freshPlan
  cases choose (placementPending state input) with
  | none => rfl
  | some choice => rfl

theorem freshPlan_next (h : (freshPlan state input choose).assignment.isSome = true) :
    (freshPlan state input choose).next.isSome = true := by
  unfold freshPlan at h ⊢
  cases hchoice : choose (placementPending state input) with
  | none =>
      rw [hchoice] at h
      cases h
  | some choice => rfl

/-- A pin that cannot be used as it is goes to the locked decision. -/
theorem plan_of_unusable (h : usablePin state input = none) :
    planSidebarStickyAssignmentFromSnapshot state input choose = freshPlan state input choose := by
  have hunusable : ∀ pin, state.pin input.sessionHash = some pin →
      (isValidStickyAssignment pin input &&
        !hasStickyIdentityMismatch pin (input.wireAccountIdByAccount pin.accountId)) = false := by
    intro pin hpin
    simpa using Option.filter_eq_none_iff.mp h pin hpin
  have hnotcurrent : ((state.pin input.sessionHash).filter fun existing =>
      stickyAssignmentIsCurrent existing input) = none := by
    rw [Option.filter_eq_none_iff]
    intro pin hpin
    simp [stickyAssignmentIsCurrent, hunusable pin hpin]
  have hnotkept : ((currentPin state input).filter fun current =>
      isValidStickyAssignment current input && !currentIdentityMismatch state input) = none := by
    rw [Option.filter_eq_none_iff]
    intro pin hpin
    rw [currentIdentityMismatch, hpin, Option.any_some, hunusable pin (pin_of_currentPin hpin)]
    decide
  rw [planSidebarStickyAssignmentFromSnapshot, hnotcurrent, planSidebarStickyAssignment, hnotkept]

variable (choose) in
theorem plan_of_usable {pin : StickyAssignment} (h : usablePin state input = some pin) :
    planSidebarStickyAssignmentFromSnapshot state input choose = ⟨some pin, none⟩ ∨
      planSidebarStickyAssignmentFromSnapshot state input choose = keepPlan state input pin := by
  obtain ⟨hpin, husable⟩ := Option.filter_eq_some_iff.mp h
  have hvalid : isValidStickyAssignment pin input = true := (Bool.and_eq_true_iff.mp husable).1
  rw [planSidebarStickyAssignmentFromSnapshot, hpin, Option.filter_some]
  by_cases hcurrent : stickyAssignmentIsCurrent pin input = true
  · left
    rw [if_pos hcurrent]
  · right
    -- the pin survives the pruning, so the locked decision keeps it too
    have hkept : ((currentPin state input).filter fun current =>
        isValidStickyAssignment current input && !currentIdentityMismatch state input) =
          some pin := by
      rw [currentIdentityMismatch, currentPin_of_valid hpin hvalid, Option.any_some,
        Option.filter_some, if_pos husable]
    rw [if_neg hcurrent, planSidebarStickyAssignment, hkept]

/-- A usable pin stays. -/
theorem plan_keeps {pin : StickyAssignment} (h : usablePin state input = some pin) :
    ∃ a, (planSidebarStickyAssignmentFromSnapshot state input choose).assignment = some a ∧
      a.accountId = pin.accountId := by
  rcases plan_of_usable choose h with hplan | hplan
  · exact ⟨pin, by rw [hplan], rfl⟩
  · rw [hplan]
    exact keepPlan_assignment pin

/-- Without one the session goes where `choose` says. -/
theorem plan_chooses (h : usablePin state input = none) :
    (planSidebarStickyAssignmentFromSnapshot state input choose).assignment.map (·.accountId) =
      (choose (placementPending state input)).map (·.accountId) := by
  rw [plan_of_unusable h, freshPlan_assignment]

/-- A plan that writes nothing uses the pin the state has. -/
theorem plan_next {a : StickyAssignment}
    (h : (planSidebarStickyAssignmentFromSnapshot state input choose).assignment = some a)
    (hnext : (planSidebarStickyAssignmentFromSnapshot state input choose).next = none) :
    state.pin input.sessionHash = some a := by
  cases hpin : usablePin state input with
  | none =>
      rw [plan_of_unusable hpin] at h hnext
      have hsome := freshPlan_next (Option.isSome_iff_exists.mpr ⟨a, h⟩)
      rw [hnext] at hsome
      cases hsome
  | some pin =>
      have hstate := (Option.filter_eq_some_iff.mp hpin).1
      rcases plan_of_usable choose hpin with hplan | hplan
      · rw [hplan] at h
        exact hstate.trans h
      · rw [hplan] at h hnext
        rw [keepPlan_next hnext] at h
        exact hstate.trans h

end Plan

/-! ## Placing -/

section Place

variable {snapshot : SidebarSnapshot} {overlay : StickyPinOverlay}
  {input : ResolveStickyAssignmentInput} {choose : (String → ℚ) → Option Choice} {persist : Bool}

/-- The pin a request is shown. -/
def shownPin (snapshot : SidebarSnapshot) (overlay : StickyPinOverlay)
    (input : ResolveStickyAssignmentInput) : Option StickyAssignment :=
  usablePin (applyStickyPinOverlay snapshot overlay).1 input

theorem place_assignment : (placeStickyPin snapshot overlay input choose persist).1 =
    (planSidebarStickyAssignmentFromSnapshot (applyStickyPinOverlay snapshot overlay).1 input
      choose).assignment := by
  unfold placeStickyPin
  simp only
  split
  · rename_i hplan
    rw [hplan]
  · rename_i hplan
    rw [hplan]
    split <;> rfl

variable (choose persist) in
theorem place_keeps {pin : StickyAssignment} (h : shownPin snapshot overlay input = some pin) :
    ∃ a, (placeStickyPin snapshot overlay input choose persist).1 = some a ∧
      a.accountId = pin.accountId := by
  rw [place_assignment]
  exact plan_keeps h

variable (choose persist) in
theorem place_chooses (h : shownPin snapshot overlay input = none) :
    ∃ pending, (placeStickyPin snapshot overlay input choose persist).1.map (·.accountId) =
      (choose pending).map (·.accountId) := by
  rw [place_assignment]
  exact ⟨_, plan_chooses h⟩

/-- A pin just remembered is the one the next request is shown. -/
theorem get_rememberStickyPin (overlay : StickyPinOverlay) (sessionHash : String)
    (entry : StickyPinOverlayEntry) :
    (rememberStickyPin overlay sessionHash entry).get sessionHash = some entry := by
  rw [Js.Table.get_eq_some, rememberStickyPin_entries, remember_entries]
  -- the newest entry is last, so no deletion of older ones reaches it
  rw [List.drop_append_of_le_length]
  · exact List.mem_append_right _ (List.mem_singleton_self _)
  · rw [List.length_append, List.length_singleton]
    have hpos : 0 < stickyAssignmentMaxEntries := by
      unfold stickyAssignmentMaxEntries
      decide
    omega

/-- After a placement the session's pin, as this process sees it, is the one
placed. -/
theorem pin_placed {a : StickyAssignment}
    (h : (placeStickyPin snapshot overlay input choose true).1 = some a) :
    (applyStickyPinOverlay snapshot (placeStickyPin snapshot overlay input choose true).2).1.pin
      input.sessionHash = some a := by
  have hplan := h
  rw [place_assignment] at hplan
  cases hnext : (planSidebarStickyAssignmentFromSnapshot (applyStickyPinOverlay snapshot overlay).1
      input choose).next with
  | some next =>
      have hoverlay : (placeStickyPin snapshot overlay input choose true).2 =
          rememberStickyPin (applyStickyPinOverlay snapshot overlay).2 input.sessionHash
            { assignment := a, id := (applyStickyPinOverlay snapshot overlay).2.size } := by
        simp [placeStickyPin, hplan, hnext]
      rw [hoverlay, apply_pin, get_rememberStickyPin]
      rfl
  | none =>
      have hoverlay : (placeStickyPin snapshot overlay input choose true).2 =
          (applyStickyPinOverlay snapshot overlay).2 := by
        simp [placeStickyPin, hplan, hnext]
      have hstate := plan_next hplan hnext
      rw [hoverlay]
      rw [apply_pin] at hstate ⊢
      have hkept : (applyStickyPinOverlay snapshot overlay).2 =
          overlay.filter fun _ entry => !outdated snapshot entry := by
        unfold applyStickyPinOverlay
        simp only
        split <;> rfl
      rw [hkept, Js.Table.get_filter]
      rw [← hstate]
      cases overlay.get input.sessionHash with
      | none => rfl
      | some entry => by_cases hout : outdated snapshot entry <;> simp

/-- A second placement that excludes the account just placed is a fresh choice. -/
theorem place_again {a : StickyAssignment} (again : ResolveStickyAssignmentInput)
    (h : (placeStickyPin snapshot overlay input choose true).1 = some a)
    (hsession : again.sessionHash = input.sessionHash)
    (hexcluded : a.accountId ∈ again.excludeAccountIds) :
    shownPin snapshot (placeStickyPin snapshot overlay input choose true).2 again = none := by
  unfold shownPin usablePin
  rw [hsession, pin_placed h, Option.filter_some, if_neg]
  simp [isValidStickyAssignment, hexcluded]

end Place

end Sidebar.Placement
