import OpenaiAuth.OpenCode2.Pins
import OpenaiAuth.Request.Pool

/-! # Choosing an account

The two choosers of the OpenCode 2 adapter: the first admitted row of an ordered plan,
and the session's pin while its row can serve. Both read one routing input, of which a
choice may leave accounts out.

Main results: `chooseOrdered_sound` and `chooseSticky_sound`, what they choose is a row
of the input that is not left out and not below its killswitch floor, and
`chooseSticky_pins`, a choice that is not to persist leaves the pins as they are.
-/

namespace OpenCode2

open Js Sidebar Sidebar.Placement Request Request.Pool

variable {Map : Type}

/-! ## What a choice goes by -/

/-- A pool row or a login of the vault. -/
structure Account (Map : Type) where
  id : String
  identity : Option String := none
  quota : Option Map := none

/-- What a call reads before it chooses: the routable pool rows, the vault's ChatGPT logins
that pass the quota policy, and the routing input without the rate-limit marks, which the
choice may come to ignore. -/
structure Roll (Map : Type) where
  storage : Option AccountStorage
  mode : RoutingMode
  vault : Bool
  vaultMode : Bool
  now : ℚ
  rows : List (Account Map)
  routes : List (Account Map)
  refreshBackoff : String → Option ℚ
  resetCredits : String → Option ℚ

/-- `currentTargets`: in vault mode the vault's logins alone. -/
def Roll.targets (roll : Roll Map) : List (PoolTarget Map) :=
  (if roll.vaultMode then [] else roll.rows.map fun row =>
    { id := row.id, identity := row.identity, quota := row.quota, isRow := true }) ++
  roll.routes.map fun route =>
    { id := route.id, identity := route.identity, quota := route.quota, isRow := false }

theorem Roll.isRow_of_vaultMode {roll : Roll Map} (h : roll.vaultMode = true) :
    ∀ target ∈ roll.targets, target.isRow = false := by
  intro target hmem
  rw [Roll.targets, if_pos h, List.nil_append] at hmem
  obtain ⟨route, -, rfl⟩ := List.mem_map.mp hmem
  rfl

section Choosers

variable (L : Library Map) (P : PinLibrary) (dateParse : String → Option ℚ) (roll : Roll Map)

def nominalRequestBytes : ℚ := 1

/-- The killswitch verdict of the call's routing input. -/
def Roll.killswitch (id : String) : Option Bool :=
  poolKillswitchVerdicts L dateParse (roll.targets.map routingRow) roll.storage roll.now id

def Roll.routing (marks : Table ℚ) : PoolRoutingInput Map where
  rows := roll.targets.map routingRow
  now := roll.now
  rateLimitMarks := marks.get
  refreshBackoff := roll.refreshBackoff
  killswitch := roll.killswitch L dateParse

/-- main-first, fallback-first and roster order: the first admitted row. -/
def chooseOrdered (routing : PoolRoutingInput Map) (mode : RoutingMode) (excluded : List String)
    (follow : Option String) (mainId : Option (Option String)) : Option String :=
  match planOrdered L { routing with rows := routing.rows.filter fun row => row.id ∉ excluded }
      (orderedPlacement mode) mainId true with
  | .block _ => none
  | .send order _ =>
      let order := order.filter (· ∉ excluded)
      match follow.filter (· ∈ order) with
      | some follow => some follow
      | none => order.head?

def stickyOptions : StickyRouteOptions where
  requestBytes := nominalRequestBytes
  reservePercent := fun id =>
    getKillswitchThresholdsForAccount roll.storage (if id = formerMainId then none else some id)
  resetCredits := roll.resetCredits

/-- `preferred` is placed as it is, with no selection. -/
def placement (routing : PoolRoutingInput Map) (sessionId : String) (preferred : Option String)
    (exclude : List String) (keep : Bool) : StickyPinPlacement :=
  let sticky := admitSticky L routing
  { sessionId
    requestBytes := nominalRequestBytes
    validPinnedAccountIds := (routing.rows.map (·.id)).filter (· ∉ sticky.excluded)
    excludeAccountIds := exclude
    quotaCheckedAtByAccount := fun id =>
      if routing.rows.any fun row => row.id = id then (sticky.projections id).bind (·.checkedAt)
      else none
    wireAccountIdByAccount := fun id => (targetById roll.targets id).bind (·.identity)
    select := fun pendingBytes =>
      match preferred with
      | some preferred => some ⟨preferred, (sticky.projections preferred).bind (·.checkedAt)⟩
      | none => selectStickyRow L routing (stickyOptions roll) exclude pendingBytes
    persist := keep }

/-- sticky-balanced: the session's pin while its row can serve; a row confirmed unable to
serve loses the pin for good, a row whose quota is not known yet is served around for this
request only. A choice makes up to two pins, the objects `mint` and `mint + 1`. -/
def chooseSticky (routing : PoolRoutingInput Map) (sessionId : String) (excluded : List String)
    (persist : Bool) (plannedPins : Table StickyPin) (mint : ℕ) (preferred : Option String) :
    Option String × Table StickyPin :=
  match placeStickyPin P plannedPins (placement L roll routing sessionId preferred excluded persist)
      mint with
  | (none, pins) => (none, pins)
  | (some id, pins) =>
      match routePinnedRow L routing (stickyOptions roll) id with
      | .none => (none, pins)
      | .move reason =>
          match placeStickyPin P pins
              (placement L roll routing sessionId preferred (excluded ++ [id]) persist)
              (mint + 1) with
          | (some replacement, pins) => (some replacement, pins)
          | (none, pins) => (if reason = .killswitch then none else some id, pins)
      | .detour =>
          placeStickyPin P pins
            (placement L roll routing sessionId preferred (excluded ++ [id]) false) (mint + 1)
      | _ => (some id, pins)

end Choosers

/-! ## What the libraries are relied on for -/

/-- The routing library names only rows it was given. -/
structure NamesRows (L : Library Map) : Prop where
  ordered : ∀ input placement mainId, ∀ id ∈ (L.routeOrdered input placement mainId).order,
    id ∈ input.rows.map (·.id)
  placed : ∀ ids placement mainId, ∀ id ∈ L.orderForPlacement ids placement mainId, id ∈ ids
  sticky : ∀ rows input options pin pendingBytes dispatch,
    (L.routeSticky rows input options pin pendingBytes).dispatch = some dispatch →
      dispatch.accountId ∈ rows.map (·.id)

/-- A pin stays only on an account it may stay on. -/
def KeepsValid (P : PinLibrary) : Prop :=
  ∀ pin valid wireIdentity, P.isPinValid pin valid wireIdentity = true → pin.accountId ∈ valid

/-! ## The ordered choice -/

section Ordered

variable {L : Library Map} {routing : PoolRoutingInput Map}

theorem planOrdered_rows (hL : NamesRows L) {placement : OrderedPlacement}
    {mainId : Option (Option String)} {order : List String} {lastPath : Bool}
    (h : planOrdered L routing placement mainId true = .send order lastPath) :
    ∀ id ∈ order, id ∈ routing.rows.map (·.id) := by
  unfold planOrdered at h
  simp only [if_true, Bool.not_true, Bool.false_eq_true, if_false] at h
  generalize (mainId.map (·.getD "")).getD formerMainId = main at h
  have hordered := hL.ordered routing placement main
  have hplaced := hL.placed (routing.rows.map (·.id)) placement main
  generalize L.routeOrdered routing placement main = route at h hordered
  generalize L.orderForPlacement (routing.rows.map (·.id)) placement main = ids at h hplaced
  have hfilter : ∀ (keep : String → Bool), ∀ id ∈ ids.filter keep, id ∈ routing.rows.map (·.id) :=
    fun keep id hid => hplaced id (List.mem_filter.mp hid).1
  split_ifs at h with hfree hcredits horder horder' hlast
  · cases h
    exact fun id hid => hordered id (List.mem_filter.mp hid).1
  · cases h
    intro id hid
    rcases List.mem_append.mp hid with hid | hid
    · exact hfilter _ id hid
    · exact hordered id (List.mem_filter.mp hid).1
  · cases h
    intro id hid
    rcases List.mem_append.mp hid with hid | hid
    · exact hfilter _ id hid
    · exact hfilter _ id (List.mem_filter.mp hid).1
  · cases h
    exact hordered
  · cases h
    exact hfilter _

theorem chooseOrdered_sound (hL : NamesRows L) (hfloor : KeepsFloor L) {mode : RoutingMode}
    {excluded : List String} {follow : Option String} {mainId : Option (Option String)} {id : String}
    (h : chooseOrdered L routing mode excluded follow mainId = some id) :
    id ∈ routing.rows.map (·.id) ∧ id ∉ excluded ∧ routing.passes id = true := by
  unfold chooseOrdered at h
  split at h
  · cases h
  · rename_i order lastPath hplan
    have hmem : id ∈ order.filter (· ∉ excluded) := by
      dsimp only at h
      split at h
      · rename_i hfollow
        cases h
        exact of_decide_eq_true (Option.filter_eq_some_iff.mp hfollow).2
      · exact List.mem_of_mem_head? h
    obtain ⟨horder, hnot⟩ := List.mem_filter.mp hmem
    refine ⟨?_, of_decide_eq_true hnot, planOrdered_floor hfloor hplan id horder⟩
    obtain ⟨row, hrow, rfl⟩ := List.mem_map.mp (planOrdered_rows hL hplan id horder)
    exact List.mem_map_of_mem (List.mem_filter.mp hrow).1

end Ordered

/-! ## The sticky choice -/

section Sticky

variable {L : Library Map} {P : PinLibrary} {roll : Roll Map} {routing : PoolRoutingInput Map}
  {sessionId : String} {preferred : Option String} {exclude : List String} {keep : Bool}
  {pins : Table StickyPin} {ref : ℕ}

theorem selectStickyRow_rows (hL : NamesRows L) {options : StickyRouteOptions}
    {pendingBytes : String → ℚ} {choice : Choice}
    (h : selectStickyRow L routing options exclude pendingBytes = some choice) :
    choice.accountId ∈ routing.rows.map (·.id) ∧ choice.accountId ∉ exclude := by
  have hrow : ∀ id, id ∈ (routing.rows.filter fun row => row.id ∉ exclude).map (·.id) →
      id ∈ routing.rows.map (·.id) ∧ id ∉ exclude := by
    intro id hid
    obtain ⟨row, hrow, rfl⟩ := List.mem_map.mp hid
    obtain ⟨hin, hnot⟩ := List.mem_filter.mp hrow
    exact ⟨List.mem_map_of_mem hin, of_decide_eq_true hnot⟩
  unfold selectStickyRow at h
  simp only at h
  generalize hroute : routePoolSticky L routing options none exclude pendingBytes = route at h
  have hselected : ∀ selected, (route.dispatch.filter fun dispatch => dispatch.source ≠ .pin).map
      (fun dispatch => Choice.mk dispatch.accountId dispatch.quotaCheckedAt) = some selected →
      selected.accountId ∈ (routing.rows.filter fun row => row.id ∉ exclude).map (·.id) := by
    intro selected hsome
    obtain ⟨dispatch, hdispatch, rfl⟩ := Option.map_eq_some_iff.mp hsome
    have hsome := (Option.filter_eq_some_iff.mp hdispatch).1
    rw [← hroute] at hsome
    exact hL.sticky _ routing options none pendingBytes dispatch hsome
  split at h
  · exact hrow _ (hselected choice h)
  · split at h
    · exact hrow _ (hselected choice h)
    · rename_i credits rest hcredits
      cases h
      have hmem : credits ∈ (creditsTiers L (routing.rows.filter fun row => row.id ∉ exclude)
          routing route.admission).credits := hcredits ▸ List.mem_cons_self
      obtain ⟨row, hin, hid⟩ := List.mem_map.mp hmem
      exact hrow _ (hid ▸ List.mem_map_of_mem (List.mem_filter.mp hin).1)

/-- A placement is the session's own pin, or what was preferred, or a fresh selection. -/
theorem placed_cases {id : String} {pins' : Table StickyPin}
    (h : placeStickyPin P pins (placement L roll routing sessionId preferred exclude keep) ref =
      (some id, pins')) :
    (∃ pin, pins.get sessionId = some pin ∧ pin.accountId = id ∧ id ∉ exclude ∧
      P.isPinValid pin ((routing.rows.map (·.id)).filter (· ∉ (admitSticky L routing).excluded))
        ((targetById roll.targets id).bind (·.identity)) = true) ∨
    preferred = some id ∨
    (preferred = none ∧ ∃ pendingBytes choice, choice.accountId = id ∧
      selectStickyRow L routing (stickyOptions roll) exclude pendingBytes = some choice) := by
  unfold placeStickyPin at h
  split at h
  · rename_i pin hkeeps
    obtain ⟨hpin, hvalid⟩ := Option.filter_eq_some_iff.mp hkeeps
    obtain ⟨hid, -⟩ := Prod.mk.inj h
    cases hid
    obtain ⟨hnot, hvalid⟩ := Bool.and_eq_true_iff.mp hvalid
    exact .inl ⟨pin, hpin, rfl, of_decide_eq_true hnot, hvalid⟩
  · split at h
    · cases h
    · rename_i selection hselect
      obtain ⟨hid, -⟩ := Prod.mk.inj h
      cases hid
      cases preferred with
      | some preferred =>
          cases hselect
          exact .inr (.inl rfl)
      | none => exact .inr (.inr ⟨rfl, _, selection, rfl, hselect⟩)

theorem placed_pins {result : Option String} {pins' : Table StickyPin}
    (h : placeStickyPin P pins (placement L roll routing sessionId preferred exclude false) ref =
      (result, pins')) : pins' = pins := by
  unfold placeStickyPin at h
  split at h
  · exact (Prod.mk.inj h).2.symm
  · split at h <;> exact (Prod.mk.inj h).2.symm

/-- What was just placed is left out, and so is the pin that was not kept before. -/
theorem keeps_again {id : String} {pins' : Table StickyPin} (keep' : Bool)
    (h : placeStickyPin P pins (placement L roll routing sessionId preferred exclude keep) ref =
      (some id, pins')) :
    (placement L roll routing sessionId preferred (exclude ++ [id]) keep').keeps P pins' = none := by
  have hexcluded : ∀ pin : StickyPin, pin.accountId = id → ∀ after : Table StickyPin,
      after.get sessionId = some pin →
        (placement L roll routing sessionId preferred (exclude ++ [id]) keep').keeps P after = none := by
    intro pin hpin after hget
    rw [StickyPinPlacement.keeps, show (placement L roll routing sessionId preferred (exclude ++ [id])
      keep').sessionId = sessionId from rfl, hget, Option.filter_some, if_neg]
    simp [placement, hpin]
  unfold placeStickyPin at h
  split at h
  · rename_i pin hkeeps
    obtain ⟨hpin, -⟩ := Option.filter_eq_some_iff.mp hkeeps
    obtain ⟨hid, rfl⟩ := Prod.mk.inj h
    have hid : pin.accountId = id := Option.some.inj hid
    split_ifs
    · refine hexcluded _ ?_ _ (Table.get_set_self ..)
      exact hid
    · exact hexcluded pin hid _ hpin
  · rename_i hkeeps
    split at h
    · cases h
    · rename_i selection _
      obtain ⟨hid, rfl⟩ := Prod.mk.inj h
      have hid : selection.accountId = id := Option.some.inj hid
      split_ifs
      · refine hexcluded _ ?_ _ (Table.get_set_self ..)
        exact hid
      · -- a pin that was not kept is not kept when more is left out
        rw [StickyPinPlacement.keeps, Option.filter_eq_none_iff] at hkeeps ⊢
        intro pin hpin hvalid
        refine hkeeps pin hpin ?_
        simp only [placement, Bool.and_eq_true, decide_eq_true_eq, List.mem_append,
          List.mem_singleton, not_or] at hvalid ⊢
        exact ⟨decide_eq_true hvalid.1.1, hvalid.2⟩

theorem placed_of_keeps_none {id : String} {pins' : Table StickyPin}
    (hkeeps : (placement L roll routing sessionId preferred exclude keep).keeps P pins = none)
    (h : placeStickyPin P pins (placement L roll routing sessionId preferred exclude keep) ref =
      (some id, pins')) :
    preferred = some id ∨
    (preferred = none ∧ ∃ pendingBytes choice, choice.accountId = id ∧
      selectStickyRow L routing (stickyOptions roll) exclude pendingBytes = some choice) := by
  rcases placed_cases h with ⟨pin, hpin, rfl, hnot, hvalid⟩ | hfresh
  · rw [StickyPinPlacement.keeps, Option.filter_eq_none_iff] at hkeeps
    refine (hkeeps pin hpin ?_).elim
    rw [Bool.and_eq_true]
    exact ⟨decide_eq_true hnot, hvalid⟩
  · exact hfresh

variable (hL : NamesRows L) (hfloor : KeepsFloor L) (hP : KeepsValid P)
  (hpreferred : ∀ id, preferred = some id →
    id ∈ routing.rows.map (·.id) ∧ id ∉ exclude ∧ routing.passes id = true)

include hL hfloor hpreferred in
/-- What is placed afresh serves, however much more is left out. -/
theorem fresh_sound {more : List String} {id : String} (hmore : exclude ⊆ more)
    (h : preferred = some id ∨
      (preferred = none ∧ ∃ pendingBytes choice, choice.accountId = id ∧
        selectStickyRow L routing (stickyOptions roll) more pendingBytes = some choice)) :
    id ∈ routing.rows.map (·.id) ∧ id ∉ exclude ∧ routing.passes id = true := by
  rcases h with hsome | ⟨-, pendingBytes, choice, rfl, hselect⟩
  · exact hpreferred id hsome
  · obtain ⟨hrow, hnot⟩ := selectStickyRow_rows hL hselect
    exact ⟨hrow, fun hin => hnot (hmore hin), selectStickyRow_floor hfloor hselect⟩

include hL hP hpreferred hfloor in
theorem chooseSticky_sound {persist : Bool} {mint : ℕ} {id : String} {pins' : Table StickyPin}
    (h : chooseSticky L P roll routing sessionId exclude persist pins mint preferred =
      (some id, pins')) :
    id ∈ routing.rows.map (·.id) ∧ id ∉ exclude ∧ routing.passes id = true := by
  unfold chooseSticky at h
  split at h
  · cases h
  · rename_i first pins₁ hfirst
    have hrow : first ∈ routing.rows.map (·.id) ∧ first ∉ exclude := by
      rcases placed_cases hfirst with ⟨pin, -, rfl, hnot, hvalid⟩ | hfresh
      · exact ⟨(List.mem_filter.mp (hP _ _ _ hvalid)).1, hnot⟩
      · have hsound := fresh_sound hL hfloor hpreferred (List.Subset.refl _) hfresh
        exact ⟨hsound.1, hsound.2.1⟩
    -- a row below its floor is never served by its pin
    have hserves : routePinnedRow L routing (stickyOptions roll) first ≠ .move .killswitch →
        routePinnedRow L routing (stickyOptions roll) first ≠ .detour →
        routePinnedRow L routing (stickyOptions roll) first ≠ .none →
        routing.passes first = true := by
      intro hmove hdetour hnone
      by_contra hkilled
      have hfails : routing.passes first = false := Bool.not_eq_true _ ▸ hkilled
      have hroutes := @routePinnedRow_floor _ _ _ (stickyOptions roll) hfloor _ hfails
      rcases hroutes with hroute | hroute | hroute
      · exact hmove hroute
      · exact hdetour hroute
      · exact hnone hroute
    have hagain : ∀ keep' ref' second pins₂,
        placeStickyPin P pins₁
          (placement L roll routing sessionId preferred (exclude ++ [first]) keep') ref' =
            (some second, pins₂) →
        second ∈ routing.rows.map (·.id) ∧ second ∉ exclude ∧ routing.passes second = true :=
      fun keep' ref' second pins₂ hsecond =>
        fresh_sound hL hfloor hpreferred (List.subset_append_left _ _)
          (placed_of_keeps_none (keeps_again keep' hfirst) hsecond)
    split at h
    · cases h
    · rename_i reason hroute
      split at h
      · rename_i second pins₂ hsecond
        obtain ⟨hid, -⟩ := Prod.mk.inj h
        cases hid
        exact hagain persist (mint + 1) _ pins₂ hsecond
      · obtain ⟨hid, -⟩ := Prod.mk.inj h
        split_ifs at hid with hreason
        cases hid
        refine ⟨hrow.1, hrow.2, hserves ?_ ?_ ?_⟩
        · rw [hroute]
          exact fun heq => hreason (PinnedRowRoute.move.inj heq)
        · rw [hroute]
          exact fun heq => by cases heq
        · rw [hroute]
          exact fun heq => by cases heq
    · exact hagain false (mint + 1) id pins' h
    · rename_i hnotnone hnotmove hnotdetour
      obtain ⟨hid, -⟩ := Prod.mk.inj h
      cases hid
      exact ⟨hrow.1, hrow.2, hserves (hnotmove .killswitch) hnotdetour hnotnone⟩

/-- A choice that is not to persist leaves the pins as they are. -/
theorem chooseSticky_pins {mint : ℕ} :
    (chooseSticky L P roll routing sessionId exclude false pins mint preferred).2 = pins := by
  generalize h : chooseSticky L P roll routing sessionId exclude false pins mint preferred = chosen
  obtain ⟨result, pins'⟩ := chosen
  change pins' = pins
  unfold chooseSticky at h
  split at h
  · rename_i pins₁ hfirst
    exact (Prod.mk.inj h).2 ▸ placed_pins hfirst
  · rename_i first pins₁ hfirst
    obtain rfl := placed_pins hfirst
    split at h
    · exact (Prod.mk.inj h).2.symm
    · split at h
      · rename_i hsecond
        obtain ⟨-, rfl⟩ := Prod.mk.inj h
        exact placed_pins hsecond
      · rename_i hsecond
        obtain ⟨-, rfl⟩ := Prod.mk.inj h
        exact placed_pins hsecond
    · exact placed_pins h
    · exact (Prod.mk.inj h).2.symm

end Sticky

end OpenCode2
