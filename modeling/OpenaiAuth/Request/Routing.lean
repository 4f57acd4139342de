import OpenaiAuth.Request.Killswitch
import OpenaiAuth.Sidebar.Placement

/-! # Routing over the account pool

Which rows may serve a request and in what order. The pool's routing library is
a parameter, `Library`; what it is relied on for is stated where it is used.
Over its results lie the rules the library has no input for: the last path to
rows known to be exhausted, the no-replay gate and the prepaid-credits tier.

Main results: `planOrdered_floor`, `selectStickyRow_floor` and
`routePinnedRow_floor`, none of these leads to a row below its killswitch floor.
-/

namespace Request.Pool

open Sidebar Sidebar.Placement

/-! ## The routing library -/

structure QuotaLimit where
  label : String
  isReading : Bool := true
  usedPercent : Option ℚ
  checkedAt : ℚ
  resetsAt : Option String := none
  windowMinutes : Option ℚ := none
deriving DecidableEq, Repr

structure QuotaCredits where
  hasCredits : Bool
  unlimited : Bool
  balance : Option ℚ := none
  overageLimitReached : Option Bool := none
  checkedAt : ℚ
deriving DecidableEq, Repr

/-- `credits` is `none` also where the record is malformed. -/
structure ProjectedQuota where
  limits : List QuotaLimit := []
  checkedAt : Option ℚ := none
  credits : Option QuotaCredits := none
deriving DecidableEq, Repr

inductive RowKind where
  | oauth
  | apiKey
deriving DecidableEq, Repr

/-- `quota` is `none` where the row has no well-formed quota map. -/
structure RoutingRow (Map : Type) where
  id : String
  kind : RowKind
  quota : Option Map

structure AdmittedRow where
  id : String
  lastPath : Bool := false
  projection : Option ProjectedQuota := none
deriving DecidableEq, Repr

inductive RefusalReason where
  | exhausted
  | budgetSpent
  | quotaUnknown
deriving DecidableEq, Repr

structure AdmissionRefusal where
  id : String
  reason : RefusalReason
  resetAtMs : Option ℚ := none
deriving DecidableEq, Repr

inductive ExclusionReason where
  | rateLimited
  | noCredential
deriving DecidableEq, Repr

structure AdmissionExclusion where
  id : String
  reason : ExclusionReason
  «until» : ℚ
deriving DecidableEq, Repr

structure AdmissionResult where
  admitted : List AdmittedRow := []
  refused : List AdmissionRefusal := []
  excluded : List AdmissionExclusion := []
deriving DecidableEq, Repr

inductive OrderedPlacement where
  | roster
  | mainFirst
  | fallbackFirst
deriving DecidableEq, Repr

structure OrderedRoute where
  order : List String
  admission : AdmissionResult
deriving DecidableEq, Repr

inductive StickySource where
  | pin
  | weighted
  | modeFallback
deriving DecidableEq, Repr

/-- `assigns`: the session is pinned to the row anew. -/
structure StickyDispatch where
  accountId : String
  source : StickySource
  quotaCheckedAt : Option ℚ := none
  assigns : Bool := false
deriving DecidableEq, Repr

structure StickyRoute where
  dispatch : Option StickyDispatch
  admission : AdmissionResult
deriving DecidableEq, Repr

/-- `killswitch`: `some false` for a row below its floor. -/
structure PoolRoutingInput (Map : Type) where
  rows : List (RoutingRow Map)
  now : ℚ
  rateLimitMarks : String → Option ℚ
  refreshBackoff : String → Option ℚ
  killswitch : String → Option Bool

structure StickyRouteOptions where
  requestBytes : ℚ
  reservePercent : String → Floors
  resetCredits : String → Option ℚ

structure OrderedAttempt where
  id : String
  status : Nat
deriving DecidableEq, Repr

/-- What `@cortexkit/common-auth` decides. `rows` are passed beside the input
they may be a part of. -/
structure Library (Map : Type) where
  projectQuota : Option Map → ProjectedQuota
  /-- Whether the map's projection names the reset of a spent budget. -/
  budgetExhaustedResetAt : Option Map → ℚ → Bool
  quotaStalenessMs : ℚ
  admitRows : List (RoutingRow Map) → PoolRoutingInput Map → AdmissionResult
  routeOrdered : PoolRoutingInput Map → OrderedPlacement → String → OrderedRoute
  orderForPlacement : List String → OrderedPlacement → String → List String
  routeSticky : List (RoutingRow Map) → PoolRoutingInput Map → StickyRouteOptions →
    Option String → (String → ℚ) → StickyRoute
  /-- Whether a session must leave its row. -/
  decideStickyBreak : Option ProjectedQuota → ℚ → Option Nat → Option Bool → Bool
  nextOrderedAttempt : List String → List OrderedAttempt → List Nat → Option String

/-! ## The killswitch over the pool -/

/-- Row of the local main account. -/
def formerMainId : String := "main"

variable {Map : Type} (L : Library Map)

/-- A window as `windowsFromQuotaMap` reads it. -/
def windowOfLimit (limit : QuotaLimit) : Option QuotaWindow :=
  limit.usedPercent.map fun usedPercent =>
    { usedPercent
      remainingPercent := 100 - usedPercent
      checkedAt := some limit.checkedAt
      resetsAt := limit.resetsAt
      windowMinutes := limit.windowMinutes }

def windowOf (projection : ProjectedQuota) (label : String) : Option QuotaWindow :=
  (projection.limits.find? fun limit => limit.label = label && limit.isReading).bind windowOfLimit

def windowsFromQuotaMap (map : Option Map) : Option AccountQuota :=
  map.bind fun map =>
    let projection := L.projectQuota (some map)
    let primary := windowOf projection "primary"
    let secondary := windowOf projection "secondary"
    if primary.isSome || secondary.isSome then some { primary, secondary } else none

section Verdicts

variable (dateParse : String → Option ℚ)

/-- The killswitch on one row. Row `main` has the main account's floors. -/
def rowPasses (storage : Option AccountStorage) (now : ℚ) (row : RoutingRow Map) : Bool :=
  killswitchPassesPolicy dateParse (windowsFromQuotaMap L row.quota) storage
    (if row.id = formerMainId then none else some row.id) now

/-- The later of two rows of one id overwrites the verdict. -/
def poolKillswitchVerdicts (accounts : List (RoutingRow Map)) (storage : Option AccountStorage)
    (now : ℚ) (id : String) : Option Bool :=
  if isKillswitchEnabled storage then
    (accounts.reverse.find? fun account => account.id = id).map
      (rowPasses L dateParse storage now)
  else none

end Verdicts

/-- The row is not below its floor. -/
def PoolRoutingInput.passes (input : PoolRoutingInput Map) (id : String) : Bool :=
  input.killswitch id ≠ some false

/-! ## The ordered modes -/

inductive PoolBlockReason where
  | killswitch
  | midStreamRateLimit
  | quotaExhausted
  | quotaUnknown
  | noCredential
deriving DecidableEq, Repr

structure PoolBlock where
  reason : PoolBlockReason
  resetAtMs : Option ℚ := none
deriving DecidableEq, Repr

inductive OrderedPlan where
  | send (order : List String) (lastPath : Bool)
  | block (block : PoolBlock)
deriving DecidableEq, Repr

def isConfirmedExhaustion (refusal : AdmissionRefusal) : Bool :=
  refusal.reason = .exhausted || refusal.reason = .budgetSpent

def creditsUsable (credits : Option QuotaCredits) (now : ℚ) : Bool :=
  match credits with
  | none => false
  | some record =>
      decide (now - record.checkedAt ≤ L.quotaStalenessMs) &&
        record.overageLimitReached ≠ some true &&
        (record.unlimited || (record.hasCredits && record.balance.all (0 < ·)))

/-- The rows with free quota, and those that can serve only on prepaid credits. -/
structure CreditsTiers where
  free : List String
  credits : List String
deriving DecidableEq, Repr

def creditsTiers (rows : List (RoutingRow Map)) (input : PoolRoutingInput Map)
    (admission : AdmissionResult) : CreditsTiers where
  free := (admission.admitted.filter fun row => !row.lastPath && input.passes row.id).map (·.id)
  credits := (rows.filter fun row =>
    row.kind = .oauth && input.passes row.id &&
      ((admission.refused.reverse.find? fun refusal => refusal.id = row.id).map (·.reason) =
        some .exhausted) &&
      !L.budgetExhaustedResetAt row.quota input.now &&
      creditsUsable L (L.projectQuota row.quota).credits input.now).map (·.id)

/-- Why one row cannot serve. -/
def blockFor (id : Option String) (admission : AdmissionResult)
    (killswitch : String → Option Bool) : PoolBlock :=
  match id with
  | none => { reason := .noCredential }
  | some id =>
      if killswitch id = some false then { reason := .killswitch }
      else
        match admission.excluded.find? fun entry => entry.id = id with
        | some exclusion =>
            match exclusion.reason with
            | .rateLimited =>
                { reason := .midStreamRateLimit, resetAtMs := some exclusion.«until» }
            | .noCredential => { reason := .noCredential }
        | none =>
            match admission.refused.find? fun entry => entry.id = id with
            | none => { reason := .noCredential }
            | some refusal =>
                match refusal.resetAtMs with
                | some resetAtMs => { reason := .quotaExhausted, resetAtMs := some resetAtMs }
                | none => { reason := .quotaUnknown }

/-- A row waiting for its first reading is named before the first row in order. -/
def routeBlock (ids : List String) (admission : AdmissionResult)
    (killswitch : String → Option Bool) : PoolBlock :=
  if admission.refused.any fun refusal =>
      !isConfirmedExhaustion refusal && killswitch refusal.id ≠ some false then
    { reason := .quotaUnknown }
  else blockFor ids.head? admission killswitch

/-- No `mainId` is row `main`, and `some none` no main at all. -/
def planOrdered (input : PoolRoutingInput Map) (placement : OrderedPlacement)
    (mainId : Option (Option String)) (replayable : Bool) : OrderedPlan :=
  let mainId := (mainId.map (·.getD "")).getD formerMainId
  let placement := if replayable then placement else .mainFirst
  let route := L.routeOrdered input placement mainId
  let ids := L.orderForPlacement (input.rows.map (·.id)) placement mainId
  let confirmed := (route.admission.refused.filter fun refusal =>
    isConfirmedExhaustion refusal && input.passes refusal.id).map (·.id)
  let lastPath := ids.filter (· ∈ confirmed)
  let tiers := creditsTiers L input.rows input route.admission
  let free := route.order.filter (· ∈ tiers.free)
  let credits := ids.filter (· ∈ tiers.credits)
  if !replayable then
    let target := if mainId ∈ ids then some mainId
      else ((free.head?.or credits.head?).or route.order.head?).or lastPath.head?
    match target with
    | some target =>
        if target ∈ route.order then .send [target] false
        else if target ∈ credits then .send [target] false
        else if target ∈ confirmed then .send [target] true
        else if mainId ∈ ids then .block (blockFor (some mainId) route.admission input.killswitch)
        else .block (routeBlock ids route.admission input.killswitch)
    | none => .block (routeBlock ids route.admission input.killswitch)
  else if free ≠ [] then .send free false
  else if credits ≠ [] then
    let rest := if route.order ≠ [] then route.order else lastPath
    .send (credits ++ rest.filter (· ∉ credits)) false
  else if route.order ≠ [] then .send route.order false
  else if lastPath ≠ [] then .send lastPath true
  else .block (routeBlock ids route.admission input.killswitch)

/-! ## Sticky sessions -/

/-- Each row's quota as admission projected it, and the rows a mark or a refresh
backoff keeps from this request. -/
structure StickyAdmission where
  projections : String → Option ProjectedQuota
  excluded : List String

def admitSticky (input : PoolRoutingInput Map) : StickyAdmission :=
  let admission := L.admitRows input.rows input
  { projections := fun id =>
      ((admission.admitted.reverse.find? fun row =>
          row.id = id && row.projection.isSome).bind (·.projection)).or
        ((input.rows.reverse.find? fun row => row.id = id).map fun row =>
          L.projectQuota row.quota)
    excluded := admission.excluded.map (·.id) }

def routePoolSticky (input : PoolRoutingInput Map) (options : StickyRouteOptions)
    (pin : Option String) (exclude : List String) (pendingBytes : String → ℚ) : StickyRoute :=
  L.routeSticky (input.rows.filter fun row => row.id ∉ exclude) input options pin pendingBytes

/-- Places a session that holds no usable pin. -/
def selectStickyRow (input : PoolRoutingInput Map) (options : StickyRouteOptions)
    (exclude : List String) (pendingBytes : String → ℚ) : Option Choice :=
  let route := routePoolSticky L input options none exclude pendingBytes
  let rows := input.rows.filter fun row => row.id ∉ exclude
  let tiers := creditsTiers L rows input route.admission
  -- with no pin passed in, the library never dispatches by pin
  let selected := (route.dispatch.filter fun dispatch => dispatch.source ≠ .pin).map
    fun dispatch => Choice.mk dispatch.accountId dispatch.quotaCheckedAt
  if selected.any fun selected => selected.accountId ∈ tiers.free then selected
  else
    match tiers.credits with
    | [] => selected
    | credits :: _ =>
        some ⟨credits, (L.projectQuota
          ((rows.find? fun row => row.id = credits).bind (·.quota))).checkedAt⟩

inductive MoveReason where
  | killswitch
  | exhausted
deriving DecidableEq, Repr

/-- What a session pinned to a row does with a request. -/
inductive PinnedRowRoute where
  | serve
  | move (reason : MoveReason)
  | detour
  | lastPath
  | none
deriving DecidableEq, Repr

def routePinnedRow (input : PoolRoutingInput Map) (options : StickyRouteOptions) (id : String) :
    PinnedRowRoute :=
  let killed := !input.passes id
  let move := PinnedRowRoute.move (if killed then .killswitch else .exhausted)
  let route := routePoolSticky L input options (some id) [] fun _ => 0
  let tiers := creditsTiers L input.rows input route.admission
  let onCredits := id ∈ tiers.credits
  let othersOnCredits := tiers.credits.any (· ≠ id)
  match route.dispatch with
  | some dispatch =>
      let toLastPath := dispatch.accountId ∉ tiers.free
      if dispatch.assigns then
        if toLastPath ∧ onCredits then .serve else move
      else if dispatch.accountId ≠ id then .detour
      else if toLastPath ∧ othersOnCredits then move
      else .serve
  | none =>
      let refusal := route.admission.refused.find? fun entry => entry.id = id
      let confirmed := killed || refusal.any isConfirmedExhaustion
      if onCredits then .serve
      else if othersOnCredits then if confirmed then move else .detour
      else if !killed && refusal.any isConfirmedExhaustion then .lastPath
      else .none

/-- Whether a sticky session must leave row `id`, judged on its current quota. -/
def stickyBreak (input : PoolRoutingInput Map) (sticky : StickyAdmission) (id : String)
    (status : Option Nat) : Bool :=
  L.decideStickyBreak (sticky.projections id) input.now status (input.killswitch id)

/-! ## The floor -/

/-- What the library is relied on for: it routes no request to a row below its
killswitch floor. -/
structure KeepsFloor (L : Library Map) : Prop where
  ordered : ∀ input placement mainId, ∀ id ∈ (L.routeOrdered input placement mainId).order,
    input.passes id = true
  sticky : ∀ rows input options pin pendingBytes dispatch,
    (L.routeSticky rows input options pin pendingBytes).dispatch = some dispatch →
      input.passes dispatch.accountId = true

variable {L} {input : PoolRoutingInput Map} {options : StickyRouteOptions}

theorem credits_pass {rows : List (RoutingRow Map)} {admission : AdmissionResult} {id : String}
    (h : id ∈ (creditsTiers L rows input admission).credits) : input.passes id = true := by
  obtain ⟨row, hrow, rfl⟩ := List.mem_map.mp h
  have hkept := (List.mem_filter.mp hrow).2
  simp only [Bool.and_eq_true] at hkept
  exact hkept.1.1.1.2

/-- Every account a plan would send to passes, whatever its tier. -/
theorem planOrdered_floor (hL : KeepsFloor L) {placement : OrderedPlacement}
    {mainId : Option (Option String)} {replayable lastPath : Bool} {order : List String}
    (h : planOrdered L input placement mainId replayable = .send order lastPath) :
    ∀ id ∈ order, input.passes id = true := by
  unfold planOrdered at h
  simp only at h
  generalize (mainId.map (·.getD "")).getD formerMainId = main at h
  generalize (if replayable = true then placement else .mainFirst) = placed at h
  generalize hroute : L.routeOrdered input placed main = route at h
  generalize L.orderForPlacement (input.rows.map (·.id)) placed main = ids at h
  have hordered : ∀ id ∈ route.order, input.passes id = true := by
    rw [← hroute]
    exact hL.ordered input placed main
  have hconfirmed : ∀ id ∈ (route.admission.refused.filter fun refusal =>
      isConfirmedExhaustion refusal && input.passes refusal.id).map (·.id),
      input.passes id = true := by
    intro id hid
    obtain ⟨refusal, hrefusal, rfl⟩ := List.mem_map.mp hid
    exact (Bool.and_eq_true_iff.mp (List.mem_filter.mp hrefusal).2).2
  have hcredits : ∀ id ∈ ids.filter
      (· ∈ (creditsTiers L input.rows input route.admission).credits), input.passes id = true := by
    intro id hid
    exact credits_pass (of_decide_eq_true (List.mem_filter.mp hid).2)
  have hlast : ∀ id ∈ ids.filter (· ∈ (route.admission.refused.filter fun refusal =>
      isConfirmedExhaustion refusal && input.passes refusal.id).map (·.id)),
      input.passes id = true := by
    intro id hid
    exact hconfirmed id (of_decide_eq_true (List.mem_filter.mp hid).2)
  split at h
  · -- one account only, from whichever tier it is
    split at h
    · rename_i target _
      split at h
      · rename_i hmem
        cases h
        simpa using hordered target hmem
      · split at h
        · rename_i hmem
          cases h
          simpa using hcredits target hmem
        · split at h
          · rename_i hmem
            cases h
            simpa using hconfirmed target hmem
          · split at h <;> cases h
    · cases h
  · split at h
    · cases h
      intro id hid
      exact hordered id (List.mem_filter.mp hid).1
    · split at h
      · cases h
        intro id hid
        rcases List.mem_append.mp hid with hid | hid
        · exact hcredits id hid
        · have hrest := (List.mem_filter.mp hid).1
          split at hrest
          · exact hordered id hrest
          · exact hlast id hrest
      · split at h
        · cases h
          exact hordered
        · split at h
          · cases h
            exact hlast
          · cases h

/-- A plan for a request that cannot be replayed names one account. -/
theorem planOrdered_single {placement : OrderedPlacement} {mainId : Option (Option String)}
    {lastPath : Bool} {order : List String}
    (h : planOrdered L input placement mainId false = .send order lastPath) :
    ∃ id, order = [id] := by
  unfold planOrdered at h
  simp only [Bool.not_false, if_true] at h
  generalize (mainId.map (·.getD "")).getD formerMainId = main at h
  generalize L.routeOrdered input _ main = route at h
  generalize L.orderForPlacement (input.rows.map (·.id)) _ main = ids at h
  split at h
  · rename_i target _
    split at h
    · cases h
      exact ⟨target, rfl⟩
    · split at h
      · cases h
        exact ⟨target, rfl⟩
      · split at h
        · cases h
          exact ⟨target, rfl⟩
        · split at h <;> cases h
  · cases h

/-- A session is placed afresh only on a row that passes. -/
theorem selectStickyRow_floor (hL : KeepsFloor L) {exclude : List String}
    {pendingBytes : String → ℚ} {choice : Choice}
    (h : selectStickyRow L input options exclude pendingBytes = some choice) :
    input.passes choice.accountId = true := by
  unfold selectStickyRow at h
  simp only at h
  generalize hroute : routePoolSticky L input options none exclude pendingBytes = route at h
  have hselected : ∀ selected, (route.dispatch.filter fun dispatch => dispatch.source ≠ .pin).map
      (fun dispatch => Choice.mk dispatch.accountId dispatch.quotaCheckedAt) = some selected →
      input.passes selected.accountId = true := by
    intro selected hsome
    obtain ⟨dispatch, hdispatch, rfl⟩ := Option.map_eq_some_iff.mp hsome
    have hsome := (Option.filter_eq_some_iff.mp hdispatch).1
    rw [← hroute] at hsome
    exact hL.sticky _ input options none pendingBytes dispatch hsome
  split at h
  · exact hselected choice h
  · split at h
    · exact hselected choice h
    · rename_i credits rest hcredits
      cases h
      exact credits_pass (L := L) (hcredits ▸ List.mem_cons_self)

/-- A session leaves a row below its floor, or is not served by pin at all. -/
theorem routePinnedRow_floor (hL : KeepsFloor L) {id : String} (h : input.passes id = false) :
    routePinnedRow L input options id = .move .killswitch ∨
      routePinnedRow L input options id = .detour ∨ routePinnedRow L input options id = .none := by
  have hcredits : ∀ rows admission, id ∉ (creditsTiers L rows input admission).credits := by
    intro rows admission hmem
    rw [credits_pass hmem] at h
    cases h
  unfold routePinnedRow
  simp only [h, Bool.not_false, if_true, hcredits, and_false, if_false, Bool.true_or,
    Bool.not_true, Bool.false_and, Bool.false_eq_true]
  split
  · rename_i dispatch hdispatch
    split
    · exact .inl rfl
    · split
      · exact .inr (.inl rfl)
      · -- the library would dispatch to the killed row itself
        rename_i hsame
        have hpasses := hL.sticky _ input options (some id) _ dispatch hdispatch
        rw [not_not.mp hsame, h] at hpasses
        cases hpasses
  · split
    · exact .inl rfl
    · exact .inr (.inr rfl)

end Request.Pool
