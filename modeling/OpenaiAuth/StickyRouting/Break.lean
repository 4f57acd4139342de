import Mathlib.Tactic.NormNum
import OpenaiAuth.StickyRouting.Select

/-! # Leaving an account

What `decideStickyBreak` and the admission check `exhaustedQuotaResetAt` make of one
snapshot. The break judges a window by what remains of it, whatever its reset says; the
admission check by what is used of it, and only while its reset lies ahead. A credit
budget both judge by `spendControlExhaustedResetAt`.

Main results: `decideStickyBreak_exhausted`, `isSome_exhaustedQuotaResetAt` and
`breaks_like_admission`. `dateParse` stands for `Date.parse`, `none` for `NaN`.
-/

namespace StickyRouting.Break

open Js Number

/-! ## Data -/

inductive QuotaWindowKey where
  | primary
  | secondary
deriving DecidableEq, Repr

/-- A percentage that is missing or not a number is `NaN`; a `resetsAt` that is not a
text is `none`. -/
structure QuotaWindow where
  usedPercent : Number
  remainingPercent : Number
  windowMinutes : Option Number := none
  resetsAt : Option String := none
  checkedAt : Option Number := none
deriving DecidableEq, Repr

structure SpendControlReading where
  remainingPercent : Number
  reached : Bool
  resetsAt : Option String := none
deriving DecidableEq, Repr

structure AccountQuota where
  primary : Option QuotaWindow := none
  secondary : Option QuotaWindow := none
  checkedAt : Option Number := none
  spendControl : Option SpendControlReading := none
deriving DecidableEq, Repr

def QuotaWindow.placed (window : QuotaWindow) : StickyRouting.QuotaWindow where
  remainingPercent := window.remainingPercent
  resetsAt := window.resetsAt
  checkedAt := window.checkedAt

/-- What a placement reads of the snapshot. -/
def AccountQuota.placed (quota : AccountQuota) : StickyRouting.AccountQuota where
  primary := quota.primary.map QuotaWindow.placed
  secondary := quota.secondary.map QuotaWindow.placed
  checkedAt := quota.checkedAt
  spendControl := quota.spendControl.map fun spendControl =>
    ⟨spendControl.remainingPercent, spendControl.resetsAt⟩

def AccountQuota.window (quota : AccountQuota) : QuotaWindowKey → Option QuotaWindow
  | .primary => quota.primary
  | .secondary => quota.secondary

def quotaWindowKeys : List QuotaWindowKey := [.primary, .secondary]

def legacyWindowMinutes : QuotaWindowKey → ℚ
  | .primary => 300
  | .secondary => 10080

structure PresentQuotaWindow where
  key : QuotaWindowKey
  window : QuotaWindow
  windowMs : Number

def getPresentQuotaWindows (quota : AccountQuota) : List PresentQuotaWindow :=
  quotaWindowKeys.filterMap fun key =>
    (quota.window key).map fun window =>
      let configuredMinutes := (window.windowMinutes.bind finite?).filter (0 < ·)
      ⟨key, window, finite (configuredMinutes.getD (legacyWindowMinutes key) * 60000)⟩

/-! ## The exhaustion signals -/

/-- A reset that lies in the future, with its text. -/
structure Reset where
  resetsAt : String
  resetAtMs : ℚ
deriving DecidableEq, Repr

section Dates

variable (dateParse : String → Option ℚ)

def futureReset (resetsAt : Option String) (now : ℚ) : Option Reset :=
  resetsAt.bind fun resetsAt =>
    (dateParse resetsAt).bind fun resetAtMs =>
      if resetAtMs ≤ now then none else some ⟨resetsAt, resetAtMs⟩

def spendControlExhaustedResetAt (quota : Option AccountQuota) (now : ℚ) : Option Reset :=
  (quota.bind (·.spendControl)).bind fun spendControl =>
    if spendControl.reached then futureReset dateParse spendControl.resetsAt now else none

/-- `Number.isFinite(usedPercent) && usedPercent >= 100` -/
def usedUp (window : QuotaWindow) : Bool :=
  window.usedPercent.finite?.any (100 ≤ ·)

def exhaustedWindowResetAt (window : QuotaWindow) (now : ℚ) : Option Reset :=
  if usedUp window then futureReset dateParse window.resetsAt now else none

/-- The earlier of two resets, the first one when they are equal. -/
def earlierReset (earliest next : Option Reset) : Option Reset :=
  match earliest, next with
  | some earliest, some next => some (if next.resetAtMs < earliest.resetAtMs then next else earliest)
  | none, next => next
  | earliest, none => earliest

def exhaustedQuotaResetAt (quota : Option AccountQuota) (now : ℚ) : Option Reset :=
  let earliest := quotaWindowKeys.foldl (fun earliest key =>
    earlierReset earliest ((quota.bind (·.window key)).bind fun window =>
      exhaustedWindowResetAt dateParse window now)) none
  earlierReset earliest (spendControlExhaustedResetAt dateParse quota now)

/-! ## The decision -/

inductive StickyBreakDecision where
  | retainUnknown
  | retainStale
  | retainHealthy
  | retainTransient
  | migratePermanent
  | migrateKillswitch
  | migrateExhausted (windowKey : Option QuotaWindowKey) (resetsAt : Option String)
deriving DecidableEq, Repr

/-- `migrate` for `exhausted` -/
def StickyBreakDecision.exhausted : StickyBreakDecision → Bool
  | migrateExhausted _ _ => true
  | _ => false

structure BreakInput where
  quota : Option AccountQuota
  quotaCheckedAt : Option Number := none
  status : Option Number := none
  now : ℚ
  killswitchPasses : Option Bool := none

/-- The longest window first; windows of no known length last. -/
def compareWindowMs (left right : PresentQuotaWindow) : Ordering :=
  match left.windowMs.finite?, right.windowMs.finite? with
  | some leftMs, some rightMs => compare rightMs leftMs
  | some _, none => .lt
  | none, some _ => .gt
  | none, none => .eq

/-- `Number.isFinite(remainingPercent) && remainingPercent <= 0` -/
def emptied (window : QuotaWindow) : Bool :=
  window.remainingPercent.finite?.any (· ≤ 0)

def statusIsTransient (status : Option Number) : Bool :=
  (status.bind finite?).all fun status =>
    status = 0 || (500 ≤ status && status ≤ 599) || status = 429

def decideStickyBreak (input : BreakInput) : StickyBreakDecision :=
  if input.status = some (finite 401) || input.status = some (finite 403) then .migratePermanent
  else
    match input.quota with
    | none => .retainUnknown
    | some quota =>
        match snapshotCheckedAt (some quota.placed) input.quotaCheckedAt with
        | none => .retainStale
        | some checkedAt =>
            if quotaStalenessMs < input.now - checkedAt then .retainStale
            -- after the check for age, so that no stale reading is held against the account
            else if input.killswitchPasses = some false then .migrateKillswitch
            else
              match (sortBy compareWindowMs (getPresentQuotaWindows quota)).find? fun present =>
                  emptied present.window with
              | some present => .migrateExhausted (some present.key) present.window.resetsAt
              | none =>
                  match spendControlExhaustedResetAt dateParse (some quota) input.now with
                  | some reset => .migrateExhausted none (some reset.resetsAt)
                  | none =>
                      if statusIsTransient input.status then .retainTransient else .retainHealthy

/-! ## What each of them goes by -/

/-- Checked at most `quotaStalenessMs` ago. -/
def Fresh (quota : AccountQuota) (quotaCheckedAt : Option Number) (now : ℚ) : Prop :=
  ∃ checkedAt, snapshotCheckedAt (some quota.placed) quotaCheckedAt = some checkedAt ∧
    now - checkedAt ≤ quotaStalenessMs

variable {dateParse} {quota : AccountQuota} {now : ℚ}

theorem any_getPresentQuotaWindows (spent : QuotaWindow → Bool) :
    (∃ present ∈ getPresentQuotaWindows quota, spent present.window = true) ↔
      ∃ key window, quota.window key = some window ∧ spent window = true := by
  unfold getPresentQuotaWindows
  constructor
  · rintro ⟨present, hmem, hspent⟩
    obtain ⟨key, -, hkey⟩ := List.mem_filterMap.mp hmem
    obtain ⟨window, hwindow, rfl⟩ := Option.map_eq_some_iff.mp hkey
    exact ⟨key, window, hwindow, hspent⟩
  · rintro ⟨key, window, hwindow, hspent⟩
    refine ⟨_, List.mem_filterMap.mpr ⟨key, ?_, by rw [hwindow]; rfl⟩, hspent⟩
    cases key <;> simp [quotaWindowKeys]

/-- The order the windows are tried in does not matter for whether one is found. -/
theorem find?_sortBy_isSome {α : Type} (compare : α → α → Ordering) {items : List α}
    {spent : α → Bool} :
    ((sortBy compare items).find? spent).isSome = true ↔ ∃ item ∈ items, spent item = true := by
  rw [List.find?_isSome]
  have hperm := List.perm_insertionSort (fun left right => (compare left right).isLE = true) items
  constructor
  · rintro ⟨item, hmem, hspent⟩
    exact ⟨item, hperm.mem_iff.mp hmem, hspent⟩
  · rintro ⟨item, hmem, hspent⟩
    exact ⟨item, hperm.mem_iff.mpr hmem, hspent⟩

variable (dateParse) in
theorem decideStickyBreak_exhausted {input : BreakInput} (hquota : input.quota = some quota)
    (hfresh : Fresh quota input.quotaCheckedAt input.now)
    (h401 : input.status ≠ some (finite 401)) (h403 : input.status ≠ some (finite 403))
    (hpasses : input.killswitchPasses ≠ some false) :
    (decideStickyBreak dateParse input).exhausted = true ↔
      (∃ key window, quota.window key = some window ∧ emptied window = true) ∨
        (spendControlExhaustedResetAt dateParse (some quota) input.now).isSome = true := by
  obtain ⟨checkedAt, hchecked, hage⟩ := hfresh
  unfold decideStickyBreak
  rw [if_neg (by simp [h401, h403])]
  simp only [hquota, hchecked]
  rw [if_neg (not_lt.mpr hage), if_neg hpasses, ← any_getPresentQuotaWindows emptied,
    ← find?_sortBy_isSome compareWindowMs]
  split
  · -- an emptied window is enough, whatever its reset
    rename_i present hfind
    simp [hfind, StickyBreakDecision.exhausted]
  · rename_i hfind
    rw [hfind]
    split
    · rename_i reset hreset
      simp [hreset, StickyBreakDecision.exhausted]
    · rename_i hreset
      rw [hreset]
      split <;> simp [StickyBreakDecision.exhausted]

theorem isSome_earlierReset {earliest next : Option Reset} :
    (earlierReset earliest next).isSome = true ↔
      earliest.isSome = true ∨ next.isSome = true := by
  cases earliest <;> cases next <;> simp [earlierReset]

theorem isSome_exhaustedWindowResetAt {window : QuotaWindow} :
    (exhaustedWindowResetAt dateParse window now).isSome = true ↔
      usedUp window = true ∧ (futureReset dateParse window.resetsAt now).isSome = true := by
  unfold exhaustedWindowResetAt
  split
  · rename_i hused
    simp [hused]
  · rename_i hused
    simp [hused]

variable (dateParse quota now) in
theorem isSome_exhaustedQuotaResetAt :
    (exhaustedQuotaResetAt dateParse (some quota) now).isSome = true ↔
      (∃ key window, quota.window key = some window ∧ usedUp window = true ∧
        (futureReset dateParse window.resetsAt now).isSome = true) ∨
        (spendControlExhaustedResetAt dateParse (some quota) now).isSome = true := by
  have axis (key : QuotaWindowKey) :
      (((quota.window key).bind fun window =>
          exhaustedWindowResetAt dateParse window now)).isSome = true ↔
        ∃ window, quota.window key = some window ∧ usedUp window = true ∧
          (futureReset dateParse window.resetsAt now).isSome = true := by
    cases hwindow : quota.window key with
    | none => simp
    | some window => simp [isSome_exhaustedWindowResetAt]
  unfold exhaustedQuotaResetAt
  simp only [quotaWindowKeys, List.foldl_cons, List.foldl_nil, Option.bind_some,
    isSome_earlierReset, axis, Option.isSome_none, Bool.false_eq_true, false_or]
  constructor
  · rintro ((⟨window, h⟩ | ⟨window, h⟩) | h)
    · exact .inl ⟨.primary, window, h⟩
    · exact .inl ⟨.secondary, window, h⟩
    · exact .inr h
  · rintro (⟨key, window, h⟩ | h)
    · cases key with
      | primary => exact .inl (.inl ⟨window, h⟩)
      | secondary => exact .inl (.inr ⟨window, h⟩)
    · exact .inr h

/-! ## The two against each other -/

variable (quota) in
/-- In every window the two percentages say the same about what is left. -/
def ReadingsAgree : Prop :=
  ∀ key window, quota.window key = some window → (emptied window = true ↔ usedUp window = true)

/-- The break and the admission check agree on the budget, and on windows whose reset is
known to lie ahead; a window spent without such a reset moves the pin alone. -/
theorem breaks_like_admission {input : BreakInput} (hquota : input.quota = some quota)
    (hfresh : Fresh quota input.quotaCheckedAt input.now)
    (h401 : input.status ≠ some (finite 401)) (h403 : input.status ≠ some (finite 403))
    (hpasses : input.killswitchPasses ≠ some false) :
    ((decideStickyBreak dateParse input).exhausted = true ↔
      (∃ key window, quota.window key = some window ∧ emptied window = true) ∨
        (spendControlExhaustedResetAt dateParse (some quota) input.now).isSome = true) ∧
    ((exhaustedQuotaResetAt dateParse (some quota) input.now).isSome = true ↔
      (∃ key window, quota.window key = some window ∧ usedUp window = true ∧
        (futureReset dateParse window.resetsAt input.now).isSome = true) ∨
        (spendControlExhaustedResetAt dateParse (some quota) input.now).isSome = true) ∧
    (ReadingsAgree quota →
      ((exhaustedQuotaResetAt dateParse (some quota) input.now).isSome = true →
        (decideStickyBreak dateParse input).exhausted = true) ∧
      (¬((decideStickyBreak dateParse input).exhausted = true ↔
          (exhaustedQuotaResetAt dateParse (some quota) input.now).isSome = true) ↔
        (∃ key window, quota.window key = some window ∧ emptied window = true) ∧
        (∀ key window, quota.window key = some window → emptied window = true →
          futureReset dateParse window.resetsAt input.now = none) ∧
        spendControlExhaustedResetAt dateParse (some quota) input.now = none)) := by
  have hbreak := decideStickyBreak_exhausted dateParse hquota hfresh h401 h403 hpasses
  have hadmission := isSome_exhaustedQuotaResetAt dateParse quota input.now
  refine ⟨hbreak, hadmission, fun hagree => ?_⟩
  have himplies : (exhaustedQuotaResetAt dateParse (some quota) input.now).isSome = true →
      (decideStickyBreak dateParse input).exhausted = true := by
    rw [hbreak, hadmission]
    rintro (⟨key, window, hwindow, hused, -⟩ | hspend)
    · exact .inl ⟨key, window, hwindow, (hagree key window hwindow).mpr hused⟩
    · exact .inr hspend
  refine ⟨himplies, ?_⟩
  constructor
  · intro hne
    -- they can only differ one way round: left, and still admitted
    have hadmits : ¬(exhaustedQuotaResetAt dateParse (some quota) input.now).isSome = true :=
      fun h => hne ⟨fun _ => h, himplies⟩
    have hleft : (decideStickyBreak dateParse input).exhausted = true := by
      by_contra hstays
      exact hne ⟨fun h => absurd h hstays, fun h => absurd h hadmits⟩
    rw [hadmission, not_or] at hadmits
    obtain ⟨hwindows, hspend⟩ := hadmits
    refine ⟨(hbreak.mp hleft).resolve_right hspend, ?_, by simpa using hspend⟩
    intro key window hwindow hempty
    have := fun hfuture => hwindows ⟨key, window, hwindow,
      (hagree key window hwindow).mp hempty, hfuture⟩
    simpa using this
  · rintro ⟨hempty, hlapsed, hspend⟩ hiff
    rcases hadmission.mp (hiff.mp (hbreak.mpr (.inl hempty))) with
      ⟨key, window, hwindow, hused, hfuture⟩ | h
    · rw [hlapsed key window hwindow ((hagree key window hwindow).mpr hused)] at hfuture
      cases hfuture
    · rw [hspend] at h
      cases h

end Dates

/-- A primary window spent by both percentages, its reset not reported. -/
def spentWindow : QuotaWindow where
  usedPercent := finite 100
  remainingPercent := finite 0
  checkedAt := some (finite 0)

def spentInput (status : Option Number) : BreakInput where
  quota := some { primary := some spentWindow }
  status := status
  now := 0

theorem fresh_spentWindow : Fresh { primary := some spentWindow } none 0 :=
  ⟨0, rfl, by norm_num [quotaStalenessMs]⟩

theorem breaks_like_admission_spent :
    ReadingsAgree { primary := some spentWindow } ∧
      ¬((decideStickyBreak (fun _ => none) (spentInput none)).exhausted = true ↔
        (exhaustedQuotaResetAt (fun _ => none) (some { primary := some spentWindow }) 0).isSome =
          true) := by
  have agree : ReadingsAgree { primary := some spentWindow } := by
    intro key window hwindow
    cases key with
    | primary =>
      cases hwindow
      simp [emptied, usedUp, spentWindow, finite?]
    | secondary => cases hwindow
  have hquota : (spentInput none).quota = some { primary := some spentWindow } := rfl
  refine ⟨agree, ((breaks_like_admission hquota fresh_spentWindow (by simp [spentInput])
    (by simp [spentInput]) (by simp [spentInput])).2.2 agree).2.mpr ?_⟩
  refine ⟨⟨.primary, spentWindow, rfl, by simp [emptied, spentWindow, finite?]⟩, ?_, rfl⟩
  intro key window hwindow _
  cases key with
  | primary =>
    cases hwindow
    rfl
  | secondary => cases hwindow

/-- A pin leaves an account that admission does not call exhausted. -/
theorem breaks_without_admission :
    ¬∀ (dateParse : String → Option ℚ) (quota : AccountQuota) (input : BreakInput),
      input.quota = some quota → Fresh quota input.quotaCheckedAt input.now →
      input.status ≠ some (finite 401) → input.status ≠ some (finite 403) →
      input.killswitchPasses ≠ some false →
      ((decideStickyBreak dateParse input).exhausted = true ↔
        (exhaustedQuotaResetAt dateParse (some quota) input.now).isSome = true) := by
  intro h
  have hiff := h (fun _ => none) { primary := some spentWindow } (spentInput (some (finite 400)))
    rfl fresh_spentWindow (by simp [spentInput]) (by simp [spentInput]) (by simp [spentInput])
  rw [decideStickyBreak_exhausted _ rfl fresh_spentWindow (by simp [spentInput])
    (by simp [spentInput]) (by simp [spentInput]), isSome_exhaustedQuotaResetAt] at hiff
  have hempty : emptied spentWindow = true := by simp [emptied, spentWindow, finite?]
  rcases hiff.mp (.inl ⟨.primary, spentWindow, rfl, hempty⟩) with
    ⟨key, window, hwindow, -, hfuture⟩ | hspend
  · cases key with
    | primary =>
      cases hwindow
      cases hfuture
    | secondary => cases hwindow
  · cases hspend

end StickyRouting.Break
