import OpenaiAuth.Sidebar.State

/-! # Killswitch and admission checks

What a request reads of an account's quota before it spends on it: the
killswitch floors, and the windows and budgets known to be exhausted. All of it
is judged on readings already in hand. `dateParse` stands for `Date.parse`,
`none` for `NaN`.
-/

namespace Request

open Sidebar

/-! ## Configuration -/

structure KillswitchThresholds where
  primary : Option ℚ := none
  secondary : Option ℚ := none
  fiveHours : Option ℚ := none
  oneWeek : Option ℚ := none
deriving DecidableEq, Repr

/-- The floors of a killswitch block, in the older vocabulary or the one of
`KILLSWITCH_FLOORS_SCHEMA`. -/
inductive KillswitchRules where
  | thresholds (main : Option KillswitchThresholds) (accounts : Js.Table KillswitchThresholds)
  | floors (defaults : Option KillswitchThresholds) (accounts : Js.Table KillswitchThresholds)

structure KillswitchConfig where
  enabled : Bool
  rules : KillswitchRules

structure FallbackAccount where
  id : String
  enabled : Bool := true
deriving DecidableEq, Repr

structure AccountStorage where
  fallbackOn : List Nat := []
  failClosedOnUnknownQuota : Option Bool := none
  killswitch : Option KillswitchConfig := none
  accounts : List FallbackAccount := []

def poolMainRowId : String := "main"

/-- The storage with the pool's main row left out, for fallback selection. -/
def withoutPoolMainRow (storage : Option AccountStorage) : Option AccountStorage :=
  storage.map fun storage =>
    { storage with accounts := storage.accounts.filter fun account => account.id ≠ poolMainRowId }

def getFallbackStatuses (storage : Option AccountStorage) : List Nat :=
  match storage with
  | some storage => if storage.fallbackOn = [] then [401, 403, 429] else storage.fallbackOn
  | none => [401, 403, 429]

def shouldFallbackStatus (status : Nat) (storage : Option AccountStorage) : Bool :=
  status ∈ getFallbackStatuses storage

def failClosedOnUnknownQuota (storage : Option AccountStorage) : Bool :=
  (storage.bind (·.failClosedOnUnknownQuota)).getD false

/-! ## The killswitch -/

def isKillswitchEnabled (storage : Option AccountStorage) : Bool :=
  ((storage.bind (·.killswitch)).map (·.enabled)).getD false

/-- The floors of the two windows. -/
structure Floors where
  primary : ℚ
  secondary : ℚ
deriving DecidableEq, Repr

def defaultKillswitchThresholds : Floors where
  primary := 5
  secondary := 10

def normalizeKillswitchThresholds (thresholds : Option KillswitchThresholds) : Floors where
  primary := ((thresholds.bind (·.primary)).or (thresholds.bind (·.fiveHours))).getD
    defaultKillswitchThresholds.primary
  secondary := ((thresholds.bind (·.secondary)).or (thresholds.bind (·.oneWeek))).getD
    defaultKillswitchThresholds.secondary

/-- A missing floor is one that no remaining percentage falls below. -/
def floorOf (value : Option ℚ) : ℚ := value.getD 0

/-- No account id names the main account. -/
def getKillswitchThresholdsForAccount (storage : Option AccountStorage)
    (accountId : Option String) : Floors :=
  match storage.bind (·.killswitch) with
  | none => defaultKillswitchThresholds
  | some config =>
      match config.rules with
      | .floors defaults accounts =>
          let own := (accounts.get (accountId.getD "main")).or defaults
          { primary := floorOf (own.bind (·.primary))
            secondary := floorOf (own.bind (·.secondary)) }
      | .thresholds main accounts =>
          match (accountId.filter (· ≠ "")).bind accounts.get with
          | some own => normalizeKillswitchThresholds (some own)
          | none => normalizeKillswitchThresholds main

section Dates

variable (dateParse : String → Option ℚ)

def quotaWindowResetIsPast (window : QuotaWindow) (now : ℚ) : Bool :=
  match window.resetsAt.filter (· ≠ "") with
  | none => false
  | some resetsAt =>
      match dateParse resetsAt with
      | none => false
      | some resetTime => resetTime ≤ now

/-- One window of a quota against its floor. -/
def windowPasses (failClosed : Bool) (floor now : ℚ) (window : Option QuotaWindow) : Bool :=
  match window with
  | none => true
  | some window =>
      if quotaWindowResetIsPast dateParse window now then !failClosed
      else !decide (window.remainingPercent < floor)

def killswitchPassesPolicy (quota : Option AccountQuota) (storage : Option AccountStorage)
    (accountId : Option String) (now : ℚ) : Bool :=
  if !isKillswitchEnabled storage then true
  else
    match quota with
    | none => !failClosedOnUnknownQuota storage
    | some quota =>
        let thresholds := getKillswitchThresholdsForAccount storage accountId
        let failClosed := failClosedOnUnknownQuota storage
        windowPasses dateParse failClosed thresholds.primary now quota.primary &&
          windowPasses dateParse failClosed thresholds.secondary now quota.secondary

/-! ## Exhausted quotas -/

/-- A reset that lies in the future, with its text. -/
structure Reset where
  resetsAt : String
  resetAtMs : ℚ
deriving DecidableEq, Repr

def futureReset (resetsAt : Option String) (now : ℚ) : Option Reset :=
  resetsAt.bind fun resetsAt =>
    (dateParse resetsAt).bind fun resetAtMs =>
      if resetAtMs ≤ now then none else some ⟨resetsAt, resetAtMs⟩

def spendControlExhaustedResetAt (quota : Option AccountQuota) (now : ℚ) : Option Reset :=
  (quota.bind (·.spendControl)).bind fun spendControl =>
    if spendControl.reached then futureReset dateParse spendControl.resetsAt now else none

def exhaustedWindowResetAt (window : Option QuotaWindow) (now : ℚ) : Option Reset :=
  window.bind fun window =>
    if window.usedPercent < 100 then none else futureReset dateParse window.resetsAt now

/-- The earlier of two resets, the first one when they are equal. -/
def earlierReset (earliest next : Option Reset) : Option Reset :=
  match earliest, next with
  | some earliest, some next => some (if next.resetAtMs < earliest.resetAtMs then next else earliest)
  | none, next => next
  | earliest, none => earliest

def exhaustedQuotaResetAt (quota : Option AccountQuota) (now : ℚ) : Option Reset :=
  earlierReset
    (earlierReset (exhaustedWindowResetAt dateParse (quota.bind (·.primary)) now)
      (exhaustedWindowResetAt dateParse (quota.bind (·.secondary)) now))
    (spendControlExhaustedResetAt dateParse quota now)

/-! ## Readings in memory -/

structure QuotaEntry where
  quota : AccountQuota
  checkedAt : ℚ
  accountId : Option String := none
deriving DecidableEq, Repr

/-- The readings one process holds, and its marks of accounts that a stream
reported as rate limited. -/
structure QuotaManager where
  main : Option QuotaEntry := none
  mainQuotaAccountId : Option String := none
  fallbacks : Js.Table QuotaEntry := .empty
  rateLimitedUntil : Js.Table ℚ := .empty

/-- Both identities are known and differ. -/
def differentIdentity (left right : Option String) : Bool :=
  match left.filter (· ≠ ""), right.filter (· ≠ "") with
  | some left, some right => left ≠ right
  | _, _ => false

namespace QuotaManager

def peekMainForPolicy (manager : QuotaManager) (accountId : Option String) : Option QuotaEntry :=
  if differentIdentity accountId manager.mainQuotaAccountId then none else manager.main

def peekFallbackForPolicy (manager : QuotaManager) (accountId : String)
    (identity : Option String) : Option QuotaEntry :=
  (manager.fallbacks.get accountId).filter fun entry => !differentIdentity identity entry.accountId

def isRateLimited (manager : QuotaManager) (now : ℚ) (accountId : String) : Bool :=
  (manager.rateLimitedUntil.get accountId).any (now < ·)

end QuotaManager

/-! ## The fresher of two readings -/

def quotaCheckedAt (quota : Option AccountQuota) (entryCheckedAt : Option ℚ) : Option ℚ :=
  (((quota.bind (·.primary)).bind (·.checkedAt)).or
    ((quota.bind (·.secondary)).bind (·.checkedAt))).or
      ((quota.bind (·.checkedAt)).or entryCheckedAt)

structure FreshestQuota where
  quota : Option AccountQuota
  quotaCheckedAt : Option ℚ
deriving DecidableEq, Repr

/-- The file's reading counts only under the identity the caller acts as, and
only where it is the newer one. -/
def freshestQuotaSnapshot (quota : Option AccountQuota) (entryCheckedAt : Option ℚ)
    (fileQuota : Option AccountQuota) (fileAccountId currentAccountId : Option String) :
    FreshestQuota :=
  let memoryCheckedAt := quotaCheckedAt quota entryCheckedAt
  let fileCheckedAt := quotaCheckedAt fileQuota none
  let fileIsNewer := fileCheckedAt.any fun file =>
    match memoryCheckedAt with
    | none => true
    | some memory => memory < file
  if fileAccountId = currentAccountId && fileQuota.isSome && (quota.isNone || fileIsNewer) then
    ⟨fileQuota, fileCheckedAt⟩
  else ⟨quota, memoryCheckedAt⟩

/-- `none` when the account is not exhausted. -/
def admissionQuotaDecision (memoryEntry : Option QuotaEntry) (fileQuota : Option AccountQuota)
    (now : ℚ) (fileAccountId currentAccountId : Option String) : Option Reset :=
  let freshest := freshestQuotaSnapshot (memoryEntry.map (·.quota)) (memoryEntry.map (·.checkedAt))
    fileQuota fileAccountId currentAccountId
  exhaustedQuotaResetAt dateParse freshest.quota now

end Dates

end Request
