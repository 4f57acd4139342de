import OpenaiAuth.Js.Text
import OpenaiAuth.Request.Killswitch

/-! # The quota cache

`QuotaManager` caches the quota of the main account and of each fallback, fetches
it behind one serial gate, and keeps the marks of accounts that a stream reported
as rate limited. `tokenFingerprint` stands for the truncated hash of a token and
`dateParse` for `Date.parse`; the time gap between two API calls is left out.
-/

namespace Quota

open Sidebar Request Js

/-! ## Data -/

/-- The account a snapshot was read of is `accountId`, where it is known. -/
structure QuotaEntry extends Request.QuotaEntry where
  refreshAfter : ℚ
deriving DecidableEq, Repr

structure AccountOperationError where
  message : String
  checkedAt : ℚ
  nextRetryAt : Option ℚ := none
  retryCount : Option ℕ := none
deriving DecidableEq, Repr

/-- `5h` and `1w` are the older names of the two windows. -/
structure MinimumRemaining where
  primary : Option ℚ := none
  secondary : Option ℚ := none
  fiveHours : Option ℚ := none
  oneWeek : Option ℚ := none
deriving DecidableEq, Repr

structure QuotaConfig where
  enabled : Option Bool := none
  checkIntervalMinutes : Option ℚ := none
  minimumRemaining : MinimumRemaining := {}
  mainQuota : Option AccountQuota := none
  mainQuotaCheckedAt : Option ℚ := none
  mainQuotaToken : Option String := none
  mainLastQuotaApiError : Option AccountOperationError := none
deriving DecidableEq, Repr

structure AccountStorage where
  quota : Option QuotaConfig := none
  mainAccountId : Option String := none
deriving DecidableEq, Repr

structure OAuthAccount where
  id : String
  enabled : Option Bool := none
  access : Option String := none
  accountId : Option String := none
  quota : Option AccountQuota := none
deriving DecidableEq, Repr

/-- A value that is there and not empty. -/
def truthy (text : Option String) : Option String := text.filter (· ≠ "")

/-! ## Schedules -/

def getQuotaCheckIntervalMs (storage : Option AccountStorage) : ℚ :=
  max 1 (((storage.bind (·.quota)).bind (·.checkIntervalMinutes)).getD 5) * 60000

def quotaEnabled (storage : Option AccountStorage) : Bool :=
  ((storage.bind (·.quota)).bind (·.enabled)).getD true

def normalizeThresholds (storage : Option AccountStorage) : Floors :=
  let configured := ((storage.bind (·.quota)).map (·.minimumRemaining)).getD {}
  { primary := (configured.primary.or configured.fiveHours).getD 15
    secondary := (configured.secondary.or configured.oneWeek).getD 10 }

section Dates

variable (dateParse : String → Option ℚ)

/-- When the windows below their threshold reset; `none` when one of them has no
reset to come. -/
def blockedResetTimes (now : ℚ) : List (Option QuotaWindow × ℚ) → Option (List ℚ)
  | [] => some []
  | (none, _) :: rest => blockedResetTimes now rest
  | (some window, threshold) :: rest =>
      if threshold ≤ window.remainingPercent then blockedResetTimes now rest
      else ((truthy window.resetsAt).bind dateParse).bind fun resetTime =>
        if resetTime ≤ now then none else (blockedResetTimes now rest).map (resetTime :: ·)

def getQuotaNextRefreshAt (quota : AccountQuota) (storage : Option AccountStorage) (now : ℚ) : ℚ :=
  let thresholds := normalizeThresholds storage
  if !quotaEnabled storage then now + getQuotaCheckIntervalMs storage
  else
    match blockedResetTimes dateParse now
        [(quota.primary, thresholds.primary), (quota.secondary, thresholds.secondary)] with
    | some (resetTime :: rest) => rest.foldl min resetTime + 60000
    | _ => now + getQuotaCheckIntervalMs storage

end Dates

def hasAnyQuotaWindow (quota : AccountQuota) : Bool :=
  quota.primary.isSome || quota.secondary.isSome

/-- A window is there, and none that is there is used up. -/
def quotaLooksHealthy (quota : AccountQuota) : Bool :=
  hasAnyQuotaWindow quota && quota.primary.all (fun window => window.usedPercent < 100) &&
    quota.secondary.all fun window => window.usedPercent < 100

/-! ## Errors of the quota API -/

structure QuotaError where
  /-- As `formatErrorMessage` has it. -/
  message : String
  /-- Whether it is an `Error`, with its name and code. -/
  isError : Bool := true
  name : String := "Error"
  code : Option String := none
  status : Option ℚ := none
  retryAfter : Option ℚ := none
deriving DecidableEq, Repr

def isTransientQuotaError (error : QuotaError) : Bool :=
  match error.status with
  | some status => status = 429 || 500 ≤ status
  | none =>
      error.isError &&
        (error.name = "AbortError" || error.name = "TimeoutError" ||
          Units.includes (Units.of error.message) (Units.of "fetch failed") ||
          error.code.any fun code => code = "ECONNRESET" || code = "ECONNREFUSED" ||
            code = "ETIMEDOUT" || code = "UND_ERR_CONNECT_TIMEOUT")

def buildQuotaOperationError (error : QuotaError) (now : ℚ)
    (previous : Option AccountOperationError) : AccountOperationError :=
  let retryCount := ((previous.bind (·.retryCount)).getD 0) + 1
  let delay : ℚ :=
    match error.retryAfter.filter (0 < ·) with
    | some retryAfter => retryAfter * 1000
    | none =>
        if isTransientQuotaError error then min (15 * 60000) (60000 * 2 ^ min (retryCount - 1) 6)
        else 5 * 60000
  { message := error.message
    checkedAt := now
    nextRetryAt := some (now + delay)
    retryCount := some retryCount }

def quotaBackoffActive (error : Option AccountOperationError) (now : ℚ) : Bool :=
  ((error.bind (·.nextRetryAt)).filter (· ≠ 0)).any (now < ·)

def rateLimitedError : QuotaError where
  message := "Quota API rate-limited — try again later"

def inProgressError : QuotaError where
  message := "Quota refresh is already in progress"

/-! ## The manager -/

/-- A fetch in the gate, with the token it was started with. -/
inductive Fetch
  | main (accessToken : String)
  | fallback (accountId accessToken : String)
deriving DecidableEq, Repr

/-- What the fetch at the head of the gate awaits; `failure` is the error it has
already met. -/
inductive Stage
  | locking
  | fetching
  | releasing (failure : Option QuotaError)
deriving DecidableEq, Repr

structure QuotaManager where
  main : Option QuotaEntry := none
  mainTokenFp : Option String := none
  mainQuotaAccountId : Option String := none
  fallbacks : Table QuotaEntry := .empty
  fallbackTokenFps : Table String := .empty
  /-- The fingerprint a main fetch is in flight for. -/
  inflightMainFp : Option String := none
  /-- The accounts and fingerprints that fallback fetches are in flight for. -/
  inflightFallbacks : List (String × String) := []
  mainLastApiError : Option AccountOperationError := none
  fallbackApiErrors : Table AccountOperationError := .empty
  fallbackErrorTokenFps : Table String := .empty
  rateLimitedUntilMap : Table ℚ := .empty
  /-- The fetches that wait at the gate, and the one inside. -/
  apiGate : List Fetch := []
  running : Option (Fetch × Stage) := none
  storage : Option AccountStorage := none

namespace QuotaManager

/-! ### Marks -/

/-- Keeps the later reset. -/
def markRateLimited (manager : QuotaManager) (accountId : String) (resetAtMs : ℚ) : QuotaManager :=
  if (manager.rateLimitedUntilMap.get accountId).any (resetAtMs < ·) then manager
  else { manager with rateLimitedUntilMap := manager.rateLimitedUntilMap.set accountId resetAtMs }

def clearRateLimited (manager : QuotaManager) (accountId : String) : QuotaManager :=
  { manager with rateLimitedUntilMap := manager.rateLimitedUntilMap.delete accountId }

def rateLimitedUntil (manager : QuotaManager) (accountId : String) : Option ℚ :=
  manager.rateLimitedUntilMap.get accountId

def isRateLimited (manager : QuotaManager) (accountId : String) (now : ℚ) : Bool :=
  (manager.rateLimitedUntil accountId).any (now < ·)

/-! ### Reads -/

/-- What policy decisions read of the cache. -/
def policyView (manager : QuotaManager) : Request.QuotaManager where
  main := manager.main.map (·.toQuotaEntry)
  mainQuotaAccountId := manager.mainQuotaAccountId
  fallbacks := manager.fallbacks.map (·.toQuotaEntry)
  rateLimitedUntil := manager.rateLimitedUntilMap

def peekMainForPolicy (manager : QuotaManager) (accountId : Option String) : Option QuotaEntry :=
  if differentIdentity accountId manager.mainQuotaAccountId then none else manager.main

def peekFallbackForPolicy (manager : QuotaManager) (accountId : String)
    (identity : Option String) : Option QuotaEntry :=
  (manager.fallbacks.get accountId).filter fun entry => !differentIdentity identity entry.accountId

theorem peekMain_policyView (manager : QuotaManager) (accountId : Option String) :
    manager.policyView.peekMainForPolicy accountId =
      (manager.peekMainForPolicy accountId).map (·.toQuotaEntry) := by
  unfold QuotaManager.peekMainForPolicy Request.QuotaManager.peekMainForPolicy policyView
  split_ifs <;> rfl

theorem peekFallback_policyView (manager : QuotaManager) (accountId : String)
    (identity : Option String) :
    manager.policyView.peekFallbackForPolicy accountId identity =
      (manager.peekFallbackForPolicy accountId identity).map (·.toQuotaEntry) := by
  unfold QuotaManager.peekFallbackForPolicy Request.QuotaManager.peekFallbackForPolicy policyView
  rw [Table.get_map]
  cases manager.fallbacks.get accountId with
  | none => rfl
  | some entry =>
      by_cases h : differentIdentity identity entry.accountId = true <;>
        simp [Option.filter, h]

theorem isRateLimited_policyView (manager : QuotaManager) (accountId : String) (now : ℚ) :
    manager.policyView.isRateLimited now accountId = manager.isRateLimited accountId now := rfl

section Tokens

variable (tokenFingerprint : String → String)

/-- The main entry is dropped when another token produced it. -/
def dropMain (manager : QuotaManager) (fp : String) : QuotaManager :=
  if (truthy manager.mainTokenFp).any (· ≠ fp) then
    { manager with main := none, mainTokenFp := none }
  else manager

def getMain (manager : QuotaManager) (accessToken : Option String) : QuotaManager :=
  match truthy accessToken with
  | none => manager
  | some token => if manager.main.isSome then manager.dropMain (tokenFingerprint token) else manager

def getFallback (manager : QuotaManager) (accountId : String) (accessToken : Option String) :
    QuotaManager × Option QuotaEntry :=
  match truthy accessToken, manager.fallbacks.get accountId with
  | some token, some entry =>
      if manager.fallbackTokenFps.get accountId = some (tokenFingerprint token) then
        (manager, some entry)
      else
        ({ manager with
            fallbacks := manager.fallbacks.delete accountId
            fallbackTokenFps := manager.fallbackTokenFps.delete accountId }, none)
  | _, entry => (manager, entry)

def isBackedOff (manager : QuotaManager) (now : ℚ) : Bool :=
  quotaBackoffActive manager.mainLastApiError now

def isFallbackBackedOff (manager : QuotaManager) (accountId : String) (accessToken : String)
    (now : ℚ) : Bool :=
  (accessToken = "" ||
      manager.fallbackErrorTokenFps.get accountId = some (tokenFingerprint accessToken)) &&
    quotaBackoffActive (manager.fallbackApiErrors.get accountId) now

/-! ### Writes -/

/-- A snapshot without a window replaces the cache only when it is a complete one. -/
def setMain (manager : QuotaManager) (accessToken : String) (entry : QuotaEntry)
    (accountId : Option String) (completeSnapshot : Bool) : QuotaManager :=
  if !completeSnapshot && !hasAnyQuotaWindow entry.quota then manager
  else
    let switched :=
      if differentIdentity manager.mainQuotaAccountId accountId then manager.clearRateLimited "main"
      else manager
    let stored := { switched with
      mainTokenFp := some (tokenFingerprint accessToken)
      mainQuotaAccountId := (truthy accountId).or manager.mainQuotaAccountId
      main := some entry }
    if quotaLooksHealthy entry.quota then stored.clearRateLimited "main" else stored

def setFallback (manager : QuotaManager) (accountId : String) (entry : QuotaEntry)
    (accessToken : Option String) (completeSnapshot : Bool) (identity : Option String) :
    QuotaManager :=
  if !completeSnapshot && !hasAnyQuotaWindow entry.quota then manager
  else
    let previousIdentity := (manager.fallbacks.get accountId).bind (·.accountId)
    let switched :=
      if differentIdentity identity previousIdentity then manager.clearRateLimited accountId
      else manager
    let stored := { switched with
      fallbacks := manager.fallbacks.set accountId
        { entry with accountId := identity.or previousIdentity }
      fallbackTokenFps :=
        match truthy accessToken with
        | some token => manager.fallbackTokenFps.set accountId (tokenFingerprint token)
        | none => manager.fallbackTokenFps.delete accountId }
    if quotaLooksHealthy entry.quota then stored.clearRateLimited accountId else stored

/-! ### Seeds -/

section Dates

variable (dateParse : String → Option ℚ)

structure PersistedMainQuota where
  quota : AccountQuota
  checkedAt : ℚ
  tokenFingerprint : Option String

def getPersistedMainQuota (storage : Option AccountStorage) : Option PersistedMainQuota :=
  (storage.bind (·.quota)).bind fun config => config.mainQuota.bind fun quota =>
    (config.mainQuotaCheckedAt.filter (· ≠ 0)).map fun checkedAt =>
      { quota, checkedAt, tokenFingerprint := config.mainQuotaToken }

/-- A seed is no news when the cache is as new and of the same token. -/
def holdsAsNew (manager : QuotaManager) (checkedAt : ℚ) (accessTokenFp : Option String) : Bool :=
  manager.main.any (fun entry => checkedAt ≤ entry.checkedAt) &&
    (accessTokenFp.isNone || (truthy manager.mainTokenFp).isNone ||
      manager.mainTokenFp = accessTokenFp)

def seedMainFromStorage (manager : QuotaManager) (storage : Option AccountStorage)
    (accessToken : Option String) : QuotaManager :=
  match getPersistedMainQuota storage with
  | none => manager
  | some persisted =>
      let accessTokenFp := (truthy accessToken).map tokenFingerprint
      if accessTokenFp.isSome && (truthy persisted.tokenFingerprint).isSome &&
          persisted.tokenFingerprint ≠ accessTokenFp then manager
      else if manager.holdsAsNew persisted.checkedAt accessTokenFp then manager
      else
        let mainAccountId := storage.bind (·.mainAccountId)
        let switched :=
          if differentIdentity manager.mainQuotaAccountId mainAccountId then
            manager.clearRateLimited "main"
          else manager
        { switched with
          main := some {
            quota := persisted.quota
            checkedAt := persisted.checkedAt
            refreshAfter := getQuotaNextRefreshAt dateParse persisted.quota storage
              persisted.checkedAt }
          mainTokenFp := persisted.tokenFingerprint
          mainQuotaAccountId := (truthy mainAccountId).or manager.mainQuotaAccountId }

def seedMainBackoffFromStorage (manager : QuotaManager) (storage : Option AccountStorage)
    (now : ℚ) : QuotaManager :=
  { manager with
    mainLastApiError := ((storage.bind (·.quota)).bind (·.mainLastQuotaApiError)).filter fun error =>
      quotaBackoffActive (some error) now }

def updateStorage (manager : QuotaManager) (storage : Option AccountStorage) (now : ℚ) :
    QuotaManager :=
  ({ manager with storage := storage }.seedMainFromStorage tokenFingerprint dateParse storage
    none).seedMainBackoffFromStorage storage now

/-- `new QuotaManager` -/
def create (storage : Option AccountStorage) (now : ℚ) : QuotaManager :=
  updateStorage tokenFingerprint dateParse {} storage now

/-- The entry of an account that has quota to seed from. -/
def persistedEntry (manager : QuotaManager) (account : OAuthAccount) : Option QuotaEntry :=
  if account.enabled = some false then none
  else account.quota.bind fun quota =>
    let checkedAt := max ((quota.primary.bind (·.checkedAt)).getD 0)
      ((quota.secondary.bind (·.checkedAt)).getD 0)
    if checkedAt ≤ 0 then none
    else some { quota, checkedAt, refreshAfter := checkedAt + getQuotaCheckIntervalMs manager.storage }

/-- One turn of the loop of `seedFallbacksFromAccounts`. -/
def seedFallback (manager : QuotaManager) (account : OAuthAccount) : QuotaManager :=
  match manager.persistedEntry account with
  | none => manager
  | some entry =>
      let (read, existing) := manager.getFallback tokenFingerprint account.id account.access
      if existing.any fun existing => entry.checkedAt ≤ existing.checkedAt then read
      else read.setFallback tokenFingerprint account.id entry account.access false account.accountId

def seedFallbacksFromAccounts (manager : QuotaManager) (accounts : List OAuthAccount) :
    QuotaManager :=
  accounts.foldl (seedFallback tokenFingerprint) manager

/-! ### Fetches -/

def refreshMain (manager : QuotaManager) (accessToken : String) (now : ℚ) : QuotaManager :=
  let fp := tokenFingerprint accessToken
  let manager := manager.dropMain fp
  if manager.inflightMainFp = some fp then manager
  else if manager.isBackedOff now then manager
  else { manager with inflightMainFp := some fp, apiGate := manager.apiGate ++ [.main accessToken] }

def refreshFallback (manager : QuotaManager) (accountId accessToken : String) (now : ℚ) :
    QuotaManager :=
  let key := (accountId, tokenFingerprint accessToken)
  if key ∈ manager.inflightFallbacks then manager
  else if manager.isFallbackBackedOff tokenFingerprint accountId accessToken now then
    (manager.getFallback tokenFingerprint accountId (some accessToken)).1
  else
    { manager with
      inflightFallbacks := key :: manager.inflightFallbacks
      apiGate := manager.apiGate ++ [.fallback accountId accessToken] }

/-- A 401 arms no backoff. -/
def handleMainFetchError (manager : QuotaManager) (error : QuotaError) (now : ℚ) : QuotaManager :=
  if error.status = some 401 then manager
  else { manager with
    mainLastApiError := some (buildQuotaOperationError error now manager.mainLastApiError) }

def handleFallbackFetchError (manager : QuotaManager) (accountId accessToken : String)
    (error : QuotaError) (now : ℚ) : QuotaManager :=
  let fp := tokenFingerprint accessToken
  let previous :=
    if manager.fallbackErrorTokenFps.get accountId = some fp then
      manager.fallbackApiErrors.get accountId
    else none
  if error.status = some 401 then manager
  else { manager with
    fallbackApiErrors := manager.fallbackApiErrors.set accountId
      (buildQuotaOperationError error now previous)
    fallbackErrorTokenFps := manager.fallbackErrorTokenFps.set accountId fp }

/-- The head of the gate is through: what it had failed with is recorded for a fallback,
and it is no longer in flight. -/
def finish (manager : QuotaManager) (fetch : Fetch) (failure : Option QuotaError) (now : ℚ) :
    QuotaManager :=
  match fetch with
  | .main accessToken =>
      { manager with
        running := none
        inflightMainFp :=
          if manager.inflightMainFp = some (tokenFingerprint accessToken) then none
          else manager.inflightMainFp }
  | .fallback accountId accessToken =>
      let handled := match failure with
        | some error =>
            manager.handleFallbackFetchError tokenFingerprint accountId accessToken error now
        | none => manager
      { handled with
        running := none
        inflightFallbacks :=
          handled.inflightFallbacks.filter (· ≠ (accountId, tokenFingerprint accessToken)) }

/-- The next fetch enters the gate and checks its backoff again. -/
def enterGate (manager : QuotaManager) (now : ℚ) : QuotaManager :=
  match manager.running, manager.apiGate with
  | none, fetch :: rest =>
      let manager := { manager with apiGate := rest, running := some (fetch, .locking) }
      match fetch with
      | .main _ =>
          if manager.isBackedOff now then manager.finish tokenFingerprint fetch none now else manager
      | .fallback accountId accessToken =>
          if manager.isFallbackBackedOff tokenFingerprint accountId accessToken now then
            let (read, cached) := manager.getFallback tokenFingerprint accountId (some accessToken)
            read.finish tokenFingerprint fetch (if cached.isSome then none else some rateLimitedError)
              now
          else manager
  | _, _ => manager

/-- The file lock was taken, was held by another, or failed. -/
def lockAnswer (manager : QuotaManager) (answer : Except QuotaError Bool) (now : ℚ) : QuotaManager :=
  match manager.running with
  | some (fetch, .locking) =>
      match answer, fetch with
      | .ok true, _ => { manager with running := some (fetch, .fetching) }
      | .ok false, .fallback accountId accessToken =>
          let (read, cached) := manager.getFallback tokenFingerprint accountId (some accessToken)
          read.finish tokenFingerprint fetch
            (if cached.any fun cached => now < cached.refreshAfter then none
              else some inProgressError) now
      | .ok false, .main _ => manager.finish tokenFingerprint fetch none now
      | .error error, _ => manager.finish tokenFingerprint fetch (some error) now
  | _ => manager

/-- The quota API answered. -/
def fetchAnswer (manager : QuotaManager) (answer : Except QuotaError AccountQuota) (now : ℚ) :
    QuotaManager :=
  match manager.running with
  | some (.main accessToken, .fetching) =>
      match answer with
      | .ok quota =>
          let stored := { manager with
            mainTokenFp := some (tokenFingerprint accessToken)
            main := some {
              quota
              checkedAt := now
              refreshAfter := getQuotaNextRefreshAt dateParse quota manager.storage now } }
          let healthy := if quotaLooksHealthy quota then stored.clearRateLimited "main" else stored
          { healthy with
            mainLastApiError := none
            running := some (.main accessToken, .releasing none) }
      | .error error =>
          { manager.handleMainFetchError error now with
            running := some (.main accessToken, .releasing none) }
  | some (.fallback accountId accessToken, .fetching) =>
      match answer with
      | .ok quota =>
          let stored := manager.setFallback tokenFingerprint accountId
            { quota
              checkedAt := now
              refreshAfter := now + getQuotaCheckIntervalMs manager.storage }
            (some accessToken) true none
          { stored with
            fallbackApiErrors := stored.fallbackApiErrors.delete accountId
            fallbackErrorTokenFps := stored.fallbackErrorTokenFps.delete accountId
            running := some (.fallback accountId accessToken, .releasing none) }
      | .error error =>
          { manager with running := some (.fallback accountId accessToken, .releasing (some error)) }
  | _ => manager

/-- The file lock was released, or its release failed. -/
def lockReleased (manager : QuotaManager) (failed : Option QuotaError) (now : ℚ) : QuotaManager :=
  match manager.running with
  | some (fetch, .releasing failure) => manager.finish tokenFingerprint fetch (failed.or failure) now
  | _ => manager

end Dates

end Tokens

end QuotaManager

end Quota
