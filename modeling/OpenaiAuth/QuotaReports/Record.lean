import OpenaiAuth.QuotaReports.Decode

/-! # What a report leaves

Response headers and frames are recorded by `recordPushedQuota`, usage polls by
`storeReading`, each into the quota cache, and all of them into the pool by the
observation of their snapshot. `PoolMerge` stands for the merge of an observation into a
row's quota map.

Main result: `quota_reports`.
-/

namespace QuotaReports

open Sidebar Request Js

/-! ## Reports -/

inductive Report where
  | headers (h : Headers)
  | frame (event : Value)
  | usage (json : Value)

namespace Report

/-- A report whose slots are members of a JSON value. -/
def isJson : Report → Bool
  | headers _ => false
  | frame _ | usage _ => true

/-- The value of a slot. -/
def slotValue (slot : Slot) : Report → Option Value
  | headers _ => none
  | frame event => slot.inFrame (some event)
  | usage json => slot.inUsage (some json)

def lengthKey : Report → String
  | headers _ => ""
  | frame _ => "window_minutes"
  | usage _ => "limit_window_seconds"

def perMinute : Report → ℚ
  | usage _ => 60
  | _ => 1

section Decoded

variable (coercions : Coercions)

def snapshot (now : ℚ) : Report → Option Snapshot
  | headers h => some (normalizeQuotaHeaders coercions h now)
  | frame event => some (normalizeWsFrame coercions event now)
  | usage json => normalizeWham coercions json now

/-- The completeness its callers pass. A body that is `null` is not recorded. -/
def complete : Report → Bool
  | headers h => isCompleteQuotaHeaderFrame coercions h
  | frame _ => true
  | usage json => !isNull (some json)

def usedPercent (slot : Slot) (report : Report) : Option ℚ :=
  match report with
  | headers h => (h (slot.header ++ "-used-percent")).bind fun raw =>
      if isBlank raw then none else percent (headerNumber coercions raw)
  | _ => percent (Value.finite? (Value.get? "used_percent" (report.slotValue slot)))

/-- Nothing is said about the slot. -/
def absent (slot : Slot) (report : Report) : Bool :=
  match report with
  | headers h => (h (slot.header ++ "-used-percent")).isNone
  | _ => !Value.given (report.slotValue slot)

/-- The slot has a value, and its used percent is no number from 0 to 100. -/
def malformed (slot : Slot) (report : Report) : Bool :=
  !report.absent slot && (report.usedPercent coercions slot).isNone

/-- Nothing used, no length and no reset; in headers the length is written `0`. -/
def retired (slot : Slot) (report : Report) : Bool :=
  report.usedPercent coercions slot = some 0 &&
    match report with
    | headers h => h (slot.header ++ "-window-minutes") = some "0" &&
        (toResetIso coercions ((h (slot.header ++ "-reset-at")).map .string)).isNone
    | _ => (positiveFinite coercions (Value.get? report.lengthKey (report.slotValue slot))).isNone &&
        (toResetIso coercions (Value.get? "reset_at" (report.slotValue slot))).isNone

end Decoded

end Report

/-! ## The cache -/

def Snapshot.isEmpty (snapshot : Snapshot) : Bool := snapshot = {}

/-- What only usage polls report is carried over. -/
def mergePushedQuotaMetadata (incoming : Snapshot) (previous : Option AccountQuota) : Snapshot :=
  match previous with
  | none => incoming
  | some previous => { incoming with
      resetCreditsAvailable := incoming.resetCreditsAvailable.or previous.resetCreditsAvailable
      spendControl :=
        if incoming.spendControl.isNone && !incoming.spendControlCleared then previous.spendControl
        else incoming.spendControl
      credits := incoming.credits.or previous.credits }

/-- The token and the account a report came with. -/
structure Origin where
  accessToken : String
  accountId : Option String := none
  /-- The ChatGPT account, where the caller knows it. -/
  identity : Option String := none

/-- The fallback account it is recorded under, none for the main account. -/
def Origin.fallback (origin : Origin) : Option String :=
  origin.accountId.filter fun id => id ≠ "" && id ≠ "main"

section Cache

variable (tokenFingerprint : String → String) (identityOfToken : String → Option String)

def Origin.tokenIdentity (origin : Origin) : Option String :=
  if origin.accessToken = "" then none else identityOfToken origin.accessToken

def Origin.mainIdentity (origin : Origin) : Option String :=
  (Quota.truthy origin.identity).or (origin.tokenIdentity identityOfToken)

def entryOf (quota : AccountQuota) (now : ℚ) : Quota.QuotaEntry where
  quota := quota
  refreshAfter := now + 5 * 60 * 1000
  checkedAt := now

def recordPushedQuota (manager : Quota.QuotaManager) (currentMainIdentity : Option String)
    (snapshot : Snapshot) (origin : Origin) (completeSnapshot : Bool) (now : ℚ) :
    Quota.QuotaManager :=
  if snapshot.isEmpty && !completeSnapshot then manager
  else
    match origin.fallback with
    | some accountId =>
        let previous := (manager.peekFallbackForPolicy accountId none).map (·.quota)
        let entry := entryOf (mergePushedQuotaMetadata snapshot previous).toAccountQuota now
        manager.setFallback tokenFingerprint accountId entry (some origin.accessToken)
          completeSnapshot (origin.tokenIdentity identityOfToken)
    | none =>
        let identity := origin.mainIdentity identityOfToken
        -- a stale frame is dropped
        if differentIdentity identity currentMainIdentity then manager
        else
          let previous := (manager.peekMainForPolicy identity).map (·.quota)
          let entry := entryOf (mergePushedQuotaMetadata snapshot previous).toAccountQuota now
          manager.setMain tokenFingerprint origin.accessToken entry identity completeSnapshot

/-- What `refreshAllQuota` does with the reading of a poll. -/
def storeReading (manager : Quota.QuotaManager) (quota : AccountQuota) (origin : Origin) (now : ℚ) :
    Quota.QuotaManager :=
  match origin.fallback with
  | some accountId => manager.setFallback tokenFingerprint accountId (entryOf quota now)
      (some origin.accessToken) true origin.identity
  | none => manager.setMain tokenFingerprint origin.accessToken (entryOf quota now) origin.identity
      true

def record (coercions : Coercions) (currentMainIdentity : Option String) (report : Report)
    (origin : Origin) (now : ℚ) (manager : Quota.QuotaManager) : Quota.QuotaManager :=
  match report.snapshot coercions now with
  | none => manager
  | some snapshot =>
      match report with
      | .usage _ => storeReading tokenFingerprint manager snapshot.toAccountQuota origin now
      | _ => recordPushedQuota tokenFingerprint identityOfToken manager currentMainIdentity snapshot
          origin (report.complete coercions) now

/-- Whether a report is recorded: a pushed one of another main account is not. -/
def Accepted (currentMainIdentity : Option String) (report : Report) (origin : Origin) : Bool :=
  match report with
  | .usage _ => true
  | _ => origin.fallback.isSome ||
      !differentIdentity (origin.mainIdentity identityOfToken) currentMainIdentity

end Cache

/-- The window of a slot that the cache knows. -/
def known (manager : Quota.QuotaManager) (fallback : Option String) (slot : Slot) :
    Option QuotaWindow :=
  (match fallback with
  | some accountId => manager.fallbacks.get accountId
  | none => manager.main).bind fun entry => slot.of entry.quota

/-! ## The pool -/

structure PoolWindow where
  reading : ObservedReading
  checkedAt : ℚ
deriving DecidableEq, Repr

/-- `M` is the type of quota maps. -/
structure PoolMerge (M : Type) where
  window : M → Slot → Option PoolWindow
  /-- `mergeQuotaObservation`, nothing where it throws. -/
  mergeQuotaObservation : M → QuotaObservation → Option M
  /-- A map takes an observation of this time, which is not older than what it holds. -/
  takes : M → ℚ → Prop

/-- What the map reads after an observation that it takes: the observation's readings, and
what it held of the slots that are neither read nor covered. -/
def PoolMerge.Lawful {M : Type} (pool : PoolMerge M) : Prop :=
  ∀ map observation, pool.takes map observation.checkedAt →
    ∃ merged, pool.mergeQuotaObservation map observation = some merged ∧
      ∀ slot, pool.window merged slot =
        match observation.readings.find? fun reading => reading.label = slot with
        | some reading => some ⟨reading, observation.checkedAt⟩
        | none => if slot ∈ observation.coverage then none else pool.window map slot

def PoolMerge.mergePoolObservation {M : Type} (pool : PoolMerge M) (stored : M)
    (observation : QuotaObservation) : M :=
  (pool.mergeQuotaObservation stored observation).getD stored

def recordSnapshot {M : Type} (pool : PoolMerge M) (map : M) (snapshot : AccountQuota)
    (complete : Bool) (now : ℚ) : M :=
  match observationFromSnapshot snapshot now complete with
  | none => map
  | some observation => pool.mergePoolObservation map observation

def recordInPool {M : Type} (pool : PoolMerge M) (coercions : Coercions) (report : Report) (now : ℚ)
    (map : M) : M :=
  match report.snapshot coercions now with
  | none => map
  | some snapshot => recordSnapshot pool map snapshot.toAccountQuota (report.complete coercions) now

end QuotaReports
