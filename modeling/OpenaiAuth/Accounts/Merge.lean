import OpenaiAuth.Accounts.Storage
import Mathlib.Data.List.Dedup

/-! # Merging a snapshot into what is stored

Two routines decide which of two credentials stays: `mergeAccountRuntimeState`,
for a save of the state file alone, and `keepNewerCredential`, for a save of the
whole store. Both ask `applyNewerTokenState`, which compares refresh stamps, then
expiries, and takes the five credential fields from one side.
-/

namespace Accounts

open Js

/-- A row of the state file, or the runtime half of a row in memory. -/
abbrev AccountRuntimeEntry := Members

variable (rt : Runtime)

/-! ## Numbers of unchecked members -/

/-- `value ?? 0`, as a comparison with a number takes it; `none` is `NaN`. -/
def orZero : Option Json → Option ℚ
  | none | some .null => some 0
  | some v => rt.number v

/-- `a > b` on numbers that may be `NaN`. -/
def exceeds (a b : Option ℚ) : Bool :=
  match a, b with
  | some a, some b => b < a
  | _, _ => false

/-- `Math.max` of the times the two windows were read. -/
def quotaSnapshotCheckedAt (quota : Option Json) : Option ℚ := do
  let primary ← orZero rt ((quota.bind fun q => q.get? "primary").bind fun w => w.get? "checkedAt")
  let secondary ←
    orZero rt ((quota.bind fun q => q.get? "secondary").bind fun w => w.get? "checkedAt")
  return max primary secondary

/-! ## The credential of an entry -/

def copyRuntimeField (target source : AccountRuntimeEntry) (key : String) : AccountRuntimeEntry :=
  target.put key (source.lookup key)

def tokenFieldsMatch (existing incoming : AccountRuntimeEntry) : Bool :=
  existing.lookup "access" = incoming.lookup "access" &&
  existing.lookup "refresh" = incoming.lookup "refresh" &&
  existing.lookup "expires" = incoming.lookup "expires" &&
  existing.lookup "lastRefreshedAt" = incoming.lookup "lastRefreshedAt"

def refreshErrorCheckedAt (entry : AccountRuntimeEntry) : Option ℚ :=
  orZero rt ((entry.lookup "lastRefreshError").bind fun error => error.get? "checkedAt")

inductive Side where
  | existing
  | incoming
deriving DecidableEq, Repr

/-- The entry on a side. -/
def Side.of {α : Type*} (side : Side) (existing incoming : α) : α :=
  match side with
  | .existing => existing
  | .incoming => incoming

def selectSameTokenState (existing incoming : AccountRuntimeEntry) : Side :=
  if !tokenFieldsMatch existing incoming then .incoming
  else if (incoming.lookup "lastRefreshError").isNone then .existing
  else if (existing.lookup "lastRefreshError").isNone then .incoming
  else if exceeds (refreshErrorCheckedAt rt incoming) (refreshErrorCheckedAt rt existing) then
    .incoming
  else .existing

/-- `FUTURE_REFRESH_STAMP_TOLERANCE_MS` -/
def futureRefreshStampToleranceMs : ℚ := 5 * 60000

/-- A stamp too far ahead of the clock counts as absent. -/
def trustedRefreshStamp (stamp : Option Json) (now : ℚ) : Option ℚ :=
  match stamp with
  | none => some 0
  | some stamp => (rt.number stamp).map fun stamp =>
      if now + futureRefreshStampToleranceMs < stamp then 0 else stamp

/-- The side the credential is taken from. -/
def tokenSource (now : ℚ) (existing incoming : AccountRuntimeEntry) : Side :=
  let existingRefreshAt := trustedRefreshStamp rt (existing.lookup "lastRefreshedAt") now
  let incomingRefreshAt := trustedRefreshStamp rt (incoming.lookup "lastRefreshedAt") now
  let existingExpires := orZero rt (existing.lookup "expires")
  let incomingExpires := orZero rt (incoming.lookup "expires")
  if exceeds incomingRefreshAt existingRefreshAt then .incoming
  else if exceeds existingRefreshAt incomingRefreshAt then .existing
  else if exceeds incomingExpires existingExpires then .incoming
  else if exceeds existingExpires incomingExpires then .existing
  else selectSameTokenState rt existing incoming

/-- `CREDENTIAL_FIELDS` -/
def credentialFields : List String :=
  ["access", "refresh", "expires", "lastRefreshedAt", "lastRefreshError"]

def applyNewerTokenState (now : ℚ) (merged existing incoming : AccountRuntimeEntry) :
    AccountRuntimeEntry :=
  let source := (tokenSource rt now existing incoming).of existing incoming
  credentialFields.foldl (fun merged key => copyRuntimeField merged source key) merged

/-! ## One entry of the state file -/

/-- The quota and its error, taken from the side whose quota is newer. -/
def mergeQuotaState (existing incoming : AccountRuntimeEntry) : AccountRuntimeEntry :=
  if exceeds (quotaSnapshotCheckedAt rt (existing.lookup "quota"))
      (quotaSnapshotCheckedAt rt (incoming.lookup "quota")) then
    (existing.spread incoming).putAll [
      ("quota", existing.lookup "quota"),
      ("lastQuotaRefreshError", existing.lookup "lastQuotaRefreshError")]
  else (existing.spread incoming).put "lastQuotaRefreshError"
    (incoming.lookup "lastQuotaRefreshError")

/-- The later time of last use stays. -/
def mergeLastUsed (merged existing incoming : AccountRuntimeEntry) : AccountRuntimeEntry :=
  match numberIn (existing.lookup "lastUsed"), numberIn (incoming.lookup "lastUsed") with
  | some used, some usedNow => if usedNow < used then merged.put "lastUsed" (some (.num used)) else merged
  | some used, none => merged.put "lastUsed" (some (.num used))
  | none, _ => merged

def mergeAccountRuntimeState (now : ℚ) (existing : Option Json) (incoming : AccountRuntimeEntry) :
    AccountRuntimeEntry :=
  match recordOf existing with
  | none => incoming
  | some existing =>
      let merged := mergeQuotaState rt existing.members incoming
      let merged :=
        if (incoming.lookup "lastRefreshError").isNone then merged.erase "lastRefreshError" else merged
      let merged := mergeLastUsed merged existing.members incoming
      applyNewerTokenState rt now merged existing.members incoming

/-! ## One row of the store -/

/-- The row with the credential fields of another. -/
def OAuthAccount.withCredentialOf (account other : OAuthAccount) : OAuthAccount :=
  { account with
    access := other.access
    refresh := other.refresh
    expires := other.expires
    lastRefreshedAt := other.lastRefreshedAt
    lastRefreshError := other.lastRefreshError }

def keepNewerCredential (now : ℚ) (onDisk incoming : FallbackAccount) : FallbackAccount :=
  match onDisk, incoming with
  | .oauth disk, .oauth account =>
      .oauth (account.withCredentialOf
        ((tokenSource rt now (accountRuntimeState onDisk) (accountRuntimeState incoming)).of
          disk account))
  | _, _ => incoming

/-- `accounts.set(account.id, account)` on a map of rows. -/
def setAccount (account : FallbackAccount) : List FallbackAccount → List FallbackAccount
  | [] => [account]
  | other :: rest =>
      if other.id = account.id then account :: rest else other :: setAccount account rest

/-- The row of the snapshot, over the one on disk if there is one. -/
def saveAccount (now : ℚ) (accounts : List FallbackAccount) (account : FallbackAccount) :
    List FallbackAccount :=
  match accounts.find? fun other => other.id == account.id with
  | some onDisk => setAccount (keepNewerCredential rt now onDisk account) accounts
  | none => setAccount account accounts

/-- `{ ...latest, ...incoming }` for one member. `owns` tells whether the caller's
object has the member, even if as `undefined`. -/
def overlay {α : Type} (owns : Bool) (incoming latest : Option α) : Option α :=
  if owns || incoming.isSome then incoming else latest

/-- `now` is the clock during the save. -/
def mergeStorageForSave (now : ℚ) (owns : String → Bool)
    (latest : Option AccountStorage) (incoming : AccountStorage) : AccountStorage :=
  match latest with
  | none => incoming
  | some latest => {
      main := overlay (owns "main") incoming.main latest.main
      routing := overlay (owns "routing") incoming.routing latest.routing
      fallbackOn := overlay (owns "fallbackOn") incoming.fallbackOn latest.fallbackOn
      refresh := overlay (owns "refresh") incoming.refresh latest.refresh
      quota := overlay (owns "quota") incoming.quota latest.quota
      reset := overlay (owns "reset") incoming.reset latest.reset
      dump := overlay (owns "dump") incoming.dump latest.dump
      costZeroing := overlay (owns "costZeroing") incoming.costZeroing latest.costZeroing
      killswitch := overlay (owns "killswitch") incoming.killswitch latest.killswitch
      logging := overlay (owns "logging") incoming.logging latest.logging
      cachekeep := overlay (owns "cachekeep") incoming.cachekeep latest.cachekeep
      cacheKeep := overlay (owns "cacheKeep") incoming.cacheKeep latest.cacheKeep
      mainAccountId := overlay (owns "mainAccountId") incoming.mainAccountId latest.mainAccountId
      accounts := incoming.accounts.foldl
        (fun accounts account => saveAccount rt now accounts account)
        (latest.accounts.foldl (fun accounts account => setAccount account accounts) []) }

/-! ## The state file under a save of the state alone -/

inductive AccountsScope where
  | all
  | only (ids : List String)
deriving DecidableEq, Repr

structure AccountStateSaveScope where
  mainQuota : Bool := false
  mainRefresh : Bool := false
  accounts : Option AccountsScope := none
deriving DecidableEq, Repr

/-- Assigning to members of `state.main`: an array takes them and does not write
them, another value that is no object throws. -/
def assignMain (main : Json) (entries : List (String × Option Json)) : Option Json :=
  match main with
  | .obj members => some (.obj (Members.putAll entries members))
  | .arr items => some (.arr items)
  | _ => none

/-- `state.main ?? {}` -/
def mainOf (state : Members) : Json := (Json.orElse (state.lookup "main") (some (.obj []))).getD .null

def quotaCheckedAt (checkedAt quota : Option Json) : Option ℚ :=
  (numberIn checkedAt).elim (quotaSnapshotCheckedAt rt quota) some

/-- `none` when it throws. -/
def applyMainQuotaStatePatch (storage : AccountStorage) (state : Members) : Option Members :=
  let main := mainOf state
  let existingCheckedAt := quotaCheckedAt rt (main.get? "quotaCheckedAt") (main.get? "quota")
  let incomingCheckedAt := quotaCheckedAt rt (fieldOf storage.quota "mainQuotaCheckedAt")
    (fieldOf storage.quota "mainQuota")
  if exceeds existingCheckedAt incomingCheckedAt then some (state.set "main" main)
  else (assignMain main [
    ("quota", fieldOf storage.quota "mainQuota"),
    ("quotaCheckedAt", fieldOf storage.quota "mainQuotaCheckedAt"),
    ("quotaToken", fieldOf storage.quota "mainQuotaToken"),
    ("lastQuotaApiError", fieldOf storage.quota "mainLastQuotaApiError")]).map (state.set "main")

def applyMainRefreshStatePatch (storage : AccountStorage) (state : Members) : Option Members :=
  (assignMain (mainOf state) [
    ("lastRefreshError", fieldOf storage.refresh "mainLastRefreshError"),
    ("refreshLeaseId", fieldOf storage.refresh "mainRefreshLeaseId"),
    ("refreshLeaseUntil", fieldOf storage.refresh "mainRefreshLeaseUntil"),
    ("refreshLeaseTokenHash", fieldOf storage.refresh "mainRefreshLeaseTokenHash")]).map
      (state.set "main")

/-- `!ids || ids.has(id)` -/
def admits (ids : Option (List String)) (id : String) : Bool := ids.all fun ids => ids.contains id

/-- The rows of the snapshot that the scope and the roster let in, merged. -/
def mergeAccounts (now : ℚ) (ids roster : Option (List String))
    (accounts : List FallbackAccount) (entries : Members) : Members :=
  accounts.foldl (fun entries account =>
    if admits ids account.id && admits roster account.id then
      entries.set account.id (.obj (mergeAccountRuntimeState rt now
        (entries.lookup account.id) (accountRuntimeState account)))
    else entries) entries

/-- The ids the scope names are deleted when the snapshot has no row for them. -/
def deleteMissing (ids : Option (List String)) (accounts : List FallbackAccount)
    (entries : Members) : Members :=
  entries.filter fun entry =>
    !(ids.any fun ids => ids.contains entry.1) || accounts.any fun account => account.id == entry.1

/-- Entries of ids outside the roster are deleted. -/
def pruneOrphans (roster : Option (List String)) (entries : Members) : Members :=
  entries.filter fun entry => admits roster entry.1

def AccountsScope.ids : AccountsScope → Option (List String)
  | .all => none
  | .only ids => some ids

def applyAccounts (now : ℚ) (scope : AccountsScope) (roster : Option (List String))
    (storage : AccountStorage) (state : Members) : Members :=
  let entries := (recordOrEmpty (state.lookup "accounts")).members
  let merged := mergeAccounts rt now scope.ids roster storage.accounts entries
  state.set "accounts" (.obj (pruneOrphans roster (deleteMissing scope.ids storage.accounts merged)))

/-- The state file `saveAccountState` writes over `existing`, with the roster it
read; `none` when it throws. -/
def nextState (now : ℚ) (scope : AccountStateSaveScope) (roster : Option (List String))
    (storage : AccountStorage) (existing : Json) : Option Json :=
  let state := existing.members.set "version" (.num 1)
  (if scope.mainQuota then applyMainQuotaStatePatch rt storage state else some state).bind fun state =>
  (if scope.mainRefresh then applyMainRefreshStatePatch storage state else some state).map fun state =>
  .obj (scope.accounts.elim state fun accounts =>
    applyAccounts rt now accounts roster storage state)

end Accounts
