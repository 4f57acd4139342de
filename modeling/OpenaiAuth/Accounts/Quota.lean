import Mathlib.Data.Option.Basic
import OpenaiAuth.Js.Fields
import OpenaiAuth.Js.Trim

/-! # Quota snapshots and operation errors on disk

`normalizeOperationError` and `normalizeQuota`: what the account store keeps of
an error or of a quota snapshot it reads. Both build their result from the
members they checked, so what they return is returned again unchanged.
-/

namespace Accounts

open Js

/-- What the store takes from the language and from packages outside: `Number` on a
parsed value, where the result is finite, whether `new URL` makes an http address
without a user of a text, the digest of a refresh token, and the test for the
tombstones of the removed vault custody. -/
structure Runtime where
  number : Json → Option ℚ
  number_num : ∀ q, number (.num q) = some q
  isHttpUrl : String → Bool
  hashRefreshToken : String → String
  isTombstoneRefresh : String → Bool

namespace Runtime

attribute [simp] number_num

variable (rt : Runtime)

/-- `Number(value)` of a member, `none` for `NaN`. -/
def numberOf (value : Option Json) : Option ℚ := value.bind rt.number

@[simp] theorem numberOf_num (q : Option ℚ) : rt.numberOf (q.map Json.num) = q := by
  cases q <;> simp [numberOf]

@[simp] theorem numberOf_some_num (q : ℚ) : rt.numberOf (some (.num q)) = some q := by
  simp [numberOf]

end Runtime

/-- `typeof value === 'string'`, `'number'` and `'boolean'` on a member. -/
def stringOf (value : Option Json) : Option String := value.bind Json.string?

def numberIn (value : Option Json) : Option ℚ := value.bind Json.number?

def boolOf (value : Option Json) : Option Bool :=
  match value with
  | some (.bool b) => some b
  | _ => none

@[simp] theorem stringOf_map (s : Option String) : stringOf (s.map Json.str) = s := by
  cases s <;> rfl

@[simp] theorem numberIn_map (q : Option ℚ) : numberIn (q.map Json.num) = q := by
  cases q <;> rfl

@[simp] theorem boolOf_map (b : Option Bool) : boolOf (b.map Json.bool) = b := by
  cases b <;> rfl

@[simp] theorem stringOf_str (s : String) : stringOf (some (.str s)) = some s := rfl

@[simp] theorem numberIn_num (q : ℚ) : numberIn (some (.num q)) = some q := rfl

@[simp] theorem boolOf_bool (b : Bool) : boolOf (some (.bool b)) = some b := rfl

@[simp] theorem numberIn_none : numberIn none = none := rfl

@[simp] theorem stringOf_none : stringOf none = none := rfl

@[simp] theorem boolOf_none : boolOf none = none := rfl

variable (rt : Runtime)

/-! ## Errors -/

def normalizeOperationError (value : Option Json) : Option Json := do
  let value ← value
  let message ← stringOf (value.get? "message")
  let checkedAt ← rt.numberOf (value.get? "checkedAt")
  return .obj (Members.literal [
    ("message", some (.str message)),
    ("checkedAt", some (.num checkedAt)),
    ("nextRetryAt", (rt.numberOf (value.get? "nextRetryAt")).map .num),
    ("retryCount", (rt.numberOf (value.get? "retryCount")).map .num),
    ("tokenHash", (stringOf (value.get? "tokenHash")).map .str)])

theorem normalizeOperationError_idem (value : Option Json) :
    normalizeOperationError rt (normalizeOperationError rt value) =
      normalizeOperationError rt value := by
  cases h : normalizeOperationError rt value with
  | none => rfl
  | some error =>
      simp only [normalizeOperationError, Option.pure_def, Option.bind_eq_bind,
        Option.bind_eq_some_iff] at h
      obtain ⟨value, -, message, -, checkedAt, -, herror⟩ := h
      cases herror
      simp [normalizeOperationError]

/-! ## Quota snapshots -/

/-- One of the windows `primary` and `secondary`. -/
def normalizeWindow (window : Option Json) : Option Json := do
  let window ← window
  let usedPercent ← rt.numberOf (window.get? "usedPercent")
  let remainingPercent ← rt.numberOf (window.get? "remainingPercent")
  let checkedAt ← rt.numberOf (window.get? "checkedAt")
  let windowMinutes := (numberIn (window.get? "windowMinutes")).filter fun minutes => 0 < minutes
  return .obj (Members.literal [
    ("usedPercent", some (.num usedPercent)),
    ("remainingPercent", some (.num remainingPercent)),
    ("checkedAt", some (.num checkedAt)),
    ("resetsAt", (stringOf (window.get? "resetsAt")).map .str),
    ("windowMinutes", windowMinutes.map .num)])

/-- `resetCreditsAvailable` and `resetCreditsApplicable`. -/
def normalizeResetCredits (credits : Option Json) : Option Json :=
  ((numberIn credits).filter fun count => 0 ≤ count).map .num

def normalizeSpendControl (spendControl : Option Json) : Option Json := do
  let spendControl ← spendControl
  let limit ← rt.numberOf (spendControl.get? "limit")
  let used ← rt.numberOf (spendControl.get? "used")
  let remaining ← rt.numberOf (spendControl.get? "remaining")
  let usedPercent ← rt.numberOf (spendControl.get? "usedPercent")
  let remainingPercent ← rt.numberOf (spendControl.get? "remainingPercent")
  let reached ← boolOf (spendControl.get? "reached")
  return .obj (Members.literal [
    ("limit", some (.num limit)),
    ("used", some (.num used)),
    ("remaining", some (.num remaining)),
    ("usedPercent", some (.num usedPercent)),
    ("remainingPercent", some (.num remainingPercent)),
    ("resetsAt", (stringOf (spendControl.get? "resetsAt")).map .str),
    ("unit", (stringOf (spendControl.get? "unit")).map .str),
    ("source", (stringOf (spendControl.get? "source")).map .str),
    ("reached", some (.bool reached))])

/-- `overageLimitReached` may be missing, but a value it holds must be a boolean. -/
def normalizeCredits (credits : Option Json) : Option Json := do
  let credits ← credits
  let hasCredits ← boolOf (credits.get? "hasCredits")
  let unlimited ← boolOf (credits.get? "unlimited")
  let overageLimitReached := boolOf (credits.get? "overageLimitReached")
  guard ((credits.get? "overageLimitReached").isNone || overageLimitReached.isSome)
  return .obj (Members.literal [
    ("hasCredits", some (.bool hasCredits)),
    ("unlimited", some (.bool unlimited)),
    ("overageLimitReached", overageLimitReached.map .bool),
    ("balance", (rt.numberOf (credits.get? "balance")).map .num),
    ("checkedAt", (numberIn (credits.get? "checkedAt")).map .num)])

def quotaEntries (value : Json) : List (String × Option Json) :=
  [("primary", normalizeWindow rt (value.get? "primary")),
   ("secondary", normalizeWindow rt (value.get? "secondary")),
   ("resetCreditsAvailable", normalizeResetCredits (value.get? "resetCreditsAvailable")),
   ("resetCreditsApplicable", normalizeResetCredits (value.get? "resetCreditsApplicable")),
   ("spendControl", normalizeSpendControl rt (value.get? "spendControl")),
   ("credits", normalizeCredits rt (value.get? "credits"))]

/-- A snapshot without a single readable part is none. -/
def normalizeQuota (value : Option Json) : Option Json := do
  let value ← value
  let quota := Members.literal (quotaEntries rt value)
  guard (!quota.isEmpty)
  return .obj quota

theorem normalizeWindow_idem (window : Option Json) :
    normalizeWindow rt (normalizeWindow rt window) = normalizeWindow rt window := by
  cases h : normalizeWindow rt window with
  | none => rfl
  | some kept =>
      simp only [normalizeWindow, Option.pure_def, Option.bind_eq_bind,
        Option.bind_eq_some_iff] at h
      obtain ⟨window, -, used, -, remaining, -, checkedAt, -, hkept⟩ := h
      cases hkept
      simp [normalizeWindow, Option.filter_filter]

theorem normalizeResetCredits_idem (credits : Option Json) :
    normalizeResetCredits (normalizeResetCredits credits) = normalizeResetCredits credits := by
  simp [normalizeResetCredits, Option.filter_filter]

theorem normalizeSpendControl_idem (spendControl : Option Json) :
    normalizeSpendControl rt (normalizeSpendControl rt spendControl) =
      normalizeSpendControl rt spendControl := by
  cases h : normalizeSpendControl rt spendControl with
  | none => rfl
  | some kept =>
      simp only [normalizeSpendControl, Option.pure_def, Option.bind_eq_bind,
        Option.bind_eq_some_iff] at h
      obtain ⟨_, -, _, -, _, -, _, -, _, -, _, -, _, -, hkept⟩ := h
      cases hkept
      simp [normalizeSpendControl]

theorem normalizeCredits_idem (credits : Option Json) :
    normalizeCredits rt (normalizeCredits rt credits) = normalizeCredits rt credits := by
  cases h : normalizeCredits rt credits with
  | none => rfl
  | some kept =>
      simp only [normalizeCredits, Option.pure_def, Option.bind_eq_bind, Option.bind_eq_some_iff] at h
      obtain ⟨credits, -, _, -, _, -, -, -, hkept⟩ := h
      cases hkept
      cases boolOf (credits.get? "overageLimitReached") <;> simp [normalizeCredits, guard]

/-- A snapshot the store kept is kept as it is. -/
theorem normalizeQuota_idem (value : Option Json) :
    normalizeQuota rt (normalizeQuota rt value) = normalizeQuota rt value := by
  cases h : normalizeQuota rt value with
  | none => rfl
  | some quota =>
      simp only [normalizeQuota, Option.pure_def, Option.bind_eq_bind, Option.bind_eq_some_iff] at h
      obtain ⟨value, -, _, hkept, hquota⟩ := h
      cases hquota
      have hentries : quotaEntries rt (.obj (Members.literal (quotaEntries rt value))) =
          quotaEntries rt value := by
        simp [quotaEntries, normalizeWindow_idem, normalizeResetCredits_idem,
          normalizeSpendControl_idem, normalizeCredits_idem]
      simp only [normalizeQuota, Option.pure_def, Option.bind_eq_bind, Option.bind_some, hentries,
        hkept]

end Accounts
