import OpenaiAuth.Js.Number
import OpenaiAuth.Js.Trim
import OpenaiAuth.Js.Json
import OpenaiAuth.Quota.Manager

/-! # Rate-limit reports

A report of the windows of an account comes in response headers, in a WebSocket frame or
from the usage endpoint. Each has its decoder, and `observationFromSnapshot` turns what
was decoded into an observation for the account pool. `Coercions` stands for `Number(value)`
of texts, arrays and objects and for `Date`; an object whose own members break its
conversion to a number is left out.
-/

namespace QuotaReports

open Sidebar Js

/-! ## Values -/

/-- What `JSON.parse` gives. The keys of an object differ. -/
inductive Value where
  | null
  | boolean (value : Bool)
  | number (value : Number)
  | string (text : String)
  | array (items : List Value)
  | object (members : List (String × Value))

namespace Value

/-- `value?.[key]` for a key that no text and no array has. -/
def get? (key : String) : Option Value → Option Value
  | some (.object members) => members.lookup key
  | _ => none

/-- Neither absent nor `null`. -/
def given : Option Value → Bool
  | none | some .null => false
  | _ => true

def truthy : Option Value → Bool
  | none | some .null => false
  | some (.boolean value) => value
  | some (.number value) => value ≠ .nan && value ≠ .finite 0
  | some (.string text) => text ≠ ""
  | some (.array _) | some (.object _) => true

/-- The number that is there, when it is finite. -/
def finite? : Option Value → Option ℚ
  | some (.number value) => value.finite?
  | _ => none

def boolean? : Option Value → Option Bool
  | some (.boolean value) => some value
  | _ => none

def string? : Option Value → Option String
  | some (.string text) => some text
  | _ => none

end Value

structure Coercions where
  /-- `Number(value)` of a text, an array or an object. -/
  number : Value → Number
  number_zero : number (.string "0") = .finite 0
  /-- `new Date(ms).toISOString()`, nothing where it throws. -/
  isoOfTime : ℚ → Option String
  /-- `new Date(value).toISOString()` of a value that is no number. -/
  isoOfValue : Value → Option String

section Decoders

variable (coercions : Coercions)

/-- `Number(value)` -/
def numberOf : Option Value → Number
  | none => .nan
  | some .null => .finite 0
  | some (.boolean value) => .finite (if value then 1 else 0)
  | some (.number value) => value
  | some value => coercions.number value

/-- `value == null || value === ''` -/
def blank : Option Value → Bool
  | none | some .null => true
  | some (.string text) => text = ""
  | _ => false

def toResetIso (raw : Option Value) : Option String :=
  if blank raw then none
  else
    match (numberOf coercions raw).finite? with
    | some n => coercions.isoOfTime (if n < 100000000000 then n * 1000 else n)
    | none =>
        match raw with
        | none | some (.number _) => none
        | some value => coercions.isoOfValue value

def positiveFinite (value : Option Value) : Option ℚ :=
  (numberOf coercions value).finite?.filter (0 < ·)

def nonNegativeFinite (value : Option Value) : Option ℚ :=
  (Value.finite? value).filter (0 ≤ ·)

def nonNegativeNumberish (value : Option Value) : Option ℚ :=
  if blank value then none else (numberOf coercions value).finite?.filter (0 ≤ ·)

/-- A percentage, `undefined` for any other number. -/
def percent (n : Option ℚ) : Option ℚ := n.filter fun n => 0 ≤ n && n ≤ 100

def window (usedPercent : ℚ) (resetsAt : Option String) (windowMinutes : Option ℚ) (now : ℚ) :
    QuotaWindow where
  usedPercent := usedPercent
  remainingPercent := 100 - usedPercent
  resetsAt := resetsAt
  checkedAt := some now
  windowMinutes := windowMinutes

inductive Slot where
  | primary
  | secondary
deriving DecidableEq, Repr

def Slot.of (slot : Slot) (quota : AccountQuota) : Option QuotaWindow :=
  match slot with
  | .primary => quota.primary
  | .secondary => quota.secondary

structure Snapshot extends AccountQuota where
  resetCreditsApplicable : Option ℚ := none
deriving DecidableEq, Repr

/-! ## Response headers -/

/-- `headers.get(name)`, the name in small letters and the value trimmed. -/
abbrev Headers := String → Option String

def Slot.header : Slot → String
  | .primary => "x-codex-primary"
  | .secondary => "x-codex-secondary"

/-- A header's value, `null` where there is none. -/
def headerValue (text : Option String) : Option Value := some ((text.map Value.string).getD .null)

def headerNumber (raw : String) : Option ℚ := (numberOf coercions (some (.string raw))).finite?

def windowFromHeader (h : Headers) (base : String) (now : ℚ) : Option QuotaWindow :=
  (h (base ++ "-used-percent")).bind fun used =>
    if isBlank used then none
    else (percent (headerNumber coercions used)).bind fun usedPercent =>
      let windowMinutes := positiveFinite coercions (headerValue (h (base ++ "-window-minutes")))
      let resetsAt := toResetIso coercions ((h (base ++ "-reset-at")).map .string)
      if usedPercent = 0 && h (base ++ "-window-minutes") = some "0" && resetsAt.isNone then none
      else some (window usedPercent resetsAt windowMinutes now)

inductive HeaderState where
  | absent
  | invalid
  | valid
deriving DecidableEq, Repr

def usedPercentHeaderState (h : Headers) (base : String) : HeaderState :=
  match h (base ++ "-used-percent") with
  | none => .absent
  | some raw =>
      if isBlank raw then .invalid
      else if (percent (headerNumber coercions raw)).isSome then .valid else .invalid

/-- `true` and `false` in any case, or `1` and `0`. -/
def headerBool (h : Headers) (name : String) : Option Bool :=
  ((h name).map trim).bind fun raw =>
    if raw.toLower = "true" || raw = "1" then some true
    else if raw.toLower = "false" || raw = "0" then some false
    else none

def creditsFromHeaders (h : Headers) (now : ℚ) : Option AccountCredits :=
  (headerBool h "x-codex-credits-has-credits").bind fun hasCredits =>
    (headerBool h "x-codex-credits-unlimited").map fun unlimited =>
      { hasCredits, unlimited
        balance := nonNegativeNumberish coercions
          ((h "x-codex-credits-balance").map fun raw => .string (trim raw))
        checkedAt := some now }

def headerStates (h : Headers) : List HeaderState :=
  [Slot.primary, Slot.secondary].map fun slot => usedPercentHeaderState coercions h slot.header

def normalizeQuotaHeaders (h : Headers) (now : ℚ) : Snapshot :=
  if .invalid ∈ headerStates coercions h then {}
  else
    { primary := windowFromHeader coercions h Slot.primary.header now
      secondary := windowFromHeader coercions h Slot.secondary.header now
      credits := creditsFromHeaders coercions h now }

/-- A used percent that can be read is there, and none that cannot. -/
def isCompleteQuotaHeaderFrame (h : Headers) : Bool :=
  .valid ∈ headerStates coercions h && .invalid ∉ headerStates coercions h

/-! ## Frames and usage polls -/

/-- The window of a slot that is an object, its length under `lengthKey` in units of which
`perMinute` make a minute. -/
def windowFromFields (lengthKey : String) (perMinute : ℚ) (w : Option Value) (now : ℚ) :
    Option QuotaWindow :=
  if !Value.truthy w then none
  else (percent (Value.finite? (Value.get? "used_percent" w))).bind fun usedPercent =>
    let length := positiveFinite coercions (Value.get? lengthKey w)
    let resetsAt := toResetIso coercions (Value.get? "reset_at" w)
    if usedPercent = 0 && length.isNone && resetsAt.isNone then none
    else some (window usedPercent resetsAt (length.map (· / perMinute)) now)

def windowFromWs : Option Value → ℚ → Option QuotaWindow :=
  windowFromFields coercions "window_minutes" 1

def windowFromWham : Option Value → ℚ → Option QuotaWindow :=
  windowFromFields coercions "limit_window_seconds" 60

/-- The value of a slot, under the names of a frame or of the usage endpoint. -/
def Slot.inFrame : Slot → Option Value → Option Value
  | .primary, event => Value.get? "primary" (Value.get? "rate_limits" event)
  | .secondary, event => Value.get? "secondary" (Value.get? "rate_limits" event)

def Slot.inUsage : Slot → Option Value → Option Value
  | .primary, json => Value.get? "primary_window" (Value.get? "rate_limit" json)
  | .secondary, json => Value.get? "secondary_window" (Value.get? "rate_limit" json)

def creditsFromWs (value : Option Value) (now : ℚ) : Option AccountCredits :=
  (Value.boolean? (Value.get? "has_credits" value)).bind fun hasCredits =>
    (Value.boolean? (Value.get? "unlimited" value)).map fun unlimited =>
      { hasCredits, unlimited
        balance := nonNegativeNumberish coercions
          (match Value.get? "balance" value with
          | some (.string text) => some (.string (trim text))
          | balance => balance)
        overageLimitReached := Value.boolean? (Value.get? "overage_limit_reached" value)
        checkedAt := some now }

def normalizeWsFrame (event : Value) (now : ℚ) : Snapshot where
  primary := windowFromWs coercions (Slot.primary.inFrame (some event)) now
  secondary := windowFromWs coercions (Slot.secondary.inFrame (some event)) now
  credits := creditsFromWs coercions (Value.get? "credits" (some event)) now

def spendControlFromWham (spend : Option Value) : Option SpendControlReading :=
  let individualLimit := Value.get? "individual_limit" spend
  if !Value.truthy individualLimit then none
  else (Value.boolean? (Value.get? "reached" spend)).bind fun reached =>
    let amount := fun key => nonNegativeNumberish coercions (Value.get? key individualLimit)
    (amount "limit").bind fun limit => (amount "used").bind fun used =>
      (amount "remaining").bind fun remaining => (amount "used_percent").bind fun usedPercent =>
        (amount "remaining_percent").map fun remainingPercent =>
          { limit, used, remaining, usedPercent, remainingPercent, reached
            resetsAt := toResetIso coercions (Value.get? "reset_at" individualLimit)
            unit := Value.string? (Value.get? "unit" individualLimit)
            source := Value.string? (Value.get? "source" individualLimit) }

def isNull : Option Value → Bool
  | some .null => true
  | _ => false

/-- The usage endpoint's credits tell whether the overage limit was reached. -/
def creditsFromWham (credits : Option Value) (now : ℚ) : Option AccountCredits :=
  (Value.boolean? (Value.get? "has_credits" credits)).bind fun hasCredits =>
    (Value.boolean? (Value.get? "unlimited" credits)).bind fun unlimited =>
      (Value.boolean? (Value.get? "overage_limit_reached" credits)).map fun overage =>
        { hasCredits, unlimited
          balance := nonNegativeNumberish coercions (Value.get? "balance" credits)
          overageLimitReached := some overage
          checkedAt := some now }

/-- Nothing where it throws, which is for a body that is `null`. -/
def normalizeWham (json : Value) (now : ℚ) : Option Snapshot :=
  if isNull (some json) then none
  else
    let resetCredits := Value.get? "rate_limit_reset_credits" (some json)
    let spend := Value.get? "spend_control" (some json)
    some
      { primary := windowFromWham coercions (Slot.primary.inUsage (some json)) now
        secondary := windowFromWham coercions (Slot.secondary.inUsage (some json)) now
        resetCreditsAvailable := nonNegativeFinite (Value.get? "available_count" resetCredits)
        resetCreditsApplicable := nonNegativeFinite (Value.get? "applicable_available_count" resetCredits)
        spendControlCleared := isNull spend || isNull (Value.get? "individual_limit" spend)
        spendControl := spendControlFromWham coercions spend
        credits := creditsFromWham coercions (Value.get? "credits" (some json)) now }

end Decoders

/-! ## Observations -/

structure ObservedReading where
  label : Slot
  usedPercent : ℚ
  resetsAt : Option String
  windowMinutes : Option ℚ
deriving DecidableEq, Repr

inductive ObservedBudget where
  | reading (spend : SpendControlReading)
  | cleared
deriving DecidableEq, Repr

structure QuotaObservation where
  checkedAt : ℚ
  readings : List ObservedReading := []
  coverage : List Slot := []
  budget : Option ObservedBudget := none
  resetCredits : Option ℕ := none
  credits : Option AccountCredits := none
deriving DecidableEq, Repr

def readingFor (label : Slot) (window : Option QuotaWindow) : Option ObservedReading :=
  window.bind fun window => (percent (some window.usedPercent)).map fun usedPercent =>
    { label, usedPercent
      resetsAt := window.resetsAt
      windowMinutes := window.windowMinutes.filter (0 < ·) }

/-- The source of the spending limit is not part of an observation. -/
def budgetFor (snapshot : AccountQuota) : Option ObservedBudget :=
  match snapshot.spendControl with
  | some spend => some (.reading { spend with source := none })
  | none => if snapshot.spendControlCleared then some .cleared else none

def prepaidCreditsFor (credits : Option AccountCredits) (checkedAt : ℚ) : Option AccountCredits :=
  credits.map fun credits => { credits with
    balance := credits.balance.filter (0 ≤ ·)
    checkedAt := some checkedAt }

def observationFromSnapshot (snapshot : AccountQuota) (checkedAt : ℚ) (complete : Bool) :
    Option QuotaObservation :=
  let slots := [Slot.primary, Slot.secondary]
  let readings := slots.filterMap fun label => readingFor label (label.of snapshot)
  let coverage := slots.filter fun label => complete && (readingFor label (label.of snapshot)).isNone
  let budget := budgetFor snapshot
  let resetCredits := snapshot.resetCreditsAvailable.bind safeNat?
  let credits := prepaidCreditsFor snapshot.credits checkedAt
  if readings.isEmpty && coverage.isEmpty && budget.isNone && resetCredits.isNone && credits.isNone
  then none
  else some { checkedAt, readings, coverage, budget, resetCredits, credits }

end QuotaReports
