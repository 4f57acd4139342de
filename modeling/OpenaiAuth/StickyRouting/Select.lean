import Mathlib.Data.List.Sort
import Mathlib.Data.List.Lex
import OpenaiAuth.Js.Number
import OpenaiAuth.Js.Text

/-! # Placing a session

`selectStickyCandidate` with numbers as the language has them: a reading, a reserve or
a configured order may be `NaN`. `dateParse` stands for `Date.parse`, `none` for `NaN`.
The callback for an empty weighted set is left out.
-/

namespace StickyRouting

open Js Number

/-! ## Data -/

structure QuotaWindow where
  remainingPercent : Number
  resetsAt : Option String := none
  checkedAt : Option Number := none
deriving DecidableEq, Repr

structure SpendControlReading where
  remainingPercent : Number
  resetsAt : Option String := none
deriving DecidableEq, Repr

structure AccountQuota where
  primary : Option QuotaWindow := none
  secondary : Option QuotaWindow := none
  checkedAt : Option Number := none
  spendControl : Option SpendControlReading := none
deriving DecidableEq, Repr

structure ReservePercent where
  primary : Option Number := none
  secondary : Option Number := none
deriving DecidableEq, Repr

structure StickySelectionCandidate where
  accountId : Units
  quota : Option AccountQuota := none
  quotaCheckedAt : Option Number := none
  reservePercent : ReservePercent := {}
  configuredOrder : Number
  resetCreditsApplicable : Option Number := none
  killswitchPasses : Option Bool := none
deriving DecidableEq, Repr

structure WeightedCandidate where
  candidate : StickySelectionCandidate
  quotaCheckedAt : ℚ
  weight : Number
deriving DecidableEq, Repr

inductive Source where
  | weighted
  | modeFallback
deriving DecidableEq, Repr

structure Selection where
  accountId : Units
  quotaCheckedAt : Option ℚ
  source : Source
deriving DecidableEq, Repr

def quotaStalenessMs : ℚ := 15 * 60000

def minResetHours : ℚ := 1 / 60

def minWeight : ℚ := 1 / 1000000

/-! ## Weights -/

/-- The first stamp that is a finite number. -/
def snapshotCheckedAt (quota : Option AccountQuota) (entryCheckedAt : Option Number) : Option ℚ :=
  [(quota.bind (·.primary)).bind (·.checkedAt), quota.bind (·.checkedAt),
    entryCheckedAt].findSome? fun checkedAt => checkedAt.bind finite?

section Dates

variable (dateParse : String → Option ℚ)

def sustainableWindowWeight (remainingPercent : Number) (resetsAt : Option String)
    (reservePercent : Number) (now : ℚ) : Number :=
  let spendable := (finite 0).max (remainingPercent.sub reservePercent)
  if spendable.le (finite 0) then finite 0
  else
    match (resetsAt.filter (· ≠ "")).bind dateParse with
    | none => spendable
    | some resetMs =>
        if resetMs ≤ now then spendable
        else spendable.div (finite (Max.max ((resetMs - now) / 3600000) minResetHours))

/-- The weights of the windows a quota has, and of its budget when that is a number. -/
def presentWeights (quota : AccountQuota) (reservePercent : ReservePercent) (now : ℚ) :
    List Number :=
  let windowWeight := fun (window : Option QuotaWindow) (reserve : Option Number) =>
    (window.map fun window =>
      sustainableWindowWeight dateParse window.remainingPercent window.resetsAt
        (reserve.getD (finite 0)) now).toList
  let spendWeight := ((quota.spendControl.filter fun spendControl =>
      spendControl.remainingPercent.finite?.isSome).map fun spendControl =>
    sustainableWindowWeight dateParse spendControl.remainingPercent spendControl.resetsAt
      (finite 0) now).toList
  windowWeight quota.primary reservePercent.primary ++
    windowWeight quota.secondary reservePercent.secondary ++ spendWeight

/-- `Math.min(...weights)`, or 0 for no weights. -/
def leastWeight : List Number → Number
  | [] => finite 0
  | weight :: weights => weights.foldl Number.min weight

def candidateWeight (candidate : StickySelectionCandidate) (now : ℚ) :
    Option WeightedCandidate :=
  candidate.quota.bind fun quota =>
    (snapshotCheckedAt (some quota) candidate.quotaCheckedAt).bind fun quotaCheckedAt =>
      if quotaStalenessMs < now - quotaCheckedAt then none
      else
        let weight := leastWeight (presentWeights dateParse quota candidate.reservePercent now)
        if (finite 0).lt weight then some ⟨candidate, quotaCheckedAt, weight⟩ else none

end Dates

/-! ## Comparisons -/

def compareAccountIds (left right : Units) : Ordering :=
  if left < right then .lt else if right < left then .gt else .eq

def weightedScore (pendingBytes : Units → Option ℚ) (requestBytes : ℚ)
    (weighted : WeightedCandidate) : Number :=
  (finite ((pendingBytes weighted.candidate.accountId).getD 0 + requestBytes)).div
    (weighted.weight.max (finite minWeight))

/-- Configured order, then the account id. -/
def compareConfigured (left right : StickySelectionCandidate) : Ordering :=
  (left.configuredOrder.sub right.configuredOrder).sign.then
    (compareAccountIds left.accountId right.accountId)

def compareWeighted (pendingBytes : Units → Option ℚ) (requestBytes : ℚ)
    (left right : WeightedCandidate) : Ordering :=
  ((weightedScore pendingBytes requestBytes left).sub
      (weightedScore pendingBytes requestBytes right)).sign.then
    (compareConfigured left.candidate right.candidate)

def creditsRank (candidate : StickySelectionCandidate) : ℚ :=
  if (finite 0).lt (candidate.resetCreditsApplicable.getD (finite 0)) then 1 else 0

def compareFallback (left right : StickySelectionCandidate) : Ordering :=
  ((finite (creditsRank right)).sub (finite (creditsRank left))).sign.then
    (compareConfigured left right)

/-- `items.sort(compare)` -/
def sortBy {α : Type} (compare : α → α → Ordering) (items : List α) : List α :=
  items.insertionSort fun left right => (compare left right).isLE = true

/-! ## The choice -/

def survives (candidate : StickySelectionCandidate) : Bool :=
  candidate.killswitchPasses ≠ some false

/-- `some none` stands for `undefined`: the killswitch leaves no candidate. -/
def selectStickyCandidate (dateParse : String → Option ℚ)
    (candidates : List StickySelectionCandidate) (pendingBytes : Units → Option ℚ)
    (requestBytes now : ℚ) : Except String (Option Selection) :=
  let eligibleCandidates := candidates.filter survives
  if candidates = [] then
    .error "Cannot select a sticky candidate: input.candidates is empty"
  else if eligibleCandidates = [] then .ok none
  else
    let weighted := eligibleCandidates.filterMap fun candidate =>
      candidateWeight dateParse candidate now
    match (sortBy (compareWeighted pendingBytes requestBytes) weighted).head? with
    | some selected =>
        .ok (some ⟨selected.candidate.accountId, some selected.quotaCheckedAt, .weighted⟩)
    | none =>
        match (sortBy compareFallback eligibleCandidates).head? with
        | some fallback =>
            .ok (some ⟨fallback.accountId,
              snapshotCheckedAt fallback.quota fallback.quotaCheckedAt, .modeFallback⟩)
        | none => .error "Cannot select a sticky candidate: input.candidates is empty"

end StickyRouting
