import OpenaiAuth.Js.Json
import Mathlib.Data.List.Sort
import Mathlib.Algebra.Order.Ring.Rat

/-! # Saved reset-credit redemptions

The data of `reset-credits.ts` and its functions on the saved state: reading a
saved pair back, the checks that gate a spend, and the four mutations the store
runs under its lock. The store itself and the attempts are in `Redemption`.
-/

namespace ResetCredits

open Js

/-! ## Constants -/

def resetInFlightTtlMs : Rat := 5 * 60000
def resetConsumeTimeoutMs : Rat := 60000
def resetCooldownMs : Rat := 60000

/-! ## Data -/

/-- What the server dedupes a redemption on. -/
structure PairIds where
  creditId : String
  redeemRequestId : String
deriving DecidableEq, Repr

/-- A saved redemption: the pair, who may send it, and when it may go. -/
structure SavedResetPair where
  redeemRequestId : String
  creditId : String
  startedAt : Rat
  chatgptAccountId : Option String := none
  rejectedStatus : Option Rat := none
  unknownAnswers : Option Nat := none
deriving DecidableEq, Repr

namespace SavedResetPair

def ids (p : SavedResetPair) : PairIds := ⟨p.creditId, p.redeemRequestId⟩

/-- `pair.unknownAnswers ?? 0`. -/
def unknown (p : SavedResetPair) : Nat := p.unknownAnswers.getD 0

end SavedResetPair

structure ResetLastOutcome where
  code : String
  at_ : Rat
  previousOutcome : Option (String × Rat) := none
deriving DecidableEq, Repr

/-- The saved state of one account. `inFlight` is whatever record the file
holds; only `validInFlight` says whether it is a pair. -/
structure ResetAccountState where
  inFlight : Option Json := none
  lastOutcome : Option ResetLastOutcome := none
  cooldownUntil : Option Rat := none
deriving DecidableEq

abbrev ResetStateByAccount := String → Option ResetAccountState

structure ResetCredit where
  id : String
  status : String
  /-- `Date.parse(expiresAt)`; `parseCredit` drops a credit where it is `NaN`. -/
  expiresAt : Rat
  resetType : Option String := none
  isSupportedByPlan : Bool
deriving DecidableEq, Repr

/-- `ResetCredit | { id: string }`. -/
inductive ResetSelectedCredit where
  | credit (c : ResetCredit)
  | onlyId (id : String)
deriving DecidableEq, Repr

inductive ResetConsumeKind where
  | reset
  | alreadyRedeemed
  | nothingToReset
  | noCredit
  | httpError
  | ambiguous
deriving DecidableEq, Repr

namespace ResetConsumeKind

/-- The kind's text in the source, on the wire and in `lastOutcome`. -/
def text : ResetConsumeKind → String
  | reset => "reset"
  | alreadyRedeemed => "already_redeemed"
  | nothingToReset => "nothing_to_reset"
  | noCredit => "no_credit"
  | httpError => "http_error"
  | ambiguous => "ambiguous"

end ResetConsumeKind

/-- What an outcome keeps of the answer: an error, the text, or its JSON. -/
inductive Raw where
  | error
  | text (s : String)
  | json (j : Json)
deriving DecidableEq

structure ResetConsumeOutcome where
  kind : ResetConsumeKind
  raw : Raw
  status : Option Rat := none
deriving DecidableEq

structure ResetClaim where
  inFlight : SavedResetPair
  selectedCredit : ResetSelectedCredit
deriving DecidableEq, Repr

inductive ResetStateDecision where
  | fresh (beforeState : Option ResetAccountState)
  | claim (beforeState : Option ResetAccountState) (claim : ResetClaim)
  | expiredUnreconciled (beforeState : Option ResetAccountState) (claim : ResetClaim)
  | cooldown (beforeState : Option ResetAccountState) (cooldownUntil : Rat)
  | corrupt (beforeState : Option ResetAccountState)
deriving DecidableEq

namespace ResetStateDecision

def beforeState : ResetStateDecision → Option ResetAccountState
  | fresh b | claim b _ | expiredUnreconciled b _ | cooldown b _ | corrupt b => b

end ResetStateDecision

/-! ## Reading the saved state -/

def isSafeResetAccountKey (accountKey : String) : Bool :=
  accountKey ≠ "" && accountKey ∉ ["__proto__", "constructor", "prototype"]

/-- A consume status that says the server refused the request outright. -/
def isDefiniteRefusal (status : Rat) : Bool :=
  400 ≤ status && status < 500 && status ≠ 408 && status ≠ 409 && status ≠ 425 && status ≠ 429

def isRefusedConsume (outcome : ResetConsumeOutcome) : Bool :=
  outcome.kind = .httpError && outcome.status.any isDefiniteRefusal

def isTerminalConsumeKind : ResetConsumeKind → Bool
  | .reset | .alreadyRedeemed | .nothingToReset | .noCredit => true
  | .httpError | .ambiguous => false

/-- `value.chatgptAccountId` is absent or a non-empty string. -/
def readableAccount : Option Json → Bool
  | none => true
  | some (.str s) => s ≠ ""
  | some _ => false

/-- The pair a saved record is, if it is a whole one. -/
def validInFlight (value : Option Json) : Option SavedResetPair := do
  let value ← value
  let redeemRequestId ← value.stringAt? "redeemRequestId"
  guard (redeemRequestId ≠ "")
  let creditId ← value.stringAt? "creditId"
  guard (creditId ≠ "")
  let startedAt ← (value.get? "startedAt").bind Json.number?
  guard (readableAccount (value.get? "chatgptAccountId"))
  return {
    redeemRequestId
    creditId
    startedAt
    chatgptAccountId := value.stringAt? "chatgptAccountId"
    rejectedStatus := ((value.get? "rejectedStatus").bind Json.number?).filter isDefiniteRefusal
    unknownAnswers :=
      (((value.get? "unknownAnswers").bind Json.number?).bind safeNat?).filter (0 < ·) }

/-- The record a pair is saved as. -/
def SavedResetPair.toJson (p : SavedResetPair) : Json :=
  .obj <|
    [("redeemRequestId", .str p.redeemRequestId), ("creditId", .str p.creditId),
      ("startedAt", .num p.startedAt)] ++
    (p.chatgptAccountId.map fun a => ("chatgptAccountId", Json.str a)).toList ++
    (p.rejectedStatus.map fun s => ("rejectedStatus", Json.num s)).toList ++
    (p.unknownAnswers.map fun n => ("unknownAnswers", Json.num n)).toList

/-- A pair `validInFlight` reads back: no empty id, no empty account. -/
def SavedResetPair.Readable (p : SavedResetPair) : Prop :=
  p.redeemRequestId ≠ "" ∧ p.creditId ≠ "" ∧ p.chatgptAccountId ≠ some ""

instance (p : SavedResetPair) : Decidable p.Readable :=
  inferInstanceAs (Decidable (_ ∧ _ ∧ _))

/-- What is left of a pair once it is saved and read back: an unreadable status
or count is dropped. -/
def SavedResetPair.reread (p : SavedResetPair) : SavedResetPair :=
  { p with
    rejectedStatus := p.rejectedStatus.filter isDefiniteRefusal
    unknownAnswers := p.unknownAnswers.filter fun n => 0 < n && n ≤ maxSafeInteger }

section Reading

variable (p : SavedResetPair)

@[simp] theorem toJson_redeemRequestId :
    p.toJson.get? "redeemRequestId" = some (.str p.redeemRequestId) := rfl

@[simp] theorem toJson_creditId : p.toJson.get? "creditId" = some (.str p.creditId) := rfl

@[simp] theorem toJson_startedAt : p.toJson.get? "startedAt" = some (.num p.startedAt) := rfl

@[simp] theorem toJson_chatgptAccountId :
    p.toJson.get? "chatgptAccountId" = p.chatgptAccountId.map .str := by
  obtain ⟨_, _, _, account, rejected, unknown⟩ := p
  cases account <;> cases rejected <;> cases unknown <;> rfl

@[simp] theorem toJson_rejectedStatus :
    p.toJson.get? "rejectedStatus" = p.rejectedStatus.map .num := by
  obtain ⟨_, _, _, account, rejected, unknown⟩ := p
  cases account <;> cases rejected <;> cases unknown <;> rfl

@[simp] theorem toJson_unknownAnswers :
    p.toJson.get? "unknownAnswers" = p.unknownAnswers.map fun n => .num n := by
  obtain ⟨_, _, _, account, rejected, unknown⟩ := p
  cases account <;> cases rejected <;> cases unknown <;> rfl

end Reading

theorem safeNat?_filter_pos (n : Nat) :
    (safeNat? (n : Rat)).filter (0 < ·) =
      (some n).filter fun n => decide (0 < n) && decide (n ≤ maxSafeInteger) := by
  by_cases h : n ≤ maxSafeInteger <;> simp [h, Option.filter]

theorem validInFlight_toJson (p : SavedResetPair) :
    validInFlight (some p.toJson) = if p.Readable then some p.reread else none := by
  have hredeem : p.toJson.stringAt? "redeemRequestId" = some p.redeemRequestId := by
    simp [Json.stringAt?, Json.string?]
  have hcredit : p.toJson.stringAt? "creditId" = some p.creditId := by
    simp [Json.stringAt?, Json.string?]
  have haccount : p.toJson.stringAt? "chatgptAccountId" = p.chatgptAccountId := by
    cases h : p.chatgptAccountId <;> simp [Json.stringAt?, Json.string?, h]
  have hreadable : readableAccount (p.toJson.get? "chatgptAccountId") =
      decide (p.chatgptAccountId ≠ some "") := by
    cases h : p.chatgptAccountId <;> simp [readableAccount, h]
  have hrejected : (p.toJson.get? "rejectedStatus").bind Json.number? = p.rejectedStatus := by
    cases h : p.rejectedStatus <;> simp [Json.number?, h]
  have hunknown : (((p.toJson.get? "unknownAnswers").bind Json.number?).bind safeNat?).filter
      (0 < ·) = p.reread.unknownAnswers := by
    cases h : p.unknownAnswers with
    | none => simp [SavedResetPair.reread, h]
    | some n =>
        have hn := safeNat?_filter_pos n
        simpa [SavedResetPair.reread, Json.number?, h] using hn
  have hstarted : (p.toJson.get? "startedAt").bind Json.number? = some p.startedAt := rfl
  simp only [validInFlight, Option.bind_eq_bind, Option.bind_some, hredeem, hcredit, hstarted,
    haccount, hreadable, hrejected, hunknown, SavedResetPair.Readable]
  by_cases h₁ : p.redeemRequestId = "" <;> by_cases h₂ : p.creditId = "" <;>
    by_cases h₃ : p.chatgptAccountId = some "" <;>
    simp [h₁, h₂, h₃, guard, SavedResetPair.reread]

/-! ## The gates of a spend -/

/-- Whether a new spend under `chatgptAccountId` may replace `pair`, which is
past its five-minute window. -/
def mayReplaceExpiredPair (pair : SavedResetPair) (chatgptAccountId : Option String) : Bool :=
  (pair.chatgptAccountId.isSome && pair.chatgptAccountId ≠ chatgptAccountId) ||
    pair.rejectedStatus.isSome

/-- The check of `assertPairBelongsTo`: a pair with no recorded account passes. -/
def pairBelongsTo (pair : SavedResetPair) (chatgptAccountId : Option String) : Bool :=
  pair.chatgptAccountId.isNone || pair.chatgptAccountId = chatgptAccountId

def isYoungerThanInFlightTtl (pair : SavedResetPair) (now : Rat) : Bool :=
  now - pair.startedAt < resetInFlightTtlMs

def resetStateForAccount (current : ResetStateByAccount) (accountKey : String) :
    Option ResetAccountState :=
  if isSafeResetAccountKey accountKey then current accountKey else none

/-- The pair saved for an account, read back. -/
def savedPair (current : ResetStateByAccount) (accountKey : String) : Option SavedResetPair :=
  validInFlight ((resetStateForAccount current accountKey).bind (·.inFlight))

def hasInFlightField (state : Option ResetAccountState) : Bool :=
  (state.bind (·.inFlight)).isSome

def cooldownActive (state : Option ResetAccountState) (now : Rat) : Option Rat :=
  (state.bind (·.cooldownUntil)).filter (now < ·)

def isResetCreditEligible (credit : ResetCredit) : Bool :=
  credit.status = "available" && credit.isSupportedByPlan &&
    credit.resetType = some "codex_rate_limits"

/-- The eligible credit that expires first, the first listed of equals. -/
def selectCreditToSpend (credits : List ResetCredit) : Option ResetCredit :=
  ((credits.filter isResetCreditEligible).insertionSort
    fun left right => left.expiresAt ≤ right.expiresAt).head?

structure QuotaWindow where
  usedPercent : Rat
  /-- `none`: absent or empty; `some none`: not a date. -/
  resetsAt : Option (Option Rat) := none
deriving DecidableEq, Repr

structure OAuthQuotaSnapshot where
  primary : Option QuotaWindow := none
  secondary : Option QuotaWindow := none
deriving DecidableEq, Repr

def resetWindowIsExhausted (window : Option QuotaWindow) (now : Rat) : Bool :=
  match window with
  | none => false
  | some window =>
      100 ≤ window.usedPercent &&
        match window.resetsAt with
        | some (some resetsAt) => now < resetsAt
        | _ => true

/-- `evaluateResetPrecondition`: whether the account is exhausted. -/
def evaluateResetPrecondition (quota : OAuthQuotaSnapshot) (hasActiveRateLimitMark : Bool)
    (now : Rat) : Bool :=
  hasActiveRateLimitMark || resetWindowIsExhausted quota.primary now ||
    resetWindowIsExhausted quota.secondary now

/-! ## The answer of the consume endpoint -/

/-- What became of the body of a response: reading it threw, or its text, with
what `JSON.parse` makes of it. -/
inductive Body where
  | failed
  | text (s : String) (parsed : Option Json)
deriving DecidableEq

/-- What `fetch` came back with; a timeout rejects it. -/
inductive FetchAnswer where
  | rejected
  | response (status : Rat) (body : Body)
deriving DecidableEq

def terminalCode (code : Option Json) : Option ResetConsumeKind :=
  [.reset, .alreadyRedeemed, .nothingToReset, .noCredit].find? fun k =>
    code = some (.str (ResetConsumeKind.text k))

/-- `consumeResetCredit`, from the answer on. -/
def consumeOutcome : FetchAnswer → ResetConsumeOutcome
  | .rejected => { kind := .ambiguous, raw := .error }
  | .response status .failed =>
      if 200 ≤ status ∧ status ≤ 299 then { kind := .ambiguous, raw := .error }
      else { kind := .httpError, raw := .error, status := some status }
  | .response status (.text s parsed) =>
      let raw := match parsed with
        | some j => Raw.json j
        | none => .text s
      if ¬ (200 ≤ status ∧ status ≤ 299) then { kind := .httpError, raw, status := some status }
      else
        match parsed.filter Json.isRecord |>.bind fun j => terminalCode (j.get? "code") with
        | some kind => { kind, raw }
        | none => { kind := .ambiguous, raw }

/-! ## The mutations the store runs under its lock -/

def replaying (inFlight : SavedResetPair) : ResetClaim where
  inFlight := inFlight
  selectedCredit := .onlyId inFlight.creditId

def resolveCorruptState (current : ResetStateByAccount) (accountKey : String) (now : Rat) :
    ResetStateByAccount :=
  if isSafeResetAccountKey accountKey then
    let state := (current accountKey).getD {}
    Function.update current accountKey <| some {
      state with
      inFlight := none
      lastOutcome := some {
        code := "ambiguous_local"
        at_ := now
        previousOutcome := state.lastOutcome.map fun o => (o.code, o.at_) } }
  else current

def inspectResetState (state : Option ResetAccountState) (now : Rat) : ResetStateDecision :=
  let inFlight := validInFlight (state.bind (·.inFlight))
  if hasInFlightField state ∧ inFlight.isNone then .corrupt state
  else
    match cooldownActive state now with
    | some cooldownUntil => .cooldown state cooldownUntil
    | none =>
        match inFlight with
        | some inFlight =>
            if isYoungerThanInFlightTtl inFlight now then .claim state (replaying inFlight)
            else .expiredUnreconciled state (replaying inFlight)
        | none => .fresh state

/-- The mutation of `resolveCorruptResetAttempt`. -/
def resolveCorruptMutation (now : Rat) (accountKey : String) (current : ResetStateByAccount) :
    ResetStateDecision × ResetStateByAccount :=
  let decision := inspectResetState (resetStateForAccount current accountKey) now
  match decision with
  | .corrupt _ => (decision, resolveCorruptState current accountKey now)
  | _ => (decision, current)

/-- The mutation of `claimResetAttempt`; `uuid` is what `randomUUID` gives. -/
def claimMutation (now : Rat) (uuid accountKey : String) (credits : List ResetCredit)
    (chatgptAccountId : Option String) (current : ResetStateByAccount) :
    ResetStateDecision × ResetStateByAccount :=
  let state := resetStateForAccount current accountKey
  let inFlight := validInFlight (state.bind (·.inFlight))
  if hasInFlightField state ∧ inFlight.isNone then
    (.corrupt state, resolveCorruptState current accountKey now)
  else
    match cooldownActive state now with
    | some cooldownUntil => (.cooldown state cooldownUntil, current)
    | none =>
        match inFlight.filter (isYoungerThanInFlightTtl · now) with
        | some young => (.claim state (replaying young), current)
        | none =>
            match inFlight.filter fun p => ¬ mayReplaceExpiredPair p chatgptAccountId with
            | some locked => (.expiredUnreconciled state (replaying locked), current)
            | none =>
                match selectCreditToSpend credits with
                | none => (.fresh state, current)
                | some selectedCredit =>
                    let claimed : SavedResetPair := {
                      redeemRequestId := uuid
                      creditId := selectedCredit.id
                      startedAt := now
                      chatgptAccountId }
                    (.claim state { inFlight := claimed, selectedCredit := .credit selectedCredit },
                      Function.update current accountKey <| some {
                        state.getD {} with inFlight := some claimed.toJson })

/-- The pair saved in `state`, when it is the same pair as `completing`. -/
def savedPairMatching (state : Option ResetAccountState) (completing : SavedResetPair) :
    Option SavedResetPair :=
  (validInFlight (state.bind (·.inFlight))).filter fun persisted => persisted.ids = completing.ids

/-- The mutation of `finalizeResetAttempt` on a terminal answer. -/
def terminalMutation (now : Rat) (accountKey : String) (completing : SavedResetPair)
    (outcome : ResetConsumeOutcome) (current : ResetStateByAccount) : ResetStateByAccount :=
  let state := resetStateForAccount current accountKey
  match state, savedPairMatching state completing with
  | some state, some _ =>
      Function.update current accountKey <| some {
        state with
        inFlight := none
        lastOutcome := some { code := outcome.kind.text, at_ := now }
        cooldownUntil :=
          if outcome.kind = .reset ∨ outcome.kind = .alreadyRedeemed then
            some (now + resetCooldownMs)
          else none }
  | _, _ => current

/-- The saved pair once an answer that settles nothing is written over it. -/
def SavedResetPair.unreconciled (persisted completing : SavedResetPair)
    (outcome : ResetConsumeOutcome) (sentAs : Option String) : SavedResetPair :=
  let bound := { persisted with chatgptAccountId := persisted.chatgptAccountId.or sentAs }
  if isRefusedConsume outcome then
    if persisted.unknown = completing.unknown then { bound with rejectedStatus := outcome.status }
    else bound
  else
    { bound with rejectedStatus := none, unknownAnswers := some (persisted.unknown + 1) }

/-- The mutation of `recordUnreconciledAnswer`. -/
def unreconciledMutation (accountKey : String) (completing : SavedResetPair)
    (outcome : ResetConsumeOutcome) (sentAs : Option String) (current : ResetStateByAccount) :
    Option SavedResetPair × ResetStateByAccount :=
  let state := resetStateForAccount current accountKey
  match state, savedPairMatching state completing with
  | some state, some persisted =>
      let next := persisted.unreconciled completing outcome sentAs
      (some next, Function.update current accountKey <| some {
        state with inFlight := some next.toJson })
  | _, _ => (none, current)

end ResetCredits
