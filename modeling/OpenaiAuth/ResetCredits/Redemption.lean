import OpenaiAuth.Interleave.System
import OpenaiAuth.ResetCredits.State

/-! # Redemption attempts

`runResetCreditRedemption` as a program over the calls it awaits, and the
machine those calls run on: the account store with its lock, the clock, and a
server that answers anything. Every call on the store and on the server is
logged, newest first; the log is what the properties of a run speak about.
-/

namespace ResetCredits

open Interleave

/-! ## Calls -/

structure ResetResolvedTarget where
  accountKey : String
  label : String
  accessToken : String
  chatgptAccountId : Option String
deriving DecidableEq, Repr

/-- The mutations an attempt hands to `mutateAccounts`. -/
inductive Mutation where
  | resolveCorrupt (accountKey : String)
  | claim (accountKey : String) (credits : List ResetCredit) (chatgptAccountId : Option String)
  | terminal (accountKey : String) (completing : SavedResetPair) (outcome : ResetConsumeOutcome)
  | unreconciled (accountKey : String) (completing : SavedResetPair)
      (outcome : ResetConsumeOutcome) (sentAs : Option String)
deriving DecidableEq

namespace Mutation

/-- What the mutation leaves in the variable its caller returns. -/
abbrev Answer : Mutation → Type
  | resolveCorrupt _ | claim _ _ _ => ResetStateDecision
  | terminal _ _ _ => Unit
  | unreconciled _ _ _ _ => Option SavedResetPair

/-- Runs the mutation on the store at time `now`; `uuid` is what `randomUUID`
would give. -/
def apply (now : Rat) (uuid : String) :
    (m : Mutation) → ResetStateByAccount → m.Answer × ResetStateByAccount
  | resolveCorrupt key, current => resolveCorruptMutation now key current
  | claim key credits account, current => claimMutation now uuid key credits account current
  | terminal key completing outcome, current =>
      ((), terminalMutation now key completing outcome current)
  | unreconciled key completing outcome sentAs, current =>
      unreconciledMutation key completing outcome sentAs current

def accountKey : Mutation → String
  | resolveCorrupt key | claim key _ _ | terminal key _ _ | unreconciled key _ _ _ => key

/-- Only a claim calls `randomUUID`. -/
def mayMint : Mutation → Bool
  | claim _ _ _ => true
  | _ => false

end Mutation

inductive Call where
  | resolveTarget (accountKey : String)
  | loadAccounts
  | now
  | fetchUsage (target : ResetResolvedTarget)
  | listResetCredits (accessToken : String) (accountId : Option String)
  | hasActiveRateLimitMark (accountKey : String)
  | mutateAccounts (m : Mutation)
  /-- The consume request leaves, made for `target`; `accountId` is its
  `chatgpt-account-id` header. -/
  | postConsume (target : ResetResolvedTarget) (accountId : Option String) (ids : PairIds)
  | consumeAnswer
deriving DecidableEq

/-- The call only asks for something that no attempt keeps. -/
def Call.quiet : Call → Bool
  | now | fetchUsage _ | listResetCredits _ _ | hasActiveRateLimitMark _ => true
  | _ => false

/-- What a call answers; `.error ()` where it throws. -/
abbrev Call.Ans : Call → Type
  | resolveTarget _ => Except Unit ResetResolvedTarget
  | loadAccounts => Except Unit ResetStateByAccount
  | now => Rat
  | fetchUsage _ => Except Unit OAuthQuotaSnapshot
  | listResetCredits _ _ => Except Unit (List ResetCredit)
  | hasActiveRateLimitMark _ => Bool
  | mutateAccounts m => Except Unit m.Answer
  | postConsume _ _ _ => Unit
  | consumeAnswer => FetchAnswer

abbrev calls : Sig := ⟨Call, Call.Ans⟩

/-! ## The attempt -/

inductive ResetRedemptionErrorKind where
  | invalidAccountKey
  | identityMismatch
  | pairIdentityMismatch
  | cooldownActive
  | expiredUnreconciled
  | retryWithoutInflight
  | notExhausted
  | noEligibleCredit
deriving DecidableEq, Repr

/-- What an attempt throws: its own error, or what a call threw. -/
inductive RedemptionError where
  | redemption (kind : ResetRedemptionErrorKind) (message : String)
      (cooldownUntil : Option Rat := none)
  | thrown
deriving DecidableEq, Repr

abbrev Attempt (α : Type) := Throwing RedemptionError calls α

/-- Makes a call that may throw. -/
def callThrowing {α : Type} (o : Call) (ans : o.Ans → Except Unit α) : Attempt α :=
  Throwing.perform (S := calls) o fun r =>
    match ans r with
    | .ok a => .ok a
    | .error () => .error .thrown

/-- Makes a call that never throws. -/
def callPlain (o : Call) : Attempt o.Ans :=
  Throwing.perform (S := calls) o Except.ok

def loadAccounts : Attempt ResetStateByAccount :=
  callThrowing .loadAccounts id

def mutateAccounts (m : Mutation) : Attempt m.Answer :=
  callThrowing (.mutateAccounts m) id

def now : Attempt Rat :=
  callPlain .now

def inspectResetAttempt (accountKey : String) : Attempt ResetStateDecision :=
  if isSafeResetAccountKey accountKey then do
    let current ← loadAccounts
    let at_ ← now
    return inspectResetState (resetStateForAccount current accountKey) at_
  else return .fresh none

def resolveCorruptResetAttempt (accountKey : String) : Attempt ResetStateDecision :=
  mutateAccounts (.resolveCorrupt accountKey)

def claimResetAttempt (accountKey : String) (credits : List ResetCredit)
    (chatgptAccountId : Option String) : Attempt ResetStateDecision :=
  if isSafeResetAccountKey accountKey then
    mutateAccounts (.claim accountKey credits chatgptAccountId)
  else return .fresh none

def recordUnreconciledAnswer (accountKey : String) (completing : SavedResetPair)
    (outcome : ResetConsumeOutcome) (sentAs : Option String) :
    Attempt (Option SavedResetPair) :=
  let refusal := if isRefusedConsume outcome then outcome.status else none
  let bind := completing.chatgptAccountId.isNone && sentAs.isSome
  if ¬ bind ∧ refusal.isSome ∧ refusal = completing.rejectedStatus then do
    let current ← loadAccounts
    return savedPairMatching (resetStateForAccount current accountKey) completing
  else
    mutateAccounts (.unreconciled accountKey completing outcome sentAs)

def finalizeResetAttempt (accountKey : String) (completing : SavedResetPair)
    (outcome : ResetConsumeOutcome) (sentAs : Option String) :
    Attempt (Option SavedResetPair) :=
  if isSafeResetAccountKey accountKey then
    if isTerminalConsumeKind outcome.kind then do
      mutateAccounts (.terminal accountKey completing outcome)
      return none
    else recordUnreconciledAnswer accountKey completing outcome sentAs
  else return none

/-- The request is made for `target`, with its access token. -/
def consumeResetCredit (target : ResetResolvedTarget) (accountId : Option String)
    (ids : PairIds) : Attempt ResetConsumeOutcome := do
  callPlain (.postConsume target accountId ids)
  let answer ← callPlain .consumeAnswer
  return consumeOutcome answer

def throwForCooldown {α : Type} (cooldownUntil : Rat) : Attempt α :=
  throw (.redemption .cooldownActive "reset credit redemption is cooling down" cooldownUntil)

def throwExpiredUnreconciled {α : Type} : Attempt α :=
  throw (.redemption .expiredUnreconciled "the previous reset attempt outcome is unknown")

def assertPairBelongsTo (pair : SavedResetPair) (chatgptAccountId : Option String) :
    Attempt Unit :=
  if pairBelongsTo pair chatgptAccountId then return ()
  else
    throw (.redemption .pairIdentityMismatch
      "the saved reset redemption was started under a different ChatGPT account")

structure RunResetCreditInput where
  accountKey : String
  expectedChatgptAccountId : String
  retry : Bool
deriving DecidableEq, Repr

inductive ResetRedemptionOutcome where
  | consumed (outcome : ResetConsumeOutcome)
  | ambiguousLocal (reason : String)
deriving DecidableEq

structure RunResetCreditResult where
  target : ResetResolvedTarget
  selectedCredit : Option ResetSelectedCredit
  beforeState : Option ResetAccountState
  outcome : ResetRedemptionOutcome
  retrySafety : String
  refused : Bool := false
  finalizeStateWriteFailed : Bool := false
deriving DecidableEq

def localAmbiguousResult (target : ResetResolvedTarget)
    (beforeState : Option ResetAccountState) : RunResetCreditResult where
  target := target
  selectedCredit := none
  beforeState := beforeState
  outcome := .ambiguousLocal "corrupt_in_flight"
  retrySafety := "No request was sent because the saved redemption identity was incomplete."

def retrySafetyFor (outcome : ResetConsumeOutcome) : String :=
  if outcome.kind = .reset ∨ outcome.kind = .alreadyRedeemed then
    "The server returned a terminal result; cooldown blocks an immediate new redemption."
  else if outcome.kind = .nothingToReset ∨ outcome.kind = .noCredit then
    "The server returned a terminal no-op. No cooldown was set; a new attempt starts fresh and remains gated by fresh preconditions."
  else if isRefusedConsume outcome then
    "The server refused the request. A retry within five minutes reuses the same request and credit identifiers; after that, a new attempt starts fresh and remains gated by fresh preconditions."
  else
    "The outcome is uncertain. A retry within five minutes reuses the same request and credit identifiers; this does not prove the server did nothing."

def unrecordedRefusalSafety (stateWriteFailed : Bool) (saved : Option SavedResetPair) : String :=
  if stateWriteFailed then
    "The server refused the request, but recording the refusal failed, so the saved redemption may still be treated as unknown and block a new attempt. A retry reuses the same request and credit identifiers; this does not prove the server did nothing."
  else if saved.isSome then
    "The server refused the request, but another send of the same request had an unknown outcome, so the saved redemption still blocks a new attempt until a retry settles it. A retry reuses the same request and credit identifiers; this does not prove the server did nothing."
  else
    "The server refused the request, and another attempt has already settled or replaced the saved redemption. A new attempt is gated by the current saved state and fresh preconditions."

/-- A state whose pair was corrupt is repaired under the lock. -/
def repairCorrupt (accountKey : String) (initial : ResetStateDecision) :
    Attempt ResetStateDecision :=
  match initial with
  | .corrupt _ => resolveCorruptResetAttempt accountKey
  | _ => return initial

/-- The checks of a new spend, then its claim. -/
def claimNewSpend (target : ResetResolvedTarget) (accountKey : String)
    (identity wireAccountId : Option String) : Attempt ResetStateDecision := do
  let quota ← callThrowing (.fetchUsage target) id
  let credits ← callThrowing (.listResetCredits target.accessToken wireAccountId) id
  let mark ← callPlain (.hasActiveRateLimitMark accountKey)
  let at_ ← now
  if evaluateResetPrecondition quota mark at_ then
    if (selectCreditToSpend credits).isSome then
      claimResetAttempt accountKey credits identity
    else
      throw (.redemption .noEligibleCredit "no eligible reset credit was returned")
  else
    throw (.redemption .notExhausted "not exhausted")

/-- A new spend, which may replace an expired pair `claimResetAttempt` judges
replaceable; a retry needs a saved pair. -/
def spend (input : RunResetCreditInput) (target : ResetResolvedTarget)
    (identity wireAccountId : Option String) :
    Attempt (ResetClaim ⊕ Option ResetAccountState) :=
  if input.retry then
    throw (.redemption .retryWithoutInflight
      "there is no active reset credit redemption to retry")
  else do
    let claimed ← claimNewSpend target input.accountKey identity wireAccountId
    match claimed with
    | .corrupt beforeState => return .inr beforeState
    | .cooldown _ cooldownUntil => throwForCooldown cooldownUntil
    | .expiredUnreconciled _ _ => throwExpiredUnreconciled
    | .fresh _ =>
        throw (.redemption .noEligibleCredit
          "no eligible reset credit was available while claiming")
    | .claim _ claim => return .inl claim

/-- The pair an attempt goes on to send, or the state whose corrupt pair keeps
it from sending anything. -/
def chooseClaim (input : RunResetCreditInput) (target : ResetResolvedTarget)
    (identity wireAccountId : Option String) (initial : ResetStateDecision) :
    Attempt (ResetClaim ⊕ Option ResetAccountState) :=
  match initial with
  | .corrupt beforeState => return .inr beforeState
  | .cooldown _ cooldownUntil => throwForCooldown cooldownUntil
  | .claim _ claim => return .inl claim
  | .expiredUnreconciled _ claim =>
      if input.retry ∨ ¬ mayReplaceExpiredPair claim.inFlight identity then
        if input.retry then return .inl claim else throwExpiredUnreconciled
      else spend input target identity wireAccountId
  | .fresh _ => spend input target identity wireAccountId

/-- What an attempt reports of a send: `finalized` is how recording its answer
ended. -/
def sentResult (target : ResetResolvedTarget) (beforeState : Option ResetAccountState)
    (claim : ResetClaim) (outcome : ResetConsumeOutcome)
    (finalized : Except RedemptionError (Option SavedResetPair)) : RunResetCreditResult :=
  let stateWriteFailed := match finalized with
    | .ok _ => false
    | .error _ => true
  let saved := match finalized with
    | .ok saved => saved
    | .error _ => none
  let finalizeStateWriteFailed := stateWriteFailed && isTerminalConsumeKind outcome.kind
  let refused := isRefusedConsume outcome && !stateWriteFailed &&
    (saved.bind (·.rejectedStatus)).isSome
  { target
    selectedCredit := some claim.selectedCredit
    beforeState
    outcome := .consumed outcome
    retrySafety :=
      if finalizeStateWriteFailed then
        "The server returned a terminal result, but the state write failed. A retry within five minutes reuses the same request and credit identifiers."
      else if isRefusedConsume outcome ∧ ¬ refused then
        unrecordedRefusalSafety stateWriteFailed saved
      else retrySafetyFor outcome
    refused
    finalizeStateWriteFailed }

/-- Sends `claim` and records the answer. -/
def sendClaim (accountKey : String) (target : ResetResolvedTarget)
    (identity wireAccountId : Option String) (beforeState : Option ResetAccountState)
    (claim : ResetClaim) : Attempt RunResetCreditResult := do
  assertPairBelongsTo claim.inFlight identity
  let outcome ← consumeResetCredit target wireAccountId claim.inFlight.ids
  let finalized ← Throwing.attempt
    (finalizeResetAttempt accountKey claim.inFlight outcome identity)
  return sentResult target beforeState claim outcome finalized

/-- An attempt from the saved state `initial` on, which is no longer corrupt or
was just found so. -/
def redeem (input : RunResetCreditInput) (target : ResetResolvedTarget)
    (initial : ResetStateDecision) : Attempt RunResetCreditResult := do
  let identity := target.chatgptAccountId
  let wireAccountId := if target.accountKey = "main" then none else identity
  let chosen ← chooseClaim input target identity wireAccountId initial
  match chosen with
  | .inl claim =>
      sendClaim input.accountKey target identity wireAccountId initial.beforeState claim
  | .inr beforeState => return localAmbiguousResult target beforeState

def runResetCreditRedemption (input : RunResetCreditInput) : Attempt RunResetCreditResult :=
  if isSafeResetAccountKey input.accountKey then do
    let target ← callThrowing (.resolveTarget input.accountKey) id
    if target.chatgptAccountId = some input.expectedChatgptAccountId then do
      let inspected ← inspectResetAttempt input.accountKey
      let initial ← repairCorrupt input.accountKey inspected
      redeem input target initial
    else
      throw (.redemption .identityMismatch
        "the resolved ChatGPT account identity changed before redemption")
  else
    throw (.redemption .invalidAccountKey "the reset account key is reserved")

/-! ## The machine -/

/-- How an access to the store ends: done, or a throw before or after it took
effect. -/
inductive StoreResult where
  | done
  | threwBefore
  | threwAfter
deriving DecidableEq, Repr

namespace StoreResult

/-- The access took effect. -/
def persisted : StoreResult → Bool
  | done | threwAfter => true
  | threwBefore => false

end StoreResult

inductive LogEntry where
  | resolved (target : ResetResolvedTarget)
  | loaded (reset : ResetStateByAccount)
  | mutated (m : Mutation) (uuid : String) (result : StoreResult)
      (before after : ResetStateByAccount)
  | sent (target : ResetResolvedTarget) (ids : PairIds)
  | answered (outcome : ResetConsumeOutcome)
  | stopped

/-- One logged call: who made it, when, and what it was. -/
structure Logged where
  attempt : Nat
  at_ : Rat
  entry : LogEntry

structure World where
  clock : Rat
  reset : ResetStateByAccount
  /-- Every id a saved pair carried at the start or `randomUUID` gave since. -/
  redeemRequestIds : List String
  /-- Newest first. -/
  log : List Logged

namespace World

def record (w : World) (t : Nat) (entry : LogEntry) : World :=
  { w with log := ⟨t, w.clock, entry⟩ :: w.log }

@[simp] theorem record_log (w : World) (t : Nat) (entry : LogEntry) :
    (w.record t entry).log = ⟨t, w.clock, entry⟩ :: w.log := rfl

@[simp] theorem record_reset (w : World) (t : Nat) (entry : LogEntry) :
    (w.record t entry).reset = w.reset := rfl

@[simp] theorem record_clock (w : World) (t : Nat) (entry : LogEntry) :
    (w.record t entry).clock = w.clock := rfl

@[simp] theorem record_redeemRequestIds (w : World) (t : Nat) (entry : LogEntry) :
    (w.record t entry).redeemRequestIds = w.redeemRequestIds := rfl

/-- The store once `m` has run on it at the world's time. -/
def afterMutation (w : World) (m : Mutation) (uuid : String) (result : StoreResult) :
    ResetStateByAccount :=
  if result.persisted then (m.apply w.clock uuid w.reset).2 else w.reset

/-- `m` is run under the store's lock, which makes it one step. -/
def mutate (w : World) (t : Nat) (m : Mutation) (uuid : String) (result : StoreResult) : World :=
  { w with
    reset := w.afterMutation m uuid result
    redeemRequestIds := if m.mayMint then uuid :: w.redeemRequestIds else w.redeemRequestIds
    log := ⟨t, w.clock, .mutated m uuid result w.reset (w.afterMutation m uuid result)⟩ :: w.log }

/-- A world in which no attempt has run yet. -/
def initial (clock : Rat) (reset : ResetStateByAccount) (accountKey : String) : World where
  clock := clock
  reset := reset
  redeemRequestIds :=
    (((reset accountKey).bind (·.inFlight)).bind (·.stringAt? "redeemRequestId")).toList
  log := []

end World

/-- What the world chooses at a call. -/
inductive Choice where
  | target (r : Except Unit ResetResolvedTarget)
  | store (result : StoreResult) (uuid : String)
  | usage (r : Except Unit OAuthQuotaSnapshot)
  | credits (r : Except Unit (List ResetCredit))
  | mark (active : Bool)
  | answer (a : FetchAnswer)
  | none

def exec (t : Nat) : (o : Call) → Choice → World → Option (o.Ans × World)
  | .resolveTarget _, .target (.ok target), w => some (.ok target, w.record t (.resolved target))
  | .resolveTarget _, .target (.error ()), w => some (.error (), w)
  | .loadAccounts, .store .done _, w => some (.ok w.reset, w.record t (.loaded w.reset))
  | .loadAccounts, .store _ _, w => some (.error (), w)
  | .now, .none, w => some (w.clock, w)
  | .fetchUsage _, .usage r, w => some (r, w)
  | .listResetCredits _ _, .credits r, w => some (r, w)
  | .hasActiveRateLimitMark _, .mark b, w => some (b, w)
  | .mutateAccounts m, .store result uuid, w =>
      -- `randomUUID` gives a new, non-empty id.
      if m.mayMint ∧ (uuid = "" ∨ uuid ∈ w.redeemRequestIds) then none
      else
        some (if result = .done then .ok (m.apply w.clock uuid w.reset).1 else .error (),
          w.mutate t m uuid result)
  | .postConsume target _ ids, .none, w => some ((), w.record t (.sent target ids))
  | .consumeAnswer, .answer a, w => some (a, w.record t (.answered (consumeOutcome a)))
  | _, _, _ => none

/-- The only thing that happens by itself: time passes. -/
inductive Move where
  | tick (d : Rat)

def machine : Machine calls where
  World := World
  Choice := Choice
  Move := Move
  exec := exec
  move
    | .tick d, w => if 0 ≤ d then some { w with clock := w.clock + d } else none
  halt t w := w.record t .stopped

/-- A run of attempts. -/
abbrev RedemptionConfig := Config machine (Except RedemptionError RunResetCreditResult)

abbrev RedemptionEvent := Event machine (Except RedemptionError RunResetCreditResult)

/-- `p` is an attempt on `accountKey`, a new spend or a retry. -/
def IsAttempt (accountKey : String)
    (p : Prog calls (Except RedemptionError RunResetCreditResult)) : Prop :=
  ∃ expected retry, p = (runResetCreditRedemption
    { accountKey, expectedChatgptAccountId := expected, retry }).run

/-- `w` is reached by attempts on `accountKey` that start from the saved state
`reset`: any number of them, in any order of their steps, each free to stop. -/
def Reaches (accountKey : String) (reset : ResetStateByAccount) (w : World) : Prop :=
  ∃ (clock : Rat) (c : RedemptionConfig),
    Config.RunsTo (IsAttempt accountKey) (.initial (World.initial clock reset accountKey)) c ∧
    c.world = w

end ResetCredits
