import OpenaiAuth.Interleave.Dispatch
import OpenaiAuth.Request.Routing

/-! # Serving a request over the account pool

The request path of a migrated install: a wait that is owed after a limit, then
the session's pinned row, then the ordered rows. The code runs alone between two
`await`s, so each answer brings along the process as the request finds it when
it goes on. What the limit policy decides is left open: it may answer anything.
-/

namespace Request.Pool

open Interleave Sidebar Sidebar.Overlay Sidebar.Placement

/-! ## Calls -/

inductive RoutingMode where
  | ordered
  | mainFirst
  | fallbackFirst
  | stickyBalanced
deriving DecidableEq, Repr

/-- One account a request may be sent with: a pool row or a vault account. -/
structure PoolTarget (Map : Type) where
  id : String
  identity : Option String := none
  quota : Option Map := none
  kind : RowKind := .oauth
  isRow : Bool

/-- The accounts a request may be sent with. The pool store, and the vault's
list, hold each id once. -/
structure Roster (Map : Type) where
  targets : List (PoolTarget Map)
  distinct : (targets.map (·.id)).Nodup

structure AccountKey where
  accountId : String
  namespaceId : String
deriving DecidableEq, Repr

structure PendingPoolHold where
  accountKey : AccountKey
  model : String
  target : ℚ
deriving DecidableEq, Repr

structure VaultRoute where
  id : String
  identity : Option String
  credentialId : Option String
deriving DecidableEq, Repr

/-- The process as a request finds it. `targets` are its `currentTargets`, and
`pending` the hold under its own key. -/
structure PoolMoment (Map : Type) where
  now : ℚ
  targets : Roster Map
  rateLimitMarks : String → Option ℚ
  vaultRateLimitMarks : String → Option ℚ
  refreshBackoff : String → Option ℚ
  usableToken : String → Bool
  accountKeys : List AccountKey
  currentAccountKey : Option AccountKey
  pending : Option PendingPoolHold
  vaultRoutes : List VaultRoute
  resetCredits : String → Option ℚ
  sidebarSnapshot : SidebarSnapshot
  overlay : StickyPinOverlay

structure HoldFacts where
  maxWaitMs : ℚ
  cacheExpiresAt : ℚ
deriving DecidableEq, Repr

structure RoutingCandidate where
  accountId : String
  credentialId : String
  id : String
deriving DecidableEq, Repr

inductive LimitMode where
  | ordered
  | sticky
deriving DecidableEq, Repr

/-- `hold`: the decision after a limit is to wait. `confirmedBlockers`: the
account is known to be limited. -/
structure LimitDecision where
  hold : Bool
  confirmedBlockers : Bool
deriving DecidableEq, Repr

/-- A send is labelled with the killswitch verdict of its row in the routing
input the row was chosen from. -/
inductive Call where
  | prepare
  | waitForFirstQuotaReading
  | openAiHoldFacts
  | wakeRetained
  | sendTo (id : String) (verdict : Option Bool)
  | decideLimit (mode : LimitMode) (status : Nat) (next : Option String)
  | askRouting (candidates : List RoutingCandidate)
  | cancel (stream : Nat)
deriving DecidableEq, Repr

/-- What came back from a send: the stream and status of a response, nothing
where the account had nothing to send with, or whether a throw was an abort. -/
inductive Sent where
  | response (stream : Nat) (status : Nat)
  | nothing
  | threw (aborted : Bool)
deriving DecidableEq, Repr

/-- `askRouting` names one of the candidates it was given. -/
def Answer (Map : Type) : Call → Type
  | .prepare => PoolMoment Map
  | .waitForFirstQuotaReading => Option (PoolMoment Map)
  | .openAiHoldFacts => Option HoldFacts
  | .wakeRetained => Bool
  | .sendTo _ _ => Sent × PoolMoment Map
  | .decideLimit _ _ _ => LimitDecision × PoolMoment Map
  | .askRouting candidates => Option (Fin candidates.length) × PoolMoment Map
  | .cancel _ => Unit

def sig (Map : Type) : Sig where
  Call := Call
  Ans := Answer Map

/-- `loopEnds`: the ordered loop ran past its rows. -/
inductive Failure where
  | transport (aborted : Bool)
  | loginRequired
  | loopEnds
deriving DecidableEq, Repr

abbrev PoolM (Map α : Type) : Type := Throwing Failure (sig Map) α

structure Response where
  stream : Nat
  status : Nat
deriving DecidableEq, Repr

variable {Map : Type}

def prepare : PoolM Map (PoolMoment Map) :=
  Throwing.perform (S := sig Map) .prepare fun r => .ok r

def awaitFirstReading : PoolM Map (Option (PoolMoment Map)) :=
  Throwing.perform (S := sig Map) .waitForFirstQuotaReading fun r => .ok r

def openAiHoldFacts : PoolM Map (Option HoldFacts) :=
  Throwing.perform (S := sig Map) .openAiHoldFacts fun r => .ok r

def wakeRetained : PoolM Map Bool :=
  Throwing.perform (S := sig Map) .wakeRetained fun r => .ok r

/-- Makes one attempt with the account, chosen from `routing`. -/
def attemptSend (routing : PoolRoutingInput Map) (target : PoolTarget Map) :
    PoolM Map (Option Response × PoolMoment Map) :=
  Throwing.perform (S := sig Map) (.sendTo target.id (routing.killswitch target.id)) fun r =>
    match r.1 with
    | .response stream status => .ok (some ⟨stream, status⟩, r.2)
    | .nothing => .ok (none, r.2)
    | .threw aborted => .error (.transport aborted)

def decideLimit (mode : LimitMode) (status : Nat) (next : Option String) :
    PoolM Map (LimitDecision × PoolMoment Map) :=
  Throwing.perform (S := sig Map) (.decideLimit mode status next) fun r => .ok r

/-- The id of the candidate the routing accessor advises. -/
def askRouting (candidates : List RoutingCandidate) :
    PoolM Map (Option String × PoolMoment Map) :=
  Throwing.perform (S := sig Map) (.askRouting candidates) fun r =>
    .ok (r.1.map fun i => (candidates.get i).id, r.2)

/-- `response.body?.cancel()` -/
def cancel (response : Response) : PoolM Map Unit :=
  Throwing.perform (S := sig Map) (.cancel response.stream) fun r => .ok r

/-! ## The request -/

structure VaultRoutingRequest where
  modelId : String
  kind : String
  retry : Bool := false
deriving DecidableEq, Repr

/-- `body` is the number of its bytes. `loginRequired`: a refusal for want of a
credential is thrown instead. -/
structure PoolRequestContext where
  vault : Bool
  limitPolicy : Bool
  storage : Option AccountStorage
  mode : RoutingMode
  sessionHash : Option String
  routingRequest : Option VaultRoutingRequest
  body : Option ℚ
  model : String
  replayable : Bool
  loginRequired : Bool

inductive NoCredentialCause where
  | noAccounts
  | unusable
  | vaultEmpty
  | vaultRefused
  /-- What the vault says of having no route. -/
  | vaultNoRoute
deriving DecidableEq, Repr

def NoCredentialCause.isVaultModeRefusal : NoCredentialCause → Bool
  | .noAccounts => false
  | .unusable => false
  | .vaultEmpty => true
  | .vaultRefused => true
  | .vaultNoRoute => true

/-- A response of the provider, or one made here: a wait, a policy's refusal, or
a refusal of the request path itself. -/
inductive Reply where
  | provider (response : Response)
  | held
  | terminal (block : PoolBlock)
  | blocked (block : PoolBlock) (cause : Option NoCredentialCause)
deriving DecidableEq, Repr

structure PoolRequestResult where
  reply : Reply
  servedId : String
deriving DecidableEq, Repr

section Serving

variable (L : Library Map) (sameAccount : AccountKey → AccountKey → Bool)
  (dateParse : String → Option ℚ) (r : PoolRequestContext)

def routingRow (target : PoolTarget Map) : RoutingRow Map :=
  ⟨target.id, target.kind, target.quota⟩

def routingInput (targets : List (PoolTarget Map)) (m : PoolMoment Map) : PoolRoutingInput Map where
  rows := targets.map routingRow
  now := m.now
  rateLimitMarks := fun id =>
    ((m.vaultRateLimitMarks id).filter fun «until» =>
      (targets.any fun target => target.id = id && !target.isRow) && decide (m.now < «until»)).or
        (m.rateLimitMarks id)
  refreshBackoff := fun id =>
    if targets.any fun target => target.id = id && target.isRow then m.refreshBackoff id else none
  killswitch := poolKillswitchVerdicts L dateParse (targets.map routingRow) r.storage m.now

/-- A pool row without a usable token is not attempted. -/
def sendTo (routing : PoolRoutingInput Map) (target : PoolTarget Map) (m : PoolMoment Map) :
    PoolM Map (Option Response × PoolMoment Map) :=
  if target.isRow && !m.usableToken target.id then return (none, m)
  else attemptSend routing target

/-- `limits.accountKey` -/
def accountKey (m : PoolMoment Map) (id : String) : Option AccountKey :=
  if r.limitPolicy then m.accountKeys.find? fun key => key.accountId = id else none

/-- Whether some row still waits for its first reading, and no row can serve
without it. -/
def firstReadingNeeded (input : PoolRoutingInput Map) : Bool :=
  let rows := input.rows.filter fun row =>
    row.kind = .oauth && input.passes row.id && (L.projectQuota row.quota).limits.isEmpty
  !rows.isEmpty &&
    !(L.admitRows input.rows input).admitted.any fun row => input.passes row.id

/-! ## Waits -/

structure LimitCandidate where
  account : AccountKey
  admitted : Bool
deriving DecidableEq, Repr

def policyCandidate (m : PoolMoment Map) (target : PoolTarget Map) : Option LimitCandidate :=
  (accountKey r m target.id).map fun account =>
    { account
      admitted := rowPasses L dateParse r.storage m.now (routingRow target) &&
        (windowsFromQuotaMap L target.quota).isSome &&
        !L.budgetExhaustedResetAt target.quota m.now &&
        (!target.isRow || m.usableToken target.id) }

def policyCandidates (targets : List (PoolTarget Map)) (m : PoolMoment Map) :
    List LimitCandidate :=
  targets.filterMap (policyCandidate L dateParse r m)

/-- The wait still concerns this request and its account. -/
def holdStands (m : PoolMoment Map) (pending : PendingPoolHold) (candidate : LimitCandidate)
    (hold : HoldFacts) : Bool :=
  r.replayable && r.model = pending.model &&
    (m.currentAccountKey.any fun current => sameAccount current pending.accountKey) &&
    candidate.admitted && decide (0 < hold.maxWaitMs) && decide (m.now ≤ hold.cacheExpiresAt) &&
    decide (pending.target ≤ min hold.cacheExpiresAt (m.now + hold.maxWaitMs))

def consumeHold (targets : List (PoolTarget Map)) (m : PoolMoment Map) :
    PoolM Map (Option PoolRequestResult × PoolMoment Map) := do
  match if r.limitPolicy && r.sessionHash.isSome then m.pending else none with
  | none => return (none, m)
  | some pending =>
      match (policyCandidates L dateParse r targets m).find? fun candidate =>
          sameAccount candidate.account pending.accountKey with
      | none => return (none, m)
      | some candidate =>
          match ← openAiHoldFacts with
          | none => return (none, m)
          | some hold =>
              if holdStands sameAccount r m pending candidate hold then
                if m.now < pending.target then
                  return (some ⟨.held, candidate.account.accountId⟩, m)
                else if ← wakeRetained then
                  match targets.find? fun target => target.id = candidate.account.accountId with
                  | none => return (none, m)
                  | some row =>
                      let (response, m) ← sendTo (routingInput L dateParse r targets m) row m
                      return (response.map fun response => ⟨.provider response, row.id⟩, m)
                else return (none, m)
              else return (none, m)

def retryableStickyFailure (status : Nat) : Bool :=
  status = 401 || status = 403 || status = 429

/-- What a response means for its account: a wait, in which case its body is
dropped, or whether the account is known to be limited. -/
structure LimitOutcome where
  hold : Bool
  confirmed : Bool
deriving DecidableEq, Repr

/-- Only failed responses of replayable requests are judged. -/
def judgesLimit (mode : LimitMode) (status : Nat) : Bool :=
  r.limitPolicy && r.replayable &&
    match mode with
    | .ordered => status ∈ getFallbackStatuses r.storage
    | .sticky => retryableStickyFailure status

def afterLimit (response : Response) (mode : LimitMode) (next : Option String)
    (attempted : Option AccountKey) (m : PoolMoment Map) :
    PoolM Map (LimitOutcome × PoolMoment Map) := do
  if judgesLimit r mode response.status && attempted.isSome then
    let (decision, m) ← decideLimit mode response.status next
    if decision.hold && r.sessionHash.isSome then
      cancel response
      return (⟨true, true⟩, m)
    else return (⟨false, decision.confirmedBlockers && response.status = 429⟩, m)
  else return (⟨false, false⟩, m)

/-! ## The ordered path -/

/-- The accounts the routing accessor may be asked about: the plan's own, and
only those the caller may use. -/
def routingCandidates (routes : List VaultRoute) (order eligible : List String) :
    List RoutingCandidate :=
  routes.filterMap fun route =>
    if route.id ∈ order ∧ route.id ∈ eligible then
      match route.identity.filter (· ≠ ""), route.credentialId.filter (· ≠ "") with
      | some identity, some credentialId => some ⟨identity, credentialId, route.id⟩
      | _, _ => none
    else none

/-- The advice of the routing accessor, for a fresh request of a vault. -/
def chooseVaultRouting (request : Option VaultRoutingRequest) (routing : PoolRoutingInput Map)
    (eligibleIds : Option (List String)) (m : PoolMoment Map) :
    PoolM Map (Option String × PoolMoment Map) :=
  match request with
  | none => return (none, m)
  | some request =>
      if !r.vault || r.sessionHash.isNone || request.modelId = "" || request.kind ≠ "primary" ||
          request.retry then
        return (none, m)
      else
        match planOrdered L routing .roster (some none) true with
        | .block _ => return (none, m)
        | .send order _ =>
            let candidates := routingCandidates m.vaultRoutes order (eligibleIds.getD order)
            if candidates.isEmpty then return (none, m)
            else askRouting candidates

def orderedPlacement : RoutingMode → OrderedPlacement
  | .ordered => .roster
  | .mainFirst => .mainFirst
  | .fallbackFirst => .fallbackFirst
  | .stickyBalanced => .mainFirst

/-- Only the credential named exactly `chatgpt:openai` plays main. -/
def vaultMainRouteId (routes : List VaultRoute) : Option String :=
  (routes.find? fun route =>
    route.id.startsWith "vault:" && route.credentialId = some "chatgpt:openai").map (·.id)

def mainIdOf (m : PoolMoment Map) : Option (Option String) :=
  if r.vault then
    some (if r.mode = .stickyBalanced then none else vaultMainRouteId m.vaultRoutes)
  else none

def terminalResponse (block : PoolBlock) : Option Reply :=
  if r.limitPolicy && (block.reason = .quotaExhausted || block.reason = .killswitch ||
      block.reason = .midStreamRateLimit) then some (.terminal block)
  else none

/-- `ctx.blocked` -/
def blocked (block : PoolBlock) (cause : Option NoCredentialCause) :
    PoolM Map PoolRequestResult :=
  if block.reason = .noCredential && r.loginRequired && !cause.any (·.isVaultModeRefusal) then
    throw .loginRequired
  else return ⟨.blocked block cause, formerMainId⟩

def noRowCause (targets : List (PoolTarget Map)) : Option NoCredentialCause :=
  if r.vault then if targets.isEmpty then some .vaultNoRoute else none
  else if targets.isEmpty then some .noAccounts else some .unusable

/-- What the ordered loop has tried: accounts that had nothing to send with, and
the attempts that were answered, with the last answer. -/
structure OrderedState where
  unsent : List String := []
  attempts : List OrderedAttempt := []
  last : Option (Response × String) := none
  vaultRefused : Bool := false

def nextId (order : List String) (s : OrderedState) : Option String :=
  L.nextOrderedAttempt (order.filter (· ∉ s.unsent)) s.attempts (getFallbackStatuses r.storage)

/-- `byId.get(id)`: the last one of the id. -/
def targetById (targets : List (PoolTarget Map)) (id : String) : Option (PoolTarget Map) :=
  targets.reverse.find? fun target => target.id = id

/-- The loop's result once no account is left. -/
def endOrdered (s : OrderedState) : PoolM Map PoolRequestResult :=
  match s.last with
  | some (response, servedId) => return ⟨.provider response, servedId⟩
  | none =>
      blocked r { reason := .noCredential }
        (some (if s.vaultRefused then .vaultRefused else if r.vault then .vaultEmpty
          else .unusable))

/-- `last?.response.body?.cancel()` -/
def dropLast (s : OrderedState) : PoolM Map Unit :=
  match s.last with
  | none => return ()
  | some (previous, _) => cancel previous

/-- Each round answers for one account of the order more. -/
def serveRows (routing : PoolRoutingInput Map) (targets : List (PoolTarget Map))
    (order : List String) : Nat → OrderedState → PoolMoment Map → PoolM Map PoolRequestResult
  | 0, _, _ => throw .loopEnds
  | fuel + 1, s, m => do
      match (nextId L r order s).bind (targetById targets) with
      | none => endOrdered r s
      | some row =>
          let attempted := accountKey r m row.id
          match ← Throwing.attempt (sendTo routing row m) with
          | .error error =>
              -- a failed send may have reached the provider, so it is not repeated
              match s.last with
              | none => throw error
              | some (response, servedId) =>
                  if error = .transport true || r.mode = .fallbackFirst then throw error
                  else return ⟨.provider response, servedId⟩
          | .ok (none, m) =>
              serveRows routing targets order fuel
                { s with
                  unsent := s.unsent ++ [row.id]
                  vaultRefused := s.vaultRefused || !row.isRow } m
          | .ok (some response, m) =>
              dropLast s
              let s := { s with
                attempts := s.attempts ++ [⟨row.id, response.status⟩]
                last := some (response, row.id) }
              let (outcome, m) ← afterLimit r response .ordered (nextId L r order s) attempted m
              if outcome.hold then return ⟨.held, row.id⟩
              else serveRows routing targets order fuel s m

def serveOrdered (request : Option VaultRoutingRequest) (targets : List (PoolTarget Map))
    (m : PoolMoment Map) : PoolM Map PoolRequestResult := do
  let routing := routingInput L dateParse r targets m
  match planOrdered L routing (orderedPlacement r.mode) (mainIdOf r m) r.replayable with
  | .block block =>
      match terminalResponse r block with
      | some reply => return ⟨reply, formerMainId⟩
      | none => blocked r block (noRowCause r targets)
  | .send planned _ => do
      let (preferred, m) ← chooseVaultRouting L r request routing (some planned) m
      let order := match preferred with
        | some preferred => preferred :: planned.filter (· ≠ preferred)
        | none => planned
      serveRows L r routing targets order (order.length + 1) {} m

/-! ## The sticky path -/

section Sticky

variable (sessionHash : String) (bytes : ℚ) (targets : List (PoolTarget Map))

def stickyOptions (m : PoolMoment Map) : StickyRouteOptions where
  requestBytes := bytes
  reservePercent := fun id =>
    getKillswitchThresholdsForAccount r.storage (if id = formerMainId then none else some id)
  resetCredits := m.resetCredits

/-- Every row that is not marked or backed off may hold a pin, whether or not
admission lets it serve this request. -/
def pinInput (routing : PoolRoutingInput Map) (exclude : List String) :
    ResolveStickyAssignmentInput :=
  let sticky := admitSticky L routing
  { sessionHash
    requestBytes := bytes
    now := routing.now
    validPinnedAccountIds := (routing.rows.map (·.id)).filter (· ∉ sticky.excluded)
    excludeAccountIds := exclude
    quotaCheckedAtByAccount := fun id =>
      if routing.rows.any fun row => row.id = id then (sticky.projections id).bind (·.checkedAt)
      else none
    wireAccountIdByAccount := fun id => (targetById targets id).bind (·.identity) }

/-- The session's pin, and the process after the placement. -/
def place (routing : PoolRoutingInput Map) (preferred : Option Choice) (exclude : List String)
    (persist : Bool) (m : PoolMoment Map) : Option StickyAssignment × PoolMoment Map :=
  let placed := placeStickyPin m.sidebarSnapshot m.overlay
    (pinInput L sessionHash bytes targets routing exclude)
    (fun pendingBytes => preferred.or
      (selectStickyRow L routing (stickyOptions r bytes m) exclude pendingBytes)) persist
  (placed.1, { m with overlay := placed.2 })

/-- A session of a vault without a usable pin asks the routing accessor first. -/
def adviseSticky (routing : PoolRoutingInput Map) (m : PoolMoment Map) :
    PoolM Map (Option Choice × PoolMoment Map) := do
  if r.vault && r.routingRequest.isSome then
    -- the preview is chosen only where the session shows no usable pin
    let cold := (shownPin m.sidebarSnapshot m.overlay
      (pinInput L sessionHash bytes targets routing [])).isNone
    let (preview, m) := place L r sessionHash bytes targets routing none [] false m
    if preview.isSome && cold then
      let (advised, m) ← chooseVaultRouting L r r.routingRequest routing none m
      return (advised.map fun advised =>
        ⟨advised, ((admitSticky L routing).projections advised).bind (·.checkedAt)⟩, m)
    else return (none, m)
  else return (none, m)

/-- The row the session is sent to, as its pin and the routing decide. -/
def pinnedRow (routing : PoolRoutingInput Map) (id : String) (m : PoolMoment Map) :
    Option String × PoolMoment Map :=
  match routePinnedRow L routing (stickyOptions r bytes m) id with
  | .none => (none, m)
  | .serve => (some id, m)
  | .lastPath => (some id, m)
  | .move reason =>
      let (replacement, m) := place L r sessionHash bytes targets routing none [id] true m
      match replacement with
      | some replacement => (some replacement.accountId, m)
      | none => if reason = .killswitch then (none, m) else (some id, m)
  | .detour =>
      let (detour, m) := place L r sessionHash bytes targets routing none [id] false m
      (detour.map (·.accountId), m)

/-- The session leaves the row that answered 401, 403 or 429, and the request is
sent again where it goes. -/
def retrySticky (row : PoolTarget Map) (response : Response) (confirmed : Bool)
    (m : PoolMoment Map) : PoolM Map PoolRequestResult := do
  let current := m.targets.targets
  let routing := routingInput L dateParse r current m
  if stickyBreak L routing (admitSticky L routing) row.id (some response.status) || confirmed then
    let (replacement, m) := place L r sessionHash bytes targets routing none [row.id] true m
    match (replacement.filter fun replacement => replacement.accountId ≠ row.id).bind
        fun replacement => current.find? fun target => target.id = replacement.accountId with
    | none => return ⟨.provider response, row.id⟩
    | some replacement =>
        match ← sendTo routing replacement m with
        | (none, _) => return ⟨.provider response, row.id⟩
        | (some replaced, _) =>
            cancel response
            return ⟨.provider replaced, replacement.id⟩
  else return ⟨.provider response, row.id⟩

def sendSticky (routing : PoolRoutingInput Map) (row : PoolTarget Map) (m : PoolMoment Map) :
    PoolM Map (Option PoolRequestResult × PoolMoment Map) := do
  let attempted := accountKey r m row.id
  match ← sendTo routing row m with
  | (none, m) => return (none, m)
  | (some response, m) =>
      let (outcome, m) ← afterLimit r response .sticky none attempted m
      if outcome.hold then return (some ⟨.held, row.id⟩, m)
      else if retryableStickyFailure response.status then
        let result ← retrySticky L dateParse r sessionHash bytes targets row response
          outcome.confirmed m
        return (some result, m)
      else return (some ⟨.provider response, row.id⟩, m)

def serveSticky (m : PoolMoment Map) :
    PoolM Map (Option PoolRequestResult × PoolMoment Map) := do
  let routing := routingInput L dateParse r targets m
  let (preferred, m) ← adviseSticky L r sessionHash bytes targets routing m
  let (assignment, m) := place L r sessionHash bytes targets routing preferred [] true m
  match assignment with
  | none => return (none, m)
  | some assignment =>
      let (id, m) := pinnedRow L r sessionHash bytes targets routing assignment.accountId m
      match id.bind (targetById targets) with
      | none => return (none, m)
      | some row => sendSticky L dateParse r sessionHash bytes targets routing row m

end Sticky

/-! ## The whole request -/

/-- The rows whose first reading a request waits for: main's alone where it can
be sent only to main. -/
def firstReadingRows (targets : List (PoolTarget Map)) : List (PoolTarget Map) :=
  if !r.replayable && targets.any (·.id = formerMainId) then
    targets.filter (·.id = formerMainId)
  else targets

def awaitReadings (m : PoolMoment Map) : PoolM Map (PoolMoment Map) := do
  if firstReadingNeeded L (routingInput L dateParse r (firstReadingRows r m.targets.targets) m) then
    return (← awaitFirstReading).getD m
  else return m

/-- A request that can be pinned is served by its session's row first. -/
def routeRequest (targets : List (PoolTarget Map)) (m : PoolMoment Map) :
    PoolM Map PoolRequestResult :=
  match r.sessionHash, r.body with
  | some sessionHash, some bytes =>
      if r.mode = .stickyBalanced && r.replayable then do
        let (served, m) ← serveSticky L dateParse r sessionHash bytes targets m
        match served with
        | some result => return result
        | none => serveOrdered L dateParse r none targets m
      else serveOrdered L dateParse r r.routingRequest targets m
  | _, _ => serveOrdered L dateParse r r.routingRequest targets m

/-- Reads the current rows, readies their tokens, and routes one request. -/
def servePoolRequest : PoolM Map PoolRequestResult := do
  let m ← prepare
  let m ← awaitReadings L dateParse r m
  let targets := m.targets.targets
  let (held, m) ← consumeHold L sameAccount dateParse r targets m
  match held with
  | some result => return result
  | none => routeRequest L dateParse r targets m

end Serving

end Request.Pool
