import OpenaiAuth.Interleave.Dispatch
import OpenaiAuth.Request.Sticky
import OpenaiAuth.Sidebar.Placement

/-! # Serving a request outside the account pool

The part of the fetch wrapper that chooses accounts: the sticky path, main's
admission, the fallbacks tried before main and the ones tried after it. The
code runs alone between two `await`s, so each answer brings along the process
as the request finds it when it goes on; what a response reported of its
account's quota is part of that already.
-/

namespace Request.Legacy

open Interleave Sidebar Sidebar.Overlay Sidebar.Placement

/-! ## Calls -/

inductive RoutingMode where
  | mainFirst
  | fallbackFirst
  | stickyBalanced
deriving DecidableEq, Repr

/-- Main, or a row of the request's fallback roster. -/
inductive RouteAccount (n : Nat) where
  | main
  | row (i : Fin n)
deriving DecidableEq, Repr

/-- The process as a request finds it. -/
structure Moment where
  now : ℚ
  quotas : QuotaManager
  overlay : StickyPinOverlay

/-- A row with a token to send, as `getUsableFallbackAccounts` hands it out. -/
structure Offer (n : Nat) where
  row : Fin n
  access : Option String
  accountId : Option String
deriving DecidableEq, Repr

/-- The loop over the roster offers each row at most once. -/
structure Usable (n : Nat) where
  offers : List (Offer n)
  once : (offers.map (·.row)).Nodup

/-- The body of a response of the provider, of `killswitchBlockedResponse`, or
of the response made for a main without credential. -/
inductive Body where
  | wire (stream : Nat)
  | refusal
  | unavailable
deriving DecidableEq, Repr

structure Response where
  body : Body
  status : Nat
deriving DecidableEq, Repr

inductive Failure where
  | transport (aborted : Bool)
  | loginRequired
deriving DecidableEq, Repr

inductive Call (n : Nat) where
  | getUsableFallbackAccounts
  | sendWithAccessToken (account : RouteAccount n) (access : String)
  | cancel (body : Body)
  | poolPlaceholderWithoutMain
deriving DecidableEq, Repr

/-- What came back from a send: the stream and status of a response, or whether
the throw was an abort. -/
inductive Sent where
  | response (stream : Nat) (status : Nat)
  | threw (aborted : Bool)
deriving DecidableEq, Repr

def Answer (n : Nat) : Call n → Type
  | .getUsableFallbackAccounts => Usable n × Moment
  | .sendWithAccessToken _ _ => Sent × Moment
  | .cancel _ => Unit
  | .poolPlaceholderWithoutMain => Bool

def sig (n : Nat) : Sig where
  Call := Call n
  Ans := Answer n

abbrev LegacyM (n : Nat) (α : Type) : Type := Throwing Failure (sig n) α

variable {n : Nat}

def getUsableFallbackAccounts : LegacyM n (Usable n × Moment) :=
  Throwing.perform (S := sig n) .getUsableFallbackAccounts fun r => .ok r

/-- `throw`s when the send threw. -/
def sendWithAccessToken (account : RouteAccount n) (access : String) :
    LegacyM n (Response × Moment) :=
  Throwing.perform (S := sig n) (.sendWithAccessToken account access) fun r =>
    match r.1 with
    | .response stream status => .ok (⟨.wire stream, status⟩, r.2)
    | .threw aborted => .error (.transport aborted)

/-- `response.body?.cancel()` -/
def cancel (response : Response) : LegacyM n Unit :=
  Throwing.perform (S := sig n) (.cancel response.body) fun r => .ok r

def poolPlaceholderWithoutMain : LegacyM n Bool :=
  Throwing.perform (S := sig n) .poolPlaceholderWithoutMain fun r => .ok r

/-! ## The request -/

structure RequestContext where
  mode : RoutingMode
  replayable : Bool
  /-- The hash of the session id, when there is one. -/
  sessionHash : Option String
  requestBytes : ℚ
  reqStorage : Option AccountStorage
  mainInPool : Bool
  mainUnavailable : Bool
  primaryAccess : String
  mainAccountIdentity : Option String
  sidebarSnapshot : SidebarSnapshot

namespace RequestContext

variable (r : RequestContext)

def fallbackStorage : Option AccountStorage :=
  if r.mainInPool then withoutPoolMainRow r.reqStorage else r.reqStorage

/-- The rows a request may fall back to. -/
def rows : List FallbackAccount := (r.fallbackStorage.map (·.accounts)).getD []

abbrev Account : Type := RouteAccount r.rows.length

def accountId : r.Account → String
  | .main => "main"
  | .row i => (r.rows.get i).id

def fileEntry (id : String) : Option SidebarAccountState :=
  r.sidebarSnapshot.state.fallbacks.find? fun account => account.id = id

/-- The session to route by its pin. A replayable body is a string. -/
def stickySession : Option String :=
  if r.mode = .stickyBalanced && r.replayable then r.sessionHash else none

end RequestContext

abbrev RequestM (r : RequestContext) (α : Type) : Type := LegacyM r.rows.length α

section Serving

variable (dateParse : String → Option ℚ) (r : RequestContext)

/-! ## The sticky path -/

structure StickyRouteCandidate extends StickySelectionCandidate where
  account : r.Account
  wireAccountId : Option String
  access : String

def resetCreditsApplicable (quota : Option AccountQuota) : Option ℚ :=
  quota.bind (·.resetCreditsAvailable)

/-- The freshest reading of main, then of a row. -/
def freshestMain (identity : Option String) (m : Moment) : FreshestQuota :=
  let memory := m.quotas.peekMainForPolicy identity
  freshestQuotaSnapshot (memory.map (·.quota)) (memory.map (·.checkedAt))
    r.sidebarSnapshot.state.main.quota r.sidebarSnapshot.state.main.mainAccountId identity

def freshestFallback (id : String) (identity : Option String) (m : Moment) : FreshestQuota :=
  let memory := m.quotas.peekFallbackForPolicy id identity
  let fileEntry := r.fileEntry id
  freshestQuotaSnapshot (memory.map (·.quota)) (memory.map (·.checkedAt))
    (fileEntry.bind (·.quota)) (fileEntry.bind (·.accountId)) identity

def freshestReading (id : String) (identity : Option String) (m : Moment) : FreshestQuota :=
  if id = "main" then freshestMain r identity m else freshestFallback r id identity m

/-- The killswitch on main's reading, and on a row's. -/
def mainPasses (storage : Option AccountStorage) (identity : Option String) (now : ℚ)
    (m : Moment) : Bool :=
  killswitchPassesPolicy dateParse ((m.quotas.peekMainForPolicy identity).map (·.quota)) storage
    none now

def fallbackPasses (storage : Option AccountStorage) (id : String) (identity : Option String)
    (now : ℚ) (m : Moment) : Bool :=
  killswitchPassesPolicy dateParse ((m.quotas.peekFallbackForPolicy id identity).map (·.quota))
    storage (some id) now

/-- Main is judged before the roster is awaited, the rows after it. -/
def mainCandidate (m : Moment) : StickyRouteCandidate r where
  accountId := "main"
  account := .main
  wireAccountId := r.mainAccountIdentity
  access := r.primaryAccess
  quota := (freshestMain r r.mainAccountIdentity m).quota
  quotaCheckedAt := (freshestMain r r.mainAccountIdentity m).quotaCheckedAt
  reservePercent := getKillswitchThresholdsForAccount r.fallbackStorage none
  configuredOrder := 0
  resetCreditsApplicable := resetCreditsApplicable (freshestMain r r.mainAccountIdentity m).quota
  killswitchPasses :=
    if isKillswitchEnabled r.fallbackStorage then
      some (mainPasses dateParse r.fallbackStorage r.mainAccountIdentity m.now m)
    else none

def fallbackCandidate (killswitchNow : ℚ) (m : Moment) (order : Nat)
    (offer : Offer r.rows.length) (access : String) : StickyRouteCandidate r :=
  let id := (r.rows.get offer.row).id
  let freshest := freshestFallback r id offer.accountId m
  { accountId := id
    account := .row offer.row
    wireAccountId := offer.accountId
    access
    quota := freshest.quota
    quotaCheckedAt := freshest.quotaCheckedAt
    reservePercent := getKillswitchThresholdsForAccount r.fallbackStorage (some id)
    configuredOrder := order
    resetCreditsApplicable := resetCreditsApplicable freshest.quota
    killswitchPasses :=
      if isKillswitchEnabled r.fallbackStorage then
        some (fallbackPasses dateParse r.fallbackStorage id offer.accountId killswitchNow m)
      else none }

/-- `roster.push` for each row that has a token. -/
def pushFallbacks (killswitchNow : ℚ) (m : Moment) :
    List (Offer r.rows.length) → List (StickyRouteCandidate r) → List (StickyRouteCandidate r)
  | [], roster => roster
  | offer :: offers, roster =>
      match offer.access with
      | none => pushFallbacks killswitchNow m offers roster
      | some access =>
          pushFallbacks killswitchNow m offers
            (roster ++ [fallbackCandidate dateParse r killswitchNow m roster.length offer access])

def buildStickyRouteRoster (m : Moment) : RequestM r (List (StickyRouteCandidate r) × Moment) := do
  let main := if r.mainUnavailable then [] else [mainCandidate dateParse r m]
  let (usable, later) ← getUsableFallbackAccounts
  return (pushFallbacks dateParse r m.now later usable.offers main, later)

def stickyBreakDecision (candidate : StickyRouteCandidate r) (status : Option Nat) (m : Moment) :
    StickyBreakDecision :=
  let killswitchPasses :=
    if isKillswitchEnabled r.reqStorage then candidate.killswitchPasses else none
  decideStickyBreak dateParse (freshestReading r candidate.accountId candidate.wireAccountId m)
    status m.now killswitchPasses

def isStickyRouteCandidateRateLimited (candidate : StickyRouteCandidate r) (m : Moment) : Bool :=
  m.quotas.isRateLimited m.now candidate.accountId

/-- `candidatesById.get(id)`: the last one of the id. -/
def candidateById (candidates : List (StickyRouteCandidate r)) (id : String) :
    Option (StickyRouteCandidate r) :=
  candidates.reverse.find? fun candidate => candidate.accountId = id

def eligibleCandidates (candidates : List (StickyRouteCandidate r)) (m : Moment) :
    List (StickyRouteCandidate r) :=
  candidates.filter fun candidate => !isStickyRouteCandidateRateLimited r candidate m

def pinInput (sessionHash : String) (candidates : List (StickyRouteCandidate r))
    (excludeAccountIds : List String) (m : Moment) : ResolveStickyAssignmentInput :=
  let eligible := eligibleCandidates r candidates m
  { sessionHash
    requestBytes := r.requestBytes
    now := m.now
    validPinnedAccountIds := eligible.map (·.accountId)
    excludeAccountIds
    quotaCheckedAtByAccount := fun id => (candidateById r eligible id).bind (·.quotaCheckedAt)
    wireAccountIdByAccount := fun id => (candidateById r eligible id).bind (·.wireAccountId) }

def selectForPin (candidates : List (StickyRouteCandidate r)) (excludeAccountIds : List String)
    (m : Moment) (pendingBytes : String → ℚ) : Option Choice :=
  let eligible := (eligibleCandidates r candidates m).filter fun candidate =>
    candidate.accountId ∉ excludeAccountIds
  if eligible = [] then none
  else
    (selectStickyCandidate dateParse (eligible.map (·.toStickySelectionCandidate)) pendingBytes
      r.requestBytes m.now).map fun selection => ⟨selection.accountId, selection.quotaCheckedAt⟩

/-- The candidate to send with, and the pins of the process after the placement. -/
def resolveStickyRouteCandidate (sessionHash : String) (candidates : List (StickyRouteCandidate r))
    (excludeAccountIds : List String) (m : Moment) :
    Option (StickyRouteCandidate r) × StickyPinOverlay :=
  let placed := placeStickyPin r.sidebarSnapshot m.overlay
    (pinInput r sessionHash candidates excludeAccountIds m)
    (selectForPin dateParse r candidates excludeAccountIds m) true
  (placed.1.bind fun assignment =>
    candidateById r (eligibleCandidates r candidates m) assignment.accountId, placed.2)

/-- The session leaves its account before anything is sent, where another one
can take it. -/
def beforeSend (sessionHash : String) (roster : List (StickyRouteCandidate r))
    (candidate : StickyRouteCandidate r) (m : Moment) : StickyRouteCandidate r :=
  if isStickyRouteCandidateRateLimited r candidate m ||
      (stickyBreakDecision dateParse r candidate none m).migrates then
    ((resolveStickyRouteCandidate dateParse r sessionHash roster [candidate.accountId] m).1).getD
      candidate
  else candidate

def retryableStickyFailure (status : Nat) : Bool :=
  status = 401 || status = 403 || status = 429

def serveSticky (sessionHash : String) (roster : List (StickyRouteCandidate r))
    (candidate : StickyRouteCandidate r) (m : Moment) : RequestM r Response := do
  let stickyCandidate := beforeSend dateParse r sessionHash roster candidate m
  let (stickyResponse, later) ← sendWithAccessToken stickyCandidate.account stickyCandidate.access
  if retryableStickyFailure stickyResponse.status &&
      (stickyBreakDecision dateParse r stickyCandidate (some stickyResponse.status)
        later).migrates then
    match (resolveStickyRouteCandidate dateParse r sessionHash roster
        [stickyCandidate.accountId] later).1 with
    | none => return stickyResponse
    | some replacement => do
        let (response, _) ← sendWithAccessToken replacement.account replacement.access
        cancel stickyResponse
        return response
  else return stickyResponse

/-! ## Fallbacks -/

structure FallbackCandidate where
  row : Fin r.rows.length
  access : String
  accountId : Option String
deriving DecidableEq

/-- The fallbacks the killswitch lets pass, and those among them not known to be
exhausted. -/
structure FallbackCandidateSelection where
  current : List (FallbackCandidate r)
  retained : List (FallbackCandidate r)

def offered (offers : List (Offer r.rows.length)) : List (FallbackCandidate r) :=
  offers.filterMap fun offer => offer.access.map fun access =>
    { row := offer.row, access, accountId := offer.accountId }

def quotaAccountId (candidate : FallbackCandidate r) : String := (r.rows.get candidate.row).id

def currentCandidates (candidates : List (FallbackCandidate r)) (m : Moment) :
    List (FallbackCandidate r) :=
  let notRateLimited := candidates.filter fun candidate =>
    !m.quotas.isRateLimited m.now (quotaAccountId r candidate)
  if isKillswitchEnabled r.fallbackStorage then
    notRateLimited.filter fun candidate =>
      fallbackPasses dateParse r.fallbackStorage (quotaAccountId r candidate) candidate.accountId
        m.now m
  else notRateLimited

def fallbackExhausted (candidate : FallbackCandidate r) (m : Moment) : Bool :=
  let fileEntry := r.fileEntry (quotaAccountId r candidate)
  (admissionQuotaDecision dateParse
    (m.quotas.peekFallbackForPolicy (quotaAccountId r candidate) candidate.accountId)
    (fileEntry.bind (·.quota)) m.now (fileEntry.bind (·.accountId)) candidate.accountId).isSome

def usableFallbackCandidates : RequestM r (FallbackCandidateSelection r) := do
  let (usable, m) ← getUsableFallbackAccounts
  let current := currentCandidates dateParse r (offered r usable.offers) m
  return { current, retained := current.filter fun candidate =>
    !fallbackExhausted dateParse r candidate m }

def applyAdmissionQuotaSafety (selection : FallbackCandidateSelection r)
    (mainRemainsCandidate : Bool) : List (FallbackCandidate r) :=
  if selection.retained.isEmpty && !mainRemainsCandidate then selection.current
  else selection.retained

/-- The first fallback that serves. -/
def tryFallbackFirst : List (FallbackCandidate r) → RequestM r (Option Response)
  | [] => return none
  | candidate :: candidates => do
      let (response, _) ← sendWithAccessToken (.row candidate.row) candidate.access
      if shouldFallbackStatus response.status r.reqStorage then
        cancel response
        tryFallbackFirst candidates
      else return some response

/-- The loop of `tryFallbackAccounts`, with the last response in hand. -/
def retryFallbacks : List (FallbackCandidate r) → Response → RequestM r Response
  | [], lastResponse => return lastResponse
  | candidate :: candidates, lastResponse => do
      match ← Throwing.attempt (sendWithAccessToken (.row candidate.row) candidate.access) with
      | .error (.transport false) => return lastResponse
      | .error error => throw error
      | .ok (response, _) =>
          cancel lastResponse
          if shouldFallbackStatus response.status r.reqStorage then
            retryFallbacks candidates response
          else return response

def tryFallbackAccounts (candidates : List (FallbackCandidate r)) (primaryResponse : Response) :
    RequestM r Response :=
  if !r.replayable then return primaryResponse
  else retryFallbacks r candidates primaryResponse

/-! ## Main -/

/-- What stands against main when the request reaches it. -/
structure MainGate where
  killswitchBlocksMain : Bool
  mainRateLimited : Bool
  exhausted : Bool

def mainGate (m : Moment) : MainGate where
  killswitchBlocksMain := isKillswitchEnabled r.reqStorage &&
    !mainPasses dateParse r.reqStorage r.mainAccountIdentity m.now m
  mainRateLimited := m.quotas.isRateLimited m.now "main"
  exhausted := (admissionQuotaDecision dateParse (m.quotas.peekMainForPolicy r.mainAccountIdentity)
    r.sidebarSnapshot.state.main.quota m.now r.sidebarSnapshot.state.main.mainAccountId
    r.mainAccountIdentity).isSome

def MainGate.mainRemains (gate : MainGate) : Bool :=
  !gate.killswitchBlocksMain && !gate.mainRateLimited && !gate.exhausted

/-- `requestFallbackSelection`: the selection is made once. -/
def requestFallbackSelection (selection : Option (FallbackCandidateSelection r)) :
    RequestM r (FallbackCandidateSelection r) :=
  match selection with
  | some selection => return selection
  | none => usableFallbackCandidates dateParse r

def killswitchBlockedResponse : Response where
  body := .refusal
  status := 429

/-- An exhausted main is passed over only where a fallback is left to serve. -/
def quotaBlocksMain (gate : MainGate) (selection : Option (FallbackCandidateSelection r)) :
    RequestM r (Bool × Option (FallbackCandidateSelection r)) := do
  if gate.exhausted && r.replayable then
    let made ← requestFallbackSelection dateParse r selection
    return (!made.retained.isEmpty, some made)
  else return (false, selection)

/-- Main's response, and the selection if one was made by then. -/
def serveMain (gate : MainGate) (selection : Option (FallbackCandidateSelection r)) :
    RequestM r (Response × Option (FallbackCandidateSelection r)) := do
  let (quotaBlocksMain, selection) ← quotaBlocksMain dateParse r gate selection
  if gate.killswitchBlocksMain || gate.mainRateLimited || quotaBlocksMain then
    return (killswitchBlockedResponse, selection)
  else if r.mainUnavailable then return (⟨.unavailable, 401⟩, selection)
  else do
    let (response, _) ← sendWithAccessToken .main r.primaryAccess
    return (response, selection)

/-- Main moved into the pool and has no credential there: the login is missing. -/
def finishRequest (response : Response) (fallbackServed : Bool) : RequestM r Response := do
  if r.mainInPool && r.mainUnavailable && !fallbackServed then
    if ← poolPlaceholderWithoutMain then throw .loginRequired
    else return response
  else return response

def serveAdmitted (m : Moment) : RequestM r Response := do
  let gate := mainGate dateParse r m
  if r.mode = .fallbackFirst && r.replayable then
    let selection ← usableFallbackCandidates dateParse r
    match ← tryFallbackFirst r (applyAdmissionQuotaSafety r selection gate.mainRemains) with
    | some response => finishRequest r response true
    | none => do
        let (response, _) ← serveMain dateParse r gate (some selection)
        finishRequest r response false
  else
    let (response, selection) ← serveMain dateParse r gate none
    if shouldFallbackStatus response.status r.reqStorage then
      let selection ← requestFallbackSelection dateParse r selection
      let final ← tryFallbackAccounts r (applyAdmissionQuotaSafety r selection false) response
      finishRequest r final (final.body ≠ response.body)
    else finishRequest r response false

/-- The fetch wrapper, from the choice of the account on. -/
def serveLegacy (m : Moment) : RequestM r Response := do
  match r.stickySession with
  | none => serveAdmitted dateParse r m
  | some sessionHash => do
      let (roster, later) ← buildStickyRouteRoster dateParse r m
      let (candidate, overlay) := resolveStickyRouteCandidate dateParse r sessionHash roster [] later
      match candidate with
      | some candidate => serveSticky dateParse r sessionHash roster candidate { later with overlay }
      | none => serveAdmitted dateParse r { later with overlay }

/-! ## What the roster holds -/

variable {dateParse r}

/-- A candidate of the roster: main as it was judged before the rows were
awaited, or a row that was offered. -/
inductive RosterCandidate (dateParse : String → Option ℚ) (r : RequestContext) (before later : Moment)
    (offers : List (Offer r.rows.length)) : StickyRouteCandidate r → Prop where
  | main : RosterCandidate dateParse r before later offers (mainCandidate dateParse r before)
  | row {offer : Offer r.rows.length} {access : String} (order : Nat) (hoffer : offer ∈ offers) :
      RosterCandidate dateParse r before later offers
        (fallbackCandidate dateParse r before.now later order offer access)

theorem mem_pushFallbacks {before later : Moment} {all offers : List (Offer r.rows.length)}
    (hsub : ∀ offer ∈ offers, offer ∈ all) {roster : List (StickyRouteCandidate r)}
    (hroster : ∀ c ∈ roster, RosterCandidate dateParse r before later all c)
    {c : StickyRouteCandidate r} (hc : c ∈ pushFallbacks dateParse r before.now later offers roster) :
    RosterCandidate dateParse r before later all c := by
  induction offers generalizing roster with
  | nil => exact hroster c hc
  | cons offer offers ih =>
      have hrest : ∀ o ∈ offers, o ∈ all := fun o ho => hsub o (List.mem_cons_of_mem _ ho)
      rw [pushFallbacks] at hc
      split at hc
      · exact ih hrest hroster hc
      · refine ih hrest ?_ hc
        intro c' hc'
        rcases List.mem_append.mp hc' with hold | hnew
        · exact hroster c' hold
        · rw [List.mem_singleton.mp hnew]
          exact .row roster.length (hsub offer List.mem_cons_self)

theorem RosterCandidate.accountId {before later : Moment} {offers : List (Offer r.rows.length)}
    {c : StickyRouteCandidate r} (h : RosterCandidate dateParse r before later offers c) :
    r.accountId c.account = c.accountId := by
  cases h <;> rfl

theorem candidateById_some {candidates : List (StickyRouteCandidate r)} {id : String}
    {c : StickyRouteCandidate r} (h : candidateById r candidates id = some c) :
    c ∈ candidates ∧ c.accountId = id := by
  refine ⟨List.mem_reverse.mp (List.mem_of_find?_eq_some h), ?_⟩
  simpa using List.find?_some h

/-- A candidate that is free to take the session. -/
theorem selectForPin_sound {candidates : List (StickyRouteCandidate r)}
    {excludeAccountIds : List String} {m : Moment} {pendingBytes : String → ℚ} {choice : Choice}
    (h : selectForPin dateParse r candidates excludeAccountIds m pendingBytes = some choice) :
    ∃ c ∈ eligibleCandidates r candidates m, c.accountId = choice.accountId ∧
      c.accountId ∉ excludeAccountIds ∧ c.killswitchPasses ≠ some false := by
  unfold selectForPin at h
  simp only at h
  split at h
  · cases h
  · obtain ⟨selection, hselection, rfl⟩ := Option.map_eq_some_iff.mp h
    obtain ⟨candidate, hmem, hid, hpasses⟩ := selectStickyCandidate_sound hselection
    obtain ⟨c, hc, rfl⟩ := List.mem_map.mp hmem
    obtain ⟨heligible, hexcluded⟩ := List.mem_filter.mp hc
    exact ⟨c, heligible, hid, by simpa using hexcluded, hpasses⟩

/-- Where no account is chosen every free candidate is blocked. -/
theorem selectForPin_none {candidates : List (StickyRouteCandidate r)}
    {excludeAccountIds : List String} {m : Moment} {pendingBytes : String → ℚ}
    (h : selectForPin dateParse r candidates excludeAccountIds m pendingBytes = none)
    {c : StickyRouteCandidate r} (hc : c ∈ candidates)
    (hfree : isStickyRouteCandidateRateLimited r c m = false)
    (hexcluded : c.accountId ∉ excludeAccountIds) : c.killswitchPasses = some false := by
  have hmem : c ∈ (eligibleCandidates r candidates m).filter fun candidate =>
      candidate.accountId ∉ excludeAccountIds := by
    refine List.mem_filter.mpr ⟨List.mem_filter.mpr ⟨hc, by simp [hfree]⟩, ?_⟩
    simpa using hexcluded
  unfold selectForPin at h
  simp only at h
  split at h
  · rename_i hempty
    rw [hempty] at hmem
    exact absurd hmem List.not_mem_nil
  · exact selectStickyCandidate_none (Option.map_eq_none_iff.mp h)
      (List.mem_map.mpr ⟨c, hmem, rfl⟩)

/-- Where a session is sent: to the account of its pin, or to a candidate that
was chosen by what the killswitch lets pass. -/
theorem resolve_sound {sessionHash : String} {candidates : List (StickyRouteCandidate r)}
    {excludeAccountIds : List String} {m : Moment} {c : StickyRouteCandidate r}
    (h : (resolveStickyRouteCandidate dateParse r sessionHash candidates excludeAccountIds m).1 =
      some c) :
    c ∈ candidates ∧ c.accountId ∉ excludeAccountIds ∧
      ((∃ pin, shownPin r.sidebarSnapshot m.overlay
          (pinInput r sessionHash candidates excludeAccountIds m) = some pin ∧
          pin.accountId = c.accountId) ∨
        (shownPin r.sidebarSnapshot m.overlay
            (pinInput r sessionHash candidates excludeAccountIds m) = none ∧
          ∃ chosen ∈ candidates, chosen.accountId = c.accountId ∧
            chosen.killswitchPasses ≠ some false)) := by
  obtain ⟨assignment, hplaced, hcandidate⟩ := Option.bind_eq_some_iff.mp h
  obtain ⟨hmem, hid⟩ := candidateById_some hcandidate
  have hc : c ∈ candidates := (List.mem_filter.mp hmem).1
  cases hpin : shownPin r.sidebarSnapshot m.overlay
      (pinInput r sessionHash candidates excludeAccountIds m) with
  | some pin =>
      obtain ⟨a, ha, haccount⟩ := place_keeps
        (selectForPin dateParse r candidates excludeAccountIds m) true hpin
      rw [hplaced, Option.some.injEq] at ha
      have hpinId : pin.accountId = c.accountId := by rw [hid, ha, haccount]
      have hvalid := (Bool.and_eq_true_iff.mp (Option.filter_eq_some_iff.mp hpin).2).1
      have hexcluded : pin.accountId ∉ excludeAccountIds := by
        simp only [isValidStickyAssignment, Bool.and_eq_true, decide_eq_true_eq] at hvalid
        exact hvalid.1.2
      exact ⟨hc, hpinId ▸ hexcluded, .inl ⟨pin, rfl, hpinId⟩⟩
  | none =>
      obtain ⟨pending, hchoice⟩ := place_chooses
        (selectForPin dateParse r candidates excludeAccountIds m) true hpin
      rw [hplaced, Option.map_some] at hchoice
      obtain ⟨choice, hselect, hsame⟩ := Option.map_eq_some_iff.mp hchoice.symm
      obtain ⟨chosen, hchosen, hchosenId, hexcluded, hpasses⟩ := selectForPin_sound hselect
      have hchosenSame : chosen.accountId = c.accountId := by rw [hchosenId, hsame, hid]
      exact ⟨hc, hchosenSame ▸ hexcluded,
        .inr ⟨rfl, chosen, (List.mem_filter.mp hchosen).1, hchosenSame, hpasses⟩⟩

/-- A session without a usable pin stays where it is only when every other free
candidate is blocked. -/
theorem resolve_none {sessionHash : String} {candidates : List (StickyRouteCandidate r)}
    {excludeAccountIds : List String} {m : Moment}
    (h : (resolveStickyRouteCandidate dateParse r sessionHash candidates excludeAccountIds m).1 =
      none)
    (hpin : shownPin r.sidebarSnapshot m.overlay
      (pinInput r sessionHash candidates excludeAccountIds m) = none)
    {c : StickyRouteCandidate r} (hc : c ∈ candidates)
    (hfree : isStickyRouteCandidateRateLimited r c m = false)
    (hexcluded : c.accountId ∉ excludeAccountIds) : c.killswitchPasses = some false := by
  obtain ⟨pending, hchoice⟩ := place_chooses
    (selectForPin dateParse r candidates excludeAccountIds m) true hpin
  cases hselect : selectForPin dateParse r candidates excludeAccountIds m pending with
  | none => exact selectForPin_none hselect hc hfree hexcluded
  | some choice =>
      -- what was chosen is among the eligible, so the lookup by its id finds one
      rw [hselect, Option.map_some] at hchoice
      obtain ⟨assignment, hplaced, hsame⟩ := Option.map_eq_some_iff.mp hchoice
      obtain ⟨chosen, hchosen, hid, -, -⟩ := selectForPin_sound hselect
      unfold resolveStickyRouteCandidate at h
      simp only [hplaced, Option.bind_some] at h
      have hmissing := List.find?_eq_none.mp h chosen (List.mem_reverse.mpr hchosen)
      simp [hid, hsame] at hmissing

variable (dateParse) in
/-- The candidate a sticky request is sent with first. -/
theorem beforeSend_mem (sessionHash : String) {roster : List (StickyRouteCandidate r)}
    {candidate : StickyRouteCandidate r} (m : Moment) (hc : candidate ∈ roster) :
    beforeSend dateParse r sessionHash roster candidate m ∈ roster := by
  unfold beforeSend
  split
  · cases hresolve : (resolveStickyRouteCandidate dateParse r sessionHash roster
        [candidate.accountId] m).1 with
    | none => exact hc
    | some replacement => exact (resolve_sound hresolve).1
  · exact hc

/-- A selection keeps the order of the roster and offers no row twice. -/
theorem offered_nodup (usable : Usable r.rows.length) :
    ((offered r usable.offers).map (·.row)).Nodup := by
  have hsub : ((offered r usable.offers).map (·.row)).Sublist (usable.offers.map (·.row)) := by
    unfold offered
    induction usable.offers with
    | nil => exact List.Sublist.refl _
    | cons offer offers ih =>
        cases haccess : offer.access with
        | none => simpa [haccess] using ih.cons offer.row
        | some access => simpa [haccess] using ih
  exact usable.once.sublist hsub

theorem currentCandidates_sublist (candidates : List (FallbackCandidate r)) (m : Moment) :
    (currentCandidates dateParse r candidates m).Sublist candidates := by
  unfold currentCandidates
  simp only
  split
  · exact List.filter_sublist.trans List.filter_sublist
  · exact List.filter_sublist

end Serving

end Request.Legacy
