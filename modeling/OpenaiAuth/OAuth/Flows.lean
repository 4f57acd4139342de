import OpenaiAuth.Js.Table

/-! # Browser sign-in

`core/src/oauth.ts`, with the two callers `beginAccountLogin` and `authorizeBrowser`: every flow
waits for its callback on one pair of loopback listeners, and whoever leaves `pendingFlows` empty
closes them.

A step is what runs between two `await`s, or a request that one of the listeners answers.
-/

namespace OAuth

structure PkceCodes where
  verifier : String
  challenge : String
deriving DecidableEq

structure PendingOAuth where
  pkce : PkceCodes
  state : String
  /-- Whose promise `resolve` and `reject` settle. -/
  flow : ℕ
deriving DecidableEq

inductive Host
  | ipv4
  | ipv6
deriving DecidableEq

/-- How far the call that `serverStarting` stands for has come. -/
inductive Starting
  | listen4
  | listen6
  | resolved
  | rejected
deriving DecidableEq

/-- Where a flow waits. -/
inductive Phase
  /-- In `startOAuthServer`, for `serverStarting`. -/
  | starting
  /-- `startOAuthServer` has resolved, and the flow has not gone on yet. -/
  | granted
  /-- In `generatePKCE`. -/
  | generating
  | waiting
  | exchanging
  | settled
  /-- The `finally` of the login is done. -/
  | finished
  /-- There is no flow after all: the start or `generatePKCE` failed. -/
  | failed
deriving DecidableEq

inductive Kind
  | accountLogin
  | browser
deriving DecidableEq

/-- What the authorize URL of a flow carries. -/
structure AuthRequest where
  state : String
  pkce : PkceCodes
deriving DecidableEq

structure Flow where
  kind : Kind
  phase : Phase
  aborted : Bool := false
  request : Option AuthRequest := none
deriving DecidableEq

/-- A call of `exchangeCodeForTokens`, next to the `state` of the callback that made it. -/
structure Exchange (T : Type) where
  state : String
  code : String
  redirectUri : String
  pkce : PkceCodes
  entry : PendingOAuth
  result : Option (Except String T) := none

structure Url where
  pathname : String
  code : Option String := none
  state : Option String := none
  error : Option String := none
  errorDescription : Option String := none

inductive Page
  | success
  | failure (error : String)
  | text (body : String)

structure Response where
  status : ℕ
  page : Page

structure State (T : Type) where
  oauthServers : List Host := []
  /-- With the flow that started it. -/
  serverStarting : Option (Starting × ℕ) := none
  pendingFlows : Js.Table PendingOAuth := .empty
  flows : List Flow := []
  exchanges : List (Exchange T) := []
  requests : List Url := []
  /-- Every call of a `resolve` or a `reject`, newest first. -/
  settlements : List (ℕ × Except String T) := []

def oauthPort : ℕ := 1455

def redirectUri : String := s!"http://localhost:{oauthPort}/auth/callback"

/-- A query parameter that is there and not empty. -/
def truthy (value : Option String) : Option String := value.filter (· ≠ "")

namespace State

variable {T : Type} (s : State T)

def phaseAt (n : ℕ) : Option Phase := s.flows[n]?.map (·.phase)

def flowCount : ℕ := s.pendingFlows.size

def stopOAuthServer : State T := { s with oauthServers := [] }

def stopIdle : State T := if s.flowCount = 0 then s.stopOAuthServer else s

def flowCleanup (state : String) : State T :=
  { s with pendingFlows := s.pendingFlows.delete state }.stopIdle

def setPhase (n : ℕ) (phase : Phase) : State T :=
  { s with flows := s.flows.modify n fun flow => { flow with phase := phase } }

/-- The promise of `waitForOAuthCallback`. -/
def settle (n : ℕ) (result : Except String T) : State T :=
  { s.setPhase n .settled with settlements := (n, result) :: s.settlements }

/-! ## Starting the listeners -/

/-- `startOAuthServer`, called by the flow `n`. -/
def startOAuthServer (n : ℕ) : State T × Phase :=
  if s.oauthServers.length > 0 then (s, .granted)
  else
    match s.serverStarting with
    | some (.resolved, _) => (s, .granted)
    | some (.rejected, _) => (s, .failed)
    | some _ => (s, .starting)
    | none => ({ s with serverStarting := some (.listen4, n) }, .starting)

/-- The promise of `serverStarting` is over for everyone who waits for it. -/
def settleStarting (n : ℕ) (starting : Starting) (phase : Phase) : State T :=
  { s with
    serverStarting := some (starting, n)
    flows := s.flows.map fun flow =>
      if flow.phase = .starting then { flow with phase := phase } else flow }

def publish (n : ℕ) (listeners : List Host) : State T :=
  { s with oauthServers := listeners }.settleStarting n .resolved .granted

/-! ## Requests -/

def cancel (s : State T) (state : String) : State T :=
  match s.pendingFlows.get state with
  | none => s
  | some entry => (s.settle entry.flow (.error "Login cancelled")).flowCleanup state

def exchange (state code : String) (entry : PendingOAuth) : State T :=
  { s.setPhase entry.flow .exchanging with
    exchanges := s.exchanges ++ [{
      state := state
      code := code
      redirectUri := redirectUri
      pkce := entry.pkce
      entry := entry }] }

def failed (state : Option String) (error : String) : State T :=
  match state with
  | none => s.stopIdle
  | some state =>
      match s.pendingFlows.get state with
      | none => s.stopIdle
      | some entry => (s.settle entry.flow (.error error)).flowCleanup state

def handler (url : Url) : State T × Response :=
  if url.pathname = "/auth/callback" then
    match truthy url.error with
    | some error =>
        let errorMsg := (truthy url.errorDescription).getD error
        (s.failed (truthy url.state) errorMsg, ⟨200, .failure errorMsg⟩)
    | none =>
        match truthy url.state with
        | none => (s.stopIdle, ⟨400, .failure "Missing state parameter"⟩)
        | some state =>
            match truthy url.code with
            | none => (s.stopIdle, ⟨400, .failure "Missing authorization code"⟩)
            | some code =>
                match s.pendingFlows.get state with
                | none =>
                    (s.stopIdle,
                      ⟨400, .failure "Unknown state — authorization may have expired"⟩)
                | some entry => ((s.flowCleanup state).exchange state code entry, ⟨200, .success⟩)
  else if url.pathname = "/cancel" then
    let states := match truthy url.state with
      | some state => [state]
      | none => s.pendingFlows.entries.map Prod.fst
    ((states.foldl cancel s).stopIdle, ⟨200, .text "Login cancelled"⟩)
  else (s, ⟨404, .text "Not found"⟩)

/-! ## Waiting for the callback -/

def waitForOAuthCallback (n : ℕ) (pkce : PkceCodes) (state : String) (aborted : Bool) : State T :=
  if aborted then (s.flowCleanup state).settle n (.error "Login cancelled")
  else { s.setPhase n .waiting with pendingFlows := s.pendingFlows.set state ⟨pkce, state, n⟩ }

/-- The timeout and `onAbort` of `waitForOAuthCallback`. -/
def giveUp (n : ℕ) (state error : String) : State T :=
  match s.pendingFlows.get state with
  | none => s
  | some _ => (s.flowCleanup state).settle n (.error error)

/-- A flow goes on after `generatePKCE`. -/
def authorize (n : ℕ) (flow : Flow) (pkce : PkceCodes) (state : String) : State T :=
  let s := { s with flows := s.flows.set n { flow with request := some ⟨state, pkce⟩ } }
  match flow.kind with
  | .browser => s.waitForOAuthCallback n pkce state false
  | .accountLogin =>
      if flow.aborted then
        -- thrown before `waitForOAuthCallback`, so only the `finally` cleans up
        ((s.settle n (.error "Login cancelled")).flowCleanup state).setPhase n .finished
      else s.waitForOAuthCallback n pkce state flow.aborted

end State

/-! ## Steps -/

inductive Event (T : Type)
  | begin (kind : Kind)
  /-- The first listener is bound, or not. -/
  | listened4 (error : Option String)
  | listened6 (error : Option String)
  /-- The `finally` of the call that started the listeners. -/
  | cleared
  /-- The `await` of `startOAuthServer` returns. -/
  | started (n : ℕ)
  | generated (n : ℕ) (result : Option (PkceCodes × String))
  | request (url : Url)
  | timeout (n : ℕ)
  | abort (n : ℕ)
  | exchanged (i : ℕ) (result : Except String T)
  /-- The `finally` around a settled promise; `authorizeBrowser` has one for each call of
  `callback`. -/
  | finish (n : ℕ)

variable {T : Type}

/-- Where the flow is that started the listeners, and those that joined it. -/
def Starting.phase : Starting → Phase
  | .listen4 | .listen6 => .starting
  | .resolved => .granted
  | .rejected => .failed

/-- What has become of the promise of a flow. -/
inductive Stage
  | early
  | waiting
  | exchanging
  | over
deriving DecidableEq

def Phase.stage : Phase → Stage
  | .starting | .granted | .generating | .failed => .early
  | .waiting => .waiting
  | .exchanging => .exchanging
  | .settled | .finished => .over

/-- The flow that ends without a callback in the step. -/
def Event.own : Event T → Option ℕ
  | .generated n _ => some n
  | _ => none

/-- The timer and the listener of a flow look for its entry, whether or not it is there. -/
def Phase.watched : Phase → Bool
  | .waiting | .exchanging => true
  | _ => false

/-- The callback of the flow is still to come. -/
def Phase.listens : Phase → Bool
  | .granted | .generating | .waiting => true
  | _ => false

/-- In `pendingFlows` not yet, or no longer. -/
def Phase.unseen : Phase → Bool
  | .granted | .generating | .exchanging => true
  | _ => false

/-- `startOAuthServer` has resolved, and the promise of the flow has not settled. -/
def Phase.underWay : Phase → Bool
  | .granted | .generating | .waiting | .exchanging => true
  | _ => false

namespace State

variable (s : State T)

/-- What is left of a flow when its time is over. -/
def expire (n : ℕ) (error : String) : State T :=
  match s.flows[n]? with
  | some { phase := phase, request := some request, .. } =>
      if phase.watched then s.giveUp n request.state error else s
  | _ => s

def step : Event T → Option (State T)
  | .begin kind =>
      let (s', phase) := s.startOAuthServer s.flows.length
      some { s' with flows := s.flows ++ [{ kind, phase }] }
  | .listened4 error =>
      match s.serverStarting, error with
      | some (.listen4, n), none => some { s with serverStarting := some (.listen6, n) }
      | some (.listen4, n), some _ => some (s.settleStarting n .rejected .failed)
      | _, _ => none
  | .listened6 error =>
      match s.serverStarting, error with
      | some (.listen6, n), none => some (s.publish n [.ipv4, .ipv6])
      | some (.listen6, n), some code =>
          if code ≠ "EADDRNOTAVAIL" ∧ code ≠ "EAFNOSUPPORT" then
            some (s.settleStarting n .rejected .failed)
          else some (s.publish n [.ipv4])
      | _, _ => none
  | .cleared =>
      match s.serverStarting with
      | some (.resolved, _) | some (.rejected, _) => some { s with serverStarting := none }
      | _ => none
  | .started n =>
      match s.flows[n]? with
      | some { phase := .granted, .. } =>
          -- the flow that started the listeners goes on after its own `finally`
          if s.serverStarting.map Prod.snd = some n then none
          else some (s.setPhase n .generating)
      | _ => none
  | .generated n result =>
      match s.flows[n]?, result with
      | some { phase := .generating, .. }, none => some (s.setPhase n .failed)
      | some flow@{ phase := .generating, .. }, some (pkce, state) =>
          -- 256 random bits, so no other flow has this `state`
          if s.flows.any fun flow => flow.request.any fun request => request.state = state then none
          else some (s.authorize n flow pkce state)
      | _, _ => none
  | .request url => some ({ s with requests := url :: s.requests }.handler url).1
  | .timeout n => some (s.expire n "OAuth callback timeout — authorization took too long")
  | .abort n =>
      match s.flows[n]? with
      | some flow@{ kind := .accountLogin, aborted := false, .. } =>
          some ({ s with flows := s.flows.set n { flow with aborted := true } }.expire n
            "Login cancelled")
      | _ => none
  | .exchanged i result =>
      match s.exchanges[i]? with
      | some exchange@{ result := none, .. } =>
          some ({ s with exchanges := s.exchanges.set i { exchange with result := some result } }.settle
            exchange.entry.flow result)
      | _ => none
  | .finish n =>
      match s.flows[n]? with
      | some { kind := .accountLogin, phase := .settled, request := some request, .. } =>
          some ((s.flowCleanup request.state).setPhase n .finished)
      | some { kind := .browser, phase := .settled, request := some request, .. } =>
          some (s.flowCleanup request.state)
      | _ => none

def run : State T → List (Event T) → Option (State T)
  | s, [] => some s
  | s, e :: es => (s.step e).bind fun s' => s'.run es

/-! ## What a flow is promised -/

/-- The listeners are there for every flow whose callback is to come. -/
def Listens : Prop :=
  ∀ (n : ℕ) (flow : Flow), s.flows[n]? = some flow → flow.phase.listens → s.oauthServers ≠ []

/-- The step closes the listeners, and a flow between its start and its settlement stays where it
is. -/
def ClosesUnder (s' : State T) : Prop :=
  s.oauthServers ≠ [] ∧ s'.oauthServers = [] ∧
    ∃ n phase, phase.underWay ∧ s.phaseAt n = some phase ∧ s'.phaseAt n = some phase

structure SettlesOwn : Prop where
  once : (s.settlements.map Prod.fst).Nodup
  own : ∀ n tokens, (n, .ok tokens) ∈ s.settlements →
    ∃ flow request, s.flows[n]? = some flow ∧ flow.request = some request ∧
      ∃ exchange ∈ s.exchanges, exchange.state = request.state ∧ exchange.pkce = request.pkce ∧
        exchange.result = some (.ok tokens) ∧
          ∃ url ∈ s.requests, url.pathname = "/auth/callback" ∧
            url.state = some request.state ∧ url.code = some exchange.code

def ExchangesOnce : Prop := (s.exchanges.map (·.state)).Nodup

/-! ## Who else is there -/

/-- The states that a step takes out of `pendingFlows` when it also closes the listeners if none
is left. -/
def taken : Event T → Option (List String)
  | .generated n (some (_, state)) =>
      match s.flows[n]? with
      | some { kind := .accountLogin, aborted := true, .. } => some [state]
      | _ => none
  | .request url =>
      if url.pathname = "/auth/callback" then
        if (truthy url.error).isSome ∨ (truthy url.code).isSome then some (truthy url.state).toList
        else some []
      else if url.pathname = "/cancel" then
        match truthy url.state with
        | some state => some [state]
        | none => some (s.pendingFlows.entries.map Prod.fst)
      else none
  | .timeout n =>
      match s.flows[n]? with
      | some { phase := phase, request := some request, .. } =>
          if phase.watched ∧ (s.pendingFlows.get request.state).isSome then some [request.state]
          else none
      | _ => none
  | .abort n =>
      match s.flows[n]? with
      | some { phase := phase, request := some request, .. } =>
          if phase.watched ∧ (s.pendingFlows.get request.state).isSome then some [request.state]
          else none
      | _ => none
  | .finish n =>
      match s.flows[n]? with
      | some { request := some request, .. } => some [request.state]
      | _ => none
  | _ => none

/-- `pendingFlows` does not show every flow: one that has the listeners and has not registered
yet, or whose code is being exchanged, is not in it. -/
def Lapse (e : Event T) : Prop :=
  s.oauthServers ≠ [] ∧
    (∃ states, s.taken e = some states ∧ ∀ entry ∈ s.pendingFlows.entries, entry.1 ∈ states) ∧
    ∃ n phase, s.phaseAt n = some phase ∧ phase.unseen ∧ e.own ≠ some n

end State

/-- The states of the runs whose steps all meet the condition. -/
inductive Reached (meets : State T → Event T → Prop) : State T → Prop
  | init : Reached meets {}
  | step {s s' : State T} {e : Event T} (h : Reached meets s) (hmeets : meets s e)
      (hstep : s.step e = some s') : Reached meets s'

end OAuth
