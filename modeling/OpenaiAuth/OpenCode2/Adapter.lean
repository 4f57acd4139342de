import OpenaiAuth.OpenCode2.Choosing

/-! # The OpenCode 2 adapter

`chooseAccount` picks the account of a request, `accountHeaders` prepares its send, and
`retrySameAccount` says whether a response that was cut off may be continued. Each is a
program: what it reads of the process and what it awaits are its calls, and between two
calls it runs alone. The waits before the choice, and what the limit policy decides, are
left open.
-/

namespace OpenCode2

open Interleave Js Sidebar Sidebar.Placement Request Request.Pool

/-! ## Requests -/

structure AccountRequest where
  sessionID : String
  kind : String
  accountId : String
deriving DecidableEq, Repr

def receiptKey (scope : AccountRequest) : String :=
  scope.sessionID ++ "\u0000" ++ scope.kind ++ "\u0000" ++ scope.accountId

def requestKey (sessionID kind : String) : String := sessionID ++ "\u0000" ++ kind

structure RetryWake where
  checkpoint : Option AccountKey
deriving DecidableEq, Repr

/-- `retry`: the phase is `retry`, not `request`. -/
structure ChooseAccountInput where
  sessionID : String
  kind : String
  modelID : String
  retry : Bool
  rerouteFrom : Option String
  previousAccountId : Option String
  wake : Option RetryWake
  hostAttempt : Option ℕ
deriving DecidableEq, Repr

def ChooseAccountInput.primary (input : ChooseAccountInput) : Bool := input.kind = "primary"

/-- A vault's credential for one send. -/
structure Receipt where
  credentialId : String
  accessToken : String
  accountIdentity : Option String
deriving DecidableEq, Repr

/-- A pool row as a send needs it; `token` is its usable token. -/
structure PoolRow where
  identity : Option String
  credentialEpoch : ℕ
  token : Option String
deriving DecidableEq, Repr

/-- What is kept of an attempt: what it was sent with. -/
inductive AttemptData
  | pool (token : String) (credentialEpoch : ℕ) (identity : Option String)
  | vault (routeId : String) (receipt : Receipt)
deriving DecidableEq, Repr

inductive InterruptedData
  | pool (identity : Option String)
  | vault (credentialId : String) (accountIdentity wireIdentity : Option String)
deriving DecidableEq, Repr

/-- A send whose response was cut off after output. -/
structure Interrupted where
  accountId : String
  modelID : String
  agent : Option String
  data : InterruptedData
deriving DecidableEq, Repr

/-- A choice kept for a retry; `ref` tells two choices apart. -/
structure KeptChoice where
  lease : Option Lease
  pin : Option StickyPin
  ref : ℕ
deriving DecidableEq, Repr

/-! ## Calls -/

/-- The process when a call begins to choose. `facts` are what the limit policy goes by
besides the candidates. -/
structure Moment (Map Facts : Type) extends Roll Map where
  marks : Table ℚ
  accountKeys : List AccountKey
  usable : String → Bool
  waits : Bool
  facts : Facts

/-- What the waits before the choice come to: the call ends with no account or with a
directive to the host, it refuses for want of a login, or it goes on to choose. -/
inductive Entry (Map Facts : Type) where
  | inactive
  | directive
  | loginRequired
  | ready (m : Moment Map Facts)

/-- What a choice reads in one go. The pins are the placement snapshot without the
session's own reservation, and a choice may make the objects from `mint` on. -/
structure Look where
  pins : Table StickyPin
  mint : ℕ
  activeAccount : Option String
  routes : List VaultRoute

/-- A look is labelled with what its choice leaves out and the marks that count. -/
inductive Call where
  | enter
  | look (sessionID : String) (excluded refused : List String) (marks : Table ℚ)
  | reserve (sessionID accountId : String) (quotaCheckedAt : Option ℚ)
      (wireIdentity : Option String)
  | rollback (lease : Lease)
  | askRouting (candidates : List RoutingCandidate)
  | usableToken (id : String)
  | authorize (id : String)
  | keepReceipt (key : String) (receipt : Receipt)
  | slotPlaceholderWithoutMain
  | terminalRefusal
  | commit (lease : Option Lease) (pin : Option StickyPin)
  | keep (key : String) (lease : Option Lease) (pin : Option StickyPin)
  | takeChoice (key : String)
  | commitChoice (choice : KeptChoice)
  | endChoice (choice : KeptChoice)
  | dropChoice (key : String)
  | forgetSession (sessionID : String)
  | authority
  | peekRow (id : String)
  | receipt (key : String)
  | dropReceipt (key : String)
  | forRequest
  | beforeDispatch (id : String)
  | readmission
  | takeInterrupted (key : String)
  | setInterrupted (key : String) (entry : Interrupted)
deriving DecidableEq

/-- `none` for the vault: there is none; otherwise whether it is in vault mode. -/
abbrev Answer (Map Facts : Type) : Call → Type
  | .enter => Entry Map Facts
  | .look _ _ _ _ => Look
  | .reserve _ _ _ _ => ℕ
  | .rollback _ => Unit
  | .askRouting candidates => Except Unit (Option (Fin candidates.length))
  | .usableToken _ => Bool
  | .authorize _ => Except Unit (Option Receipt)
  | .keepReceipt _ _ => Unit
  | .slotPlaceholderWithoutMain => Bool
  | .terminalRefusal => Bool
  | .commit _ _ => Unit
  | .keep _ _ _ => Unit
  | .takeChoice _ => Option KeptChoice
  | .commitChoice _ => Unit
  | .endChoice _ => Unit
  | .dropChoice _ => Unit
  | .forgetSession _ => Unit
  | .authority => Option Bool
  | .peekRow _ => Option PoolRow
  | .receipt _ => Option Receipt
  | .dropReceipt _ => Unit
  | .forRequest => Except Unit Unit
  | .beforeDispatch _ => Except Unit Bool
  | .readmission => Option (Roll Map × Table ℚ × List VaultRoute)
  | .takeInterrupted _ => Option Interrupted
  | .setInterrupted _ _ => Unit

abbrev sig (Map Facts : Type) : Sig where
  Call := Call
  Ans := Answer Map Facts

/-- `loopEnds`: the choice went round more often than it can. -/
inductive Failure where
  | loginRequired
  | vaultRefusal
  | quotaRefusal
  | noAccount
  | threw
  | loopEnds
deriving DecidableEq, Repr

variable {Map Facts : Type}

abbrev AdapterM (Map Facts α : Type) : Type := Throwing Failure (sig Map Facts) α

/-- One call that does not throw. -/
def ask (o : Call) : AdapterM Map Facts (Answer Map Facts o) :=
  Throwing.perform (S := sig Map Facts) o fun r => .ok r

/-- One call that may throw. -/
def asked {α : Type} (o : Call) (ans : Answer Map Facts o → Except Unit α) :
    AdapterM Map Facts α :=
  Throwing.perform (S := sig Map Facts) o fun r => (ans r).mapError fun _ => .threw

def askRouting (candidates : List RoutingCandidate) : AdapterM Map Facts (Option String) :=
  asked (.askRouting candidates) fun (r : Except Unit (Option (Fin candidates.length))) =>
    r.map fun advice => advice.map fun i => (candidates.get i).id

def authorize (id : String) : AdapterM Map Facts (Option Receipt) :=
  asked (.authorize id) fun (r : Except Unit (Option Receipt)) => r

def usableToken (id : String) : AdapterM Map Facts Bool := ask (.usableToken id)

/-! ## Choosing an account -/

section Choose

variable (L : Library Map) (P : PinLibrary) (sameAccount : AccountKey → AccountKey → Bool)
  (dateParse : String → Option ℚ)
  (retains : Facts → List LimitCandidate → LimitCandidate → Bool)
  (input : ChooseAccountInput)

def openAiHostRetryLimit : ℕ := 10

section Wake

variable (m : Moment Map Facts)

def Moment.accountKey (id : String) : Option AccountKey :=
  m.accountKeys.find? fun key => key.accountId = id

def limitCandidate (target : PoolTarget Map) : Option LimitCandidate :=
  (m.accountKey target.id).map fun account =>
    { account
      admitted :=
        m.killswitch L dateParse target.id ≠ some false &&
          (windowsFromQuotaMap L target.quota).isSome &&
          !L.budgetExhaustedResetAt target.quota m.now &&
          !((m.refreshBackoff target.id).any fun backoff => m.now < backoff) &&
          (!target.isRow || m.usable target.id) }

def limitCandidates : List LimitCandidate := m.targets.filterMap (limitCandidate L dateParse m)

/-- The candidate of the account that served the turn before. -/
def previousCandidate : Option LimitCandidate :=
  ((input.previousAccountId.or input.rerouteFrom).bind m.accountKey).bind fun key =>
    (limitCandidates L dateParse m).find? fun candidate => sameAccount candidate.account key

/-- The account a wake comes back to, when the limit policy retains it. -/
def wakeAccount : Option String :=
  if input.retry then none
  else
    match input.wake.bind (·.checkpoint), previousCandidate L sameAccount dateParse input m with
    | some checkpoint, some previous =>
        if (input.hostAttempt.getD openAiHostRetryLimit < openAiHostRetryLimit && m.waits &&
            sameAccount previous.account checkpoint &&
            retains m.facts (limitCandidates L dateParse m) previous) then
          some previous.account.accountId
        else none
    | _, _ => none

end Wake

/-! ### One round -/

/-- What a round goes by and what the rounds before left. -/
structure Round where
  wakeAccount : Option String
  excluded : List String
  refused : List String := []
  marks : Table ℚ
  consulted : Bool := false

def Round.skip (s : Round) : List String := s.excluded ++ s.refused

structure Picked where
  accountId : Option String
  plannedPin : Option StickyPin
  cold : Bool
  wakeAccount : Option String

section Rounds

variable (roll : Roll Map)

def sticky : Bool := roll.mode = .stickyBalanced

/-- Row `main` plays main, in vault mode the vault's main route unless the mode is sticky. -/
def mainIdOf (routes : List VaultRoute) : Option (Option String) :=
  if roll.vaultMode then some (if sticky roll then none else vaultMainRouteId routes) else none

/-- The session's pin and its row, then the ordered rows. -/
def pickAccount (s : Round) (look : Look) : Picked :=
  let routing := roll.routing L dateParse s.marks
  let cold := !sticky roll
  match s.wakeAccount.filter (· ∉ s.skip) with
  | some wakeAccount => ⟨some wakeAccount, none, cold, none⟩
  | none =>
      let ordered := chooseOrdered L routing roll.mode s.skip
        (if input.primary then none else look.activeAccount) (mainIdOf roll look.routes)
      if sticky roll then
        let previous := look.pins.get input.sessionID
        let chosen := chooseSticky L P roll routing input.sessionID s.skip
          (input.primary && s.refused = []) look.pins look.mint none
        let after := chosen.2.get input.sessionID
        ⟨chosen.1.or ordered,
          if chosen.1.isSome && after.map (·.ref) ≠ previous.map (·.ref) then after else none,
          previous.isNone, s.wakeAccount⟩
      else ⟨ordered, none, cold, s.wakeAccount⟩

/-- The round's account, unless it was refused before. -/
def Picked.chosen (picked : Picked) (refused : List String) : Option String :=
  picked.accountId.filter (· ∉ refused)

/-- The choice so far: its account, the pin it plans and its reservation. -/
structure Planned where
  accountId : String
  plannedPin : Option StickyPin
  lease : Option Lease

def reserves : Bool := input.primary && sticky roll

/-- Reserves this request's bytes, so other sessions include them when balancing. -/
def reserveAccount (s : Round) (accountId : String) : AdapterM Map Facts (Option Lease) := do
  if reserves input roll then
    let ref : ℕ ← ask (.reserve input.sessionID accountId
      (((admitSticky L (roll.routing L dateParse s.marks)).projections accountId).bind
        (·.checkedAt))
      ((targetById roll.targets accountId).bind (·.identity)))
    return some ⟨input.sessionID, ref⟩
  else return none

def rollback (lease : Option Lease) : AdapterM Map Facts Unit :=
  match lease with
  | some lease => ask (.rollback lease)
  | none => return ()

/-- A call that throws gives the reservation up. -/
def releasing {α : Type} (lease : Option Lease) (p : AdapterM Map Facts α) :
    AdapterM Map Facts α := do
  match ← Throwing.attempt p with
  | .ok a => return a
  | .error error =>
      rollback lease
      throw error

/-- Optional routing advice, for a fresh primary request in vault mode. -/
def chooseVaultRouting (s : Round) (picked : Picked) (look : Look) :
    AdapterM Map Facts (Option String) :=
  if !roll.vaultMode || !picked.cold || input.sessionID = "" || input.modelID = "" ||
      !input.primary || input.retry || input.rerouteFrom.isSome then
    return none
  else
    match planOrdered L (roll.routing L dateParse s.marks) .roster (some none) true with
    | .block _ => return none
    | .send order _ =>
        let eligible := (roll.targets.map (·.id)).filter (· ∉ s.skip)
        let candidates := routingCandidates look.routes order eligible
        if candidates.isEmpty then return none else askRouting candidates

/-- What becomes of the choice where the routing accessor prefers another account. -/
def followAdvice (s : Round) (planned : Planned) (preferred : String) :
    AdapterM Map Facts Planned := do
  rollback planned.lease
  if sticky roll then
    let look : Look ← ask (.look input.sessionID s.excluded s.refused s.marks)
    let chosen := chooseSticky L P roll (roll.routing L dateParse s.marks) input.sessionID s.skip
      input.primary look.pins look.mint (some preferred)
    let accountId := chosen.1.getD planned.accountId
    let lease ← reserveAccount L dateParse input roll s accountId
    return ⟨accountId, (chosen.2.get input.sessionID).or planned.plannedPin, lease⟩
  else return ⟨preferred, planned.plannedPin, none⟩

def consult (s : Round) (picked : Picked) (look : Look) (planned : Planned) :
    AdapterM Map Facts Planned := do
  if s.consulted || input.wake.isSome then return planned
  else
    let preferred ← releasing planned.lease
      (chooseVaultRouting L dateParse input roll s picked look)
    match preferred.filter (fun preferred => preferred ≠ "" && preferred ≠ planned.accountId) with
    | none => return planned
    | some preferred => followAdvice L P dateParse input roll s planned preferred

/-- Whether there is something to send the request with: a pool row's usable token, or the
vault's authorization. -/
def canSend (planned : Planned) : AdapterM Map Facts Bool := do
  if (targetById roll.targets planned.accountId).any (·.isRow) then
    usableToken planned.accountId
  else if !roll.vault then return true
  else
    match ← releasing planned.lease (authorize planned.accountId) with
    | some receipt =>
        ask (.keepReceipt (receiptKey ⟨input.sessionID, input.kind, planned.accountId⟩) receipt)
        return true
    | none => return false

/-- The choice, and the accounts that were refused. Each round refuses one account more or
gives up what it leaves out, then the marks. -/
def chooseLoop : ℕ → Round → AdapterM Map Facts (Option Planned × List String)
  | 0, _ => throw .loopEnds
  | fuel + 1, s => do
      let look : Look ← ask (.look input.sessionID s.excluded s.refused s.marks)
      let picked := pickAccount L P dateParse input roll s look
      match picked.chosen s.refused with
      | none =>
          if s.excluded ≠ [] then
            -- only for this last-account decision: the live mark stays in place
            chooseLoop fuel { s with
              wakeAccount := picked.wakeAccount
              marks := s.excluded.foldl Table.delete s.marks
              excluded := [] }
          else if 0 < s.marks.size then
            -- marks steer requests, they never leave one with no account to try
            chooseLoop fuel { s with wakeAccount := picked.wakeAccount, marks := .empty }
          else return (none, s.refused)
      | some accountId =>
          let lease ← reserveAccount L dateParse input roll s accountId
          let planned ← consult L P dateParse input roll s picked look
            ⟨accountId, picked.plannedPin, lease⟩
          if ← canSend input roll planned then return (some planned, s.refused)
          else
            rollback planned.lease
            chooseLoop fuel { s with
              wakeAccount := picked.wakeAccount
              refused := s.refused ++ [planned.accountId]
              consulted := true }

end Rounds

/-! ### The call -/

inductive ChooseAccountResult where
  | account (id : String)
  | none
  | directive
deriving DecidableEq, Repr

def firstRound (m : Moment Map Facts) : Round where
  wakeAccount := wakeAccount L sameAccount dateParse retains input m
  excluded := input.rerouteFrom.toList
  marks := m.marks

/-- The login lives in another store, and no row could serve. -/
def refuseMissingLogin (m : Moment Map Facts) : AdapterM Map Facts Unit := do
  if !m.vaultMode && m.targets.isEmpty then
    let placeholder : Bool ← ask .slotPlaceholderWithoutMain
    if placeholder then throw .loginRequired else return ()
  else return ()

/-- Vault mode never falls back to a local account. -/
def refuseVault (m : Moment Map Facts) (refused : List String) : AdapterM Map Facts Unit :=
  if m.vaultMode && m.vault && (m.targets.isEmpty || refused ≠ []) then throw .vaultRefusal
  else return ()

/-- The limit policy's own refusal, where every account is known to be unable to serve. -/
def refuseQuota (m : Moment Map Facts) : AdapterM Map Facts Unit := do
  let candidates := limitCandidates L dateParse m
  if !input.retry && !candidates.isEmpty && candidates.all (!·.admitted) then
    let refusal : Bool ← ask .terminalRefusal
    if refusal then throw .quotaRefusal else return ()
  else return ()

def refuseNone (m : Moment Map Facts) (refused : List String) :
    AdapterM Map Facts ChooseAccountResult := do
  refuseMissingLogin m
  refuseVault m refused
  refuseQuota L dateParse input m
  return .none

/-- A retry's choice is kept until its headers are prepared, any other is committed. -/
def commitOrKeep (planned : Planned) : AdapterM Map Facts Unit := do
  if input.retry then
    ask (.keep (receiptKey ⟨input.sessionID, input.kind, planned.accountId⟩) planned.lease
      planned.plannedPin)
  else
    ask (.commit planned.lease planned.plannedPin)
    rollback planned.lease

def chooseFrom (m : Moment Map Facts) : AdapterM Map Facts ChooseAccountResult := do
  let (choice, refused) ← chooseLoop L P dateParse input m.toRoll (m.targets.length + 3)
    (firstRound L sameAccount dateParse retains input m)
  match choice with
  | none => refuseNone L dateParse input m refused
  | some planned =>
      commitOrKeep input planned
      return .account planned.accountId

def chooseAccount : AdapterM Map Facts ChooseAccountResult := do
  match ← (ask .enter : AdapterM Map Facts (Entry Map Facts)) with
  | .inactive => return .none
  | .directive => return .directive
  | .loginRequired => throw .loginRequired
  | .ready m => chooseFrom L P sameAccount dateParse retains input m

end Choose

/-! ## Preparing a send -/

structure Headers where
  token : String
  chatgptAccountId : Option String
  attempt : AttemptData
deriving DecidableEq, Repr

section Send

variable (identityOfToken : String → Option String) (limits : Bool) (request : AccountRequest)

/-- The identity a row's send names. -/
def PoolRow.identityWith (row : PoolRow) (token : String) : Option String :=
  row.identity.or (identityOfToken token)

def Receipt.wireIdentity (receipt : Receipt) : Option String :=
  receipt.accountIdentity.or (identityOfToken receipt.accessToken)

/-- A pool row that was signed out or replaced meanwhile is refused. -/
def checkRow (data : AttemptData) : AdapterM Map Facts Unit := do
  match data with
  | .pool token credentialEpoch _ =>
      let row : Option PoolRow ← ask (.peekRow request.accountId)
      if row.any fun row => row.credentialEpoch = credentialEpoch && row.token = some token then
        return ()
      else throw .noAccount
  | .vault _ _ => return ()

/-- With limits, waits for the account bindings before the send. -/
def prepareFeedback (data : AttemptData) : AdapterM Map Facts Unit := do
  if limits then
    asked .forRequest fun (r : Except Unit Unit) => r
    checkRow request data
    let ready ← asked (.beforeDispatch request.accountId) fun (r : Except Unit Bool) => r
    if ready then return () else throw .noAccount
  else return ()

def commitChoice (choice : Option KeptChoice) : AdapterM Map Facts Unit :=
  match choice with
  | some choice => ask (.commitChoice choice)
  | none => return ()

/-- The vault's credential: the one authorized while choosing, or a new one. -/
def scopedReceipt : AdapterM Map Facts (Option Receipt) := do
  let kept : Option Receipt ← ask (.receipt (receiptKey request))
  let receipt ← match kept with
    | some receipt => pure (some receipt)
    | none => authorize request.accountId
  ask (.dropReceipt (receiptKey request))
  return receipt

def prepareSend (choice : Option KeptChoice) : AdapterM Map Facts Headers := do
  let vault : Option Bool ← ask .authority
  -- in vault mode no pool row is sent with, so only the vault is asked
  let row : Option PoolRow ← if vault = some true then pure none else ask (.peekRow request.accountId)
  if row.isNone && vault.isSome then
    match ← scopedReceipt request with
    | none => throw .noAccount
    | some receipt =>
        let data := AttemptData.vault request.accountId receipt
        prepareFeedback limits request data
        commitChoice choice
        return ⟨receipt.accessToken, receipt.wireIdentity identityOfToken, data⟩
  else
    match row, row.bind (·.token) with
    | some row, some token =>
        let identity := row.identityWith identityOfToken token
        let data := AttemptData.pool token row.credentialEpoch identity
        prepareFeedback limits request data
        commitChoice choice
        return ⟨token, identity, data⟩
    | _, _ => throw .noAccount

/-- The kept choice ends with the call, whether or not it was committed. -/
def accountHeaders : AdapterM Map Facts Headers := do
  let _ ← (ask (.takeInterrupted (requestKey request.sessionID request.kind)) :
    AdapterM Map Facts (Option Interrupted))
  let choice : Option KeptChoice ← ask (.takeChoice (receiptKey request))
  let result ← Throwing.attempt (prepareSend identityOfToken limits request choice)
  match choice with
  | some choice => ask (.endChoice choice)
  | none => pure ()
  match result with
  | .ok headers => return headers
  | .error error => throw error

def dropChoice : AdapterM Map Facts Unit := ask (.dropChoice (receiptKey request))

def forgetSession (sessionID : String) : AdapterM Map Facts Unit := ask (.forgetSession sessionID)

end Send

end OpenCode2
