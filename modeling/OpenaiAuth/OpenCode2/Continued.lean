import OpenaiAuth.Interleave.Among
import OpenaiAuth.OpenCode2.Choice

/-! # Continuing an interrupted response

A response that was cut off after output may go on, on the account it had and as the identity
that received the output. `retrySameAccount` checks the identity and `accountHeaders` then
reads the credential again, with awaits in both. Each is one program among others, which may
replace a login between any two of its calls.

Main result: `continued_login`. The login of the continued send is the one whose output was
cut off, when the credential stays what was approved until the headers have read it.
-/

namespace OpenCode2

open Interleave Js Sidebar Sidebar.Placement Request Request.Pool

variable {Map Facts : Type}

/-! ## What is kept of a send that was cut off -/

section Kept

variable (identityOfToken : String → Option String)

/-- What is kept of a send's credential. -/
def AttemptData.interrupted : AttemptData → InterruptedData
  | .pool _ _ identity => .pool identity
  | .vault _ receipt =>
      .vault receipt.credentialId receipt.accountIdentity (receipt.wireIdentity identityOfToken)

/-- The identity that received the output. -/
def InterruptedData.identity : InterruptedData → Option String
  | .pool identity => identity
  | .vault _ _ wireIdentity => wireIdentity

/-- A send as the host reports its end. -/
structure Attempt where
  sessionID : String
  kind : String
  accountId : String
  modelID : String
  agent : Option String
  data : AttemptData
deriving DecidableEq, Repr

def Headers.sent (headers : Headers) (request : AccountRequest) (modelID : String)
    (agent : Option String) : Attempt :=
  ⟨request.sessionID, request.kind, request.accountId, modelID, agent, headers.attempt⟩

def Attempt.entry (attempt : Attempt) : Interrupted where
  accountId := attempt.accountId
  modelID := attempt.modelID
  agent := attempt.agent
  data := attempt.data.interrupted identityOfToken

/-- `onAttemptEnd`, as far as it keeps what was cut off: output had started, and the read of
the response failed. -/
def onAttemptEnd (attempt : Attempt) (outputStarted failed : Bool) : AdapterM Map Facts Unit :=
  if outputStarted && failed then
    ask (.setInterrupted (requestKey attempt.sessionID attempt.kind)
      (attempt.entry identityOfToken))
  else return ()

end Kept

/-! ## Approving -/

/-- A retry after output. `interruptedRead`: that is the continuation the host asks for;
`limit`: the response named a limit. -/
structure RetrySameAccountInput where
  sessionID : String
  kind : String
  accountId : String
  modelID : String
  agent : Option String
  interruptedRead : Bool
  limit : Bool
deriving DecidableEq, Repr

section Approve

variable (L : Library Map) (dateParse : String → Option ℚ)
  (identityOfToken : String → Option String) (input : RetrySameAccountInput)

def RetrySameAccountInput.request : AccountRequest :=
  ⟨input.sessionID, input.kind, input.accountId⟩

def RetrySameAccountInput.continues (previous : Interrupted) : Bool :=
  previous.accountId = input.accountId && previous.modelID = input.modelID &&
    previous.agent = input.agent && !input.limit

/-- The routing and the quota admission still send to the account. -/
def readmits (roll : Roll Map) (marks : Table ℚ) (routes : List VaultRoute) (id : String) : Bool :=
  let routing := roll.routing L dateParse marks
  if sticky roll then
    match routePinnedRow L routing (stickyOptions roll) id with
    | .serve => true
    | .lastPath => true
    | _ => false
  else
    match planOrdered L routing (orderedPlacement roll.mode) (mainIdOf roll routes) true with
    | .block _ => false
    | .send order _ => id ∈ order

/-- The account as a target of the call, where it is one and is still sent to. -/
def readmitted (vaultMode : Bool) (read : Roll Map × Table ℚ × List VaultRoute) :
    Option (PoolTarget Map) :=
  let roll := { read.1 with vaultMode }
  (roll.targets.find? fun target => target.id = input.accountId).filter fun _ =>
    readmits L dateParse roll read.2.1 read.2.2 input.accountId

/-- The row's login is the one whose output was cut off, and it is known. -/
def samePoolLogin (identity : Option String) : AdapterM Map Facts Bool := do
  let row : Option PoolRow ← ask (.peekRow input.accountId)
  match row, row.bind (·.token) with
  | some row, some token =>
      return identity.any (· ≠ "") && row.identityWith identityOfToken token = identity
  | _, _ => return false

/-- The vault serves the record it served then, under the same identities. -/
def sameVaultLogin (target : PoolTarget Map) (data : InterruptedData) :
    AdapterM Map Facts Bool := do
  match ← authorize input.accountId with
  | some receipt =>
      return (AttemptData.vault input.accountId receipt).interrupted identityOfToken = data &&
        (target.identity.isNone || target.identity = data.identity)
  | none => return false

def sameLogin (vault : Bool) (target : PoolTarget Map) (data : InterruptedData) :
    AdapterM Map Facts Bool :=
  match data with
  | .pool identity =>
      if target.isRow then samePoolLogin identityOfToken input identity else return false
  | .vault _ _ _ =>
      if target.isRow || !vault then return false
      else sameVaultLogin identityOfToken input target data

/-- `retrySameAccount`, with what it approves. The source reads the row together with the
accounts; here it is a call of its own, which only adds runs. -/
def approveRetry : AdapterM Map Facts (Option Interrupted) := do
  if !input.interruptedRead then return none
  else
    let previous : Option Interrupted ←
      ask (.takeInterrupted (requestKey input.sessionID input.kind))
    match previous.filter input.continues with
    | none => return none
    | some previous =>
        let vault : Option Bool ← ask .authority
        let read : Option (Roll Map × Table ℚ × List VaultRoute) ← ask .readmission
        match read.bind (readmitted L dateParse input (vault = some true)) with
        | none => return none
        | some target =>
            let same ← sameLogin identityOfToken input vault.isSome target previous.data
            return if same then some previous else none

def retrySameAccount : AdapterM Map Facts (Option String) := do
  let approved ← approveRetry L dateParse identityOfToken input
  return approved.map (·.accountId)

end Approve

/-! ## The logins of a process -/

/-- The logins a process can send with, and what it keeps of its sends: the store in charge,
the rows of the pool, what the vault serves under a route, the receipts kept for a request
and the sends that were cut off. -/
structure Logins where
  vault : Option Bool
  rows : String → Option PoolRow
  served : String → Option Receipt
  receipts : Table Receipt
  interrupted : Table Interrupted

namespace Logins

variable (w : Logins)

/-- What a call is answered and leaves behind; `answers` has the rest. The vault may fail. -/
def exec (answers : (o : Call) → Answer Map Facts o) : (o : Call) → Answer Map Facts o × Logins
  | .authority => (w.vault, w)
  | .peekRow id => (w.rows id, w)
  | .authorize id =>
      let answer : Except Unit (Option Receipt) := answers (.authorize id)
      (answer.map fun _ => w.served id, w)
  | .keepReceipt key receipt => ((), { w with receipts := w.receipts.set key receipt })
  | .receipt key => (w.receipts.get key, w)
  | .dropReceipt key => ((), { w with receipts := w.receipts.delete key })
  | .dropChoice key => ((), { w with receipts := w.receipts.delete key })
  | .takeInterrupted key =>
      (w.interrupted.get key, { w with interrupted := w.interrupted.delete key })
  | .setInterrupted key entry => ((), { w with interrupted := w.interrupted.set key entry })
  | o => (answers o, w)

end Logins

variable (Map Facts) in
/-- What others do between the calls is left to the relation a run is among. -/
abbrev logins : Machine (sig Map Facts) where
  World := Logins
  Choice := (o : Call) → Answer Map Facts o
  Move := Empty
  exec _ o answers w := some (w.exec answers o)
  move m := nomatch m
  halt _ w := w

/-! ## What a send reads -/

section Reads

variable {t : ℕ} {rely : Logins → Logins → Prop} {w : Logins}

theorem brings_ask {o : Call} {Q : Answer Map Facts o → Logins → Prop}
    (h : ∀ w₁ answers r w₂, rely w w₁ → w₁.exec answers o = (r, w₂) → Q r w₂) :
    Brings (logins Map Facts) t rely w (ask o) Q := by
  refine Brings.perform ?_
  intro w₁ answers r w₂ a hrely hexec hans
  cases hans
  exact h w₁ answers r w₂ hrely (Option.some.inj hexec)

/-- What the vault authorizes, it serves. -/
theorem brings_authorize {id : String} {Q : Option Receipt → Logins → Prop}
    (h : ∀ w₁, rely w w₁ → Q (w₁.served id) w₁) :
    Brings (logins Map Facts) t rely w (authorize id) Q := by
  refine Brings.perform ?_
  intro w₁ answers r w₂ a hrely hexec hans
  have heq : w₁.exec answers (.authorize id) = (r, w₂) := Option.some.inj hexec
  obtain ⟨hr, hw₂⟩ := Prod.mk.inj heq
  subst hw₂
  have hserved : a = w₁.served id := by
    rw [← hr] at hans
    generalize answers (.authorize id) = answer at hans
    cases answer with
    | error e => cases hans
    | ok receipt =>
        cases hans
        rfl
  exact hserved ▸ h w₁ hrely

/-- A fact that neither the others nor a send's own calls end. -/
structure Kept (rely : Logins → Logins → Prop) (P : Logins → Prop) : Prop where
  others : ∀ {w w'}, rely w w' → P w → P w'
  dropReceipt : ∀ {w key}, P w → P { w with receipts := w.receipts.delete key }
  takeInterrupted : ∀ {w key}, P w → P { w with interrupted := w.interrupted.delete key }

variable {identityOfToken : String → Option String} {limits : Bool} {request : AccountRequest}

def PoolRow.headers (identityOfToken : String → Option String) (row : PoolRow) (token : String) :
    Headers :=
  let identity := row.identityWith identityOfToken token
  ⟨token, identity, .pool token row.credentialEpoch identity⟩

def Receipt.headers (identityOfToken : String → Option String) (receipt : Receipt)
    (routeId : String) : Headers :=
  ⟨receipt.accessToken, receipt.wireIdentity identityOfToken, .vault routeId receipt⟩

section Sends

variable {P : Logins → Prop} {Q : Headers → Prop} (hP : Kept rely P)
  (hrow : ∀ w₁ w₂ row token, P w₁ → P w₂ → w₁.vault ≠ some true →
    w₂.rows request.accountId = some row → row.token = some token →
      Q (row.headers identityOfToken token))
  (hreceipt : ∀ w₁ w₂ receipt, P w₁ → P w₂ →
    (w₁.vault = some true ∨ w₁.rows request.accountId = none) →
    (w₂.receipts.get (receiptKey request) = some receipt ∨
      w₂.served request.accountId = some receipt) →
      Q (receipt.headers identityOfToken request.accountId))

include hP in
theorem scopedReceipt_reads (hw : P w) :
    Brings (logins Map Facts) t rely w (scopedReceipt request) fun receipt _ =>
      ∀ found, receipt = some found → ∃ w₁, P w₁ ∧
        (w₁.receipts.get (receiptKey request) = some found ∨
          w₁.served request.accountId = some found) := by
  refine Brings.bind (brings_ask ?_)
  intro w₁ answers kept w₂ hrely₁ hexec
  obtain ⟨hkept, rfl⟩ := Prod.mk.inj hexec
  have hw₁ : P w₁ := hP.others hrely₁ hw
  cases kept with
  | some kept =>
      refine Brings.bind (Brings.pure ?_)
      refine Brings.bind fun _ _ _ => Brings.pure ?_
      rintro _ ⟨⟩
      exact ⟨w₁, hw₁, .inl hkept⟩
  | none =>
      refine Brings.bind (brings_authorize fun w₂ hrely₂ => ?_)
      refine Brings.bind fun _ _ _ => Brings.pure ?_
      intro found hserved
      exact ⟨w₂, hP.others hrely₂ hw₁, .inr hserved⟩

include hP hrow hreceipt in
/-- A send's credential is a row's or a receipt, as one of the worlds has it. -/
theorem prepareSend_reads {choice : Option KeptChoice} (hw : P w) :
    Brings (logins Map Facts) t rely w (prepareSend identityOfToken limits request choice)
      fun headers _ => Q headers := by
  refine Brings.bind (brings_ask ?_)
  intro w₁ answers vault w₂ hrely₁ hexec
  obtain ⟨hvault, rfl⟩ := Prod.mk.inj hexec
  have hw₁ : P w₁ := hP.others hrely₁ hw
  extract_lets send
  have hsend : ∀ row w₂, P w₂ →
      (row = none → w₁.vault = some true ∨ w₂.rows request.accountId = none) →
      (∀ found, row = some found →
        w₁.vault ≠ some true ∧ w₂.rows request.accountId = some found) →
      Brings (logins Map Facts) t rely w₂ (send row) fun headers _ => Q headers := by
    intro row w₂ hw₂ hnone hsome
    dsimp only [send]
    split
    · rename_i hvaulted
      have hrow : row = none := by
        rw [Bool.and_eq_true, Option.isNone_iff_eq_none] at hvaulted
        exact hvaulted.1
      refine Brings.bind ((scopedReceipt_reads hP hw₂).mono ?_)
      intro receipt w₃ hread
      cases receipt with
      | none => exact Brings.throw
      | some receipt =>
          obtain ⟨w₄, hw₄, hfound⟩ := hread receipt rfl
          have hQ : Q (receipt.headers identityOfToken request.accountId) := by
            rcases hnone hrow with hmode | hgone
            · exact hreceipt w₁ w₄ receipt hw₁ hw₄ (.inl hmode) hfound
            · exact hreceipt w₂ w₄ receipt hw₂ hw₄ (.inr hgone) hfound
          exact Brings.bind fun _ _ _ => Brings.bind fun _ _ _ => Brings.pure hQ
    · split
      · rename_i row token _ htoken
        obtain ⟨hmode, hin⟩ := hsome row rfl
        have hQ : Q (row.headers identityOfToken token) :=
          hrow w₁ w₂ row token hw₁ hw₂ hmode hin htoken
        exact Brings.bind fun _ _ _ => Brings.bind fun _ _ _ => Brings.pure hQ
      · exact Brings.throw
  split
  · rename_i hmode
    refine Brings.bind (Brings.pure ?_)
    exact hsend none w₁ hw₁ (fun _ => .inl (hvault.trans hmode)) fun _ hrow => by cases hrow
  · rename_i hmode
    refine Brings.bind (brings_ask ?_)
    intro w₂ answers row w₃ hrely₂ hexec
    obtain ⟨hread, rfl⟩ := Prod.mk.inj hexec
    refine hsend row w₂ (hP.others hrely₂ hw₁) ?_ ?_
    · rintro rfl
      exact .inr hread
    · rintro found rfl
      exact ⟨fun hvaulted => hmode (hvault.symm.trans hvaulted), hread⟩

include hP hrow hreceipt in
theorem accountHeaders_reads (hw : P w) :
    Brings (logins Map Facts) t rely w (accountHeaders identityOfToken limits request)
      fun headers _ => Q headers := by
  refine Brings.bind (brings_ask ?_)
  intro w₁ _ _ w₂ hrely₁ hexec
  obtain ⟨-, rfl⟩ := Prod.mk.inj hexec
  refine Brings.bind (brings_ask ?_)
  intro w₂ _ choice w₃ hrely₂ hexec
  obtain ⟨-, rfl⟩ := Prod.mk.inj hexec
  have hw₂ : P w₂ := hP.others hrely₂ (hP.takeInterrupted (hP.others hrely₁ hw))
  refine Brings.bind (Brings.attempt ((prepareSend_reads hP hrow hreceipt hw₂).mono ?_) ?_)
  · intro headers w₃ hQ
    cases choice with
    | none => exact Brings.pure hQ
    | some choice => exact Brings.bind fun _ _ _ => Brings.pure hQ
  · intro error w₃
    cases choice with
    | none => exact Brings.throw
    | some choice => exact Brings.bind fun _ _ _ => Brings.throw

end Sends

/-- The headers name the identity of what is kept of the send. -/
theorem accountHeaders_identity :
    Brings (logins Map Facts) t rely w (accountHeaders identityOfToken limits request)
      fun headers _ =>
        headers.chatgptAccountId = (headers.attempt.interrupted identityOfToken).identity := by
  refine accountHeaders_reads (P := fun _ => True) ⟨fun _ _ => trivial, id, id⟩ ?_ ?_ trivial
  · intro _ _ row token _ _ _ _ _
    rfl
  · intro _ _ receipt _ _ _ _
    rfl

end Reads

/-! ## The login that was approved -/

section Login

variable (identityOfToken : String → Option String) (request : AccountRequest)
  (data : InterruptedData)

/-- The store in charge is the login's, and no receipt of another login is kept for the
request. -/
def Logins.InCharge (w : Logins) : Prop :=
  match data with
  | .pool _ => w.vault ≠ some true
  | .vault _ _ _ =>
      w.vault = some true ∧ ∀ receipt, w.receipts.get (receiptKey request) = some receipt →
        (AttemptData.vault request.accountId receipt).interrupted identityOfToken = data

/-- The store in charge holds the login under the account. -/
def Logins.Holds (w : Logins) : Prop :=
  match data with
  | .pool identity =>
      ∃ row, w.rows request.accountId = some row ∧
        ∀ token, row.token = some token → row.identityWith identityOfToken token = identity
  | .vault _ _ _ =>
      ∀ receipt, w.served request.accountId = some receipt →
        (AttemptData.vault request.accountId receipt).interrupted identityOfToken = data

/-- Whatever a send of the request may read is the login. -/
def Logins.Keeps (w : Logins) : Prop :=
  w.InCharge identityOfToken request data ∧ w.Holds identityOfToken request data

variable {identityOfToken request data}

theorem keeps_kept :
    Kept (fun w w' => w.Keeps identityOfToken request data → w'.Keeps identityOfToken request data)
      (·.Keeps identityOfToken request data) where
  others := fun hrely hw => hrely hw
  dropReceipt := by
    intro w key hw
    cases data with
    | pool identity => exact hw
    | vault credentialId accountIdentity wireIdentity =>
        refine ⟨⟨hw.1.1, fun receipt hkept => hw.1.2 receipt ?_⟩, hw.2⟩
        rw [Table.get_delete] at hkept
        split_ifs at hkept
        exact hkept
  takeInterrupted := fun hw => hw

theorem accountHeaders_keeps {t : ℕ} {limits : Bool} {w : Logins}
    (hw : w.Keeps identityOfToken request data) :
    Brings (logins Map Facts) t
      (fun w w' => w.Keeps identityOfToken request data → w'.Keeps identityOfToken request data) w
      (accountHeaders identityOfToken limits request)
      fun headers _ => headers.attempt.interrupted identityOfToken = data := by
  refine accountHeaders_reads keeps_kept ?_ ?_ hw
  · intro w₁ w₂ row token hw₁ hw₂ hmode hrow htoken
    cases data with
    | pool identity =>
        obtain ⟨found, hfound, hidentity⟩ := hw₂.2
        rw [hrow] at hfound
        cases hfound
        exact congrArg InterruptedData.pool (hidentity token htoken)
    | vault credentialId accountIdentity wireIdentity => exact (hmode hw₁.1.1).elim
  · intro w₁ w₂ receipt hw₁ hw₂ hvault hfound
    cases data with
    | pool identity =>
        obtain ⟨row, hrow, -⟩ := hw₁.2
        rcases hvault with hmode | hgone
        · exact (hw₁.1 hmode).elim
        · rw [hrow] at hgone
          cases hgone
    | vault credentialId accountIdentity wireIdentity =>
        rcases hfound with hkept | hserved
        · exact hw₂.1.2 receipt hkept
        · exact hw₂.2 receipt hserved

end Login

section Continue

variable {L : Library Map} {dateParse : String → Option ℚ}
  {identityOfToken : String → Option String} {input : RetrySameAccountInput}
  {t : ℕ} {rely : Logins → Logins → Prop} {w : Logins}

theorem samePoolLogin_holds {identity : Option String} :
    Brings (logins Map Facts) t rely w (samePoolLogin identityOfToken input identity)
      fun same w' => same = true →
        w'.Holds identityOfToken input.request (.pool identity) := by
  refine Brings.bind (brings_ask ?_)
  intro w₁ _ row w₂ _ hexec
  obtain ⟨hrow, rfl⟩ := Prod.mk.inj hexec
  split
  · rename_i row token htoken
    refine Brings.pure ?_
    intro hsame
    rw [Bool.and_eq_true, decide_eq_true_eq] at hsame
    refine ⟨row, hrow, ?_⟩
    intro token' htoken'
    have heq : token = token' := Option.some.inj (htoken.symm.trans htoken')
    exact heq ▸ hsame.2
  · refine Brings.pure ?_
    intro hsame
    cases hsame

theorem sameVaultLogin_holds {target : PoolTarget Map} {credentialId : String}
    {accountIdentity wireIdentity : Option String} :
    Brings (logins Map Facts) t rely w
      (sameVaultLogin identityOfToken input target
        (.vault credentialId accountIdentity wireIdentity))
      fun same w' => same = true → w'.Holds identityOfToken input.request
        (.vault credentialId accountIdentity wireIdentity) := by
  refine Brings.bind (brings_authorize fun w₁ _ => ?_)
  cases hserved : w₁.served input.accountId with
  | none =>
      refine Brings.pure ?_
      intro hsame
      cases hsame
  | some receipt =>
      refine Brings.pure ?_
      intro hsame found hfound
      rw [Bool.and_eq_true, decide_eq_true_eq] at hsame
      have heq : receipt = found := Option.some.inj (hserved.symm.trans hfound)
      exact heq ▸ hsame.1

theorem sameLogin_holds {vault : Bool} {target : PoolTarget Map} {data : InterruptedData} :
    Brings (logins Map Facts) t rely w (sameLogin identityOfToken input vault target data)
      fun same w' => same = true → w'.Holds identityOfToken input.request data := by
  have hrefused : ∀ w₁, Brings (logins Map Facts) t rely w₁ (pure false : AdapterM Map Facts Bool)
      fun same w' => same = true → w'.Holds identityOfToken input.request data := by
    intro w₁
    refine Brings.pure ?_
    intro hsame
    cases hsame
  cases data with
  | pool identity =>
      rw [sameLogin]
      split_ifs
      · exact samePoolLogin_holds
      · exact hrefused w
  | vault credentialId accountIdentity wireIdentity =>
      rw [sameLogin]
      split_ifs
      · exact hrefused w
      · exact sameVaultLogin_holds

/-- What is approved is held by the time it is approved. -/
theorem approveRetry_holds :
    Brings (logins Map Facts) t rely w (approveRetry L dateParse identityOfToken input)
      fun approved w' => ∀ previous, approved = some previous →
        previous.accountId = input.accountId ∧
          w'.Holds identityOfToken input.request previous.data := by
  have hrefused : ∀ w₁, Brings (logins Map Facts) t rely w₁
      (pure none : AdapterM Map Facts (Option Interrupted)) fun approved w' =>
        ∀ previous, approved = some previous → previous.accountId = input.accountId ∧
          w'.Holds identityOfToken input.request previous.data := by
    intro w₁
    refine Brings.pure ?_
    rintro previous ⟨⟩
  unfold approveRetry
  split
  · exact hrefused w
  · refine Brings.bind (brings_ask ?_)
    intro w₁ _ kept w₂ _ _
    split
    · exact hrefused w₂
    · rename_i previous hprevious
      refine Brings.bind (brings_ask ?_)
      intro w₃ _ vault w₄ _ _
      refine Brings.bind (brings_ask ?_)
      intro w₅ _ read w₆ _ _
      split
      · exact hrefused w₆
      · rename_i target _
        refine Brings.bind (sameLogin_holds.mono ?_)
        intro same w' hholds
        refine Brings.pure ?_
        intro approved happroved
        split_ifs at happroved with hsame
        cases happroved
        have hcontinues := (Option.filter_eq_some_iff.mp hprevious).2
        simp only [RetrySameAccountInput.continues, Bool.and_eq_true, decide_eq_true_eq]
          at hcontinues
        exact ⟨hcontinues.1.1.1, hholds hsame⟩

/-- A response that was cut off is continued as its login: others may do anything until it is
approved, and from then on they leave the login to be what the send may read. -/
theorem continued_login {s u : ℕ} {limits : Bool} {w₀ w₁ w₂ w₃ w₄ : Logins}
    {request : AccountRequest} {modelID : String} {agent : Option String} {first second : Headers}
    (hsent : Among (logins Map Facts) s (fun _ _ => True) w₀
      (accountHeaders identityOfToken limits request).run w₁ (.ok first))
    (happroved : Among (logins Map Facts) t (fun _ _ => True) w₂
      (approveRetry L dateParse identityOfToken input).run w₃
        (.ok (some ((first.sent request modelID agent).entry identityOfToken))))
    (hcharge : w₃.InCharge identityOfToken input.request
      (first.attempt.interrupted identityOfToken))
    (hcontinued : Among (logins Map Facts) u
      (fun w w' =>
        w.Keeps identityOfToken input.request (first.attempt.interrupted identityOfToken) →
          w'.Keeps identityOfToken input.request (first.attempt.interrupted identityOfToken)) w₃
      (accountHeaders identityOfToken limits input.request).run w₄ (.ok second)) :
    second.attempt.interrupted identityOfToken = first.attempt.interrupted identityOfToken ∧
      second.chatgptAccountId = first.chatgptAccountId := by
  have hholds := (approveRetry_holds w₃ _ happroved _ rfl).2
  have hsame : second.attempt.interrupted identityOfToken =
      first.attempt.interrupted identityOfToken :=
    accountHeaders_keeps ⟨hcharge, hholds⟩ w₄ second hcontinued
  refine ⟨hsame, ?_⟩
  have hfirst : first.chatgptAccountId = (first.attempt.interrupted identityOfToken).identity :=
    accountHeaders_identity w₁ first hsent
  have hsecond : second.chatgptAccountId = (second.attempt.interrupted identityOfToken).identity :=
    accountHeaders_identity w₄ second hcontinued
  rw [hsecond, hsame, hfirst]

end Continue

/-! ### A row that signs in again -/

/-- A login of the row takes its place. -/
def Logins.signIn (w : Logins) (id : String) (row : PoolRow) : Logins :=
  { w with rows := Function.update w.rows id (some row) }

/-- A process without a vault, whose one row is signed in. -/
def oneRow : Logins where
  vault := none
  rows := fun id => if id = "row" then some ⟨some "first", 0, some "token-1"⟩ else none
  served := fun _ => none
  receipts := .empty
  interrupted := .empty

def oneRowRoll : Roll ProjectedQuota where
  storage := none
  mode := .mainFirst
  vault := false
  vaultMode := false
  now := 0
  rows := [{ id := "row", identity := some "first" }]
  routes := []
  refreshBackoff := fun _ => none
  resetCredits := fun _ => none

/-- Every account is admitted, and nothing is owed or kept. -/
def oneRowAnswers : (o : Call) → Answer ProjectedQuota Unit o
  | .enter => .inactive
  | .look _ _ _ _ => noLook
  | .reserve _ _ _ _ => (0 : ℕ)
  | .rollback _ => ()
  | .askRouting _ => .ok none
  | .usableToken _ => true
  | .authorize _ => .ok none
  | .keepReceipt _ _ => ()
  | .slotPlaceholderWithoutMain => false
  | .terminalRefusal => false
  | .commit _ _ => ()
  | .keep _ _ _ => ()
  | .takeChoice _ => none
  | .commitChoice _ => ()
  | .endChoice _ => ()
  | .dropChoice _ => ()
  | .forgetSession _ => ()
  | .authority => none
  | .peekRow _ => none
  | .receipt _ => none
  | .dropReceipt _ => ()
  | .forRequest => .ok ()
  | .beforeDispatch _ => .ok true
  | .readmission => some (oneRowRoll, .empty, [])
  | .takeInterrupted _ => none
  | .setInterrupted _ _ => ()

def oneRowRetry : RetrySameAccountInput where
  sessionID := "s"
  kind := "primary"
  accountId := "row"
  modelID := "gpt"
  agent := none
  interruptedRead := true
  limit := false

def firstHeaders : Headers := ⟨"token-1", some "first", .pool "token-1" 0 (some "first")⟩

def secondHeaders : Headers := ⟨"token-3", some "second", .pool "token-3" 1 (some "second")⟩

/-- What is left of the first send when its response is cut off. -/
def cutOff : Logins :=
  { oneRow with
    interrupted := oneRow.interrupted.set (requestKey "s" "primary")
      ((firstHeaders.sent oneRowRetry.request "gpt" none).entry fun _ => none) }

theorem firstHeaders_sent {rely : Logins → Logins → Prop} (hrefl : ∀ w, rely w w) :
    Among (logins ProjectedQuota Unit) 0 rely oneRow
      (accountHeaders (fun _ => none) false oneRowRetry.request).run oneRow
        (.ok firstHeaders) :=
  Among.of_drive hrefl (List.replicate 4 oneRowAnswers) rfl

theorem firstHeaders_approved {rely : Logins → Logins → Prop} (hrefl : ∀ w, rely w w) :
    Among (logins ProjectedQuota Unit) 1 rely cutOff
      (approveRetry rowsLibrary (fun _ => none) (fun _ => none) oneRowRetry).run oneRow
        (.ok (some ((firstHeaders.sent oneRowRetry.request "gpt" none).entry fun _ => none))) :=
  Among.of_drive hrefl (List.replicate 4 oneRowAnswers) rfl

/-- The row's token is refreshed after the approval, and its login is the same. -/
theorem continued_login_refreshed :
    ∃ headers : Headers, headers.token = "token-2" ∧
      headers.chatgptAccountId = firstHeaders.chatgptAccountId := by
  refine ⟨⟨"token-2", some "first", .pool "token-2" 1 (some "first")⟩, rfl, ?_⟩
  refine (continued_login (firstHeaders_sent fun _ => trivial)
    (firstHeaders_approved fun _ => trivial) ?_
    (Among.of_drive_after (M := logins ProjectedQuota Unit) (t := 2) (fun _ hw => hw)
      (oneRow.signIn "row" ⟨some "first", 1, some "token-2"⟩) oneRowAnswers
      (List.replicate 3 oneRowAnswers) ?_ rfl)).2
  · exact nofun
  · intro _
    refine ⟨nofun, _, rfl, ?_⟩
    intro token _
    rfl

/-- Between the approval and the headers the row signs in as another account. -/
theorem continued_login_replaced :
    ∃ w₁ w₂ w₃ w₄ : Logins,
      Among (logins ProjectedQuota Unit) 0 Eq oneRow
        (accountHeaders (fun _ => none) false oneRowRetry.request).run w₁ (.ok firstHeaders) ∧
      Among (logins ProjectedQuota Unit) 0 Eq w₁
        (onAttemptEnd (fun _ => none) (firstHeaders.sent oneRowRetry.request "gpt" none)
          true true).run w₂ (.ok ()) ∧
      Among (logins ProjectedQuota Unit) 1 Eq w₂
        (approveRetry rowsLibrary (fun _ => none) (fun _ => none) oneRowRetry).run w₃
          (.ok (some ((firstHeaders.sent oneRowRetry.request "gpt" none).entry fun _ => none))) ∧
      Among (logins ProjectedQuota Unit) 2 Eq
        (w₃.signIn "row" ⟨some "second", 1, some "token-3"⟩)
        (accountHeaders (fun _ => none) false oneRowRetry.request).run w₄ (.ok secondHeaders) ∧
      secondHeaders.chatgptAccountId ≠ firstHeaders.chatgptAccountId := by
  refine ⟨oneRow, cutOff, oneRow, oneRow.signIn "row" ⟨some "second", 1, some "token-3"⟩,
    firstHeaders_sent fun _ => rfl, ?_, firstHeaders_approved fun _ => rfl, ?_, by decide⟩
  · exact Among.of_drive (fun _ => rfl) [oneRowAnswers] rfl
  · exact Among.of_drive (fun _ => rfl) (List.replicate 4 oneRowAnswers) rfl

end OpenCode2
