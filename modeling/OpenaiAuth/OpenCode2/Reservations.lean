import OpenaiAuth.OpenCode2.Choice

/-! # Reservations over every interleaving

Any number of calls of one server process run against its session pins and its kept
choices. Each call knows the reservation it answers for: it makes none while it holds one,
hands it over or gives it up, and holds none when it ends.

Main result: `session_pins`.
-/

namespace OpenCode2

open Interleave Js Sidebar Sidebar.Placement Request Request.Pool

variable {Map Facts : Type}

/-! ## The process -/

/-- The session pins and the kept choices of a process, and how many objects it has made.
Beside them stand the choices that were kept and neither consumed nor dropped since, the last
reservation of each session, and when each session's pin was placed. -/
structure Server where
  sessions : SessionPins
  keptChoices : Table KeptChoice
  made : ℕ
  waiting : List KeptChoice
  latest : String → Option ℕ
  placedAt : String → ℕ

namespace Server

def start (limit : ℕ) : Server where
  sessions := .empty limit
  keptChoices := .empty
  made := 0
  waiting := []
  latest := fun _ => none
  placedAt := fun _ => 0

variable (w : Server)

/-- `reserveAccount`; the reservation is the second object it makes. -/
def reserve (sessionId accountId : String) (quotaCheckedAt : Option ℚ)
    (wireIdentity : Option String) : Server :=
  { w with
    sessions := w.sessions.reserve sessionId
      { accountId, inputBytes := nominalRequestBytes, quotaCheckedAt, wireIdentity, ref := w.made }
      (w.made + 1)
    made := w.made + 2
    latest := Function.update w.latest sessionId (some (w.made + 1)) }

def rollback (lease : Option Lease) : Server :=
  match lease with
  | some lease => { w with sessions := w.sessions.rollback lease }
  | none => w

/-- A pin that stands after the call and was not the session's before is placed now. -/
def finish (lease : Option Lease) (pin : Option StickyPin) : Server :=
  match lease with
  | some lease =>
      { w with
        sessions := w.sessions.finish lease pin
        made := w.made + 1
        placedAt :=
          if w.sessions.sets lease pin then Function.update w.placedAt lease.sessionId w.made
          else w.placedAt }
  | none => w

def keep (key : String) (lease : Option Lease) (pin : Option StickyPin) : Server :=
  { w with
    keptChoices := w.keptChoices.set key ⟨lease, pin, w.made⟩
    made := w.made + 1
    waiting := ⟨lease, pin, w.made⟩ :: w.waiting }

/-- `drop` of a kept choice. -/
def drop (choice : KeptChoice) : Server :=
  { w.rollback choice.lease with waiting := w.waiting.filter (· ≠ choice) }

def dropChoice (key : String) : Server :=
  match w.keptChoices.get key with
  | some choice => { w.drop choice with keptChoices := w.keptChoices.delete key }
  | none => w

/-- What a call is answered and leaves behind; `answers` has what is not the process's. -/
def exec (answers : (o : Call) → Answer Map Facts o) : (o : Call) → Answer Map Facts o × Server
  | .look sessionID excluded refused marks =>
      let seen : Look := answers (.look sessionID excluded refused marks)
      ({ seen with pins := w.sessions.placementSnapshot (some sessionID), mint := w.made },
        { w with made := w.made + 2 })
  | .reserve sessionID accountId quotaCheckedAt wireIdentity =>
      (w.made + 1, w.reserve sessionID accountId quotaCheckedAt wireIdentity)
  | .rollback lease => ((), w.rollback (some lease))
  | .commit lease pin => ((), w.finish lease pin)
  | .keep key lease pin => ((), w.keep key lease pin)
  | .takeChoice key =>
      (w.keptChoices.get key, { w with keptChoices := w.keptChoices.delete key })
  | .commitChoice choice => ((), w.finish choice.lease choice.pin)
  | .endChoice choice => ((), w.drop choice)
  | .dropChoice key => ((), w.dropChoice key)
  | .forgetSession sessionID => ((), { w with sessions := w.sessions.forget sessionID })
  | o => (answers o, w)

end Server

variable (Map Facts) in
/-- One process: nothing happens beside its calls. -/
def server : Machine (sig Map Facts) where
  World := Server
  Choice := (o : Call) → Answer Map Facts o
  Move := Empty
  exec _ o answers w := some (w.exec answers o)
  move m := nomatch m
  halt _ w := w

section Calls

variable (L : Library Map) (P : PinLibrary) (sameAccount : AccountKey → AccountKey → Bool)
  (dateParse : String → Option ℚ)
  (retains : Facts → List LimitCandidate → LimitCandidate → Bool)
  (identityOfToken : String → Option String) (limits : Bool)

/-- The calls of a host. -/
inductive HostCall where
  | chooseAccount (input : ChooseAccountInput)
  | accountHeaders (request : AccountRequest)
  | dropChoice (request : AccountRequest)
  | forgetSession (sessionID : String)

def HostCall.run : HostCall → AdapterM Map Facts Unit
  | .chooseAccount input => do
      let _ ← OpenCode2.chooseAccount L P sameAccount dateParse retains input
      return ()
  | .accountHeaders request => do
      let _ ← OpenCode2.accountHeaders identityOfToken limits request
      return ()
  | .dropChoice request => OpenCode2.dropChoice request
  | .forgetSession sessionID => OpenCode2.forgetSession sessionID

end Calls

/-! ## What a call answers for -/

def learnLease (held : Option Lease) : (o : Call) → Answer Map Facts o → Option Lease
  | .reserve sessionID _ _ _ => fun (ref : ℕ) => some ⟨sessionID, ref⟩
  | .rollback lease => fun _ => if held = some lease then none else held
  | .keep _ _ _ => fun _ => none
  | _ => fun _ => held

/-- The reservation that a call made and has not handed over or given up. -/
def leases (Map Facts : Type) : Learning (sig Map Facts) where
  Known := Option Lease
  start := none
  learn := learnLease
  forget := id

def MayHold (held : Option Lease) : Call → Prop
  | .reserve _ _ _ _ => held = none
  | .keep _ lease _ => lease = held
  | _ => True

/-- The program answers for `held` at first, for what `Q` says when it returns, and for
nothing when it throws. -/
abbrev Hands {α : Type} (held : Option Lease) (p : AdapterM Map Facts α)
    (Q : α → Option Lease → Prop) : Prop :=
  (leases Map Facts).Ends MayHold held p Q fun _ held' => held' = none

/-- The program leaves the reservation alone. -/
def Untouched {α : Type} (p : AdapterM Map Facts α) : Prop :=
  ∀ held : Option Lease, (leases Map Facts).Ends MayHold held p (fun _ held' => held' = held)
    fun _ held' => held' = held

section Programs

variable {α β : Type} {held : Option Lease}

theorem untouched_pure (a : α) : @Untouched Map Facts _ (pure a) :=
  fun _ => Learning.ends_pure rfl

theorem untouched_throw (error : Failure) :
    Untouched (throw error : AdapterM Map Facts α) :=
  fun _ => Learning.ends_throw rfl

theorem untouched_bind {p : AdapterM Map Facts α} {f : α → AdapterM Map Facts β}
    (hp : Untouched p) (hf : ∀ a, Untouched (f a)) : Untouched (p >>= f) := by
  intro held
  refine Learning.ends_bind (Learning.ends_mono (hp held) ?_)
  rintro a _ rfl
  exact hf a _

/-- A call that does not say what becomes of a reservation. -/
def Neutral (Map Facts : Type) (o : Call) : Prop :=
  (∀ held, MayHold held o) ∧ ∀ held (r : Answer Map Facts o), learnLease held o r = held

theorem neutral_look (sessionID : String) (excluded refused : List String) (marks : Table ℚ) :
    Neutral Map Facts (.look sessionID excluded refused marks) :=
  ⟨fun _ => trivial, fun _ _ => rfl⟩

theorem neutral_enter : Neutral Map Facts .enter := ⟨fun _ => trivial, fun _ _ => rfl⟩

theorem untouched_ask {o : Call} (ho : Neutral Map Facts o) :
    Untouched (ask o : AdapterM Map Facts _) :=
  fun held => Learning.ends_perform (ho.1 held) (fun r _ _ => ho.2 held r) fun r _ _ => ho.2 held r

theorem untouched_asked {o : Call} {ans : Answer Map Facts o → Except Unit α}
    (ho : Neutral Map Facts o) : Untouched (asked o ans) :=
  fun held => Learning.ends_perform (ho.1 held) (fun r _ _ => ho.2 held r) fun r _ _ => ho.2 held r

theorem untouched_attempt {p : AdapterM Map Facts α} (h : Untouched p) :
    Untouched (Throwing.attempt p) := by
  intro held
  refine Learning.ends_attempt (Learning.justified_mono (h held) ?_)
  rintro (error | a) held' ⟨hok, herror⟩
  · exact herror error rfl
  · exact hok a rfl

theorem Untouched.hands {p : AdapterM Map Facts α} (h : Untouched p) :
    Hands none p fun _ held => held = none := h none

/-! ### Choosing -/

theorem rollback_hands : @Hands Map Facts _ held (rollback held)
    fun _ held' => held' = none := by
  cases held with
  | none => exact Learning.ends_pure rfl
  | some lease =>
      refine Learning.ends_perform trivial (fun _ _ _ => if_pos rfl) fun _ _ he => ?_
      cases he

/-- A call that throws gives up the reservation it answers for. -/
theorem releasing_hands {p : AdapterM Map Facts α} (h : Untouched p) :
    Hands held (releasing held p) fun _ held' => held' = held := by
  unfold releasing
  refine Learning.ends_bind (Learning.ends_attempt (Learning.justified_mono (h held) ?_))
  rintro (error | a) held' ⟨hok, herror⟩
  · obtain rfl := herror error rfl
    refine Learning.ends_bind (Learning.ends_mono rollback_hands ?_)
    rintro _ _ rfl
    exact Learning.ends_throw rfl
  · exact Learning.ends_pure (hok a rfl)

section Choose

variable {L : Library Map} {P : PinLibrary} {sameAccount : AccountKey → AccountKey → Bool}
  {dateParse : String → Option ℚ} {retains : Facts → List LimitCandidate → LimitCandidate → Bool}
  {input : ChooseAccountInput} {roll : Roll Map}

theorem reserveAccount_hands {s : Round} {accountId : String} :
    @Hands Map Facts _ none (reserveAccount L dateParse input roll s accountId)
      fun lease held => held = lease := by
  unfold reserveAccount
  split
  · refine Learning.ends_bind (Learning.ends_perform rfl ?_ fun _ _ he => by cases he)
    rintro _ ref ⟨⟩
    exact Learning.ends_pure rfl
  · exact Learning.ends_pure rfl

theorem chooseVaultRouting_untouched {s : Round} {picked : Picked} {look : Look} :
    Untouched (@chooseVaultRouting Map Facts L dateParse input roll s picked look) := by
  unfold chooseVaultRouting
  split
  · exact untouched_pure _
  · split
    · exact untouched_pure _
    · dsimp only
      split
      · exact untouched_pure _
      · exact untouched_asked ⟨fun _ => trivial, fun _ _ => rfl⟩

theorem followAdvice_hands {s : Round} {planned : Planned} {preferred : String} :
    @Hands Map Facts _ planned.lease
      (followAdvice L P dateParse input roll s planned preferred)
      fun planned held => held = planned.lease := by
  unfold followAdvice
  refine Learning.ends_bind (Learning.ends_mono rollback_hands ?_)
  rintro _ _ rfl
  split
  · refine Learning.ends_bind (Learning.ends_mono
      (untouched_ask (neutral_look _ _ _ _)).hands ?_)
    rintro (look : Look) _ rfl
    dsimp only
    refine Learning.ends_bind (Learning.ends_mono reserveAccount_hands ?_)
    rintro lease _ rfl
    exact Learning.ends_pure rfl
  · exact Learning.ends_pure rfl

theorem consult_hands {s : Round} {picked : Picked} {look : Look} (planned : Planned) :
    @Hands Map Facts _ planned.lease
      (consult L P dateParse input roll s picked look planned)
      fun planned held => held = planned.lease := by
  unfold consult
  split
  · exact Learning.ends_pure rfl
  · refine Learning.ends_bind (Learning.ends_mono
      (releasing_hands chooseVaultRouting_untouched) ?_)
    rintro preferred _ rfl
    split
    · exact Learning.ends_pure rfl
    · exact followAdvice_hands

theorem canSend_hands {planned : Planned} :
    @Hands Map Facts _ planned.lease (canSend input roll planned)
      fun _ held => held = planned.lease := by
  have hneutral : ∀ {o : Call}, Neutral Map Facts o →
      Hands planned.lease (ask o) fun (_ : Answer Map Facts o) held => held = planned.lease :=
    fun ho => Learning.ends_perform (ho.1 _) (fun r _ _ => ho.2 _ r) fun _ _ he => by cases he
  unfold canSend
  split
  · exact hneutral ⟨fun _ => trivial, fun _ _ => rfl⟩
  · split
    · exact Learning.ends_pure rfl
    · refine Learning.ends_bind (Learning.ends_mono
        (releasing_hands (untouched_asked ⟨fun _ => trivial, fun _ _ => rfl⟩)) ?_)
      rintro receipt _ rfl
      cases receipt with
      | none => exact Learning.ends_pure rfl
      | some receipt =>
          refine Learning.ends_bind (Learning.ends_mono
            (hneutral ⟨fun _ => trivial, fun _ _ => rfl⟩) ?_)
          rintro _ _ rfl
          exact Learning.ends_pure rfl

/-- Each round ends with the reservation given up or with the choice that it is for. -/
theorem chooseLoop_hands {fuel : ℕ} {s : Round} :
    @Hands Map Facts _ none (chooseLoop L P dateParse input roll fuel s)
      fun r held => held = r.1.bind (·.lease) := by
  induction fuel generalizing s with
  | zero => exact Learning.ends_throw rfl
  | succ fuel ih =>
      rw [chooseLoop]
      refine Learning.ends_bind (Learning.ends_mono
        (untouched_ask (neutral_look _ _ _ _)).hands ?_)
      rintro (look : Look) _ rfl
      dsimp only
      split
      · split
        · exact ih
        · split
          · exact ih
          · exact Learning.ends_pure rfl
      · refine Learning.ends_bind (Learning.ends_mono reserveAccount_hands ?_)
        rintro lease _ rfl
        refine Learning.ends_bind (Learning.ends_mono (consult_hands ⟨_, _, _⟩) ?_)
        rintro planned _ rfl
        refine Learning.ends_bind (Learning.ends_mono canSend_hands ?_)
        rintro (sent : Bool) _ rfl
        cases sent with
        | true => exact Learning.ends_pure rfl
        | false =>
            refine Learning.ends_bind (Learning.ends_mono rollback_hands ?_)
            rintro _ _ rfl
            exact ih

theorem refuseNone_untouched {m : Moment Map Facts} {refused : List String} :
    Untouched (refuseNone L dateParse input m refused) := by
  refine untouched_bind ?_ fun _ => untouched_bind ?_ fun _ => untouched_bind ?_ fun _ => untouched_pure _
  · unfold refuseMissingLogin
    split
    · refine untouched_bind (untouched_ask ⟨fun _ => trivial, fun _ _ => rfl⟩) ?_
      rintro (placeholder : Bool)
      split
      · exact untouched_throw _
      · exact untouched_pure _
    · exact untouched_pure _
  · unfold refuseVault
    split
    · exact untouched_throw _
    · exact untouched_pure _
  · unfold refuseQuota
    dsimp only
    split
    · refine untouched_bind (untouched_ask ⟨fun _ => trivial, fun _ _ => rfl⟩) ?_
      rintro (refusal : Bool)
      split
      · exact untouched_throw _
      · exact untouched_pure _
    · exact untouched_pure _

theorem commitOrKeep_hands {planned : Planned} :
    @Hands Map Facts _ planned.lease (commitOrKeep input planned)
      fun _ held => held = none := by
  unfold commitOrKeep
  split
  · exact Learning.ends_perform rfl (fun _ _ _ => rfl) fun _ _ he => by cases he
  · refine Learning.ends_bind (Learning.ends_perform trivial ?_ fun _ _ he => by cases he)
    rintro _ _ ⟨⟩
    exact rollback_hands

theorem chooseAccount_hands :
    @Hands Map Facts _ none
      (chooseAccount L P sameAccount dateParse retains input) fun _ held => held = none := by
  unfold chooseAccount
  refine Learning.ends_bind (Learning.ends_mono
    (untouched_ask neutral_enter).hands ?_)
  rintro (entry : Entry Map Facts) _ rfl
  cases entry with
  | inactive => exact Learning.ends_pure rfl
  | directive => exact Learning.ends_pure rfl
  | loginRequired => exact Learning.ends_throw rfl
  | ready m =>
      refine Learning.ends_bind (Learning.ends_mono chooseLoop_hands ?_)
      rintro ⟨choice, refused⟩ _ rfl
      cases choice with
      | none => exact refuseNone_untouched.hands
      | some planned =>
          refine Learning.ends_bind (Learning.ends_mono commitOrKeep_hands ?_)
          rintro _ _ rfl
          exact Learning.ends_pure rfl

end Choose

/-! ### Preparing a send -/

section Send

variable {identityOfToken : String → Option String} {limits : Bool} {request : AccountRequest}

theorem checkRow_untouched {data : AttemptData} :
    @Untouched Map Facts _ (checkRow request data) := by
  cases data with
  | pool token credentialEpoch identity =>
      refine untouched_bind (untouched_ask ⟨fun _ => trivial, fun _ _ => rfl⟩) ?_
      rintro (row : Option PoolRow)
      split
      · exact untouched_pure _
      · exact untouched_throw _
  | vault routeId receipt => exact untouched_pure _

theorem prepareFeedback_untouched {data : AttemptData} :
    @Untouched Map Facts _ (prepareFeedback limits request data) := by
  unfold prepareFeedback
  split
  · refine untouched_bind (untouched_asked ⟨fun _ => trivial, fun _ _ => rfl⟩) fun _ => ?_
    refine untouched_bind checkRow_untouched fun _ => ?_
    refine untouched_bind (untouched_asked ⟨fun _ => trivial, fun _ _ => rfl⟩) ?_
    rintro (ready : Bool)
    split
    · exact untouched_pure _
    · exact untouched_throw _
  · exact untouched_pure _

theorem commitChoice_untouched {choice : Option KeptChoice} :
    @Untouched Map Facts _ (commitChoice choice) := by
  cases choice with
  | none => exact untouched_pure _
  | some choice => exact untouched_ask ⟨fun _ => trivial, fun _ _ => rfl⟩

theorem scopedReceipt_untouched :
    @Untouched Map Facts _ (scopedReceipt request) := by
  refine untouched_bind (untouched_ask ⟨fun _ => trivial, fun _ _ => rfl⟩) ?_
  rintro (kept : Option Receipt)
  have hdropped : ∀ receipt : Option Receipt, @Untouched Map Facts _ (do
      ask (.dropReceipt (receiptKey request))
      return receipt) := fun _ =>
    untouched_bind (untouched_ask ⟨fun _ => trivial, fun _ _ => rfl⟩) fun _ => untouched_pure _
  cases kept with
  | none => exact untouched_bind (untouched_asked ⟨fun _ => trivial, fun _ _ => rfl⟩) hdropped
  | some receipt => exact untouched_bind (untouched_pure _) hdropped

theorem prepareSend_untouched {choice : Option KeptChoice} :
    @Untouched Map Facts _ (prepareSend identityOfToken limits request choice) := by
  have hsent : ∀ data (headers : Headers), @Untouched Map Facts _ (do
      prepareFeedback limits request data
      commitChoice choice
      return headers) := fun _ _ =>
    untouched_bind prepareFeedback_untouched fun _ =>
      untouched_bind commitChoice_untouched fun _ => untouched_pure _
  refine untouched_bind (untouched_ask ⟨fun _ => trivial, fun _ _ => rfl⟩) ?_
  rintro (vault : Option Bool)
  extract_lets send
  have hsend : ∀ row, Untouched (send row) := by
    intro row
    dsimp only [send]
    split
    · refine untouched_bind scopedReceipt_untouched fun receipt => ?_
      cases receipt with
      | none => exact untouched_throw _
      | some receipt => exact hsent _ _
    · split
      · exact hsent _ _
      · exact untouched_throw _
  split
  · exact untouched_bind (untouched_pure _) hsend
  · exact untouched_bind (untouched_ask ⟨fun _ => trivial, fun _ _ => rfl⟩) hsend

theorem accountHeaders_untouched :
    @Untouched Map Facts _ (accountHeaders identityOfToken limits request) := by
  refine untouched_bind (untouched_ask ⟨fun _ => trivial, fun _ _ => rfl⟩) fun _ => ?_
  refine untouched_bind (untouched_ask ⟨fun _ => trivial, fun _ _ => rfl⟩) ?_
  rintro (choice : Option KeptChoice)
  refine untouched_bind (untouched_attempt prepareSend_untouched) fun result => ?_
  cases choice with
  | none =>
      cases result with
      | ok headers => exact untouched_pure _
      | error error => exact untouched_throw _
  | some choice =>
      refine untouched_bind (untouched_ask ⟨fun _ => trivial, fun _ _ => rfl⟩) fun _ => ?_
      cases result with
      | ok headers => exact untouched_pure _
      | error error => exact untouched_throw _

end Send

theorem run_hands {L : Library Map} {P : PinLibrary} {sameAccount : AccountKey → AccountKey → Bool}
    {dateParse : String → Option ℚ}
    {retains : Facts → List LimitCandidate → LimitCandidate → Bool}
    {identityOfToken : String → Option String} {limits : Bool} (call : HostCall) :
    Hands none (call.run L P sameAccount dateParse retains identityOfToken limits)
      fun _ held => held = none := by
  cases call with
  | chooseAccount input =>
      refine Learning.ends_bind (Learning.ends_mono chooseAccount_hands ?_)
      rintro _ _ rfl
      exact Learning.ends_pure rfl
  | accountHeaders request =>
      exact (untouched_bind accountHeaders_untouched fun _ => untouched_pure _).hands
  | dropChoice request =>
      have hneutral : Neutral Map Facts (.dropChoice (receiptKey request)) :=
        ⟨fun _ => trivial, fun _ _ => rfl⟩
      exact (untouched_ask hneutral).hands
  | forgetSession sessionID =>
      have hneutral : Neutral Map Facts (.forgetSession sessionID) :=
        ⟨fun _ => trivial, fun _ _ => rfl⟩
      exact (untouched_ask hneutral).hands

end Programs

/-! ## The invariant -/

/-- A call answers for the reservation, or a choice that waits does. -/
def Owned (waiting : List KeptChoice) (held : ℕ → Option Lease) (lease : Lease) : Prop :=
  (∃ t, held t = some lease) ∨ ∃ choice ∈ waiting, choice.lease = some lease

/-- Each live reservation is answered for and is its session's last, and the pins stand in
the order in which they were placed. -/
structure Server.Inv (limit : ℕ) (w : Server) (held : ℕ → Option Lease) : Prop where
  owned : ∀ id reservation, w.sessions.reservations.get id = some reservation →
    Owned w.waiting held ⟨id, reservation.ref⟩
  latest : ∀ id reservation, w.sessions.reservations.get id = some reservation →
    w.latest id = some reservation.ref
  limit : w.sessions.limit = max 1 limit
  placed : (w.sessions.pins.entries.map fun entry => w.placedAt entry.1).Pairwise (· < ·)
  past : ∀ entry ∈ w.sessions.pins.entries, w.placedAt entry.1 < w.made

namespace Server

variable {limit : ℕ} {w : Server} {held : ℕ → Option Lease} {t : ℕ}

theorem start_inv (limit : ℕ) : (start limit).Inv limit fun _ => none where
  owned := fun _ _ h => by cases h
  latest := fun _ _ h => by cases h
  limit := rfl
  placed := List.Pairwise.nil
  past := fun _ h => by cases h

/-- What is kept where reservations only go and neither the pins nor the clock move. -/
theorem Inv.fewer {w' : Server} {held' : ℕ → Option Lease} (h : w.Inv limit held)
    (hfewer : SessionPins.Fewer w'.sessions w.sessions)
    (howned : ∀ id reservation, w'.sessions.reservations.get id = some reservation →
      Owned w.waiting held ⟨id, reservation.ref⟩ → Owned w'.waiting held' ⟨id, reservation.ref⟩)
    (hlatest : w'.latest = w.latest) (hlimit : w'.sessions.limit = w.sessions.limit)
    (hpins : w'.sessions.pins.entries.Sublist w.sessions.pins.entries)
    (hplaced : w'.placedAt = w.placedAt) (hmade : w.made ≤ w'.made) : w'.Inv limit held' where
  owned := fun id reservation hget =>
    howned id reservation hget (h.owned id reservation (hfewer id reservation hget))
  latest := fun id reservation hget => by
    rw [hlatest]
    exact h.latest id reservation (hfewer id reservation hget)
  limit := hlimit.trans h.limit
  placed := by
    rw [hplaced]
    exact h.placed.sublist (hpins.map _)
  past := fun entry hmem => by
    rw [hplaced]
    exact (h.past entry (hpins.subset hmem)).trans_le hmade

theorem Inv.look (h : w.Inv limit held) : ({ w with made := w.made + 2 } : Server).Inv limit held :=
  h.fewer .refl (fun _ _ _ howned => howned) rfl rfl (List.Sublist.refl _) rfl (Nat.le_add_right _ _)

theorem Inv.reserve (h : w.Inv limit held) (hheld : held t = none) (sessionId accountId : String)
    (quotaCheckedAt : Option ℚ) (wireIdentity : Option String) :
    (w.reserve sessionId accountId quotaCheckedAt wireIdentity).Inv limit
      (Function.update held t (some ⟨sessionId, w.made + 1⟩)) := by
  have hget : ∀ id reservation,
      (w.reserve sessionId accountId quotaCheckedAt wireIdentity).sessions.reservations.get id =
        some reservation →
      (id = sessionId ∧ reservation.ref = w.made + 1) ∨
        (id ≠ sessionId ∧ w.sessions.reservations.get id = some reservation) := by
    intro id reservation hget
    rw [Server.reserve, SessionPins.reserve, Table.get_set] at hget
    split_ifs at hget with hid
    · cases hget
      exact .inl ⟨hid, rfl⟩
    · exact .inr ⟨hid, hget⟩
  refine ⟨?_, ?_, h.limit, h.placed, ?_⟩
  · intro id reservation hmem
    rcases hget id reservation hmem with ⟨rfl, href⟩ | ⟨-, hbefore⟩
    · exact .inl ⟨t, by rw [Function.update_self, href]⟩
    · rcases h.owned id reservation hbefore with ⟨i, hi⟩ | hwaiting
      · have hne : i ≠ t := by
          rintro rfl
          rw [hheld] at hi
          cases hi
        exact .inl ⟨i, by rw [Function.update_of_ne hne, hi]⟩
      · exact .inr hwaiting
  · intro id reservation hmem
    rcases hget id reservation hmem with ⟨rfl, href⟩ | ⟨hne, hbefore⟩
    · exact (Function.update_self _ _ _).trans (congrArg some href.symm)
    · exact (Function.update_of_ne hne _ _).trans (h.latest id reservation hbefore)
  · exact fun entry hmem => (h.past entry hmem).trans (Nat.lt_add_of_pos_right Nat.two_pos)

theorem Inv.rollback (h : w.Inv limit held) (lease : Lease) :
    (w.rollback (some lease)).Inv limit
      (Function.update held t (if held t = some lease then none else held t)) := by
  refine h.fewer (SessionPins.rollback_fewer lease) ?_ rfl (SessionPins.limit_rollback lease) ?_ rfl
    le_rfl
  · intro id reservation hget howned
    rcases howned with ⟨i, hi⟩ | hwaiting
    · refine .inl ⟨i, ?_⟩
      by_cases heq : i = t
      · subst heq
        rw [Function.update_self, if_neg, hi]
        intro hlease
        rw [hi] at hlease
        cases hlease
        exact SessionPins.rollback_gone hget rfl
      · rw [Function.update_of_ne heq, hi]
    · exact .inr hwaiting
  · change (w.sessions.rollback lease).pins.entries.Sublist _
    rw [SessionPins.pins_rollback]

theorem Inv.drop (h : w.Inv limit held) (choice : KeptChoice) :
    (w.drop choice).Inv limit held := by
  obtain ⟨lease, pin, ref⟩ := choice
  cases lease with
  | none =>
      refine h.fewer .refl ?_ rfl rfl (List.Sublist.refl _) rfl le_rfl
      rintro id reservation hget (hheld | ⟨choice, hmem, hlease⟩)
      · exact .inl hheld
      · refine .inr ⟨choice, List.mem_filter.mpr ⟨hmem, decide_eq_true ?_⟩, hlease⟩
        rintro rfl
        cases hlease
  | some lease =>
      refine h.fewer (SessionPins.rollback_fewer lease) ?_ rfl (SessionPins.limit_rollback lease) ?_
        rfl le_rfl
      · rintro id reservation hget (hheld | ⟨choice, hmem, hlease⟩)
        · exact .inl hheld
        · refine .inr ⟨choice, List.mem_filter.mpr ⟨hmem, decide_eq_true ?_⟩, hlease⟩
          rintro rfl
          cases hlease
          exact SessionPins.rollback_gone hget rfl
      · change (w.sessions.rollback lease).pins.entries.Sublist _
        rw [SessionPins.pins_rollback]

theorem Inv.dropChoice (h : w.Inv limit held) (key : String) :
    (w.dropChoice key).Inv limit held := by
  unfold Server.dropChoice
  split
  · rename_i choice _
    have hdrop := h.drop choice
    exact ⟨hdrop.owned, hdrop.latest, hdrop.limit, hdrop.placed, hdrop.past⟩
  · exact h

theorem Inv.forget (h : w.Inv limit held) (sessionID : String) :
    ({ w with sessions := w.sessions.forget sessionID } : Server).Inv limit held :=
  h.fewer (SessionPins.forget_fewer sessionID) (fun _ _ _ howned => howned) rfl rfl
    List.filter_sublist rfl le_rfl

theorem Inv.keep (h : w.Inv limit held) (key : String) (pin : Option StickyPin) :
    (w.keep key (held t) pin).Inv limit (Function.update held t none) := by
  refine h.fewer .refl ?_ rfl rfl (List.Sublist.refl _) rfl (Nat.le_succ _)
  rintro id reservation hget (⟨i, hi⟩ | ⟨choice, hmem, hlease⟩)
  · by_cases heq : i = t
    · -- the call's own reservation goes over to the choice
      subst heq
      exact .inr ⟨_, List.mem_cons_self, hi⟩
    · exact .inl ⟨i, by rw [Function.update_of_ne heq, hi]⟩
  · exact .inr ⟨choice, List.mem_cons_of_mem _ hmem, hlease⟩

/-- A pin that is placed now comes after every other. -/
theorem placed_last {pins : Table StickyPin} {placedAt : String → ℕ} {now : ℕ} {id : String}
    (hplaced : (pins.entries.map fun entry => placedAt entry.1).Pairwise (· < ·))
    (hpast : ∀ entry ∈ pins.entries, placedAt entry.1 < now) (pin : StickyPin) :
    (((pins.delete id).entries ++ [(id, pin)]).map fun entry =>
      Function.update placedAt id now entry.1).Pairwise (· < ·) := by
  have hothers : ((pins.delete id).entries.map fun entry =>
      Function.update placedAt id now entry.1) =
        (pins.delete id).entries.map fun entry => placedAt entry.1 := by
    refine List.map_congr_left fun entry hmem => ?_
    have hne := (List.mem_filter.mp hmem).2
    exact Function.update_of_ne (of_decide_eq_true hne) _ _
  rw [List.map_append, hothers, List.pairwise_append]
  refine ⟨hplaced.sublist (List.filter_sublist.map _), List.pairwise_singleton _ _, ?_⟩
  intro old hold new hnew
  obtain ⟨entry, hmem, rfl⟩ := List.mem_map.mp hold
  rw [List.map_singleton, List.mem_singleton, Function.update_self] at hnew
  rw [hnew]
  exact hpast entry (List.mem_filter.mp hmem).1

theorem Inv.finish (h : w.Inv limit held) (lease : Option Lease) (pin : Option StickyPin) :
    (w.finish lease pin).Inv limit held := by
  cases lease with
  | none => exact h
  | some lease =>
      have hfewer := @SessionPins.finish_fewer w.sessions lease pin
      rcases @SessionPins.finish_cases w.sessions lease pin with
        ⟨hsets, heq⟩ | ⟨planned, -, hsets, -, -, -, -, heq⟩
      · refine h.fewer hfewer (fun _ _ _ howned => howned) rfl ?_ ?_ ?_ (Nat.le_succ _)
        · change (w.sessions.finish lease pin).limit = _
          rw [heq, SessionPins.limit_rollback]
        · change (w.sessions.finish lease pin).pins.entries.Sublist _
          rw [heq, SessionPins.pins_rollback]
        · rw [Server.finish, hsets]
          rfl
      · have hentries : (w.finish (some lease) pin).sessions.pins.entries.Sublist
            ((w.sessions.pins.delete lease.sessionId).entries ++ [(lease.sessionId, planned)]) := by
          change (w.sessions.finish lease pin).pins.entries.Sublist _
          rw [heq, ← @SessionPins.pins_rollback w.sessions lease]
          exact SessionPins.entries_set lease.sessionId planned
        have hplacedAt : (w.finish (some lease) pin).placedAt =
            Function.update w.placedAt lease.sessionId w.made := by
          rw [Server.finish, hsets]
          rfl
        refine ⟨fun id reservation hget => h.owned id reservation (hfewer id reservation hget),
          fun id reservation hget => h.latest id reservation (hfewer id reservation hget), ?_, ?_, ?_⟩
        · change (w.sessions.finish lease pin).limit = _
          rw [heq, SessionPins.set, SessionPins.limit_rollback]
          exact h.limit
        · rw [hplacedAt]
          exact (placed_last h.placed h.past planned).sublist (hentries.map _)
        · intro entry hmem
          rw [hplacedAt]
          change _ < w.made + 1
          rcases List.mem_append.mp (hentries.subset hmem) with hold | hnew
          · obtain ⟨hmem, hne⟩ := List.mem_filter.mp hold
            rw [Function.update_of_ne (of_decide_eq_true hne)]
            exact (h.past entry hmem).trans (Nat.lt_succ_self _)
          · rw [List.mem_singleton.mp hnew, Function.update_self]
            exact Nat.lt_succ_self _

theorem Inv.exec {o : Call} {answers : (o : Call) → Answer Map Facts o} (h : w.Inv limit held)
    (hmay : MayHold (held t) o) :
    (w.exec answers o).2.Inv limit
      (Function.update held t (learnLease (held t) o (w.exec answers o).1)) := by
  have hself : Function.update held t (held t) = held := Function.update_eq_self t held
  cases o with
  | reserve sessionID accountId quotaCheckedAt wireIdentity => exact h.reserve hmay ..
  | rollback lease => exact h.rollback lease
  | keep key lease pin =>
      have hlease : lease = held t := hmay
      rw [hlease]
      exact h.keep key pin
  | look sessionID excluded refused marks => exact hself.symm ▸ h.look
  | commit lease pin => exact hself.symm ▸ h.finish lease pin
  | takeChoice key =>
      have htaken : ({ w with keptChoices := w.keptChoices.delete key } : Server).Inv limit held :=
        ⟨h.owned, h.latest, h.limit, h.placed, h.past⟩
      exact hself.symm ▸ htaken
  | commitChoice choice => exact hself.symm ▸ h.finish choice.lease choice.pin
  | endChoice choice => exact hself.symm ▸ h.drop choice
  | dropChoice key => exact hself.symm ▸ h.dropChoice key
  | forgetSession sessionID => exact hself.symm ▸ h.forget sessionID
  | _ => exact hself.symm ▸ h

/-! ## What changes a pin -/

/-- The reservation that a call finishes, and the pin it is to set. -/
def committing : Call → Option (Lease × StickyPin)
  | .commit (some lease) (some pin) => some (lease, pin)
  | .commitChoice ⟨some lease, some pin, _⟩ => some (lease, pin)
  | _ => none

/-- Why the committed pin of session `id` is another one after the call `o`: the session was
forgotten; the call finished the session's last reservation, which still found the pin it
saw; or another session's pin took the place of the one placed longest ago. -/
inductive Changes (w w' : Server) (o : Call) (id : String) : Prop
  | forgotten (h : o = .forgetSession id)
  | committed {lease : Lease} {pin : StickyPin} {reservation : PinReservation}
      (h : committing o = some (lease, pin)) (hid : lease.sessionId = id)
      (hlatest : w.latest id = some lease.ref)
      (hlive : w.sessions.reservations.get id = some reservation)
      (href : reservation.ref = lease.ref)
      (hsaw : (w.sessions.pins.get id).map (·.ref) = reservation.previous.map (·.ref))
      (hset : w'.sessions.pins.get id = some pin)
  | evicted {lease : Lease} {pin : StickyPin} (h : committing o = some (lease, pin))
      (hother : lease.sessionId ≠ id) (hfull : w.sessions.pins.size = w.sessions.limit)
      (hgone : w'.sessions.pins.get id = none)
      (holdest : ∀ other pin, w.sessions.pins.get other = some pin → other ≠ id →
        w.placedAt id < w.placedAt other)

/-- The first pin was placed before every other. -/
theorem Inv.oldest (h : w.Inv limit held) {id : String} {first : StickyPin}
    {rest : List (String × StickyPin)} (hentries : w.sessions.pins.entries = (id, first) :: rest)
    {other : String} {pin : StickyPin} (hget : w.sessions.pins.get other = some pin)
    (hne : other ≠ id) : w.placedAt id < w.placedAt other := by
  have hplaced := h.placed
  have hmem := Table.get_eq_some.mp hget
  rw [hentries] at hplaced hmem
  rcases List.mem_cons.mp hmem with heq | hrest
  · cases heq
    exact (hne rfl).elim
  · exact List.rel_of_pairwise_cons hplaced
      (List.mem_map_of_mem (f := fun entry => w.placedAt entry.1) hrest)

theorem Inv.finish_changes (h : w.Inv limit held) {o : Call} {lease : Lease}
    {pin : Option StickyPin} (ho : ∀ planned, pin = some planned → committing o = some (lease, planned))
    {id : String}
    (hne : (w.finish (some lease) pin).sessions.pins.get id ≠ w.sessions.pins.get id) :
    Changes w (w.finish (some lease) pin) o id := by
  rcases @SessionPins.finish_cases w.sessions lease pin with
    ⟨-, heq⟩ | ⟨planned, reservation, -, hpin, hlive, href, hsaw, heq⟩
  · refine (hne ?_).elim
    change (w.sessions.finish lease pin).pins.get id = _
    rw [heq, SessionPins.pins_rollback]
  · have hget : (w.finish (some lease) pin).sessions.pins.get id =
        if id ∈ (w.sessions.rollback lease).oldest lease.sessionId planned then none
        else if id = lease.sessionId then some planned else w.sessions.pins.get id := by
      change (w.sessions.finish lease pin).pins.get id = _
      rw [heq, SessionPins.get_set, SessionPins.pins_rollback]
    have ho := ho planned hpin
    by_cases holdest : id ∈ (w.sessions.rollback lease).oldest lease.sessionId planned
    · rw [if_pos holdest] at hget
      obtain ⟨habsent, hfull, -, first, rest, hentries⟩ := SessionPins.mem_oldest holdest
      rw [SessionPins.pins_rollback] at habsent hfull hentries
      rw [SessionPins.limit_rollback] at hfull
      refine .evicted ho ?_ hfull hget fun other pin hother hne => h.oldest hentries hother hne
      -- the new session had no pin, and the evicted one has
      rintro rfl
      exact hne (hget.trans habsent.symm)
    · rw [if_neg holdest] at hget
      by_cases hid : id = lease.sessionId
      · subst hid
        rw [if_pos rfl] at hget
        exact .committed ho rfl (href ▸ h.latest _ _ hlive) hlive href hsaw hget
      · rw [if_neg hid] at hget
        exact (hne hget).elim

theorem Inv.changes {o : Call} {answers : (o : Call) → Answer Map Facts o}
    (h : w.Inv limit held) {id : String}
    (hne : (w.exec answers o).2.sessions.pins.get id ≠ w.sessions.pins.get id) :
    Changes w (w.exec answers o).2 o id := by
  have hrollback : ∀ lease, (w.rollback lease).sessions.pins = w.sessions.pins := by
    intro lease
    cases lease with
    | none => rfl
    | some lease => exact SessionPins.pins_rollback lease
  cases o with
  | commit lease pin =>
      cases lease with
      | none => exact (hne rfl).elim
      | some lease =>
          refine h.finish_changes ?_ hne
          rintro planned rfl
          rfl
  | commitChoice choice =>
      obtain ⟨lease, pin, ref⟩ := choice
      cases lease with
      | none => exact (hne rfl).elim
      | some lease =>
          refine h.finish_changes ?_ hne
          rintro planned rfl
          rfl
  | forgetSession sessionID =>
      by_cases hid : id = sessionID
      · exact .forgotten (by rw [hid])
      · refine (hne ?_).elim
        change (w.sessions.pins.delete sessionID).get id = _
        rw [Table.get_delete, if_neg hid]
  | rollback lease => exact (hne (congrArg (·.get id) (hrollback (some lease)))).elim
  | endChoice choice => exact (hne (congrArg (·.get id) (hrollback choice.lease))).elim
  | dropChoice key =>
      refine (hne ?_).elim
      change (w.dropChoice key).sessions.pins.get id = _
      unfold Server.dropChoice
      split
      · exact congrArg (·.get id) (hrollback _)
      · rfl
  | _ => exact (hne rfl).elim

end Server

/-! ## Every interleaving -/

def leaseAssertion (Map Facts : Type) (limit : ℕ) :
    Assertion (server Map Facts) (leases Map Facts) MayHold where
  inv := Server.Inv limit
  thread := fun _ => True
  okMove := fun _ _ => True
  call := by
    intro t o answers w r w' held hinv _ hmay hx
    have hexec : w.exec answers o = (r, w') := Option.some.inj hx
    have hstep : (w.exec answers o).2.Inv limit _ := Server.Inv.exec hinv hmay
    rw [hexec] at hstep
    exact hstep
  move := fun {m} => nomatch m
  halt := by
    intro t w held hinv
    have hself : Function.update held t (held t) = held := Function.update_eq_self t held
    exact hself.symm ▸ hinv

section Runs

variable (L : Library Map) (P : PinLibrary) (sameAccount : AccountKey → AccountKey → Bool)
  (dateParse : String → Option ℚ)
  (retains : Facts → List LimitCandidate → LimitCandidate → Bool)
  (identityOfToken : String → Option String) (limits : Bool)

/-- The programs that run: the host's calls. -/
def HostCalls (p : Prog (sig Map Facts) (Except Failure Unit)) : Prop :=
  ∃ call : HostCall, p = (call.run L P sameAccount dateParse retains identityOfToken limits).run

/-- In every configuration that is reached: a reservation is answered for by a call that has
not ended or by a choice that is neither consumed nor dropped, so there is none once every
call has ended and no choice waits; a session's pin changes only as `Changes` says; what a
choice balances by are the committed pins with the other sessions' reservations over them;
and no more pins are committed than the limit. -/
theorem session_pins {limit : ℕ} {c : Config (server Map Facts) (Except Failure Unit)}
    (h : Config.RunsTo (HostCalls L P sameAccount dateParse retains identityOfToken limits)
      (Config.initial (Server.start limit)) c) :
    (∀ id reservation, c.world.sessions.reservations.get id = some reservation →
      (∃ t, t < c.next ∧ ∀ result, c.thread t ≠ some (.ret result)) ∨
        ∃ choice ∈ c.world.waiting, choice.lease = some ⟨id, reservation.ref⟩) ∧
    ((∀ t, t < c.next → ∃ result, c.thread t = some (.ret result)) → c.world.waiting = [] →
      ∀ id, c.world.sessions.reservations.get id = none) ∧
    (∀ e c', c.step e = some c' → ∀ id,
      c'.world.sessions.pins.get id ≠ c.world.sessions.pins.get id →
        ∃ t answers o k, e = .act t answers ∧ c.thread t = some (.call o k) ∧
          Server.Changes c.world c'.world o id) ∧
    (∀ sessionID id, (c.world.sessions.placementSnapshot (some sessionID)).get id =
      if id = sessionID then c.world.sessions.pins.get id
      else ((c.world.sessions.reservations.get id).map (·.pin)).or
        (c.world.sessions.pins.get id)) ∧
    c.world.sessions.pins.size ≤ max 1 limit := by
  obtain ⟨held, hholds⟩ := (leaseAssertion Map Facts limit).holdsTo_of_runsTo
    (Q := fun _ held => held = none) (by
      rintro _ ⟨call, rfl⟩
      refine Learning.justified_mono (run_hands call) ?_
      rintro (error | ⟨⟩) held ⟨hok, herror⟩
      · exact herror error rfl
      · exact hok () rfl)
    (fun _ => trivial) (fun _ _ => trivial) (Server.start_inv limit) h
  have hinv : c.world.Inv limit held := hholds.inv
  have howned : ∀ id reservation, c.world.sessions.reservations.get id = some reservation →
      (∃ t, t < c.next ∧ ∀ result, c.thread t ≠ some (.ret result)) ∨
        ∃ choice ∈ c.world.waiting, choice.lease = some ⟨id, reservation.ref⟩ := by
    intro id reservation hget
    rcases hinv.owned id reservation hget with ⟨t, ht⟩ | hwaiting
    · refine .inl ⟨t, ?_, ?_⟩
      · by_contra hle
        have hunused := (hholds.unused t (Nat.le_of_not_lt hle)).2
        rw [ht] at hunused
        cases hunused
      · intro result hresult
        -- a call that has ended answers for nothing
        have hnone : held t = none := hholds.justified t _ hresult
        rw [ht] at hnone
        cases hnone
    · exact .inr hwaiting
  refine ⟨howned, ?_, ?_, ?_, ?_⟩
  · intro hended hwaiting id
    cases hget : c.world.sessions.reservations.get id with
    | none => rfl
    | some reservation =>
        rcases howned id reservation hget with ⟨t, ht, hnot⟩ | ⟨choice, hmem, -⟩
        · obtain ⟨result, hresult⟩ := hended t ht
          exact (hnot result hresult).elim
        · rw [hwaiting] at hmem
          cases hmem
  · intro e c' hstep id hne
    cases e with
    | start p =>
        cases hstep
        exact (hne rfl).elim
    | stop t =>
        obtain ⟨p, -, rfl⟩ := Option.map_eq_some_iff.mp hstep
        exact (hne rfl).elim
    | move m => exact nomatch m
    | act t answers =>
        simp only [Config.step] at hstep
        split at hstep
        · rename_i o k hthread
          obtain ⟨⟨r, w'⟩, hx, rfl⟩ := Option.map_eq_some_iff.mp hstep
          have hexec : c.world.exec answers o = (r, w') := Option.some.inj hx
          have hchanges : (c.world.exec answers o).2.sessions.pins.get id ≠ c.world.sessions.pins.get id →
              Server.Changes c.world (c.world.exec answers o).2 o id := hinv.changes
          rw [hexec] at hchanges
          exact ⟨t, answers, o, k, rfl, hthread, hchanges hne⟩
        · cases hstep
  · intro sessionID id
    rw [SessionPins.get_placementSnapshot]
    by_cases hid : id = sessionID
    · rw [if_pos (congrArg some hid), if_pos hid]
    · rw [if_neg fun heq => hid (Option.some.inj heq), if_neg hid]
  · exact hinv.limit ▸ c.world.sessions.bounded

/-- The vault refuses the first login and authorizes the second. -/
def secondLogin : (o : Call) → Answer ProjectedQuota Unit o
  | .enter => .ready twoLogins
  | .look _ _ _ _ => noLook
  | .reserve _ _ _ _ => (0 : ℕ)
  | .rollback _ => ()
  | .askRouting _ => .ok none
  | .usableToken _ => true
  | .authorize id => .ok (if id = "b" then some ⟨"login-b", "token", none⟩ else none)
  | .keepReceipt _ _ => ()
  | .slotPlaceholderWithoutMain => false
  | .terminalRefusal => false
  | .commit _ _ => ()
  | .keep _ _ _ => ()
  | .takeChoice _ => none
  | .commitChoice _ => ()
  | .endChoice _ => ()
  | .dropChoice _ => ()
  | .forgetSession _ => ()
  | .authority => some true
  | .peekRow _ => none
  | .receipt _ => none
  | .dropReceipt _ => ()
  | .forRequest => .ok ()
  | .beforeDispatch _ => .ok true
  | .readmission => none
  | .takeInterrupted _ => none
  | .setInterrupted _ _ => ()

/-- A retry chooses the second login, and its reservation waits with its choice. -/
theorem session_pins_retry :
    ∃ c : Config (server ProjectedQuota Unit) (Except Failure Unit),
      c.world.sessions.pins.size ≤ 2 ∧ (c.world.sessions.reservations.get "s").isSome ∧
        ∃ choice ∈ c.world.waiting, choice.lease.map (·.sessionId) = some "s" := by
  let call := HostCall.chooseAccount { firstRequest with retry := true }
  let program : AdapterM ProjectedQuota Unit Unit := HostCall.run rowsLibrary rowsPins (fun _ _ => false) (fun _ => none)
    (fun _ _ _ => false) (fun _ => none) false call
  have hdrive : ((server ProjectedQuota Unit).drive 0 (List.replicate 10 secondLogin) program.run
      (Server.start 2)).map (fun r => (r.1.value.isSome, (r.2.sessions.reservations.get "s").isSome)) =
        some (true, true) := by
    decide +kernel
  obtain ⟨⟨q, w⟩, hdrive, hshape⟩ := Option.map_eq_some_iff.mp hdrive
  obtain ⟨hended, hreserved⟩ := Prod.mk.inj hshape
  have hstart : HostCalls rowsLibrary rowsPins (fun _ _ => false) (fun _ => none)
      (fun _ _ _ => false) (fun _ => none) false program.run := ⟨call, rfl⟩
  obtain ⟨c, hruns, rfl, hthread, hnext, -⟩ := Machine.runsTo_start
    (M := server ProjectedQuota Unit) (c := Config.initial (Server.start 2)) hstart hdrive
  have hpins := session_pins rowsLibrary rowsPins (fun _ _ => false) (fun _ => none)
    (fun _ _ _ => false) (fun _ => none) false hruns
  refine ⟨c, hpins.2.2.2.2, hreserved, ?_⟩
  obtain ⟨reservation, hget⟩ := Option.isSome_iff_exists.mp hreserved
  rcases hpins.1 "s" reservation hget with ⟨t, ht, hrunning⟩ | ⟨choice, hmem, hlease⟩
  · -- the one call has ended
    have hzero : t = 0 := by
      have hone : c.next = 1 := hnext
      omega
    subst hzero
    cases q with
    | ret result => exact (hrunning result hthread).elim
    | call o k => cases hended
  · exact ⟨choice, hmem, by rw [hlease]; rfl⟩

end Runs

end OpenCode2
