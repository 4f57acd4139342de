import Mathlib.Algebra.Order.Ring.Rat
import Mathlib.Data.List.Basic

/-! # Pi's own login

`PiMainAccount` keeps the quota of the login Pi hands over with each request. One poll
is shared by all callers while it is under way. `identityOfToken` stands for the claims
of a token, `merge` for the merge of an observation into a quota map, which gives
nothing where it throws. What a poll resolves to, and its log, are left out.

Main result: `pi_main_account`.
-/

namespace PiMain

/-! ## The account -/

section Account

variable {Q S O : Type}

/-- The poll under way. It stays so for a moment after it has `ended`, until the promise's
`finally` clears it. -/
structure Poll where
  token : String
  identity : Option String
  ended : Bool := false
deriving DecidableEq, Repr

structure PiMainAccount (Q S : Type) where
  token : Option String := none
  identity : Option String := none
  quota : Option Q := none
  snapshot : Option S := none
  firstPolledFor : Option (String ⊕ String) := none
  inflight : Option Poll := none
  lastPull : Option ℚ := none

/-- `identity:…` or `token:…`. -/
def accountKey (token identity : Option String) : Option (String ⊕ String) :=
  match identity with
  | some identity => some (.inl identity)
  | none => token.map .inr

namespace PiMainAccount

variable (account : PiMainAccount Q S)

def key : Option (String ⊕ String) := accountKey account.token account.identity

def pollNow (now : ℚ) : PiMainAccount Q S :=
  if account.inflight.isSome then account
  else
    match account.token with
    | some token => { account with
        lastPull := some now
        inflight := some { token := token, identity := account.identity } }
    | none => account

/-- What `requestReading` leaves: at most one poll in `pullRetryMs` unless it is forced. -/
def requestReading (pullRetryMs : ℚ) (force : Bool) (now : ℚ) : PiMainAccount Q S :=
  if !force && account.lastPull.any fun last => now - last < pullRetryMs then account
  else account.pollNow now

def observeToken (identityOfToken : String → Option String) (token : String) (now : ℚ) :
    PiMainAccount Q S :=
  if token = "" then account
  else
    let identity := identityOfToken token
    let key := accountKey (some token) identity
    let dropped := account.token.isSome && account.key ≠ key
    let account := { account with
      quota := if dropped then none else account.quota
      snapshot := if dropped then none else account.snapshot
      token := some token
      identity := identity }
    if account.firstPolledFor ≠ key then { account with firstPolledFor := key }.pollNow now
    else account

def mergeQuota (merge : Option Q → O → Option Q) (observation : O) : PiMainAccount Q S :=
  { account with quota := (merge account.quota observation).or account.quota }

/-- The poll has come back, with a snapshot and an observation or with an error. -/
def pollEnded (merge : Option Q → O → Option Q) (result : Option (S × O)) : PiMainAccount Q S :=
  match account.inflight with
  | none => account
  | some poll =>
      let account := { account with inflight := some { poll with ended := true } }
      match result with
      | none => account
      | some (snapshot, observation) =>
          if account.key ≠ accountKey (some poll.token) poll.identity then account
          else { account with snapshot := some snapshot }.mergeQuota merge observation

/-- `token` is this account's: its identity matches, or it is the current token. -/
def owns (identityOfToken : String → Option String) (token : String) : Bool :=
  match account.token with
  | none => false
  | some current =>
      match identityOfToken token, account.identity with
      | some identity, some known => identity = known
      | _, _ => token = current

def record (identityOfToken : String → Option String) (merge : Option Q → O → Option Q)
    (token : String) (observation : Option O) : PiMainAccount Q S :=
  if account.owns identityOfToken token then
    match observation with
    | some observation => account.mergeQuota merge observation
    | none => account
  else account

end PiMainAccount

end Account

/-! ## What it is asked -/

/-- A reading with the tokens that it was obtained with. -/
structure Tagged (α : Type) where
  value : α
  tokens : List String

/-- The merge of what one token saw into what others saw. -/
def mergeTagged {Q O : Type} (merge : Option Q → O → Option Q) (quota : Option (Tagged Q))
    (seen : Tagged O) : Option (Tagged Q) :=
  (merge (quota.map (·.value)) seen.value).map fun merged =>
    ⟨merged, seen.tokens ++ quota.elim [] (·.tokens)⟩

inductive Event (S O : Type) where
  | observe (token : String) (now : ℚ)
  | requestReading (force : Bool) (now : ℚ)
  | poll (now : ℚ)
  | ended (result : Option (S × O))
  | settled
  | record (token : String) (observation : Option O)

/-- `polled`: a poll with one of its tokens has been started since the account became
the current one. -/
structure State (Q S : Type) where
  account : PiMainAccount (Tagged Q) (Tagged S) := {}
  polled : Bool := false

section Steps

variable {Q S O : Type} (identityOfToken : String → Option String)
  (merge : Option Q → O → Option Q) (pullRetryMs : ℚ)

/-- A poll is started: none was under way and one is. -/
def started (before after : PiMainAccount (Tagged Q) (Tagged S)) : Bool :=
  before.inflight.isNone && after.inflight.isSome

def State.next (s : State Q S) (account : PiMainAccount (Tagged Q) (Tagged S)) : State Q S where
  account := account
  polled := (s.polled && account.key = s.account.key) || started s.account account

def step (s : State Q S) : Event S O → State Q S
  | .observe token now => s.next (s.account.observeToken identityOfToken token now)
  | .requestReading force now => s.next (s.account.requestReading pullRetryMs force now)
  | .poll now => s.next (s.account.pollNow now)
  | .ended result =>
      match s.account.inflight with
      | some poll =>
          -- what a poll returns was obtained with its token
          if poll.ended then s
          else s.next (s.account.pollEnded (mergeTagged merge) (result.map fun result =>
            (⟨result.1, [poll.token]⟩, ⟨result.2, [poll.token]⟩)))
      | none => s
  | .settled =>
      if s.account.inflight.any (·.ended) then s.next { s.account with inflight := none } else s
  | .record token observation =>
      s.next (s.account.record identityOfToken (mergeTagged merge) token
        (observation.map fun observation => ⟨observation, [token]⟩))

inductive Run : List (State Q S × Event S O) → State Q S → Prop
  | start : Run [] {}
  | step {steps : List (State Q S × Event S O)} {s : State Q S} (e : Event S O) :
      Run steps s → Run (steps ++ [(s, e)]) (step identityOfToken merge pullRetryMs s e)

end Steps

/-! ## What it holds -/

section Holds

variable {Q S O : Type} {identityOfToken : String → Option String}
  {merge : Option Q → O → Option Q} {pullRetryMs : ℚ} {s : State Q S}
  {steps : List (State Q S × Event S O)}

/-- The account a token belongs to. -/
def keyOf (identityOfToken : String → Option String) (token : String) : Option (String ⊕ String) :=
  accountKey (some token) (identityOfToken token)

/-- What is held was obtained with tokens of the current account. -/
structure Own (identityOfToken : String → Option String)
    (account : PiMainAccount (Tagged Q) (Tagged S)) : Prop where
  quota : ∀ quota ∈ account.quota, ∀ token ∈ quota.tokens,
    keyOf identityOfToken token = account.key
  snapshot : ∀ snapshot ∈ account.snapshot, ∀ token ∈ snapshot.tokens,
    keyOf identityOfToken token = account.key

/-- An account with no reading has been polled since it became the current one. -/
def Polled (s : State Q S) : Prop :=
  s.account.token.isSome = true → s.account.quota = none → s.polled = true

/-- Another account becomes the current one while a poll is under way. -/
def Switches (identityOfToken : String → Option String) (s : State Q S) : Event S O → Prop
  | .observe token _ => token ≠ "" ∧ keyOf identityOfToken token ≠ s.account.key ∧
      s.account.inflight.isSome = true
  | _ => False

structure Inv (identityOfToken : String → Option String)
    (account : PiMainAccount (Tagged Q) (Tagged S)) : Prop where
  known : ∀ token ∈ account.token, account.identity = identityOfToken token
  empty : account.token = none → account.identity = none ∧ account.quota = none ∧
    account.snapshot = none ∧ account.inflight = none
  first : account.firstPolledFor = account.key
  poll : ∀ poll ∈ account.inflight, poll.identity = identityOfToken poll.token
  own : Own identityOfToken account

theorem inv_start : Inv identityOfToken ({} : PiMainAccount (Tagged Q) (Tagged S)) := by
  refine ⟨?_, ?_, rfl, ?_, ⟨?_, ?_⟩⟩ <;> simp

/-- A token that is owned belongs to the current account. -/
theorem Inv.owns_key {account : PiMainAccount (Tagged Q) (Tagged S)}
    (inv : Inv identityOfToken account) {token : String}
    (h : account.owns identityOfToken token = true) :
    keyOf identityOfToken token = account.key := by
  unfold PiMainAccount.owns at h
  unfold keyOf PiMainAccount.key
  cases hcurrent : account.token with
  | none =>
    rw [hcurrent] at h
    cases h
  | some current =>
    rw [hcurrent] at h
    have known := inv.known current hcurrent
    simp only at h
    split at h
    · rename_i identity other hidentity hother
      rw [hidentity, hother, of_decide_eq_true h]
      rfl
    · rw [of_decide_eq_true h, known]

theorem Inv.pollNow {account : PiMainAccount (Tagged Q) (Tagged S)}
    (inv : Inv identityOfToken account) (now : ℚ) :
    Inv identityOfToken (account.pollNow now) := by
  unfold PiMainAccount.pollNow
  split
  · exact inv
  · split
    · rename_i token htoken
      refine ⟨inv.known, ?_, inv.first, ?_, ⟨inv.own.1, inv.own.2⟩⟩
      · intro hnone
        rw [htoken] at hnone
        cases hnone
      · rintro poll ⟨⟩
        exact inv.known token htoken
    · exact inv

/-- Merging what the current account's token saw keeps what is held the account's own. -/
theorem Inv.mergeQuota {account : PiMainAccount (Tagged Q) (Tagged S)}
    (inv : Inv identityOfToken account) {token : String}
    (own : keyOf identityOfToken token = account.key) (observed : account.token ≠ none)
    (observation : O) :
    Inv identityOfToken (account.mergeQuota (mergeTagged merge) ⟨observation, [token]⟩) := by
  refine ⟨inv.known, fun hnone => absurd hnone observed, inv.first, inv.poll,
    ⟨?_, inv.own.snapshot⟩⟩
  intro quota hquota seen hseen
  unfold PiMainAccount.mergeQuota mergeTagged at hquota
  rcases Option.or_eq_some_iff.mp hquota with hmerged | ⟨-, hold⟩
  · obtain ⟨merged, -, rfl⟩ := Option.map_eq_some_iff.mp hmerged
    rcases List.mem_append.mp hseen with hnew | hold
    · rw [List.mem_singleton.mp hnew]
      exact own
    · cases hquota : account.quota with
      | none =>
        rw [hquota] at hold
        cases hold
      | some before =>
        rw [hquota] at hold
        exact inv.own.quota before hquota seen hold
  · exact inv.own.quota quota hold seen hseen

theorem Inv.requestReading {account : PiMainAccount (Tagged Q) (Tagged S)}
    (inv : Inv identityOfToken account) (force : Bool) (now : ℚ) :
    Inv identityOfToken (account.requestReading pullRetryMs force now) := by
  unfold PiMainAccount.requestReading
  split
  · exact inv
  · exact inv.pollNow now

theorem Inv.token_of_key {account : PiMainAccount (Tagged Q) (Tagged S)}
    (inv : Inv identityOfToken account) {token : String}
    (h : keyOf identityOfToken token = account.key) : account.token ≠ none := by
  intro htoken
  rw [PiMainAccount.key, htoken, (inv.empty htoken).1] at h
  unfold keyOf accountKey at h
  split at h <;> cases h

/-- A token of the account that is current is only taken. -/
theorem Inv.observe_same {account : PiMainAccount (Tagged Q) (Tagged S)}
    (inv : Inv identityOfToken account) {token : String} (hempty : token ≠ "")
    (hkey : keyOf identityOfToken token = account.key) (now : ℚ) :
    account.observeToken identityOfToken token now =
      { account with token := some token, identity := identityOfToken token } := by
  have first : account.firstPolledFor = accountKey (some token) (identityOfToken token) :=
    inv.first.trans hkey.symm
  have same : account.key = accountKey (some token) (identityOfToken token) := hkey.symm
  simp [PiMainAccount.observeToken, hempty, first, same]

/-- A token of another account leaves nothing of what was held, and asks for a poll. -/
theorem Inv.observe_other {account : PiMainAccount (Tagged Q) (Tagged S)}
    (inv : Inv identityOfToken account) {token : String} (hempty : token ≠ "")
    (hkey : keyOf identityOfToken token ≠ account.key) (now : ℚ) :
    account.observeToken identityOfToken token now =
      { account with
        quota := none
        snapshot := none
        token := some token
        identity := identityOfToken token
        firstPolledFor := keyOf identityOfToken token }.pollNow now := by
  have first : account.firstPolledFor ≠ accountKey (some token) (identityOfToken token) := by
    rw [inv.first]
    exact hkey.symm
  have other : account.key ≠ accountKey (some token) (identityOfToken token) := hkey.symm
  unfold PiMainAccount.observeToken
  rw [if_neg hempty]
  simp only [other, first, ne_eq, not_false_eq_true, decide_true, Bool.and_true, if_true]
  cases htoken : account.token with
  | none =>
    obtain ⟨-, hquota, hsnapshot, -⟩ := inv.empty htoken
    simp [hquota, hsnapshot, keyOf]
  | some current => simp [keyOf]

theorem Inv.observeToken {account : PiMainAccount (Tagged Q) (Tagged S)}
    (inv : Inv identityOfToken account) (token : String) (now : ℚ) :
    Inv identityOfToken (account.observeToken identityOfToken token now) := by
  by_cases hempty : token = ""
  · rw [PiMainAccount.observeToken, if_pos hempty]
    exact inv
  by_cases hkey : keyOf identityOfToken token = account.key
  · rw [inv.observe_same hempty hkey]
    refine ⟨?_, nofun, inv.first.trans hkey.symm, inv.poll, ⟨?_, ?_⟩⟩
    · rintro _ ⟨⟩
      rfl
    · intro quota hquota seen hseen
      exact (inv.own.quota quota hquota seen hseen).trans hkey.symm
    · intro snapshot hsnapshot seen hseen
      exact (inv.own.snapshot snapshot hsnapshot seen hseen).trans hkey.symm
  · rw [inv.observe_other hempty hkey]
    refine Inv.pollNow ?_ now
    refine ⟨?_, nofun, rfl, inv.poll, ⟨?_, ?_⟩⟩
    · rintro _ ⟨⟩
      rfl
    · rintro _ ⟨⟩
    · rintro _ ⟨⟩

/-- A poll made for another account is dropped, and one made for this account is its own. -/
theorem Inv.pollEnded {account : PiMainAccount (Tagged Q) (Tagged S)}
    (inv : Inv identityOfToken account) {poll : Poll} (hpoll : account.inflight = some poll)
    (result : Option (S × O)) :
    Inv identityOfToken (account.pollEnded (mergeTagged merge) (result.map fun result =>
      (⟨result.1, [poll.token]⟩, ⟨result.2, [poll.token]⟩))) := by
  have known := inv.poll poll hpoll
  have observed : account.token ≠ none := by
    intro htoken
    rw [(inv.empty htoken).2.2.2] at hpoll
    cases hpoll
  have ended : Inv identityOfToken { account with inflight := some { poll with ended := true } } := by
    refine ⟨inv.known, fun hnone => absurd hnone observed, inv.first, ?_, ⟨inv.own.1, inv.own.2⟩⟩
    rintro _ ⟨⟩
    exact known
  unfold PiMainAccount.pollEnded
  rw [hpoll]
  cases result with
  | none => exact ended
  | some result =>
    simp only [Option.map_some]
    split
    · exact ended
    · rename_i hkey
      have own : keyOf identityOfToken poll.token = account.key := by
        unfold keyOf
        rw [← known]
        exact (not_not.mp hkey).symm
      have shown : Inv identityOfToken { account with
          inflight := some { poll with ended := true }
          snapshot := some ⟨result.1, [poll.token]⟩ } := by
        refine ⟨ended.known, fun hnone => absurd hnone observed, ended.first, ended.poll,
          ended.own.quota, ?_⟩
        rintro _ ⟨⟩ seen hseen
        rw [List.mem_singleton.mp hseen]
        exact own
      exact shown.mergeQuota own observed result.2

theorem Inv.record {account : PiMainAccount (Tagged Q) (Tagged S)}
    (inv : Inv identityOfToken account) (token : String) (observation : Option O) :
    Inv identityOfToken (account.record identityOfToken (mergeTagged merge) token
      (observation.map fun observation => ⟨observation, [token]⟩)) := by
  unfold PiMainAccount.record
  split
  · rename_i howns
    cases observation with
    | none => exact inv
    | some observation =>
      refine inv.mergeQuota (inv.owns_key howns) ?_ observation
      intro hnone
      simp [PiMainAccount.owns, hnone] at howns
  · exact inv

theorem Inv.settled {account : PiMainAccount (Tagged Q) (Tagged S)}
    (inv : Inv identityOfToken account) :
    Inv identityOfToken { account with inflight := none } := by
  refine ⟨inv.known, ?_, inv.first, nofun, ⟨inv.own.1, inv.own.2⟩⟩
  intro hnone
  obtain ⟨hidentity, hquota, hsnapshot, -⟩ := inv.empty hnone
  exact ⟨hidentity, hquota, hsnapshot, rfl⟩

theorem Inv.step (inv : Inv identityOfToken s.account) (e : Event S O) :
    Inv identityOfToken (step identityOfToken merge pullRetryMs s e).account := by
  cases e with
  | observe token now => exact inv.observeToken token now
  | requestReading force now => exact inv.requestReading force now
  | poll now => exact inv.pollNow now
  | ended result =>
    unfold PiMain.step
    cases hpoll : s.account.inflight with
    | none => exact inv
    | some poll =>
      simp only
      split
      · exact inv
      · exact inv.pollEnded hpoll result
  | settled =>
    unfold PiMain.step
    simp only
    split
    · exact inv.settled
    · exact inv
  | record token observation => exact inv.record token observation

/-! ## The first poll -/

/-- The login is as it was, and what had a reading has one. -/
structure Kept (before after : PiMainAccount (Tagged Q) (Tagged S)) : Prop where
  token : after.token = before.token
  identity : after.identity = before.identity
  quota : after.quota = none → before.quota = none

theorem Kept.refl (account : PiMainAccount (Tagged Q) (Tagged S)) : Kept account account :=
  ⟨rfl, rfl, id⟩

theorem kept_pollNow (account : PiMainAccount (Tagged Q) (Tagged S)) (now : ℚ) :
    Kept account (account.pollNow now) := by
  unfold PiMainAccount.pollNow
  split
  · exact Kept.refl account
  · split <;> exact ⟨rfl, rfl, id⟩

theorem kept_requestReading (account : PiMainAccount (Tagged Q) (Tagged S)) (force : Bool)
    (now : ℚ) : Kept account (account.requestReading pullRetryMs force now) := by
  unfold PiMainAccount.requestReading
  split
  · exact Kept.refl account
  · exact kept_pollNow account now

/-- A merge never takes a reading away. -/
theorem kept_mergeQuota {R : Type} (account : PiMainAccount (Tagged Q) (Tagged S))
    (merge : Option (Tagged Q) → R → Option (Tagged Q)) (observation : R) :
    Kept account (account.mergeQuota merge observation) :=
  ⟨rfl, rfl, fun hnone => (Option.or_eq_none_iff.mp hnone).2⟩

theorem kept_pollEnded {R : Type} (account : PiMainAccount (Tagged Q) (Tagged S))
    (merge : Option (Tagged Q) → R → Option (Tagged Q)) (result : Option (Tagged S × R)) :
    Kept account (account.pollEnded merge result) := by
  unfold PiMainAccount.pollEnded
  split
  · exact Kept.refl account
  · cases result with
    | none => exact ⟨rfl, rfl, id⟩
    | some result =>
      simp only
      split
      · exact ⟨rfl, rfl, id⟩
      · exact ⟨rfl, rfl, fun hnone => (Option.or_eq_none_iff.mp hnone).2⟩

theorem kept_record {R : Type} (account : PiMainAccount (Tagged Q) (Tagged S))
    (merge : Option (Tagged Q) → R → Option (Tagged Q)) (token : String)
    (observation : Option R) :
    Kept account (account.record identityOfToken merge token observation) := by
  unfold PiMainAccount.record
  split
  · cases observation with
    | none => exact Kept.refl account
    | some observation => exact kept_mergeQuota account merge observation
  · exact Kept.refl account

theorem Polled.next {account : PiMainAccount (Tagged Q) (Tagged S)} (polled : Polled s)
    (kept : Kept s.account account) : Polled (s.next account) := by
  intro htoken hquota
  have hkey : account.key = s.account.key := by
    unfold PiMainAccount.key
    rw [kept.token, kept.identity]
  have before : s.polled = true := by
    refine polled ?_ (kept.quota hquota)
    rw [← kept.token]
    exact htoken
  simp [State.next, before, hkey]

theorem pollNow_of_inflight {account : PiMainAccount (Tagged Q) (Tagged S)}
    (h : account.inflight.isSome = true) (now : ℚ) : account.pollNow now = account := by
  rw [PiMainAccount.pollNow, if_pos h]

/-- A poll under way keeps an account that becomes the current one from being polled. -/
theorem Inv.polled_observe (inv : Inv identityOfToken s.account) (polled : Polled s)
    (token : String) (now : ℚ) :
    Polled (s.next (s.account.observeToken identityOfToken token now)) ↔
      ¬ Switches (S := S) (O := O) identityOfToken s (.observe token now) := by
  unfold Switches
  by_cases hempty : token = ""
  · rw [PiMainAccount.observeToken, if_pos hempty]
    exact iff_of_true (polled.next (Kept.refl s.account)) fun h => h.1 hempty
  by_cases hkey : keyOf identityOfToken token = s.account.key
  · -- the same account: no poll, and the reading is kept
    rw [inv.observe_same hempty hkey]
    refine iff_of_true ?_ fun h => h.2.1 hkey
    intro _ hquota
    have before : s.polled = true :=
      polled (Option.isSome_iff_ne_none.mpr (inv.token_of_key hkey)) hquota
    unfold State.next
    rw [before, Bool.true_and, Bool.or_eq_true]
    exact .inl (decide_eq_true hkey)
  rw [inv.observe_other hempty hkey]
  cases hpoll : s.account.inflight with
  | some poll =>
    -- no poll is started, and the one under way is another account's
    refine iff_of_false ?_ fun h => h ⟨hempty, hkey, rfl⟩
    rw [pollNow_of_inflight (by simp)]
    intro after
    have := after rfl rfl
    simp only [State.next, started, hpoll, Bool.or_eq_true, Bool.and_eq_true, decide_eq_true_eq,
      Option.isNone_some, Bool.false_eq_true, false_and, or_false] at this
    exact hkey this.2
  | none =>
    refine iff_of_true ?_ fun h => by cases h.2.2
    intro _ _
    unfold State.next started
    rw [Bool.or_eq_true]
    exact .inr (by simp [PiMainAccount.pollNow, hpoll])

theorem Inv.polled_step (inv : Inv identityOfToken s.account) (polled : Polled s) (e : Event S O) :
    Polled (PiMain.step identityOfToken merge pullRetryMs s e) ↔ ¬ Switches identityOfToken s e := by
  cases e with
  | observe token now => exact inv.polled_observe polled token now
  | requestReading force now =>
    exact iff_of_true (polled.next (kept_requestReading s.account force now)) id
  | poll now => exact iff_of_true (polled.next (kept_pollNow s.account now)) id
  | ended result =>
    refine iff_of_true ?_ id
    unfold PiMain.step
    simp only
    split
    · split
      · exact polled
      · exact polled.next (kept_pollEnded s.account _ _)
    · exact polled
  | settled =>
    refine iff_of_true ?_ id
    unfold PiMain.step
    simp only
    split
    · exact polled.next ⟨rfl, rfl, id⟩
    · exact polled
  | record token observation =>
    exact iff_of_true (polled.next (kept_record s.account _ token _)) id

/-! ## Every run -/

theorem Run.inv (run : Run identityOfToken merge pullRetryMs steps s) :
    Inv identityOfToken s.account := by
  induction run with
  | start => exact inv_start
  | step e _ ih => exact ih.step e

theorem Run.inv_taken (run : Run identityOfToken merge pullRetryMs steps s) :
    ∀ taken ∈ steps, Inv identityOfToken taken.1.account := by
  induction run with
  | start => exact List.forall_mem_nil _
  | step e before ih =>
    intro taken htaken
    rcases List.mem_append.mp htaken with h | h
    · exact ih taken h
    · rw [List.mem_singleton.mp h]
      exact before.inv

/-- The states of a run all have their reading or their poll if and only if no account
becomes the current one while a poll is under way. -/
theorem Run.polled_iff (run : Run identityOfToken merge pullRetryMs steps s) :
    ((∀ taken ∈ steps, Polled taken.1) ∧ Polled s) ↔
      ∀ taken ∈ steps, ¬ Switches identityOfToken taken.1 taken.2 := by
  induction run with
  | start =>
    refine iff_of_true ⟨List.forall_mem_nil _, ?_⟩ (List.forall_mem_nil _)
    intro h
    cases h
  | @step steps s e before ih =>
    constructor
    · rintro ⟨reached, now⟩ taken htaken
      have polled : Polled s := reached (s, e) (List.mem_append_right _ (List.mem_singleton.mpr rfl))
      rcases List.mem_append.mp htaken with h | h
      · exact ih.mp ⟨fun taken h => reached taken (List.mem_append_left _ h), polled⟩ taken h
      · rw [List.mem_singleton.mp h]
        exact (before.inv.polled_step polled e).mp now
    · intro clean
      obtain ⟨reached, polled⟩ := ih.mpr fun taken h => clean taken (List.mem_append_left _ h)
      refine ⟨?_, ?_⟩
      · intro taken htaken
        rcases List.mem_append.mp htaken with h | h
        · exact reached taken h
        · rw [List.mem_singleton.mp h]
          exact polled
      · exact (before.inv.polled_step polled e).mpr
          (clean (s, e) (List.mem_append_right _ (List.mem_singleton.mpr rfl)))

/-- What is held is always the current account's own, and every account with no reading
has been polled since it became the current one, if and only if none becomes the current
one while a poll is under way. -/
theorem pi_main_account (identityOfToken : String → Option String)
    (merge : Option Q → O → Option Q) (pullRetryMs : ℚ)
    {steps : List (State Q S × Event S O)} {s : State Q S}
    (run : Run identityOfToken merge pullRetryMs steps s) :
    ((∀ taken ∈ steps, Own identityOfToken taken.1.account) ∧ Own identityOfToken s.account) ∧
      (((∀ taken ∈ steps, Polled taken.1) ∧ Polled s) ↔
        ∀ taken ∈ steps, ¬ Switches identityOfToken taken.1 taken.2) :=
  ⟨⟨fun taken h => (run.inv_taken taken h).own, run.inv.own⟩, run.polled_iff⟩

end Holds

section Switch

/-- Every token names its own account, and the last observation is the quota. -/
private def ownIdentity (token : String) : Option String := some token

private def latest (_ : Option Unit) (observation : Unit) : Option Unit := some observation

private def first : State Unit Unit :=
  step ownIdentity latest 15000 {} (.observe (S := Unit) "tok-a" 0)

private def second : State Unit Unit :=
  step ownIdentity latest 15000 first (.observe (S := Unit) "tok-b" 1)

private theorem run_first : Run ownIdentity latest 15000
    [({}, .observe "tok-a" 0)] first :=
  Run.step (.observe "tok-a" 0) Run.start

private theorem run_second : Run ownIdentity latest 15000
    [({}, .observe "tok-a" 0), (first, .observe "tok-b" 1)] second :=
  Run.step (.observe "tok-b" 1) run_first

/-- The second account of two logins in a row is never polled. -/
theorem pi_main_account_unpolled :
    ¬ ∀ (identityOfToken : String → Option String) (merge : Option Unit → Unit → Option Unit)
        (pullRetryMs : ℚ) (steps : List (State Unit Unit × Event Unit Unit))
        (s : State Unit Unit), Run identityOfToken merge pullRetryMs steps s →
          Own identityOfToken s.account ∧ Polled s := by
  intro h
  have polled := (h ownIdentity latest 15000 _ second run_second).2
  exact Bool.false_ne_true (polled rfl rfl)

/-- A first login with its poll under way. -/
theorem pi_main_account_first :
    ((∀ taken ∈ [(({} : State Unit Unit), (.observe "tok-a" 0 : Event Unit Unit))],
        Own ownIdentity taken.1.account) ∧ Own ownIdentity first.account) ∧
      (((∀ taken ∈ [(({} : State Unit Unit), (.observe "tok-a" 0 : Event Unit Unit))],
          Polled taken.1) ∧ Polled first) ↔
        ∀ taken ∈ [(({} : State Unit Unit), (.observe "tok-a" 0 : Event Unit Unit))],
          ¬ Switches ownIdentity taken.1 taken.2) :=
  pi_main_account ownIdentity latest 15000 run_first

end Switch

end PiMain
