import OpenaiAuth.ResetCredits.Redemption

/-! # The history of a run

What the log of any run looks like: each attempt resolves its target, is handed
a pair by an access to the store, sends that pair, is answered, and finalizes
with that answer, while other attempts do the same in between. `reaches_history`
proves it of `runResetCreditRedemption` once; the properties of a run are then
inductions over a list, with no program in sight.
-/

namespace ResetCredits

open Interleave

/-- What attempt `t` did itself. -/
def own (t : Nat) (log : List Logged) : List Logged :=
  log.filter (·.attempt = t)

theorem own_cons_self {e : Logged} (log : List Logged) :
    own e.attempt (e :: log) = e :: own e.attempt log := by
  simp [own]

theorem own_logged (t : Nat) (at_ : Rat) (entry : LogEntry) (log : List Logged) :
    own t (⟨t, at_, entry⟩ :: log) = ⟨t, at_, entry⟩ :: own t log :=
  own_cons_self log

theorem own_cons_ne {e : Logged} {t : Nat} (log : List Logged) (h : e.attempt ≠ t) :
    own t (e :: log) = own t log := by
  simp [own, h]

theorem own_append (t : Nat) (newer older : List Logged) :
    own t (newer ++ older) = own t newer ++ own t older :=
  List.filter_append ..

/-- Where an attempt's entries split, the log splits. -/
theorem own_split {t : Nat} {e : Logged} {log front rest : List Logged}
    (h : own t log = front ++ e :: rest) :
    ∃ newer older, log = newer ++ e :: older ∧ own t newer = front ∧ own t older = rest ∧
      e.attempt = t := by
  induction log generalizing front with
  | nil => cases front <;> cases h
  | cons x log ih =>
      by_cases hx : x.attempt = t
      · subst hx
        rw [own_cons_self] at h
        cases front with
        | nil =>
            obtain ⟨rfl, rfl⟩ := List.cons.inj h
            exact ⟨[], log, rfl, rfl, rfl, rfl⟩
        | cons y front =>
            obtain ⟨rfl, htail⟩ := List.cons.inj h
            obtain ⟨newer, older, rfl, hn, ho, he⟩ := ih htail
            exact ⟨x :: newer, older, rfl, by rw [own_cons_self, hn], ho, he⟩
      · rw [own_cons_ne log hx] at h
        obtain ⟨newer, older, rfl, hn, ho, he⟩ := ih h
        exact ⟨x :: newer, older, rfl, by rw [own_cons_ne _ hx, hn], ho, he⟩

/-- The target that `e` resolved. -/
def Logged.resolved? (e : Logged) : Option ResetResolvedTarget :=
  match e.entry with
  | .resolved target => some target
  | _ => none

/-- The target an attempt resolved. -/
def targetOf (es : List Logged) : Option ResetResolvedTarget :=
  es.findSome? Logged.resolved?

section History

variable (key : String) (reset₀ : ResetStateByAccount)

/-- The saved state after `log`, which began at `reset₀`. -/
def current : List Logged → ResetStateByAccount
  | [] => reset₀
  | ⟨_, _, .mutated _ _ _ _ after⟩ :: _ => after
  | _ :: older => current older

/-- The ids `randomUUID` cannot give any more. -/
def issued (ids₀ : List String) : List Logged → List String
  | [] => ids₀
  | ⟨_, _, .mutated m uuid _ _ _⟩ :: older =>
      if m.mayMint then uuid :: issued ids₀ older else issued ids₀ older
  | _ :: older => issued ids₀ older

/-- The pair a decision lets an attempt send. -/
def ResetStateDecision.handed : ResetStateDecision → Option SavedResetPair
  | claim _ c | expiredUnreconciled _ c => some c.inFlight
  | _ => none

/-- The pair an access to the store handed to its attempt to send. -/
def Logged.handed (e : Logged) : Option SavedResetPair :=
  match e.entry with
  | .loaded reset => savedPair reset key
  | .mutated (.resolveCorrupt _) _ .done before _ => savedPair before key
  | .mutated (.claim k credits account) uuid .done before _ =>
      match (claimMutation e.at_ uuid k credits account before).1 with
      | .claim _ c => some c.inFlight
      | _ => none
  | _ => none

/-- The last thing an attempt did was to be handed `p`. -/
def Holding (es : List Logged) (p : SavedResetPair) : Prop :=
  ∃ e rest, es = e :: rest ∧ e.handed key = some p

/-- The last thing an attempt did was to receive `outcome` for a send of
`completing`, made for `target`. -/
def Answered (es : List Logged) (target : ResetResolvedTarget) (completing : SavedResetPair)
    (outcome : ResetConsumeOutcome) : Prop :=
  ∃ a s e rest, es = a :: s :: e :: rest ∧ a.entry = .answered outcome ∧
    s.entry = .sent target completing.ids ∧ e.handed key = some completing

/-- What an attempt that did `es` knows when it runs the mutation `m`. -/
def MutationGrounds (es : List Logged) : Mutation → Prop
  | .resolveCorrupt _ => True
  | .claim _ _ account => ∃ target, targetOf es = some target ∧ account = target.chatgptAccountId
  | .terminal _ completing outcome =>
      isTerminalConsumeKind outcome.kind = true ∧ ∃ target, Answered key es target completing outcome
  | .unreconciled _ completing outcome sentAs =>
      isTerminalConsumeKind outcome.kind = false ∧
        ∃ target, sentAs = target.chatgptAccountId ∧ Answered key es target completing outcome

/-- When an attempt that did `es` runs the mutation `m`. -/
def MutationFits (es : List Logged) (m : Mutation) : Prop :=
  isSafeResetAccountKey key = true ∧ m.accountKey = key ∧ MutationGrounds key es m

/-- When an attempt that did `es` sends the pair `ids` for `target`. -/
def SendFits (es : List Logged) (target : ResetResolvedTarget) (ids : PairIds) : Prop :=
  targetOf es = some target ∧
    ∃ p, Holding key es p ∧ p.ids = ids ∧ pairBelongsTo p target.chatgptAccountId = true

/-- What entry `e` says, given that `log` came before it. -/
def Follows (ids₀ : List String) (log : List Logged) (e : Logged) : Prop :=
  match e.entry with
  | .resolved _ => own e.attempt log = []
  | .loaded reset => reset = current reset₀ log
  | .mutated m uuid result before after =>
      before = current reset₀ log ∧
      after = (if result.persisted then (m.apply e.at_ uuid before).2 else before) ∧
      (m.mayMint = true → uuid ≠ "" ∧ uuid ∉ issued ids₀ log) ∧
      MutationFits key (own e.attempt log) m
  | .sent target ids => SendFits key (own e.attempt log) target ids
  | .answered _ => ∃ s rest target ids, own e.attempt log = s :: rest ∧ s.entry = .sent target ids
  | .stopped => True

/-- The logs of runs on `key` that start at `reset₀`, newest entry first. -/
inductive History (ids₀ : List String) : List Logged → Prop where
  | nil : History ids₀ []
  | cons {e : Logged} {log : List Logged} (older : History ids₀ log)
      (later : ∀ x ∈ log, x.at_ ≤ e.at_) (follows : Follows key reset₀ ids₀ log e) :
      History ids₀ (e :: log)

variable {key reset₀} {ids₀ : List String}

namespace History

theorem tail {e : Logged} {log : List Logged} (h : History key reset₀ ids₀ (e :: log)) :
    History key reset₀ ids₀ log := by
  cases h with
  | cons older _ _ => exact older

theorem head {e : Logged} {log : List Logged} (h : History key reset₀ ids₀ (e :: log)) :
    Follows key reset₀ ids₀ log e := by
  cases h with
  | cons _ _ follows => exact follows

/-- Whatever a history says of its past is a history itself. -/
theorem older {newer log : List Logged} (h : History key reset₀ ids₀ (newer ++ log)) :
    History key reset₀ ids₀ log := by
  induction newer with
  | nil => exact h
  | cons e newer ih => exact ih h.tail

end History

end History

/-! ## Every run has a history -/

section Contract

variable (key : String) (reset₀ : ResetStateByAccount) (ids₀ : List String)

/-- The log is a history of the world it stands in. -/
structure Recorded (w : World) : Prop where
  history : History key reset₀ ids₀ w.log
  reset : w.reset = current reset₀ w.log
  ids : w.redeemRequestIds = issued ids₀ w.log
  clock : ∀ e ∈ w.log, e.at_ ≤ w.clock

/-- What attempt `t` has done when it makes call `o`. -/
def CallFits (t : Nat) (o : Call) (w : World) : Prop :=
  match o with
  | .resolveTarget _ => own t w.log = []
  | .mutateAccounts m => MutationFits key (own t w.log) m
  | .postConsume target _ ids => SendFits key (own t w.log) target ids
  | .consumeAnswer =>
      ∃ s rest target ids, own t w.log = s :: rest ∧ s.entry = .sent target ids
  | _ => True

/-- Everything a call can do to the world. -/
theorem exec_cases {t : Nat} {o : Call} {ch : Choice} {w w' : World} {r : o.Ans}
    (h : exec t o ch w = some (r, w')) :
    w' = w ∨
    (∃ k target, o = .resolveTarget k ∧ w' = w.record t (.resolved target)) ∨
    (o = .loadAccounts ∧ w' = w.record t (.loaded w.reset)) ∨
    (∃ m uuid result, o = .mutateAccounts m ∧ w' = w.mutate t m uuid result ∧
      (m.mayMint = true → uuid ≠ "" ∧ uuid ∉ w.redeemRequestIds)) ∨
    (∃ target account ids, o = .postConsume target account ids ∧
      w' = w.record t (.sent target ids)) ∨
    ∃ a, o = .consumeAnswer ∧ w' = w.record t (.answered (consumeOutcome a)) := by
  unfold exec at h
  split at h
  · rename_i k target
    exact .inr (.inl ⟨k, target, rfl, (Prod.mk.inj (Option.some.inj h)).2.symm⟩)
  · exact .inl (Prod.mk.inj (Option.some.inj h)).2.symm
  · exact .inr (.inr (.inl ⟨rfl, (Prod.mk.inj (Option.some.inj h)).2.symm⟩))
  · exact .inl (Prod.mk.inj (Option.some.inj h)).2.symm
  · exact .inl (Prod.mk.inj (Option.some.inj h)).2.symm
  · exact .inl (Prod.mk.inj (Option.some.inj h)).2.symm
  · exact .inl (Prod.mk.inj (Option.some.inj h)).2.symm
  · exact .inl (Prod.mk.inj (Option.some.inj h)).2.symm
  · rename_i m result uuid
    split at h
    · cases h
    · rename_i hfresh
      refine .inr (.inr (.inr (.inl ⟨m, uuid, result, rfl,
        (Prod.mk.inj (Option.some.inj h)).2.symm, fun hm => ?_⟩)))
      simpa [hm] using hfresh
  · rename_i target account ids
    exact .inr (.inr (.inr (.inr (.inl ⟨target, account, ids, rfl,
      (Prod.mk.inj (Option.some.inj h)).2.symm⟩))))
  · rename_i a
    exact .inr (.inr (.inr (.inr (.inr ⟨a, rfl, (Prod.mk.inj (Option.some.inj h)).2.symm⟩))))
  · cases h

theorem exec_quiet {t : Nat} {o : Call} {ch : Choice} {w w' : World} {r : o.Ans}
    (ho : o.quiet = true) (h : exec t o ch w = some (r, w')) : w' = w := by
  rcases exec_cases h with h | ⟨_, _, rfl, _⟩ | ⟨rfl, _⟩ | ⟨_, _, _, rfl, _⟩ |
    ⟨_, _, _, rfl, _⟩ | ⟨_, rfl, _⟩
  · exact h
  all_goals cases ho

variable {key reset₀ ids₀} {w : World} {t : Nat}

/-- An entry that leaves the store alone keeps the record. -/
theorem Recorded.record (hw : Recorded key reset₀ ids₀ w) {entry : LogEntry}
    (hcur : current reset₀ (⟨t, w.clock, entry⟩ :: w.log) = current reset₀ w.log)
    (hids : issued ids₀ (⟨t, w.clock, entry⟩ :: w.log) = issued ids₀ w.log)
    (hf : Follows key reset₀ ids₀ w.log ⟨t, w.clock, entry⟩) :
    Recorded key reset₀ ids₀ (w.record t entry) where
  history := .cons hw.history hw.clock hf
  reset := by rw [World.record_reset, World.record_log, hcur, hw.reset]
  ids := by rw [World.record_redeemRequestIds, World.record_log, hids, hw.ids]
  clock := by
    intro e he
    rcases List.mem_cons.mp he with rfl | he
    · exact le_refl _
    · exact hw.clock e he

theorem Recorded.mutate (hw : Recorded key reset₀ ids₀ w) {m : Mutation} {uuid : String}
    {result : StoreResult} (hm : MutationFits key (own t w.log) m)
    (hfresh : m.mayMint = true → uuid ≠ "" ∧ uuid ∉ w.redeemRequestIds) :
    Recorded key reset₀ ids₀ (w.mutate t m uuid result) where
  history := by
    refine .cons hw.history hw.clock ⟨hw.reset, rfl, fun h => ?_, hm⟩
    rw [← hw.ids]
    exact hfresh h
  reset := rfl
  ids := by
    simp only [World.mutate, issued, hw.ids]
  clock := by
    intro e he
    rcases List.mem_cons.mp he with rfl | he
    · exact le_refl _
    · exact hw.clock e he

theorem recorded_exec {o : Call} {ch : Choice} {w' : World} {r : o.Ans}
    (hw : Recorded key reset₀ ids₀ w) (hpre : CallFits key t o w)
    (h : exec t o ch w = some (r, w')) : Recorded key reset₀ ids₀ w' := by
  rcases exec_cases h with rfl | ⟨k, target, rfl, rfl⟩ | ⟨rfl, rfl⟩ |
    ⟨m, uuid, result, rfl, rfl, hfresh⟩ | ⟨target, account, ids, rfl, rfl⟩ | ⟨a, rfl, rfl⟩
  · exact hw
  · exact hw.record rfl rfl hpre
  · exact hw.record rfl rfl hw.reset
  · exact hw.mutate hpre hfresh
  · exact hw.record rfl rfl hpre
  · exact hw.record rfl rfl hpre

/-- A call adds only entries of its own attempt. -/
theorem own_exec {o : Call} {ch : Choice} {w' : World} {r : o.Ans} {i : Nat}
    (h : exec t o ch w = some (r, w')) (hi : i ≠ t) : own i w'.log = own i w.log := by
  rcases exec_cases h with rfl | ⟨k, target, rfl, rfl⟩ | ⟨rfl, rfl⟩ |
    ⟨m, uuid, result, rfl, rfl, hfresh⟩ | ⟨target, account, ids, rfl, rfl⟩ | ⟨a, rfl, rfl⟩
  · rfl
  all_goals exact own_cons_ne _ (Ne.symm hi)

variable (key reset₀ ids₀)

/-- Other attempts add their own entries and leave those of `t` alone. -/
def contract : Contract machine where
  inv := Recorded key reset₀ ids₀
  rely t w w' := own t w'.log = own t w.log
  fresh t w := own t w.log = []
  pre := CallFits key
  okCall _ _ _ _ := True
  okMove _ _ := True
  rely_refl _ _ := rfl
  rely_trans h₁ h₂ := h₂.trans h₁
  rely_fresh h hf := h.trans hf
  call_inv hi hp _ h := recorded_exec hi hp h
  call_rely _ _ _ h ht := own_exec h ht
  move_inv := by
    rintro ⟨d⟩ w w' hi - h
    simp only [machine] at h
    split at h
    · rename_i hd
      cases h
      exact ⟨hi.history, hi.reset, hi.ids, fun e he =>
        (hi.clock e he).trans (le_add_of_nonneg_right hd)⟩
    · cases h
  move_rely := by
    rintro ⟨d⟩ w w' t - - h
    simp only [machine] at h
    split at h
    · cases h
      rfl
    · cases h
  halt_inv hi := hi.record rfl rfl trivial
  halt_rely _ ht := own_cons_ne _ (Ne.symm ht)

end Contract

/-! ## One attempt

What is known of an attempt between two of its calls is what it has done so
far, which no other attempt can change. -/

section Attempt

variable (key : String) (reset₀ : ResetStateByAccount) (ids₀ : List String)
variable {α β : Type} {t : Nat} {es : List Logged}

/-- From an attempt that did `es`, `p` runs safely and ends in `Q`, which
speaks of its answer and of what the attempt then has done. -/
def Safely (t : Nat) (p : Prog calls α) (Q : α → List Logged → Prop) (es : List Logged) : Prop :=
  ∀ w : World, own t w.log = es →
    (contract key reset₀ ids₀).Safe t p (fun a (w : World) => Q a (own t w.log)) w

variable {key reset₀ ids₀}

theorem safely_ret {a : α} {Q : α → List Logged → Prop} (h : Q a es) :
    Safely key reset₀ ids₀ t (.ret a) Q es := by
  rintro w rfl
  exact h

theorem safely_mono {p : Prog calls α} {Q Q' : α → List Logged → Prop}
    (h : Safely key reset₀ ids₀ t p Q es) (hQ : ∀ a es, Q a es → Q' a es) :
    Safely key reset₀ ids₀ t p Q' es :=
  fun w hw => Contract.safe_mono _ (h w hw) fun a _ => hQ a _

theorem safely_bind {p : Attempt α} {f : α → Attempt β}
    {Q : Except RedemptionError β → List Logged → Prop}
    (h : Safely key reset₀ ids₀ t p.run (fun r es => match r with
      | .ok a => Safely key reset₀ ids₀ t (f a).run Q es
      | .error e => Q (.error e) es) es) :
    Safely key reset₀ ids₀ t (p >>= f).run Q es := by
  intro w hw
  refine Contract.safe_bindThrowing _ (Contract.safe_mono _ (h w hw) ?_)
  rintro (e | a) w' hr
  · exact hr
  · exact hr w' rfl

theorem safely_ite {c : Prop} [Decidable c] {p q : Attempt α}
    {Q : Except RedemptionError α → List Logged → Prop}
    (hp : c → Safely key reset₀ ids₀ t p.run Q es)
    (hq : ¬ c → Safely key reset₀ ids₀ t q.run Q es) :
    Safely key reset₀ ids₀ t (if c then p else q).run Q es := by
  by_cases h : c
  · rw [if_pos h]
    exact hp h
  · rw [if_neg h]
    exact hq h

/-- The call rule: what the call needs, and what each answer leads to. -/
theorem safely_call {o : Call} {k : o.Ans → Prog calls α} {Q : α → List Logged → Prop}
    (hpre : ∀ w, own t w.log = es → CallFits key t o w)
    (hk : ∀ ch r w w', own t w.log = es → exec t o ch w = some (r, w') →
      Safely key reset₀ ids₀ t (k r) Q (own t w'.log)) :
    Safely key reset₀ ids₀ t (Prog.call (S := calls) o k) Q es := by
  rintro w rfl w₁ hr -
  exact ⟨hpre w₁ hr, fun ch r w₂ _ hx _ => hk ch r w₁ w₂ hr hx w₂ rfl⟩

/-- A call that logs nothing. -/
theorem safely_quiet {o : Call} {ans : o.Ans → Except RedemptionError α}
    {Q : Except RedemptionError α → List Logged → Prop} (ho : o.quiet = true)
    (hQ : ∀ r, Q r es) :
    Safely key reset₀ ids₀ t (Throwing.perform (S := calls) o ans).run Q es := by
  refine safely_call (fun w _ => ?_) fun ch r w w' hw hx => ?_
  · cases o <;> trivial
  · rw [exec_quiet ho hx, hw]
    exact safely_ret (hQ _)

theorem safely_resolve {Q : Except RedemptionError ResetResolvedTarget → List Logged → Prop}
    (hQ : ∀ at_ target, Q (.ok target) [⟨t, at_, .resolved target⟩])
    (herr : Q (.error .thrown) []) :
    Safely key reset₀ ids₀ t (callThrowing (.resolveTarget key) id).run Q [] := by
  refine safely_call (fun w hw => hw) fun ch r w w' hw hx => ?_
  rcases ch with (_ | target) | _ | _ | _ | _ | _ | _ <;> cases hx
  · rw [hw]
    exact safely_ret herr
  · rw [World.record_log, own_logged, hw]
    exact safely_ret (hQ _ _)

theorem safely_load {Q : Except RedemptionError ResetStateByAccount → List Logged → Prop}
    (hQ : ∀ at_ reset, Q (.ok reset) (⟨t, at_, .loaded reset⟩ :: es))
    (herr : Q (.error .thrown) es) : Safely key reset₀ ids₀ t loadAccounts.run Q es := by
  refine safely_call (fun _ _ => trivial) fun ch r w w' hw hx => ?_
  rcases ch with _ | ⟨result, uuid⟩ | _ | _ | _ | _ | _ <;> try cases hx
  cases result <;> cases hx
  · rw [World.record_log, own_logged, hw]
    exact safely_ret (hQ _ _)
  · rw [hw]
    exact safely_ret herr
  · rw [hw]
    exact safely_ret herr

theorem safely_mutate {m : Mutation} {Q : Except RedemptionError m.Answer → List Logged → Prop}
    (hm : MutationFits key es m)
    (hQ : ∀ at_ uuid before after,
      Q (.ok (m.apply at_ uuid before).1) (⟨t, at_, .mutated m uuid .done before after⟩ :: es))
    (herr : ∀ at_ uuid result before after,
      Q (.error .thrown) (⟨t, at_, .mutated m uuid result before after⟩ :: es)) :
    Safely key reset₀ ids₀ t (mutateAccounts m).run Q es := by
  refine safely_call ?_ fun ch r w w' hw hx => ?_
  · rintro w rfl
    exact hm
  rcases ch with _ | ⟨result, uuid⟩ | _ | _ | _ | _ | _ <;> try cases hx
  simp only [exec] at hx
  split at hx
  · cases hx
  · cases hx
    rw [World.mutate, own_logged, hw]
    cases result with
    | done => exact safely_ret (hQ _ _ _ _)
    | threwBefore => exact safely_ret (herr _ _ _ _ _)
    | threwAfter => exact safely_ret (herr _ _ _ _ _)

/-- A request that leaves and its answer. -/
theorem safely_consume {target : ResetResolvedTarget} {accountId : Option String}
    {ids : PairIds} {Q : Except RedemptionError ResetConsumeOutcome → List Logged → Prop}
    (hs : SendFits key es target ids)
    (hQ : ∀ at_ at' outcome, Q (.ok outcome)
      (⟨t, at_, .answered outcome⟩ :: ⟨t, at', .sent target ids⟩ :: es)) :
    Safely key reset₀ ids₀ t (consumeResetCredit target accountId ids).run Q es := by
  refine safely_call ?_ fun ch r w w' hw hx => ?_
  · rintro w rfl
    exact hs
  · cases ch <;> cases hx
    rw [World.record_log, own_logged, hw]
    refine safely_call ?_ fun ch r v v' hv hx => ?_
    · intro v hv
      exact ⟨_, _, _, _, hv, rfl⟩
    · cases ch <;> cases hx
      rw [World.record_log, own_logged, hv]
      exact safely_ret (hQ _ _ _)

theorem targetOf_cons {e : Logged} (h : e.resolved? = none) :
    targetOf (e :: es) = targetOf es := by
  rw [targetOf, List.findSome?_cons, h]
  rfl

/-- An attempt that resolved `target` and may send what `d` hands it. -/
def Decided (key : String) (target : ResetResolvedTarget) (d : ResetStateDecision)
    (es : List Logged) : Prop :=
  targetOf es = some target ∧ ∀ p, d.handed = some p → Holding key es p

theorem inspectResetState_handed {state : Option ResetAccountState} (at_ : Rat)
    {p : SavedResetPair} (h : (inspectResetState state at_).handed = some p) :
    validInFlight (state.bind (·.inFlight)) = some p := by
  unfold inspectResetState at h
  simp only at h
  split at h
  · cases h
  · split at h
    · cases h
    · split at h
      · rename_i heq
        rw [heq, ← h]
        split <;> rfl
      · cases h

theorem resolveCorruptMutation_fst (at_ : Rat) (reset : ResetStateByAccount) :
    (resolveCorruptMutation at_ key reset).1 =
      inspectResetState (resetStateForAccount reset key) at_ := by
  unfold resolveCorruptMutation
  simp only
  cases inspectResetState (resetStateForAccount reset key) at_ <;> rfl

variable {target : ResetResolvedTarget}

theorem safely_inspect (hsafe : isSafeResetAccountKey key = true)
    (ht : targetOf es = some target) :
    Safely key reset₀ ids₀ t (inspectResetAttempt key).run (fun r es => match r with
      | .ok d => Decided key target d es
      | .error _ => True) es := by
  rw [inspectResetAttempt, if_pos hsafe]
  refine safely_bind (safely_load (fun at_ reset => ?_) trivial)
  refine safely_bind (safely_quiet rfl ?_)
  rintro (_ | at')
  · trivial
  refine safely_ret ⟨?_, fun p hp => ⟨_, _, rfl, ?_⟩⟩
  · rw [targetOf_cons rfl, ht]
  · exact inspectResetState_handed at' hp

theorem safely_repair (hsafe : isSafeResetAccountKey key = true) {d : ResetStateDecision}
    (hd : Decided key target d es) :
    Safely key reset₀ ids₀ t (repairCorrupt key d).run (fun r es => match r with
      | .ok d => Decided key target d es
      | .error _ => True) es := by
  cases d with
  | corrupt b =>
      refine safely_mutate ⟨hsafe, rfl, trivial⟩
        (fun at_ uuid before after => ⟨?_, fun p hp => ?_⟩) fun _ _ _ _ _ => trivial
      · rw [targetOf_cons rfl, hd.1]
      · refine ⟨_, _, rfl, inspectResetState_handed at_ ?_⟩
        rw [← resolveCorruptMutation_fst]
        exact hp
  | _ => exact safely_ret hd

/-- What a claim hands the attempt that made it. -/
theorem safely_claim (hsafe : isSafeResetAccountKey key = true) (credits : List ResetCredit)
    (ht : targetOf es = some target) :
    Safely key reset₀ ids₀ t
      (claimResetAttempt key credits target.chatgptAccountId).run (fun r es => match r with
        | .ok (.claim _ c) => targetOf es = some target ∧ Holding key es c.inFlight
        | _ => True) es := by
  rw [claimResetAttempt, if_pos hsafe]
  refine safely_mutate ⟨hsafe, rfl, target, ht, rfl⟩ (fun at_ uuid before after => ?_)
    fun _ _ _ _ _ => trivial
  cases hd : (claimMutation at_ uuid key credits target.chatgptAccountId before).1 with
  | claim b c =>
      simp only [Mutation.apply, hd]
      refine ⟨?_, _, _, rfl, ?_⟩
      · rw [targetOf_cons rfl, ht]
      · simp only [Logged.handed, hd]
  | _ =>
      simp only [Mutation.apply, hd]

theorem safely_newSpend (hsafe : isSafeResetAccountKey key = true)
    (wireAccountId : Option String) (ht : targetOf es = some target) :
    Safely key reset₀ ids₀ t
      (claimNewSpend target key target.chatgptAccountId wireAccountId).run (fun r es => match r with
        | .ok (.claim _ c) => targetOf es = some target ∧ Holding key es c.inFlight
        | _ => True) es := by
  refine safely_bind (safely_quiet rfl ?_)
  rintro (_ | quota)
  · trivial
  refine safely_bind (safely_quiet rfl ?_)
  rintro (_ | credits)
  · trivial
  refine safely_bind (safely_quiet rfl ?_)
  rintro (_ | mark)
  · trivial
  refine safely_bind (safely_quiet rfl ?_)
  rintro (_ | at_)
  · trivial
  refine safely_ite (fun _ => ?_) fun _ => safely_ret trivial
  exact safely_ite (fun _ => safely_claim hsafe credits ht) fun _ => safely_ret trivial

theorem safely_spend (hsafe : isSafeResetAccountKey key = true) (expected : String)
    (retry : Bool) (wireAccountId : Option String) (ht : targetOf es = some target) :
    Safely key reset₀ ids₀ t
      (spend { accountKey := key, expectedChatgptAccountId := expected, retry } target
        target.chatgptAccountId wireAccountId).run (fun r es => match r with
        | .ok (.inl c) => targetOf es = some target ∧ Holding key es c.inFlight
        | _ => True) es := by
  refine safely_ite (fun _ => safely_ret trivial) fun _ => ?_
  refine safely_bind (safely_mono (safely_newSpend hsafe wireAccountId ht) ?_)
  rintro (e | d) es' hd
  · trivial
  · cases d with
    | claim b c => exact safely_ret hd
    | _ => exact safely_ret trivial

/-- Whatever a new spend or a retry settles on, it was handed. -/
theorem safely_choose (hsafe : isSafeResetAccountKey key = true) (expected : String)
    (retry : Bool) (wireAccountId : Option String) {d : ResetStateDecision}
    (hd : Decided key target d es) :
    Safely key reset₀ ids₀ t
      (chooseClaim { accountKey := key, expectedChatgptAccountId := expected, retry } target
        target.chatgptAccountId wireAccountId d).run (fun r es => match r with
        | .ok (.inl c) => targetOf es = some target ∧ Holding key es c.inFlight
        | _ => True) es := by
  cases d with
  | corrupt b => exact safely_ret trivial
  | cooldown b c => exact safely_ret trivial
  | claim b c => exact safely_ret ⟨hd.1, hd.2 _ rfl⟩
  | expiredUnreconciled b c =>
      refine safely_ite (fun _ => ?_) fun _ =>
        safely_spend hsafe expected retry wireAccountId hd.1
      exact safely_ite (fun _ => safely_ret ⟨hd.1, hd.2 _ rfl⟩) fun _ => safely_ret trivial
  | fresh b => exact safely_spend hsafe expected retry wireAccountId hd.1

theorem safely_attempt {p : Attempt α}
    {Q : Except RedemptionError (Except RedemptionError α) → List Logged → Prop}
    (h : Safely key reset₀ ids₀ t p.run (fun r es => Q (.ok r) es) es) :
    Safely key reset₀ ids₀ t (Throwing.attempt p).run Q es :=
  fun w hw => Contract.safe_attempt _ (h w hw)

theorem safely_finalize {completing : SavedResetPair} {outcome : ResetConsumeOutcome}
    (ha : Answered key es target completing outcome) :
    Safely key reset₀ ids₀ t
      (finalizeResetAttempt key completing outcome target.chatgptAccountId).run
      (fun _ _ => True) es := by
  refine safely_ite (fun hsafe => ?_) fun _ => safely_ret trivial
  refine safely_ite (fun hk => ?_) fun hk => safely_ite (fun _ => ?_) fun _ => ?_
  · refine safely_bind (safely_mutate ⟨hsafe, rfl, hk, target, ha⟩ (fun _ _ _ _ => ?_) ?_)
    · exact safely_ret trivial
    · exact fun _ _ _ _ _ => trivial
  · refine safely_bind (safely_load (fun _ _ => ?_) trivial)
    exact safely_ret trivial
  · refine safely_mutate ?_ (fun _ _ _ _ => trivial) fun _ _ _ _ _ => trivial
    exact ⟨hsafe, rfl, Bool.eq_false_iff.mpr hk, target, rfl, ha⟩

theorem safely_send (wireAccountId : Option String) (beforeState : Option ResetAccountState)
    {c : ResetClaim} (ht : targetOf es = some target) (hc : Holding key es c.inFlight) :
    Safely key reset₀ ids₀ t
      (sendClaim key target target.chatgptAccountId wireAccountId beforeState c).run
      (fun _ _ => True) es := by
  refine safely_bind (safely_ite (fun hb => safely_ret ?_) fun _ => safely_ret trivial)
  refine safely_bind (safely_consume ⟨ht, _, hc, rfl, hb⟩ fun at_ at' outcome => ?_)
  obtain ⟨e, rest, rfl, he⟩ := hc
  refine safely_bind (safely_attempt (safely_mono
    (safely_finalize ⟨_, _, _, _, rfl, rfl, rfl, he⟩) fun _ _ _ => ?_))
  exact safely_ret trivial

/-- An attempt that has done nothing yet runs safely to its end. -/
theorem safely_run (expected : String) (retry : Bool) :
    Safely key reset₀ ids₀ t
      (runResetCreditRedemption { accountKey := key, expectedChatgptAccountId := expected, retry }).run
      (fun _ _ => True) [] := by
  refine safely_ite (fun hsafe => ?_) fun _ => safely_ret trivial
  refine safely_bind (safely_resolve (fun at_ target => ?_) trivial)
  refine safely_ite (fun _ => ?_) fun _ => safely_ret trivial
  refine safely_bind (safely_mono (safely_inspect hsafe rfl) ?_)
  rintro (e | d) es hd
  · trivial
  refine safely_bind (safely_mono (safely_repair hsafe hd) ?_)
  rintro (e | d) es hd
  · trivial
  refine safely_bind (safely_mono (safely_choose hsafe expected retry _ hd) ?_)
  rintro (e | c | b) es hc
  · trivial
  · exact safely_send _ _ hc.1 hc.2
  · exact safely_ret trivial

end Attempt

/-- The ids the world begins with. -/
def idsAt (reset₀ : ResetStateByAccount) (key : String) : List String :=
  (World.initial 0 reset₀ key).redeemRequestIds

/-- The refinement: whatever attempts reach, its log is a history. -/
theorem reaches_history {key : String} {reset₀ : ResetStateByAccount} {w : World}
    (h : Reaches key reset₀ w) : Recorded key reset₀ (idsAt reset₀ key) w := by
  obtain ⟨clock, c, ⟨es, hstart, hrun⟩, rfl⟩ := h
  have hinit : Recorded key reset₀ (idsAt reset₀ key) (World.initial clock reset₀ key) :=
    ⟨.nil, rfl, rfl, by simp [World.initial]⟩
  have hsafe : ∀ p t w, IsAttempt key p → Recorded key reset₀ (idsAt reset₀ key) w →
      own t w.log = [] →
      (contract key reset₀ (idsAt reset₀ key)).Safe t p (fun _ _ => True) w := by
    rintro p t w ⟨expected, retry, rfl⟩ - hf
    exact safely_run expected retry w hf
  have hholds := Contract.initial_holds (α := Except RedemptionError RunResetCreditResult)
    (contract key reset₀ (idsAt reset₀ key)) hinit fun _ => rfl
  refine (Contract.run_holds _ hsafe hholds ?_ hrun).inv
  refine Config.meets_of_forall (fun e he c => ?_) _
  cases e with
  | start p => exact hstart p he
  | act t ch => exact fun _ _ _ => trivial
  | stop t => trivial
  | move m => trivial

end ResetCredits
