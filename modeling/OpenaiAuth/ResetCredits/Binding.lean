import OpenaiAuth.ResetCredits.Refusal

/-! # Write-ahead and binding

Every pair that is sent was saved before, a pair is bound to one ChatGPT
account for good, and it leaves the store only for a reason. The exception is
a pair saved before accounts were recorded: an attempt that read it unbound may
still send it after another attempt bound it elsewhere
(`sent_past_its_binding`). `sends_bound` says when this cannot happen.
-/

namespace ResetCredits

open Js Interleave

section Binding

variable (key : String) (reset₀ : ResetStateByAccount)

/-- The store names the pair `ids` after `log`. -/
def SavedAs (log : List Logged) (ids : PairIds) : Prop :=
  recordIds (savedRecord (current reset₀ log) key) = some ids

/-- The store names the pair `ids` after `log`, bound to `account`. -/
def BoundTo (log : List Logged) (ids : PairIds) (account : String) : Prop :=
  SavedAs key reset₀ log ids ∧
    recordAccount (savedRecord (current reset₀ log) key) = some account

/-- Why the pair `ids` left the store at `e`. -/
inductive Removal (e : Logged) (older : List Logged) (ids : PairIds) : Prop where
  /-- A send of it was answered for good. -/
  | terminal (completing : SavedResetPair) (outcome : ResetConsumeOutcome)
      (target : ResetResolvedTarget) (same : completing.ids = ids)
      (settled : isTerminalConsumeKind outcome.kind = true)
      (answered : Answered key (own e.attempt older) target completing outcome)
  /-- Its record was no whole pair. -/
  | corrupt (unreadable : savedPair (current reset₀ older) key = none)
  /-- A claim that may replace it did. -/
  | replaced (old new : SavedResetPair) (account : Option String)
      (minted : e.mints key = some (new, account))
      (saved : savedPair (current reset₀ older) key = some old) (same : old.ids = ids)
      (expired : isYoungerThanInFlightTtl old e.at_ = false)
      (allowed : mayReplaceExpiredPair old account = true)

/-- What is to hold of the sends of a run and of the pairs it saves. -/
structure SendsBound (log : List Logged) : Prop where
  writeAhead : ∀ newer e older target ids, log = newer ++ e :: older →
    e.entry = .sent target ids →
    ∃ between earlier, older = between ++ earlier ∧ SavedAs key reset₀ earlier ids
  account : ∀ newer e older target ids, log = newer ++ e :: older →
    e.entry = .sent target ids →
    ∀ between earlier a, older = between ++ earlier → BoundTo key reset₀ earlier ids a →
      target.chatgptAccountId = some a
  kept : ∀ newer between earlier ids a, log = newer ++ (between ++ earlier) →
    BoundTo key reset₀ earlier ids a → SavedAs key reset₀ (between ++ earlier) ids →
    BoundTo key reset₀ (between ++ earlier) ids a
  removed : ∀ newer e older ids, log = newer ++ e :: older → SavedAs key reset₀ older ids →
    ¬ SavedAs key reset₀ (e :: older) ids → Removal key reset₀ e older ids

/-- An attempt that did `es` and was last handed `p` has not sent it yet. -/
def held (es : List Logged) : Option SavedResetPair :=
  es.head?.bind (Logged.handed key)

/-- Every attempt that holds the pair of the answer `a` unbound and unsent runs
under the account that the answer binds it to. -/
def holdersAgree (older : List Logged) (a : AnswerWritten) : Bool :=
  older.all fun x => (held key (own x.attempt older)).all fun p =>
    !(p.ids = a.persisted.ids && p.chatgptAccountId.isNone) ||
      (targetOf (own x.attempt older)).bind (·.chatgptAccountId) = a.sentAs

/-- Whenever an answer binds a pair that had no account, the attempts that hold
the pair unbound agree with it. -/
def BindsForAll : List Logged → Prop
  | [] => True
  | e :: older =>
      ((e.answerWritten key).all fun a =>
        a.persisted.chatgptAccountId.isSome || holdersAgree key older a) = true ∧
      BindsForAll older

instance decidableBindsForAll : (log : List Logged) → Decidable (BindsForAll key log)
  | [] => isTrue trivial
  | _ :: older =>
      have := decidableBindsForAll older
      inferInstanceAs (Decidable (_ ∧ _))

variable {key reset₀} {ids : PairIds} {a : String}

theorem BindsForAll.older {newer log : List Logged} (h : BindsForAll key (newer ++ log)) :
    BindsForAll key log := by
  induction newer with
  | nil => exact h
  | cons e newer ih => exact ih h.2

theorem BindsForAll.holder {e : Logged} {older : List Logged} (h : BindsForAll key (e :: older))
    {w : AnswerWritten} (hw : e.answerWritten key = some w)
    (hunbound : w.persisted.chatgptAccountId = none) {t : Nat} {p : SavedResetPair}
    (hp : Holding key (own t older) p) (hids : p.ids = w.persisted.ids)
    (hnone : p.chatgptAccountId = none) :
    (targetOf (own t older)).bind (·.chatgptAccountId) = w.sentAs := by
  obtain ⟨x, rest, hown, hx⟩ := hp
  have hall := h.1
  rw [hw, Option.all_some, hunbound, Option.isSome_none, Bool.false_or, holdersAgree,
    List.all_eq_true] at hall
  have hmem : x ∈ own t older := by
    rw [hown]
    exact List.mem_cons_self
  obtain ⟨hin, ht⟩ := List.mem_filter.mp hmem
  have ht' : x.attempt = t := of_decide_eq_true ht
  have hagree := hall x hin
  rw [ht', held, hown, List.head?_cons, Option.bind_some, hx, Option.all_some] at hagree
  rw [hown]
  simpa [hids, hnone] using hagree

/-- What was saved stays bound as long as it stays saved. -/
theorem boundTo_kept {between earlier : List Logged}
    (h : History key reset₀ (idsAt reset₀ key) (between ++ earlier))
    (hb : BoundTo key reset₀ earlier ids a) (hs : SavedAs key reset₀ (between ++ earlier) ids) :
    BoundTo key reset₀ (between ++ earlier) ids a := by
  induction between with
  | nil => exact hb
  | cons e between ih =>
      have hs' := hs
      rw [List.cons_append] at h hs hs' ⊢
      unfold SavedAs at hs
      cases history_record h with
      | same quiet unminted saved =>
          rw [saved] at hs
          have hbound := ih h.tail hs
          refine ⟨hs', ?_⟩
          rw [saved]
          exact hbound.2
      | mint uuid credit account quiet mints fresh issues allowed saved =>
          -- A minted id is new, and this one was saved before.
          rw [saved, recordIds_toJson] at hs
          cases hs
          refine absurd ?_ fresh
          have hissued := saved_issued (History.older h.tail) hb.1
          exact issued_append between hissued
      | repair quiet unminted corrupt saved =>
          rw [saved] at hs
          cases hs
      | settle p completing outcome target quiet unminted writtenOver matching_ terminal grounds saved =>
          rw [saved] at hs
          cases hs
      | answer w target written unminted writtenOver matching_ sentAs grounds saved =>
          obtain ⟨hids, haccount⟩ := record_of_valid writtenOver
          rw [saved, recordIds_toJson, unreconciled_ids] at hs
          have hbound := ih h.tail (hids.trans hs)
          refine ⟨hs', ?_⟩
          rw [saved, recordAccount_toJson, unreconciled_account, ← haccount, hbound.2]
          rfl

/-- A pair that was saved unbound and is bound now was bound by an answer. -/
theorem bound_by_answer {between earlier : List Logged}
    (h : History key reset₀ (idsAt reset₀ key) (between ++ earlier))
    (hs : SavedAs key reset₀ earlier ids)
    (hunbound : recordAccount (savedRecord (current reset₀ earlier) key) = none)
    (hb : BoundTo key reset₀ (between ++ earlier) ids a) :
    ∃ later e since w, between = later ++ e :: since ∧ e.answerWritten key = some w ∧
      w.persisted.ids = ids ∧ w.persisted.chatgptAccountId = none ∧ w.sentAs = some a := by
  induction between with
  | nil =>
      rw [List.nil_append, BoundTo, hunbound] at hb
      cases hb.2
  | cons e between ih =>
      rw [List.cons_append] at h hb
      have hold : BoundTo key reset₀ (between ++ earlier) ids a →
          ∃ later x since w, e :: between = later ++ x :: since ∧ x.answerWritten key = some w ∧
            w.persisted.ids = ids ∧ w.persisted.chatgptAccountId = none ∧ w.sentAs = some a := by
        intro hb'
        obtain ⟨later, x, since, w, rfl, hw⟩ := ih h.tail hb'
        exact ⟨e :: later, x, since, w, rfl, hw⟩
      obtain ⟨hsaved, haccount⟩ := hb
      unfold SavedAs at hsaved
      cases history_record h with
      | same quiet unminted saved =>
          rw [saved] at hsaved haccount
          exact hold ⟨hsaved, haccount⟩
      | mint uuid credit account quiet mints fresh issues allowed saved =>
          rw [saved, recordIds_toJson] at hsaved
          cases hsaved
          exact absurd (issued_append between (saved_issued (History.older h.tail) hs)) fresh
      | repair quiet unminted corrupt saved =>
          rw [saved] at hsaved
          cases hsaved
      | settle p completing outcome target quiet unminted writtenOver matching_ terminal grounds saved =>
          rw [saved] at hsaved
          cases hsaved
      | answer w target written unminted writtenOver matching_ sentAs grounds saved =>
          obtain ⟨hids, hbefore⟩ := record_of_valid writtenOver
          rw [saved, recordIds_toJson, unreconciled_ids] at hsaved
          rw [saved, recordAccount_toJson, unreconciled_account] at haccount
          cases hp : w.persisted.chatgptAccountId with
          | none =>
              rw [hp, Option.none_or] at haccount
              exact ⟨[], e, between, w, rfl, written, Option.some.inj hsaved, hp, haccount⟩
          | some b =>
              rw [hp, Option.some_or] at haccount
              exact hold ⟨hids.trans hsaved, hbefore.trans (hp.trans haccount)⟩

/-- A send was handed its pair by the last access of its attempt, and the pair
was saved then. -/
theorem sent_saved {e : Logged} {log : List Logged}
    (h : History key reset₀ (idsAt reset₀ key) (e :: log)) {target : ResetResolvedTarget}
    (he : e.entry = .sent target ids) :
    ∃ since access before p, log = since ++ access :: before ∧ own e.attempt since = [] ∧
      Holding key (own e.attempt log) p ∧ p.ids = ids ∧ access.attempt = e.attempt ∧
      targetOf (own e.attempt log) = some target ∧
      pairBelongsTo p target.chatgptAccountId = true ∧
      SavedAs key reset₀ (access :: before) ids ∧
      recordAccount (savedRecord (current reset₀ (access :: before)) key) =
        p.chatgptAccountId := by
  have hfits : SendFits key (own e.attempt log) target ids := by
    have hf := h.head
    rw [Follows, he] at hf
    exact hf
  obtain ⟨htarget, p, ⟨access, rest, hown, hhanded⟩, hids, hbelongs⟩ := hfits
  have hsplit : own e.attempt log = [] ++ access :: rest := hown
  obtain ⟨since, before, rfl, hsince, -, hat⟩ := own_split hsplit
  obtain ⟨hsaved, haccount⟩ := handed_saved (History.older h.tail) hhanded
  exact ⟨since, access, before, p, rfl, hsince, ⟨access, rest, hown, hhanded⟩, hids, hat, htarget,
    hbelongs, hids ▸ hsaved, haccount⟩

/-- Where the binding answers agree with the attempts that hold the pair, no
send goes past its binding. -/
theorem sent_bound {e : Logged} {log : List Logged}
    (h : History key reset₀ (idsAt reset₀ key) (e :: log)) (hbinds : BindsForAll key log)
    {target : ResetResolvedTarget} (he : e.entry = .sent target ids)
    {between earlier : List Logged} (hlog : log = between ++ earlier)
    (hb : BoundTo key reset₀ earlier ids a) : target.chatgptAccountId = some a := by
  obtain ⟨since, access, before, p, hsplit, hsince, hholds, hids, hat, htarget, hbelongs, hsaved,
    haccount⟩ := sent_saved h he
  have hbelongs' : p.chatgptAccountId = some a → target.chatgptAccountId = some a := by
    intro hp
    simpa [pairBelongsTo, hp, eq_comm] using hbelongs
  rcases List.append_eq_append_iff.mp (hsplit.symm.trans hlog) with ⟨y, rfl, hy⟩ | ⟨y, rfl, hy⟩
  · -- The pair was bound already when it was handed out.
    have hkept := boundTo_kept (hy ▸ History.older (hsplit ▸ h.tail)) hb (hy ▸ hsaved)
    rw [← hy] at hkept
    exact hbelongs' (haccount.symm.trans hkept.2)
  · -- It was handed out before, and may have been unbound then.
    have hh : History key reset₀ (idsAt reset₀ key) (y ++ access :: before) :=
      hy ▸ History.older (hlog ▸ h.tail)
    rw [hy] at hb
    cases hp : p.chatgptAccountId with
    | some b =>
        have hkept := boundTo_kept hh ⟨hsaved, haccount.trans hp⟩ hb.1
        have hab : a = b := Option.some.inj (hb.2.symm.trans hkept.2)
        exact hbelongs' (hab ▸ hp)
    | none =>
        obtain ⟨later, x, rest, w, rfl, hw, hwids, hunbound, hwsent⟩ :=
          bound_by_answer hh hsaved (haccount.trans hp) hb
        have hlog' : log = (between ++ later) ++ x :: (rest ++ access :: before) := by
          simpa using hsplit
        have hx : BindsForAll key (x :: (rest ++ access :: before)) :=
          BindsForAll.older (hlog' ▸ hbinds)
        -- At that answer the attempt had done what it has done now.
        have hownrest : own e.attempt (rest ++ access :: before) = own e.attempt log := by
          simp only [own_append, List.append_eq_nil_iff] at hsince
          have hrest := hsince.2.2
          rw [← List.singleton_append, own_append, List.append_eq_nil_iff] at hrest
          rw [hsplit, own_append, own_append, own_append, own_append, hsince.1, hsince.2.1,
            hsince.2.2, hrest.2]
          rfl
        have hagree := hx.holder hw hunbound (hownrest ▸ hholds) (hids.trans hwids.symm) hp
        rw [hownrest, htarget, Option.bind_some, hwsent] at hagree
        exact hagree

theorem removal_reason {e : Logged} {log : List Logged}
    (h : History key reset₀ (idsAt reset₀ key) (e :: log)) (hs : SavedAs key reset₀ log ids)
    (hgone : ¬ SavedAs key reset₀ (e :: log) ids) : Removal key reset₀ e log ids := by
  unfold SavedAs at hs hgone
  cases history_record h with
  | same quiet unminted saved =>
      rw [saved] at hgone
      exact absurd hs hgone
  | mint uuid credit account quiet mints fresh issues allowed saved =>
      rcases allowed with hnone | ⟨old, hold, hage, hmay⟩
      · rw [hnone] at hs
        cases hs
      · have hids : old.ids = ids :=
          Option.some.inj ((record_of_valid hold).1.symm.trans hs)
        exact .replaced old _ account mints hold hids hage hmay
  | repair quiet unminted corrupt saved => exact .corrupt corrupt
  | settle p completing outcome target quiet unminted writtenOver matching_ terminal grounds saved =>
      have hids : p.ids = ids := Option.some.inj ((record_of_valid writtenOver).1.symm.trans hs)
      exact .terminal completing outcome target (matching_.symm.trans hids) terminal grounds
  | answer w target written unminted writtenOver matching_ sentAs grounds saved =>
      refine absurd ?_ hgone
      rw [saved, recordIds_toJson, unreconciled_ids]
      exact (record_of_valid writtenOver).1.symm.trans hs

end Binding

/-! ## Every run -/

/-- In every run in which each binding answer agrees with the attempts that hold
the pair unbound, with any crashes and any store writes that throw: what is
sent was saved before, a pair stays bound to one account and is sent under it
only, and it leaves the store for one of the three reasons. -/
theorem sends_bound (key : String) (reset₀ : ResetStateByAccount) (w : World)
    (hw : Reaches key reset₀ w) (hbinds : BindsForAll key w.log) :
    SendsBound key reset₀ w.log := by
  have hh := (reaches_history hw).history
  refine ⟨?_, ?_, ?_, ?_⟩
  · intro newer e older target ids hlog he
    obtain ⟨since, access, before, p, hsplit, -, -, -, -, -, -, hsaved, -⟩ :=
      sent_saved (History.older (hlog ▸ hh)) he
    exact ⟨since, access :: before, hsplit, hsaved⟩
  · intro newer e older target ids hlog he between earlier a hold hb
    have hbinds' : BindsForAll key (e :: older) := BindsForAll.older (hlog ▸ hbinds)
    exact sent_bound (History.older (hlog ▸ hh)) hbinds'.2 he hold hb
  · intro newer between earlier ids a hlog hb hs
    exact boundTo_kept (History.older (hlog ▸ hh)) hb hs
  · intro newer e older ids hlog hs hgone
    exact removal_reason (History.older (hlog ▸ hh)) hs hgone

/-! ## A send past its binding

A pair saved before accounts were recorded, and two retries of it under two
accounts. -/

def legacyPair : SavedResetPair where
  redeemRequestId := "request"
  creditId := "credit"
  startedAt := 0

def otherTarget : ResetResolvedTarget := ⟨"main", "main", "other-token", some "other"⟩

def otherRetry : Prog calls (Except RedemptionError RunResetCreditResult) :=
  (runResetCreditRedemption ⟨"main", "other", true⟩).run

/-- One retry of the pair, which binds it. -/
def bindingRun : List RedemptionEvent :=
  [.start retry, .act 0 (.target (.ok mainTarget)), .act 0 (.store .done ""), .act 0 .none,
    .act 0 .none, .act 0 (.answer .rejected), .act 0 (.store .done "")]

theorem bindingRun_binds :
    ((Config.initial (World.initial 0 (saving legacyPair) "main") : RedemptionConfig).run
      bindingRun).any (fun c => BindsForAll "main" c.world.log &&
        recordAccount (savedRecord c.world.reset "main") = some "account") = true := by
  decide +kernel

theorem sends_bound_binding : ∃ w, Reaches "main" (saving legacyPair) w ∧
    recordAccount (savedRecord w.reset "main") = some "account" ∧
    SendsBound "main" (saving legacyPair) w.log := by
  obtain ⟨c, hrun, htest⟩ := (Option.any_eq_true _ _).mp bindingRun_binds
  have hstarts : ∀ p, Event.start p ∈ bindingRun → IsAttempt "main" p := by
    intro p hp
    simp only [bindingRun, List.mem_cons, Event.start.injEq, reduceCtorEq, List.not_mem_nil,
      or_false] at hp
    exact hp ▸ isAttempt_retry
  have hreach : Reaches "main" (saving legacyPair) c.world :=
    ⟨0, c, ⟨bindingRun, hstarts, Option.mem_def.mp hrun⟩, rfl⟩
  simp only [Bool.and_eq_true, decide_eq_true_eq] at htest
  exact ⟨c.world, hreach, htest.2, sends_bound _ _ _ hreach htest.1⟩

/-- Both read the pair unbound; the second sends it and binds it, then the first
sends it. -/
def divergingRun : List RedemptionEvent :=
  [.start retry, .act 0 (.target (.ok mainTarget)), .act 0 (.store .done ""), .act 0 .none,
    .start otherRetry, .act 1 (.target (.ok otherTarget)), .act 1 (.store .done ""), .act 1 .none,
    .act 1 .none, .act 1 (.answer .rejected), .act 1 (.store .done ""),
    .act 0 .none]

/-- The log whose newest entry sends a pair that is bound to the other account. -/
def sendsPastBinding (log : List Logged) : Bool :=
  match log with
  | ⟨_, _, .sent target ids⟩ :: older =>
      target.chatgptAccountId = some "account" &&
      recordIds (savedRecord (current (saving legacyPair) older) "main") = some ids &&
      recordAccount (savedRecord (current (saving legacyPair) older) "main") = some "other"
  | _ => false

theorem divergingRun_sends :
    ((Config.initial (World.initial 0 (saving legacyPair) "main") : RedemptionConfig).run
      divergingRun).any (fun c => sendsPastBinding c.world.log) = true := by
  decide +kernel

/-- An attempt that read a pair unbound sends it under its own account after
another attempt bound it to a different one. -/
theorem sent_past_its_binding :
    ¬ ∀ key reset₀ w, Reaches key reset₀ w → SendsBound key reset₀ w.log := by
  intro hall
  obtain ⟨c, hrun, htest⟩ := (Option.any_eq_true _ _).mp divergingRun_sends
  have hstarts : ∀ p, Event.start p ∈ divergingRun → IsAttempt "main" p := by
    intro p hp
    simp only [divergingRun, List.mem_cons, Event.start.injEq, reduceCtorEq, List.not_mem_nil,
      or_false, false_or] at hp
    rcases hp with rfl | rfl
    · exact isAttempt_retry
    · exact ⟨"other", true, rfl⟩
  have hreach : Reaches "main" (saving legacyPair) c.world :=
    ⟨0, c, ⟨divergingRun, hstarts, Option.mem_def.mp hrun⟩, rfl⟩
  have hbound := hall _ _ _ hreach
  unfold sendsPastBinding at htest
  split at htest
  · rename_i t at_ target ids older hlog
    simp only [Bool.and_eq_true, decide_eq_true_eq] at htest
    obtain ⟨⟨htarget, hids⟩, haccount⟩ := htest
    have hsame := hbound.account [] _ older target ids hlog rfl [] older "other" rfl
      ⟨hids, haccount⟩
    rw [htarget] at hsame
    exact absurd hsame (by decide)
  · cases htest

end ResetCredits
