import OpenaiAuth.ResetCredits.Effects

/-! # When a recorded refusal stands

A saved pair that carries a refusal may be replaced, so the refusal must not
outlive a later unknown answer. The code compares the pair's count of unknown
answers with the count the refused send read. The count is read back through
`Number.isSafeInteger`, so it is a count modulo 2^53; `refusal_stands` says
what the comparison gives, and `refusal_outlives_wrapped_count` that it gives
no more.
-/

namespace ResetCredits

open Js Interleave

/-! ## Answers in the log -/

section Answers

variable (key : String) (ids : PairIds)

/-- `e` wrote an answer for the pair `ids` that was neither terminal nor a
definite refusal. -/
def Logged.writesUnknown (e : Logged) : Bool :=
  (e.answerWritten key).any fun a => a.persisted.ids = ids ∧ ¬ isRefusedConsume a.outcome

/-- The refusal of the pair `ids` that `e` recorded. -/
def Logged.recordsRefusal (e : Logged) : Option Rat :=
  (e.answerWritten key).bind fun a =>
    if a.persisted.ids = ids ∧ isRefusedConsume a.outcome ∧
        a.persisted.unknown = a.completing.unknown then a.outcome.status
    else none

/-- How many unknown answers of the pair `ids` were written in `log`. -/
def unknownAnswersIn (log : List Logged) : Nat :=
  log.countP (·.writesUnknown key ids)

/-- A send of the pair `ids` got the refusal `status`, and it is the last one
recorded. Since its attempt read the pair, as many unknown answers of the pair
were written as `allowed` describes. -/
def RefusedSend (allowed : Nat → Prop) (log : List Logged) (status : Rat) : Prop :=
  ∃ later write sending access earlier p target outcome,
    log = later ++ write :: (sending ++ access :: earlier) ∧
    write.recordsRefusal key ids = some status ∧
    (∀ e ∈ later, e.recordsRefusal key ids = none) ∧
    (own write.attempt sending).map (·.entry) = [.answered outcome, .sent target ids] ∧
    access.attempt = write.attempt ∧ access.handed key = some p ∧ p.ids = ids ∧
    allowed (unknownAnswersIn key ids (later ++ write :: sending))

/-- The refusal `status` of the pair `ids` stands after `log`: a send got it, or
the pair had it from the start. -/
def RefusalStands (allowed : Nat → Prop) (reset₀ : ResetStateByAccount) (log : List Logged)
    (status : Rat) : Prop :=
  RefusedSend key ids allowed log status ∨
  ∃ p, savedPair reset₀ key = some p ∧ p.ids = ids ∧ p.rejectedStatus = some status ∧
    (∀ e ∈ log, e.recordsRefusal key ids = none) ∧ allowed (unknownAnswersIn key ids log)

variable {key ids}

@[simp] theorem unknownAnswersIn_nil : unknownAnswersIn key ids [] = 0 := rfl

theorem unknownAnswersIn_cons (e : Logged) (log : List Logged) :
    unknownAnswersIn key ids (e :: log) =
      unknownAnswersIn key ids log + if e.writesUnknown key ids then 1 else 0 :=
  List.countP_cons ..

theorem unknownAnswersIn_append (newer older : List Logged) :
    unknownAnswersIn key ids (newer ++ older) =
      unknownAnswersIn key ids newer + unknownAnswersIn key ids older :=
  List.countP_append ..

theorem unknownAnswersIn_cons_quiet {e : Logged} (log : List Logged)
    (h : e.writesUnknown key ids = false) :
    unknownAnswersIn key ids (e :: log) = unknownAnswersIn key ids log := by
  rw [unknownAnswersIn_cons, h]
  rfl

theorem quiet_writesUnknown {e : Logged} (h : e.answerWritten key = none) :
    e.writesUnknown key ids = false := by
  simp [Logged.writesUnknown, h]

theorem quiet_recordsRefusal {e : Logged} (h : e.answerWritten key = none) :
    e.recordsRefusal key ids = none := by
  simp [Logged.recordsRefusal, h]

/-- An access that hands out a pair writes no answer. -/
theorem handed_quiet {e : Logged} {p : SavedResetPair} (h : e.handed key = some p) :
    e.answerWritten key = none := by
  obtain ⟨t, at_, entry⟩ := e
  cases entry with
  | mutated m uuid result before after =>
      cases m with
      | unreconciled k completing outcome sentAs => cases h
      | _ => rfl
  | _ => rfl

/-- An entry that records no refusal and writes no unknown answer of the pair
leaves a refusal standing. -/
theorem RefusalStands.cons {allowed : Nat → Prop} {reset₀ : ResetStateByAccount}
    {log : List Logged} {status : Rat} {e : Logged}
    (h : RefusalStands key ids allowed reset₀ log status)
    (hu : e.writesUnknown key ids = false) (hr : e.recordsRefusal key ids = none) :
    RefusalStands key ids allowed reset₀ (e :: log) status := by
  rcases h with ⟨later, write, sending, access, earlier, p, target, outcome, rfl, hw, hl, hs, ha,
    hh, hp, hn⟩ | ⟨p, hp, hids, hst, hl, hn⟩
  · refine .inl ⟨e :: later, write, sending, access, earlier, p, target, outcome, rfl, hw, ?_, hs,
      ha, hh, hp, ?_⟩
    · exact List.forall_mem_cons.mpr ⟨hr, hl⟩
    · rw [List.cons_append, unknownAnswersIn_cons_quiet _ hu]
      exact hn
  · refine .inr ⟨p, hp, hids, hst, List.forall_mem_cons.mpr ⟨hr, hl⟩, ?_⟩
    rw [unknownAnswersIn_cons_quiet _ hu]
    exact hn

end Answers

/-! ## The count of a saved pair -/

section Count

variable {key : String} {reset₀ : ResetStateByAccount} {log : List Logged}

/-- Every pair that an answer was written over has an id that `randomUUID` will
not give again. -/
theorem written_issued (h : History key reset₀ (idsAt reset₀ key) log) :
    ∀ e ∈ log, ∀ a, e.answerWritten key = some a →
      a.persisted.redeemRequestId ∈ issued (idsAt reset₀ key) log := by
  induction log with
  | nil => simp
  | cons e log ih =>
      refine List.forall_mem_cons.mpr ⟨fun a ha => ?_, fun e' he' a ha =>
        issued_mono (ih h.tail e' he' a ha)⟩
      cases history_effect h with
      | same quiet unminted saved => simp [quiet] at ha
      | mint uuid credit account quiet mints fresh issues saved allowed => simp [quiet] at ha
      | clear quiet unminted saved => simp [quiet] at ha
      | answer b target written unminted writtenOver matching_ grounds saved =>
          rw [written] at ha
          cases ha
          exact issued_mono (saved_issued h.tail (record_of_valid writtenOver).1)

/-- No unknown answer was written for a pair whose id is still to be given. -/
theorem unknownAnswersIn_fresh (h : History key reset₀ (idsAt reset₀ key) log) {ids : PairIds}
    (hfresh : ids.redeemRequestId ∉ issued (idsAt reset₀ key) log) :
    unknownAnswersIn key ids log = 0 := by
  refine List.countP_eq_zero.mpr fun e he hu => hfresh ?_
  obtain ⟨a, ha, hids⟩ := (Option.any_eq_true _ _).mp hu
  have hmem := written_issued h e he a ha
  simp only [decide_eq_true_eq] at hids
  rw [← hids.1]
  exact hmem

/-- The count the pair `ids` had at the start. -/
def countAtStart (key : String) (reset₀ : ResetStateByAccount) (ids : PairIds) : Nat :=
  match savedPair reset₀ key with
  | some p => if p.ids = ids then p.unknown else 0
  | none => 0

theorem countAtStart_fresh {ids : PairIds} (hfresh : ids.redeemRequestId ∉ idsAt reset₀ key) :
    countAtStart key reset₀ ids = 0 := by
  unfold countAtStart
  cases hp : savedPair reset₀ key with
  | none => rfl
  | some p =>
      refine if_neg ?_
      rintro rfl
      exact hfresh (recordIds_idsAt (record_of_valid hp).1)

/-- The count of the saved pair is that of the unknown answers written for it,
as far as the count is read back. -/
theorem saved_count (h : History key reset₀ (idsAt reset₀ key) log) {p : SavedResetPair}
    (hp : savedPair (current reset₀ log) key = some p) :
    p.unknown = (countAtStart key reset₀ p.ids + unknownAnswersIn key p.ids log) %
      countModulus := by
  induction log generalizing p with
  | nil =>
      have hle := unknown_le hp
      have hstart : countAtStart key reset₀ p.ids = p.unknown := by
        unfold countAtStart
        rw [show savedPair reset₀ key = some p from hp]
        exact if_pos rfl
      have hlt : p.unknown < countModulus := Nat.lt_succ_of_le hle
      rw [hstart, unknownAnswersIn_nil, Nat.add_zero, Nat.mod_eq_of_lt hlt]
  | cons e log ih =>
      cases history_effect h with
      | same quiet unminted saved =>
          rw [unknownAnswersIn_cons_quiet _ (quiet_writesUnknown quiet)]
          exact ih h.tail (by rw [← saved]; exact hp)
      | mint uuid credit account quiet mints fresh issues saved allowed =>
          -- The id is new: nothing was counted for it yet.
          obtain rfl := saved p hp
          rw [unknownAnswersIn_cons_quiet _ (quiet_writesUnknown quiet),
            unknownAnswersIn_fresh h.tail fresh,
            countAtStart_fresh fun hm => fresh (issued_start hm)]
          rfl
      | clear quiet unminted saved =>
          rw [saved] at hp
          cases hp
      | answer a target written unminted writtenOver matching_ grounds saved =>
          have hbefore := ih h.tail writtenOver
          have hids : p.ids = a.persisted.ids := by simp [saved p hp]
          rw [unknownAnswersIn_cons, hids]
          cases hr : isRefusedConsume a.outcome with
          | true =>
              have hq : e.writesUnknown key a.persisted.ids = false := by
                simp [Logged.writesUnknown, written, hr]
              rw [hq, saved p hp,
                unreconciled_refused_unknown _ _ _ (savedPair_stable writtenOver).2 hr, hbefore]
              rfl
          | false =>
              have hq : e.writesUnknown key a.persisted.ids = true := by
                simp [Logged.writesUnknown, written, hr]
              rw [hq, saved p hp, unreconciled_unknown _ _ _ (unknown_le writtenOver) hr, hbefore,
                Nat.mod_add_mod]
              rfl

/-- So is the count that an access to the store hands out. -/
theorem handed_count {e : Logged} (h : History key reset₀ (idsAt reset₀ key) (e :: log))
    {p : SavedResetPair} (hp : e.handed key = some p) :
    p.unknown = (countAtStart key reset₀ p.ids + unknownAnswersIn key p.ids (e :: log)) %
      countModulus := by
  rw [unknownAnswersIn_cons_quiet _ (quiet_writesUnknown (handed_quiet hp))]
  rcases handed_cases h hp with ⟨hsaved, -⟩ | ⟨uuid, credit, account, rfl, hfresh, -⟩
  · exact saved_count h.tail hsaved
  · rw [unknownAnswersIn_fresh h.tail hfresh,
      countAtStart_fresh fun hm => hfresh (issued_start hm)]
    rfl

/-- No unknown answer, or so many that their count wraps around. -/
def NoneOrWrapped (n : Nat) : Prop :=
  n = 0 ∨ countModulus ≤ n

theorem noneOrWrapped_of_mod {a b n : Nat} (h : (a + (n + b)) % countModulus =
    (a + b) % countModulus) : NoneOrWrapped n := by
  have hsub : a + (n + b) - (a + b) = n := by omega
  have hn := Nat.sub_mod_eq_zero_of_mod_eq h
  rw [hsub] at hn
  rcases Nat.eq_zero_or_pos n with h0 | hpos
  · exact .inl h0
  · exact .inr (Nat.le_of_dvd hpos (Nat.dvd_of_mod_eq_zero hn))

/-- A recorded refusal comes from a send since whose reading the count of
unknown answers is the same. -/
theorem refusedSend_of_written {e : Logged} (h : History key reset₀ (idsAt reset₀ key) (e :: log))
    {a : AnswerWritten} (hw : e.answerWritten key = some a)
    (hsaved : savedPair (current reset₀ log) key = some a.persisted)
    (hmatch : a.persisted.ids = a.completing.ids) {target : ResetResolvedTarget}
    (ha : Answered key (own e.attempt log) target a.completing a.outcome)
    (hr : isRefusedConsume a.outcome = true) (hcount : a.persisted.unknown = a.completing.unknown)
    {status : Rat} (hs : a.outcome.status = some status) :
    RefusedSend key a.persisted.ids NoneOrWrapped (e :: log) status := by
  obtain ⟨ans, sent, access, rest, hown, hans, hsent, hhanded⟩ := ha
  replace hown : own e.attempt log = [ans, sent] ++ access :: rest := hown
  obtain ⟨sending, earlier, rfl, hsending, -, hat⟩ := own_split hown
  refine ⟨[], e, sending, access, earlier, a.completing, target, a.outcome, rfl, ?_, by simp, ?_,
    hat, hhanded, hmatch.symm, ?_⟩
  · simp [Logged.recordsRefusal, hw, hr, hcount, hs]
  · rw [hsending, hmatch]
    simp [hans, hsent]
  · -- The count at the write and the count the access handed out are equal.
    have hnow := saved_count h.tail hsaved
    have hthen := handed_count (History.older h.tail) hhanded
    rw [unknownAnswersIn_append] at hnow
    rw [← hcount, ← hmatch, hnow] at hthen
    have hq : e.writesUnknown key a.persisted.ids = false := by
      simp [Logged.writesUnknown, hw, hr]
    rw [List.nil_append, unknownAnswersIn_cons_quiet _ hq]
    exact noneOrWrapped_of_mod hthen

/-- In every history, a refusal that the saved pair carries stands. -/
theorem history_refusal_stands (h : History key reset₀ (idsAt reset₀ key) log)
    {p : SavedResetPair} (hp : savedPair (current reset₀ log) key = some p) {status : Rat}
    (hs : p.rejectedStatus = some status) :
    RefusalStands key p.ids NoneOrWrapped reset₀ log status := by
  induction log generalizing p status with
  | nil => exact .inr ⟨p, hp, rfl, hs, by simp, .inl rfl⟩
  | cons e log ih =>
      cases history_effect h with
      | same quiet unminted saved =>
          rw [saved] at hp
          exact (ih h.tail hp hs).cons (quiet_writesUnknown quiet) (quiet_recordsRefusal quiet)
      | mint uuid credit account quiet mints fresh issues saved allowed =>
          rw [saved p hp] at hs
          cases hs
      | clear quiet unminted saved =>
          rw [saved] at hp
          cases hp
      | answer a target written unminted writtenOver matching_ grounds saved =>
          have hids : p.ids = a.persisted.ids := by simp [saved p hp]
          rw [saved p hp] at hs
          rw [hids]
          cases hr : isRefusedConsume a.outcome with
          | false =>
              rw [unreconciled_status _ _ _ hr] at hs
              cases hs
          | true =>
              rw [unreconciled_refused_status _ _ _ (savedPair_stable writtenOver).2 hr] at hs
              split at hs
              · rename_i hcount
                exact .inl (refusedSend_of_written h written writtenOver matching_ grounds hr hcount hs)
              · -- The count moved on: the refusal on record is an older one.
                rename_i hcount
                refine (ih h.tail writtenOver hs).cons ?_ ?_
                · simp [Logged.writesUnknown, written, hr]
                · simp [Logged.recordsRefusal, written, hcount]

end Count

/-! ## Every run -/

/-- `e` put the new pair `new` in the place of `old`, which was saved under the
account that spends now or under none yet. -/
def ReplacesSameAccount (key : String) (reset₀ : ResetStateByAccount) (e : Logged)
    (before : List Logged) (old new : SavedResetPair) : Prop :=
  ∃ account, e.mints key = some (new, account) ∧
    savedPair (current reset₀ before) key = some old ∧
    (old.chatgptAccountId = none ∨ old.chatgptAccountId = account)

/-- What is to hold of a world that attempts on `key` reached from `reset₀`:
the refusal its saved pair carries stands, and so did that of every pair of the
same account that a claim replaced on the way. -/
def RefusalsStand (allowed : Nat → Prop) (key : String) (reset₀ : ResetStateByAccount)
    (w : World) : Prop :=
  (∀ p status, savedPair w.reset key = some p → p.rejectedStatus = some status →
    RefusalStands key p.ids allowed reset₀ w.log status) ∧
  ∀ newer e older old new, w.log = newer ++ e :: older →
    ReplacesSameAccount key reset₀ e older old new →
    ∃ status, old.rejectedStatus = some status ∧
      RefusalStands key old.ids allowed reset₀ older status

theorem replaced_refused {key : String} {reset₀ : ResetStateByAccount} {ids₀ : List String}
    {e : Logged} {log : List Logged} (h : History key reset₀ ids₀ (e :: log))
    {old new : SavedResetPair} (hr : ReplacesSameAccount key reset₀ e log old new) :
    isYoungerThanInFlightTtl old e.at_ = false ∧ ∃ status, old.rejectedStatus = some status := by
  obtain ⟨account, hm, hold, hsame⟩ := hr
  cases history_effect h with
  | mint uuid credit account' quiet mints fresh issues saved allowed =>
      rw [mints] at hm
      cases hm
      obtain ⟨hage, hmay⟩ := allowed old hold
      refine ⟨hage, Option.isSome_iff_exists.mp ?_⟩
      unfold mayReplaceExpiredPair at hmay
      rcases hsame with hnone | hacc
      · simpa [hnone] using hmay
      · simpa [hacc] using hmay
  | same quiet unminted saved => simp [unminted] at hm
  | clear quiet unminted saved => simp [unminted] at hm
  | answer a target written unminted writtenOver matching_ grounds saved => simp [unminted] at hm

/-- In every world reached, the refusal a saved pair carries was got by a send
since whose reading of the pair no unknown answer of it was written, or 2^53 of
them; and no pair of the same account was replaced on other grounds. -/
theorem refusals_stand (key : String) (reset₀ : ResetStateByAccount) :
    ∀ w, Reaches key reset₀ w → RefusalsStand NoneOrWrapped key reset₀ w := by
  intro w hw
  have hrec := reaches_history hw
  refine ⟨fun p status hp hs => ?_, fun newer e older old new hlog hr => ?_⟩
  · rw [hrec.reset] at hp
    exact history_refusal_stands hrec.history hp hs
  · have hh : History key reset₀ (idsAt reset₀ key) (e :: older) :=
      History.older (hlog ▸ hrec.history)
    obtain ⟨-, status, hs⟩ := replaced_refused hh hr
    obtain ⟨account, -, hold, -⟩ := hr
    exact ⟨status, hs, history_refusal_stands hh.tail hold hs⟩

/-! ## Counts that wrap around

One pair on the main account, retried any number of times. -/

/-- A pair with a stored count of unknown answers. -/
def counted (n : Option Nat) : SavedResetPair where
  redeemRequestId := "request"
  creditId := "credit"
  startedAt := 0
  chatgptAccountId := some "account"
  unknownAnswers := n

/-- A store that saves `p` for the main account, and nothing else. -/
def saving (p : SavedResetPair) : ResetStateByAccount :=
  Function.update (fun _ => none) "main" (some { inFlight := some p.toJson })

def mainTarget : ResetResolvedTarget := ⟨"main", "main", "token", some "account"⟩

/-- A retry on the main account. -/
def retry : Prog calls (Except RedemptionError RunResetCreditResult) :=
  (runResetCreditRedemption ⟨"main", "account", true⟩).run

/-- The choices that take a retry to its answer `a`. -/
def untilAnswer (a : FetchAnswer) : List Choice :=
  [.target (.ok mainTarget), .store .done "", .none, .none, .answer a]

theorem validInFlight_counted (n : Option Nat) :
    validInFlight (some (counted n).toJson) = some (counted n).reread := by
  rw [validInFlight_toJson]
  exact if_pos ⟨by simp [counted], by simp [counted], by simp [counted]⟩

theorem state_saving (p : SavedResetPair) :
    resetStateForAccount (saving p) "main" = some { inFlight := some p.toJson } := by
  have : isSafeResetAccountKey "main" = true := by decide
  simp [resetStateForAccount, saving, this]

theorem inspect_saving (n : Option Nat) :
    inspectResetState (resetStateForAccount (saving (counted n)) "main") 0 =
      .claim (some { inFlight := some (counted n).toJson }) (replaying (counted n).reread) := by
  have hyoung : isYoungerThanInFlightTtl (counted n).reread 0 = true := by
    show decide ((0 : Rat) - 0 < resetInFlightTtlMs) = true
    decide +kernel
  rw [state_saving]
  simp [inspectResetState, hasInFlightField, validInFlight_counted, cooldownActive, hyoung]

def answeredLog (t : Nat) (n : Option Nat) (a : FetchAnswer) (log : List Logged) : List Logged :=
  ⟨t, 0, .answered (consumeOutcome a)⟩ :: ⟨t, 0, .sent mainTarget ⟨"credit", "request"⟩⟩ ::
    ⟨t, 0, .loaded (saving (counted n))⟩ :: ⟨t, 0, .resolved mainTarget⟩ :: log

theorem retry_waits (t : Nat) (n : Option Nat) (ids : List String) (log : List Logged)
    (a : FetchAnswer)
    (hf : finalizeResetAttempt "main" (counted n).reread (consumeOutcome a) (some "account") =
      mutateAccounts (.unreconciled "main" (counted n).reread (consumeOutcome a) (some "account"))) :
    ∃ k, machine.drive t (untilAnswer a) retry ⟨0, saving (counted n), ids, log⟩ =
      some (.call (.mutateAccounts (.unreconciled "main" (counted n).reread (consumeOutcome a)
        (some "account"))) k, ⟨0, saving (counted n), ids, answeredLog t n a log⟩) := by
  have hdrive : machine.drive t (untilAnswer a) retry ⟨0, saving (counted n), ids, log⟩ =
      machine.drive t [.none, .answer a] (repairCorrupt "main" (inspectResetState
          (resetStateForAccount (saving (counted n)) "main") 0) >>=
        redeem ⟨"main", "account", true⟩ mainTarget).run
        ⟨0, saving (counted n), ids,
          ⟨t, 0, .loaded (saving (counted n))⟩ :: ⟨t, 0, .resolved mainTarget⟩ :: log⟩ := rfl
  have hsend : ∃ F, machine.drive t [.none, .answer a] (repairCorrupt "main" (.claim
          (some { inFlight := some (counted n).toJson }) (replaying (counted n).reread)) >>=
        redeem ⟨"main", "account", true⟩ mainTarget).run ⟨0, saving (counted n), ids,
          ⟨t, 0, .loaded (saving (counted n))⟩ :: ⟨t, 0, .resolved mainTarget⟩ :: log⟩ =
      some ((Throwing.attempt (finalizeResetAttempt "main" (counted n).reread (consumeOutcome a)
          (some "account")) >>= F).run,
        ⟨0, saving (counted n), ids, answeredLog t n a log⟩) := ⟨_, rfl⟩
  obtain ⟨F, hsend⟩ := hsend
  rw [hdrive, inspect_saving, hsend, hf]
  exact ⟨_, rfl⟩

theorem unreconciled_saving {p completing : SavedResetPair} (outcome : ResetConsumeOutcome)
    (sentAs : Option String) (hp : p.Readable) (hids : p.ids = completing.ids) :
    (unreconciledMutation "main" completing outcome sentAs (saving p)).2 =
      saving (p.reread.unreconciled completing outcome sentAs) := by
  have hmatch : savedPairMatching (some { inFlight := some p.toJson }) completing =
      some p.reread := by
    simp [savedPairMatching, validInFlight_toJson, hp, Option.filter, hids]
  simp only [unreconciledMutation, state_saving, hmatch]
  simp [saving]

/-- The count that is stored after `n` unknown answers. -/
def stored (n : Nat) : Option Nat :=
  if n = 0 then none else some n

theorem counted_unknown {n : Nat} (h : n < countModulus) :
    (counted (stored n)).reread.unknown = n := by
  have hle : n ≤ maxSafeInteger := Nat.le_of_lt_succ h
  unfold stored
  split
  · rename_i h0
    exact h0.symm
  · rename_i h0
    simp [counted, SavedResetPair.reread, SavedResetPair.unknown, Option.filter, hle,
      Nat.pos_of_ne_zero h0]

theorem counted_readable (n : Option Nat) : (counted n).Readable :=
  ⟨by simp [counted], by simp [counted], by simp [counted]⟩

/-- The ids all of them send. -/
def countedIds : PairIds := ⟨"credit", "request"⟩

/-- Attempt 0 waits at `waiting` with its refusal, and `n` unknown answers were
written after `base`. -/
structure Looped (waiting : Prog calls (Except RedemptionError RunResetCreditResult))
    (base : List Logged) (n : Nat) (c : RedemptionConfig) : Prop where
  waits : c.thread 0 = some waiting
  started : 0 < c.next
  world : ∃ ids newer, c.world = ⟨0, saving (counted (stored n)), ids, newer ++ base⟩ ∧
    (∀ e ∈ newer, e.attempt ≠ 0) ∧ unknownAnswersIn "main" countedIds newer = n

theorem unknown_counted (n : Option Nat) (completing : SavedResetPair) :
    (counted n).reread.unreconciled completing (consumeOutcome .rejected) (some "account") =
      counted (some ((counted n).reread.unknown + 1)) := rfl

/-- The answer a retry records when the server's answer is lost. -/
def lostAnswer (n : Nat) : Mutation :=
  .unreconciled "main" (counted (stored n)).reread (consumeOutcome .rejected) (some "account")

theorem lostAnswer_apply {n : Nat} (hn : n < countModulus) :
    ((lostAnswer n).apply 0 "" (saving (counted (stored n)))).2 =
      saving (counted (stored (n + 1))) := by
  have hsave := unreconciled_saving (consumeOutcome .rejected) (some "account")
    (counted_readable (stored n)) (show (counted (stored n)).ids =
      (counted (stored n)).reread.ids from rfl)
  rw [unknown_counted, counted_unknown hn] at hsave
  exact hsave

/-- A retry whose answer is lost counts one more unknown answer. -/
theorem retry_counts (t n : Nat) (hn : n < countModulus) (ids : List String)
    (log : List Logged) :
    ∃ q e, machine.drive t (untilAnswer .rejected ++ [.store .done ""]) retry
        ⟨0, saving (counted (stored n)), ids, log⟩ =
      some (q, ⟨0, saving (counted (stored (n + 1))), ids,
        e :: answeredLog t (stored n) .rejected log⟩) ∧
      e.attempt = t ∧ e.writesUnknown "main" countedIds = true := by
  obtain ⟨k, hk⟩ := retry_waits t (stored n) ids log .rejected rfl
  refine ⟨k (.ok ((lostAnswer n).apply 0 "" (saving (counted (stored n)))).1),
    ⟨t, 0, .mutated (lostAnswer n) "" .done (saving (counted (stored n)))
      (saving (counted (stored (n + 1))))⟩,
    (Machine.drive_append _ _ _ _ _).trans ?_, rfl, ?_⟩
  · rw [hk, ← lostAnswer_apply hn]
    rfl
  · have hmatch : savedPairMatching (some { inFlight := some (counted (stored n)).toJson })
        (counted (stored n)).reread = some (counted (stored n)).reread := by
      simp [savedPairMatching, validInFlight_counted, Option.filter]
    simp only [Logged.writesUnknown, Logged.answerWritten, lostAnswer, state_saving, hmatch]
    rfl

theorem isAttempt_retry : IsAttempt "main" retry := ⟨"account", true, rfl⟩

/-- One more retry, and one more unknown answer. -/
theorem looped_step {waiting : Prog calls (Except RedemptionError RunResetCreditResult)}
    {base : List Logged} {n : Nat} {c : RedemptionConfig} (h : Looped waiting base n c)
    (hn : n < countModulus) :
    ∃ d, Config.RunsTo (IsAttempt "main") c d ∧ Looped waiting base (n + 1) d := by
  obtain ⟨ids, newer, hworld, hother, hcount⟩ := h.world
  have hne : c.next ≠ 0 := h.started.ne'
  obtain ⟨q, e, hdrive, he, hwrites⟩ := retry_counts c.next n hn ids (newer ++ base)
  rw [← hworld] at hdrive
  obtain ⟨d, hrun, hw, -, hnext, hthreads⟩ :=
    Machine.runsTo_start (M := machine) isAttempt_retry hdrive
  refine ⟨d, hrun, ?_, ?_, ids, e :: answeredLog c.next (stored n) .rejected newer, hw, ?_, ?_⟩
  · rw [hthreads 0 hne.symm]
    exact h.waits
  · omega
  · simp only [answeredLog, List.mem_cons]
    rintro x (rfl | rfl | rfl | rfl | rfl | hx)
    · exact he ▸ hne
    · exact hne
    · exact hne
    · exact hne
    · exact hne
    · exact hother x hx
  · rw [unknownAnswersIn_cons, hwrites]
    simp only [answeredLog]
    rw [unknownAnswersIn_cons_quiet _ rfl, unknownAnswersIn_cons_quiet _ rfl,
      unknownAnswersIn_cons_quiet _ rfl, unknownAnswersIn_cons_quiet _ rfl, hcount]
    rfl

theorem looped_run {waiting : Prog calls (Except RedemptionError RunResetCreditResult)}
    {base : List Logged} {c : RedemptionConfig} (h : Looped waiting base 0 c) (n : Nat)
    (hn : n ≤ countModulus) :
    ∃ d, Config.RunsTo (IsAttempt "main") c d ∧ Looped waiting base n d := by
  induction n with
  | zero => exact ⟨c, .refl, h⟩
  | succ n ih =>
      obtain ⟨d, hrun, hd⟩ := ih (Nat.le_of_succ_le hn)
      obtain ⟨d', hrun', hd'⟩ := looped_step hd hn
      exact ⟨d', hrun.trans hrun', hd'⟩

/-- The refusal a retry brings home. -/
def refusal : ResetConsumeOutcome where
  kind := .httpError
  raw := .error
  status := some 400

theorem refusal_eq : consumeOutcome (.response 400 .failed) = refusal := by
  decide +kernel

theorem isRefusedConsume_refusal : isRefusedConsume refusal = true := by
  decide +kernel

/-- A retry that has got its refusal and is about to write it. -/
theorem refused_waits : ∃ k, machine.drive 0 (untilAnswer (.response 400 .failed)) retry
      (World.initial 0 (saving (counted none)) "main") =
    some (.call (.mutateAccounts (.unreconciled "main" (counted none).reread refusal
        (some "account"))) k,
      ⟨0, saving (counted none), ["request"],
        answeredLog 0 none (.response 400 .failed) []⟩) := by
  have hf : finalizeResetAttempt "main" (counted none).reread
      (consumeOutcome (.response 400 .failed)) (some "account") =
      mutateAccounts (.unreconciled "main" (counted none).reread
        (consumeOutcome (.response 400 .failed)) (some "account")) := by
    rw [refusal_eq]
    rfl
  obtain ⟨k, hk⟩ := retry_waits 0 none ["request"] [] (.response 400 .failed) hf
  rw [refusal_eq] at hk
  exact ⟨k, hk⟩

/-- What the refused retry writes. -/
def lateRefusal : Mutation :=
  .unreconciled "main" (counted none).reread refusal (some "account")

theorem counted_wrapped : (counted (stored countModulus)).reread = counted none := by
  have hne : ¬ countModulus ≤ maxSafeInteger := Nat.not_succ_le_self maxSafeInteger
  have hpos : countModulus ≠ 0 := Nat.succ_ne_zero maxSafeInteger
  simp [counted, SavedResetPair.reread, stored, Option.filter, hne, hpos]

/-- The pair once the refusal is written: its count is back where it was. -/
def wrappedPair : SavedResetPair :=
  { counted none with rejectedStatus := some 400 }

section Late

variable {n : Option Nat} (hn : (counted n).reread = counted none)

include hn

theorem lateRefusal_apply :
    (lateRefusal.apply 0 "" (saving (counted n))).2 = saving wrappedPair := by
  have hsave := unreconciled_saving refusal (some "account") (counted_readable n)
    (show (counted n).ids = (counted none).reread.ids from rfl)
  have hnext : (counted none).unreconciled (counted none).reread refusal (some "account") =
      wrappedPair := by
    unfold SavedResetPair.unreconciled
    rw [if_pos isRefusedConsume_refusal]
    rfl
  rw [hn, hnext] at hsave
  exact hsave

omit hn in
/-- The log entry of that write. -/
def lateEntry (n : Option Nat) : Logged :=
  ⟨0, 0, .mutated lateRefusal "" .done (saving (counted n)) (saving wrappedPair)⟩

theorem lateEntry_records : (lateEntry n).recordsRefusal "main" countedIds = some 400 := by
  have hmatch : savedPairMatching (some { inFlight := some (counted n).toJson })
      (counted none).reread = some (counted none) := by
    rw [savedPairMatching, Option.bind_some, validInFlight_counted, hn]
    rfl
  have hwritten : (lateEntry n).answerWritten "main" =
      some ⟨counted none, (counted none).reread, refusal, some "account"⟩ := by
    simp only [Logged.answerWritten, lateEntry, lateRefusal, state_saving, hmatch]
    rfl
  have hids : (counted none).ids = countedIds := rfl
  have hcount : (counted none).unknown = (counted none).reread.unknown := rfl
  simp [Logged.recordsRefusal, hwritten, hids, hcount, isRefusedConsume_refusal]
  rfl

theorem lateRefusal_step
    (k : (Except Unit lateRefusal.Answer) → Prog calls (Except RedemptionError RunResetCreditResult))
    (ids : List String) (log : List Logged) :
    machine.drive 0 [.store .done ""] (.call (.mutateAccounts lateRefusal) k)
        ⟨0, saving (counted n), ids, log⟩ =
      some (k (.ok (lateRefusal.apply 0 "" (saving (counted n))).1),
        ⟨0, saving wrappedPair, ids, lateEntry n :: log⟩) := by
  rw [lateEntry, ← lateRefusal_apply hn]
  rfl

end Late

/-- A refused retry with nothing in between. -/
theorem reaches_refused : Reaches "main" (saving (counted none))
    ⟨0, saving wrappedPair, ["request"],
      lateEntry none :: answeredLog 0 none (.response 400 .failed) []⟩ := by
  obtain ⟨k, hk⟩ := refused_waits
  obtain ⟨c, hrun, hw, hq, -, -⟩ := Machine.runsTo_start (M := machine)
    (c := Config.initial (World.initial 0 (saving (counted none)) "main")) isAttempt_retry hk
  have hstep := lateRefusal_step (n := none) rfl k ["request"]
    (answeredLog 0 none (.response 400 .failed) [])
  rw [← hw] at hstep
  obtain ⟨d, hrun', hw', -⟩ := Machine.runsTo_drive (M := machine) (IsAttempt "main") hq hstep
  exact ⟨0, d, hrun.trans hrun', hw'⟩

theorem savedPair_wrapped : savedPair (saving wrappedPair) "main" = some wrappedPair.reread := by
  rw [savedPair, state_saving, Option.bind_some, validInFlight_toJson]
  exact if_pos ⟨by simp [wrappedPair, counted], by simp [wrappedPair, counted],
    by simp [wrappedPair, counted]⟩

theorem refusals_stand_refused :
    ∃ w p, Reaches "main" (saving (counted none)) w ∧ savedPair w.reset "main" = some p ∧
      p.rejectedStatus = some 400 ∧
      RefusalsStand NoneOrWrapped "main" (saving (counted none)) w :=
  ⟨_, _, reaches_refused, savedPair_wrapped, by decide +kernel,
    refusals_stand _ _ _ reaches_refused⟩

/-- A refused retry that reads the pair, waits through 2^53 unknown answers of
it, and records its refusal over the count that has come round. -/
theorem reaches_wrapped : ∃ ids newer,
    Reaches "main" (saving (counted none))
      ⟨0, saving wrappedPair, ids,
        lateEntry (stored countModulus) :: (newer ++ answeredLog 0 none (.response 400 .failed) [])⟩ ∧
    (∀ e ∈ newer, e.attempt ≠ 0) ∧ unknownAnswersIn "main" countedIds newer = countModulus := by
  obtain ⟨k, hk⟩ := refused_waits
  obtain ⟨c, hrun, hw, hq, hnext, -⟩ := Machine.runsTo_start (M := machine)
    (c := Config.initial (World.initial 0 (saving (counted none)) "main")) isAttempt_retry hk
  have hloop : Looped _ (answeredLog 0 none (.response 400 .failed) []) 0 c :=
    ⟨hq, by rw [hnext]; exact Nat.succ_pos _, ["request"], [], hw, by simp, rfl⟩
  obtain ⟨d, hrun', hd⟩ := looped_run hloop countModulus le_rfl
  obtain ⟨ids, newer, hworld, hother, hcount⟩ := hd.world
  have hstep := lateRefusal_step counted_wrapped k ids (newer ++ answeredLog 0 none (.response 400 .failed) [])
  rw [← hworld] at hstep
  obtain ⟨d', hrun'', hw', -⟩ :=
    Machine.runsTo_drive (M := machine) (IsAttempt "main") hd.waits hstep
  exact ⟨ids, newer, ⟨0, d', (hrun.trans hrun').trans hrun'', hw'⟩, hother, hcount⟩

/-- Counted modulo 2^53, unknown answers can hide behind a recorded refusal. -/
theorem refusal_outlives_wrapped_count :
    ¬ ∀ key reset₀ w, Reaches key reset₀ w → RefusalsStand (· = 0) key reset₀ w := by
  intro hall
  obtain ⟨ids, newer, hreach, hother, hcount⟩ := reaches_wrapped
  have hstatus : wrappedPair.reread.rejectedStatus = some 400 := by
    decide +kernel
  rcases (hall _ _ _ hreach).1 _ _ savedPair_wrapped hstatus with
    ⟨later, write, sending, access, earlier, p, target, outcome, hlog, hw, hl, -, ha, -, -, hn⟩ |
    ⟨p, hp, -, hs, -⟩
  · cases later with
    | nil =>
        obtain ⟨rfl, hrest⟩ := List.cons.inj hlog
        -- The access is the refused attempt's own, so all the unknown answers came since.
        have hle : unknownAnswersIn "main" countedIds newer ≤
            unknownAnswersIn "main" countedIds sending := by
          rcases List.append_eq_append_iff.mp hrest with ⟨mid, rfl, -⟩ | ⟨mid, rfl, hmid⟩
          · rw [unknownAnswersIn_append]
            exact Nat.le_add_right _ _
          · cases mid with
            | nil => simp
            | cons x mid =>
                obtain ⟨rfl, -⟩ := List.cons.inj hmid
                exact absurd ha (hother _ (by simp))
        have hzero : unknownAnswersIn "main" countedIds sending = 0 := by
          rw [List.nil_append, unknownAnswersIn_cons] at hn
          exact (Nat.add_eq_zero_iff.mp hn).1
        rw [hcount, hzero] at hle
        exact Nat.not_succ_le_zero _ hle
    | cons x later =>
        obtain ⟨rfl, -⟩ := List.cons.inj hlog
        have hnone := hl _ List.mem_cons_self
        rw [show wrappedPair.reread.ids = countedIds from rfl, lateEntry_records counted_wrapped] at hnone
        cases hnone
  · rw [savedPair, state_saving, Option.bind_some, validInFlight_counted] at hp
    cases hp
    cases hs

end ResetCredits
