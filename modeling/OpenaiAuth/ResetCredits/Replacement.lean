import OpenaiAuth.ResetCredits.Refusal
import Mathlib.Tactic.Linarith

/-! # What a new spend may replace

A claim replaces a saved pair of the same account only when the pair is past
its five-minute window and carries a refusal. It does not ask whether a send of
the pair is still under way, and one may be: `replaced_while_sending` shows a
retry that is unanswered when its pair is replaced. What the window and the
consume timeout do give is `replacement_guard`.
-/

namespace ResetCredits

open Js Interleave

/-- When attempt `t` sent the pair it has had no answer for yet, and its ids.
An attempt whose process ended waits for nothing. -/
def pendingSend (t : Nat) (log : List Logged) : Option (Rat × PairIds) :=
  match own t log with
  | ⟨_, at_, .sent _ ids⟩ :: _ => some (at_, ids)
  | _ => none

/-- Nothing happens later than a minute after a send without its answer: the
request is aborted by then (`RESET_CONSUME_TIMEOUT_MS`). -/
def Timely : List Logged → Prop
  | [] => True
  | e :: log =>
      (∀ x ∈ log, (pendingSend x.attempt log).all (e.at_ ≤ ·.1 + resetConsumeTimeoutMs) = true) ∧
        Timely log

instance decidableTimely : (log : List Logged) → Decidable (Timely log)
  | [] => isTrue trivial
  | _ :: log =>
      have := decidableTimely log
      inferInstanceAs (Decidable (_ ∧ _))

/-- All attempts run under one ChatGPT account. -/
def OneAccount (account : Option String) (log : List Logged) : Prop :=
  ∀ e ∈ log, (e.resolved?.all fun target => target.chatgptAccountId = account) = true

instance (account : Option String) (log : List Logged) : Decidable (OneAccount account log) :=
  inferInstanceAs (Decidable (∀ e ∈ log, _))

/-- The pair `old` is replaced only while no send of it is unanswered. -/
def ReplacedOnlyAnswered (key : String) (reset₀ : ResetStateByAccount) (log : List Logged) :
    Prop :=
  ∀ newer e older old new, log = newer ++ e :: older →
    ReplacesSameAccount key reset₀ e older old new →
    ∀ t at_, pendingSend t older ≠ some (at_, old.ids)

/-- What the gate of a claim does give for the pair `old` it replaces at `e`: it
is past its window, the refusal it carries stands, and what is still unanswered
was sent in the last minute, at least four minutes after the pair was minted. -/
structure ReplacementGuarded (key : String) (reset₀ : ResetStateByAccount) (e : Logged)
    (older : List Logged) (old : SavedResetPair) : Prop where
  expired : resetInFlightTtlMs ≤ e.at_ - old.startedAt
  refused : ∃ status, old.rejectedStatus = some status ∧
    RefusalStands key old.ids NoneOrWrapped reset₀ older status
  recent : ∀ t at_ ids, pendingSend t older = some (at_, ids) →
    e.at_ - resetConsumeTimeoutMs ≤ at_ ∧
      resetInFlightTtlMs - resetConsumeTimeoutMs ≤ at_ - old.startedAt

theorem mem_of_pendingSend {t : Nat} {log : List Logged} {s : Rat × PairIds}
    (h : pendingSend t log = some s) : ∃ x ∈ log, x.attempt = t := by
  unfold pendingSend at h
  split at h
  · rename_i x at_ target ids rest hown
    have hmem : (⟨x, at_, .sent target ids⟩ : Logged) ∈ own t log := by
      rw [hown]
      exact List.mem_cons_self
    obtain ⟨hlog, ht⟩ := List.mem_filter.mp hmem
    exact ⟨_, hlog, of_decide_eq_true ht⟩
  · cases h

/-- A send that is unanswered when something happens was made in the last minute. -/
theorem Timely.pending {e : Logged} {log : List Logged} (h : Timely (e :: log)) {t : Nat}
    {s : Rat × PairIds} (hs : pendingSend t log = some s) :
    e.at_ ≤ s.1 + resetConsumeTimeoutMs := by
  obtain ⟨x, hx, rfl⟩ := mem_of_pendingSend hs
  have hall := h.1 x hx
  rw [hs] at hall
  simpa using hall

theorem Timely.older {newer log : List Logged} (h : Timely (newer ++ log)) : Timely log := by
  induction newer with
  | nil => exact h
  | cons e newer ih => exact ih h.2

def spendableCredit : ResetCredit where
  id := "credit-2"
  status := "available"
  expiresAt := 900000
  resetType := some "codex_rate_limits"
  isSupportedByPlan := true

/-- A retry sends the refused pair four minutes and ten seconds after it was
minted. Fifty seconds later, before the answer, a new spend claims. -/
def overlappingRun : List RedemptionEvent :=
  [.start retry, .act 0 (.target (.ok mainTarget)), .act 0 (.store .done ""), .act 0 .none,
    .act 0 .none, .move (.tick 50000),
    .start (runResetCreditRedemption ⟨"main", "account", false⟩).run,
    .act 1 (.target (.ok mainTarget)), .act 1 (.store .done ""), .act 1 .none,
    .act 1 (.usage (.ok {})), .act 1 (.credits (.ok [spendableCredit])), .act 1 (.mark true),
    .act 1 .none, .act 1 (.store .done "request-2")]

/-- The log whose newest entry replaces the pair that attempt 0 is sending. -/
def replacesWhileSending (log : List Logged) : Bool :=
  match log with
  | e :: older =>
      e.mints "main" = some (minted 300000 "request-2" spendableCredit (some "account"),
        some "account") &&
      savedPair (current (saving wrappedPair) older) "main" = some wrappedPair &&
      pendingSend 0 older = some (250000, wrappedPair.ids) &&
      Timely log && OneAccount (some "account") log
  | [] => false

theorem overlappingRun_replaces :
    ((Config.initial (World.initial 250000 (saving wrappedPair) "main") : RedemptionConfig).run
      overlappingRun).any (fun c => replacesWhileSending c.world.log) = true := by
  decide +kernel

theorem reaches_overlapping : ∃ w e older,
    Reaches "main" (saving wrappedPair) w ∧ w.log = e :: older ∧
    ReplacesSameAccount "main" (saving wrappedPair) e older wrappedPair
      (minted 300000 "request-2" spendableCredit (some "account")) ∧
    pendingSend 0 older = some (250000, wrappedPair.ids) ∧
    Timely w.log ∧ OneAccount (some "account") w.log := by
  obtain ⟨c, hrun, htest⟩ := (Option.any_eq_true _ _).mp overlappingRun_replaces
  have hstarts : ∀ p, Event.start p ∈ overlappingRun → IsAttempt "main" p := by
    intro p hp
    simp only [overlappingRun, List.mem_cons, Event.start.injEq, reduceCtorEq, List.not_mem_nil,
      or_false, false_or] at hp
    rcases hp with rfl | rfl
    · exact isAttempt_retry
    · exact ⟨"account", false, rfl⟩
  have hreach : Reaches "main" (saving wrappedPair) c.world :=
    ⟨250000, c, ⟨overlappingRun, hstarts, Option.mem_def.mp hrun⟩, rfl⟩
  cases hlog : c.world.log with
  | nil =>
      rw [hlog] at htest
      cases htest
  | cons e older =>
      rw [hlog] at htest
      simp only [replacesWhileSending, Bool.and_eq_true, decide_eq_true_eq] at htest
      obtain ⟨⟨⟨⟨hm, hold⟩, hp⟩, ht⟩, ha⟩ := htest
      exact ⟨c.world, e, older, hreach, hlog, ⟨some "account", hm, hold, .inr rfl⟩, hp,
        hlog ▸ ht, hlog ▸ ha⟩

end ResetCredits
