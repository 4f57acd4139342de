import OpenaiAuth.ResetCredits.History

/-! # What each mutation does to the saved pair

One lemma for each mutation the store runs: how the pair `validInFlight` reads
from the state after it comes from the pair it reads from the state before.
-/

namespace ResetCredits

open Js

/-! ## Pairs that were read back -/

theorem safeNat?_le {q : Rat} {n : Nat} (h : safeNat? q = some n) : n ≤ maxSafeInteger := by
  unfold safeNat? at h
  split at h
  · rename_i hq
    cases h
    exact hq.2.2
  · cases h

/-- Saving a pair that was read and reading it again changes nothing. -/
theorem validInFlight_stable {value : Option Json} {p : SavedResetPair}
    (h : validInFlight value = some p) : p.Readable ∧ p.reread = p := by
  cases value with
  | none => cases h
  | some value =>
    simp only [validInFlight, Option.bind_eq_bind, Option.bind_some, Option.bind_eq_some_iff,
      guard, Option.pure_def] at h
    obtain ⟨redeem, -, _, hredeem, credit, -, _, hcredit, at_, -, _, haccount, hp⟩ := h
    cases hp
    have hr : redeem ≠ "" := by
      rintro rfl
      simp at hredeem
    have hc : credit ≠ "" := by
      rintro rfl
      simp at hcredit
    have ha : value.stringAt? "chatgptAccountId" ≠ some "" := by
      intro hs
      cases hv : value.get? "chatgptAccountId" with
      | none => simp [Json.stringAt?, hv] at hs
      | some v =>
          cases v <;> simp [Json.stringAt?, Json.string?, hv] at hs
          simp [readableAccount, hv, hs] at haccount
    refine ⟨⟨hr, hc, ha⟩, ?_⟩
    simp only [SavedResetPair.reread, Option.filter_filter, SavedResetPair.mk.injEq, true_and]
    refine ⟨by simp, ?_⟩
    cases hn : ((value.get? "unknownAnswers").bind Json.number?).bind safeNat? with
    | none => rfl
    | some n =>
        obtain ⟨q, -, hq⟩ := Option.bind_eq_some_iff.mp hn
        have hle := safeNat?_le hq
        by_cases h0 : 0 < n <;> simp [Option.filter, h0, hle]

theorem savedPair_safe {current : ResetStateByAccount} {key : String} {p : SavedResetPair}
    (h : savedPair current key = some p) : isSafeResetAccountKey key = true := by
  unfold savedPair resetStateForAccount at h
  split at h
  · assumption
  · cases h

theorem savedPair_stable {current : ResetStateByAccount} {key : String} {p : SavedResetPair}
    (h : savedPair current key = some p) : p.Readable ∧ p.reread = p :=
  validInFlight_stable h

theorem unknown_le {current : ResetStateByAccount} {key : String} {p : SavedResetPair}
    (h : savedPair current key = some p) : p.unknown ≤ maxSafeInteger := by
  have hp := congrArg SavedResetPair.unknownAnswers (savedPair_stable h).2
  simp only [SavedResetPair.reread] at hp
  unfold SavedResetPair.unknown
  cases hu : p.unknownAnswers with
  | none => exact Nat.zero_le _
  | some n =>
      rw [hu, Option.filter_eq_some_iff] at hp
      simp only [Bool.and_eq_true, decide_eq_true_eq] at hp
      exact hp.2.2

/-- A stored count is read back modulo this. -/
def countModulus : Nat := maxSafeInteger + 1

section Unreconciled

variable {p : SavedResetPair} (completing : SavedResetPair) (outcome : ResetConsumeOutcome)
  (sentAs : Option String)

@[simp] theorem reread_ids (p : SavedResetPair) : p.reread.ids = p.ids := rfl

@[simp] theorem unreconciled_ids (p : SavedResetPair) :
    (p.unreconciled completing outcome sentAs).ids = p.ids := by
  unfold SavedResetPair.unreconciled
  dsimp only
  split
  · split <;> rfl
  · rfl

@[simp] theorem unreconciled_account (p : SavedResetPair) :
    (p.unreconciled completing outcome sentAs).chatgptAccountId =
      p.chatgptAccountId.or sentAs := by
  unfold SavedResetPair.unreconciled
  dsimp only
  split
  · split <;> rfl
  · rfl

theorem reread_unknown (h : p.reread = p) :
    (p.unknownAnswers.filter fun n => 0 < n && n ≤ maxSafeInteger) = p.unknownAnswers :=
  congrArg SavedResetPair.unknownAnswers h

/-- A refusal keeps the count. -/
theorem unreconciled_refused_unknown (h : p.reread = p) (hr : isRefusedConsume outcome = true) :
    (p.unreconciled completing outcome sentAs).reread.unknown = p.unknown := by
  have hu := reread_unknown h
  unfold SavedResetPair.unreconciled
  dsimp only
  rw [if_pos hr]
  split <;> simp only [SavedResetPair.unknown, SavedResetPair.reread, hu]

/-- A refusal is recorded over an unchanged count, and otherwise leaves what
was recorded. -/
theorem unreconciled_refused_status (h : p.reread = p) (hr : isRefusedConsume outcome = true) :
    (p.unreconciled completing outcome sentAs).reread.rejectedStatus =
      if p.unknown = completing.unknown then outcome.status else p.rejectedStatus := by
  have hp : p.rejectedStatus.filter isDefiniteRefusal = p.rejectedStatus :=
    congrArg SavedResetPair.rejectedStatus h
  have ho : outcome.status.filter isDefiniteRefusal = outcome.status := by
    unfold isRefusedConsume at hr
    rw [Bool.and_eq_true] at hr
    cases hs : outcome.status with
    | none => rfl
    | some s =>
        rw [hs] at hr
        simpa [Option.filter] using hr.2
  unfold SavedResetPair.unreconciled
  dsimp only
  rw [if_pos hr]
  split
  · exact ho
  · exact hp

/-- Any other answer counts one more, and a count past the largest safe integer
is read back as none. -/
theorem unreconciled_unknown (hle : p.unknown ≤ maxSafeInteger)
    (hr : isRefusedConsume outcome = false) :
    (p.unreconciled completing outcome sentAs).reread.unknown =
      (p.unknown + 1) % countModulus := by
  unfold SavedResetPair.unreconciled
  simp only [hr, Bool.false_eq_true, if_false]
  show ((some (p.unknown + 1)).filter fun n => decide (0 < n) && decide (n ≤ maxSafeInteger)).getD 0
    = _
  by_cases hmax : p.unknown + 1 ≤ maxSafeInteger
  · have hlt : p.unknown + 1 < countModulus := Nat.lt_succ_of_le hmax
    rw [Nat.mod_eq_of_lt hlt]
    simp [Option.filter, hmax]
  · have heq : p.unknown + 1 = countModulus := by
      unfold countModulus
      omega
    rw [heq, Nat.mod_self]
    rw [heq] at hmax
    simp [Option.filter, hmax]

theorem unreconciled_status (hr : isRefusedConsume outcome = false) :
    (p.unreconciled completing outcome sentAs).reread.rejectedStatus = none := by
  unfold SavedResetPair.unreconciled
  simp [hr, SavedResetPair.reread]

end Unreconciled

/-! ## The four mutations -/

/-- What the file holds as the pair of an account. -/
def savedRecord (current : ResetStateByAccount) (accountKey : String) : Option Json :=
  (resetStateForAccount current accountKey).bind (·.inFlight)

theorem savedPair_eq (current : ResetStateByAccount) (accountKey : String) :
    savedPair current accountKey = validInFlight (savedRecord current accountKey) := rfl

/-- The pair a record names, whole or not. -/
def recordIds (record : Option Json) : Option PairIds := do
  let value ← record
  let creditId ← value.stringAt? "creditId"
  let redeemRequestId ← value.stringAt? "redeemRequestId"
  return { creditId, redeemRequestId }

/-- The account a record was bound to. -/
def recordAccount (record : Option Json) : Option String :=
  record.bind (·.stringAt? "chatgptAccountId")

@[simp] theorem recordIds_toJson (p : SavedResetPair) : recordIds (some p.toJson) = some p.ids := by
  simp [recordIds, Json.stringAt?, Json.string?, SavedResetPair.ids]

@[simp] theorem recordAccount_toJson (p : SavedResetPair) :
    recordAccount (some p.toJson) = p.chatgptAccountId := by
  cases h : p.chatgptAccountId <;> simp [recordAccount, Json.stringAt?, Json.string?, h]

theorem record_of_valid {record : Option Json} {p : SavedResetPair}
    (h : validInFlight record = some p) :
    recordIds record = some p.ids ∧ recordAccount record = p.chatgptAccountId := by
  cases record with
  | none => cases h
  | some value =>
    simp only [validInFlight, Option.bind_eq_bind, Option.bind_some, Option.bind_eq_some_iff,
      guard, Option.pure_def] at h
    obtain ⟨redeem, hr, _, -, credit, hc, _, -, at_, -, _, -, hp⟩ := h
    cases hp
    simp [recordIds, recordAccount, SavedResetPair.ids, hr, hc]

section Effects

variable {key : String} {current : ResetStateByAccount} {at_ : Rat}

theorem savedRecord_update (hsafe : isSafeResetAccountKey key = true)
    (state : ResetAccountState) :
    savedRecord (Function.update current key (some state)) key = state.inFlight := by
  simp [savedRecord, resetStateForAccount, hsafe]

theorem savedRecord_resolveCorruptState (hsafe : isSafeResetAccountKey key = true) :
    savedRecord (resolveCorruptState current key at_) key = none := by
  rw [resolveCorruptState, if_pos hsafe]
  exact savedRecord_update hsafe _

theorem inspectResetState_corrupt {b : Option ResetAccountState}
    (h : inspectResetState (resetStateForAccount current key) at_ = .corrupt b) :
    (savedRecord current key).isSome = true ∧ savedPair current key = none := by
  unfold inspectResetState at h
  simp only at h
  split at h
  · rename_i hc
    exact ⟨hc.1, Option.isNone_iff_eq_none.mp hc.2⟩
  · split at h
    · cases h
    · split at h
      · split at h <;> cases h
      · cases h

/-- The corrupt repair drops a record that is no pair, and only such a one. -/
theorem resolveCorruptMutation_effect (key : String) (current : ResetStateByAccount) (at_ : Rat)
    (hsafe : isSafeResetAccountKey key = true) :
    (resolveCorruptMutation at_ key current).2 = current ∨
    (savedPair current key = none ∧
      savedRecord (resolveCorruptMutation at_ key current).2 key = none) := by
  unfold resolveCorruptMutation
  simp only
  cases hd : inspectResetState (resetStateForAccount current key) at_ with
  | corrupt b =>
      exact .inr ⟨(inspectResetState_corrupt hd).2, savedRecord_resolveCorruptState hsafe⟩
  | _ => exact .inl rfl

/-- The pair a spend under `account` mints. -/
def minted (at_ : Rat) (uuid : String) (credit : ResetCredit) (account : Option String) :
    SavedResetPair where
  redeemRequestId := uuid
  creditId := credit.id
  startedAt := at_
  chatgptAccountId := account

theorem validInFlight_minted (uuid : String) (credit : ResetCredit) (account : Option String) :
    validInFlight (some (minted at_ uuid credit account).toJson) =
      if (minted at_ uuid credit account).Readable then some (minted at_ uuid credit account)
      else none :=
  validInFlight_toJson _

/-- A spend under `account` may mint over the record: there is none, or it is a
pair past its window that the gate lets go. -/
def MayMintOver (at_ : Rat) (account : Option String) (record : Option Json) : Prop :=
  record = none ∨ ∃ old, validInFlight record = some old ∧
    isYoungerThanInFlightTtl old at_ = false ∧ mayReplaceExpiredPair old account = true

/-- A claim leaves the saved pair alone and hands out that pair or none, or it
repairs a corrupt record, or it mints a pair. -/
theorem claimMutation_effect (key : String) (current : ResetStateByAccount) (at_ : Rat)
    (uuid : String) (credits : List ResetCredit) (account : Option String)
    (hsafe : isSafeResetAccountKey key = true) :
    ((claimMutation at_ uuid key credits account current).2 = current ∧
      ∀ b c, (claimMutation at_ uuid key credits account current).1 = .claim b c →
        savedPair current key = some c.inFlight ∧ c.selectedCredit = .onlyId c.inFlight.creditId) ∨
    (savedPair current key = none ∧
      savedRecord (claimMutation at_ uuid key credits account current).2 key = none ∧
      ∃ b, (claimMutation at_ uuid key credits account current).1 = .corrupt b) ∨
    ∃ b credit, claimMutation at_ uuid key credits account current =
        (.claim b ⟨minted at_ uuid credit account, .credit credit⟩,
          Function.update current key (some {
            (resetStateForAccount current key).getD {} with
            inFlight := some (minted at_ uuid credit account).toJson })) ∧
      MayMintOver at_ account (savedRecord current key) := by
  unfold claimMutation
  simp only
  split
  · rename_i hc
    exact .inr (.inl ⟨Option.isNone_iff_eq_none.mp hc.2, savedRecord_resolveCorruptState hsafe,
      _, rfl⟩)
  · rename_i hwhole
    cases cooldownActive (resetStateForAccount current key) at_ with
    | some cooldownUntil => exact .inl ⟨rfl, by simp⟩
    | none =>
        simp only
        split
        · rename_i young hy
          refine .inl ⟨rfl, fun b c h => ?_⟩
          obtain ⟨-, rfl⟩ := ResetStateDecision.claim.inj h
          exact ⟨(Option.filter_eq_some_iff.mp hy).1, rfl⟩
        · rename_i hy
          split
          · exact .inl ⟨rfl, by simp⟩
          · rename_i hl
            split
            · exact .inl ⟨rfl, by simp⟩
            · rename_i credit _
              refine .inr (.inr ⟨_, credit, rfl, ?_⟩)
              rw [Option.filter_eq_none_iff] at hy hl
              cases hold : savedPair current key with
              | none =>
                  -- No pair and not corrupt: there is no record at all.
                  refine .inl (by_contra fun hrecord => hwhole ⟨?_, ?_⟩)
                  · exact Option.isSome_iff_ne_none.mpr hrecord
                  · exact Option.isNone_iff_eq_none.mpr hold
              | some old =>
                  refine .inr ⟨old, hold, Bool.eq_false_iff.mpr (hy old hold), ?_⟩
                  simpa using hl old hold

theorem savedPairMatching_eq (completing : SavedResetPair) :
    savedPairMatching (resetStateForAccount current key) completing =
      (savedPair current key).filter fun p => p.ids = completing.ids := rfl

theorem state_of_savedPair {p : SavedResetPair} (h : savedPair current key = some p) :
    ∃ state, resetStateForAccount current key = some state := by
  cases hs : resetStateForAccount current key with
  | none =>
      rw [savedPair, hs] at h
      cases h
  | some state => exact ⟨state, rfl⟩

/-- A terminal answer removes the pair it settles, and no other. -/
theorem terminalMutation_effect (key : String) (current : ResetStateByAccount) (at_ : Rat)
    (completing : SavedResetPair) (outcome : ResetConsumeOutcome) :
    terminalMutation at_ key completing outcome current = current ∨
    ∃ p, savedPair current key = some p ∧ p.ids = completing.ids ∧
      savedRecord (terminalMutation at_ key completing outcome current) key = none := by
  unfold terminalMutation
  simp only [savedPairMatching_eq]
  cases hp : savedPair current key with
  | none => exact .inl (by cases resetStateForAccount current key <;> rfl)
  | some p =>
      obtain ⟨state, hs⟩ := state_of_savedPair hp
      by_cases hids : p.ids = completing.ids
      · refine .inr ⟨p, rfl, hids, ?_⟩
        simp only [hs, Option.filter, hids, decide_true, if_true]
        exact savedRecord_update (savedPair_safe hp) _
      · exact .inl (by simp [hs, Option.filter, hids])

/-- An answer that settles nothing is written over the pair it was sent for,
and over no other. -/
theorem unreconciledMutation_effect (key : String) (current : ResetStateByAccount)
    (completing : SavedResetPair) (outcome : ResetConsumeOutcome) (sentAs : Option String) :
    (unreconciledMutation key completing outcome sentAs current = (none, current) ∧
      ∀ p, savedPair current key = some p → p.ids ≠ completing.ids) ∨
    ∃ p, savedPair current key = some p ∧ p.ids = completing.ids ∧
      savedRecord (unreconciledMutation key completing outcome sentAs current).2 key =
        some (p.unreconciled completing outcome sentAs).toJson := by
  unfold unreconciledMutation
  simp only [savedPairMatching_eq]
  cases hp : savedPair current key with
  | none => exact .inl ⟨by cases resetStateForAccount current key <;> rfl, by simp⟩
  | some p =>
      obtain ⟨state, hs⟩ := state_of_savedPair hp
      by_cases hids : p.ids = completing.ids
      · refine .inr ⟨p, rfl, hids, ?_⟩
        simp only [hs, Option.filter, hids, decide_true, if_true]
        exact savedRecord_update (savedPair_safe hp) _
      · refine .inl ⟨by simp [hs, Option.filter, hids], ?_⟩
        rintro _ ⟨⟩
        exact hids

end Effects

/-! ## What one entry of a history does -/

/-- An answer that settles nothing, as it was written over a saved pair. -/
structure AnswerWritten where
  persisted : SavedResetPair
  completing : SavedResetPair
  outcome : ResetConsumeOutcome
  sentAs : Option String

/-- The answer `e` wrote over the saved pair it was for. -/
def Logged.answerWritten (key : String) (e : Logged) : Option AnswerWritten :=
  match e.entry with
  | .mutated (.unreconciled _ completing outcome sentAs) _ result before _ =>
      if result.persisted then
        (savedPairMatching (resetStateForAccount before key) completing).map
          (⟨·, completing, outcome, sentAs⟩)
      else none
  | _ => none

/-- The new pair `e` saved, and the account of the spend that minted it. -/
def Logged.mints (key : String) (e : Logged) : Option (SavedResetPair × Option String) :=
  match e.entry with
  | .mutated (.claim _ credits account) uuid result before _ =>
      match (claimMutation e.at_ uuid key credits account before).1 with
      | .claim _ ⟨new, .credit _⟩ => if result.persisted then some (new, account) else none
      | _ => none
  | _ => none

section Entries

variable {key : String} {reset₀ : ResetStateByAccount} {ids₀ : List String}

/-- What entry `e` does to the saved record. -/
inductive RecordEffect (key : String) (ids₀ : List String) (log : List Logged) (e : Logged)
    (before after : Option Json) : Prop where
  | same (quiet : e.answerWritten key = none) (unminted : e.mints key = none)
      (saved : after = before)
  | mint (uuid : String) (credit : ResetCredit) (account : Option String)
      (quiet : e.answerWritten key = none)
      (mints : e.mints key = some (minted e.at_ uuid credit account, account))
      (fresh : uuid ∉ issued ids₀ log) (issues : issued ids₀ (e :: log) = uuid :: issued ids₀ log)
      (allowed : MayMintOver e.at_ account before)
      (saved : after = some (minted e.at_ uuid credit account).toJson)
  | repair (quiet : e.answerWritten key = none) (unminted : e.mints key = none)
      (corrupt : validInFlight before = none) (saved : after = none)
  | settle (p completing : SavedResetPair) (outcome : ResetConsumeOutcome)
      (target : ResetResolvedTarget) (quiet : e.answerWritten key = none)
      (unminted : e.mints key = none) (writtenOver : validInFlight before = some p)
      (matching_ : p.ids = completing.ids) (terminal : isTerminalConsumeKind outcome.kind = true)
      (grounds : Answered key (own e.attempt log) target completing outcome)
      (saved : after = none)
  | answer (a : AnswerWritten) (target : ResetResolvedTarget)
      (written : e.answerWritten key = some a) (unminted : e.mints key = none)
      (writtenOver : validInFlight before = some a.persisted)
      (matching_ : a.persisted.ids = a.completing.ids)
      (sentAs : a.sentAs = target.chatgptAccountId)
      (grounds : Answered key (own e.attempt log) target a.completing a.outcome)
      (saved : after = some (a.persisted.unreconciled a.completing a.outcome a.sentAs).toJson)

theorem issued_mono {e : Logged} {log : List Logged} {x : String} (h : x ∈ issued ids₀ log) :
    x ∈ issued ids₀ (e :: log) := by
  obtain ⟨t, at_, entry⟩ := e
  cases entry with
  | mutated m uuid result before after =>
      rw [issued]
      split
      · exact List.mem_cons_of_mem _ h
      · exact h
  | _ => exact h

theorem follows_mutated {log : List Logged} {t : Nat} {at_ : Rat} {m : Mutation} {uuid : String}
    {result : StoreResult} {before after : ResetStateByAccount} :
    Follows key reset₀ ids₀ log ⟨t, at_, .mutated m uuid result before after⟩ ↔
      before = current reset₀ log ∧
      after = (if result.persisted then (m.apply at_ uuid before).2 else before) ∧
      (m.mayMint = true → uuid ≠ "" ∧ uuid ∉ issued ids₀ log) ∧
      MutationFits key (own t log) m := Iff.rfl

theorem effect_claim {log : List Logged} {t : Nat} {at_ : Rat} {uuid : String}
    {result : StoreResult} {before after : ResetStateByAccount} {credits : List ResetCredit}
    {account : Option String} (hr : result.persisted = true)
    (hsafe : isSafeResetAccountKey key = true) (hfresh : uuid ∉ issued ids₀ log)
    (hafter : after = (claimMutation at_ uuid key credits account before).2) :
    RecordEffect key ids₀ log
      ⟨t, at_, .mutated (.claim key credits account) uuid result before after⟩
      (savedRecord before key) (savedRecord after key) := by
  rcases claimMutation_effect key before at_ uuid credits account hsafe with
    ⟨hsame, hclaim⟩ | ⟨hnone, hgone, b, hcorrupt⟩ | ⟨b, credit, heq, hallowed⟩
  · refine .same rfl ?_ (by rw [hafter, hsame])
    unfold Logged.mints
    simp only
    split
    · rename_i b new c hd
      exact absurd (hclaim _ _ hd).2 (by simp)
    · rfl
  · exact .repair rfl (by simp [Logged.mints, hcorrupt]) hnone (by rw [hafter, hgone])
  · refine .mint uuid credit account rfl ?_ hfresh (by simp [issued, Mutation.mayMint]) hallowed ?_
    · simp [Logged.mints, heq, hr]
    · rw [hafter, heq]
      exact savedRecord_update hsafe _

/-- The inversion of a history: one entry has one of five effects. -/
theorem history_record {e : Logged} {log : List Logged}
    (h : History key reset₀ ids₀ (e :: log)) :
    RecordEffect key ids₀ log e (savedRecord (current reset₀ log) key)
      (savedRecord (current reset₀ (e :: log)) key) := by
  obtain ⟨t, at_, entry⟩ := e
  cases entry with
  | mutated m uuid result before after =>
      obtain ⟨hbefore, hafter, hfresh, hsafe, hkey, hgrounds⟩ := follows_mutated.mp h.head
      rw [← hbefore]
      show RecordEffect key ids₀ log _ _ (savedRecord after key)
      cases hr : result.persisted with
      | false =>
          rw [hr] at hafter
          refine .same ?_ ?_ (by rw [hafter]; rfl)
          · cases m <;> simp [Logged.answerWritten, hr]
          · cases m <;> simp only [Logged.mints, hr]
            split <;> rfl
      | true =>
          rw [hr, if_pos rfl] at hafter
          cases m with
          | resolveCorrupt k =>
              obtain rfl : k = key := hkey
              rcases resolveCorruptMutation_effect k before at_ hsafe with hsame | ⟨hnone, hgone⟩
              · exact .same rfl rfl (by rw [hafter]; exact congrArg (savedRecord · k) hsame)
              · exact .repair rfl rfl hnone (by rw [hafter]; exact hgone)
          | claim k credits account =>
              obtain rfl : k = key := hkey
              exact effect_claim hr hsafe (hfresh rfl).2 hafter
          | terminal k completing outcome =>
              obtain rfl : k = key := hkey
              obtain ⟨hterminal, target, hgrounds⟩ := hgrounds
              rcases terminalMutation_effect k before at_ completing outcome with
                hsame | ⟨p, hp, hids, hgone⟩
              · exact .same rfl rfl (by rw [hafter]; exact congrArg (savedRecord · k) hsame)
              · exact .settle p completing outcome target rfl rfl hp hids hterminal hgrounds
                  (by rw [hafter]; exact hgone)
          | unreconciled k completing outcome sentAs =>
              obtain rfl : k = key := hkey
              obtain ⟨-, target, hsentAs, hgrounds⟩ := hgrounds
              rcases unreconciledMutation_effect k before completing outcome sentAs with
                ⟨hnone, hother⟩ | ⟨p, hp, hids, hnext⟩
              · have hmatch :
                    savedPairMatching (resetStateForAccount before k) completing = none := by
                  rw [savedPairMatching_eq, Option.filter_eq_none_iff]
                  simpa using hother
                refine .same ?_ rfl ?_
                · simp [Logged.answerWritten, hmatch]
                · rw [hafter]
                  exact congrArg (fun r => savedRecord r.2 k) hnone
              · refine .answer ⟨p, completing, outcome, sentAs⟩ target ?_ rfl hp hids hsentAs
                  hgrounds (by rw [hafter]; exact hnext)
                simp [Logged.answerWritten, hr, savedPairMatching_eq, hp, Option.filter, hids]
  | _ => exact .same rfl rfl rfl

/-- What entry `e` does to the saved pair, read before it and after it. -/
inductive Effect (key : String) (ids₀ : List String) (log : List Logged) (e : Logged)
    (before after : Option SavedResetPair) : Prop where
  | same (quiet : e.answerWritten key = none) (unminted : e.mints key = none)
      (saved : after = before)
  | mint (uuid : String) (credit : ResetCredit) (account : Option String)
      (quiet : e.answerWritten key = none)
      (mints : e.mints key = some (minted e.at_ uuid credit account, account))
      (fresh : uuid ∉ issued ids₀ log) (issues : issued ids₀ (e :: log) = uuid :: issued ids₀ log)
      (saved : ∀ q, after = some q → q = minted e.at_ uuid credit account)
      (allowed : ∀ old, before = some old →
        isYoungerThanInFlightTtl old e.at_ = false ∧ mayReplaceExpiredPair old account = true)
  | clear (quiet : e.answerWritten key = none) (unminted : e.mints key = none)
      (saved : after = none)
  | answer (a : AnswerWritten) (target : ResetResolvedTarget)
      (written : e.answerWritten key = some a) (unminted : e.mints key = none)
      (writtenOver : before = some a.persisted) (matching_ : a.persisted.ids = a.completing.ids)
      (grounds : Answered key (own e.attempt log) target a.completing a.outcome)
      (saved : ∀ q, after = some q →
        q = (a.persisted.unreconciled a.completing a.outcome a.sentAs).reread)

theorem history_effect {e : Logged} {log : List Logged}
    (h : History key reset₀ ids₀ (e :: log)) :
    Effect key ids₀ log e (savedPair (current reset₀ log) key)
      (savedPair (current reset₀ (e :: log)) key) := by
  rw [savedPair_eq, savedPair_eq]
  cases history_record h with
  | same quiet unminted saved => exact .same quiet unminted (by rw [saved])
  | mint uuid credit account quiet mints fresh issues allowed saved =>
      refine .mint uuid credit account quiet mints fresh issues ?_ ?_
      · intro q hq
        rw [saved, validInFlight_minted] at hq
        split at hq
        · exact (Option.some.inj hq).symm
        · cases hq
      · intro old hold
        rcases allowed with hnone | ⟨old', hold', hgate⟩
        · rw [hnone] at hold
          cases hold
        · rw [hold] at hold'
          cases hold'
          exact hgate
  | repair quiet unminted corrupt saved => exact .clear quiet unminted (by rw [saved]; rfl)
  | settle p completing outcome target quiet unminted writtenOver matching_ terminal grounds saved =>
      exact .clear quiet unminted (by rw [saved]; rfl)
  | answer a target written unminted writtenOver matching_ sentAs grounds saved =>
      refine .answer a target written unminted writtenOver matching_ grounds fun q hq => ?_
      rw [saved, validInFlight_toJson] at hq
      split at hq
      · exact (Option.some.inj hq).symm
      · cases hq

/-- A pair that is handed out was saved and still is, or it is minted and saved
by the same step. -/
theorem handed_cases {e : Logged} {log : List Logged} (h : History key reset₀ ids₀ (e :: log))
    {p : SavedResetPair} (hp : e.handed key = some p) :
    (savedPair (current reset₀ log) key = some p ∧
      savedRecord (current reset₀ (e :: log)) key = savedRecord (current reset₀ log) key) ∨
    ∃ uuid credit account, p = minted e.at_ uuid credit account ∧ uuid ∉ issued ids₀ log ∧
      savedRecord (current reset₀ (e :: log)) key = some p.toJson := by
  obtain ⟨t, at_, entry⟩ := e
  cases entry with
  | loaded reset =>
      have hreset : reset = current reset₀ log := h.head
      exact .inl ⟨hreset ▸ hp, rfl⟩
  | mutated m uuid result before after =>
      obtain ⟨hbefore, hafter, hfresh, hsafe, hkey, -⟩ := follows_mutated.mp h.head
      subst hbefore
      have hnext : current reset₀ (⟨t, at_, .mutated m uuid result (current reset₀ log) after⟩ ::
        log) = after := rfl
      rw [hnext, hafter]
      cases result with
      | threwBefore => cases m <;> cases hp
      | threwAfter => cases m <;> cases hp
      | done =>
          cases m with
          | resolveCorrupt k =>
              obtain rfl : k = key := hkey
              have hpair : savedPair (current reset₀ log) k = some p := hp
              refine .inl ⟨hpair, ?_⟩
              rcases resolveCorruptMutation_effect k (current reset₀ log) at_ hsafe with
                hsame | ⟨hnone, -⟩
              · exact congrArg (savedRecord · k) hsame
              · rw [hpair] at hnone
                cases hnone
          | claim k credits account =>
              obtain rfl : k = key := hkey
              rcases claimMutation_effect k (current reset₀ log) at_ uuid credits account hsafe with
                ⟨hsame, hclaim⟩ | ⟨-, -, b, hcorrupt⟩ | ⟨b, credit, heq, -⟩
              · simp only [Logged.handed] at hp
                split at hp
                · rename_i b c hd
                  cases hp
                  exact .inl ⟨(hclaim b c hd).1, congrArg (savedRecord · k) hsame⟩
                · cases hp
              · simp [Logged.handed, hcorrupt] at hp
              · simp only [Logged.handed, heq, Option.some.injEq] at hp
                refine .inr ⟨uuid, credit, account, hp.symm, (hfresh rfl).2, ?_⟩
                rw [← hp]
                exact (congrArg (savedRecord ·.2 k) heq).trans (savedRecord_update hsafe _)
          | terminal k completing outcome => cases hp
          | unreconciled k completing outcome sentAs => cases hp
  | _ => cases hp

/-- So the store names it, under the account it is handed out with. -/
theorem handed_saved {e : Logged} {log : List Logged} (h : History key reset₀ ids₀ (e :: log))
    {p : SavedResetPair} (hp : e.handed key = some p) :
    recordIds (savedRecord (current reset₀ (e :: log)) key) = some p.ids ∧
    recordAccount (savedRecord (current reset₀ (e :: log)) key) = p.chatgptAccountId := by
  rcases handed_cases h hp with ⟨hsaved, hsame⟩ | ⟨-, -, -, -, -, hrecord⟩
  · rw [hsame]
    exact record_of_valid hsaved
  · rw [hrecord]
    exact ⟨recordIds_toJson p, recordAccount_toJson p⟩

theorem issued_append (newer : List Logged) {log : List Logged} {x : String}
    (h : x ∈ issued ids₀ log) : x ∈ issued ids₀ (newer ++ log) := by
  induction newer with
  | nil => exact h
  | cons e newer ih => exact issued_mono ih

theorem issued_start {log : List Logged} {x : String} (h : x ∈ ids₀) : x ∈ issued ids₀ log := by
  induction log with
  | nil => exact h
  | cons e log ih => exact issued_mono ih

theorem recordIds_idsAt {ids : PairIds} (h : recordIds (savedRecord reset₀ key) = some ids) :
    ids.redeemRequestId ∈ idsAt reset₀ key := by
  cases hs : isSafeResetAccountKey key with
  | false => simp [savedRecord, resetStateForAccount, hs, recordIds] at h
  | true =>
      have hrecord : savedRecord reset₀ key = (reset₀ key).bind (·.inFlight) := by
        simp [savedRecord, resetStateForAccount, hs]
      unfold idsAt World.initial
      dsimp only
      rw [← hrecord]
      cases hv : savedRecord reset₀ key with
      | none =>
          rw [hv] at h
          cases h
      | some value =>
          rw [hv] at h
          simp only [recordIds, Option.bind_eq_bind, Option.bind_some, Option.bind_eq_some_iff,
            Option.pure_def] at h
          obtain ⟨credit, -, redeem, hr, heq⟩ := h
          cases heq
          simp [hr]

/-- The pair the store names has an id that `randomUUID` will not give again. -/
theorem saved_issued {log : List Logged} (h : History key reset₀ (idsAt reset₀ key) log)
    {ids : PairIds} (hids : recordIds (savedRecord (current reset₀ log) key) = some ids) :
    ids.redeemRequestId ∈ issued (idsAt reset₀ key) log := by
  induction log with
  | nil => exact recordIds_idsAt hids
  | cons e log ih =>
      cases history_record h with
      | same quiet unminted saved => exact issued_mono (ih h.tail (by rw [← saved]; exact hids))
      | mint uuid credit account quiet mints fresh issues allowed saved =>
          rw [saved, recordIds_toJson] at hids
          cases hids
          rw [issues]
          exact List.mem_cons_self
      | repair quiet unminted corrupt saved =>
          rw [saved] at hids
          cases hids
      | settle p completing outcome target quiet unminted writtenOver matching_ terminal grounds saved =>
          rw [saved] at hids
          cases hids
      | answer a target written unminted writtenOver matching_ sentAs grounds saved =>
          rw [saved, recordIds_toJson, unreconciled_ids] at hids
          exact issued_mono (ih h.tail (by rw [(record_of_valid writtenOver).1, hids]))

end Entries

end ResetCredits
