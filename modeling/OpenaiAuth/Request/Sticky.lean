import OpenaiAuth.Request.Killswitch

/-! # Sticky routing

Whether a session leaves the account it is pinned to, and which account a
session is placed on. Both see the killswitch verdict the caller worked out
before, `some false` for an account below its floor.

Main results: `decideStickyBreak_killed` says what becomes of a pin below its
floor, and `selectStickyCandidate_sound` that no placement goes there.
-/

namespace Request

open Sidebar

def quotaStalenessMs : ℚ := 15 * 60000

def minResetHours : ℚ := 1 / 60

def minWeight : ℚ := 1 / 1000000

def snapshotCheckedAt (quota : Option AccountQuota) (entryCheckedAt : Option ℚ) : Option ℚ :=
  ((quota.bind (·.primary)).bind (·.checkedAt)).or
    ((quota.bind (·.checkedAt)).or entryCheckedAt)

/-! ## Leaving an account -/

inductive StickyBreakDecision where
  | retainUnknown
  | retainStale
  | retainHealthy
  | retainTransient
  | migrateExhausted
  | migratePermanent
  | migrateKillswitch
deriving DecidableEq, Repr

def StickyBreakDecision.migrates : StickyBreakDecision → Bool
  | migrateExhausted => true
  | migratePermanent => true
  | migrateKillswitch => true
  | _ => false

/-- The reading is there and at most `quotaStalenessMs` old. -/
def readingIsFresh (quota : Option AccountQuota) (entryCheckedAt : Option ℚ) (now : ℚ) : Bool :=
  quota.isSome && (snapshotCheckedAt quota entryCheckedAt).any fun checkedAt =>
    !decide (quotaStalenessMs < now - checkedAt)

def windowIsEmpty (window : Option QuotaWindow) : Bool :=
  window.any fun window => window.remainingPercent ≤ 0

def statusIsTransient (status : Option Nat) : Bool :=
  status.all fun status => status = 0 || (500 ≤ status && status ≤ 599) || status = 429

def decideStickyBreak (dateParse : String → Option ℚ) (freshest : FreshestQuota)
    (status : Option Nat) (now : ℚ) (killswitchPasses : Option Bool) : StickyBreakDecision :=
  if status = some 401 || status = some 403 then .migratePermanent
  else if freshest.quota.isNone then .retainUnknown
  else if !readingIsFresh freshest.quota freshest.quotaCheckedAt now then .retainStale
  -- after the check for age, so that no stale reading is held against the account
  else if killswitchPasses = some false then .migrateKillswitch
  else if windowIsEmpty (freshest.quota.bind (·.primary)) ||
      windowIsEmpty (freshest.quota.bind (·.secondary)) then .migrateExhausted
  else if (spendControlExhaustedResetAt dateParse freshest.quota now).isSome then .migrateExhausted
  else if statusIsTransient status then .retainTransient
  else .retainHealthy

/-- A pin below its floor is left as soon as its reading is fresh. -/
theorem decideStickyBreak_killed {dateParse : String → Option ℚ} {freshest : FreshestQuota}
    {status : Option Nat} {now : ℚ}
    (hfresh : readingIsFresh freshest.quota freshest.quotaCheckedAt now = true) :
    (decideStickyBreak dateParse freshest status now (some false)).migrates = true := by
  have hquota : freshest.quota.isNone = false := by
    rw [readingIsFresh, Bool.and_eq_true] at hfresh
    rw [Option.isNone_eq_false_iff]
    exact hfresh.1
  unfold decideStickyBreak
  split
  · rfl
  · simp only [hquota, hfresh, Bool.not_true, Bool.false_eq_true, if_false, if_true]
    rfl

/-! ## Choosing an account -/

def sustainableWindowWeight (dateParse : String → Option ℚ) (remainingPercent : ℚ)
    (resetsAt : Option String) (reservePercent now : ℚ) : ℚ :=
  let spendable := max 0 (remainingPercent - reservePercent)
  if spendable ≤ 0 then 0
  else
    match (resetsAt.filter (· ≠ "")).bind dateParse with
    | none => spendable
    | some resetMs =>
        if resetMs ≤ now then spendable
        else spendable / max ((resetMs - now) / 3600000) minResetHours

structure StickySelectionCandidate where
  accountId : String
  quota : Option AccountQuota
  quotaCheckedAt : Option ℚ
  reservePercent : Floors
  configuredOrder : Nat
  resetCreditsApplicable : Option ℚ
  killswitchPasses : Option Bool
deriving DecidableEq, Repr

structure WeightedCandidate where
  candidate : StickySelectionCandidate
  quotaCheckedAt : ℚ
  weight : ℚ

/-- `Math.min(...weights)`, or 0 for no weights. -/
def leastWeight : List ℚ → ℚ
  | [] => 0
  | weight :: weights => weights.foldl min weight

def candidateWeight (dateParse : String → Option ℚ) (candidate : StickySelectionCandidate)
    (now : ℚ) : Option WeightedCandidate :=
  candidate.quota.bind fun quota =>
    (snapshotCheckedAt (some quota) candidate.quotaCheckedAt).bind fun quotaCheckedAt =>
      if quotaStalenessMs < now - quotaCheckedAt then none
      else
        let windowWeight := fun (window : Option QuotaWindow) (reserve : ℚ) =>
          (window.map fun window =>
            sustainableWindowWeight dateParse window.remainingPercent window.resetsAt reserve
              now).toList
        let spendWeight := (quota.spendControl.map fun spendControl =>
          sustainableWindowWeight dateParse spendControl.remainingPercent spendControl.resetsAt 0
            now).toList
        let weight := leastWeight (windowWeight quota.primary candidate.reservePercent.primary ++
          windowWeight quota.secondary candidate.reservePercent.secondary ++ spendWeight)
        if 0 < weight then some ⟨candidate, quotaCheckedAt, weight⟩ else none

/-- Configured order, then the account id. -/
def configuredBefore (left right : StickySelectionCandidate) : Bool :=
  left.configuredOrder < right.configuredOrder ||
    (left.configuredOrder = right.configuredOrder && left.accountId ≤ right.accountId)

def weightedScore (pendingBytes : String → ℚ) (requestBytes : ℚ) (weighted : WeightedCandidate) :
    ℚ :=
  (pendingBytes weighted.candidate.accountId + requestBytes) / max weighted.weight minWeight

def weightedBefore (pendingBytes : String → ℚ) (requestBytes : ℚ)
    (left right : WeightedCandidate) : Bool :=
  weightedScore pendingBytes requestBytes left < weightedScore pendingBytes requestBytes right ||
    (weightedScore pendingBytes requestBytes left = weightedScore pendingBytes requestBytes right &&
      configuredBefore left.candidate right.candidate)

def hasResetCredits (candidate : StickySelectionCandidate) : Bool :=
  0 < candidate.resetCreditsApplicable.getD 0

def creditsBefore (left right : StickySelectionCandidate) : Bool :=
  (hasResetCredits left && !hasResetCredits right) ||
    (hasResetCredits left = hasResetCredits right && configuredBefore left right)

/-- The account chosen, and the age of the reading it was chosen by. -/
structure Selection where
  accountId : String
  quotaCheckedAt : Option ℚ
deriving DecidableEq, Repr

/-- `undefined` when the killswitch leaves no candidate. The caller hands in at
least one. -/
def selectStickyCandidate (dateParse : String → Option ℚ)
    (candidates : List StickySelectionCandidate) (pendingBytes : String → ℚ)
    (requestBytes now : ℚ) : Option Selection :=
  let eligibleCandidates := candidates.filter fun candidate =>
    candidate.killswitchPasses ≠ some false
  let weighted := eligibleCandidates.filterMap fun candidate =>
    candidateWeight dateParse candidate now
  match (weighted.insertionSort fun left right =>
      weightedBefore pendingBytes requestBytes left right = true).head? with
  | some selected => some ⟨selected.candidate.accountId, some selected.quotaCheckedAt⟩
  | none =>
      match (eligibleCandidates.insertionSort fun left right =>
          creditsBefore left right = true).head? with
      | some fallback =>
          some ⟨fallback.accountId, snapshotCheckedAt fallback.quota fallback.quotaCheckedAt⟩
      | none => none

theorem candidateWeight_candidate {dateParse : String → Option ℚ}
    {candidate : StickySelectionCandidate} {now : ℚ} {weighted : WeightedCandidate}
    (h : candidateWeight dateParse candidate now = some weighted) :
    weighted.candidate = candidate := by
  unfold candidateWeight at h
  obtain ⟨quota, -, h⟩ := Option.bind_eq_some_iff.mp h
  obtain ⟨checkedAt, -, h⟩ := Option.bind_eq_some_iff.mp h
  split at h
  · cases h
  · simp only at h
    split at h
    · rw [Option.some.injEq] at h
      rw [← h]
    · cases h

/-- What is chosen is a candidate the killswitch lets pass. -/
theorem selectStickyCandidate_sound {dateParse : String → Option ℚ}
    {candidates : List StickySelectionCandidate} {pendingBytes : String → ℚ}
    {requestBytes now : ℚ} {selection : Selection}
    (h : selectStickyCandidate dateParse candidates pendingBytes requestBytes now =
      some selection) :
    ∃ candidate ∈ candidates, candidate.accountId = selection.accountId ∧
      candidate.killswitchPasses ≠ some false := by
  unfold selectStickyCandidate at h
  simp only at h
  split at h
  · -- the weighted branch: its head is one of the candidates weighed
    rename_i selected hhead
    rw [Option.some.injEq] at h
    have hmem := (List.perm_insertionSort _ _).mem_iff.mp (List.mem_of_mem_head? hhead)
    obtain ⟨candidate, hcandidate, hweight⟩ := List.mem_filterMap.mp hmem
    obtain ⟨hcandidates, hpasses⟩ := List.mem_filter.mp hcandidate
    refine ⟨candidate, hcandidates, ?_, by simpa using hpasses⟩
    rw [← h, candidateWeight_candidate hweight]
  · split at h
    · rename_i fallback hhead
      rw [Option.some.injEq] at h
      have hmem := (List.perm_insertionSort _ _).mem_iff.mp (List.mem_of_mem_head? hhead)
      obtain ⟨hcandidates, hpasses⟩ := List.mem_filter.mp hmem
      exact ⟨fallback, hcandidates, by rw [← h], by simpa using hpasses⟩
    · cases h

/-- Where nothing is chosen the killswitch blocks every candidate. -/
theorem selectStickyCandidate_none {dateParse : String → Option ℚ}
    {candidates : List StickySelectionCandidate} {pendingBytes : String → ℚ}
    {requestBytes now : ℚ}
    (h : selectStickyCandidate dateParse candidates pendingBytes requestBytes now = none)
    {candidate : StickySelectionCandidate} (hmem : candidate ∈ candidates) :
    candidate.killswitchPasses = some false := by
  unfold selectStickyCandidate at h
  simp only at h
  split at h
  · cases h
  · split at h
    · cases h
    · rename_i hhead
      have hsorted := List.head?_eq_none_iff.mp hhead
      have hperm := List.perm_insertionSort (fun left right => creditsBefore left right = true)
        (candidates.filter fun candidate => candidate.killswitchPasses ≠ some false)
      rw [hsorted] at hperm
      by_contra hne
      have heligible : candidate ∈ candidates.filter fun candidate =>
          candidate.killswitchPasses ≠ some false := List.mem_filter.mpr ⟨hmem, by simpa using hne⟩
      exact absurd (hperm.mem_iff.mpr heligible) List.not_mem_nil

end Request
