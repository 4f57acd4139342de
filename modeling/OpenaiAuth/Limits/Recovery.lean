import Mathlib.Data.Rat.Init
import Mathlib.Algebra.Order.Ring.Rat
import OpenaiAuth.Js.Keyed

/-! # The recovery latch

`LimitRecoveryLatch` holds evidence that an account's rate-limit mark has run out,
so that one successful probe may clear it. Reads of the committed marks are
adopted as they arrive, evidence that has expired is staged, what is staged is
offered, and what was offered once is consumed. Ids are kept as the parts that
`limitAccountId` and `evidenceId` spell, so two are equal exactly when the texts are.
-/

namespace Limits

open Js

/-! ## What a read holds -/

structure AccountKey where
  namespaceId : String
  accountId : String
  incarnation : String
deriving DecidableEq, Repr

structure MarkKey where
  account : AccountKey
  /-- `scope.kind` -/
  scope : String
  window : String
deriving DecidableEq, Repr

structure MarkEntry where
  cause : String
  untilAt : ℚ
  evidenceAt : ℚ
  committedRevision : ℚ
deriving DecidableEq, Repr

structure Mark where
  key : MarkKey
  entries : List MarkEntry
deriving DecidableEq, Repr

structure Tombstone where
  key : MarkKey
  revision : ℚ
  cause : Option String := none
deriving DecidableEq, Repr

structure LimitsNamespace where
  namespaceId : String
  generation : String
  revision : ℚ
  marks : List Mark := []
  tombstones : List Tombstone := []
deriving DecidableEq, Repr

structure LimitsPersistenceSnapshot where
  snapshot : LimitsNamespace
  /-- The accounts that are bound. -/
  bindings : List AccountKey
  authoritative : Bool
  degradedAgreement : Bool := false
deriving DecidableEq, Repr

structure RecoveryRead where
  token : ℕ
  view : LimitsPersistenceSnapshot
  readAt : ℚ
deriving DecidableEq, Repr

structure Evidence where
  account : AccountKey
  untilAt : ℚ
  evidenceAt : ℚ
  committedRevision : ℚ
deriving DecidableEq, Repr

def evidenceId (evidence : Evidence) : AccountKey × ℚ × ℚ :=
  (evidence.account, evidence.untilAt, evidence.evidenceAt)

structure RecoveryEvidence extends Evidence where
  generation : String
deriving DecidableEq, Repr

/-- The rate-limit account mark of the pool. -/
def MarkKey.isRecoverable (key : MarkKey) : Bool := key.window = "account" && key.scope = "pool"

/-- The evidence a read shows of the accounts it binds, in order. -/
def sightings (view : LimitsPersistenceSnapshot) : List Evidence :=
  (view.snapshot.marks.filter fun mark =>
    mark.key.isRecoverable && view.bindings.contains mark.key.account).flatMap fun mark =>
      (mark.entries.filter fun entry => entry.cause = "rate-limit").map fun entry => {
        account := mark.key.account
        untilAt := entry.untilAt
        evidenceAt := entry.evidenceAt
        committedRevision := entry.committedRevision }

def observed (view : LimitsPersistenceSnapshot) : Keyed evidenceId := Keyed.ofList (sightings view)

/-- A tombstone covers the evidence. -/
def isCleared (raw : LimitsNamespace) (evidence : Evidence) : Bool :=
  raw.tombstones.any fun clear =>
    clear.key.account = evidence.account && clear.key.isRecoverable &&
      evidence.committedRevision ≤ clear.revision && clear.cause.all fun cause => cause = "rate-limit"

/-! ## The latch -/

/-- `RECOVERY_REMEMBERED_BOUND` -/
def rememberedBound : ℕ := 256

/-- `RECOVERY_STAGED_BOUND` -/
def stagedBound : ℕ := 256

/-- `RECOVERY_CONSUMED_BOUND` -/
def consumedBound : ℕ := 1024

structure LimitRecoveryLatch where
  generation : Option String := none
  issued : ℕ := 0
  adopted : ℕ := 0
  remembered : Keyed evidenceId := .empty
  staged : Keyed evidenceId := .empty
  consumed : Keyed evidenceId := .empty
  exhausted : Bool := false

namespace LimitRecoveryLatch

def capture (latch : LimitRecoveryLatch) (view : LimitsPersistenceSnapshot) (readAt : ℚ) :
    LimitRecoveryLatch × RecoveryRead :=
  ({ latch with issued := latch.issued + 1 }, { token := latch.issued + 1, view, readAt })

/-- No later than the latest `until` and the latest `evidenceAt` consumed for its
account. -/
def isOutlived (latch : LimitRecoveryLatch) (evidence : Evidence) : Bool :=
  let previous := latch.consumed.values.filter fun previous => previous.account = evidence.account
  previous.any (fun previous => evidence.untilAt ≤ previous.untilAt) &&
    previous.any fun previous => evidence.evidenceAt ≤ previous.evidenceAt

def stage (latch : LimitRecoveryLatch) (evidence : Evidence) : LimitRecoveryLatch :=
  if latch.consumed.has (evidenceId evidence) || latch.exhausted then latch
  else if latch.isOutlived evidence then latch
  else if latch.staged.has (evidenceId evidence) || latch.staged.size < stagedBound then
    { latch with staged := latch.staged.set evidence }
  else latch

def accepts (latch : LimitRecoveryLatch) (read : RecoveryRead) (current : LimitsNamespace) : Bool :=
  let raw := read.view.snapshot
  latch.adopted < read.token && read.view.authoritative && !read.view.degradedAgreement &&
    raw.namespaceId = current.namespaceId && raw.generation = current.generation &&
      raw.revision = current.revision

/-- A read of another generation starts over. -/
def enter (latch : LimitRecoveryLatch) (read : RecoveryRead) : LimitRecoveryLatch :=
  if latch.generation = some read.view.snapshot.generation then { latch with adopted := read.token }
  else
    { latch with
      adopted := read.token
      generation := some read.view.snapshot.generation
      remembered := .empty
      staged := .empty
      consumed := .empty }

/-- A remembered mark that is gone was cleared, or pruned after it expired. -/
def visitRemembered (read : RecoveryRead) (latch : LimitRecoveryLatch) (evidence : Evidence) :
    LimitRecoveryLatch :=
  let without := { latch with remembered := latch.remembered.erase (evidenceId evidence) }
  if !read.view.bindings.contains evidence.account then without
  else if (observed read.view).has (evidenceId evidence) then latch
  else if !isCleared read.view.snapshot evidence && evidence.untilAt ≤ read.readAt then
    without.stage evidence
  else without

def sweepRemembered (read : RecoveryRead) (latch : LimitRecoveryLatch) : LimitRecoveryLatch :=
  latch.remembered.values.foldl (visitRemembered read) latch

/-- Staged evidence goes when its account is no longer bound or it was cleared. -/
def sweepStaged (read : RecoveryRead) (latch : LimitRecoveryLatch) : LimitRecoveryLatch :=
  { latch with
    staged := latch.staged.filter fun evidence =>
      read.view.bindings.contains evidence.account &&
        ((observed read.view).has (evidenceId evidence) || !isCleared read.view.snapshot evidence) }

def visitObserved (read : RecoveryRead) (latch : LimitRecoveryLatch) (evidence : Evidence) :
    LimitRecoveryLatch :=
  if latch.consumed.has (evidenceId evidence) then latch
  else if evidence.untilAt ≤ read.readAt then
    { latch with remembered := latch.remembered.erase (evidenceId evidence) }.stage evidence
  else if latch.remembered.has (evidenceId evidence) || latch.remembered.size < rememberedBound then
    { latch with remembered := latch.remembered.set evidence }
  else latch

def takeObserved (read : RecoveryRead) (latch : LimitRecoveryLatch) : LimitRecoveryLatch :=
  (observed read.view).values.foldl (visitObserved read) latch

/-- The latch after a read it accepts. -/
def take (latch : LimitRecoveryLatch) (read : RecoveryRead) : LimitRecoveryLatch :=
  takeObserved read (sweepStaged read (sweepRemembered read (latch.enter read)))

def adopt (latch : LimitRecoveryLatch) (read : RecoveryRead) (current : LimitsNamespace) :
    LimitRecoveryLatch × Bool :=
  if latch.accepts read current then (latch.take read, true) else (latch, false)

/-- The evidence with the later `until`, then the later `evidenceAt`. -/
def better (result : Option Evidence) (evidence : Evidence) : Option Evidence :=
  match result with
  | none => some evidence
  | some best =>
      if best.untilAt < evidence.untilAt ∨
          (evidence.untilAt = best.untilAt ∧ best.evidenceAt < evidence.evidenceAt) then some evidence
      else some best

def candidate (latch : LimitRecoveryLatch) (account : AccountKey) (now : ℚ) :
    Option RecoveryEvidence :=
  if latch.exhausted then none
  else latch.generation.bind fun generation =>
    ((latch.staged.values.filter fun evidence =>
      evidence.account = account && evidence.untilAt ≤ now).foldl better none).map fun evidence =>
        { toEvidence := evidence, generation }

def sameAccount (latch : LimitRecoveryLatch) (account : AccountKey) : List Evidence :=
  latch.staged.values.filter fun entry => entry.account = account

/-- The evidence of an account moves from `staged` to `consumed`. -/
def spend (latch : LimitRecoveryLatch) (account : AccountKey) : LimitRecoveryLatch :=
  { latch with
    consumed := (latch.sameAccount account).foldl (fun m entry => m.set entry) latch.consumed
    staged := latch.staged.filter fun entry => entry.account ≠ account }

def consume (latch : LimitRecoveryLatch) (evidence : RecoveryEvidence) : LimitRecoveryLatch × Bool :=
  let id := evidenceId evidence.toEvidence
  if latch.exhausted || latch.generation ≠ some evidence.generation || !latch.staged.has id ||
      latch.consumed.has id then (latch, false)
  else if consumedBound < latch.consumed.size + (latch.sameAccount evidence.account).length then
    ({ latch with exhausted := true, staged := .empty }, false)
  else (latch.spend evidence.account, true)

end LimitRecoveryLatch

/-! ## Runs -/

inductive LatchCall where
  | capture (view : LimitsPersistenceSnapshot) (readAt : ℚ)
  | adopt (read : RecoveryRead) (current : LimitsNamespace)
  | candidate (account : AccountKey) (now : ℚ)
  | consume (evidence : RecoveryEvidence)

def LimitRecoveryLatch.step (latch : LimitRecoveryLatch) : LatchCall → LimitRecoveryLatch
  | .capture view readAt => (latch.capture view readAt).1
  | .adopt read current => (latch.adopt read current).1
  | .candidate _ _ => latch
  | .consume evidence => (latch.consume evidence).1

/-- The latch after calls, the latest one first. -/
def LimitRecoveryLatch.resume (latch : LimitRecoveryLatch) : List LatchCall → LimitRecoveryLatch
  | [] => latch
  | call :: earlier => (latch.resume earlier).step call

/-- A latch on which `calls` were made. -/
def latchAfter (calls : List LatchCall) : LimitRecoveryLatch := LimitRecoveryLatch.resume {} calls

/-- The reads adopted since the latch was last on another generation, latest first. -/
def adoptedReads : List LatchCall → List RecoveryRead
  | [] => []
  | .adopt read current :: earlier =>
      if (latchAfter earlier).accepts read current then
        if (latchAfter earlier).generation = some read.view.snapshot.generation then
          read :: adoptedReads earlier
        else [read]
      else adoptedReads earlier
  | _ :: earlier => adoptedReads earlier

/-- The evidence consumed since then, and all of its account that went with it. -/
def consumedSince : List LatchCall → List Evidence
  | [] => []
  | .adopt read current :: earlier =>
      if (latchAfter earlier).accepts read current ∧
          (latchAfter earlier).generation ≠ some read.view.snapshot.generation then []
      else consumedSince earlier
  | .consume evidence :: earlier =>
      if ((latchAfter earlier).consume evidence).2 then
        evidence.toEvidence ::
          ((latchAfter earlier).sameAccount evidence.account ++ consumedSince earlier)
      else consumedSince earlier
  | _ :: earlier => consumedSince earlier

/-- The read shows the evidence gone, with a tombstone that covers it. -/
def ShowsGone (read : RecoveryRead) (evidence : Evidence) : Prop :=
  (observed read.view).has (evidenceId evidence) = false ∧
    isCleared read.view.snapshot evidence = true

/-- A read shows the evidence, and no later one shows it gone. -/
def Sighted (reads : List RecoveryRead) (evidence : Evidence) : Prop :=
  ∃ later read earlier, reads = later ++ read :: earlier ∧ evidence ∈ sightings read.view ∧
    ∀ r ∈ later, ¬ShowsGone r evidence

/-! ## What each part of a read does -/

section Parts

variable {latch : LimitRecoveryLatch} {read : RecoveryRead} {reads : List RecoveryRead}
  {evidence : Evidence}

/-- Consumed evidence of its account is no match for it. -/
def Outlasts (latch : LimitRecoveryLatch) (evidence : Evidence) : Prop :=
  ∀ c ∈ latch.consumed, c.account = evidence.account →
    ¬(evidence.untilAt ≤ c.untilAt ∧ evidence.evidenceAt ≤ c.evidenceAt)

/-- The bounds, and what was consumed rules out. -/
structure Fit (latch : LimitRecoveryLatch) : Prop where
  outlasts : ∀ e ∈ latch.staged, Outlasts latch e
  remembered : latch.remembered.size ≤ rememberedBound
  staged : latch.staged.size ≤ stagedBound
  consumed : latch.consumed.size ≤ consumedBound

/-- All that is held is evidence of these reads. -/
def HoldsSighted (reads : List RecoveryRead) (latch : LimitRecoveryLatch) : Prop :=
  ∀ e, e ∈ latch.remembered ∨ e ∈ latch.staged → Sighted reads e

/-- Everything but what is remembered and staged. -/
def SameFrame (a b : LimitRecoveryLatch) : Prop :=
  a.generation = b.generation ∧ a.issued = b.issued ∧ a.adopted = b.adopted ∧
    a.consumed = b.consumed ∧ a.exhausted = b.exhausted

theorem SameFrame.refl : SameFrame latch latch := ⟨rfl, rfl, rfl, rfl, rfl⟩

theorem SameFrame.trans {a b c : LimitRecoveryLatch} (h : SameFrame a b) (h' : SameFrame b c) :
    SameFrame a c :=
  ⟨h.1.trans h'.1, h.2.1.trans h'.2.1, h.2.2.1.trans h'.2.2.1, h.2.2.2.1.trans h'.2.2.2.1,
    h.2.2.2.2.trans h'.2.2.2.2⟩

theorem outlasts_of_not_isOutlived (h : latch.isOutlived evidence = false) :
    Outlasts latch evidence := by
  rintro c hc haccount ⟨huntil, hat⟩
  have hmem : c ∈ latch.consumed.values.filter fun previous => previous.account = evidence.account :=
    List.mem_filter.mpr ⟨hc, by simpa using haccount⟩
  have houtlived : latch.isOutlived evidence = true := by
    rw [LimitRecoveryLatch.isOutlived, Bool.and_eq_true]
    refine ⟨List.any_eq_true.mpr ⟨c, hmem, ?_⟩, List.any_eq_true.mpr ⟨c, hmem, ?_⟩⟩
    · simpa using huntil
    · simpa using hat
  rw [h] at houtlived
  cases houtlived

/-- Staging adds the evidence or nothing. -/
theorem stage_cases (latch : LimitRecoveryLatch) (evidence : Evidence) :
    latch.stage evidence = latch ∨
      (latch.stage evidence = { latch with staged := latch.staged.set evidence } ∧
        Outlasts latch evidence ∧ (latch.staged.set evidence).size ≤ max latch.staged.size stagedBound) := by
  unfold LimitRecoveryLatch.stage
  split
  · exact .inl rfl
  · split
    · exact .inl rfl
    · rename_i houtlived
      split
      · rename_i hroom
        refine .inr ⟨rfl, outlasts_of_not_isOutlived (by simpa using houtlived), ?_⟩
        refine Keyed.size_set_le (le_max_left ..) ?_
        rw [Bool.or_eq_true, decide_eq_true_eq] at hroom
        exact hroom.imp_right fun h => lt_max_of_lt_right h
      · exact .inl rfl

theorem stage_frame (latch : LimitRecoveryLatch) (evidence : Evidence) :
    SameFrame (latch.stage evidence) latch ∧ (latch.stage evidence).remembered = latch.remembered := by
  rcases stage_cases latch evidence with h | ⟨h, -, -⟩
  · rw [h]
    exact ⟨.refl, rfl⟩
  · rw [h]
    exact ⟨.refl, rfl⟩

theorem Fit.stage (h : Fit latch) (evidence : Evidence) : Fit (latch.stage evidence) := by
  rcases stage_cases latch evidence with hsame | ⟨hset, houtlasts, hsize⟩
  · rwa [hsame]
  · rw [hset]
    refine ⟨?_, h.remembered, ?_, h.consumed⟩
    · intro e he
      rcases Keyed.mem_set.mp he with rfl | ⟨hold, -⟩
      · exact houtlasts
      · exact h.outlasts e hold
    · rwa [max_eq_right h.staged] at hsize

theorem HoldsSighted.stage (h : HoldsSighted reads latch) (hnew : Sighted reads evidence) :
    HoldsSighted reads (latch.stage evidence) := by
  rcases stage_cases latch evidence with hsame | ⟨hset, -, -⟩
  · rwa [hsame]
  · rw [hset]
    rintro e (he | he)
    · exact h e (.inl he)
    · rcases Keyed.mem_set.mp he with rfl | ⟨hold, -⟩
      · exact hnew
      · exact h e (.inr hold)

theorem Fit.forget (h : Fit latch) (id : AccountKey × ℚ × ℚ) :
    Fit { latch with remembered := latch.remembered.erase id } :=
  ⟨h.outlasts, (Keyed.size_erase_le _ id).trans h.remembered, h.staged, h.consumed⟩

theorem HoldsSighted.forget (h : HoldsSighted reads latch) (id : AccountKey × ℚ × ℚ) :
    HoldsSighted reads { latch with remembered := latch.remembered.erase id } := by
  rintro e (he | he)
  · exact h e (.inl (Keyed.mem_erase.mp he).1)
  · exact h e (.inr he)

/-! ### What was remembered -/

/-- A step of a sweep keeps all three invariants. -/
structure Swept (reads : List RecoveryRead) (start latch : LimitRecoveryLatch) : Prop where
  fit : Fit latch
  holds : HoldsSighted reads latch
  frame : SameFrame latch start

theorem Swept.visitRemembered {start : LimitRecoveryLatch} (h : Swept reads start latch)
    (hold : Sighted reads evidence) : Swept reads start (latch.visitRemembered read evidence) := by
  have hwithout : Swept reads start
      { latch with remembered := latch.remembered.erase (evidenceId evidence) } :=
    ⟨h.fit.forget _, h.holds.forget _, h.frame⟩
  unfold LimitRecoveryLatch.visitRemembered
  simp only
  split_ifs
  · exact hwithout
  · exact h
  · exact ⟨hwithout.fit.stage _, hwithout.holds.stage hold,
      (stage_frame _ _).1.trans hwithout.frame⟩
  · exact hwithout

variable (read) in
theorem swept_sweepRemembered (hfit : Fit latch) (hholds : HoldsSighted reads latch) :
    Swept reads latch (latch.sweepRemembered read) := by
  have hold : ∀ e ∈ latch.remembered.values, Sighted reads e := fun e he => hholds e (.inl he)
  exact List.foldlRecOn latch.remembered.values _ ⟨hfit, hholds, .refl⟩
    fun _ h e he => h.visitRemembered (hold e he)

/-- What a visit leaves remembered is still observed, if it is what was visited. -/
theorem mem_visitRemembered {w : Evidence}
    (h : evidence ∈ (latch.visitRemembered read w).remembered) :
    evidence ∈ latch.remembered ∧ (evidenceId w = evidenceId evidence →
      (observed read.view).has (evidenceId evidence) = true) := by
  have herased : evidence ∈ latch.remembered.erase (evidenceId w) →
      evidence ∈ latch.remembered ∧ (evidenceId w = evidenceId evidence →
        (observed read.view).has (evidenceId evidence) = true) := by
    intro he
    obtain ⟨hmem, hne⟩ := Keyed.mem_erase.mp he
    exact ⟨hmem, fun heq => absurd heq.symm hne⟩
  unfold LimitRecoveryLatch.visitRemembered at h
  simp only at h
  split_ifs at h with hbound hobserved hgone
  · exact herased h
  · exact ⟨h, fun heq => heq ▸ hobserved⟩
  · rw [(stage_frame _ _).2] at h
    exact herased h
  · exact herased h

theorem mem_foldl_visitRemembered {values : List Evidence}
    (h : evidence ∈ (values.foldl (LimitRecoveryLatch.visitRemembered read) latch).remembered) :
    evidence ∈ latch.remembered ∧ (evidence ∈ values →
      (observed read.view).has (evidenceId evidence) = true) := by
  induction values generalizing latch with
  | nil => exact ⟨h, fun hmem => by cases hmem⟩
  | cons w rest ih =>
      obtain ⟨hvisited, hrest⟩ := ih h
      obtain ⟨hmem, hw⟩ := mem_visitRemembered hvisited
      refine ⟨hmem, fun hin => ?_⟩
      rcases List.mem_cons.mp hin with rfl | hin
      · exact hw rfl
      · exact hrest hin

/-- All that is still remembered after the sweep is observed. -/
theorem observed_of_mem_sweepRemembered
    (h : evidence ∈ (latch.sweepRemembered read).remembered) :
    (observed read.view).has (evidenceId evidence) = true := by
  obtain ⟨hmem, hobserved⟩ := mem_foldl_visitRemembered h
  exact hobserved hmem

theorem Sighted.cons (h : Sighted reads evidence) (hnot : ¬ShowsGone read evidence) :
    Sighted (read :: reads) evidence := by
  obtain ⟨later, shown, earlier, rfl, hshown, hlater⟩ := h
  refine ⟨read :: later, shown, earlier, rfl, hshown, ?_⟩
  intro r hr
  rcases List.mem_cons.mp hr with rfl | hr
  · exact hnot
  · exact hlater r hr

theorem sighted_of_observed (h : evidence ∈ observed read.view) : Sighted (read :: reads) evidence :=
  ⟨[], read, reads, rfl, Keyed.mem_of_mem_ofList h, by simp⟩

/-- After both sweeps all that is held has been seen and not been seen to go. -/
theorem swept_sweepStaged (hfit : Fit latch) (hholds : HoldsSighted reads latch) :
    Swept (read :: reads) latch ((latch.sweepRemembered read).sweepStaged read) := by
  obtain ⟨hfit', hholds', hframe⟩ := swept_sweepRemembered read hfit hholds
  refine ⟨⟨?_, hfit'.remembered, (Keyed.size_filter_le ..).trans hfit'.staged, hfit'.consumed⟩, ?_,
    hframe⟩
  · intro e he
    exact hfit'.outlasts e (Keyed.mem_filter.mp he).1
  · rintro e (he | he)
    · refine (hholds' e (.inl he)).cons fun hgone => ?_
      rw [ShowsGone, observed_of_mem_sweepRemembered he] at hgone
      cases hgone.1
    · obtain ⟨hstaged, hkept⟩ := Keyed.mem_filter.mp he
      refine (hholds' e (.inr hstaged)).cons fun hgone => ?_
      rw [hgone.1, hgone.2] at hkept
      simp at hkept

/-! ### What is observed -/

theorem Swept.visitObserved {start : LimitRecoveryLatch} (h : Swept (read :: reads) start latch)
    (hseen : evidence ∈ observed read.view) :
    Swept (read :: reads) start (latch.visitObserved read evidence) := by
  have hsighted : Sighted (read :: reads) evidence := sighted_of_observed hseen
  have hwithout : Swept (read :: reads) start
      { latch with remembered := latch.remembered.erase (evidenceId evidence) } :=
    ⟨h.fit.forget _, h.holds.forget _, h.frame⟩
  unfold LimitRecoveryLatch.visitObserved
  split_ifs with hconsumed hexpired hroom
  · exact h
  · exact ⟨hwithout.fit.stage _, hwithout.holds.stage hsighted,
      (stage_frame _ _).1.trans hwithout.frame⟩
  · rw [Bool.or_eq_true, decide_eq_true_eq] at hroom
    refine ⟨⟨h.fit.outlasts, Keyed.size_set_le h.fit.remembered hroom, h.fit.staged, h.fit.consumed⟩,
      ?_, h.frame⟩
    rintro e (he | he)
    · rcases Keyed.mem_set.mp he with rfl | ⟨hold, -⟩
      · exact hsighted
      · exact h.holds e (.inl hold)
    · exact h.holds e (.inr he)
  · exact h

/-- A read is taken in on top of the reads before it. -/
theorem swept_take (hfit : Fit (latch.enter read)) (hholds : HoldsSighted reads (latch.enter read)) :
    Swept (read :: reads) (latch.enter read) (latch.take read) :=
  List.foldlRecOn (observed read.view).values _ (swept_sweepStaged hfit hholds)
    fun _ h _ he => h.visitObserved he

/-! ### Consumption -/

theorem Fit.spend (h : Fit latch) {account : AccountKey}
    (hroom : latch.consumed.size + (latch.sameAccount account).length ≤ consumedBound) :
    Fit (latch.spend account) := by
  refine ⟨?_, h.remembered, (Keyed.size_filter_le ..).trans h.staged,
    (Keyed.size_foldl_set_le ..).trans hroom⟩
  intro e he c hc haccount
  obtain ⟨hstaged, hother⟩ := Keyed.mem_filter.mp he
  rcases Keyed.mem_foldl_set hc with hold | hnew
  · exact h.outlasts e hstaged c hold haccount
  · -- what was just spent is of another account
    have hspent := (List.mem_filter.mp hnew).2
    rw [decide_eq_true_eq] at hspent hother
    exact absurd (haccount ▸ hspent) hother

theorem HoldsSighted.spend (h : HoldsSighted reads latch) (account : AccountKey) :
    HoldsSighted reads (latch.spend account) := by
  rintro e (he | he)
  · exact h e (.inl he)
  · exact h e (.inr (Keyed.mem_filter.mp he).1)

end Parts

/-! ## A whole run -/

section Run

variable {latch : LimitRecoveryLatch} {read : RecoveryRead} {current : LimitsNamespace}
  {evidence : RecoveryEvidence} {earlier calls : List LatchCall}

theorem latchAfter_cons (call : LatchCall) (earlier : List LatchCall) :
    latchAfter (call :: earlier) = (latchAfter earlier).step call := rfl

structure LatchInv (reads : List RecoveryRead) (spent : List Evidence)
    (latch : LimitRecoveryLatch) : Prop where
  fit : Fit latch
  holds : HoldsSighted reads latch
  generation : ∀ r ∈ reads, latch.generation = some r.view.snapshot.generation
  spent : ∀ e ∈ spent, latch.consumed.has (evidenceId e) = true

theorem fit_initial : Fit {} where
  outlasts e he := absurd he (Keyed.not_mem_empty e)
  remembered := Nat.zero_le _
  staged := Nat.zero_le _
  consumed := Nat.zero_le _

theorem LatchInv.initial : LatchInv [] [] {} where
  fit := fit_initial
  holds := fun e he => he.elim (fun h => absurd h (Keyed.not_mem_empty e))
    fun h => absurd h (Keyed.not_mem_empty e)
  generation := by simp
  spent := by simp

/-- A read of the same generation is added to the reads before it. -/
theorem LatchInv.take {reads : List RecoveryRead} {spent : List Evidence}
    (h : LatchInv reads spent latch)
    (hsame : latch.generation = some read.view.snapshot.generation) :
    LatchInv (read :: reads) spent (latch.take read) := by
  have henter : latch.enter read = { latch with adopted := read.token } := if_pos hsame
  have hfit : Fit (latch.enter read) := by
    rw [henter]
    exact ⟨h.fit.outlasts, h.fit.remembered, h.fit.staged, h.fit.consumed⟩
  have hholds : HoldsSighted reads (latch.enter read) := by
    rw [henter]
    exact h.holds
  obtain ⟨hfit', hholds', hgeneration, -, -, hconsumed, -⟩ := swept_take hfit hholds
  rw [henter] at hgeneration hconsumed
  refine ⟨hfit', hholds', ?_, ?_⟩
  · intro r hr
    rw [hgeneration]
    rcases List.mem_cons.mp hr with rfl | hr
    · exact hsame
    · exact h.generation r hr
  · rw [hconsumed]
    exact h.spent

/-- A read of another generation is the only one. -/
theorem LatchInv.takeAnew (hother : latch.generation ≠ some read.view.snapshot.generation) :
    LatchInv [read] [] (latch.take read) := by
  have henter : latch.enter read =
      { latch with
        adopted := read.token
        generation := some read.view.snapshot.generation
        remembered := .empty
        staged := .empty
        consumed := .empty } := if_neg hother
  have hfit : Fit (latch.enter read) := by
    rw [henter]
    exact ⟨fit_initial.outlasts, fit_initial.remembered, fit_initial.staged, fit_initial.consumed⟩
  have hholds : HoldsSighted [] (latch.enter read) := by
    rw [henter]
    exact LatchInv.initial.holds
  obtain ⟨hfit', hholds', hgeneration, -⟩ := swept_take hfit hholds
  rw [henter] at hgeneration
  refine ⟨hfit', hholds', ?_, by simp⟩
  intro r hr
  rw [List.mem_singleton.mp hr]
  exact hgeneration

/-- What a call of `consume` does. -/
theorem consume_cases (latch : LimitRecoveryLatch) (evidence : RecoveryEvidence) :
    latch.consume evidence = (latch, false) ∨
      latch.consume evidence = ({ latch with exhausted := true, staged := .empty }, false) ∨
      (latch.consume evidence = (latch.spend evidence.account, true) ∧
        latch.staged.has (evidenceId evidence.toEvidence) = true ∧
        latch.consumed.size + (latch.sameAccount evidence.account).length ≤ consumedBound) := by
  unfold LimitRecoveryLatch.consume
  simp only
  split_ifs with hrefused hfull
  · exact .inl rfl
  · exact .inr (.inl rfl)
  · refine .inr (.inr ⟨rfl, ?_, not_lt.mp hfull⟩)
    simp only [Bool.or_eq_true, not_or, Bool.not_eq_true', Bool.not_eq_false] at hrefused
    exact hrefused.1.2

theorem LatchInv.spend {reads : List RecoveryRead} {spent : List Evidence}
    (h : LatchInv reads spent latch)
    (hstaged : latch.staged.has (evidenceId evidence.toEvidence) = true)
    (hroom : latch.consumed.size + (latch.sameAccount evidence.account).length ≤ consumedBound) :
    LatchInv reads (evidence.toEvidence :: (latch.sameAccount evidence.account ++ spent))
      (latch.spend evidence.account) := by
  refine ⟨h.fit.spend hroom, h.holds.spend _, h.generation, ?_⟩
  intro e he
  rw [LimitRecoveryLatch.spend, Keyed.has_foldl_set]
  rcases List.mem_cons.mp he with rfl | he
  · -- what stands under the id of the evidence is of its account
    obtain ⟨w, hw, hid⟩ := Keyed.has_iff.mp hstaged
    have haccount : w.account = evidence.account := congrArg Prod.fst hid
    exact .inr ⟨w, List.mem_filter.mpr ⟨hw, by simpa using haccount⟩, hid⟩
  · rcases List.mem_append.mp he with hnow | hbefore
    · exact .inr ⟨e, hnow, rfl⟩
    · exact .inl (h.spent e hbefore)

theorem LatchInv.exhaust {reads : List RecoveryRead} {spent : List Evidence}
    (h : LatchInv reads spent latch) :
    LatchInv reads spent { latch with exhausted := true, staged := .empty } := by
  refine ⟨⟨fun e he => absurd he (Keyed.not_mem_empty e), h.fit.remembered, Nat.zero_le _,
    h.fit.consumed⟩, ?_, h.generation, h.spent⟩
  rintro e (he | he)
  · exact h.holds e (.inl he)
  · exact absurd he (Keyed.not_mem_empty e)

/-- The invariant of every run. -/
theorem latchInv (calls : List LatchCall) :
    LatchInv (adoptedReads calls) (consumedSince calls) (latchAfter calls) := by
  induction calls with
  | nil => exact .initial
  | cons call earlier ih =>
      rw [latchAfter_cons]
      cases call with
      | capture view readAt => exact ⟨⟨ih.fit.1, ih.fit.2, ih.fit.3, ih.fit.4⟩, ih.2, ih.3, ih.4⟩
      | candidate account now => exact ih
      | adopt read current =>
          rw [adoptedReads, consumedSince, LimitRecoveryLatch.step, LimitRecoveryLatch.adopt]
          by_cases haccepts : (latchAfter earlier).accepts read current = true
          · by_cases hsame :
              (latchAfter earlier).generation = some read.view.snapshot.generation
            · rw [if_pos haccepts, if_pos hsame, if_neg (fun h => h.2 hsame), if_pos haccepts]
              exact ih.take hsame
            · rw [if_pos haccepts, if_neg hsame, if_pos ⟨haccepts, hsame⟩, if_pos haccepts]
              exact .takeAnew hsame
          · rw [if_neg haccepts, if_neg (fun h => haccepts h.1), if_neg haccepts]
            exact ih
      | consume evidence =>
          have hreads : adoptedReads (.consume evidence :: earlier) = adoptedReads earlier := rfl
          rw [hreads, consumedSince, LimitRecoveryLatch.step]
          rcases consume_cases (latchAfter earlier) evidence with h | h | ⟨h, hstaged, hroom⟩
          · rw [h]
            exact ih
          · rw [h]
            exact ih.exhaust
          · rw [h]
            exact ih.spend hstaged hroom

/-! ### What is offered -/

theorem better_mem {result : Option Evidence} {e best : Evidence}
    (h : LimitRecoveryLatch.better result e = some best) : best = e ∨ result = some best := by
  unfold LimitRecoveryLatch.better at h
  split at h
  · exact .inl (Option.some.inj h).symm
  · split_ifs at h
    · exact .inl (Option.some.inj h).symm
    · exact .inr h

theorem foldl_better_mem {values : List Evidence} {result : Option Evidence} {best : Evidence}
    (h : values.foldl LimitRecoveryLatch.better result = some best) :
    best ∈ values ∨ result = some best := by
  induction values generalizing result with
  | nil => exact .inr h
  | cons e rest ih =>
      rcases ih h with hrest | hstep
      · exact .inl (List.mem_cons_of_mem _ hrest)
      · rcases better_mem hstep with rfl | hresult
        · exact .inl List.mem_cons_self
        · exact .inr hresult

theorem candidate_eq_some {account : AccountKey} {now : ℚ} {offered : RecoveryEvidence}
    (h : latch.candidate account now = some offered) :
    latch.exhausted = false ∧ latch.generation = some offered.generation ∧
      offered.toEvidence ∈ latch.staged ∧ offered.account = account ∧ offered.untilAt ≤ now := by
  unfold LimitRecoveryLatch.candidate at h
  split_ifs at h with hexhausted
  obtain ⟨generation, hgeneration, h⟩ := Option.bind_eq_some_iff.mp h
  obtain ⟨best, hbest, rfl⟩ := Option.map_eq_some_iff.mp h
  have hmem := (foldl_better_mem hbest).resolve_right (by simp)
  obtain ⟨hstaged, hfits⟩ := List.mem_filter.mp hmem
  simp only [Bool.and_eq_true, decide_eq_true_eq] at hfits
  exact ⟨by simpa using hexhausted, hgeneration, hstaged, hfits.1, hfits.2⟩

/-! ### What a new generation forgets -/

def LimitRecoveryLatch.reissue (n : ℕ) (latch : LimitRecoveryLatch) : LimitRecoveryLatch :=
  { latch with issued := n }

section Reissue

variable (n : ℕ) (latch : LimitRecoveryLatch)

theorem stage_reissue (e : Evidence) : (latch.reissue n).stage e = (latch.stage e).reissue n := by
  simp only [LimitRecoveryLatch.stage, apply_ite (LimitRecoveryLatch.reissue n)]
  rfl

theorem visitRemembered_reissue (e : Evidence) :
    (latch.reissue n).visitRemembered read e = (latch.visitRemembered read e).reissue n := by
  simp only [LimitRecoveryLatch.visitRemembered, apply_ite (LimitRecoveryLatch.reissue n),
    ← stage_reissue]
  rfl

theorem visitObserved_reissue (e : Evidence) :
    (latch.reissue n).visitObserved read e = (latch.visitObserved read e).reissue n := by
  simp only [LimitRecoveryLatch.visitObserved, apply_ite (LimitRecoveryLatch.reissue n),
    ← stage_reissue]
  rfl

theorem enter_reissue : (latch.reissue n).enter read = (latch.enter read).reissue n := by
  simp only [LimitRecoveryLatch.enter, apply_ite (LimitRecoveryLatch.reissue n)]
  rfl

theorem take_reissue : (latch.reissue n).take read = (latch.take read).reissue n := by
  have hsweep : ∀ l : LimitRecoveryLatch,
      (l.reissue n).sweepRemembered read = (l.sweepRemembered read).reissue n := fun l =>
    List.foldl_hom (LimitRecoveryLatch.reissue n) fun l e => visitRemembered_reissue n l e
  have hstaged : ∀ l : LimitRecoveryLatch,
      (l.reissue n).sweepStaged read = (l.sweepStaged read).reissue n := fun _ => rfl
  have htaken : ∀ l : LimitRecoveryLatch,
      (l.reissue n).takeObserved read = (l.takeObserved read).reissue n := fun l =>
    List.foldl_hom (LimitRecoveryLatch.reissue n) fun l e => visitObserved_reissue n l e
  rw [LimitRecoveryLatch.take, LimitRecoveryLatch.take, enter_reissue, hsweep, hstaged, htaken]

end Reissue

/-- The token counter decides no call but a capture's answer. -/
theorem step_reissue (n : ℕ) (latch : LimitRecoveryLatch) (call : LatchCall) :
    ∃ m, (latch.reissue n).step call = (latch.step call).reissue m := by
  cases call with
  | capture view readAt => exact ⟨n + 1, rfl⟩
  | candidate account now => exact ⟨n, rfl⟩
  | adopt read current =>
      refine ⟨n, ?_⟩
      simp only [LimitRecoveryLatch.step, LimitRecoveryLatch.adopt, apply_ite Prod.fst,
        apply_ite (LimitRecoveryLatch.reissue n), ← take_reissue]
      rfl
  | consume evidence =>
      refine ⟨n, ?_⟩
      simp only [LimitRecoveryLatch.step, LimitRecoveryLatch.consume, apply_ite Prod.fst,
        apply_ite (LimitRecoveryLatch.reissue n)]
      rfl

theorem resume_reissue (n : ℕ) (latch : LimitRecoveryLatch) (calls : List LatchCall) :
    ∃ m, (latch.reissue n).resume calls = (latch.resume calls).reissue m := by
  induction calls with
  | nil => exact ⟨n, rfl⟩
  | cons call earlier ih =>
      obtain ⟨m, hm⟩ := ih
      rw [LimitRecoveryLatch.resume, LimitRecoveryLatch.resume, hm]
      exact step_reissue m _ call

theorem resume_append (latch : LimitRecoveryLatch) (later earlier : List LatchCall) :
    latch.resume (later ++ earlier) = (latch.resume earlier).resume later := by
  induction later with
  | nil => rfl
  | cons call later ih => rw [List.cons_append, LimitRecoveryLatch.resume, ih, LimitRecoveryLatch.resume]

/-- A read of another generation is adopted as a new latch would adopt it. -/
theorem adopt_anew (haccepts : latch.accepts read current = true)
    (hother : latch.generation ≠ some read.view.snapshot.generation)
    (hexhausted : latch.exhausted = false) :
    latch.step (.adopt read current) =
      (LimitRecoveryLatch.step {} (.adopt read current)).reissue latch.issued := by
  have hfresh : LimitRecoveryLatch.accepts {} read current = true := by
    have htoken : latch.adopted < read.token := by
      simp only [LimitRecoveryLatch.accepts, Bool.and_eq_true, decide_eq_true_eq] at haccepts
      exact haccepts.1.1.1.1.1
    simp only [LimitRecoveryLatch.accepts, Bool.and_eq_true, decide_eq_true_eq] at haccepts ⊢
    exact ⟨⟨⟨⟨⟨by omega, haccepts.1.1.1.1.2⟩, haccepts.1.1.1.2⟩, haccepts.1.1.2⟩, haccepts.1.2⟩,
      haccepts.2⟩
  have henter : latch.enter read = (({} : LimitRecoveryLatch).reissue latch.issued).enter read := by
    have hold : latch.enter read =
        { issued := latch.issued
          adopted := read.token
          generation := some read.view.snapshot.generation
          exhausted := latch.exhausted } := if_neg hother
    rw [hold, hexhausted]
    exact (if_neg fun h : none = some read.view.snapshot.generation => by cases h).symm
  have htake : latch.take read = (({} : LimitRecoveryLatch).take read).reissue latch.issued := by
    rw [← take_reissue, LimitRecoveryLatch.take, henter]
    rfl
  rw [LimitRecoveryLatch.step, LimitRecoveryLatch.adopt, if_pos haccepts, LimitRecoveryLatch.step,
    LimitRecoveryLatch.adopt, if_pos hfresh]
  exact htake

/-! ### An overflow -/

theorem stage_exhausted (latch : LimitRecoveryLatch) (e : Evidence) :
    (latch.stage e).exhausted = latch.exhausted := (stage_frame latch e).1.2.2.2.2

theorem take_exhausted (latch : LimitRecoveryLatch) (read : RecoveryRead) :
    (latch.take read).exhausted = latch.exhausted := by
  have hentered : (latch.enter read).exhausted = latch.exhausted := by
    rw [LimitRecoveryLatch.enter]
    split_ifs <;> rfl
  have hremembered : ((latch.enter read).sweepRemembered read).exhausted = latch.exhausted := by
    refine List.foldlRecOn (motive := fun l : LimitRecoveryLatch => l.exhausted = latch.exhausted) _ _ hentered
      fun l hl e _ => ?_
    unfold LimitRecoveryLatch.visitRemembered
    simp only
    split_ifs
    · exact hl
    · exact hl
    · exact (stage_exhausted _ e).trans hl
    · exact hl
  refine List.foldlRecOn (motive := fun l : LimitRecoveryLatch => l.exhausted = latch.exhausted) _ _ hremembered
    fun l hl e _ => ?_
  unfold LimitRecoveryLatch.visitObserved
  split_ifs
  · exact hl
  · exact (stage_exhausted _ e).trans hl
  · exact hl
  · exact hl

theorem step_exhausted (h : latch.exhausted = true) (call : LatchCall) :
    (latch.step call).exhausted = true := by
  cases call with
  | capture view readAt => exact h
  | candidate account now => exact h
  | adopt read current =>
      rw [LimitRecoveryLatch.step, LimitRecoveryLatch.adopt]
      split_ifs
      · exact (take_exhausted latch read).trans h
      · exact h
  | consume evidence =>
      rw [LimitRecoveryLatch.step]
      rcases consume_cases latch evidence with heq | heq | ⟨heq, -⟩
      · rw [heq]
        exact h
      · rw [heq]
      · rw [heq]
        exact h

theorem resume_exhausted (h : latch.exhausted = true) (later : List LatchCall) :
    (latch.resume later).exhausted = true := by
  induction later with
  | nil => exact h
  | cons call later ih => exact step_exhausted ih call

end Run

/-! ## The guarantees -/

/-- What a latch offers after these calls. Evidence that was consumed stays consumed,
only what a read showed is offered, and the maps keep their bounds. A new generation
starts anew, unless consumption had once reached its bound: nothing is offered from
then on. -/
structure LatchGuarantees (calls : List LatchCall) : Prop where
  consumed : ∀ account now offered, (latchAfter calls).candidate account now = some offered →
    ∀ spent ∈ consumedSince calls, spent.account = offered.account →
      ¬(offered.untilAt ≤ spent.untilAt ∧ offered.evidenceAt ≤ spent.evidenceAt)
  seen : ∀ account now offered, (latchAfter calls).candidate account now = some offered →
    offered.account = account ∧ offered.untilAt ≤ now ∧
      (∀ read ∈ adoptedReads calls, read.view.snapshot.generation = offered.generation) ∧
      Sighted (adoptedReads calls) offered.toEvidence
  anew : ∀ later read current earlier, calls = later ++ .adopt read current :: earlier →
    (latchAfter earlier).accepts read current = true →
    (latchAfter earlier).generation ≠ some read.view.snapshot.generation →
    (latchAfter earlier).exhausted = false →
      ∀ account now, (latchAfter calls).candidate account now =
        (latchAfter (later ++ [.adopt read current])).candidate account now
  overflowed : ∀ later earlier, calls = later ++ earlier →
    (latchAfter earlier).exhausted = true →
      ∀ account now, (latchAfter calls).candidate account now = none
  bounded : (latchAfter calls).remembered.size ≤ rememberedBound ∧
    (latchAfter calls).staged.size ≤ stagedBound ∧ (latchAfter calls).consumed.size ≤ consumedBound

theorem latch_guarantees (calls : List LatchCall) : LatchGuarantees calls where
  consumed := by
    intro account now offered hoffered spent hspent haccount
    obtain ⟨-, -, hstaged, -, -⟩ := candidate_eq_some hoffered
    obtain ⟨c, hc, hid⟩ := Keyed.has_iff.mp ((latchInv calls).spent spent hspent)
    -- what was consumed may differ from what stands under its id in the revision only
    have hparts : c.account = spent.account ∧ c.untilAt = spent.untilAt ∧
        c.evidenceAt = spent.evidenceAt := by
      simpa [evidenceId] using hid
    have houtlasts := (latchInv calls).fit.outlasts _ hstaged c hc (hparts.1.trans haccount)
    rwa [hparts.2.1, hparts.2.2] at houtlasts
  seen := by
    intro account now offered hoffered
    obtain ⟨-, hgeneration, hstaged, haccount, hexpired⟩ := candidate_eq_some hoffered
    refine ⟨haccount, hexpired, ?_, (latchInv calls).holds _ (.inr hstaged)⟩
    intro read hread
    have hread' := (latchInv calls).generation read hread
    rw [hgeneration] at hread'
    exact (Option.some.inj hread').symm
  anew := by
    rintro later read current earlier rfl haccepts hother hexhausted account now
    have hstep := adopt_anew haccepts hother hexhausted
    obtain ⟨m, hm⟩ := resume_reissue (latchAfter earlier).issued
      (LimitRecoveryLatch.step {} (.adopt read current)) later
    have hafter : latchAfter (later ++ .adopt read current :: earlier) =
        (latchAfter (later ++ [.adopt read current])).reissue m := by
      rw [latchAfter, resume_append, latchAfter, resume_append]
      exact (congrArg (fun l : LimitRecoveryLatch => l.resume later) hstep).trans hm
    rw [hafter]
    rfl
  overflowed := by
    rintro later earlier rfl hexhausted account now
    have hafter : (latchAfter (later ++ earlier)).exhausted = true := by
      rw [latchAfter, resume_append]
      exact resume_exhausted hexhausted later
    exact if_pos hafter
  bounded := ⟨(latchInv calls).fit.remembered, (latchInv calls).fit.staged,
    (latchInv calls).fit.consumed⟩

/-! ## An overflow outlives its generation -/

section Overflow

def limitedAccount : AccountKey where
  namespaceId := "openai"
  accountId := "a"
  incarnation := "1"

/-- A namespace whose only mark is one of the account's, noted at `n`. -/
def markedAt (generation : String) (n : ℕ) : LimitsNamespace where
  namespaceId := "openai"
  generation := generation
  revision := 0
  marks := [{
    key := { account := limitedAccount, scope := "pool", window := "account" }
    entries := [{ cause := "rate-limit", untilAt := 0, evidenceAt := n, committedRevision := 0 }] }]

def markedRead (generation : String) (n : ℕ) : RecoveryRead where
  token := n + 1
  view := { snapshot := markedAt generation n, bindings := [limitedAccount], authoritative := true }
  readAt := 0

def notedAt (n : ℕ) : Evidence where
  account := limitedAccount
  untilAt := 0
  evidenceAt := n
  committedRevision := 0

/-- Each mark is read and its evidence consumed, latest first. -/
def rounds : ℕ → List LatchCall
  | 0 => []
  | n + 1 =>
      .consume { toEvidence := notedAt n, generation := "first" } ::
        .adopt (markedRead "first" n) (markedAt "first" n) :: rounds n

theorem notedAt_injective : Function.Injective fun n => evidenceId (notedAt n) := by
  intro a b h
  have hat : (a : ℚ) = b := congrArg (fun id : AccountKey × ℚ × ℚ => id.2.2) h
  exact_mod_cast hat

def spentRounds (n : ℕ) : Keyed evidenceId where
  values := (List.range n).map notedAt
  nodup := by
    rw [List.map_map]
    exact List.nodup_range.map notedAt_injective

theorem spentRounds_fresh (n : ℕ) : (spentRounds n).has (evidenceId (notedAt n)) = false := by
  refine Keyed.has_eq_false.mpr fun e he hid => ?_
  obtain ⟨i, hi, rfl⟩ := List.mem_map.mp he
  rw [notedAt_injective hid] at hi
  exact absurd (List.mem_range.mp hi) (Nat.lt_irrefl n)

theorem spentRounds_succ (n : ℕ) : (spentRounds n).set (notedAt n) = spentRounds (n + 1) := by
  refine Keyed.ext ?_
  have hrange : (List.range (n + 1)).map notedAt = (List.range n).map notedAt ++ [notedAt n] := by
    rw [List.range_succ, List.map_append]
    rfl
  rw [Keyed.set_of_absent (spentRounds_fresh n)]
  exact hrange.symm

def roundLatch (n : ℕ) : LimitRecoveryLatch where
  generation := if n = 0 then none else some "first"
  adopted := n
  consumed := spentRounds n

/-- The mark of the next round has been read. -/
def readLatch (n : ℕ) (staged : Keyed evidenceId) : LimitRecoveryLatch where
  generation := some "first"
  adopted := n + 1
  staged := staged
  consumed := spentRounds n

theorem readLatch_not_isOutlived (n : ℕ) (staged : Keyed evidenceId) :
    (readLatch n staged).isOutlived (notedAt n) = false := by
  have hat : ∀ e ∈ spentRounds n, ¬((n : ℚ) ≤ e.evidenceAt) := by
    intro e he hle
    obtain ⟨i, hi, rfl⟩ := List.mem_map.mp he
    have hin : (n : ℚ) ≤ i := hle
    exact absurd (List.mem_range.mp hi) (not_lt.mpr (by exact_mod_cast hin))
  rw [LimitRecoveryLatch.isOutlived, Bool.and_eq_false_iff]
  refine .inr (List.any_eq_false.mpr fun e he => ?_)
  rw [decide_eq_true_eq]
  exact hat e (List.mem_filter.mp he).1

theorem adopt_round (n : ℕ) :
    (roundLatch n).step (.adopt (markedRead "first" n) (markedAt "first" n)) =
      readLatch n (.set .empty (notedAt n)) := by
  have haccepts : (roundLatch n).accepts (markedRead "first" n) (markedAt "first" n) = true := by
    simp [LimitRecoveryLatch.accepts, roundLatch, markedRead]
  have henter : (roundLatch n).enter (markedRead "first" n) = readLatch n .empty := by
    cases n with
    | zero => exact if_neg fun h : none = some "first" => by cases h
    | succ n => exact if_pos rfl
  have hvisit : (readLatch n .empty).visitObserved (markedRead "first" n) (notedAt n) =
      readLatch n (.set .empty (notedAt n)) := by
    have hfresh : ¬((readLatch n .empty).consumed.has (evidenceId (notedAt n)) = true) := by
      rw [readLatch, spentRounds_fresh]
      simp
    have houtlived : ¬((readLatch n .empty).isOutlived (notedAt n) = true) := by
      rw [readLatch_not_isOutlived]
      simp
    have hexpired : (notedAt n).untilAt ≤ (markedRead "first" n).readAt := le_refl _
    have hstage : (readLatch n .empty).stage (notedAt n) = readLatch n (.set .empty (notedAt n)) := by
      rw [LimitRecoveryLatch.stage, if_neg, if_neg houtlived]
      · rfl
      · rw [readLatch, spentRounds_fresh]
        simp
    rw [LimitRecoveryLatch.visitObserved, if_neg hfresh, if_pos hexpired]
    exact hstage
  rw [LimitRecoveryLatch.step, LimitRecoveryLatch.adopt, if_pos haccepts, LimitRecoveryLatch.take,
    henter]
  exact hvisit

theorem consume_round (n : ℕ) :
    (readLatch n (.set .empty (notedAt n))).consume
        { toEvidence := notedAt n, generation := "first" } =
      if n < consumedBound then (roundLatch (n + 1), true)
      else ({ readLatch n .empty with exhausted := true }, false) := by
  have hsame : (readLatch n (.set .empty (notedAt n))).sameAccount limitedAccount = [notedAt n] := rfl
  have hsize : (spentRounds n).size = n := by
    rw [Keyed.size, spentRounds, List.length_map, List.length_range]
  have hspend : (readLatch n (.set .empty (notedAt n))).spend limitedAccount =
      roundLatch (n + 1) := by
    rw [LimitRecoveryLatch.spend, hsame, roundLatch, ← spentRounds_succ]
    rfl
  have hopen : ¬(((readLatch n (.set .empty (notedAt n))).exhausted ||
      (readLatch n (.set .empty (notedAt n))).generation ≠ some "first" ||
      !(readLatch n (.set .empty (notedAt n))).staged.has (evidenceId (notedAt n)) ||
      (readLatch n (.set .empty (notedAt n))).consumed.has (evidenceId (notedAt n))) = true) := by
    have hstaged : (Keyed.set .empty (notedAt n) : Keyed evidenceId).has (evidenceId (notedAt n)) =
        true :=
      Keyed.has_of_mem (Keyed.mem_set.mpr (.inl rfl))
    simp [readLatch, hstaged, spentRounds_fresh]
  rw [LimitRecoveryLatch.consume, if_neg hopen]
  change (if consumedBound < (spentRounds n).size + 1 then _ else
    ((readLatch n (.set .empty (notedAt n))).spend limitedAccount, true)) = _
  rw [hsize, hspend]
  by_cases hroom : n < consumedBound
  · rw [if_pos hroom, if_neg (by omega)]
  · rw [if_neg hroom, if_pos (by omega)]
    rfl

theorem latchAfter_rounds {n : ℕ} (h : n ≤ consumedBound) : latchAfter (rounds n) = roundLatch n := by
  induction n with
  | zero => rfl
  | succ n ih =>
      have hround := consume_round n
      rw [if_pos (Nat.lt_of_succ_le h)] at hround
      rw [rounds, latchAfter_cons, latchAfter_cons, ih (by omega), adopt_round,
        LimitRecoveryLatch.step, hround]

/-- One more than the bound. -/
theorem latchAfter_overflow : latchAfter (rounds (consumedBound + 1)) =
    { readLatch consumedBound .empty with exhausted := true } := by
  have hround := consume_round consumedBound
  rw [if_neg (Nat.lt_irrefl _)] at hround
  rw [rounds, latchAfter_cons, latchAfter_cons, latchAfter_rounds le_rfl, adopt_round,
    LimitRecoveryLatch.step, hround]

theorem candidate_anew (generation : String) (n : ℕ) :
    (latchAfter [.adopt (markedRead generation n) (markedAt generation n)]).candidate
        limitedAccount 0 = some { toEvidence := notedAt n, generation } := by
  have haccepts : LimitRecoveryLatch.accepts {} (markedRead generation n)
      (markedAt generation n) = true := by
    simp [LimitRecoveryLatch.accepts, markedRead]
  have hadopted : latchAfter [.adopt (markedRead generation n) (markedAt generation n)] =
      LimitRecoveryLatch.take {} (markedRead generation n) :=
    congrArg Prod.fst (if_pos haccepts)
  rw [hadopted]
  rfl

/-- After an overflow a read of a new generation is not all that decides: a new latch
offers what the old one does not. -/
theorem latch_stays_exhausted :
    ¬∀ later read current earlier,
      (latchAfter earlier).accepts read current = true →
      (latchAfter earlier).generation ≠ some read.view.snapshot.generation →
        ∀ account now,
          (latchAfter (later ++ .adopt read current :: earlier)).candidate account now =
            (latchAfter (later ++ [.adopt read current])).candidate account now := by
  intro h
  have hoffer := h [] (markedRead "second" (consumedBound + 1))
    (markedAt "second" (consumedBound + 1)) (rounds (consumedBound + 1))
    (by rw [latchAfter_overflow]; rfl)
    (by
      rw [latchAfter_overflow]
      intro hsame
      exact absurd (Option.some.inj hsame) (by decide))
    limitedAccount 0
  have hoverflow : (latchAfter (rounds (consumedBound + 1))).exhausted = true := by
    rw [latchAfter_overflow]
  have hold := step_exhausted hoverflow
    (.adopt (markedRead "second" (consumedBound + 1)) (markedAt "second" (consumedBound + 1)))
  rw [List.nil_append, List.nil_append, candidate_anew, latchAfter_cons,
    LimitRecoveryLatch.candidate, if_pos hold] at hoffer
  cases hoffer

end Overflow

end Limits
