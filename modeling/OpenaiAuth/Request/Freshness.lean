import Mathlib.Data.List.ReduceOption
import Mathlib.Tactic.Linarith
import OpenaiAuth.Request.Sticky
import OpenaiAuth.Sidebar.Quota

/-! # Which of two readings is the fresher

A request judges an account on the process's own quota entry or on the row of the
sidebar file, `freshestQuotaSnapshot`; the sidebar ranks two snapshots by the latest
stamp each carries, `latestQuotaCheckedAt`. The first goes by the first stamp there is,
in the order primary window, secondary window, snapshot, entry.

Main result: `freshest_agrees_iff` says for which pairs of readings the two agree.
-/

namespace Request

open Sidebar Sidebar.Quota

/-! ## The stamps of a reading -/

def primaryCheckedAt (quota : Option AccountQuota) : Option ℚ :=
  (quota.bind (·.primary)).bind (·.checkedAt)

def secondaryCheckedAt (quota : Option AccountQuota) : Option ℚ :=
  (quota.bind (·.secondary)).bind (·.checkedAt)

/-- The stamps there are, in the order `quotaCheckedAt` looks at them. -/
def stamps (quota : Option AccountQuota) (entryCheckedAt : Option ℚ) : List ℚ :=
  [primaryCheckedAt quota, secondaryCheckedAt quota, quota.bind (·.checkedAt),
    entryCheckedAt].reduceOption

theorem quotaCheckedAt_eq_head (quota : Option AccountQuota) (entryCheckedAt : Option ℚ) :
    quotaCheckedAt quota entryCheckedAt = (stamps quota entryCheckedAt).head? := by
  unfold quotaCheckedAt stamps primaryCheckedAt secondaryCheckedAt
  generalize (quota.bind (·.primary)).bind (·.checkedAt) = primary
  generalize (quota.bind (·.secondary)).bind (·.checkedAt) = secondary
  generalize quota.bind (·.checkedAt) = snapshot
  cases primary <;> cases secondary <;> cases snapshot <;> cases entryCheckedAt <;> rfl

theorem latestQuotaCheckedAt_eq_max (quota : Option AccountQuota) :
    latestQuotaCheckedAt quota = (stamps quota none).max? := by
  unfold latestQuotaCheckedAt stamps primaryCheckedAt secondaryCheckedAt
  generalize (quota.bind (·.primary)).bind (·.checkedAt) = primary
  generalize (quota.bind (·.secondary)).bind (·.checkedAt) = secondary
  generalize quota.bind (·.checkedAt) = snapshot
  cases primary <;> cases secondary <;> cases snapshot <;> rfl

/-- The latest stamp of an entry, as the sidebar is shown it: its windows and the time
of the entry. -/
def latestCheckedAt (entry : QuotaEntry) : Option ℚ :=
  (stamps (some entry.quota) (some entry.checkedAt)).max?

theorem existingIsFresher_iff {incomingAt existingAt : Option ℚ} :
    existingIsFresher incomingAt existingAt = true ↔
      ∃ existing ∈ existingAt, ∀ incoming ∈ incomingAt, incoming < existing := by
  cases incomingAt <;> cases existingAt <;> simp [existingIsFresher]

/-- Before the maximum of a list is before none of it. -/
theorem max?_lt_iff {l : List ℚ} {bound : ℚ} :
    (∀ top ∈ l.max?, top < bound) ↔ ∀ stamp ∈ l, stamp < bound := by
  constructor
  · intro h stamp hmem
    cases htop : l.max? with
    | none => rw [List.max?_eq_none_iff.mp htop] at hmem; cases hmem
    | some top => exact ((List.max?_eq_some_iff.mp htop).2 stamp hmem).trans_lt (h top htop)
  · intro h top htop
    exact h top (List.max?_eq_some_iff.mp htop).1

/-- The first of a list is its maximum when none is greater. -/
theorem head?_eq_max?_iff {l : List ℚ} :
    l.head? = l.max? ↔ ∀ first ∈ l.head?, ∀ stamp ∈ l, stamp ≤ first := by
  cases l with
  | nil => simp
  | cons first rest =>
    rw [List.head?_cons, eq_comm, List.max?_eq_some_iff]
    simp

/-! ## The two rankings -/

inductive Source where
  | memory
  | file
deriving DecidableEq, Repr

/-- The `source` of `freshestQuotaSnapshot`, for a row of the same identity. -/
def snapshotSource (memory : Option QuotaEntry) (file : Option AccountQuota) : Source :=
  if file.isSome && (memory.isNone || existingIsFresher
      (quotaCheckedAt (memory.map (·.quota)) (memory.map (·.checkedAt)))
      (quotaCheckedAt file none)) then .file
  else .memory

def freshestOf (memory : Option QuotaEntry) (file : Option AccountQuota)
    (accountId : Option String) : FreshestQuota :=
  freshestQuotaSnapshot (memory.map (·.quota)) (memory.map (·.checkedAt)) file accountId accountId

theorem freshestOf_eq (memory : Option QuotaEntry) (file : Option AccountQuota)
    (accountId : Option String) :
    freshestOf memory file accountId =
      match snapshotSource memory file with
      | .file => ⟨file, quotaCheckedAt file none⟩
      | .memory => ⟨memory.map (·.quota),
          quotaCheckedAt (memory.map (·.quota)) (memory.map (·.checkedAt))⟩ := by
  unfold freshestOf freshestQuotaSnapshot snapshotSource
  generalize quotaCheckedAt (memory.map (·.quota)) (memory.map (·.checkedAt)) = memoryCheckedAt
  generalize quotaCheckedAt file none = fileCheckedAt
  by_cases taken : (file.isSome &&
      (memory.isNone || existingIsFresher memoryCheckedAt fileCheckedAt)) = true
  · rw [if_pos taken]
    refine if_pos ?_
    cases memoryCheckedAt <;> cases fileCheckedAt <;> simpa [existingIsFresher] using taken
  · rw [if_neg taken]
    refine if_neg ?_
    cases memoryCheckedAt <;> cases fileCheckedAt <;> simpa [existingIsFresher] using taken

/-- The side whose latest stamp is the later one; the file where memory holds nothing. -/
def fresherSource (memory : Option QuotaEntry) (file : Option AccountQuota) : Source :=
  if file.isSome && memory.all fun entry =>
      existingIsFresher (latestCheckedAt entry) (latestQuotaCheckedAt file) then .file
  else .memory

def latestOn (memory : Option QuotaEntry) (file : Option AccountQuota) : Source → Option ℚ
  | .file => latestQuotaCheckedAt file
  | .memory => memory.bind latestCheckedAt

/-! ## Where they agree -/

/-- A reading is fresh when one of its windows is at most `quotaStalenessMs` old. -/
def HasFreshWindow (quota : Option AccountQuota) (now : ℚ) : Prop :=
  (∃ stamp ∈ primaryCheckedAt quota, now - stamp ≤ quotaStalenessMs) ∨
    ∃ stamp ∈ secondaryCheckedAt quota, now - stamp ≤ quotaStalenessMs

/-- What is promised of the two rankings: they take the same side, the stamp reported is
its latest, and no reading with a fresh window is called stale. -/
structure Agrees (memory : Option QuotaEntry) (file : Option AccountQuota)
    (accountId : Option String) : Prop where
  ranked : snapshotSource memory file = fresherSource memory file
  reported : (freshestOf memory file accountId).quotaCheckedAt =
    latestOn memory file (snapshotSource memory file)
  fresh : ∀ now, HasFreshWindow (freshestOf memory file accountId).quota now →
    readingIsFresh (freshestOf memory file accountId).quota
      (freshestOf memory file accountId).quotaCheckedAt now = true

/-- No stamp of a reading is later than its first one; nor, where the primary window has
none, is that of the secondary window later than the one of the snapshot, which
`snapshotCheckedAt` prefers. -/
structure InOrder (quota : Option AccountQuota) (entryCheckedAt : Option ℚ) : Prop where
  first : ∀ first ∈ quotaCheckedAt quota entryCheckedAt,
    ∀ stamp ∈ stamps quota entryCheckedAt, stamp ≤ first
  secondary : primaryCheckedAt quota = none →
    ∀ snapshot ∈ quota.bind (·.checkedAt), ∀ stamp ∈ secondaryCheckedAt quota, stamp ≤ snapshot

/-- The readings on which the rankings agree: of the two first stamps the later one is
the latest of all, on both sides, and its own reading is in order. -/
def Comparable (memory : Option QuotaEntry) (file : Option AccountQuota) : Prop :=
  match memory, file with
  | none, file => InOrder file none
  | some entry, none => InOrder (some entry.quota) (some entry.checkedAt)
  | some entry, some file =>
      let ofMemory := stamps (some entry.quota) (some entry.checkedAt)
      let ofFile := stamps (some file) none
      if ∃ first ∈ ofFile.head?, ∀ other ∈ ofMemory.head?, other < first then
        InOrder (some file) none ∧ ∀ first ∈ ofFile.head?, ∀ stamp ∈ ofMemory, stamp < first
      else InOrder (some entry.quota) (some entry.checkedAt) ∧
        ∀ first ∈ ofMemory.head?, ∀ stamp ∈ ofFile, stamp ≤ first

theorem reported_iff {quota : Option AccountQuota} {entryCheckedAt : Option ℚ} :
    quotaCheckedAt quota entryCheckedAt = (stamps quota entryCheckedAt).max? ↔
      ∀ first ∈ quotaCheckedAt quota entryCheckedAt,
        ∀ stamp ∈ stamps quota entryCheckedAt, stamp ≤ first := by
  rw [quotaCheckedAt_eq_head]
  exact head?_eq_max?_iff

/-- With the first stamp the latest, a fresh window goes unseen only where
`snapshotCheckedAt` passes the secondary window by for an older snapshot stamp. -/
theorem fresh_iff {quota : Option AccountQuota} {entryCheckedAt : Option ℚ}
    (first : ∀ first ∈ quotaCheckedAt quota entryCheckedAt,
      ∀ stamp ∈ stamps quota entryCheckedAt, stamp ≤ first) :
    (∀ now, HasFreshWindow quota now →
      readingIsFresh quota (quotaCheckedAt quota entryCheckedAt) now = true) ↔
    (primaryCheckedAt quota = none →
      ∀ snapshot ∈ quota.bind (·.checkedAt), ∀ stamp ∈ secondaryCheckedAt quota,
        stamp ≤ snapshot) := by
  cases quota with
  | none => simp [HasFreshWindow, primaryCheckedAt, secondaryCheckedAt]
  | some quota =>
    rw [quotaCheckedAt_eq_head] at first ⊢
    unfold stamps at first ⊢
    have seen : ∀ entry, snapshotCheckedAt (some quota) entry =
        (primaryCheckedAt (some quota)).or (quota.checkedAt.or entry) := fun entry => rfl
    simp only [readingIsFresh, seen, HasFreshWindow, Option.isSome_some, Bool.true_and,
      Option.bind_some] at first ⊢
    generalize primaryCheckedAt (some quota) = primary at first ⊢
    generalize secondaryCheckedAt (some quota) = secondary at first ⊢
    generalize quota.checkedAt = snapshot at first ⊢
    cases primary with
    | some primary =>
      -- the primary stamp is first, and seen first
      cases secondary with
      | none => simp
      | some secondary =>
        have later : secondary ≤ primary :=
          first primary (by simp [List.reduceOption]) secondary (by simp [List.reduceOption])
        simp only [Option.mem_def, Option.some.injEq, exists_eq_left', reduceCtorEq, false_implies,
          iff_true, Option.some_or, Option.any_some, Bool.not_eq_true', decide_eq_false_iff_not,
          not_lt]
        rintro now (fresh | fresh) <;> linarith
    | none =>
      cases secondary with
      | none => simp
      | some secondary =>
        cases snapshot with
        | none => simp [List.reduceOption]
        | some snapshot =>
          simp only [Option.mem_def, Option.some.injEq, exists_eq_left', reduceCtorEq, false_and,
            exists_false, false_or, forall_const, Option.none_or, Option.some_or, Option.any_some,
            Bool.not_eq_true', decide_eq_false_iff_not, not_lt, forall_eq']
          constructor
          · intro fresh
            have := fresh (secondary + quotaStalenessMs) (by linarith)
            linarith
          · intro later now fresh
            linarith

/-- One side by itself: what it reports, and what it is judged on. -/
theorem inOrder_iff {quota : Option AccountQuota} {entryCheckedAt : Option ℚ} :
    (quotaCheckedAt quota entryCheckedAt = (stamps quota entryCheckedAt).max? ∧
      ∀ now, HasFreshWindow quota now →
        readingIsFresh quota (quotaCheckedAt quota entryCheckedAt) now = true) ↔
    InOrder quota entryCheckedAt := by
  constructor
  · rintro ⟨reported, fresh⟩
    have first := reported_iff.mp reported
    exact ⟨first, (fresh_iff first).mp fresh⟩
  · intro inOrder
    exact ⟨reported_iff.mpr inOrder.first, (fresh_iff inOrder.first).mpr inOrder.secondary⟩

theorem agrees_file {memory : Option QuotaEntry} {file : Option AccountQuota}
    (accountId : Option String) (taken : snapshotSource memory file = .file) :
    Agrees memory file accountId ↔ fresherSource memory file = .file ∧ InOrder file none := by
  rw [← inOrder_iff, ← latestQuotaCheckedAt_eq_max]
  constructor
  · rintro ⟨ranked, reported, fresh⟩
    rw [freshestOf_eq, taken] at reported fresh
    exact ⟨ranked.symm.trans taken, reported, fresh⟩
  · rintro ⟨ranked, reported, fresh⟩
    refine ⟨taken.trans ranked.symm, ?_, ?_⟩ <;> rw [freshestOf_eq, taken]
    · exact reported
    · exact fresh

theorem agrees_memory {memory : Option QuotaEntry} {file : Option AccountQuota}
    (accountId : Option String) (taken : snapshotSource memory file = .memory) :
    Agrees memory file accountId ↔ fresherSource memory file = .memory ∧
      InOrder (memory.map (·.quota)) (memory.map (·.checkedAt)) := by
  have latest : latestOn memory file .memory =
      (stamps (memory.map (·.quota)) (memory.map (·.checkedAt))).max? := by
    cases memory <;> rfl
  rw [← inOrder_iff, ← latest]
  constructor
  · rintro ⟨ranked, reported, fresh⟩
    rw [freshestOf_eq, taken] at reported fresh
    exact ⟨ranked.symm.trans taken, reported, fresh⟩
  · rintro ⟨ranked, reported, fresh⟩
    refine ⟨taken.trans ranked.symm, ?_, ?_⟩ <;> rw [freshestOf_eq, taken]
    · exact reported
    · exact fresh

theorem snapshotSource_both (entry : QuotaEntry) (file : AccountQuota) :
    snapshotSource (some entry) (some file) = .file ↔
      ∃ first ∈ (stamps (some file) none).head?,
        ∀ other ∈ (stamps (some entry.quota) (some entry.checkedAt)).head?, other < first := by
  unfold snapshotSource
  simp only [Option.isSome_some, Option.isNone_some, Bool.true_and, Bool.false_or, Option.map_some,
    quotaCheckedAt_eq_head, ← existingIsFresher_iff]
  split <;> simp [*]

theorem fresherSource_both (entry : QuotaEntry) (file : AccountQuota) :
    fresherSource (some entry) (some file) = .file ↔
      ∃ latest ∈ (stamps (some file) none).max?,
        ∀ stamp ∈ stamps (some entry.quota) (some entry.checkedAt), stamp < latest := by
  unfold fresherSource
  simp only [Option.isSome_some, Bool.true_and, Option.all_some, latestQuotaCheckedAt_eq_max,
    latestCheckedAt]
  rw [← exists_congr fun latest => and_congr_right fun _ => max?_lt_iff, ← existingIsFresher_iff]
  split <;> simp [*]

theorem fresherSource_both_memory (entry : QuotaEntry) (file : AccountQuota) :
    fresherSource (some entry) (some file) = .memory ↔
      ∀ latest ∈ (stamps (some entry.quota) (some entry.checkedAt)).max?,
        ∀ stamp ∈ stamps (some file) none, stamp ≤ latest := by
  constructor
  · intro memory latest hlatest stamp hstamp
    by_contra later
    -- then the latest of the file is later than all of the entry
    cases htop : (stamps (some file) none).max? with
    | none =>
      rw [List.max?_eq_none_iff.mp htop] at hstamp
      cases hstamp
    | some top =>
      have hle := (List.max?_eq_some_iff.mp htop).2 stamp hstamp
      have htaken := (fresherSource_both entry file).mpr ⟨top, htop, fun other hother =>
        ((List.max?_eq_some_iff.mp hlatest).2 other hother).trans_lt
          ((not_le.mp later).trans_le hle)⟩
      rw [memory] at htaken
      cases htaken
  · intro earlier
    cases htaken : fresherSource (some entry) (some file) with
    | memory => rfl
    | file =>
      obtain ⟨top, htop, before⟩ := (fresherSource_both entry file).mp htaken
      have hentry : entry.checkedAt ∈ stamps (some entry.quota) (some entry.checkedAt) := by
        rw [stamps, List.reduceOption_mem_iff]
        simp
      cases hlatest : (stamps (some entry.quota) (some entry.checkedAt)).max? with
      | none =>
        rw [List.max?_eq_none_iff.mp hlatest] at hentry
        cases hentry
      | some latest =>
        have hle := earlier latest hlatest top (List.max?_eq_some_iff.mp htop).1
        exact absurd (before latest (List.max?_eq_some_iff.mp hlatest).1) (not_lt.mpr hle)

/-- The request and the sidebar agree on a pair of readings exactly when it is
comparable by first stamps. -/
theorem freshest_agrees_iff (memory : Option QuotaEntry) (file : Option AccountQuota)
    (accountId : Option String) :
    Agrees memory file accountId ↔ Comparable memory file := by
  cases memory with
  | none =>
    cases file with
    | none =>
      rw [agrees_memory accountId rfl]
      exact and_iff_right rfl
    | some file =>
      -- nothing in memory: both take the file
      rw [agrees_file accountId rfl]
      exact and_iff_right rfl
  | some entry =>
    cases file with
    | none =>
      rw [agrees_memory accountId rfl]
      exact and_iff_right rfl
    | some file =>
      unfold Comparable
      simp only
      split
      · rename_i later
        rw [agrees_file accountId ((snapshotSource_both entry file).mpr later), and_comm]
        refine and_congr_right fun inOrder => ?_
        -- the file's first stamp is its latest
        have latest := reported_iff.mpr inOrder.first
        rw [quotaCheckedAt_eq_head] at latest
        rw [fresherSource_both, ← latest]
        obtain ⟨first, hfirst, -⟩ := later
        simp [Option.mem_def.mp hfirst]
      · rename_i later
        have taken : snapshotSource (some entry) (some file) = .memory := by
          cases h : snapshotSource (some entry) (some file) with
          | memory => rfl
          | file => exact absurd ((snapshotSource_both entry file).mp h) later
        rw [agrees_memory accountId taken, and_comm]
        refine and_congr_right fun inOrder => ?_
        -- memory's first stamp is its latest
        have latest := reported_iff.mpr inOrder.first
        rw [quotaCheckedAt_eq_head, Option.map_some, Option.map_some] at latest
        rw [fresherSource_both_memory, ← latest]

def windowReadAt (checkedAt : ℚ) : QuotaWindow where
  usedPercent := 40
  remainingPercent := 60
  checkedAt := some checkedAt

/-- A primary window read long ago and a secondary one read just now. -/
def entryOfTwoReadings : QuotaEntry where
  quota := { primary := some (windowReadAt 100), secondary := some (windowReadAt 2000000) }
  checkedAt := 2000000

/-- Against a row read at a time between, the older row is taken. -/
theorem freshest_disagrees :
    ¬ ∀ (memory : Option QuotaEntry) (file : Option AccountQuota) (accountId : Option String),
      Agrees memory file accountId := by
  intro agrees
  have ranked := (agrees (some entryOfTwoReadings)
    (some { primary := some (windowReadAt 1000000) }) none).ranked
  exact absurd ranked (by decide +kernel)

end Request
