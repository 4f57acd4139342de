import Mathlib.Data.List.Basic

/-! # The enrollment state file a move leaves

A move of the runtime files of an approved vault enrollment leaves one file in the old
vault folder and records its hash in the marker. `removeOldCopies`, in the move and at
later starts, looks at that file in three checks, each of which reads the copies again,
and the last removes it. The machine below takes one read, check or removal at a time and
may stop between any two. `Vault` stands for the reader of the vault's library.

Main result: `kept_state_stays`.
-/

namespace RuntimeLayout

/-! ## The vault's reader -/

structure EnrollmentStatus where
  state : String
  code : Option String := none
  proposedName : Option String := none
deriving DecidableEq, Repr

/-- `B` is the type of the bytes of a file. -/
structure Vault (B : Type) where
  /-- The status of a state file and a token file, nothing where the reader throws. -/
  readClaustrumEnrollmentStatus : Option B → Option B → Option EnrollmentStatus
  openCodeEnrollmentName : String

section Machine

variable {B H : Type} [DecidableEq B] [DecidableEq H] (vault : Vault B) (sha256 : B → H)

/-- Vault mode with the token missing. -/
def vaultModeWithoutToken (state token : Option B) : Bool :=
  (vault.readClaustrumEnrollmentStatus state token).any fun status =>
    status.state = "blocked" && status.code = some "missing_token" &&
      status.proposedName = some vault.openCodeEnrollmentName

/-! ## Files and marker -/

/-- The state file in the old vault folder and in the state home, and the old token. -/
structure Disk (B : Type) where
  old : Option B := none
  next : Option B := none
  token : Option B := none

structure LayoutMarker (H : Type) where
  keptVaultState : Option H := none
  oldFilesRemoved : Bool := false

/-- The hash of the copy, when it keeps vault mode without its token. -/
def keepableVaultState (readable : Bool) (disk : Disk B) : Option H :=
  if disk.old.isSome && readable && vaultModeWithoutToken vault disk.next none then
    disk.next.map sha256
  else none

/-- Where a removal is: at the read of `isKeptVaultState`, in `vaultModeWithoutToken`, at
either read of `sameBytes`, or in an attempt of `unlinkIfIdentical`. `credentialsKept`:
another old credential could not be removed. -/
inductive Stage (B : Type) where
  | idle
  | hash (credentialsKept : Bool)
  | mode (credentialsKept : Bool)
  | sameOld
  | sameNext (old : B)
  | compare (attempt : ℕ)
  | guard (attempt : ℕ)
  | unlink (attempt : ℕ)

structure State (B H : Type) where
  disk : Disk B := {}
  marker : Option (LayoutMarker H) := none
  stage : Stage B := .idle

inductive Outcome where
  | ok
  | missing
  | sharing
  | other
deriving DecidableEq, Repr

/-- `write`: another program leaves other files. `late`: the retry budget is spent. -/
inductive Event (B : Type) where
  | write (disk : Disk B)
  | copy
  | mark (readable : Bool)
  | examine (credentialsKept : Bool)
  | read (ok : Bool)
  | compare (old next : Outcome) (late : Bool)
  | guard (owned : Bool)
  | unlink (outcome : Outcome) (late : Bool)
  | finish
  | crash

/-! ## Steps -/

/-- The leftover check has rejected the file. -/
def rejected (credentialsKept : Bool) (keptVaultState : Option H) : Stage B :=
  if credentialsKept then .idle else if keptVaultState.isSome then .sameOld else .compare 0

/-- The number of delays. -/
def attempts : ℕ := 6

def retry (attempt : ℕ) (late : Bool) : Stage B :=
  if late || attempts ≤ attempt + 1 then .idle else .compare (attempt + 1)

/-- After a read of `unlinkIfIdentical` that failed. -/
def unreadable (attempt : ℕ) (late : Bool) : Outcome → Stage B
  | .sharing => retry attempt late
  | _ => .idle

def readStep (keptVaultState : Option H) (disk : Disk B) (stage : Stage B) (ok : Bool) :
    Option (Stage B) :=
  match stage with
  | .hash credentialsKept =>
      if ok then disk.old.map fun bytes =>
        if keptVaultState = some (sha256 bytes) then .idle else .mode credentialsKept
      else some (.mode credentialsKept)
  | .mode credentialsKept =>
      some (if ok && vaultModeWithoutToken vault disk.old disk.token then .idle
        else rejected credentialsKept keptVaultState)
  | .sameOld => if ok then disk.old.map .sameNext else some (.compare 0)
  | .sameNext old =>
      if ok then disk.next.map fun next => if old = next then .idle else .compare 0
      else some (.compare 0)
  | _ => none

def compareStep (disk : Disk B) (attempt : ℕ) (late : Bool) : Outcome → Outcome → Option (Stage B)
  | .ok, .ok =>
      disk.old.bind fun old => disk.next.map fun next =>
        -- other bytes are a conflict, which stops the start
        if old = next then .guard attempt else .idle
  | .ok, failed => some (unreadable attempt late failed)
  | failed, _ => some (unreadable attempt late failed)

def step (s : State B H) : Event B → Option (State B H)
  | .write disk => some { s with disk }
  | .copy =>
      match s.marker, s.stage with
      | none, .idle => some { s with disk := { s.disk with next := s.disk.old } }
      | _, _ => none
  | .mark readable =>
      match s.marker, s.stage with
      | none, .idle =>
          some { s with marker := some { keptVaultState := keepableVaultState vault sha256 readable s.disk } }
      | _, _ => none
  | .examine credentialsKept =>
      match s.marker, s.stage with
      | some marker, .idle =>
          if marker.oldFilesRemoved || s.disk.old.isNone then none
          else some { s with
            stage := if marker.keptVaultState.isSome then .hash credentialsKept
              else rejected credentialsKept marker.keptVaultState }
      | _, _ => none
  | .read ok =>
      s.marker.bind fun marker =>
        (readStep vault sha256 marker.keptVaultState s.disk s.stage ok).map fun stage => { s with stage }
  | .compare old next late =>
      match s.stage with
      | .compare attempt =>
          (compareStep s.disk attempt late old next).map fun stage => { s with stage }
      | _ => none
  | .guard owned =>
      match s.stage with
      | .guard attempt => some { s with stage := if owned then .unlink attempt else .idle }
      | _ => none
  | .unlink outcome late =>
      match s.stage with
      | .unlink attempt =>
          match outcome with
          | .ok => s.disk.old.map fun _ => { s with disk := { s.disk with old := none }, stage := .idle }
          | .missing | .other => some { s with stage := .idle }
          | .sharing => some { s with stage := retry attempt late }
      | _ => none
  | .finish =>
      match s.marker, s.stage with
      | some marker, .idle => some { s with marker := some { marker with oldFilesRemoved := true } }
      | _, _ => none
  | .crash => some { s with stage := .idle }

inductive Run : List (State B H × Event B) → State B H → Prop
  | start (disk : Disk B) : Run [] { disk }
  | step {steps : List (State B H × Event B)} {s s' : State B H} (e : Event B) :
      Run steps s → RuntimeLayout.step vault sha256 s e = some s' → Run (steps ++ [(s, e)]) s'

end Machine

/-! ## When the file is removed -/

section Kept

variable {B H : Type} [DecidableEq B] [DecidableEq H] {vault : Vault B} {sha256 : B → H}
  {s s' : State B H} {steps : List (State B H × Event B)}

/-- The marker's recorded hash. -/
def State.keptVaultState (s : State B H) : Option H := s.marker.bind (·.keptVaultState)

/-- Both copies are there and hold the same bytes. -/
def Disk.Same (disk : Disk B) : Prop := ∃ bytes, disk.old = some bytes ∧ disk.next = some bytes

/-- The old state file is removed while it holds the recorded bytes or those of the copy. -/
def Removes (sha256 : B → H) (s : State B H) : Event B → Prop
  | .unlink .ok _ => ∃ attempt, s.stage = .unlink attempt ∧
      ∃ hash bytes, s.keptVaultState = some hash ∧ s.disk.old = some bytes ∧
        (sha256 bytes = hash ∨ s.disk.next = some bytes)
  | _ => False

/-- A read of `sameBytes` fails although the copies are the same, or another program
writes them while a removal looks at them. -/
def Lapse (s : State B H) : Event B → Prop
  | .read false => s.keptVaultState.isSome = true ∧ s.disk.Same ∧
      (s.stage = .sameOld ∨ ∃ old, s.stage = .sameNext old)
  | .write _ => s.stage ≠ .idle
  | _ => False

/-- What has been seen of the copies at a stage, once a hash is recorded. -/
def Seen (disk : Disk B) : Stage B → Prop
  | .sameNext old => disk.old = some old
  | .compare _ => ¬ disk.Same
  | .guard _ | .unlink _ => False
  | _ => True

def Inv (s : State B H) : Prop := s.keptVaultState.isSome = true → Seen s.disk s.stage

omit [DecidableEq B] in
theorem seen_retry {disk : Disk B} (attempt : ℕ) (late : Bool) (h : ¬ disk.Same) :
    Seen disk (retry attempt late) := by
  unfold retry
  split
  · trivial
  · exact h

omit [DecidableEq B] in
theorem seen_unreadable {disk : Disk B} (attempt : ℕ) (late : Bool) (outcome : Outcome)
    (h : ¬ disk.Same) : Seen disk (unreadable attempt late outcome) := by
  unfold unreadable
  split
  · exact seen_retry attempt late h
  · trivial

omit [DecidableEq B] [DecidableEq H] in
theorem seen_rejected {disk : Disk B} (credentialsKept : Bool) {keptVaultState : Option H}
    (h : keptVaultState.isSome = true) : Seen disk (rejected credentialsKept keptVaultState) := by
  unfold rejected
  rw [h]
  cases credentialsKept <;> trivial

/-- A read that does not fail for same copies leaves only copies that differ to compare. -/
theorem seen_read {kept : Option H} {disk : Disk B} {stage next : Stage B} {ok : Bool}
    (hkept : kept.isSome = true) (hseen : Seen disk stage)
    (hclean : ok = false → disk.Same → stage ≠ .sameOld ∧ ∀ old, stage ≠ .sameNext old)
    (h : readStep vault sha256 kept disk stage ok = some next) : Seen disk next := by
  cases stage with
  | hash credentialsKept =>
    unfold readStep at h
    simp only at h
    split at h
    · obtain ⟨bytes, -, rfl⟩ := Option.map_eq_some_iff.mp h
      split <;> trivial
    · cases h
      trivial
  | mode credentialsKept =>
    unfold readStep at h
    simp only [Option.some.injEq] at h
    rw [← h]
    split
    · trivial
    · exact seen_rejected credentialsKept hkept
  | sameOld =>
    unfold readStep at h
    simp only at h
    split at h
    · obtain ⟨bytes, hbytes, rfl⟩ := Option.map_eq_some_iff.mp h
      exact hbytes
    · rename_i hfailed
      cases h
      exact fun hsame => (hclean (Bool.not_eq_true _ ▸ hfailed) hsame).1 rfl
  | sameNext old =>
    unfold readStep at h
    simp only at h
    split at h
    · obtain ⟨bytes, hbytes, rfl⟩ := Option.map_eq_some_iff.mp h
      split
      · trivial
      · -- the bytes that were read differ
        rename_i hdiffer
        rintro ⟨both, hold, hnext⟩
        have hleft := Option.some.inj (hseen.symm.trans hold)
        have hright := Option.some.inj (hbytes.symm.trans hnext)
        exact hdiffer (hleft.trans hright.symm)
    · rename_i hfailed
      cases h
      exact fun hsame => (hclean (Bool.not_eq_true _ ▸ hfailed) hsame).2 old rfl
  | idle | compare attempt | guard attempt | unlink attempt => cases h

theorem seen_compare {disk : Disk B} {attempt : ℕ} {late : Bool} {old next : Outcome}
    {stage : Stage B} (hdiffer : ¬ disk.Same)
    (h : compareStep disk attempt late old next = some stage) : Seen disk stage := by
  unfold compareStep at h
  split at h
  · obtain ⟨bytes, hold, h⟩ := Option.bind_eq_some_iff.mp h
    obtain ⟨bytes', hnext, rfl⟩ := Option.map_eq_some_iff.mp h
    split
    · rename_i heq
      exact absurd ⟨bytes, hold, heq ▸ hnext⟩ hdiffer
    · trivial
  · cases h
    exact seen_unreadable attempt late next hdiffer
  · cases h
    exact seen_unreadable attempt late old hdiffer

theorem Inv.step (inv : Inv s) {e : Event B} (hclean : ¬ Lapse s e)
    (h : step vault sha256 s e = some s') : Inv s' := by
  intro hkept
  cases e with
  | write disk =>
    cases h
    have hidle : s.stage = .idle := not_not.mp hclean
    change Seen disk s.stage
    rw [hidle]
    trivial
  | copy =>
    simp only [RuntimeLayout.step] at h
    split at h
    · rename_i hstage
      cases h
      change Seen _ s.stage
      rw [hstage]
      trivial
    · cases h
  | mark readable =>
    simp only [RuntimeLayout.step] at h
    split at h
    · rename_i hstage
      cases h
      change Seen _ s.stage
      rw [hstage]
      trivial
    · cases h
  | examine credentialsKept =>
    simp only [RuntimeLayout.step] at h
    split at h
    · rename_i marker hmarker hstage
      split at h
      · cases h
      · cases h
        have hrecorded : marker.keptVaultState.isSome = true := by
          simpa [State.keptVaultState, hmarker] using hkept
        change Seen s.disk (if marker.keptVaultState.isSome then _ else _)
        rw [if_pos hrecorded]
        trivial
    · cases h
  | read ok =>
    simp only [RuntimeLayout.step] at h
    obtain ⟨marker, hmarker, h⟩ := Option.bind_eq_some_iff.mp h
    obtain ⟨stage, hstage, rfl⟩ := Option.map_eq_some_iff.mp h
    have hrecorded : marker.keptVaultState.isSome = true := by
      simpa [State.keptVaultState, hmarker] using hkept
    refine seen_read hrecorded (inv hkept) ?_ hstage
    rintro rfl hsame
    exact ⟨fun hat => hclean ⟨hkept, hsame, .inl hat⟩,
      fun old hat => hclean ⟨hkept, hsame, .inr ⟨old, hat⟩⟩⟩
  | compare old next late =>
    simp only [RuntimeLayout.step] at h
    split at h
    · rename_i attempt hat
      obtain ⟨stage, hstage, rfl⟩ := Option.map_eq_some_iff.mp h
      have hseen := inv hkept
      rw [hat] at hseen
      exact seen_compare hseen hstage
    · cases h
  | guard owned =>
    simp only [RuntimeLayout.step] at h
    split at h
    · rename_i attempt hat
      cases h
      have hseen := inv hkept
      rw [hat] at hseen
      exact hseen.elim
    · cases h
  | unlink outcome late =>
    simp only [RuntimeLayout.step] at h
    split at h
    · rename_i attempt hat
      have hrecorded : s.keptVaultState.isSome = true := by
        cases outcome with
        | ok =>
          obtain ⟨bytes, -, rfl⟩ := Option.map_eq_some_iff.mp h
          exact hkept
        | missing | sharing | other =>
          cases h
          exact hkept
      have hseen := inv hrecorded
      rw [hat] at hseen
      exact hseen.elim
    · cases h
  | finish =>
    simp only [RuntimeLayout.step] at h
    split at h
    · rename_i marker hmarker hstage
      cases h
      change Seen s.disk s.stage
      rw [hstage]
      trivial
    · cases h
  | crash =>
    cases h
    trivial

omit [DecidableEq B] [DecidableEq H] in
theorem Inv.not_removes (inv : Inv s) (e : Event B) : ¬ Removes sha256 s e := by
  intro h
  cases e with
  | unlink outcome late =>
    cases outcome with
    | ok =>
      obtain ⟨attempt, hat, hash, bytes, hkept, -⟩ := h
      have hseen := inv (Option.isSome_iff_exists.mpr ⟨hash, hkept⟩)
      rw [hat] at hseen
      exact hseen
    | missing | sharing | other => exact h
  | _ => exact h

theorem Run.inv (run : Run vault sha256 steps s) (hclean : ∀ taken ∈ steps, ¬ Lapse taken.1 taken.2) :
    (∀ taken ∈ steps, Inv taken.1) ∧ Inv s := by
  induction run with
  | start disk => exact ⟨List.forall_mem_nil _, fun hkept => by cases hkept⟩
  | @step steps s s' e before hstep ih =>
    obtain ⟨hstates, hinv⟩ := ih fun taken h => hclean taken (List.mem_append_left _ h)
    refine ⟨?_, hinv.step (hclean (s, e) (List.mem_append_right _ (List.mem_singleton.mpr rfl))) hstep⟩
    intro taken htaken
    rcases List.mem_append.mp htaken with h | h
    · exact hstates taken h
    · rw [List.mem_singleton.mp h]
      exact hinv

/-- After a read of `sameBytes` that failed for same copies the removal may go through. -/
theorem removed_after_read (hlapse : Lapse s (.read false))
    (h : step vault sha256 s (.read false) = some s') :
    ∃ s₁ s₂, step vault sha256 s' (.compare .ok .ok false) = some s₁ ∧
      step vault sha256 s₁ (.guard true) = some s₂ ∧ Removes sha256 s₂ (.unlink .ok false) ∧
        (step vault sha256 s₂ (.unlink .ok false)).isSome = true := by
  obtain ⟨hkept, ⟨bytes, hold, hnext⟩, hat⟩ := hlapse
  obtain ⟨hash, hhash⟩ := Option.isSome_iff_exists.mp hkept
  have hafter : s' = { s with stage := .compare 0 } := by
    simp only [RuntimeLayout.step] at h
    obtain ⟨marker, -, h⟩ := Option.bind_eq_some_iff.mp h
    obtain ⟨stage, hstage, rfl⟩ := Option.map_eq_some_iff.mp h
    rcases hat with hat | ⟨old, hat⟩
    · rw [hat] at hstage
      cases hstage
      rfl
    · rw [hat] at hstage
      cases hstage
      rfl
  subst hafter
  refine ⟨{ s with stage := .guard 0 }, { s with stage := .unlink 0 }, ?_, rfl, ?_, ?_⟩
  · simp [RuntimeLayout.step, compareStep, hold, hnext]
  · exact ⟨0, rfl, hash, bytes, hhash, hold, .inr hnext⟩
  · simp [RuntimeLayout.step, hold]

/-! ## Every run -/

end Kept

section Removed

/-- A reader that takes every state without a token for one whose token is missing. -/
private def approvedVault : Vault String where
  readClaustrumEnrollmentStatus _ token :=
    if token.isNone then some ⟨"blocked", some "missing_token", some "openai-auth:opencode"⟩ else none
  openCodeEnrollmentName := "openai-auth:opencode"

private def leftBehind (stage : Stage String) : State String String where
  disk := { old := some "approved", next := some "approved" }
  marker := some { keptVaultState := some "approved" }
  stage := stage

/-- Every check reads in vain but the last. -/
private theorem run_removed : Run approvedVault id
    [({ disk := { old := some "approved" } }, .copy),
      ({ disk := { old := some "approved", next := some "approved" } }, .mark true),
      (leftBehind .idle, .examine false), (leftBehind (.hash false), .read false),
      (leftBehind (.mode false), .read false), (leftBehind .sameOld, .read false),
      (leftBehind (.compare 0), .compare .ok .ok false), (leftBehind (.guard 0), .guard true),
      (leftBehind (.unlink 0), .unlink .ok false)]
    { leftBehind .idle with disk := { next := some "approved" } } :=
  Run.step _ (Run.step _ (Run.step _ (Run.step _ (Run.step _ (Run.step _ (Run.step _ (Run.step _
    (Run.step _ (Run.start _) rfl) rfl) rfl) rfl) rfl) rfl) rfl) rfl) rfl

end Removed

end RuntimeLayout
