import OpenaiAuth.PoolLifecycle.Lifecycle
import Mathlib.Algebra.Ring.Nat

/-! # The background runs keep going

`Goes` says once how a run gets from one `await` to the next, and what can be seen of it; the
invariants follow from it. `Lapse` are the answers after which no run is tried again: a
`paused` that throws, and a transfer that answers for a store that has not migrated.

Main result: `lifecycle_runs`, over every run without a lapse.
-/

namespace PoolLifecycle

open Interleave

/-! ## What a step changes -/

section Fields

variable (s : State)

@[simp] theorem schedule_runs (ms : ℕ) : (s.schedule ms).runs = s.runs := by
  unfold State.schedule
  split <;> rfl

@[simp] theorem schedule_log (ms : ℕ) : (s.schedule ms).log = s.log := by
  unfold State.schedule
  split <;> rfl

@[simp] theorem schedule_started (ms : ℕ) : (s.schedule ms).started = s.started := by
  unfold State.schedule
  split <;> rfl

@[simp] theorem schedule_stopped (ms : ℕ) : (s.schedule ms).stopped = s.stopped := by
  unfold State.schedule
  split <;> rfl

@[simp] theorem schedule_pendingAdoption (ms : ℕ) :
    (s.schedule ms).pendingAdoption = s.pendingAdoption := by
  unfold State.schedule
  split <;> rfl

/-- A lifecycle that is not stopped has a timer then. -/
theorem schedule_timer (ms : ℕ) (h : s.stopped = false) : (s.schedule ms).timer.isSome := by
  rw [State.schedule, h]
  rfl

end Fields

/-- The host's timers are the one that the lifecycle knows. -/
def TimersArmed (s : State) : Prop := s.armed.map (·.handle) = s.timer.toList

theorem TimersArmed.cleared {s : State} (h : TimersArmed s) : s.cleared = [] := by
  rw [State.cleared, List.filter_eq_nil_iff]
  intro t hmem hne
  have hhandle : t.handle ∈ s.timer.toList := h ▸ List.mem_map_of_mem hmem
  rw [Option.mem_toList] at hhandle
  exact of_decide_eq_true hne hhandle.symm

theorem TimersArmed.schedule {s : State} (h : TimersArmed s) (ms : ℕ) :
    TimersArmed (s.schedule ms) := by
  unfold State.schedule
  split
  · exact h
  · rw [TimersArmed, h.cleared]
    rfl

theorem TimersArmed.congr {s s' : State} (h : TimersArmed s) (harmed : s'.armed = s.armed)
    (htimer : s'.timer = s.timer) : TimersArmed s' := by
  rw [TimersArmed, harmed, htimer]
  exact h

/-! ## A run goes on -/

/-- From one `await` to the next, and what is seen on the way, newest first. -/
inductive Goes (task : Task) (stopped : Bool) : Phase → List Entry → Phase → Prop
  | begin {body : Body} (hdirect : body ≠ .adoption true) (h : stopped = false) :
      Goes task stopped .waiting [] (.pausing body)
  | beginStopped (h : stopped = true) : Goes task stopped .waiting [] (.ended false)
  | pausedThrew {body : Body}
      (h : task = .adoption → stopped = false → body = .adoption true) :
      Goes task stopped (.pausing body) [] (.ended true)
  | paused {body : Body} : Goes task stopped (.pausing body) [.paused] (.ended false)
  | checked {body : Body} : Goes task stopped (.pausing body) [] (.checked body)
  | stoppedThen {body : Body} (h : stopped = true) :
      Goes task stopped (.checked body) [] (.ended false)
  | migrate (h : stopped = false) : Goes task stopped (.checked .migration) [.migrate] .migrating
  | fence {after : Bool} (h : stopped = false) :
      Goes task stopped (.checked (.adoption after)) [.fence] (.fencing after)
  | migrated : Goes task stopped .migrating [.over] (.ended false)
  | adoptAfter (h : stopped = false) :
      Goes task stopped .migrating [.over] (.pausing (.adoption true))
  | fenceStopped {after : Bool} (h : stopped = true) :
      Goes task stopped (.fencing after) [] (.ended false)
  | fenced {after : Bool} : Goes task stopped (.fencing after) [.over] (.ended false)
  | adopt {after : Bool} (h : stopped = false) :
      Goes task stopped (.fencing after) [.adopt] .adopting
  | adopted : Goes task stopped .adopting [.over] (.ended false)

/-- The promise of the run resolves when the run ends. -/
def resolution (n : ℕ) : Phase → List Entry
  | .ended _ => [.resolved n]
  | _ => []

/-- Nothing is armed or waits to try again when the `n`-th run ends. -/
def State.LeavesNone (s : State) (n : ℕ) : Prop :=
  s.started = true ∧ s.stopped = false ∧ s.timer = none ∧ n + 1 = s.runs.length

/-- The answers after which nothing is tried again, or a requested adoption is not tried at
all. -/
def Lapse (s : State) : Event → Prop
  | .paused n none =>
      (∃ body, s.runs[n]? = some ⟨.adoption, .pausing body⟩ ∧ body ≠ .adoption true ∧
        s.stopped = false) ∨ (s.LeavesNone n ∧ s.lastOutcome ≠ some .slotReadOnly)
  | .migrated n (some outcome) =>
      (outcome = .notMigrated ∨ outcome = .vaultOwnsAccounts) ∧ s.LeavesNone n
  | .adopted n (some outcome) => outcome = .notMigrated ∧ s.LeavesNone n
  | _ => False

/-- There is a timer, or the store's slot is read-only, or another run waits. -/
def Retries (s : State) (n : ℕ) (s' : State) : Prop :=
  s.started = true → s.stopped = false →
    s'.timer.isSome ∨ s'.lastOutcome = some .slotReadOnly ∨ n + 1 ≠ s.runs.length

/-- The `n`-th run goes on. -/
structure Moves (s s' : State) (n : ℕ) (task : Task) (old new : Phase) (entries : List Entry) :
    Prop where
  goes : Goes task s.stopped old entries new
  runs : s'.runs = s.runs.set n ⟨task, new⟩
  log : s'.log = resolution n new ++ entries ++ s.log
  started : s'.started = s.started
  stopped : s'.stopped = s.stopped
  pending : s'.pendingAdoption =
    if old = .waiting ∧ task = .adoption then none else s.pendingAdoption
  timers : TimersArmed s → TimersArmed s'
  retries : ∀ threw, new = .ended threw → Retries s n s'

theorem modify_phase {runs : List Run} {n : ℕ} {task : Task} {old : Phase}
    (h : runs[n]? = some ⟨task, old⟩) (phase : Phase) :
    (runs.modify n fun run => { run with phase := phase }) = runs.set n ⟨task, phase⟩ := by
  rw [List.modify_eq_set_getElem?, h]
  rfl

/-- What `s₁` has of `s` when a run of `s` is about to go on from it. -/
structure Ready (s s₁ : State) (task : Task) (old : Phase) (entries : List Entry) : Prop where
  runs : s₁.runs = s.runs
  log : s₁.log = entries ++ s.log
  started : s₁.started = s.started
  stopped : s₁.stopped = s.stopped
  pending : s₁.pendingAdoption =
    if old = .waiting ∧ task = .adoption then none else s.pendingAdoption
  timers : TimersArmed s → TimersArmed s₁

section Moves

variable {s s₁ : State} {n : ℕ} {task : Task} {old : Phase} {entries : List Entry}
  (hrun : s.runs[n]? = some ⟨task, old⟩) (hready : Ready s s₁ task old entries)

include hrun hready

theorem moves_goTo {phase : Phase} (hgoes : Goes task s.stopped old entries phase)
    (hphase : ∀ threw, phase ≠ .ended threw) :
    Moves s (s₁.goTo n phase) n task old phase entries where
  goes := hgoes
  runs := by rw [State.goTo, hready.runs, modify_phase hrun]
  log := by
    have hresolution : resolution n phase = [] := by
      cases phase with
      | ended threw => exact absurd rfl (hphase threw)
      | _ => rfl
    rw [hresolution]
    exact hready.log
  started := hready.started
  stopped := hready.stopped
  pending := hready.pending
  timers := fun h => (hready.timers h).congr rfl rfl
  retries := fun threw heq => absurd heq (hphase threw)

theorem moves_finish {threw : Bool} (hgoes : Goes task s.stopped old entries (.ended threw))
    (hretries : Retries s n s₁) :
    Moves s (s₁.finish n threw) n task old (.ended threw) entries where
  goes := hgoes
  runs := by
    show s₁.runs.modify n _ = _
    rw [hready.runs, modify_phase hrun]
  log := by
    show Entry.resolved n :: s₁.log = _
    rw [hready.log]
    rfl
  started := hready.started
  stopped := hready.stopped
  pending := hready.pending
  timers := fun h => (hready.timers h).congr rfl rfl
  retries := fun _ _ => hretries

end Moves

theorem Ready.schedule {s s₁ : State} {task : Task} {old : Phase} {entries : List Entry}
    (h : Ready s s₁ task old entries) (ms : ℕ) : Ready s (s₁.schedule ms) task old entries where
  runs := (schedule_runs s₁ ms).trans h.runs
  log := (schedule_log s₁ ms).trans h.log
  started := (schedule_started s₁ ms).trans h.started
  stopped := (schedule_stopped s₁ ms).trans h.stopped
  pending := (schedule_pendingAdoption s₁ ms).trans h.pending
  timers := fun hs => (h.timers hs).schedule ms

theorem retries_stopped {s s' : State} {n : ℕ} (h : s.stopped = true) : Retries s n s' := by
  intro _ hstopped
  rw [h] at hstopped
  cases hstopped

theorem retries_schedule {s s₁ : State} {task : Task} {old : Phase} {entries : List Entry}
    (h : Ready s s₁ task old entries) (n ms : ℕ) : Retries s n (s₁.schedule ms) := by
  intro _ hstopped
  exact .inl (schedule_timer s₁ ms (h.stopped.trans hstopped))

/-- Not to leave none is to have a timer or a run that waits. -/
theorem retries_of_not_leavesNone {s s₁ : State} {n : ℕ} (h : ¬ s.LeavesNone n)
    (htimer : s₁.timer = s.timer) : Retries s n s₁ := by
  intro hstarted hstopped
  by_cases hnone : s.timer = none
  · exact .inr (.inr fun hlength => h ⟨hstarted, hstopped, hnone, hlength⟩)
  · rw [htimer]
    exact .inl (Option.isSome_iff_ne_none.mpr hnone)

/-! ### Each event -/

/-- `runMigration` or `runAdoption` is entered, or the lifecycle has stopped. -/
theorem moves_enter {s s₁ : State} {n : ℕ} {task : Task} {old : Phase} {entries : List Entry}
    (body : Body) (hrun : s.runs[n]? = some ⟨task, old⟩) (hready : Ready s s₁ task old entries)
    (hstopped : s.stopped = true → Goes task s.stopped old entries (.ended false))
    (hgoes : s.stopped = false → Goes task s.stopped old entries (.pausing body)) :
    ∃ new, Moves s (s₁.enter n body) n task old new entries := by
  unfold State.enter
  split
  · rename_i hs
    rw [hready.stopped] at hs
    exact ⟨_, moves_finish hrun hready (hstopped hs) (retries_stopped hs)⟩
  · rename_i hs
    rw [hready.stopped, Bool.not_eq_true] at hs
    exact ⟨_, moves_goTo hrun hready (hgoes hs) (fun _ => Phase.noConfusion)⟩

theorem ready_begin (s : State) (task : Task) :
    Ready s (if task = .adoption then { s with pendingAdoption := none } else s) task .waiting [] := by
  cases task <;> exact ⟨rfl, rfl, rfl, rfl, rfl, fun h => h⟩

theorem begin_eq (s : State) (n : ℕ) (task : Task) :
    ∃ body, body ≠ .adoption true ∧
      s.begin n task = (if task = .adoption then { s with pendingAdoption := none } else s).enter n body := by
  have htransfer : ∀ s : State, ∃ body, body ≠ .adoption true ∧ s.transfer n = s.enter n body := by
    intro s
    refine ⟨if s.isMigrated then .adoption false else .migration, ?_, ?_⟩
    · split <;> decide
    · rw [State.transfer, State.enter]
      split <;> rfl
  cases task with
  | migration => exact ⟨.migration, by decide, rfl⟩
  | tick => exact htransfer s
  | adoption => exact htransfer { s with pendingAdoption := none }

theorem moves_begin {s : State} {n : ℕ} {task : Task} (hrun : s.runs[n]? = some ⟨task, .waiting⟩) :
    ∃ new, Moves s (s.begin n task) n task .waiting new [] := by
  obtain ⟨body, hdirect, heq⟩ := begin_eq s n task
  rw [heq]
  exact moves_enter _ hrun (ready_begin s task) .beginStopped (.begin hdirect)

section Moves

variable {s : State} {n : ℕ} {task : Task}

theorem Ready.refl {old : Phase} (hold : old ≠ .waiting) : Ready s s task old [] :=
  ⟨rfl, rfl, rfl, rfl, by rw [if_neg fun h => hold h.1], fun h => h⟩

theorem Ready.note {s₁ : State} {old : Phase} {entries : List Entry}
    (h : Ready s s₁ task old entries) (entry : Entry) :
    Ready s (s₁.note entry) task old (entry :: entries) :=
  ⟨h.runs, congrArg (entry :: ·) h.log, h.started, h.stopped, h.pending,
    fun hs => (h.timers hs).congr rfl rfl⟩

/-- A field that no watcher sees changes. -/
theorem Ready.congr {s₁ : State} {old : Phase} {entries : List Entry}
    (h : Ready s s₁ task old entries) (s₂ : State) (hruns : s₂.runs = s₁.runs) (hlog : s₂.log = s₁.log)
    (hstarted : s₂.started = s₁.started) (hstopped : s₂.stopped = s₁.stopped)
    (hpending : s₂.pendingAdoption = s₁.pendingAdoption) (harmed : s₂.armed = s₁.armed)
    (htimer : s₂.timer = s₁.timer) : Ready s s₂ task old entries :=
  ⟨hruns.trans h.runs, hlog.trans h.log, hstarted.trans h.started, hstopped.trans h.stopped,
    hpending.trans h.pending, fun hs => (h.timers hs).congr harmed htimer⟩

/-- A migration or an adoption is over. -/
theorem ready_over {old : Phase} (hold : old ≠ .waiting) (outcome : Option PoolTransferOutcome) :
    Ready s ({ s with lastOutcome := outcome }.note .over) task old [.over] := by
  have hready : Ready s { s with lastOutcome := outcome } task old [] :=
    (Ready.refl hold).congr _ rfl rfl rfl rfl rfl rfl rfl
  exact hready.note .over

theorem moves_paused {body : Body} {answer : Option Bool}
    (hrun : s.runs[n]? = some ⟨task, .pausing body⟩) (hlapse : ¬ Lapse s (.paused n answer)) :
    ∃ new entries, Moves s (s.answerPaused n body answer) n task (.pausing body) new entries := by
  have hready : Ready s s task (.pausing body) [] := .refl Phase.noConfusion
  match answer with
  | none =>
      refine ⟨_, _, moves_finish hrun hready (.pausedThrew ?_) ?_⟩
      · intro htask hstopped
        subst htask
        by_contra hdirect
        exact hlapse (.inl ⟨body, hrun, hdirect, hstopped⟩)
      · by_cases hnone : s.LeavesNone n
        · intro _ _
          by_contra hretry
          refine hlapse (.inr ⟨hnone, fun houtcome => hretry (.inr (.inl houtcome))⟩)
        · exact retries_of_not_leavesNone hnone rfl
  | some true =>
      have hready := (hready.note .paused).schedule POOL_RETRY_BASE_MS
      exact ⟨_, _, moves_finish hrun hready .paused
        (retries_schedule ((Ready.refl Phase.noConfusion : Ready s s task (.pausing body) []).note .paused) n _)⟩
  | some false => exact ⟨_, _, moves_goTo hrun hready .checked fun _ => Phase.noConfusion⟩

theorem moves_resume {body : Body} (hrun : s.runs[n]? = some ⟨task, .checked body⟩) :
    ∃ new entries, Moves s (s.resume n body) n task (.checked body) new entries := by
  have hready : Ready s s task (.checked body) [] := .refl Phase.noConfusion
  unfold State.resume
  split
  · rename_i hs
    exact ⟨_, _, moves_finish hrun hready (.stoppedThen hs) (retries_stopped hs)⟩
  · rename_i hs
    rw [Bool.not_eq_true] at hs
    cases body with
    | migration =>
        exact ⟨_, _, moves_goTo hrun (hready.note .migrate) (.migrate hs) fun _ => Phase.noConfusion⟩
    | adoption after =>
        exact ⟨_, _, moves_goTo hrun (hready.note .fence) (.fence hs) fun _ => Phase.noConfusion⟩

/-- The transfer is over and the next try is set. -/
theorem moves_retry {old : Phase} {s₁ : State} {entries : List Entry}
    (hrun : s.runs[n]? = some ⟨task, old⟩) (hready : Ready s s₁ task old entries)
    (hgoes : Goes task s.stopped old entries (.ended false)) :
    Moves s (s₁.scheduleRetry.finish n false) n task old (.ended false) entries := by
  have hready' : Ready s { s₁ with failures := s₁.failures + 1 } task old entries :=
    hready.congr _ rfl rfl rfl rfl rfl rfl rfl
  exact moves_finish hrun (hready'.schedule _) hgoes (retries_schedule hready' n _)

theorem moves_migrated {answer : Option PoolTransferOutcome}
    (hrun : s.runs[n]? = some ⟨task, .migrating⟩) (hlapse : ¬ Lapse s (.migrated n answer)) :
    ∃ new entries, Moves s (s.answerMigrate n answer) n task .migrating new entries := by
  have hready : ∀ outcome, Ready s ({ s with lastOutcome := outcome }.note .over) task .migrating
      [.over] := ready_over Phase.noConfusion
  match answer with
  | none => exact ⟨_, _, moves_retry hrun (hready none) .migrated⟩
  | some outcome =>
      have hsome := hready (some outcome)
      unfold State.answerMigrate
      dsimp only
      split
      · exact ⟨_, _, moves_finish hrun (hsome.schedule _) .migrated (retries_schedule hsome n _)⟩
      split
      · have hafter := hsome.congr { ({ s with lastOutcome := some outcome }.note .over) with
          isMigrated := true, failures := 0 } rfl rfl rfl rfl rfl rfl rfl
        obtain ⟨new, hmoves⟩ := moves_enter (.adoption true) hrun hafter
          (fun _ => .migrated) .adoptAfter
        exact ⟨new, _, hmoves⟩
      split
      · exact ⟨_, _, moves_retry hrun hsome .migrated⟩
      · rename_i hrefused hmarks hwants
        refine ⟨_, _, moves_finish hrun hsome .migrated ?_⟩
        -- the outcome is read-only, or nothing is tried again for it
        by_cases hreadOnly : outcome = .slotReadOnly
        · intro _ _
          exact .inr (.inl (congrArg some hreadOnly))
        · refine retries_of_not_leavesNone (fun hnone => hlapse ⟨?_, hnone⟩) rfl
          cases outcome <;> simp_all [marksMigrated, wantsRetry]

theorem moves_fenced {after : Bool} (answer : Option Bool)
    (hrun : s.runs[n]? = some ⟨task, .fencing after⟩) :
    ∃ new entries, Moves s (s.answerFence n answer) n task (.fencing after) new entries := by
  have hready : Ready s s task (.fencing after) [] := .refl Phase.noConfusion
  have hover : Ready s ({ s with lastOutcome := none }.note .over) task (.fencing after) [.over] :=
    ready_over Phase.noConfusion none
  match answer with
  | none => exact ⟨_, _, moves_retry hrun hover .fenced⟩
  | some isOpen =>
      unfold State.answerFence
      dsimp only
      split
      · rename_i hs
        exact ⟨_, _, moves_finish hrun hready (.fenceStopped hs) (retries_stopped hs)⟩
      · rename_i hs
        rw [Bool.not_eq_true] at hs
        split
        · exact ⟨_, _, moves_goTo hrun (hready.note .adopt) (.adopt hs) fun _ => Phase.noConfusion⟩
        · exact ⟨_, _, moves_retry hrun hover .fenced⟩

theorem moves_adopted {answer : Option PoolTransferOutcome}
    (hrun : s.runs[n]? = some ⟨task, .adopting⟩) (hlapse : ¬ Lapse s (.adopted n answer)) :
    ∃ new entries, Moves s (s.answerAdopt n answer) n task .adopting new entries := by
  have hready : ∀ outcome, Ready s ({ s with lastOutcome := outcome }.note .over) task .adopting
      [.over] := ready_over Phase.noConfusion
  match answer with
  | none => exact ⟨_, _, moves_retry hrun (hready none) .adopted⟩
  | some outcome =>
      have hsome := hready (some outcome)
      unfold State.answerAdopt
      dsimp only
      split
      · rename_i hquiet
        rw [Bool.or_eq_true, decide_eq_true_eq, decide_eq_true_eq] at hquiet
        refine ⟨_, _, moves_finish hrun hsome .adopted ?_⟩
        rcases hquiet with rfl | rfl
        · exact retries_of_not_leavesNone (fun hnone => hlapse ⟨rfl, hnone⟩) rfl
        · exact fun _ _ => .inr (.inl rfl)
      · have hmigrated := hsome.congr { ({ s with lastOutcome := some outcome }.note .over) with
          isMigrated := true } rfl rfl rfl rfl rfl rfl rfl
        split
        · exact ⟨_, _, moves_retry hrun hmigrated .adopted⟩
        · have hquiet := hmigrated.congr { ({ s with lastOutcome := some outcome }.note .over) with
            isMigrated := true, failures := 0 } rfl rfl rfl rfl rfl rfl rfl
          exact ⟨_, _, moves_finish hrun (hquiet.schedule _) .adopted (retries_schedule hquiet n _)⟩

end Moves

/-! ### Every event -/

theorem phaseAt_eq {s : State} {n : ℕ} {phase : Phase} (h : s.phaseAt n = some phase) :
    ∃ task, s.runs[n]? = some ⟨task, phase⟩ := by
  obtain ⟨⟨task, phase'⟩, hrun, rfl⟩ := Option.map_eq_some_iff.mp h
  exact ⟨task, hrun⟩

/-- An event that a run takes on moves that run, once the run before it has ended. -/
theorem step_moves {s s' : State} {e : Event} {n : ℕ} (hserves : e.serves = some n)
    (hlapse : ¬ Lapse s e) (hstep : s.step e = some s') :
    ∃ task old new entries, s.runs[n]? = some ⟨task, old⟩ ∧ (old = .waiting → s.ready n = true) ∧
      Moves s s' n task old new entries := by
  cases e with
  | start | requestAdoption | noticeRealSlot | dispose | fire => cases hserves
  | «begin» m =>
      cases hserves
      simp only [State.step] at hstep
      split at hstep
      · rename_i task hrun
        split_ifs at hstep with hready
        cases hstep
        obtain ⟨new, hmoves⟩ := moves_begin hrun
        exact ⟨task, .waiting, new, [], hrun, fun _ => hready, hmoves⟩
      · cases hstep
  | paused m answer =>
      cases hserves
      simp only [State.step] at hstep
      split at hstep
      · rename_i body hphase
        cases hstep
        obtain ⟨task, hrun⟩ := phaseAt_eq hphase
        obtain ⟨new, entries, hmoves⟩ := moves_paused hrun hlapse
        exact ⟨task, _, new, entries, hrun, Phase.noConfusion, hmoves⟩
      · cases hstep
  | resume m =>
      cases hserves
      simp only [State.step] at hstep
      split at hstep
      · rename_i body hphase
        cases hstep
        obtain ⟨task, hrun⟩ := phaseAt_eq hphase
        obtain ⟨new, entries, hmoves⟩ := moves_resume hrun
        exact ⟨task, _, new, entries, hrun, Phase.noConfusion, hmoves⟩
      · cases hstep
  | migrated m answer =>
      cases hserves
      simp only [State.step] at hstep
      split at hstep
      · rename_i hphase
        cases hstep
        obtain ⟨task, hrun⟩ := phaseAt_eq hphase
        obtain ⟨new, entries, hmoves⟩ := moves_migrated hrun hlapse
        exact ⟨task, _, new, entries, hrun, Phase.noConfusion, hmoves⟩
      · cases hstep
  | fenced m answer =>
      cases hserves
      simp only [State.step] at hstep
      split at hstep
      · rename_i after hphase
        cases hstep
        obtain ⟨task, hrun⟩ := phaseAt_eq hphase
        obtain ⟨new, entries, hmoves⟩ := moves_fenced answer hrun
        exact ⟨task, _, new, entries, hrun, Phase.noConfusion, hmoves⟩
      · cases hstep
  | adopted m answer =>
      cases hserves
      simp only [State.step] at hstep
      split at hstep
      · rename_i hphase
        cases hstep
        obtain ⟨task, hrun⟩ := phaseAt_eq hphase
        obtain ⟨new, entries, hmoves⟩ := moves_adopted hrun hlapse
        exact ⟨task, _, new, entries, hrun, Phase.noConfusion, hmoves⟩
      · cases hstep

/-! ### Calls from outside and timers -/

/-- What the other events do. -/
inductive Outside (s : State) : State → Prop
  | none : Outside s s
  | start (h : s.stopped = false) : Outside s ({ s with started := true }.enqueue .migration)
  | joined (token : Option String) {run : ℕ} (h : s.pendingAdoption = some run) :
      Outside s ({ s with lastNoticedRefresh := token }.note (.requested run))
  | requested (token : Option String) (h : s.pendingAdoption = .none) :
      Outside s (({ s with lastNoticedRefresh := token
                           pendingAdoption := some s.runs.length }.enqueue .adoption).note
        (.requested s.runs.length))
  | dispose : Outside s s.dispose
  | fire {t : Timer} (h : t ∈ s.armed) : Outside s (s.fire t.handle)

theorem outside_requestAdoption (s : State) (token : Option String) :
    Outside s ({ s with lastNoticedRefresh := token }.requestAdoption) := by
  unfold State.requestAdoption
  dsimp only
  split
  · rename_i run hpending
    exact .joined token hpending
  · rename_i hpending
    exact .requested token hpending

theorem step_outside {s s' : State} {e : Event} (hserves : e.serves = none)
    (hstep : s.step e = some s') : Outside s s' := by
  cases e with
  | «begin» | paused | resume | migrated | fenced | adopted => cases hserves
  | start =>
      cases hstep
      unfold State.start
      split
      · exact .none
      · rename_i h
        rw [Bool.or_eq_true, not_or, Bool.not_eq_true, Bool.not_eq_true] at h
        exact .start h.2
  | requestAdoption =>
      cases hstep
      exact outside_requestAdoption s s.lastNoticedRefresh
  | noticeRealSlot refreshToken =>
      cases hstep
      unfold State.noticeRealSlot
      split
      · exact .none
      · exact outside_requestAdoption s (some refreshToken)
  | dispose =>
      cases hstep
      exact .dispose
  | fire handle =>
      simp only [State.step] at hstep
      split_ifs at hstep with harmed
      cases hstep
      obtain ⟨t, hmem, ht⟩ := List.any_eq_true.mp harmed
      obtain rfl := of_decide_eq_true ht
      exact .fire hmem

/-! ## Invariants -/

/-- A waiting promise is that of a requested adoption which has not begun. -/
def PendingWaits (s : State) : Prop :=
  ∀ n, s.pendingAdoption = some n → s.runs[n]? = some ⟨.adoption, .waiting⟩

/-- A run begins when the one before it has ended. -/
def Serial (s : State) : Prop := Chained Run.Begun Run.Ended s.runs

/-- After `start` something is always about to try again. -/
def Retried (s : State) : Prop :=
  s.started = true → s.stopped = false →
    (∃ run ∈ s.runs, ¬ run.Ended) ∨ s.timer.isSome ∨ s.lastOutcome = some .slotReadOnly

section Outside

variable {s s' : State} (h : Outside s s')

include h

theorem Outside.timersArmed (hs : TimersArmed s) : TimersArmed s' := by
  cases h with
  | none => exact hs
  | start | joined | requested => exact hs.congr rfl rfl
  | dispose =>
      show (s.cleared).map _ = _
      rw [hs.cleared]
      rfl
  | @fire t hmem =>
      -- the timer that fires is the one that is armed
      have htimer : t.handle ∈ s.timer.toList := hs ▸ List.mem_map_of_mem hmem
      rw [Option.mem_toList] at htimer
      have hothers : s.armed.filter (·.handle ≠ t.handle) = [] := by
        rw [List.filter_eq_nil_iff]
        intro other hother hne
        have hhandle : other.handle ∈ s.timer.toList := hs ▸ List.mem_map_of_mem hother
        rw [htimer] at hhandle
        exact of_decide_eq_true hne (List.mem_singleton.mp hhandle)
      show (s.armed.filter (·.handle ≠ t.handle)).map _ = _
      rw [hothers]
      rfl

theorem Outside.runs : s'.runs = s.runs ∨ ∃ task, s'.runs = s.runs ++ [⟨task, .waiting⟩] := by
  cases h with
  | none | joined | dispose => exact .inl rfl
  | start | requested | fire => exact .inr ⟨_, rfl⟩

theorem Outside.serial (hs : Serial s) : Serial s' := by
  rcases h.runs with heq | ⟨task, heq⟩
  · rw [Serial, heq]
    exact hs
  · rw [Serial, heq]
    exact hs.concat fun hbegun => hbegun rfl

theorem Outside.getElem? {n : ℕ} {run : Run} (hrun : s.runs[n]? = some run) :
    s'.runs[n]? = some run := by
  have hlt : n < s.runs.length := (List.getElem?_eq_some_iff.mp hrun).1
  rcases h.runs with heq | ⟨task, heq⟩
  · rw [heq, hrun]
  · rw [heq, List.getElem?_append_left hlt, hrun]

theorem Outside.pendingWaits (hs : PendingWaits s) : PendingWaits s' := by
  intro n hn
  cases h with
  | requested =>
      cases hn
      show (s.runs ++ _)[s.runs.length]? = _
      rw [List.getElem?_append_right le_rfl, Nat.sub_self]
      rfl
  | none | joined | dispose => exact hs n hn
  | start hstopped => exact (Outside.start hstopped).getElem? (hs n hn)
  | fire hmem => exact (Outside.fire hmem).getElem? (hs n hn)

theorem Outside.retried (hs : Retried s) : Retried s' := by
  have hnew : ∀ (task : Task) (runs : List Run), ∃ run ∈ runs ++ [⟨task, .waiting⟩], ¬ run.Ended :=
    fun task runs => ⟨⟨task, .waiting⟩, by simp, fun ⟨threw, hphase⟩ => Phase.noConfusion hphase⟩
  cases h with
  | none | joined => exact hs
  | start | requested | fire => exact fun _ _ => .inl (hnew _ _)
  | dispose =>
      intro _ hstopped
      cases hstopped

end Outside

theorem isEnded_iff {phase : Phase} : phase.isEnded = true ↔ ∃ threw, phase = .ended threw := by
  cases phase <;> simp [Phase.isEnded]

/-- A run may begin exactly when all runs before it have ended. -/
theorem ready_iff {s : State} {n : ℕ} (hs : Serial s) (hn : n ≤ s.runs.length) :
    s.ready n = true ↔ EndedBefore Run.Ended s.runs n := by
  cases n with
  | zero => exact ⟨fun _ i _ hlt => absurd hlt (Nat.not_lt_zero i), fun _ => rfl⟩
  | succ m =>
      obtain ⟨run, hrun⟩ : ∃ run, s.runs[m]? = some run := ⟨_, List.getElem?_eq_getElem hn⟩
      have hready : s.ready (m + 1) = run.phase.isEnded := by
        rw [State.ready, Nat.add_sub_cancel, State.phaseAt, hrun]
        simp
      rw [hready, isEnded_iff]
      constructor
      · intro hended
        exact Chained.endedBefore hs (fun _ ⟨_, hphase⟩ hwaiting => by cases hphase.symm.trans hwaiting)
          hrun hended
      · intro hbefore
        exact hbefore m run (Nat.lt_succ_self m) hrun

theorem goes_ended {task : Task} {stopped threw : Bool} {entries : List Entry} {new : Phase}
    (h : Goes task stopped (.ended threw) entries new) : False := by
  cases h

section Moves

variable {s s' : State} {n : ℕ} {task : Task} {old new : Phase} {entries : List Entry}
  (hrun : s.runs[n]? = some ⟨task, old⟩) (h : Moves s s' n task old new entries)

include hrun h

theorem Moves.self : s'.runs[n]? = some ⟨task, new⟩ := by
  rw [h.runs, List.getElem?_set_self (List.getElem?_eq_some_iff.mp hrun).1]

omit hrun in
theorem Moves.other {m : ℕ} (hm : n ≠ m) : s'.runs[m]? = s.runs[m]? := by
  rw [h.runs, List.getElem?_set_ne hm]

theorem Moves.serial (hs : Serial s) (hready : old = .waiting → s.ready n = true) : Serial s' := by
  have hn : n < s.runs.length := (List.getElem?_eq_some_iff.mp hrun).1
  rw [Serial, h.runs]
  refine Chained.set hs hrun ?_ ?_
  · intro _
    by_cases hold : old = .waiting
    · exact .inr ((ready_iff hs (Nat.le_of_lt hn)).mp (hready hold))
    · exact .inl hold
  · rintro ⟨threw, hended⟩
    cases hended
    exact (goes_ended h.goes).elim

theorem Moves.pendingWaits (hs : PendingWaits s) : PendingWaits s' := by
  intro m hm
  rw [h.pending] at hm
  split_ifs at hm with hbegins
  have hwaits := hs m hm
  rw [h.other ?_, hwaits]
  -- the run that moves is another one: this one would have been taken off
  rintro rfl
  rw [hrun] at hwaits
  cases hwaits
  exact hbegins ⟨rfl, rfl⟩

theorem Moves.retried (hserial : Serial s) : Retried s' := by
  intro hstarted hstopped
  rw [h.started] at hstarted
  rw [h.stopped] at hstopped
  have hmem : (⟨task, new⟩ : Run) ∈ s'.runs := List.mem_of_getElem? (h.self hrun)
  by_cases hended : ∃ threw, new = .ended threw
  · obtain ⟨threw, hended⟩ := hended
    rcases h.retries threw hended hstarted hstopped with htimer | houtcome | hlength
    · exact .inr (.inl htimer)
    · exact .inr (.inr houtcome)
    · -- the next run waits: this one had not ended
      have hn : n < s.runs.length := (List.getElem?_eq_some_iff.mp hrun).1
      obtain ⟨next, hnext⟩ : ∃ next, s.runs[n + 1]? = some next :=
        ⟨_, List.getElem?_eq_getElem (by omega)⟩
      refine .inl ⟨next, List.mem_of_getElem? ((h.other (by omega)).trans hnext), ?_⟩
      rintro ⟨threw', hphase⟩
      have hbegun : next.Begun := fun hwaiting => by cases hphase.symm.trans hwaiting
      obtain ⟨threw'', hold⟩ := hserial n (n + 1) _ next (Nat.lt_succ_self n) hrun hnext hbegun
      cases hold
      exact goes_ended h.goes
  · exact .inl ⟨_, hmem, hended⟩

end Moves

/-! ## What is seen -/

/-- A migration or an adoption began and is over. Newest first. -/
def Attempted (log : List Entry) : Prop :=
  ∃ e later between earlier, (e = .migrate ∨ e = .fence) ∧
    log = later ++ .over :: between ++ e :: earlier

def Attempting (log : List Entry) : Prop := ∃ e ∈ log, e = .migrate ∨ e = .fence

theorem Attempting.over {log : List Entry} (h : Attempting log) : Attempted (.over :: log) := by
  obtain ⟨e, hmem, he⟩ := h
  obtain ⟨between, earlier, rfl⟩ := List.append_of_mem hmem
  exact ⟨e, [], between, earlier, he, rfl⟩

theorem Attempted.append {log : List Entry} (h : Attempted log) (more : List Entry) :
    Attempted (more ++ log) := by
  obtain ⟨e, later, between, earlier, he, rfl⟩ := h
  exact ⟨e, more ++ later, between, earlier, he, by simp⟩

theorem Attempting.append {log : List Entry} (h : Attempting log) (more : List Entry) :
    Attempting (more ++ log) := by
  obtain ⟨e, hmem, he⟩ := h
  exact ⟨e, List.mem_append_right more hmem, he⟩

/-- What has been seen since a run was asked for, by where it stands. -/
def Evidence : Phase → List Entry → Prop
  | .pausing (.adoption true), log | .checked (.adoption true), log => Attempted log
  | .migrating, log | .fencing _, log | .adopting, log => Attempting log
  | _, _ => True

/-- A request is served by a whole attempt, unless the lifecycle was paused or stopped. -/
def Served (stopped : Bool) (log : List Entry) : Prop :=
  Attempted log ∨ .paused ∈ log ∨ stopped = true

theorem goes_evidence {stopped : Bool} {old new : Phase} {entries log : List Entry}
    (h : Goes .adoption stopped old entries new) (hold : Evidence old log) :
    Evidence new (entries ++ log) ∧ ∀ threw, new = .ended threw → Served stopped (entries ++ log) := by
  cases h with
  | @«begin» body hdirect hstopped =>
      refine ⟨?_, fun _ heq => by cases heq⟩
      match body with
      | .migration | .adoption false => trivial
      | .adoption true => exact (hdirect rfl).elim
  | beginStopped hstopped => exact ⟨trivial, fun _ _ => .inr (.inr hstopped)⟩
  | @pausedThrew body hthrew =>
      refine ⟨trivial, fun _ _ => ?_⟩
      cases hstopped : stopped with
      | true => exact .inr (.inr rfl)
      | false =>
          -- only an adoption after this run's migration was given up
          obtain rfl := hthrew rfl hstopped
          exact .inl hold
  | paused => exact ⟨trivial, fun _ _ => .inr (.inl List.mem_cons_self)⟩
  | @checked body =>
      refine ⟨?_, fun _ heq => by cases heq⟩
      match body with
      | .migration | .adoption false => trivial
      | .adoption true => exact hold
  | stoppedThen hstopped => exact ⟨trivial, fun _ _ => .inr (.inr hstopped)⟩
  | migrate => exact ⟨⟨_, List.mem_cons_self, .inl rfl⟩, fun _ heq => by cases heq⟩
  | fence => exact ⟨⟨_, List.mem_cons_self, .inr rfl⟩, fun _ heq => by cases heq⟩
  | migrated => exact ⟨trivial, fun _ _ => .inl (Attempting.over hold)⟩
  | adoptAfter => exact ⟨Attempting.over hold, fun _ heq => by cases heq⟩
  | fenceStopped hstopped => exact ⟨trivial, fun _ _ => .inr (.inr hstopped)⟩
  | fenced => exact ⟨trivial, fun _ _ => .inl (Attempting.over hold)⟩
  | adopt => exact ⟨Attempting.append hold [.adopt], fun _ heq => by cases heq⟩
  | adopted => exact ⟨trivial, fun _ _ => .inl (Attempting.over hold)⟩

/-- An entry of a longer log is a new one or an old one. -/
theorem split_log (new : List Entry) {old later earlier : List Entry} {e : Entry}
    (h : new ++ old = later ++ e :: earlier) :
    (∃ rest, new = later ++ e :: rest ∧ earlier = rest ++ old) ∨
      ∃ rest, later = new ++ rest ∧ old = rest ++ e :: earlier := by
  rcases List.append_eq_append_iff.mp h with ⟨rest, hlater, hold⟩ | ⟨rest, hnew, hold⟩
  · exact .inr ⟨rest, hlater, hold⟩
  · cases rest with
    | nil => exact .inr ⟨[], by rw [hnew, List.append_nil, List.append_nil], hold.symm⟩
    | cons first rest =>
        obtain ⟨rfl, hearlier⟩ := List.cons.inj hold
        exact .inl ⟨rest, hnew, hearlier⟩

/-- What the log says of the calls and of the promises. -/
structure Watched (s : State) : Prop where
  stopped : .stopped ∈ s.log ↔ s.stopped = true
  calls : ∀ later e earlier, s.log = later ++ e :: earlier → e = .migrate ∨ e = .adopt →
    .stopped ∉ earlier
  waits : ∀ later n earlier, s.log = later ++ .requested n :: earlier →
    ∃ phase, s.runs[n]? = some ⟨.adoption, phase⟩ ∧ Evidence phase later
  resolves : ∀ later n between earlier,
    s.log = later ++ .resolved n :: (between ++ .requested n :: earlier) →
      Attempted between ∨ .paused ∈ between ∨ .stopped ∈ between ++ earlier

theorem Evidence.append {phase : Phase} {log : List Entry} (h : Evidence phase log)
    (more : List Entry) : Evidence phase (more ++ log) := by
  match phase with
  | .waiting | .ended _ | .pausing .migration | .pausing (.adoption false) | .checked .migration
  | .checked (.adoption false) => trivial
  | .pausing (.adoption true) | .checked (.adoption true) => exact Attempted.append h more
  | .migrating | .fencing _ | .adopting => exact Attempting.append h more

theorem Outside.log {s s' : State} (h : Outside s s') (hs : PendingWaits s) :
    (s'.log = s.log ∧ s'.stopped = s.stopped) ∨
    (∃ n, s'.log = .requested n :: s.log ∧ s'.stopped = s.stopped ∧
      s'.runs[n]? = some ⟨.adoption, .waiting⟩) ∨
    (s'.log = .stopped :: s.log ∧ s'.stopped = true) := by
  have hpending := h.pendingWaits hs
  cases h with
  | none | start | fire => exact .inl ⟨rfl, rfl⟩
  | joined token hrun => exact .inr (.inl ⟨_, rfl, rfl, hs _ hrun⟩)
  | requested => exact .inr (.inl ⟨_, rfl, rfl, hpending _ rfl⟩)
  | dispose => exact .inr (.inr ⟨rfl, rfl⟩)

/-- One entry from outside; only a request's and the stop are seen. -/
theorem Watched.cons {s s' : State} {e : Entry} (hs : Watched s)
    (hrun : ∀ (n : ℕ) (run : Run), s.runs[n]? = some run → s'.runs[n]? = some run)
    (hlog : s'.log = e :: s.log) (hstopped : .stopped ∈ s'.log ↔ s'.stopped = true)
    (hcall : e ≠ .migrate ∧ e ≠ .adopt) (hresolved : ∀ n, e ≠ .resolved n)
    (hrequested : ∀ n, e = .requested n → s'.runs[n]? = some ⟨.adoption, .waiting⟩) :
    Watched s' where
  stopped := hstopped
  calls := by
    intro later e' earlier heq he
    rw [hlog] at heq
    rcases split_log [e] heq with ⟨rest, hnew, -⟩ | ⟨rest, -, hold⟩
    · have hmem : e' ∈ [e] := hnew ▸ by simp
      obtain rfl := List.mem_singleton.mp hmem
      exact (he.elim hcall.1 hcall.2).elim
    · exact hs.calls rest e' earlier hold he
  waits := by
    intro later n earlier heq
    rw [hlog] at heq
    rcases split_log [e] heq with ⟨rest, hnew, -⟩ | ⟨rest, rfl, hold⟩
    · have hmem : Entry.requested n ∈ [e] := hnew ▸ by simp
      exact ⟨.waiting, hrequested n (List.mem_singleton.mp hmem).symm, trivial⟩
    · obtain ⟨phase, hphase, hevidence⟩ := hs.waits rest n earlier hold
      exact ⟨phase, hrun n _ hphase, hevidence.append [e]⟩
  resolves := by
    intro later n between earlier heq
    rw [hlog] at heq
    rcases split_log [e] heq with ⟨rest, hnew, -⟩ | ⟨rest, -, hold⟩
    · have hmem : Entry.resolved n ∈ [e] := hnew ▸ by simp
      exact absurd (List.mem_singleton.mp hmem).symm (hresolved n)
    · exact hs.resolves rest n between earlier hold

theorem Outside.watched {s s' : State} (h : Outside s s') (hpending : PendingWaits s)
    (hs : Watched s) : Watched s' := by
  have hrun : ∀ (n : ℕ) (run : Run), s.runs[n]? = some run → s'.runs[n]? = some run :=
    fun _ _ => h.getElem?
  rcases h.log hpending with ⟨hlog, hstopped⟩ | ⟨n, hlog, hstopped, hwaits⟩ | ⟨hlog, hstopped⟩
  · refine ⟨?_, ?_, ?_, ?_⟩
    · rw [hlog, hstopped]
      exact hs.stopped
    · rw [hlog]
      exact hs.calls
    · rw [hlog]
      intro later n earlier heq
      obtain ⟨phase, hphase, hevidence⟩ := hs.waits later n earlier heq
      exact ⟨phase, hrun n _ hphase, hevidence⟩
    · rw [hlog]
      exact hs.resolves
  · refine hs.cons hrun hlog ?_ ⟨nofun, nofun⟩ (fun _ => nofun) ?_
    · rw [hlog, hstopped, ← hs.stopped]
      simp
    · intro m heq
      cases heq
      exact hwaits
  · refine hs.cons hrun hlog ?_ ⟨nofun, nofun⟩ (fun _ => nofun) fun _ => nofun
    rw [hlog, hstopped]
    simp

/-- What a run shows on its way: no request, no stop, and calls only before the stop. -/
theorem goes_entries {task : Task} {stopped : Bool} {old new : Phase} {entries : List Entry}
    (h : Goes task stopped old entries new) (e : Entry) (hmem : e ∈ entries) :
    (∀ n, e ≠ .requested n) ∧ (∀ n, e ≠ .resolved n) ∧ e ≠ .stopped ∧
      (e = .migrate ∨ e = .adopt → stopped = false) := by
  cases h with
  | «begin» | beginStopped | pausedThrew | checked | stoppedThen | fenceStopped => cases hmem
  | paused | migrated | adoptAfter | fenced | adopted | fence =>
      obtain rfl := List.mem_singleton.mp hmem
      exact ⟨nofun, nofun, nofun, nofun⟩
  | migrate hstopped | adopt hstopped =>
      obtain rfl := List.mem_singleton.mp hmem
      exact ⟨nofun, nofun, nofun, fun _ => hstopped⟩

theorem mem_resolution {n : ℕ} {phase : Phase} {e : Entry} (h : e ∈ resolution n phase) :
    e = .resolved n ∧ ∃ threw, phase = .ended threw := by
  cases phase with
  | ended threw => exact ⟨List.mem_singleton.mp h, threw, rfl⟩
  | _ => cases h

theorem Moves.watched {s s' : State} {n : ℕ} {task : Task} {old new : Phase}
    {entries : List Entry} (hrun : s.runs[n]? = some ⟨task, old⟩)
    (h : Moves s s' n task old new entries) (hs : Watched s) : Watched s' := by
  have hentries := goes_entries h.goes
  have hnew : ∀ e ∈ resolution n new ++ entries, (∀ m, e ≠ .requested m) ∧ e ≠ .stopped ∧
      (e = .migrate ∨ e = .adopt → s.stopped = false) := by
    intro e hmem
    rcases List.mem_append.mp hmem with hmem | hmem
    · obtain ⟨rfl, -⟩ := mem_resolution hmem
      exact ⟨nofun, nofun, nofun⟩
    · exact ⟨(hentries e hmem).1, (hentries e hmem).2.2.1, (hentries e hmem).2.2.2⟩
  refine ⟨?_, ?_, ?_, ?_⟩
  · rw [h.log, h.stopped, ← hs.stopped, List.mem_append]
    exact ⟨fun hmem => hmem.resolve_left fun hmem => (hnew _ hmem).2.1 rfl, .inr⟩
  · intro later e earlier heq he
    rw [h.log] at heq
    rcases split_log _ heq with ⟨rest, hsplit, rfl⟩ | ⟨rest, -, hold⟩
    · -- a call is made only while the lifecycle runs
      have hstopped := (hnew e (hsplit ▸ by simp)).2.2 he
      rw [List.mem_append, not_or, hs.stopped, hstopped]
      exact ⟨fun hmem => (hnew _ (hsplit ▸ by simp [hmem])).2.1 rfl, Bool.false_ne_true⟩
    · exact hs.calls rest e earlier hold he
  · intro later m earlier heq
    rw [h.log] at heq
    rcases split_log _ heq with ⟨rest, hsplit, -⟩ | ⟨rest, rfl, hold⟩
    · exact absurd rfl ((hnew (.requested m) (hsplit ▸ by simp)).1 m)
    · obtain ⟨phase, hphase, hevidence⟩ := hs.waits rest m earlier hold
      by_cases hm : n = m
      · subst hm
        rw [hrun] at hphase
        cases hphase
        refine ⟨new, h.self hrun, ?_⟩
        rw [List.append_assoc]
        exact (goes_evidence h.goes hevidence).1.append _
      · exact ⟨phase, (h.other hm).trans hphase, hevidence.append _⟩
  · intro later m between earlier heq
    rw [h.log] at heq
    rcases split_log _ heq with ⟨rest, hsplit, htail⟩ | ⟨rest, -, hold⟩
    · -- the run that ends now: the request is older
      have hresolved : Entry.resolved m ∈ resolution n new := by
        have hmem : Entry.resolved m ∈ resolution n new ++ entries := hsplit ▸ by simp
        exact (List.mem_append.mp hmem).resolve_right fun hmem => (hentries _ hmem).2.1 m rfl
      obtain ⟨hm, threw, rfl⟩ := mem_resolution hresolved
      cases hm
      have hrest : rest = entries := by
        cases later with
        | nil => exact (List.cons.inj hsplit).2.symm
        | cons first later =>
            have heq : entries = later ++ .resolved n :: rest := (List.cons.inj hsplit).2
            exact absurd rfl ((hentries (.resolved n) (heq ▸ by simp)).2.1 n)
      rw [hrest] at htail
      rcases split_log _ htail.symm with ⟨more, hmore, -⟩ | ⟨more, rfl, hlog⟩
      · exact absurd rfl ((hentries (.requested n) (hmore ▸ by simp)).1 n)
      · obtain ⟨phase, hphase, hevidence⟩ := hs.waits more n earlier hlog
        rw [hrun] at hphase
        cases hphase
        rcases (goes_evidence h.goes hevidence).2 threw rfl with hdone | hpaused | hstopped
        · exact .inl hdone
        · exact .inr (.inl hpaused)
        · refine .inr (.inr ?_)
          have hmem := hs.stopped.mpr hstopped
          rw [hlog, List.mem_append, List.mem_cons] at hmem
          rw [List.append_assoc, List.mem_append, List.mem_append]
          rcases hmem with hmem | heq | hmem
          · exact .inr (.inl hmem)
          · cases heq
          · exact .inr (.inr hmem)
    · exact hs.resolves rest m between earlier hold

/-! ## Promises resolve -/

/-- How many events a run takes at most. -/
def Phase.weight : Phase → ℕ
  | .waiting => 9
  | .pausing .migration => 8
  | .checked .migration => 7
  | .migrating => 6
  | .pausing (.adoption _) => 5
  | .checked (.adoption _) => 4
  | .fencing _ => 3
  | .adopting => 2
  | .ended _ => 0

theorem goes_weight {task : Task} {stopped : Bool} {old new : Phase} {entries : List Entry}
    (h : Goes task stopped old entries new) : new.weight < old.weight := by
  cases h with
  | @«begin» body | @pausedThrew body | @paused body | @checked body | @stoppedThen body =>
      cases body <;> simp [Phase.weight]
  | _ => simp [Phase.weight]

theorem weight_eq_zero {phase : Phase} (h : phase.weight = 0) : ∃ threw, phase = .ended threw := by
  match phase with
  | .ended threw => exact ⟨threw, rfl⟩

/-- The events until the first `n` runs have ended. -/
def State.remaining (s : State) (n : ℕ) : ℕ := ((s.runs.take n).map (·.phase.weight)).sum

theorem Outside.remaining {s s' : State} (h : Outside s s') {n : ℕ} (hn : n ≤ s.runs.length) :
    s'.remaining n = s.remaining n := by
  rcases h.runs with heq | ⟨task, heq⟩
  · rw [State.remaining, heq]
    rfl
  · rw [State.remaining, heq, List.take_append_of_le_length hn]
    rfl

theorem sum_set_lt (old : ℕ) {weights : List ℕ} {m new : ℕ} (h : weights[m]? = some old) (hlt : new < old) :
    (weights.set m new).sum < weights.sum := by
  induction weights generalizing m with
  | nil => cases h
  | cons w rest ih =>
      cases m with
      | zero =>
          obtain rfl : w = old := Option.some.inj h
          rw [List.set_cons_zero, List.sum_cons, List.sum_cons]
          omega
      | succ m =>
          have := ih (m := m) (by simpa using h)
          rw [List.set_cons_succ, List.sum_cons, List.sum_cons]
          omega

theorem Moves.remaining {s s' : State} {m : ℕ} {task : Task} {old new : Phase}
    {entries : List Entry} (hrun : s.runs[m]? = some ⟨task, old⟩)
    (h : Moves s s' m task old new entries) (n : ℕ) :
    if m < n then s'.remaining n < s.remaining n else s'.remaining n = s.remaining n := by
  rw [State.remaining, h.runs, List.take_set, State.remaining, List.map_set]
  split_ifs with hm
  · refine sum_set_lt old.weight ?_ (goes_weight h.goes)
    rw [List.getElem?_map, List.getElem?_take_of_lt hm, hrun]
    rfl
  · rw [List.set_eq_of_length_le]
    rw [List.length_map, List.length_take]
    omega

/-! ## Whole runs -/

/-- The lifecycle over time; nothing happens where there is no event. -/
structure Behavior where
  state : ℕ → State
  event : ℕ → Option Event
  init : state 0 = {}
  next : ∀ t, (event t).elim (some (state t)) (state t).step = some (state (t + 1))

namespace Behavior

variable (b : Behavior)

/-- Each run goes on in the end once it is its turn: what it waits for answers. -/
def Answered : Prop :=
  ∀ t n run, (b.state t).runs[n]? = some run → ¬ run.Ended →
    EndedBefore Run.Ended (b.state t).runs n →
      ∃ t' e, t ≤ t' ∧ b.event t' = some e ∧ e.serves = some n

def NoLapse : Prop := ∀ t e, b.event t = some e → ¬ Lapse (b.state t) e

/-- One step is a run that goes on, or an event from outside. -/
theorem step_cases {b : Behavior} (h : b.NoLapse) (t : ℕ) :
    (Outside (b.state t) (b.state (t + 1)) ∧ ∀ e ∈ b.event t, e.serves = none) ∨
    ∃ e n task old new entries, b.event t = some e ∧ e.serves = some n ∧
      (b.state t).runs[n]? = some ⟨task, old⟩ ∧
      (old = .waiting → (b.state t).ready n = true) ∧
      Moves (b.state t) (b.state (t + 1)) n task old new entries := by
  have hnext := b.next t
  cases hevent : b.event t with
  | none =>
      rw [hevent] at hnext
      refine .inl ⟨?_, nofun⟩
      rw [← Option.some.inj hnext]
      exact .none
  | some e =>
      rw [hevent] at hnext
      cases hserves : e.serves with
      | none =>
          refine .inl ⟨step_outside hserves hnext, ?_⟩
          intro e' he'
          obtain rfl := Option.some.inj he'
          exact hserves
      | some n =>
          obtain ⟨task, old, new, entries, hrun, hready, hmoves⟩ :=
            step_moves hserves (h t e hevent) hnext
          exact .inr ⟨e, n, task, old, new, entries, rfl, hserves, hrun, hready, hmoves⟩

/-- What holds of the lifecycle at any time. -/
structure Inv (s : State) : Prop where
  timers : TimersArmed s
  serial : Serial s
  pending : PendingWaits s
  retried : Retried s
  watched : Watched s

theorem inv_init : Inv {} where
  timers := rfl
  serial := chained_nil
  pending := nofun
  retried := nofun
  watched := by
    refine ⟨⟨nofun, nofun⟩, ?_, ?_, ?_⟩
    · intro later e earlier heq
      exact absurd heq.symm (by simp)
    · intro later n earlier heq
      exact absurd heq.symm (by simp)
    · intro later n between earlier heq
      exact absurd heq.symm (by simp)

theorem inv {b : Behavior} (h : b.NoLapse) (t : ℕ) : Inv (b.state t) := by
  induction t with
  | zero =>
      rw [b.init]
      exact inv_init
  | succ t ih =>
      rcases step_cases h t with ⟨hout, -⟩ | ⟨e, n, task, old, new, entries, -, -, hrun, hready, hmoves⟩
      · exact ⟨hout.timersArmed ih.timers, hout.serial ih.serial, hout.pendingWaits ih.pending,
          hout.retried ih.retried, hout.watched ih.pending ih.watched⟩
      · exact ⟨hmoves.timers ih.timers, hmoves.serial hrun ih.serial hready,
          hmoves.pendingWaits hrun ih.pending, hmoves.retried hrun ih.serial,
          hmoves.watched hrun ih.watched⟩

theorem remaining_le {b : Behavior} (h : b.NoLapse) {t n : ℕ} (hn : n ≤ (b.state t).runs.length) :
    (b.state (t + 1)).remaining n ≤ (b.state t).remaining n := by
  rcases step_cases h t with ⟨hout, -⟩ | ⟨e, m, task, old, new, entries, -, -, hrun, -, hmoves⟩
  · exact Nat.le_of_eq (hout.remaining hn)
  · have hremaining := hmoves.remaining hrun n
    split_ifs at hremaining <;> omega

theorem length_le {b : Behavior} (h : b.NoLapse) {t t' : ℕ} (hle : t ≤ t') :
    (b.state t).runs.length ≤ (b.state t').runs.length := by
  induction t', hle using Nat.le_induction with
  | base => exact Nat.le_refl _
  | succ t' _ ih =>
      refine Nat.le_trans ih ?_
      rcases step_cases h t' with ⟨hout, -⟩ | ⟨e, m, task, old, new, entries, -, -, hrun, -, hmoves⟩
      · rcases hout.runs with heq | ⟨task, heq⟩
        · rw [heq]
        · rw [heq, List.length_append]
          exact Nat.le_add_right _ _
      · rw [hmoves.runs, List.length_set]

/-- When what the runs wait for answers, each run ends. -/
theorem ends {b : Behavior} (h : b.NoLapse) (hanswered : b.Answered) {t n : ℕ}
    (hn : n < (b.state t).runs.length) :
    ∃ t' run, t ≤ t' ∧ (b.state t').runs[n]? = some run ∧ run.Ended := by
  have hlength : ∀ t', t ≤ t' → n + 1 ≤ (b.state t').runs.length :=
    fun t' hle => Nat.le_trans hn (length_le h hle)
  have hdown : ∀ t', t ≤ t' → 0 < (b.state t').remaining (n + 1) →
      ∃ t'', t' ≤ t'' ∧ (b.state (t'' + 1)).remaining (n + 1) < (b.state t'').remaining (n + 1) := by
    intro t' hle hpos
    -- some run up to the `n`-th has not ended, so the first such run goes on
    obtain ⟨w, hmem, hw⟩ : ∃ w ∈ ((b.state t').runs.take (n + 1)).map (·.phase.weight), w ≠ 0 := by
      by_contra hall
      push Not at hall
      have hsum : (b.state t').remaining (n + 1) = 0 := List.sum_eq_zero_iff_forall_eq_nat.mpr hall
      omega
    obtain ⟨run, hrun, rfl⟩ := List.mem_map.mp hmem
    obtain ⟨k, hk⟩ := List.mem_iff_getElem?.mp hrun
    have hkn : k < n + 1 := by
      have := (List.getElem?_eq_some_iff.mp hk).1
      rw [List.length_take] at this
      omega
    rw [List.getElem?_take_of_lt hkn] at hk
    have hend : ¬ run.Ended := by
      rintro ⟨threw, hphase⟩
      rw [hphase] at hw
      exact hw rfl
    obtain ⟨m, first, hm, hfirst, hendfirst, hbefore⟩ := exists_first hk hend
    obtain ⟨t'', e, hlater, hevent, hserves⟩ := hanswered t' m first hfirst hendfirst hbefore
    refine ⟨t'', hlater, ?_⟩
    rcases step_cases h t'' with ⟨-, hnone⟩ | ⟨e', m', task, old, new, entries, hevent', hserves', hrun', -, hmoves⟩
    · rw [hnone e hevent] at hserves
      cases hserves
    · rw [hevent] at hevent'
      obtain rfl := Option.some.inj hevent'
      rw [hserves] at hserves'
      obtain rfl := Option.some.inj hserves'
      have hremaining := hmoves.remaining hrun' (n + 1)
      rwa [if_pos (by omega)] at hremaining
  obtain ⟨t', hle, hzero⟩ := eventually_zero (fun t' hle => remaining_le h (hlength t' hle)) hdown
    (Nat.le_refl t)
  have hrun := List.getElem?_eq_getElem (hlength t' hle)
  refine ⟨t', _, hle, hrun, weight_eq_zero ?_⟩
  rw [State.remaining, List.sum_eq_zero_iff_forall_eq_nat] at hzero
  refine hzero _ (List.mem_map_of_mem (f := fun run : Run => run.phase.weight) ?_)
  exact List.mem_of_getElem? ((List.getElem?_take_of_lt (Nat.lt_succ_self n)).trans hrun)

end Behavior

/-! ## The lifecycle's contract -/

/-- `migrate` or `adopt` is under way for the `n`-th run. -/
def State.Calling (s : State) (n : ℕ) : Prop :=
  s.phaseAt n = some .migrating ∨ s.phaseAt n = some .adopting

theorem calling_unique {s : State} (hs : Serial s) {i j : ℕ} (hi : s.Calling i)
    (hj : s.Calling j) : i = j := by
  have hrun : ∀ {n}, s.Calling n → ∃ run, s.runs[n]? = some run ∧ run.Begun ∧ ¬ run.Ended := by
    rintro n (hphase | hphase) <;> obtain ⟨task, hrun⟩ := phaseAt_eq hphase <;>
      exact ⟨_, hrun, Phase.noConfusion, fun ⟨_, heq⟩ => Phase.noConfusion heq⟩
  obtain ⟨x, hx, hbegunx, hendx⟩ := hrun hi
  obtain ⟨y, hy, hbeguny, hendy⟩ := hrun hj
  exact Chained.unique hs hx hy hbegunx hbeguny hendx hendy

theorem promise_fulfilled {run : Run} (h : run.Ended) : run.promise = some .fulfilled := by
  obtain ⟨threw, hphase⟩ := h
  rw [Run.promise, Run.result, hphase]
  rfl

theorem promise_not_rejected (run : Run) : run.promise ≠ some .rejected := by
  rw [Run.promise]
  cases run.result <;> simp

/-- Over every run without a lapse: one `migrate` or `adopt` at a time and none after
`dispose`; the promise of a request resolves, never rejects, and not before an attempt that
began after the request, unless the lifecycle is paused or stopped; and while it runs and no
run waits one timer is armed, unless the slot was read-only. -/
theorem lifecycle_runs (b : Behavior) (h : b.NoLapse) :
    (∀ t i j, (b.state t).Calling i → (b.state t).Calling j → i = j) ∧
    (∀ t later e earlier, (b.state t).log = later ++ e :: earlier → e = .migrate ∨ e = .adopt →
      .stopped ∉ earlier) ∧
    (∀ t n, .requested n ∈ (b.state t).log →
      (∃ run, (b.state t).runs[n]? = some run ∧ run.promise ≠ some .rejected) ∧
      (b.Answered → ∃ t' run, t ≤ t' ∧ (b.state t').runs[n]? = some run ∧
        run.promise = some .fulfilled)) ∧
    (∀ t later n between earlier,
      (b.state t).log = later ++ .resolved n :: (between ++ .requested n :: earlier) →
        Attempted between ∨ .paused ∈ between ∨ .stopped ∈ between ++ earlier) ∧
    (∀ t, (b.state t).started = true → (b.state t).stopped = false →
      (∀ run ∈ (b.state t).runs, run.Ended) →
        (b.state t).armed.length = 1 ∨ (b.state t).lastOutcome = some .slotReadOnly) := by
  refine ⟨?_, ?_, ?_, ?_, ?_⟩
  · intro t i j
    exact calling_unique (Behavior.inv h t).serial
  · intro t
    exact (Behavior.inv h t).watched.calls
  · intro t n hmem
    obtain ⟨later, earlier, hlog⟩ := List.append_of_mem hmem
    obtain ⟨phase, hrun, -⟩ := (Behavior.inv h t).watched.waits later n earlier hlog
    refine ⟨⟨_, hrun, promise_not_rejected _⟩, fun hanswered => ?_⟩
    obtain ⟨t', run, hle, hrun', hended⟩ :=
      Behavior.ends h hanswered (List.getElem?_eq_some_iff.mp hrun).1
    exact ⟨t', run, hle, hrun', promise_fulfilled hended⟩
  · intro t
    exact (Behavior.inv h t).watched.resolves
  · intro t hstarted hstopped hended
    rcases (Behavior.inv h t).retried hstarted hstopped with ⟨run, hmem, hrun⟩ | htimer | houtcome
    · exact absurd (hended run hmem) hrun
    · left
      obtain ⟨handle, hhandle⟩ := Option.isSome_iff_exists.mp htimer
      have harmed := congrArg List.length (Behavior.inv h t).timers
      rwa [hhandle, List.length_map] at harmed
    · exact .inr houtcome

/-- The events one after the other, where each can happen, and nothing after them. -/
def Behavior.ofEvents (events : List Event) : Behavior where
  state t := (events.take t).foldl (fun s e => (s.step e).getD s) {}
  event t := (events[t]?).filter fun e =>
    (((events.take t).foldl (fun s e => (s.step e).getD s) {} : State).step e).isSome
  init := by rw [List.take_zero, List.foldl_nil]
  next t := by
    cases h : events[t]? with
    | none =>
        rw [List.take_of_length_le (List.getElem?_eq_none_iff.mp h),
          List.take_of_length_le (Nat.le_succ_of_le (List.getElem?_eq_none_iff.mp h))]
        rfl
    | some e =>
        rw [List.take_add_one, h, Option.toList_some, List.foldl_append]
        generalize (events.take t).foldl (fun s e => (s.step e).getD s) ({} : State) = s
        rw [List.foldl_cons, List.foldl_nil]
        cases hstep : s.step e with
        | none => simp [Option.filter, hstep]
        | some s' => simp [Option.filter, hstep]

theorem ofEvents_noLapse {events : List Event}
    (h : ∀ e ∈ events, ∀ s, ¬ Lapse s e) : (Behavior.ofEvents events).NoLapse := by
  intro t e hevent
  obtain ⟨hget, -⟩ := Option.filter_eq_some_iff.mp hevent
  exact h e (List.mem_of_getElem? hget) _

/-- A migration that waits for an older process leaves the timer armed. -/
theorem lifecycle_runs_deferred :
    ∃ b : Behavior, (b.state 5).armed.length = 1 ∧ (b.state 5).log = [.resolved 0, .over, .migrate] := by
  have hlapse : (Behavior.ofEvents [.start, .begin 0, .paused 0 (some false), .resume 0,
      .migrated 0 (some .deferred)]).NoLapse := by
    refine ofEvents_noLapse fun e hmem s => ?_
    simp only [List.mem_cons, List.not_mem_nil, or_false] at hmem
    rcases hmem with rfl | rfl | rfl | rfl | rfl
    · exact id
    · exact id
    · exact id
    · exact id
    · exact fun h => by simp [Lapse] at h
  obtain ⟨-, -, -, -, htimer⟩ := lifecycle_runs _ hlapse
  refine ⟨_, (htimer 5 (by decide) (by decide) ?_).resolve_right (by decide), by decide⟩
  intro run hmem
  obtain rfl : run = ⟨.migration, .ended false⟩ := List.mem_singleton.mp hmem
  exact ⟨false, rfl⟩

/-- A `paused` that throws leaves no timer, and a requested adoption is not tried; an adoption
that finds its store not migrated leaves no timer either. -/
theorem lapses :
    (∃ s, State.run {} [.start, .begin 0, .paused 0 none] = some s ∧ s.started = true ∧
      s.stopped = false ∧ s.runs.all (·.phase.isEnded) = true ∧ s.armed = [] ∧
      s.lastOutcome = none) ∧
    (∃ s, State.run {} [.requestAdoption, .begin 0, .paused 0 none] = some s ∧
      s.log = [.resolved 0, .requested 0]) ∧
    (∃ s, State.run {} [.start, .begin 0, .paused 0 (some false), .resume 0,
        .migrated 0 (some .alreadyMigrated), .paused 0 (some false), .resume 0,
        .fenced 0 (some true), .adopted 0 (some .notMigrated)] = some s ∧
      s.started = true ∧ s.stopped = false ∧ s.runs.all (·.phase.isEnded) = true ∧
      s.armed = [] ∧ s.lastOutcome = some .notMigrated) :=
  ⟨⟨_, rfl, rfl, rfl, rfl, rfl, rfl⟩, ⟨_, rfl, rfl⟩, ⟨_, rfl, rfl, rfl, rfl, rfl, rfl⟩⟩

end PoolLifecycle
