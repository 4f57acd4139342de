import OpenaiAuth.LimitsLease.Refines

/-! # When a lease stops tracking

A lease that has stopped never tracks again, and blocks nobody. It stops for four reasons: the time
of an acquisition is over, the envelope cannot be used, a registry was abandoned, or reads have
failed for a minute.

Main results: `tracking_stopped`, `tracking_stops`, `acquisition_bounded`.
-/

namespace LimitsLease

namespace State

variable {B N L R : Type} {lib : Library B N L R} {s s' s'' : State B N L R}

/-- What a step leaves alone that ends no read and answers no call. -/
structure Frame (s s' : State B N L R) : Prop where
  now : s'.now = s.now
  asks : s'.asks = s.asks
  failureAt : s'.failureAt = s.failureAt
  readLog : s'.readLog = s.readLog
  timer : s'.failureTimer = s.failureTimer ∨ s'.failureTimer = none

namespace Frame

theorem refl : Frame s s := ⟨rfl, rfl, rfl, rfl, .inl rfl⟩

theorem trans (h : Frame s s') (h' : Frame s' s'') : Frame s s'' where
  now := h'.now.trans h.now
  asks := h'.asks.trans h.asks
  failureAt := h'.failureAt.trans h.failureAt
  readLog := h'.readLog.trans h.readLog
  timer := by
    rcases h'.timer with htimer | htimer
    · rw [htimer]
      exact h.timer
    · exact .inr htimer

end Frame

theorem Still.frame (h : Still s s') : Frame s s' :=
  ⟨h.now, h.asks, h.failureAt, h.readLog, h.timer⟩

theorem stopTracking_frame : Frame s s.stopTracking := by
  by_cases hfallback : s.fallback = true
  · rw [stopTracking, if_pos hfallback]
    exact .refl
  · obtain ⟨registries, releasing, heq⟩ := stopTracking_eq hfallback
    rw [heq]
    exact ⟨rfl, rfl, rfl, rfl, .inr rfl⟩

theorem setRun_frame (k : ℕ) (phase : RunPhase) : Frame s (s.setRun k phase) :=
  ⟨rfl, rfl, rfl, rfl, .inl rfl⟩

theorem disposeLate_frame (attempt : Attempt) : Frame s (s.disposeLate attempt) := by
  cases attempt with
  | got r => exact ⟨rfl, rfl, rfl, rfl, .inl rfl⟩
  | failed error => exact .refl
  | adapter => exact ⟨rfl, rfl, rfl, rfl, .inl rfl⟩
  | acquiring r => exact ⟨rfl, rfl, rfl, rfl, .inl rfl⟩

/-- The attempt that a turn of the loop starts. -/
theorem startAttempt_cases :
    (s.startAttempt = (s, .adapter)) ∨ s.startAttempt = s.acquireLimitsRegistry := by
  unfold startAttempt
  by_cases hadapter : s.adapter = true
  · exact .inr (if_pos hadapter)
  · exact .inl (if_neg hadapter)

/-- The head of the loop ends the acquisition, or starts an attempt that has until the deadline. -/
theorem loop_cases (k : ℕ) :
    ((s.fallback = true ∨ s.registry.isSome = true) ∧ s.loop k = s.setRun k (.over false)) ∨
    (∃ deadline, s.deadline = some deadline ∧ deadline ≤ s.now ∧
      s.loop k = s.stopTracking.setRun k (.over false)) ∨
    (s.fallback = false ∧ (∀ deadline, s.deadline = some deadline → s.now < deadline) ∧
      s.loop k =
        s.startAttempt.1.setRun k (.attempting s.startAttempt.2 (s.dueAt s.deadline))) := by
  by_cases hgo : s.fallback = true ∨ s.registry.isSome = true
  · exact .inl ⟨hgo, by rw [loop, if_pos hgo]⟩
  · by_cases hdeadline : s.deadline.any (s.now ≥ ·) = true
    · obtain ⟨deadline, hsome, hle⟩ := (Option.any_eq_true _ _).mp hdeadline
      exact .inr (.inl ⟨deadline, hsome, of_decide_eq_true hle,
        by rw [loop, if_neg hgo, if_pos hdeadline]⟩)
    · refine .inr (.inr ⟨?_, ?_, by rw [loop, if_neg hgo, if_neg hdeadline]⟩)
      · rw [not_or] at hgo
        exact Bool.eq_false_iff.mpr hgo.1
      · intro deadline hsome
        by_contra hle
        refine hdeadline ((Option.any_eq_true _ _).mpr ⟨deadline, hsome, ?_⟩)
        exact decide_eq_true (not_lt.mp hle)

theorem startAttempt_frame : Frame s s.startAttempt.1 := by
  rcases startAttempt_cases (s := s) with h | h
  · rw [h]
    exact .refl
  · rw [h]
    exact ⟨rfl, rfl, rfl, rfl, .inl rfl⟩

theorem loop_frame (k : ℕ) : Frame s (s.loop k) := by
  rcases loop_cases (s := s) k with ⟨-, h⟩ | ⟨deadline, -, -, h⟩ | ⟨-, -, h⟩
  · rw [h]
    exact setRun_frame _ _
  · rw [h]
    exact stopTracking_frame.trans (setRun_frame _ _)
  · rw [h]
    exact startAttempt_frame.trans (setRun_frame _ _)

theorem attempted_frame {k : ℕ} {attempt : Attempt} (h : s.attempted lib k attempt = some s') :
    Frame s s' := by
  cases attempt with
  | adapter => cases h
  | acquiring r => cases h
  | failed error =>
      cases error with
      | conflict =>
          cases h
          exact stopTracking_frame.trans (setRun_frame _ _)
      | unsupported =>
          cases h
          exact stopTracking_frame.trans (setRun_frame _ _)
      | poolNotReady =>
          cases h
          exact ⟨rfl, rfl, rfl, rfl, .inl rfl⟩
      | other =>
          cases h
          exact setRun_frame _ _
  | got r =>
      have hheld : Frame s { s with registry := some r } := ⟨rfl, rfl, rfl, rfl, .inl rfl⟩
      dsimp only [attempted] at h
      split at h
      · cases h
        exact (stopTracking_frame.trans (disposeLate_frame _)).trans (setRun_frame _ _)
      · split at h
        · cases h
          exact (hheld.trans stopTracking_frame).trans (setRun_frame _ _)
        · cases h
          exact (hheld.trans (adoptRead_still lib).frame).trans (setRun_frame _ _)

theorem released_frame (j : ℕ) : Frame s (s.released j) := by
  unfold released
  split
  · exact ⟨rfl, rfl, rfl, rfl, .inl rfl⟩
  · refine current_still.frame.trans ?_
    generalize s.current = t
    dsimp only
    split
    · exact ⟨rfl, rfl, rfl, rfl, .inr rfl⟩
    · exact ⟨rfl, rfl, rfl, rfl, .inr rfl⟩

/-- A step ends a read, goes on with a call, lets time pass, or leaves them alone. -/
theorem act_frame (hact : Act lib s s') :
    Frame s s' ∨
    (∃ t asks, Still s t ∧ s' = { t with asks := asks } ∧
      (s.registry = none → ∀ (i : ℕ) (ask : Ask B), asks[i]? = some ask →
        ask.phase = .answered .blocked → s.asks[i]? = some ask)) ∨
    (∃ reads previous view,
      s' = ({ s with reads := reads } : State B N L R).readEnded lib previous view) ∨
    (∃ now, s' = { s with now := now }) := by
  cases hact with
  | still hstill => exact .inl hstill.frame
  | call hstill hasks => exact .inr (.inl ⟨_, _, hstill, rfl, hasks⟩)
  | readEnded reads previous view => exact .inr (.inr (.inl ⟨reads, previous, view, rfl⟩))
  | advance => exact .inr (.inr (.inr ⟨_, rfl⟩))
  | waited =>
      refine .inl (Frame.trans ?_ (loop_frame _))
      exact ⟨rfl, rfl, rfl, rfl, .inl rfl⟩
  | retried => exact .inl (loop_frame _)
  | adapterMade hrun hphase error =>
      cases error with
      | some error => exact .inl (setRun_frame _ _)
      | none => exact .inl ⟨rfl, rfl, rfl, rfl, .inl rfl⟩
  | acquired hrun hphase answer =>
      cases answer with
      | error error => exact .inl (setRun_frame _ _)
      | ok snapshot => exact .inl ⟨rfl, rfl, rfl, rfl, .inl rfl⟩
  | lateMade hj error =>
      cases error with
      | some error => exact .inl ⟨rfl, rfl, rfl, rfl, .inl rfl⟩
      | none => exact .inl ⟨rfl, rfl, rfl, rfl, .inl rfl⟩
  | attempted hrun hphase hattempted => exact .inl (attempted_frame hattempted)
  | timedOut =>
      exact .inl ((stopTracking_frame.trans (disposeLate_frame _)).trans (setRun_frame _ _))
  | released => exact .inl (released_frame _)
  | failureTimer => exact .inl stopTracking_frame
  | _ => exact .inl ⟨rfl, rfl, rfl, rfl, .inl rfl⟩

theorem recordFailure_asks : s.recordFailure.asks = s.asks := by
  unfold recordFailure
  split
  · rfl
  · dsimp only
    split
    · exact stopTracking_frame.asks
    · rfl

theorem readEnded_asks (previous : Option N) (view : Option (View B N)) :
    (s.readEnded lib previous view).asks = s.asks := by
  unfold readEnded
  cases view with
  | none => exact recordFailure_asks
  | some view =>
      dsimp only
      split
      · rfl
      · split
        · exact recordFailure_asks
        · rfl

/-- No call is answered that it is blocked while the lease has no registry. -/
theorem act_unblocked (hact : Act lib s s') (h : s.registry = none) {i : ℕ} {ask : Ask B}
    (hask : s'.asks[i]? = some ask) (hblocked : ask.phase = .answered .blocked) :
    s.asks[i]? = some ask := by
  rcases act_frame hact with hframe | ⟨t, asks, hstill, rfl, hasks⟩ | ⟨reads, previous, view, rfl⟩ |
    ⟨now, rfl⟩
  · rw [← hframe.asks, hask]
  · exact hasks h i ask hask hblocked
  · rw [readEnded_asks] at hask
    exact hask
  · exact hask

/-- Once tracking has stopped it does not start again: there is no registry and no snapshot, and no
call that is answered from then on is answered that it is blocked. -/
theorem tracking_stopped (h : Reached lib s) (hstopped : s.fallback = true)
    {es : List (Event B N)} (hrun : s.run lib es = some s') :
    s'.fallback = true ∧ s'.registry = none ∧ s'.snapshot lib = none ∧
      ∀ (i : ℕ) (ask : Ask B), s'.asks[i]? = some ask → ask.phase = .answered .blocked →
        s.asks[i]? = some ask := by
  have hall : ∀ (es : List (Event B N)) (t : State B N L R), Sound t → t.fallback = true →
      t.run lib es = some s' → s'.fallback = true ∧ s'.registry = none ∧
        ∀ (i : ℕ) (ask : Ask B), s'.asks[i]? = some ask → ask.phase = .answered .blocked →
          t.asks[i]? = some ask := by
    intro es
    induction es with
    | nil =>
        intro t ht hstopped hrun
        cases hrun
        exact ⟨hstopped, ht.inv.fallback hstopped, fun _ _ hask _ => hask⟩
    | cons e es ih =>
        intro t ht hstopped hrun
        obtain ⟨t', htstep, hrest⟩ := Option.bind_eq_some_iff.mp hrun
        have hact := step_act htstep
        have hstopped' : t'.core.fallback = true :=
          Core.fallback_run (act_follows ht.wf hact).moves hstopped
        obtain ⟨hfallback, hregistry, hasks⟩ := ih t' (ht.step htstep) hstopped' hrest
        refine ⟨hfallback, hregistry, fun i ask hask hblocked => ?_⟩
        exact act_unblocked hact (ht.inv.fallback hstopped) (hasks i ask hask hblocked) hblocked
  obtain ⟨hfallback, hregistry, hasks⟩ := hall es s h.sound hstopped hrun
  refine ⟨hfallback, hregistry, ?_, hasks⟩
  rw [snapshot, adoptRead_of_none hregistry, hregistry]
  rfl

theorem tracking_stopped_abandoned : ∃ s s' : State Unit Unit Unit Unit,
    (initial 0 ()).run plain (acquires ++ [.abandoned 0, .onAbandon 0]) = some s ∧
      s.run plain [.ask 0 (.beforeDispatch (some ()) (some "main")) [()]] = some s' ∧
      s'.fallback = true ∧ s'.registry = none ∧ s'.snapshot plain = none ∧
      ∀ (i : ℕ) (ask : Ask Unit), s'.asks[i]? = some ask → ask.phase = .answered .blocked →
        s.asks[i]? = some ask :=
  ⟨_, _, rfl, rfl, tracking_stopped ⟨0, (), acquires ++ [.abandoned 0, .onAbandon 0], rfl⟩ rfl
    (show State.run plain _ [.ask 0 (.beforeDispatch (some ()) (some "main")) [()]] = some _
      from rfl)⟩

/-! ## The run of failures -/

/-- A read failed at `t`, and none that was adopted has ended since. -/
def FailedSince (s : State B N L R) (t : ℤ) : Prop :=
  ∃ newer older, s.readLog = newer ++ (t, .failed) :: older ∧
    ∀ read ∈ newer, read.2 ≠ ReadKind.adopted

structure Failures (s : State B N L R) : Prop where
  timer : ∀ due, s.failureTimer = some due →
    ∃ t, s.failureAt = some t ∧ due = t + failureRunMs
  failed : ∀ t, s.failureAt = some t → s.FailedSince t

theorem Failures.of_eq (h : Failures s) (hfailureAt : s'.failureAt = s.failureAt)
    (hlog : s'.readLog = s.readLog)
    (htimer : s'.failureTimer = s.failureTimer ∨ s'.failureTimer = none) : Failures s' := by
  constructor
  · intro due hdue
    rw [hfailureAt]
    rcases htimer with htimer | htimer
    · rw [htimer] at hdue
      exact h.timer due hdue
    · rw [htimer] at hdue
      cases hdue
  · intro t ht
    rw [hfailureAt] at ht
    unfold FailedSince
    rw [hlog]
    exact h.failed t ht

theorem Frame.failures (hframe : Frame s s') (h : Failures s) : Failures s' :=
  h.of_eq hframe.failureAt hframe.readLog hframe.timer

theorem FailedSince.cons {t : ℤ} (h : s.FailedSince t) {read : ℤ × ReadKind}
    (hlog : s'.readLog = read :: s.readLog) (hne : read.2 ≠ .adopted) : s'.FailedSince t := by
  obtain ⟨newer, older, heq, hnewer⟩ := h
  refine ⟨read :: newer, older, by rw [hlog, heq]; rfl, ?_⟩
  intro read' hmem
  rcases List.mem_cons.mp hmem with rfl | hmem
  · exact hne
  · exact hnewer read' hmem

theorem Failures.cons (h : Failures s) {read : ℤ × ReadKind}
    (hfailureAt : s'.failureAt = s.failureAt) (htimer : s'.failureTimer = s.failureTimer)
    (hlog : s'.readLog = read :: s.readLog) (hne : read.2 ≠ .adopted) : Failures s' := by
  constructor
  · rw [htimer, hfailureAt]
    exact h.timer
  · intro t ht
    rw [hfailureAt] at ht
    exact (h.failed t ht).cons hlog hne

/-- The lease with a failure that does not stop it. -/
def failing (s : State B N L R) : State B N L R :=
  { s with
    failureAt := some (s.failureAt.getD s.now)
    failureTimer := if s.failureAt.isNone then some (s.now + failureRunMs) else s.failureTimer
    retryAt := s.now + s.retryDelay
    retryDelay := min failureRunMs (s.retryDelay * 2) }

theorem recordFailure_cases :
    s.recordFailure = s ∨ (s.fallback = false ∧ (s.recordFailure = s.failing ∨
      s.failureAt.getD s.now + failureRunMs ≤ s.now ∧
        s.recordFailure = s.failing.stopTracking)) := by
  unfold recordFailure
  by_cases hnone : s.registry.isNone = true ∨ s.fallback = true
  · exact .inl (if_pos hnone)
  · rw [if_neg hnone]
    rw [not_or] at hnone
    refine .inr ⟨Bool.eq_false_iff.mpr hnone.2, ?_⟩
    dsimp only
    split
    · rename_i hlong
      exact .inr ⟨by omega, rfl⟩
    · exact .inl rfl

theorem failing_failures (h : Failures s) :
    Failures { s.failing with readLog := (s.now, .failed) :: s.readLog } := by
  cases hfailureAt : s.failureAt with
  | some t =>
      refine h.cons ?_ ?_ rfl nofun
      · rw [failing, hfailureAt]
        rfl
      · rw [failing, hfailureAt]
        rfl
  | none =>
      constructor
      · intro due hdue
        refine ⟨s.now, ?_, ?_⟩
        · rw [failing, hfailureAt]
          rfl
        · rw [failing, hfailureAt] at hdue
          exact (Option.some.inj hdue).symm
      · intro t ht
        rw [failing, hfailureAt] at ht
        cases ht
        exact ⟨[], s.readLog, rfl, nofun⟩

theorem recordFailure_failures (h : Failures s) :
    Failures { s.recordFailure with readLog := (s.now, .failed) :: s.readLog } := by
  rcases recordFailure_cases (s := s) with heq | ⟨-, heq | ⟨-, heq⟩⟩
  · rw [heq]
    exact h.cons rfl rfl rfl nofun
  · rw [heq]
    exact failing_failures h
  · rw [heq]
    have hstop : Frame s.failing s.failing.stopTracking := stopTracking_frame
    exact (failing_failures h).of_eq hstop.failureAt rfl hstop.timer

theorem readEnded_failures (h : Failures s) (previous : Option N) (view : Option (View B N)) :
    Failures (s.readEnded lib previous view) := by
  unfold readEnded
  cases view with
  | none => exact recordFailure_failures h
  | some view =>
      dsimp only
      split
      · exact ⟨nofun, nofun⟩
      · split
        · refine recordFailure_failures ?_
          exact h.of_eq rfl rfl (.inl rfl)
        · exact h.cons rfl rfl rfl nofun

theorem act_failures (hact : Act lib s s') (h : Failures s) : Failures s' := by
  rcases act_frame hact with hframe | ⟨t, asks, hstill, rfl, -⟩ | ⟨reads, previous, view, rfl⟩ |
    ⟨now, rfl⟩
  · exact hframe.failures h
  · exact (hstill.frame.failures h).of_eq rfl rfl (.inl rfl)
  · refine readEnded_failures ?_ previous view
    exact h.of_eq rfl rfl (.inl rfl)
  · exact h.of_eq rfl rfl (.inl rfl)

/-! ## The time of an acquisition -/

theorem stopTracking_deadline : s.stopTracking.deadline = s.deadline := by
  by_cases hfallback : s.fallback = true
  · rw [stopTracking, if_pos hfallback]
  · obtain ⟨registries, releasing, heq⟩ := stopTracking_eq hfallback
    rw [heq]

theorem recordFailure_times :
    s.recordFailure.deadline = s.deadline ∧ s.recordFailure.now = s.now := by
  rcases recordFailure_cases (s := s) with heq | ⟨-, heq | ⟨-, heq⟩⟩
  · rw [heq]
    exact ⟨rfl, rfl⟩
  · rw [heq]
    exact ⟨rfl, rfl⟩
  · rw [heq]
    exact ⟨stopTracking_deadline, stopTracking_frame.now⟩

variable (lib) in
theorem readEnded_times (previous : Option N) (view : Option (View B N)) :
    (s.readEnded lib previous view).deadline = s.deadline ∧
      (s.readEnded lib previous view).now = s.now := by
  unfold readEnded
  cases view with
  | none => exact recordFailure_times
  | some view =>
      dsimp only
      split
      · exact ⟨rfl, rfl⟩
      · split
        · exact recordFailure_times
        · exact ⟨rfl, rfl⟩

/-- The acquisition has until five seconds after it had waited for the disposal before it. -/
structure Timed (s : State B N L R) (run : Run) (due : ℤ) : Prop where
  since : run.since ≤ s.now
  ahead : s.now ≤ due
  deadline : ∀ deadline, s.deadline = some deadline →
    deadline = run.since + acquireMs ∧ due ≤ deadline

structure Timely (s : State B N L R) (run : Run) : Prop where
  attempting : ∀ attempt due, run.phase = .attempting attempt due →
    Timed s run due ∧ ∀ deadline, s.deadline = some deadline → due = deadline
  retrying : ∀ due, run.phase = .retrying due → Timed s run due

def Dues (s : State B N L R) : Prop :=
  ∀ (k : ℕ) (run : Run), s.runs[k]? = some run → Timely s run

section Dues

variable {k : ℕ} {run : Run}

theorem Timed.of_eq {due : ℤ} (h : Timed s run due) (hnow : s'.now = s.now)
    (hdeadline : s'.deadline = s.deadline ∨ s'.deadline = none) : Timed s' run due := by
  refine ⟨by rw [hnow]; exact h.since, by rw [hnow]; exact h.ahead, ?_⟩
  intro deadline heq
  rcases hdeadline with hsame | hnone
  · rw [hsame] at heq
    exact h.deadline deadline heq
  · rw [hnone] at heq
    cases heq

theorem Timely.of_eq (h : Timely s run) (hnow : s'.now = s.now)
    (hdeadline : s'.deadline = s.deadline ∨ s'.deadline = none) : Timely s' run := by
  constructor
  · intro attempt due hphase
    obtain ⟨htimed, hdue⟩ := h.attempting attempt due hphase
    refine ⟨htimed.of_eq hnow hdeadline, ?_⟩
    intro deadline heq
    rcases hdeadline with hsame | hnone
    · rw [hsame] at heq
      exact hdue deadline heq
    · rw [hnone] at heq
      cases heq
  · intro due hphase
    exact (h.retrying due hphase).of_eq hnow hdeadline

theorem Dues.of_eq (h : Dues s) (hruns : s'.runs = s.runs) (hnow : s'.now = s.now)
    (hdeadline : s'.deadline = s.deadline ∨ s'.deadline = none) : Dues s' := by
  intro k run hrun
  rw [hruns] at hrun
  exact (h k run hrun).of_eq hnow hdeadline

theorem timely_of_phase (hattempting : ∀ attempt due, run.phase ≠ .attempting attempt due)
    (hretrying : ∀ due, run.phase ≠ .retrying due) : Timely s run :=
  ⟨fun attempt due hphase => absurd hphase (hattempting attempt due),
    fun due hphase => absurd hphase (hretrying due)⟩

theorem Dues.setRun (h : Dues s) {phase : RunPhase}
    (hphase : ∀ run, s.runs[k]? = some run → Timely s { run with phase := phase }) :
    Dues (s.setRun k phase) := by
  intro j run' hj
  by_cases heq : j = k
  · subst heq
    cases hrun : s.runs[j]? with
    | none =>
        rw [State.setRun, List.getElem?_modify_eq, hrun] at hj
        cases hj
    | some run =>
        rw [runs_setRun hrun] at hj
        cases hj
        exact (hphase run hrun).of_eq rfl (.inl rfl)
  · rw [runs_setRun_ne heq] at hj
    exact (h j run' hj).of_eq rfl (.inl rfl)

theorem Dues.over (h : Dues s) (k : ℕ) (rejected : Bool) : Dues (s.setRun k (.over rejected)) :=
  h.setRun fun _ _ => timely_of_phase nofun nofun

theorem disposeLate_same (attempt : Attempt) :
    (s.disposeLate attempt).runs = s.runs ∧ (s.disposeLate attempt).deadline = s.deadline ∧
      (s.disposeLate attempt).fallback = s.fallback := by
  cases attempt with
  | got r => exact ⟨rfl, rfl, rfl⟩
  | failed error => exact ⟨rfl, rfl, rfl⟩
  | adapter => exact ⟨rfl, rfl, rfl⟩
  | acquiring r => exact ⟨rfl, rfl, rfl⟩

theorem Dues.stopTracking (h : Dues s) : Dues s.stopTracking :=
  h.of_eq stopTracking_beside.runs stopTracking_frame.now (.inl stopTracking_deadline)

/-- The attempt goes on, and has the time it had. -/
theorem Dues.attempt {attempt attempt' : Attempt} {due : ℤ} (h : Dues s)
    (hrun : s.runs[k]? = some run) (hphase : run.phase = .attempting attempt due)
    (hruns : s'.runs = s.runs) (hnow : s'.now = s.now) (hdeadline : s'.deadline = s.deadline) :
    Dues (s'.setRun k (.attempting attempt' due)) := by
  refine Dues.setRun (h.of_eq hruns hnow (.inl hdeadline)) ?_
  intro run' hrun'
  rw [hruns, hrun] at hrun'
  cases hrun'
  obtain ⟨htimed, hdue⟩ := (h k run hrun).attempting attempt due hphase
  refine Timely.of_eq (s := s) ?_ hnow (.inl hdeadline)
  refine ⟨?_, nofun⟩
  intro attempt'' due' heq
  cases heq
  exact ⟨⟨htimed.since, htimed.ahead, htimed.deadline⟩, hdue⟩

theorem le_dueAt (time : Option ℤ) : s.now ≤ s.dueAt time := by
  cases time with
  | none => exact Int.le_add_one le_rfl
  | some time => exact le_add_of_nonneg_right (le_max_left _ _)

theorem dueAt_le {time deadline : ℤ} (hnow : s.now ≤ deadline) (htime : time ≤ deadline) :
    s.dueAt (some time) ≤ deadline := by
  rw [dueAt]
  omega

theorem startAttempt_same :
    s.startAttempt.1.runs = s.runs ∧ s.startAttempt.1.deadline = s.deadline ∧
      s.startAttempt.1.fallback = s.fallback := by
  rcases startAttempt_cases (s := s) with h | h
  · rw [h]
    exact ⟨rfl, rfl, rfl⟩
  · rw [h]
    exact ⟨rfl, rfl, rfl⟩

/-- An acquisition that loops has until its deadline. -/
theorem Dues.loop (h : Dues s) (hrun : s.runs[k]? = some run) (hsince : run.since ≤ s.now)
    (hdeadline : ∀ deadline, s.deadline = some deadline → deadline = run.since + acquireMs) :
    Dues (s.loop k) := by
  rcases loop_cases (s := s) k with ⟨-, heq⟩ | ⟨-, -, -, heq⟩ | ⟨-, hahead, heq⟩
  · rw [heq]
    exact h.over k false
  · rw [heq]
    exact h.stopTracking.over k false
  · rw [heq]
    obtain ⟨hruns, hsame, -⟩ := startAttempt_same (s := s)
    have hnow := (startAttempt_frame (s := s)).now
    refine Dues.setRun (h.of_eq hruns hnow (.inl hsame)) ?_
    intro run' hrun'
    rw [hruns, hrun] at hrun'
    cases hrun'
    refine Timely.of_eq (s := s) ?_ hnow (.inl hsame)
    refine ⟨?_, nofun⟩
    rintro attempt due heq
    cases heq
    refine ⟨⟨hsince, le_dueAt _, ?_⟩, ?_⟩
    · intro deadline hsome
      have hlt := hahead deadline hsome
      rw [hsome]
      exact ⟨hdeadline deadline hsome, dueAt_le hlt.le le_rfl⟩
    · intro deadline hsome
      have hlt := hahead deadline hsome
      rw [hsome, dueAt]
      omega

/-- What the acquisition goes on with, and why it keeps its time. -/
theorem Dues.attempted (h : Dues s) {attempt : Attempt} {due : ℤ}
    (hrun : s.runs[k]? = some run) (hphase : run.phase = .attempting attempt due)
    (hattempted : s.attempted lib k attempt = some s') : Dues s' := by
  cases attempt with
  | adapter => cases hattempted
  | acquiring r => cases hattempted
  | failed error =>
      cases error with
      | conflict =>
          cases hattempted
          exact h.stopTracking.over k false
      | unsupported =>
          cases hattempted
          exact h.stopTracking.over k false
      | poolNotReady =>
          cases hattempted
          refine Dues.over ?_ k false
          exact h.of_eq rfl rfl (.inr rfl)
      | other =>
          cases hattempted
          refine h.setRun fun run' hrun' => ?_
          rw [hrun] at hrun'
          cases hrun'
          obtain ⟨⟨hsince, hahead, htime⟩, hdue⟩ := (h k run hrun).attempting _ due hphase
          refine ⟨nofun, ?_⟩
          intro later heq
          cases heq
          refine ⟨hsince, le_dueAt _, ?_⟩
          intro deadline hsome
          have hequal := hdue deadline hsome
          rw [hsome]
          refine ⟨(htime deadline hsome).1, dueAt_le (by omega) ?_⟩
          dsimp only
          omega
  | got r =>
      have hheld : Dues { s with registry := some r } := h.of_eq rfl rfl (.inl rfl)
      dsimp only [State.attempted] at hattempted
      split at hattempted
      · cases hattempted
        refine Dues.over ?_ k false
        exact h.stopTracking.of_eq rfl rfl (.inl rfl)
      · split at hattempted
        · cases hattempted
          exact hheld.stopTracking.over k false
        · cases hattempted
          have hread : Still { s with registry := some r } _ := adoptRead_still lib
          exact (hheld.of_eq hread.runs hread.now (.inl hread.deadline)).over k false

theorem released_times (j : ℕ) : (s.released j).runs = s.runs ∧
    ((s.released j).deadline = s.deadline ∨ (s.released j).deadline = none) := by
  unfold released
  split
  · exact ⟨rfl, .inl rfl⟩
  · have hstill : Still s s.current := current_still
    rw [← hstill.runs, ← hstill.deadline]
    generalize s.current = t
    dsimp only
    split
    · exact ⟨rfl, .inr rfl⟩
    · exact ⟨rfl, .inl rfl⟩

end Dues

/-! ## What an acquisition leaves -/

/-- While the loop is not entered, a deadline is that of a registry which a release gives back. -/
def Leftover (s : State B N L R) : Prop :=
  s.fallback = false → s.registry = none → ¬ s.core.Loops → s.deadline ≠ none →
    ∃ r, s.releasing = some ⟨r, false⟩ ∧
      (s.disposal r = .failed ∨ .disposing r ∈ s.releases)

namespace Leftover

theorem of_fallback (h : s.fallback = true) : Leftover s := by
  intro hfallback
  rw [h] at hfallback
  cases hfallback

theorem of_loops (h : s.core.Loops) : Leftover s := fun _ _ hloops => absurd h hloops

theorem of_deadline (h : s.deadline = none) : Leftover s := fun _ _ _ hne => absurd h hne

theorem of_kept (h : Leftover s)
    (hkept : s'.fallback = false → s.fallback = false ∧ s'.registry = s.registry ∧
      s'.releasing = s.releasing)
    (hdeadline : s'.deadline = s.deadline) (hloops : s.core.Loops → s'.core.Loops)
    (hfailed : ∀ r, s.disposal r = .failed → s'.disposal r = .failed)
    (hreleases : ∀ r, .disposing r ∈ s.releases →
      s'.disposal r = .failed ∨ .disposing r ∈ s'.releases) : Leftover s' := by
  intro hfallback' hregistry' hloops' hne
  obtain ⟨hfallback, hregistry, hreleasing⟩ := hkept hfallback'
  rw [hregistry] at hregistry'
  rw [hdeadline] at hne
  obtain ⟨r, hr, hended⟩ := h hfallback hregistry' (fun hl => hloops' (hloops hl)) hne
  refine ⟨r, hreleasing.trans hr, ?_⟩
  rcases hended with hended | hmem
  · exact .inl (hfailed r hended)
  · exact hreleases r hmem

theorem of_still (h : Leftover s) (hstill : Still s s') : Leftover s' := by
  by_cases hfallback : s'.fallback = true
  · exact .of_fallback hfallback
  · obtain ⟨-, -, -, hregistries⟩ := hstill.kept (Bool.eq_false_iff.mpr hfallback)
    refine h.of_kept ?_ hstill.deadline ?_ ?_ ?_
    · intro hgoes
      obtain ⟨hfallback, hregistry, hreleasing, -⟩ := hstill.kept hgoes
      exact ⟨hfallback, hregistry, hreleasing⟩
    · unfold Core.Loops
      rw [hstill.phase]
      exact id
    · intro r
      unfold disposal
      rw [hregistries]
      exact id
    · intro r hmem
      rw [hstill.releases]
      exact .inr hmem

end Leftover

section Leftover

variable {k : ℕ} {run : Run}

theorem not_loops_of_phase {phase : RunPhase} (hphase : s.core.phase = some phase)
    (hattempting : ∀ attempt due, phase ≠ .attempting attempt due)
    (hretrying : ∀ due, phase ≠ .retrying due) : ¬ s.core.Loops := by
  rintro (⟨attempt, due, h⟩ | ⟨due, h⟩)
  · rw [hphase] at h
    exact hattempting attempt due (Option.some.inj h)
  · rw [hphase] at h
    exact hretrying due (Option.some.inj h)

theorem loops_attempting (hacquiring : s.acquiring = some k) (hrun : s.runs[k]? = some run)
    {attempt : Attempt} {due : ℤ} : (s.setRun k (.attempting attempt due)).core.Loops := by
  rw [core_setRun hacquiring hrun]
  exact .inl ⟨attempt, due, rfl⟩

theorem loops_retrying (hacquiring : s.acquiring = some k) (hrun : s.runs[k]? = some run)
    {due : ℤ} : (s.setRun k (.retrying due)).core.Loops := by
  rw [core_setRun hacquiring hrun]
  exact .inr ⟨due, rfl⟩

/-- A turn of the loop leaves no deadline behind: it is the acquisition's own, or tracking stops. -/
theorem loop_leftover (hacquiring : s.acquiring = some k) (hrun : s.runs[k]? = some run)
    (hregistry : s.registry = none) : Leftover (s.loop k) := by
  rcases loop_cases (s := s) k with ⟨hover, heq⟩ | ⟨-, -, -, heq⟩ | ⟨-, -, heq⟩
  · rcases hover with hfallback | hsome
    · rw [heq]
      exact .of_fallback hfallback
    · rw [hregistry] at hsome
      cases hsome
  · rw [heq]
    exact .of_fallback stopTracking_fallback
  · rw [heq]
    have hhas : s.startAttempt.1.acquiring = some k ∧ s.startAttempt.1.runs[k]? = some run := by
      rcases startAttempt_cases (s := s) with h | h
      · rw [h]
        exact ⟨hacquiring, hrun⟩
      · rw [h]
        exact ⟨hacquiring, hrun⟩
    exact .of_loops (loops_attempting hhas.1 hhas.2)

theorem setRun_leftover (h : Leftover s) (hloops : ¬ s.core.Loops) (phase : RunPhase) :
    Leftover (s.setRun k phase) :=
  h.of_kept (fun hgoes => ⟨hgoes, rfl, rfl⟩) rfl (fun hl => absurd hl hloops) (fun _ => id)
    fun _ => .inr

theorem attempted_leftover {attempt : Attempt} (hacquiring : s.acquiring = some k)
    (hrun : s.runs[k]? = some run) (hattempted : s.attempted lib k attempt = some s') :
    Leftover s' := by
  cases attempt with
  | adapter => cases hattempted
  | acquiring r => cases hattempted
  | failed error =>
      cases error with
      | conflict =>
          cases hattempted
          exact .of_fallback stopTracking_fallback
      | unsupported =>
          cases hattempted
          exact .of_fallback stopTracking_fallback
      | poolNotReady =>
          cases hattempted
          exact .of_deadline rfl
      | other =>
          cases hattempted
          exact .of_loops (loops_retrying hacquiring hrun)
  | got r =>
      dsimp only [State.attempted] at hattempted
      split at hattempted
      · cases hattempted
        refine .of_fallback ?_
        exact stopTracking_fallback (s := s)
      · split at hattempted
        · cases hattempted
          exact .of_fallback stopTracking_fallback
        · cases hattempted
          intro hfallback hregistry
          have hread : Still { s with registry := some r } _ := adoptRead_still lib
          have hheld := (hread.kept hfallback).2.1
          cases hheld.symm.trans hregistry

theorem released_leftover (h : Leftover s) {j : ℕ} {waits : Option ℕ}
    (hj : s.releases[j]? = some (.acquiring waits)) : Leftover (s.released j) := by
  obtain ⟨hlt, -⟩ := List.getElem?_eq_some_iff.mp hj
  unfold released
  split
  · refine h.of_kept (fun hgoes => ⟨hgoes, rfl, rfl⟩) rfl id (fun _ => id) ?_
    intro r hmem
    obtain ⟨i, hi⟩ := List.getElem?_of_mem hmem
    have hne : j ≠ i := by
      rintro rfl
      rw [hj] at hi
      cases hi
    refine .inr (List.mem_of_getElem? (i := i) ?_)
    rw [setRelease, List.getElem?_set_ne hne, hi]
  · have hreleases : s.current.releases = s.releases := current_still.releases
    generalize s.current = t at hreleases
    dsimp only
    split
    · exact .of_deadline rfl
    · rename_i r hregistry
      intro _ _ _ _
      refine ⟨r, rfl, .inr ?_⟩
      refine List.mem_of_getElem? (i := j) ?_
      rw [setRelease]
      exact List.getElem?_set_self (by rw [dispose, hreleases]; exact hlt)

theorem readEnded_leftover (h : Leftover s) (previous : Option N) (view : Option (View B N)) :
    Leftover (s.readEnded lib previous view) := by
  have hrecord : ∀ (t : State B N L R), Leftover t →
      Leftover { t.recordFailure with readLog := (t.now, .failed) :: t.readLog } := by
    intro t ht
    rcases recordFailure_cases (s := t) with heq | ⟨-, heq | ⟨-, heq⟩⟩
    · rw [heq]
      exact ht
    · rw [heq]
      exact ht
    · rw [heq]
      exact .of_fallback (stopTracking_fallback (s := t.failing))
  unfold readEnded
  cases view with
  | none => exact hrecord s h
  | some view =>
      dsimp only
      split
      · exact h
      · split
        · exact hrecord _ h
        · exact h

end Leftover

/-! ## Every lease -/

/-- What is known of the times of every lease. -/
structure Tracked (s : State B N L R) : Prop extends Sound s where
  failures : Failures s
  dues : Dues s
  leftover : Leftover s

namespace Tracked

variable {k : ℕ} {run : Run}

/-- Before the loop there is no deadline. -/
theorem deadline_none (h : Tracked s) {promise : Option Releasing} (hrun : s.runs[k]? = some run)
    (hphase : run.phase = .releasing promise) (hfallback : s.fallback = false)
    (hreleased : ∀ p ∈ promise, ReleasePhase.disposing p.registry ∉ s.releases)
    (hrejects : ¬ s.rejects promise = true) : s.deadline = none := by
  obtain ⟨-, hcore⟩ := h.wf.acquires hrun hphase nofun
  have hpromise := h.inv.waits hfallback promise hcore
  by_contra hne
  have hregistry := h.inv.idle ⟨_, hcore, nofun⟩
  obtain ⟨r, hr, hended⟩ := h.leftover hfallback hregistry
    (not_loops_of_phase hcore nofun nofun) hne
  have hmem : (⟨r, false⟩ : Releasing) ∈ promise := by
    rw [hpromise]
    exact hr
  rcases hended with hfailed | hdisposing
  · refine core_rejects hrejects ⟨⟨r, false⟩, hmem, rfl, ?_⟩
    rw [core_disposal, hfailed]
  · exact hreleased _ hmem hdisposing

theorem waited_dues (h : Tracked s) {promise : Option Releasing} (hrun : s.runs[k]? = some run)
    (hphase : run.phase = .releasing promise)
    (hreleased : ∀ p ∈ promise, ReleasePhase.disposing p.registry ∉ s.releases)
    (hrejects : ¬ s.rejects promise = true) :
    Dues ((s.begun k).loop k) := by
  obtain ⟨hacquiring, -⟩ := h.wf.acquires hrun hphase nofun
  have hdues : Dues (s.begun k) := by
    intro j run' hj
    by_cases heq : j = k
    · subst heq
      rw [runs_begun hrun] at hj
      cases hj
      exact timely_of_phase (by rw [hphase]; exact nofun) (by rw [hphase]; exact nofun)
    · rw [runs_begun_ne heq] at hj
      have hdone : ∃ rejected, run'.phase = .done rejected := by
        by_contra hopen
        rw [not_exists] at hopen
        rw [h.wf.alone j run' hj hopen] at hacquiring
        exact heq (Option.some.inj hacquiring)
      obtain ⟨rejected, hdone⟩ := hdone
      exact timely_of_phase (by rw [hdone]; exact nofun) (by rw [hdone]; exact nofun)
  by_cases hfallback : s.fallback = true
  · rw [loop, if_pos (.inl hfallback)]
    exact hdues.over k false
  · have hnone := h.deadline_none hrun hphase (Bool.eq_false_iff.mpr hfallback) hreleased hrejects
    refine hdues.loop (runs_begun hrun) le_rfl ?_
    intro deadline hsome
    rw [begun, hnone] at hsome
    exact (Option.some.inj hsome).symm

theorem act_dues (h : Tracked s) (hact : Act lib s s') : Dues s' := by
  cases hact with
  | still hstill => exact h.dues.of_eq hstill.runs hstill.now (.inl hstill.deadline)
  | call hstill => exact h.dues.of_eq hstill.runs hstill.now (.inl hstill.deadline)
  | start hfallback hregistry hacquiring requests =>
      intro k run hrun
      rcases List.mem_append.mp (List.mem_of_getElem? hrun) with hmem | hmem
      · obtain ⟨j, hj⟩ := List.getElem?_of_mem hmem
        exact (h.dues j run hj).of_eq rfl (.inl rfl)
      · rw [List.mem_singleton] at hmem
        rw [hmem]
        exact timely_of_phase nofun nofun
  | rejected => exact h.dues.over _ true
  | waited hrun hphase _ hreleased hrejects => exact h.waited_dues hrun hphase hreleased hrejects
  | retried hrun hphase =>
      have htimed := (h.dues _ _ hrun).retrying _ hphase
      exact h.dues.loop hrun htimed.since fun deadline hsome => (htimed.deadline deadline hsome).1
  | adapterMade hrun hphase error =>
      cases error with
      | some error => exact h.dues.attempt hrun hphase rfl rfl rfl
      | none => exact h.dues.attempt hrun hphase rfl rfl rfl
  | acquired hrun hphase answer =>
      cases answer with
      | error error => exact h.dues.attempt hrun hphase rfl rfl rfl
      | ok snapshot => exact h.dues.attempt hrun hphase rfl rfl rfl
  | lateMade hj error =>
      cases error with
      | some error => exact h.dues.of_eq rfl rfl (.inl rfl)
      | none => exact h.dues.of_eq rfl rfl (.inl rfl)
  | attempted hrun hphase hattempted => exact h.dues.attempted hrun hphase hattempted
  | timedOut =>
      refine Dues.over ?_ _ false
      obtain ⟨hruns, hdeadline, -⟩ := disposeLate_same (s := s.stopTracking) _
      exact h.dues.stopTracking.of_eq hruns (disposeLate_frame _).now (.inl hdeadline)
  | cleared hrun =>
      have hdues : Dues { s with acquiring := none } := h.dues.of_eq rfl rfl (.inl rfl)
      exact hdues.setRun fun _ _ => timely_of_phase nofun nofun
  | released =>
      obtain ⟨hruns, hdeadline⟩ := released_times (s := s) _
      exact h.dues.of_eq hruns (released_frame _).now hdeadline
  | releaseEnded => exact h.dues.of_eq rfl rfl (.inr rfl)
  | failureTimer => exact h.dues.stopTracking
  | readEnded reads previous view =>
      obtain ⟨hdeadline, hnow⟩ :=
        readEnded_times lib (s := { s with reads := reads }) previous view
      exact h.dues.of_eq (readEnded_beside previous view).runs hnow (.inl hdeadline)
  | @advance now hnow hdue =>
      -- the clock stops at every timer, those of the runs among them
      intro k run hrun
      have hahead : ∀ due, (∃ attempt, run.phase = .attempting attempt due) ∨
          run.phase = .retrying due → now ≤ due := by
        intro due hphase
        refine hdue due (List.mem_append_right _ ?_)
        refine List.mem_filterMap.mpr ⟨run, List.mem_of_getElem? hrun, ?_⟩
        rcases hphase with ⟨attempt, hphase⟩ | hphase
        · rw [hphase]
        · rw [hphase]
      constructor
      · intro attempt due hphase
        obtain ⟨htimed, hequal⟩ := (h.dues k run hrun).attempting attempt due hphase
        exact ⟨⟨htimed.since.trans hnow, hahead due (.inl ⟨attempt, hphase⟩), htimed.deadline⟩,
          hequal⟩
      · intro due hphase
        have htimed := (h.dues k run hrun).retrying due hphase
        exact ⟨htimed.since.trans hnow, hahead due (.inr hphase), htimed.deadline⟩
  | _ => exact h.dues.of_eq rfl rfl (.inl rfl)

theorem act_leftover (h : Tracked s) (hact : Act lib s s') : Leftover s' := by
  -- an attempt is late only once the lease has stopped tracking
  have hlate : ∀ {j : ℕ} {attempt : Attempt}, s.late[j]? = some attempt → s.fallback = true :=
    fun hj => (h.inv.late (List.ne_nil_of_mem (List.mem_of_getElem? hj))).1
  cases hact with
  | still hstill => exact h.leftover.of_still hstill
  | call hstill =>
      have hleft := h.leftover.of_still hstill
      exact hleft
  | leave owners disposed =>
      exact h.leftover.of_kept (fun hgoes => ⟨hgoes, rfl, rfl⟩) rfl id (fun _ => id)
        fun _ hmem => .inr (List.mem_append_left _ hmem)
  | start hfallback hregistry hacquiring requests =>
      refine h.leftover.of_kept (fun hgoes => ⟨hgoes, rfl, rfl⟩) rfl ?_ (fun _ => id)
        fun _ => .inr
      -- no acquisition is under way before it
      rintro (⟨attempt, due, hl⟩ | ⟨due, hl⟩)
      · rw [core, hacquiring] at hl
        cases hl
      · rw [core, hacquiring] at hl
        cases hl
  | rejected hrun hphase =>
      obtain ⟨-, hcore⟩ := h.wf.acquires hrun hphase (by simp)
      exact setRun_leftover h.leftover (not_loops_of_phase hcore (by simp) (by simp)) _
  | @waited k run promise hrun hphase =>
      obtain ⟨hacquiring, hcore⟩ := h.wf.acquires hrun hphase (by simp)
      exact loop_leftover hacquiring (runs_begun hrun) (h.inv.idle ⟨_, hcore, by simp⟩)
  | retried hrun hphase =>
      obtain ⟨hacquiring, hcore⟩ := h.wf.acquires hrun hphase (by simp)
      exact loop_leftover hacquiring hrun (h.inv.idle ⟨_, hcore, by simp⟩)
  | adapterMade hrun hphase error =>
      obtain ⟨hacquiring, -⟩ := h.wf.acquires hrun hphase (by simp)
      cases error with
      | some error => exact .of_loops (loops_attempting hacquiring hrun)
      | none => exact .of_loops (loops_attempting hacquiring hrun)
  | acquired hrun hphase answer =>
      obtain ⟨hacquiring, -⟩ := h.wf.acquires hrun hphase (by simp)
      cases answer with
      | error error => exact .of_loops (loops_attempting hacquiring hrun)
      | ok snapshot => exact .of_loops (loops_attempting hacquiring hrun)
  | lateMade hj error =>
      cases error with
      | some error => exact .of_fallback (hlate hj)
      | none => exact .of_fallback (hlate hj)
  | lateFailed hj => exact .of_fallback (hlate hj)
  | lateGot hj => exact .of_fallback (hlate hj)
  | attempted hrun hphase hattempted =>
      obtain ⟨hacquiring, -⟩ := h.wf.acquires hrun hphase (by simp)
      exact attempted_leftover hacquiring hrun hattempted
  | timedOut =>
      obtain ⟨-, -, hsame⟩ := disposeLate_same (s := s.stopTracking) _
      refine .of_fallback ?_
      exact hsame.trans stopTracking_fallback
  | cleared hrun hphase =>
      obtain ⟨-, hcore⟩ := h.wf.acquires hrun hphase (by simp)
      exact h.leftover.of_kept (fun hgoes => ⟨hgoes, rfl, rfl⟩) rfl
        (fun hl => absurd hl (not_loops_of_phase hcore (by simp) (by simp))) (fun _ => id) fun _ => .inr
  | released hj => exact released_leftover h.leftover hj
  | @releaseRejected j phase hj hphase =>
      refine h.leftover.of_kept (fun hgoes => ⟨hgoes, rfl, rfl⟩) rfl id (fun _ => id) ?_
      intro r hmem
      obtain ⟨i, hi⟩ := List.getElem?_of_mem hmem
      by_cases heq : j = i
      · rw [heq, hi] at hj
        cases hj
        exact .inl (hphase r rfl)
      · refine .inr (List.mem_of_getElem? (i := i) ?_)
        rw [setRelease, List.getElem?_set_ne heq, hi]
  | releaseEnded => exact .of_deadline rfl
  | @disposalSettled q hpending ok =>
      -- a disposal settles once, so one that has failed is another
      have hdisposal : ∀ r, s.disposal r = .failed → r ≠ q := by
        rintro r hfailed rfl
        rw [hpending] at hfailed
        cases hfailed
      refine h.leftover.of_kept (fun hgoes => ⟨hgoes, rfl, rfl⟩) rfl id ?_ fun _ => .inr
      intro r hfailed
      rw [disposal, List.getElem?_modify_ne _ s.registries (Ne.symm (hdisposal r hfailed))]
      exact hfailed
  | @changed f hf q =>
      refine h.leftover.of_kept (fun hgoes => ⟨hgoes, rfl, rfl⟩) rfl id ?_ fun _ => .inr
      intro r hfailed
      rw [← core_disposal, core_modify hf, core_disposal, hfailed]
  | failureTimer => exact .of_fallback stopTracking_fallback
  | readEnded reads previous view =>
      have hleft : Leftover { s with reads := reads } := h.leftover
      exact readEnded_leftover hleft previous view
  | advance => exact h.leftover

theorem act (h : Tracked s) (hact : Act lib s s') : Tracked s' where
  toSound := h.toSound.act hact
  failures := act_failures hact h.failures
  dues := h.act_dues hact
  leftover := h.act_leftover hact

end Tracked

theorem Reached.tracked (h : Reached lib s) : Tracked s := by
  refine h.induct ?_ fun _ _ _ ht hstep => ht.act (step_act hstep)
  intro now recovery
  refine ⟨⟨⟨nofun, ?_⟩, Core.inv_init, Core.spent_init⟩, ⟨nofun, nofun⟩, ?_, .of_deadline rfl⟩
  · intro k run hrun
    cases hrun
  · intro k run hrun
    cases hrun

/-- An acquisition that has begun has until five seconds after it had waited for the disposal before
it, however it is tried again, unless a release takes its deadline from it. -/
theorem acquisition_bounded (h : Reached lib s) {k : ℕ} {run : Run}
    (hrun : s.runs[k]? = some run)
    (hloops : (∃ attempt due, run.phase = .attempting attempt due) ∨
      ∃ due, run.phase = .retrying due) {deadline : ℤ} (hdeadline : s.deadline = some deadline) :
    deadline = run.since + acquireMs ∧ run.since ≤ s.now ∧ s.now ≤ deadline := by
  obtain ⟨hattempting, hretrying⟩ := h.tracked.dues k run hrun
  have htimed : ∃ due, Timed s run due := by
    rcases hloops with ⟨attempt, due, hphase⟩ | ⟨due, hphase⟩
    · exact ⟨due, (hattempting attempt due hphase).1⟩
    · exact ⟨due, hretrying due hphase⟩
  obtain ⟨due, hsince, hahead, htime⟩ := htimed
  obtain ⟨hequal, hdue⟩ := htime deadline hdeadline
  exact ⟨hequal, hsince, hahead.trans hdue⟩

theorem acquisition_bounded_retrying : ∃ s : State Unit Unit Unit Unit, ∃ run : Run,
    (initial 7 ()).run plain [.acquire, .forRequest 0 true, .waited 0, .advance 10,
      .adapterMade (.run 0) (some .other), .attempted 0 true, .advance 1010, .retried 0] = some s ∧
      s.runs[0]? = some run ∧ 5007 = run.since + acquireMs ∧ run.since ≤ s.now ∧ s.now ≤ 5007 :=
  ⟨_, _, rfl, rfl, acquisition_bounded (k := 0) (⟨7, (), [.acquire, .forRequest 0 true, .waited 0,
    .advance 10, .adapterMade (.run 0) (some .other), .attempted 0 true, .advance 1010, .retried 0],
    rfl⟩ : Reached plain _) rfl (.inl ⟨_, _, rfl⟩) rfl⟩

/-- Why a lease stops tracking. -/
inductive Stops (s : State B N L R) : Prop
  /-- The acquisition has taken its five seconds, or a release has taken its deadline. -/
  | time {k : ℕ} {run : Run} (hrun : s.runs[k]? = some run)
      (hloops : (∃ attempt due, run.phase = .attempting attempt due) ∨
        ∃ due, run.phase = .retrying due)
      (htime : s.deadline = none ∨ run.since + acquireMs ≤ s.now)
  | envelope {k : ℕ} {run : Run} {error : AcquireError} {due : ℤ} (hrun : s.runs[k]? = some run)
      (hphase : run.phase = .attempting (.failed error) due)
      (herror : error = .conflict ∨ error = .unsupported)
  | abandoned (h : s.Abandoned)
  | failures {t : ℤ} (hfailed : s.FailedSince t) (htime : t + failureRunMs ≤ s.now)

theorem attempted_stops {k : ℕ} {run : Run} {attempt : Attempt} {due : ℤ}
    (hrun : s.runs[k]? = some run) (hphase : run.phase = .attempting attempt due)
    (hattempted : s.attempted lib k attempt = some s') (hgoes : s.fallback = false)
    (hstops : s'.fallback = true) : Stops s := by
  have hsame : s'.fallback = s.fallback → Stops s := by
    intro heq
    rw [heq, hgoes] at hstops
    cases hstops
  cases attempt with
  | adapter => cases hattempted
  | acquiring r => cases hattempted
  | failed error =>
      cases error with
      | conflict => exact .envelope hrun hphase (.inl rfl)
      | unsupported => exact .envelope hrun hphase (.inr rfl)
      | poolNotReady =>
          cases hattempted
          exact hsame rfl
      | other =>
          cases hattempted
          exact hsame rfl
  | got r =>
      dsimp only [State.attempted] at hattempted
      split at hattempted
      · rename_i hfallback
        rw [hgoes] at hfallback
        cases hfallback
      · split at hattempted
        · rename_i habandoned
          obtain ⟨registry, hregistry, habandoned⟩ := (Option.any_eq_true _ _).mp habandoned
          exact .abandoned ⟨r, registry, hregistry, habandoned⟩
        · cases hattempted
          have hread : Still { s with registry := some r } _ := adoptRead_still lib
          rcases hread.stops hstops with hfallback | habandoned
          · exact hsame (hstops.trans hfallback.symm)
          · exact .abandoned habandoned

theorem loop_stops {k : ℕ} (hgoes : s.fallback = false) (hstops : (s.loop k).fallback = true) :
    ∃ deadline, s.deadline = some deadline ∧ deadline ≤ s.now := by
  rcases loop_cases (s := s) k with ⟨-, heq⟩ | ⟨deadline, hsome, hle, -⟩ | ⟨-, -, heq⟩
  · rw [heq] at hstops
    cases hgoes.symm.trans hstops
  · exact ⟨deadline, hsome, hle⟩
  · rw [heq] at hstops
    have hsame := (startAttempt_same (s := s)).2.2
    cases (hsame.trans hgoes).symm.trans hstops

theorem Failures.stops (h : Failures s) {t : ℤ} (hfailureAt : s.failureAt = some t)
    (htime : t + failureRunMs ≤ s.now) : Stops s := .failures (h.failed t hfailureAt) htime

theorem readEnded_stops {previous : Option N} {view : Option (View B N)}
    (hgoes : s.fallback = false) (hstops : (s.readEnded lib previous view).fallback = true) :
    ∃ t, s.failureAt = some t ∧ t + failureRunMs ≤ s.now := by
  have hrecord : ∀ (t : State B N L R), t.fallback = false → t.recordFailure.fallback = true →
      ∃ failureAt, t.failureAt = some failureAt ∧ failureAt + failureRunMs ≤ t.now := by
    intro t hgoes hstops
    rcases recordFailure_cases (s := t) with heq | ⟨-, heq | ⟨htime, -⟩⟩
    · rw [heq, hgoes] at hstops
      cases hstops
    · rw [heq] at hstops
      cases hgoes.symm.trans hstops
    · cases hfailureAt : t.failureAt with
      | some failureAt =>
          rw [hfailureAt] at htime
          exact ⟨failureAt, rfl, htime⟩
      | none =>
          -- the run of failures begins with this one
          rw [hfailureAt, Option.getD_none, failureRunMs] at htime
          omega
  unfold readEnded at hstops
  cases view with
  | none => exact hrecord s hgoes hstops
  | some view =>
      dsimp only at hstops
      split at hstops
      · cases hgoes.symm.trans hstops
      · split at hstops
        · exact hrecord { s with
            recovery := (lib.capture s.recovery view s.now).1
            latestRead := some (lib.capture s.recovery view s.now).2 } hgoes hstops
        · cases hgoes.symm.trans hstops

/-- A lease stops tracking only when an acquisition has had its five seconds, when the envelope
cannot be used, when a registry was abandoned, or when reads have failed for a minute and none was
adopted meanwhile. -/
theorem tracking_stops (h : Reached lib s) {e : Event B N} (hstep : s.step lib e = some s')
    (hgoes : s.fallback = false) (hstops : s'.fallback = true) : Stops s := by
  have htracked := h.tracked
  have hsame : s'.fallback = s.fallback → Stops s := by
    intro heq
    rw [heq, hgoes] at hstops
    cases hstops
  have hstill : ∀ {t : State B N L R}, Still s t → t.fallback = true → Stops s := by
    intro t hstill hfallback
    rcases hstill.stops hfallback with heq | habandoned
    · exact hsame (hstops.trans heq.symm)
    · exact .abandoned habandoned
  have hact := step_act hstep
  cases hact with
  | still h => exact hstill h hstops
  | call h => exact hstill h hstops
  | @waited k run promise hrun hphase hsettled hreleased hrejects =>
      have hnone := htracked.deadline_none hrun hphase hgoes hreleased hrejects
      obtain ⟨deadline, hsome, hle⟩ := loop_stops (s := s.begun k) hgoes hstops
      rw [begun, hnone] at hsome
      cases hsome
      have hle : s.now + acquireMs ≤ s.now := hle
      rw [acquireMs] at hle
      omega
  | retried hrun hphase =>
      have htimed := (htracked.dues _ _ hrun).retrying _ hphase
      obtain ⟨deadline, hsome, hle⟩ := loop_stops hgoes hstops
      obtain ⟨hequal, -⟩ := htimed.deadline deadline hsome
      exact .time hrun (.inr ⟨_, hphase⟩) (.inr (by omega))
  | adapterMade hrun hphase error => cases error <;> exact hsame rfl
  | acquired hrun hphase answer => cases answer <;> exact hsame rfl
  | lateMade hj error => cases error <;> exact hsame rfl
  | attempted hrun hphase hattempted => exact attempted_stops hrun hphase hattempted hgoes hstops
  | @timedOut k run attempt due hrun hphase hdue =>
      refine .time hrun (.inl ⟨_, _, hphase⟩) ?_
      rcases hdue with hfallback | hdue
      · rw [hgoes] at hfallback
        cases hfallback
      · obtain ⟨htimed, hequal⟩ := (htracked.dues k run hrun).attempting _ _ hphase
        cases hdeadline : s.deadline with
        | none => exact .inl rfl
        | some deadline =>
            obtain ⟨hsum, -⟩ := htimed.deadline deadline hdeadline
            have hsame := hequal deadline hdeadline
            exact .inr (by omega)
  | @released j =>
      unfold released at hstops
      split at hstops
      · cases hgoes.symm.trans hstops
      · refine hstill (current_still (s := s)) ?_
        dsimp only at hstops
        split at hstops
        · exact hstops
        · exact hstops
  | @failureTimer due htimer hdue =>
      obtain ⟨t, hfailureAt, htime⟩ := htracked.failures.timer due htimer
      exact htracked.failures.stops hfailureAt (by omega)
  | readEnded reads previous view =>
      obtain ⟨t, hfailureAt, htime⟩ := readEnded_stops (s := { s with reads := reads }) hgoes hstops
      exact htracked.failures.stops hfailureAt htime
  | _ => exact hsame rfl

theorem tracking_stops_failing : ∃ s s' : State Unit Unit Unit Unit,
    (initial 0 ()).run plain
      (acquires ++ [.read none, .readEnded 0 none, .advance 60000]) = some s ∧
      s.step plain .failureTimer = some s' ∧ Stops s :=
  ⟨_, _, rfl, rfl, tracking_stops (e := .failureTimer)
    (⟨0, (), acquires ++ [.read none, .readEnded 0 none, .advance 60000], rfl⟩ : Reached plain _)
    rfl rfl rfl⟩

end State

end LimitsLease
