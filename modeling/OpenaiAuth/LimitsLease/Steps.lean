import OpenaiAuth.LimitsLease.Core

/-! # What a step of the lease does

`Still` says what the functions that adopt a read leave alone, and `Act` what a step is, with what
it needs.
-/

namespace LimitsLease

open Relation

variable {B N L R : Type}

def Registry.slot (registry : Registry N) : Slot where
  obtained := registry.snapshot.isSome
  disposals := registry.disposals
  disposal := registry.disposal

namespace State

variable {lib : Library B N L R} {s s' s'' : State B N L R}

def core (s : State B N L R) : Core where
  registry := s.registry
  fallback := s.fallback
  releasing := s.releasing
  slots := s.registries.map Registry.slot
  late := s.late
  phase := s.acquiring.bind fun k => s.runs[k]?.map (·.phase)

/-- The acquisition that is under way is the one that has not ended. -/
structure Wf (s : State B N L R) : Prop where
  under : ∀ k, s.acquiring = some k →
    ∃ run, s.runs[k]? = some run ∧ ∀ rejected, run.phase ≠ .done rejected
  alone : ∀ k run, s.runs[k]? = some run → (∀ rejected, run.phase ≠ .done rejected) →
    s.acquiring = some k

/-! ## What leaves the acquisition alone -/

structure Beside (s s' : State B N L R) : Prop where
  moves : ReflTransGen Core.Moves s.core s'.core
  acquiring : s'.acquiring = s.acquiring
  runs : s'.runs = s.runs
  length : s'.registries.length = s.registries.length

namespace Beside

theorem refl : Beside s s := ⟨.refl, rfl, rfl, rfl⟩

theorem trans (h : Beside s s') (h' : Beside s' s'') : Beside s s'' where
  moves := h.moves.trans h'.moves
  acquiring := h'.acquiring.trans h.acquiring
  runs := h'.runs.trans h.runs
  length := h'.length.trans h.length

theorem of_core (hcore : s'.core = s.core) (hacquiring : s'.acquiring = s.acquiring)
    (hruns : s'.runs = s.runs) (hlength : s'.registries.length = s.registries.length) :
    Beside s s' where
  moves := by
    rw [hcore]
  acquiring := hacquiring
  runs := hruns
  length := hlength

theorem wf (h : Beside s s') (hwf : Wf s) : Wf s' := by
  constructor
  · rw [h.acquiring, h.runs]
    exact hwf.under
  · rw [h.acquiring, h.runs]
    exact hwf.alone

theorem phase (h : Beside s s') : s'.core.phase = s.core.phase := by
  rw [core, core, h.acquiring, h.runs]

end Beside

theorem map_modify_slot {registries : List (Registry N)} {f : Registry N → Registry N}
    {g : Slot → Slot} (h : ∀ registry, (f registry).slot = g registry.slot) (r : ℕ) :
    (registries.modify r f).map Registry.slot = (registries.map Registry.slot).modify r g := by
  apply List.ext_getElem?
  intro q
  rw [List.getElem?_map, List.getElem?_modify, List.getElem?_modify, List.getElem?_map]
  cases registries[q]? with
  | none =>
      split <;> rfl
  | some registry =>
      split
      · exact congrArg some (h registry)
      · rfl

theorem core_dispose (r : ℕ) : (s.dispose r).core = s.core.dispose r := by
  unfold core dispose Core.dispose
  congr 1
  exact map_modify_slot (fun _ => rfl) r

theorem core_disposal (r : ℕ) : s.core.disposal r = s.disposal r := by
  unfold Core.disposal disposal core
  rw [List.getElem?_map]
  cases s.registries[r]? with
  | none => rfl
  | some registry => rfl

theorem stopTracking_beside : Beside s s.stopTracking := by
  unfold stopTracking
  split
  · exact .refl
  · rename_i hfallback
    have hstop := Core.Moves.stop (c := s.core) (Bool.eq_false_iff.mpr hfallback)
    cases hregistry : s.registry with
    | none =>
        refine ⟨.single ?_, rfl, rfl, rfl⟩
        convert hstop using 1
        simp only [Core.stopped, core, hregistry]
    | some r =>
        refine ⟨.single ?_, rfl, rfl, by simp [dispose]⟩
        convert hstop using 1
        simp only [Core.stopped, core, hregistry, Core.dispose]
        congr 1
        exact map_modify_slot (fun _ => rfl) r

theorem recordFailure_beside : Beside s s.recordFailure := by
  unfold recordFailure
  split
  · exact .refl
  · dsimp only
    split
    · refine .trans ?_ stopTracking_beside
      exact .of_core rfl rfl rfl rfl
    · exact .of_core rfl rfl rfl rfl

theorem readEnded_beside (previous : Option N) (view : Option (View B N)) :
    Beside s (s.readEnded lib previous view) := by
  unfold readEnded
  cases view with
  | none => exact recordFailure_beside.trans (.of_core rfl rfl rfl rfl)
  | some view =>
      dsimp only
      split
      · exact .of_core rfl rfl rfl rfl
      · split
        · refine .trans ?_ (recordFailure_beside.trans (.of_core rfl rfl rfl rfl))
          exact .of_core rfl rfl rfl rfl
        · exact .of_core rfl rfl rfl rfl

/-! ## What leaves the times and the reads alone too -/

/-- A registry that the lease knows was abandoned. -/
def Abandoned (s : State B N L R) : Prop :=
  ∃ (r : ℕ) (registry : Registry N), s.registries[r]? = some registry ∧ registry.abandoned = true

structure Still (s s' : State B N L R) : Prop extends Beside s s' where
  now : s'.now = s.now
  deadline : s'.deadline = s.deadline
  releases : s'.releases = s.releases
  failureAt : s'.failureAt = s.failureAt
  readLog : s'.readLog = s.readLog
  asks : s'.asks = s.asks
  timer : s'.failureTimer = s.failureTimer ∨ s'.failureTimer = none
  kept : s'.fallback = false → s.fallback = false ∧ s'.registry = s.registry ∧
    s'.releasing = s.releasing ∧ s'.registries = s.registries
  abandoned : s'.Abandoned → s.Abandoned
  stops : s'.fallback = true → s.fallback = true ∨ s.Abandoned

/-- What a state shows of the registries, the times and the reads. -/
def shown (s : State B N L R) :=
  ((s.core, s.acquiring, s.runs, s.registries), s.now, s.deadline, s.releases, s.failureAt,
    s.readLog, s.failureTimer, s.asks)

namespace Still

theorem of_shown (h : s'.shown = s.shown) : Still s s' := by
  obtain ⟨hheld, htimes⟩ := Prod.mk.inj h
  obtain ⟨hcore, hheld⟩ := Prod.mk.inj hheld
  obtain ⟨hacquiring, hheld⟩ := Prod.mk.inj hheld
  obtain ⟨hruns, hregistries⟩ := Prod.mk.inj hheld
  obtain ⟨hnow, htimes⟩ := Prod.mk.inj htimes
  obtain ⟨hdeadline, htimes⟩ := Prod.mk.inj htimes
  obtain ⟨hreleases, htimes⟩ := Prod.mk.inj htimes
  obtain ⟨hfailureAt, htimes⟩ := Prod.mk.inj htimes
  obtain ⟨hreadLog, htimes⟩ := Prod.mk.inj htimes
  obtain ⟨htimer, hasks⟩ := Prod.mk.inj htimes
  have hfallback : s'.fallback = s.fallback := congrArg Core.fallback hcore
  have hregistry : s'.registry = s.registry := congrArg Core.registry hcore
  have hreleasing : s'.releasing = s.releasing := congrArg Core.releasing hcore
  refine ⟨.of_core hcore hacquiring hruns (by rw [hregistries]), hnow, hdeadline, hreleases,
    hfailureAt, hreadLog, hasks, .inl htimer, ?_, ?_, ?_⟩
  · intro hgoes
    exact ⟨by rw [← hfallback, hgoes], hregistry, hreleasing, hregistries⟩
  · unfold Abandoned
    rw [hregistries]
    exact id
  · intro hstops
    exact .inl (by rw [← hfallback, hstops])

theorem refl : Still s s := of_shown rfl

theorem trans (h : Still s s') (h' : Still s' s'') : Still s s'' where
  toBeside := h.toBeside.trans h'.toBeside
  now := h'.now.trans h.now
  deadline := h'.deadline.trans h.deadline
  releases := h'.releases.trans h.releases
  failureAt := h'.failureAt.trans h.failureAt
  readLog := h'.readLog.trans h.readLog
  asks := h'.asks.trans h.asks
  timer := by
    rcases h'.timer with htimer | htimer
    · rw [htimer]
      exact h.timer
    · exact .inr htimer
  kept := by
    intro hgoes
    obtain ⟨hgoes', hregistry', hreleasing', hregistries'⟩ := h'.kept hgoes
    obtain ⟨hgoes, hregistry, hreleasing, hregistries⟩ := h.kept hgoes'
    exact ⟨hgoes, hregistry'.trans hregistry, hreleasing'.trans hreleasing,
      hregistries'.trans hregistries⟩
  abandoned := fun habandoned => h.abandoned (h'.abandoned habandoned)
  stops := by
    intro hstops
    rcases h'.stops hstops with hstops | habandoned
    · exact h.stops hstops
    · exact .inr (h.abandoned habandoned)

end Still

theorem abandoned_dispose {r : ℕ} (h : (s.dispose r).Abandoned) : s.Abandoned := by
  obtain ⟨q, registry', hregistry', habandoned⟩ := h
  by_cases heq : q = r
  · subst heq
    rw [dispose, List.getElem?_modify_eq] at hregistry'
    obtain ⟨registry, hregistry, rfl⟩ := Option.map_eq_some_iff.mp hregistry'
    exact ⟨q, registry, hregistry, habandoned⟩
  · rw [dispose, List.getElem?_modify_ne _ s.registries (Ne.symm heq)] at hregistry'
    exact ⟨q, registry', hregistry', habandoned⟩

theorem stopTracking_abandoned (h : s.stopTracking.Abandoned) : s.Abandoned := by
  unfold stopTracking at h
  split at h
  · exact h
  · dsimp only at h
    split at h
    · exact h
    · exact abandoned_dispose h

theorem stopTracking_eq (h : ¬ s.fallback = true) :
    ∃ registries releasing, s.stopTracking = { s with
      fallback := true
      failureTimer := none
      registry := none
      adapter := false
      latestRead := none
      registries := registries
      releasing := releasing } := by
  rw [stopTracking, if_neg h]
  cases s.registry with
  | none => exact ⟨s.registries, s.releasing, rfl⟩
  | some r => exact ⟨_, _, rfl⟩

theorem stopTracking_still (h : s.Abandoned) : Still s s.stopTracking := by
  by_cases hfallback : s.fallback = true
  · rw [stopTracking, if_pos hfallback]
    exact .refl
  · have hbeside : Beside s s.stopTracking := stopTracking_beside
    have habandoned : s.stopTracking.Abandoned → s.Abandoned := stopTracking_abandoned
    obtain ⟨registries, releasing, heq⟩ := stopTracking_eq hfallback
    rw [heq] at hbeside habandoned ⊢
    exact ⟨hbeside, rfl, rfl, rfl, rfl, rfl, rfl, .inr rfl, nofun, habandoned, fun _ => .inr h⟩

theorem current_still : Still s s.current := by
  unfold current
  cases s.registry with
  | none => exact .refl
  | some r =>
      dsimp only
      split
      · rename_i habandoned
        obtain ⟨registry, hregistry, habandoned⟩ := (Option.any_eq_true _ _).mp habandoned
        exact stopTracking_still ⟨r, registry, hregistry, habandoned⟩
      · exact .refl

theorem adoptRead_still (lib : Library B N L R) : Still s (s.adoptRead lib) := by
  refine current_still.trans ?_
  unfold adoptRead
  dsimp only
  split
  · split
    · exact .of_shown rfl
    · exact .of_shown rfl
  · exact .refl

theorem dispatchAtBound_still (expected : B) :
    Still s (s.dispatchAtBound lib expected).1 := by
  refine (adoptRead_still lib).trans ?_
  unfold dispatchAtBound
  dsimp only
  split
  · exact .refl
  · exact .refl

theorem reloaded_still (request : ℕ) (call : Call B) (bindings : List B) :
    Still s (s.reloaded lib request call bindings).1 := by
  unfold reloaded
  cases call with
  | reloadForBindings => exact .refl
  | beforeDispatch expected accountId =>
      dsimp only
      split
      · split
        · split
          · exact current_still.trans (dispatchAtBound_still _)
          · exact current_still
        · exact current_still
      · exact .refl

theorem reloadForBindings_still (request : ℕ) (call : Call B) (bindings : List B) :
    Still s (s.reloadForBindings lib request call bindings).1 := by
  refine (adoptRead_still lib).trans ?_
  unfold reloadForBindings
  dsimp only
  split
  · exact reloaded_still request call bindings
  · split
    · exact reloaded_still request call bindings
    · split
      · refine .trans ?_ (reloaded_still request call bindings)
        exact .of_shown rfl
      · exact .of_shown rfl

theorem decided_still (expected : Option B) (accountId : Option String) (bindings : List B)
    (blocked : Option Bool) : Still s (s.decided lib expected accountId bindings blocked).1 := by
  unfold decided
  split
  · dsimp only
    split
    · exact current_still
    · exact current_still.trans (adoptRead_still lib)
  · exact .refl

theorem fst_eq {p : State B N L R × CallPhase} {phase : CallPhase}
    (h : some p = some (s', phase)) : s' = p.1 :=
  (congrArg Prod.fst (Option.some.inj h)).symm

theorem askResumed_still {ask : Ask B} {settled : Settled} {degradedAgreement : Bool}
    {bindings : List B} {phase : CallPhase}
    (h : s.askResumed lib ask settled degradedAgreement bindings = some (s', phase)) :
    Still s s' := by
  unfold askResumed at h
  split at h
  · cases h
    exact .refl
  · cases h
    exact .refl
  · cases h
    exact .refl
  · cases h
    exact .refl
  · dsimp only at h
    split at h
    · rw [fst_eq h]
      exact (adoptRead_still lib).trans (reloaded_still _ _ _)
    · rw [fst_eq h]
      exact (adoptRead_still lib).trans (reloadForBindings_still _ _ _)
  · dsimp only at h
    split at h
    · cases h
      exact current_still
    · rw [fst_eq h]
      exact current_still.trans (decided_still _ _ _ _)
  · rw [fst_eq h]
    exact decided_still _ _ _ _
  · rw [fst_eq h]
    exact decided_still _ _ _ _
  · cases h
    exact .refl
  · rw [fst_eq h]
    exact decided_still _ _ _ _
  · rw [fst_eq h]
    exact decided_still _ _ _ _
  · cases h

/-! ## Nobody is blocked without a registry -/

theorem current_of_none (h : s.registry = none) : s.current = s := by
  rw [current, h]

theorem adoptRead_of_none (h : s.registry = none) : s.adoptRead lib = s := by
  unfold adoptRead
  rw [current_of_none h]
  dsimp only
  rw [h]
  rfl

theorem checkCurrent_ne_blocked (lib : Library B N L R) (expected : Option B)
    (accountId : Option String) (bindings : List B) :
    checkCurrent lib expected accountId bindings ≠ .blocked := by
  unfold checkCurrent
  split
  · exact nofun
  · split
    · exact nofun
    · exact nofun
    · exact nofun
    · split
      · exact nofun
      · exact nofun

/-- Without a registry nobody is blocked. -/
theorem reloaded_ne_blocked (h : s.registry = none) (request : ℕ) (call : Call B)
    (bindings : List B) :
    (s.reloaded lib request call bindings).2 ≠ .answered .blocked := by
  cases call with
  | reloadForBindings => exact nofun
  | beforeDispatch expected accountId =>
      have hchecked := checkCurrent_ne_blocked lib expected accountId bindings
      unfold reloaded
      dsimp only
      generalize checkCurrent lib expected accountId bindings = status at hchecked
      cases status with
      | ready =>
          dsimp only
          rw [current_of_none h, h]
          exact nofun
      | absent => exact nofun
      | changed => exact nofun
      | blocked => exact absurd rfl hchecked

theorem reloadForBindings_ne_blocked (h : s.registry = none) (request : ℕ) (call : Call B)
    (bindings : List B) :
    (s.reloadForBindings lib request call bindings).2 ≠ .answered .blocked := by
  unfold reloadForBindings
  rw [adoptRead_of_none h]
  dsimp only
  rw [h]
  exact reloaded_ne_blocked h request call bindings

theorem decided_ne_blocked (h : s.registry = none) (expected : Option B)
    (accountId : Option String) (bindings : List B) (blocked : Option Bool) :
    (s.decided lib expected accountId bindings blocked).2 ≠ .answered .blocked := by
  have hchecked := checkCurrent_ne_blocked lib expected accountId bindings
  unfold decided
  generalize checkCurrent lib expected accountId bindings = status at hchecked
  cases status with
  | ready =>
      dsimp only
      rw [current_of_none h, h]
      exact nofun
  | absent => exact nofun
  | changed => exact nofun
  | blocked => exact absurd rfl hchecked

theorem askResumed_ne_blocked (h : s.registry = none) {ask : Ask B} {settled : Settled}
    {degradedAgreement : Bool} {bindings : List B} {phase : CallPhase}
    (hresumed : s.askResumed lib ask settled degradedAgreement bindings = some (s', phase)) :
    phase ≠ .answered .blocked := by
  have hsnd : ∀ {p : State B N L R × CallPhase}, some p = some (s', phase) → phase = p.2 :=
    fun heq => (congrArg Prod.snd (Option.some.inj heq)).symm
  unfold askResumed at hresumed
  split at hresumed
  · rw [hsnd hresumed]
    exact nofun
  · rw [hsnd hresumed]
    exact nofun
  · rw [hsnd hresumed]
    exact nofun
  · rw [hsnd hresumed]
    exact nofun
  · dsimp only at hresumed
    rw [adoptRead_of_none h] at hresumed
    split at hresumed
    · rw [hsnd hresumed]
      exact reloaded_ne_blocked h _ _ _
    · rw [hsnd hresumed]
      exact reloadForBindings_ne_blocked h _ _ _
  · dsimp only at hresumed
    rw [current_of_none h, h] at hresumed
    rw [hsnd hresumed]
    exact decided_ne_blocked h _ _ _ _
  · rw [hsnd hresumed]
    exact decided_ne_blocked h _ _ _ _
  · rw [hsnd hresumed]
    exact decided_ne_blocked h _ _ _ _
  · rw [hsnd hresumed]
    exact nofun
  · rw [hsnd hresumed]
    exact decided_ne_blocked h _ _ _ _
  · rw [hsnd hresumed]
    exact decided_ne_blocked h _ _ _ _
  · cases hresumed

theorem step_askResumed {i : ℕ} {settled : Settled} {degradedAgreement : Bool} {bindings : List B}
    (h : s.step lib (.askResumed i settled degradedAgreement bindings) = some s') :
    ∃ ask t phase, s.asks[i]? = some ask ∧
      s.askResumed lib ask settled degradedAgreement bindings = some (t, phase) ∧
      s' = { t with asks := t.asks.set i { ask with phase := phase } } := by
  cases hask : s.asks[i]? with
  | none =>
      rw [step, hask] at h
      cases h
  | some ask =>
      rw [step, hask] at h
      obtain ⟨⟨t, phase⟩, ht, heq⟩ :=
        Option.map_eq_some_iff.mp (Option.ite_none_right_eq_some.mp h).2
      exact ⟨ask, t, phase, rfl, ht, heq.symm⟩

/-! ## Steps -/

variable (lib) in
inductive Act : State B N L R → State B N L R → Prop
  | still {s s' : State B N L R} (h : Still s s') : Act s s'
  /-- A call on a request goes on. -/
  | call {s t : State B N L R} (h : Still s t) {asks : List (Ask B)}
      (hasks : s.registry = none → ∀ (i : ℕ) (ask : Ask B), asks[i]? = some ask →
        ask.phase = .answered .blocked → s.asks[i]? = some ask) : Act s { t with asks := asks }
  /-- The last owner goes. -/
  | leave {s : State B N L R} (owners : ℕ) (disposed : List Bool) :
      Act s { s with
        owners := owners
        disposed := disposed
        releases := s.releases ++ [.acquiring s.acquiring] }
  | start {s : State B N L R} (hfallback : s.fallback = false) (hregistry : s.registry = none)
      (hacquiring : s.acquiring = none) (requests : List Request) :
      Act s { s with
        acquiring := some s.runs.length
        runs := s.runs ++ [⟨.releasing s.releasing, 0⟩]
        requests := requests }
  | rejected {s : State B N L R} {k : ℕ} {run : Run} {promise : Option Releasing}
      (hrun : s.runs[k]? = some run) (hphase : run.phase = .releasing promise)
      (hrejects : s.rejects promise = true) : Act s (s.setRun k (.over true))
  | waited {s : State B N L R} {k : ℕ} {run : Run} {promise : Option Releasing}
      (hrun : s.runs[k]? = some run) (hphase : run.phase = .releasing promise)
      (hsettled : s.settled promise = true)
      (hreleased : ∀ p ∈ promise, ReleasePhase.disposing p.registry ∉ s.releases)
      (hrejects : ¬ s.rejects promise = true) :
      Act s ((s.begun k).loop k)
  | retried {s : State B N L R} {k : ℕ} {run : Run} {due : ℤ} (hrun : s.runs[k]? = some run)
      (hphase : run.phase = .retrying due) (hdue : due ≤ s.now) : Act s (s.loop k)
  | adapterMade {s : State B N L R} {k : ℕ} {run : Run} {due : ℤ} (hrun : s.runs[k]? = some run)
      (hphase : run.phase = .attempting .adapter due) (error : Option AcquireError) :
      Act s ((s.adapterMade error).1.setRun k (.attempting (s.adapterMade error).2 due))
  | acquired {s : State B N L R} {k r : ℕ} {run : Run} {due : ℤ} (hrun : s.runs[k]? = some run)
      (hphase : run.phase = .attempting (.acquiring r) due) (answer : Except AcquireError N) :
      Act s ((s.acquired r answer).1.setRun k (.attempting (s.acquired r answer).2 due))
  | lateMade {s : State B N L R} {j : ℕ} (hj : s.late[j]? = some .adapter)
      (error : Option AcquireError) :
      Act s { (s.adapterMade error).1 with
        late := (s.adapterMade error).1.late.set j (s.adapterMade error).2 }
  | lateFailed {s : State B N L R} {j : ℕ} {attempt : Attempt} (hj : s.late[j]? = some attempt)
      (error : AcquireError) : Act s { s with late := s.late.set j (.failed error) }
  | lateGot {s : State B N L R} {j r : ℕ} (hj : s.late[j]? = some (.acquiring r)) (snapshot : N) :
      Act s (({ s with
        registries := s.registries.modify r fun registry =>
          { registry with snapshot := some snapshot }
        late := s.late.set j (.got r) } : State B N L R).dispose r)
  | attempted {s s' : State B N L R} {k : ℕ} {run : Run} {attempt : Attempt} {due : ℤ}
      (hrun : s.runs[k]? = some run) (hphase : run.phase = .attempting attempt due)
      (h : s.attempted lib k attempt = some s') : Act s s'
  | timedOut {s : State B N L R} {k : ℕ} {run : Run} {attempt : Attempt} {due : ℤ}
      (hrun : s.runs[k]? = some run) (hphase : run.phase = .attempting attempt due)
      (hdue : s.fallback = true ∨ due ≤ s.now) :
      Act s ((s.stopTracking.disposeLate attempt).setRun k (.over false))
  | cleared {s : State B N L R} {k : ℕ} {run : Run} {rejected : Bool}
      (hrun : s.runs[k]? = some run) (hphase : run.phase = .over rejected) :
      Act s (({ s with acquiring := none } : State B N L R).setRun k (.done rejected))
  | released {s : State B N L R} {j : ℕ} {run : Option ℕ}
      (hj : s.releases[j]? = some (.acquiring run)) : Act s (s.released j)
  | releaseRejected {s : State B N L R} {j : ℕ} {phase : ReleasePhase}
      (hj : s.releases[j]? = some phase)
      (hphase : ∀ r, phase = .disposing r → s.disposal r = .failed) :
      Act s (s.setRelease j .rejected)
  | releaseEnded {s : State B N L R} (j : ℕ) : Act s (s.finishRelease.setRelease j .ended)
  | disposalSettled {s : State B N L R} {r : ℕ} (hpending : s.disposal r = .pending) (ok : Bool) :
      Act s { s with
        registries := s.registries.modify r fun registry =>
          { registry with disposal := if ok then .settled else .failed } }
  /-- A registry changes in what the core does not see. -/
  | changed {s : State B N L R} {f : Registry N → Registry N}
      (hf : ∀ registry, (f registry).slot = registry.slot) (r : ℕ) :
      Act s { s with registries := s.registries.modify r f }
  | failureTimer {s : State B N L R} {due : ℤ} (htimer : s.failureTimer = some due)
      (hdue : due ≤ s.now) : Act s s.stopTracking
  | readEnded {s : State B N L R} (reads : List (Option (Option N))) (previous : Option N)
      (view : Option (View B N)) :
      Act s (({ s with reads := reads } : State B N L R).readEnded lib previous view)
  | advance {s : State B N L R} {now : ℤ} (hnow : s.now ≤ now)
      (hdue : ∀ due ∈ s.timers, now ≤ due) : Act s { s with now := now }

theorem act_ask {request : ℕ} {call : Call B} {bindings : List B} :
    Act lib s { (s.reloadForBindings lib request call bindings).1 with
      asks := (s.reloadForBindings lib request call bindings).1.asks ++
        [⟨request, call, (s.reloadForBindings lib request call bindings).2⟩] } := by
  have hcall : Still s (s.reloadForBindings lib request call bindings).1 :=
    reloadForBindings_still request call bindings
  refine .call hcall ?_
  rw [hcall.asks]
  intro hregistry i ask hask hblocked
  by_cases hlt : i < s.asks.length
  · rw [List.getElem?_append_left hlt] at hask
    exact hask
  · rw [List.getElem?_append_right (Nat.not_lt.mp hlt)] at hask
    obtain ⟨_, hlast⟩ := List.getElem?_eq_some_iff.mp hask
    rw [List.getElem_singleton] at hlast
    rw [← hlast] at hblocked
    exact absurd hblocked (reloadForBindings_ne_blocked hregistry request call bindings)

theorem act_askResumed {i : ℕ} {settled : Settled} {degradedAgreement : Bool} {bindings : List B}
    (h : s.step lib (.askResumed i settled degradedAgreement bindings) = some s') :
    Act lib s s' := by
  obtain ⟨before, t, phase, hbefore, ht, rfl⟩ := step_askResumed h
  have hcall : Still s t := askResumed_still ht
  refine .call hcall ?_
  rw [hcall.asks]
  intro hregistry j ask hask hblocked
  by_cases heq : j = i
  · subst heq
    obtain ⟨hlt, -⟩ := List.getElem?_eq_some_iff.mp hbefore
    rw [List.getElem?_set_self hlt] at hask
    cases hask
    exact absurd hblocked (askResumed_ne_blocked hregistry ht)
  · rw [List.getElem?_set_ne (Ne.symm heq)] at hask
    exact hask

theorem act_ready (sourceReady : Bool) : Act lib s (s.ready sourceReady) := by
  unfold ready
  split
  · exact .still (.of_shown rfl)
  · rename_i hready
    rw [not_or, not_or] at hready
    have hregistry : s.registry = none := Option.not_isSome_iff_eq_none.mp hready.2.2
    split
    · exact .still (.of_shown rfl)
    · rename_i hacquiring
      exact .start (Bool.eq_false_iff.mpr hready.2.1) hregistry hacquiring _

theorem step_act {e : Event B N} (h : s.step lib e = some s') : Act lib s s' := by
  cases e with
  | acquire =>
      cases h
      exact .still (.of_shown rfl)
  | dispose owner =>
      dsimp only [step] at h
      split at h
      · cases h
      · cases h
        exact .still .refl
      · split at h
        · cases h
          exact .still (.of_shown rfl)
        · cases h
          exact .leave _ _
  | forRequest owner sourceReady =>
      dsimp only [step] at h
      split at h
      · cases h
      · cases h
        exact .still (.of_shown rfl)
      · cases h
        exact act_ready sourceReady
  | waited k =>
      dsimp only [step] at h
      split at h
      · rename_i promise since hrun
        split at h
        · rename_i hsettled
          split at h
          · rename_i hrejects
            cases h
            exact .rejected hrun rfl hrejects
          · rename_i hrejects
            cases h
            exact .waited hrun rfl hsettled.1 hsettled.2 hrejects
        · cases h
      · cases h
  | adapterMade waiter error =>
      cases waiter with
      | run k =>
          dsimp only [step] at h
          split at h
          · rename_i due since hrun
            cases h
            exact .adapterMade hrun rfl error
          · cases h
      | late j =>
          dsimp only [step] at h
          split at h
          · rename_i hj
            cases h
            exact .lateMade hj error
          · cases h
  | acquired waiter answer =>
      cases waiter with
      | run k =>
          dsimp only [step] at h
          split at h
          · rename_i r due since hrun
            cases h
            exact .acquired hrun rfl answer
          · cases h
      | late j =>
          dsimp only [step] at h
          split at h
          · rename_i r hj
            cases answer with
            | error error =>
                cases h
                exact .lateFailed hj error
            | ok snapshot =>
                cases h
                exact .lateGot hj snapshot
          · cases h
  | attempted k settled =>
      dsimp only [step] at h
      split at h
      · rename_i attempt due since hrun
        split at h
        · exact .attempted hrun rfl h
        · split at h
          · rename_i hdue
            cases h
            exact .timedOut hrun rfl hdue
          · cases h
      · cases h
  | retried k =>
      dsimp only [step] at h
      split at h
      · rename_i due since hrun
        split at h
        · rename_i hdue
          cases h
          exact .retried hrun rfl hdue
        · cases h
      · cases h
  | cleared k =>
      dsimp only [step] at h
      split at h
      · rename_i rejected since hrun
        cases h
        exact .cleared hrun rfl
      · cases h
  | requestResumed j =>
      dsimp only [step] at h
      split at h
      · split at h
        · cases h
          exact .still (.of_shown rfl)
        · cases h
      · cases h
  | releaseResumed j =>
      dsimp only [step] at h
      split at h
      · rename_i hj
        cases h
        exact .released hj
      · rename_i k hj
        split at h
        · split at h
          · cases h
            exact .releaseRejected hj nofun
          · cases h
            exact .released hj
        · cases h
      · cases h
  | disposalSettled r ok =>
      dsimp only [step] at h
      split at h
      · rename_i hpending
        cases h
        exact .disposalSettled hpending ok
      · cases h
  | releaseEnded j =>
      dsimp only [step] at h
      split at h
      · rename_i r hj
        split at h
        · cases h
          exact .releaseEnded j
        · rename_i hfailed
          cases h
          refine .releaseRejected hj ?_
          rintro q ⟨⟩
          exact hfailed
        · cases h
      · cases h
  | abandoned r =>
      cases h
      refine .changed ?_ r
      intro registry
      rfl
  | onAbandon r =>
      dsimp only [step] at h
      split at h
      · rename_i habandoned
        cases h
        obtain ⟨registry, hregistry, habandoned⟩ := (Option.any_eq_true _ _).mp habandoned
        exact .still (stopTracking_still ⟨r, registry, hregistry, habandoned⟩)
      · cases h
  | failureTimer =>
      dsimp only [step] at h
      split at h
      · rename_i htimer
        cases h
        obtain ⟨due, hdue, hle⟩ := (Option.any_eq_true _ _).mp htimer
        exact .failureTimer hdue (of_decide_eq_true hle)
      · cases h
  | read previous =>
      dsimp only [step] at h
      split at h
      · cases h
        exact .still (adoptRead_still lib)
      · cases h
        exact .still ((adoptRead_still lib).trans (.of_shown rfl))
  | readEnded i view =>
      dsimp only [step] at h
      split at h
      · cases h
        exact .readEnded _ _ view
      · cases h
  | committed view =>
      cases h
      exact .still (.of_shown rfl)
  | published r snapshot =>
      cases h
      refine .changed ?_ r
      intro registry
      unfold Registry.slot
      rw [Option.isSome_map]
  | adoptRead =>
      cases h
      exact .still (adoptRead_still lib)
  | enqueue key binding =>
      dsimp only [step] at h
      split at h
      · cases h
        exact .still (current_still.trans (.of_shown rfl))
      · cases h
        exact .still current_still
  | onRejected key =>
      cases h
      exact .still (.of_shown rfl)
  | ask request call bindings =>
      dsimp only [step] at h
      split at h
      · cases h
        exact act_ask
      · cases h
  | askResumed i settled degradedAgreement bindings => exact act_askResumed h
  | advance now =>
      dsimp only [step] at h
      split at h
      · rename_i hnow
        cases h
        exact .advance hnow.1 hnow.2
      · cases h

end State

end LimitsLease
