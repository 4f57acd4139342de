import OpenaiAuth.LimitsLease.Steps

/-! # The lease and its core

Every step of the lease is a run of the machine of its registries. So what that machine keeps is
kept by every lease: a registry is disposed once, when the lease no longer keeps it, and none is
asked for while another is held or being disposed.

Main results: `registries_disposed`, `registry_asked_alone`, `release_failed`.
-/

namespace LimitsLease

open Relation

variable {B N L R : Type}

namespace State

variable {lib : Library B N L R} {s s' s'' : State B N L R}

/-! ## The acquisition -/

/-- What a step does to the core, with whom a registry is asked for. -/
structure Follows (s s' : State B N L R) : Prop where
  moves : ReflTransGen Core.Moves s.core s'.core
  wf : Wf s'
  asks : s'.registries.length ≠ s.registries.length → s.core.Asks

theorem Beside.follows (h : Beside s s') (hwf : Wf s) : Follows s s' where
  moves := h.moves
  wf := h.wf hwf
  asks := fun hne => absurd h.length hne

section Runs

variable {k : ℕ} {run : Run}

theorem Wf.acquires (hwf : Wf s) {phase : RunPhase} (hrun : s.runs[k]? = some run)
    (hphase : run.phase = phase) (hne : ∀ rejected, phase ≠ .done rejected) :
    s.acquiring = some k ∧ s.core.phase = some phase := by
  have hacquiring := hwf.alone k run hrun (by rw [hphase]; exact hne)
  refine ⟨hacquiring, ?_⟩
  rw [core, hacquiring]
  simp [hrun, hphase]

theorem runs_setRun (hrun : s.runs[k]? = some run) (phase : RunPhase) :
    (s.setRun k phase).runs[k]? = some { run with phase := phase } := by
  rw [setRun, List.getElem?_modify_eq, hrun]
  rfl

theorem runs_setRun_ne {j : ℕ} (h : j ≠ k) (phase : RunPhase) :
    (s.setRun k phase).runs[j]? = s.runs[j]? := List.getElem?_modify_ne _ s.runs (Ne.symm h)

theorem core_setRun (hacquiring : s.acquiring = some k) (hrun : s.runs[k]? = some run)
    (phase : RunPhase) : (s.setRun k phase).core = { s.core with phase := some phase } := by
  have hphase : (s.setRun k phase).core.phase = some phase := by
    have hacquiring' : (s.setRun k phase).acquiring = some k := hacquiring
    rw [core, hacquiring']
    simp [runs_setRun hrun]
  rw [← hphase]
  rfl

theorem Wf.setRun (hwf : Wf s) (hacquiring : s.acquiring = some k)
    (hrun : s.runs[k]? = some run) {phase : RunPhase} (hne : ∀ rejected, phase ≠ .done rejected) :
    Wf (s.setRun k phase) := by
  constructor
  · intro j hj
    have hj : s.acquiring = some j := hj
    rw [hacquiring] at hj
    cases hj
    exact ⟨_, runs_setRun hrun phase, hne⟩
  · intro j run' hj hopen
    by_cases heq : j = k
    · rw [heq]
      exact hacquiring
    · rw [runs_setRun_ne heq] at hj
      exact hwf.alone j run' hj hopen

/-- The phase of the acquisition changes by a move of the core. -/
theorem follows_setRun (hwf : Wf s) (hacquiring : s.acquiring = some k)
    (hrun : s.runs[k]? = some run) {phase : RunPhase} (hne : ∀ rejected, phase ≠ .done rejected)
    (hmove : Core.Moves s.core { s.core with phase := some phase }) :
    Follows s (s.setRun k phase) where
  moves := by
    rw [core_setRun hacquiring hrun]
    exact .single hmove
  wf := hwf.setRun hacquiring hrun hne
  asks := fun hlength => absurd rfl hlength

/-- The step before leaves the acquisition alone. -/
theorem Beside.then (h : Beside s s') (h' : Follows s' s'')
    (hlength : s''.registries.length = s'.registries.length) : Follows s s'' where
  moves := h.moves.trans h'.moves
  wf := h'.wf
  asks := fun hne => absurd (hlength.trans h.length) hne

theorem Follows.beside (h : Follows s s') (h' : Beside s' s'')
    (hlength : s'.registries.length = s.registries.length) : Follows s s'' where
  moves := h.moves.trans h'.moves
  wf := h'.wf h.wf
  asks := fun hne => absurd (h'.length.trans hlength) hne

theorem stopTracking_setRun (phase : RunPhase) :
    s.stopTracking.setRun k phase = (s.setRun k phase).stopTracking := by
  unfold stopTracking setRun
  dsimp only
  split
  · rfl
  · cases s.registry with
    | none => rfl
    | some r => rfl

theorem current_setRun (phase : RunPhase) :
    s.current.setRun k phase = (s.setRun k phase).current := by
  unfold current
  cases hregistry : s.registry with
  | none =>
      rw [show (s.setRun k phase).registry = none from hregistry]
  | some r =>
      rw [show (s.setRun k phase).registry = some r from hregistry]
      dsimp only
      rw [show (s.setRun k phase).registries = s.registries from rfl]
      split
      · exact stopTracking_setRun phase
      · rfl

theorem adoptRead_setRun (phase : RunPhase) :
    (s.adoptRead lib).setRun k phase = (s.setRun k phase).adoptRead lib := by
  unfold adoptRead
  dsimp only
  rw [← current_setRun]
  generalize s.current = t
  cases hsnapshot : (t.registry.bind fun r => t.registries[r]?.bind (·.snapshot)) with
  | none =>
      rw [show ((t.setRun k phase).registry.bind fun r =>
        (t.setRun k phase).registries[r]?.bind (·.snapshot)) = none from hsnapshot]
  | some snapshot =>
      rw [show ((t.setRun k phase).registry.bind fun r =>
        (t.setRun k phase).registries[r]?.bind (·.snapshot)) = some snapshot from hsnapshot]
      cases hread : t.latestRead with
      | none =>
          rw [show (t.setRun k phase).latestRead = none from hread]
      | some read =>
          rw [show (t.setRun k phase).latestRead = some read from hread,
            show (t.setRun k phase).recovery = t.recovery from rfl]
          dsimp only
          split
          · rfl
          · rfl

theorem Beside.runs_some (h : Beside s s') (hrun : s.runs[k]? = some run) :
    s'.runs[k]? = some run := by
  rw [h.runs, hrun]

/-- The lease stops tracking, and the acquisition ends. -/
theorem stop_follows (hwf : Wf s) (hacquiring : s.acquiring = some k)
    (hrun : s.runs[k]? = some run) (rejected : Bool) (hmay : s.core.MayEnd) :
    Follows s (s.stopTracking.setRun k (.over rejected)) := by
  have hstop : Beside s s.stopTracking := stopTracking_beside
  refine hstop.then (follows_setRun (hstop.wf hwf) (by rw [hstop.acquiring, hacquiring])
    (hstop.runs_some hrun) nofun (.finish ?_ rejected)) rfl
  unfold Core.MayEnd
  rw [hstop.phase]
  exact hmay

theorem mayEnd_of_mayTry (h : s.core.MayTry) : s.core.MayEnd := by
  rcases h with ⟨promise, hphase, -⟩ | ⟨due, hphase⟩
  · exact .inl ⟨promise, hphase⟩
  · exact .inr (.inl ⟨due, hphase⟩)

theorem core_ask (hacquiring : s.acquiring = some k) (hrun : s.runs[k]? = some run) (due : ℤ) :
    (s.acquireLimitsRegistry.1.setRun k (.attempting s.acquireLimitsRegistry.2 due)).core =
      { s.core with
        slots := s.core.slots ++ [{}]
        phase := some (.attempting (.acquiring s.core.slots.length) due) } := by
  have hacquiring' : s.acquireLimitsRegistry.1.acquiring = some k := hacquiring
  rw [core_setRun hacquiring' hrun]
  simp [core, acquireLimitsRegistry, Registry.slot]

theorem loop_follows (hwf : Wf s) (hacquiring : s.acquiring = some k)
    (hrun : s.runs[k]? = some run) (hmay : s.core.MayTry) : Follows s (s.loop k) := by
  unfold loop
  split
  · exact follows_setRun hwf hacquiring hrun nofun (.finish (mayEnd_of_mayTry hmay) false)
  · rename_i hgo
    split
    · exact stop_follows hwf hacquiring hrun false (mayEnd_of_mayTry hmay)
    · have hfallback : s.core.fallback = false := by
        rw [not_or] at hgo
        exact Bool.eq_false_iff.mpr hgo.1
      unfold startAttempt
      by_cases hadapter : s.adapter = true
      · rw [if_pos hadapter]
        refine ⟨.single ?_, ?_, fun _ => .inl ⟨hmay, hfallback⟩⟩
        · change Core.Moves s.core (s.acquireLimitsRegistry.1.setRun k
            (.attempting s.acquireLimitsRegistry.2 (s.dueAt s.deadline))).core
          rw [core_ask hacquiring hrun]
          exact .tryRegistry hmay hfallback _
        · have hwf' : Wf s.acquireLimitsRegistry.1 := ⟨hwf.under, hwf.alone⟩
          exact hwf'.setRun hacquiring hrun nofun
      · rw [if_neg hadapter]
        exact follows_setRun hwf hacquiring hrun nofun (.tryAdapter hmay hfallback _)

theorem stopTracking_fallback : s.stopTracking.fallback = true := by
  unfold stopTracking
  split
  · assumption
  · cases s.registry with
    | none => rfl
    | some r => rfl

/-- The lease stops tracking, and leaves the attempt to itself. -/
theorem abandon_follows (hwf : Wf s) {attempt : Attempt} {due : ℤ}
    (hrun : s.runs[k]? = some run) (hphase : run.phase = .attempting attempt due) :
    Follows s ((s.stopTracking.disposeLate attempt).setRun k (.over false)) := by
  obtain ⟨hacquiring, hcore⟩ := hwf.acquires hrun hphase nofun
  have hstop : Beside s s.stopTracking := stopTracking_beside
  have hcore' : s.stopTracking.core.phase = some (.attempting attempt due) :=
    hstop.phase.trans hcore
  have hfallback : s.stopTracking.core.fallback = true := stopTracking_fallback
  have hwf' := hstop.wf hwf
  have hrun' := hstop.runs_some hrun
  have hacquiring' := hstop.acquiring.trans hacquiring
  generalize s.stopTracking = t at *
  have hleave : ∀ attempt', attempt' = attempt →
      attempt = .adapter ∨ (∃ r, attempt = .acquiring r) →
      Follows s (({ t with late := t.late ++ [attempt'] } : State B N L R).setRun k
        (.over false)) := by
    rintro attempt' rfl hattempt
    refine hstop.then ⟨.single ?_, ?_, fun hne => absurd rfl hne⟩ rfl
    · rw [core_setRun (s := { t with late := t.late ++ [attempt'] }) hacquiring' hrun']
      exact .leave hcore' hfallback hattempt
    · have hlate : Wf ({ t with late := t.late ++ [attempt'] } : State B N L R) :=
        ⟨hwf'.under, hwf'.alone⟩
      exact hlate.setRun hacquiring' hrun' nofun
  cases attempt with
  | adapter => exact hleave .adapter rfl (.inl rfl)
  | acquiring r => exact hleave (.acquiring r) rfl (.inr ⟨r, rfl⟩)
  | failed error =>
      exact hstop.then (follows_setRun hwf' hacquiring' hrun' nofun
        (.finish (.inr (.inr ⟨error, due, hcore'⟩)) false)) rfl
  | got r =>
      have hlength : ((t.dispose r).setRun k (.over false)).registries.length =
          t.registries.length := by
        simp [setRun, dispose]
      have hdispose : (t.dispose r).runs[k]? = some run := hrun'
      refine hstop.then ⟨.single ?_, ?_, fun hne => absurd hlength hne⟩ hlength
      · rw [disposeLate, core_setRun (show (t.dispose r).acquiring = some k from hacquiring')
          hdispose, core_dispose]
        exact .dispose hcore' hfallback
      · have hwf' : Wf (t.dispose r) := ⟨hwf'.under, hwf'.alone⟩
        exact hwf'.setRun hacquiring' hdispose nofun

theorem attempted_follows (hwf : Wf s) {attempt : Attempt} {due : ℤ}
    (hrun : s.runs[k]? = some run) (hphase : run.phase = .attempting attempt due)
    (h : s.attempted lib k attempt = some s') : Follows s s' := by
  obtain ⟨hacquiring, hcore⟩ := hwf.acquires hrun hphase nofun
  cases attempt with
  | adapter => cases h
  | acquiring r => cases h
  | failed error =>
      have hmay : s.core.MayEnd := .inr (.inr ⟨error, due, hcore⟩)
      cases error with
      | conflict =>
          cases h
          exact stop_follows hwf hacquiring hrun false hmay
      | unsupported =>
          cases h
          exact stop_follows hwf hacquiring hrun false hmay
      | poolNotReady =>
          cases h
          have hbeside : Beside s { s with deadline := none, adapter := false } :=
            .of_core rfl rfl rfl rfl
          exact hbeside.then (follows_setRun (hbeside.wf hwf) hacquiring hrun nofun
            (.finish hmay false)) rfl
      | other =>
          cases h
          exact follows_setRun hwf hacquiring hrun nofun (.retry hcore _)
  | got r =>
      dsimp only [attempted] at h
      split at h
      · cases h
        exact abandon_follows hwf hrun hphase
      · rename_i hfallback
        have hhold : Core.Moves s.core
            (({ s with registry := some r } : State B N L R).setRun k (.over false)).core := by
          rw [core_setRun (s := { s with registry := some r }) hacquiring hrun]
          exact .hold hcore (Bool.eq_false_iff.mpr hfallback)
        have hheld : Follows s (({ s with registry := some r } : State B N L R).setRun k
            (.over false)) := by
          have hwf' : Wf ({ s with registry := some r } : State B N L R) := ⟨hwf.under, hwf.alone⟩
          exact ⟨.single hhold, hwf'.setRun hacquiring hrun nofun, fun hne => absurd rfl hne⟩
        split at h
        · cases h
          rw [stopTracking_setRun]
          exact hheld.beside stopTracking_beside rfl
        · cases h
          rw [adoptRead_setRun]
          exact hheld.beside (adoptRead_still lib).toBeside rfl

theorem core_settled {promise : Option Releasing} (h : s.settled promise = true) :
    s.core.settled promise := by
  intro p hp
  cases hp
  have h := of_decide_eq_true (show decide _ = true from h)
  rw [core_disposal]
  exact h

theorem core_rejects {promise : Option Releasing} (h : ¬ s.rejects promise = true) :
    ¬ s.core.rejects promise := by
  rintro ⟨p, hp, hcaught, hfailed⟩
  cases hp
  refine h (decide_eq_true (?_ : _ ∧ _))
  rw [core_disposal] at hfailed
  exact ⟨by rw [hcaught]; rfl, hfailed⟩

theorem runs_begun (hrun : s.runs[k]? = some run) :
    (s.begun k).runs[k]? = some { run with since := s.now } := by
  rw [begun, List.getElem?_modify_eq, hrun]
  rfl

theorem runs_begun_ne {j : ℕ} (h : j ≠ k) : (s.begun k).runs[j]? = s.runs[j]? :=
  List.getElem?_modify_ne _ s.runs (Ne.symm h)

theorem waited_follows (hwf : Wf s) {promise : Option Releasing} (hrun : s.runs[k]? = some run)
    (hphase : run.phase = .releasing promise) (hsettled : s.settled promise = true)
    (hrejects : ¬ s.rejects promise = true) : Follows s ((s.begun k).loop k) := by
  obtain ⟨hacquiring, hcore⟩ := hwf.acquires hrun hphase nofun
  have hrun' := runs_begun hrun
  have hwf' : Wf (s.begun k) := by
    constructor
    · intro j hj
      have hj : s.acquiring = some j := hj
      rw [hacquiring] at hj
      cases hj
      exact ⟨_, hrun', by rw [hphase]; exact nofun⟩
    · intro j run' hj hopen
      by_cases heq : j = k
      · rw [heq]
        exact hacquiring
      · rw [runs_begun_ne heq] at hj
        exact hwf.alone j run' hj hopen
  have hphase' : (s.begun k).core.phase = s.core.phase := by
    rw [hcore]
    exact (hwf'.acquires hrun' hphase nofun).2
  have heq : (s.begun k).core = s.core := by
    rw [show (s.begun k).core = { s.core with phase := (s.begun k).core.phase } from rfl, hphase']
  have hloop : Follows (s.begun k) ((s.begun k).loop k) := by
    refine loop_follows hwf' hacquiring hrun' ?_
    rw [heq]
    exact .inl ⟨promise, hcore, core_settled hsettled, core_rejects hrejects⟩
  refine ⟨?_, hloop.wf, ?_⟩
  · rw [← heq]
    exact hloop.moves
  · rw [← heq]
    exact hloop.asks

theorem adapterMade_follows (hwf : Wf s) {due : ℤ} (hrun : s.runs[k]? = some run)
    (hphase : run.phase = .attempting .adapter due) (error : Option AcquireError) :
    Follows s ((s.adapterMade error).1.setRun k (.attempting (s.adapterMade error).2 due)) := by
  obtain ⟨hacquiring, hcore⟩ := hwf.acquires hrun hphase nofun
  cases error with
  | some error => exact follows_setRun hwf hacquiring hrun nofun (.failed hcore (.inl rfl) error)
  | none =>
      refine ⟨.single ?_, ?_, fun _ => .inr (.inl ⟨due, hcore⟩)⟩
      · unfold adapterMade
        rw [core_ask (s := { s with adapter := true }) hacquiring hrun]
        exact .made hcore
      · have hwf' : Wf ({ s with adapter := true } : State B N L R).acquireLimitsRegistry.1 :=
          ⟨hwf.under, hwf.alone⟩
        exact hwf'.setRun hacquiring hrun nofun

theorem core_obtained (r : ℕ) (snapshot : N) :
    ({ s with
      registries := s.registries.modify r fun registry =>
        { registry with snapshot := some snapshot } } : State B N L R).core =
      { s.core with
        slots := s.core.slots.modify r fun slot => { slot with obtained := true } } := by
  unfold core
  congr 1
  exact map_modify_slot (fun _ => rfl) r

theorem acquired_follows (hwf : Wf s) {r : ℕ} {due : ℤ} (hrun : s.runs[k]? = some run)
    (hphase : run.phase = .attempting (.acquiring r) due) (answer : Except AcquireError N) :
    Follows s ((s.acquired r answer).1.setRun k (.attempting (s.acquired r answer).2 due)) := by
  obtain ⟨hacquiring, hcore⟩ := hwf.acquires hrun hphase nofun
  cases answer with
  | error error =>
      exact follows_setRun hwf hacquiring hrun nofun (.failed hcore (.inr ⟨r, rfl⟩) error)
  | ok snapshot =>
      refine ⟨.single ?_, ?_, fun hne => absurd (by simp [setRun, acquired]) hne⟩
      · unfold acquired
        rw [core_setRun (s := { s with
          registries := s.registries.modify r fun registry =>
            { registry with snapshot := some snapshot } }) hacquiring hrun, core_obtained]
        exact .got hcore
      · have hwf' : Wf (s.acquired r (.ok snapshot)).1 := ⟨hwf.under, hwf.alone⟩
        exact hwf'.setRun hacquiring hrun nofun

end Runs

theorem lateMade_follows (hwf : Wf s) {j : ℕ} (hj : s.late[j]? = some .adapter)
    (error : Option AcquireError) :
    Follows s { (s.adapterMade error).1 with
      late := (s.adapterMade error).1.late.set j (s.adapterMade error).2 } := by
  have hcore : s.core.late[j]? = some .adapter := hj
  cases error with
  | some error =>
      exact ⟨.single (.lateFailed hcore error), ⟨hwf.under, hwf.alone⟩, fun hne => absurd rfl hne⟩
  | none =>
      refine ⟨.single ?_, ⟨hwf.under, hwf.alone⟩,
        fun _ => .inr (.inr (List.mem_of_getElem? hcore))⟩
      have hmove := Core.Moves.lateMade hcore
      convert hmove using 1
      simp [core, adapterMade, acquireLimitsRegistry, Registry.slot]

theorem lateFailed_follows (hwf : Wf s) {j : ℕ} {attempt : Attempt}
    (hj : s.late[j]? = some attempt) (error : AcquireError) :
    Follows s { s with late := s.late.set j (.failed error) } :=
  ⟨.single (.lateFailed hj error), ⟨hwf.under, hwf.alone⟩, fun hne => absurd rfl hne⟩

theorem lateGot_follows (hwf : Wf s) {j r : ℕ} (hj : s.late[j]? = some (.acquiring r))
    (snapshot : N) :
    Follows s (({ s with
      registries := s.registries.modify r fun registry =>
        { registry with snapshot := some snapshot }
      late := s.late.set j (.got r) } : State B N L R).dispose r) := by
  refine ⟨.single ?_, ⟨hwf.under, hwf.alone⟩, fun hne => absurd (by simp [dispose]) hne⟩
  have hmove := Core.Moves.lateGot (c := s.core) hj
  convert hmove using 1
  unfold core dispose
  dsimp only
  congr 1
  rw [List.modify_modify_eq]
  exact map_modify_slot (fun _ => rfl) r

theorem start_follows (hwf : Wf s) (hregistry : s.registry = none)
    (hacquiring : s.acquiring = none) (requests : List Request) :
    Follows s { s with
      acquiring := some s.runs.length
      runs := s.runs ++ [⟨.releasing s.releasing, 0⟩]
      requests := requests } := by
  have hphase : s.core.phase = none := by
    unfold core
    rw [hacquiring]
    rfl
  refine ⟨.single ?_, ?_, fun hne => absurd rfl hne⟩
  · have hmove := Core.Moves.start hphase hregistry
    convert hmove using 1
    simp [core]
  · constructor
    · intro k hk
      cases hk
      refine ⟨⟨.releasing s.releasing, 0⟩, ?_, by simp⟩
      rw [List.getElem?_append_right (le_refl _), Nat.sub_self]
      rfl
    · intro k run hk hopen
      by_cases hlt : k < s.runs.length
      · rw [List.getElem?_append_left hlt] at hk
        have hk := hwf.alone k run hk hopen
        rw [hacquiring] at hk
        cases hk
      · have hlt' := (List.getElem?_eq_some_iff.mp hk).1
        rw [List.length_append, List.length_singleton] at hlt'
        exact congrArg some (by omega)

theorem cleared_follows (hwf : Wf s) {k : ℕ} {run : Run} {rejected : Bool}
    (hrun : s.runs[k]? = some run) (hphase : run.phase = .over rejected) :
    Follows s (({ s with acquiring := none } : State B N L R).setRun k (.done rejected)) := by
  obtain ⟨hacquiring, hcore⟩ := hwf.acquires hrun hphase nofun
  refine ⟨.single (.clear hcore), ?_, fun hne => absurd rfl hne⟩
  constructor
  · intro j hj
    cases hj
  · intro j run' hj hopen
    by_cases heq : j = k
    · subst heq
      rw [runs_setRun (s := { s with acquiring := none }) hrun] at hj
      cases hj
      exact absurd rfl (hopen rejected)
    · rw [runs_setRun_ne heq] at hj
      have hj := hwf.alone j run' hj hopen
      rw [hacquiring] at hj
      exact absurd (Option.some.inj hj).symm heq

theorem released_follows (hwf : Wf s) (j : ℕ) : Follows s (s.released j) := by
  unfold released
  split
  · exact Beside.follows (.of_core rfl rfl rfl rfl) hwf
  · have hcurrent : Beside s s.current := current_still.toBeside
    dsimp only
    generalize s.current = t at hcurrent
    split
    · exact Beside.follows (hcurrent.trans (.of_core rfl rfl rfl rfl)) hwf
    · rename_i r hregistry
      have hlength : (t.dispose r).registries.length = t.registries.length := by
        simp [dispose]
      have hdropped : Follows s { (({ t with registry := none, failureTimer := none } :
          State B N L R).dispose r) with releasing := some ⟨r, false⟩ } := by
        refine ⟨hcurrent.moves.trans (.single ?_), ?_,
          fun hne => absurd (hlength.trans hcurrent.length) hne⟩
        · have hmove := Core.Moves.release (c := t.core) hregistry
          convert hmove using 1
          unfold core dispose Core.dispose
          congr 1
          exact map_modify_slot (fun _ => rfl) r
        · have hwf' := hcurrent.wf hwf
          exact ⟨hwf'.under, hwf'.alone⟩
      exact hdropped.beside (.of_core rfl rfl rfl rfl) (hlength.trans hcurrent.length)

theorem disposalSettled_follows (hwf : Wf s) {r : ℕ} (hpending : s.disposal r = .pending)
    (ok : Bool) :
    Follows s { s with
      registries := s.registries.modify r fun registry =>
        { registry with disposal := if ok then .settled else .failed } } := by
  refine ⟨.single ?_, ⟨hwf.under, hwf.alone⟩, fun hne => absurd (by simp) hne⟩
  have hcore : s.core.disposal r = .pending := by
    rw [← hpending]
    exact core_disposal r
  have hended : (if ok then Disposal.settled else .failed) = .settled ∨
      (if ok then Disposal.settled else .failed) = .failed := by
    cases ok with
    | true => exact .inl rfl
    | false => exact .inr rfl
  have hmove := Core.Moves.settle hcore hended
  convert hmove using 1
  unfold core
  congr 1
  exact map_modify_slot (fun _ => rfl) r

/-- The registries change in what the core does not see. -/
theorem core_modify {f : Registry N → Registry N}
    (h : ∀ registry, (f registry).slot = registry.slot) (r : ℕ) :
    ({ s with registries := s.registries.modify r f } : State B N L R).core = s.core := by
  unfold core
  congr 1
  rw [map_modify_slot (g := id) h, List.modify_id]

/-- Every step is a run of the core, and a registry is asked for only where the core asks. -/
theorem act_follows (hwf : Wf s) (h : Act lib s s') : Follows s s' := by
  cases h with
  | still h => exact h.toBeside.follows hwf
  | call h =>
      refine Beside.follows (h.toBeside.trans ?_) hwf
      exact .of_core rfl rfl rfl rfl
  | leave owners disposed => exact Beside.follows (.of_core rfl rfl rfl rfl) hwf
  | start hfallback hregistry hacquiring requests =>
      exact start_follows hwf hregistry hacquiring requests
  | rejected hrun hphase =>
      obtain ⟨hacquiring, hcore⟩ := hwf.acquires hrun hphase nofun
      exact follows_setRun hwf hacquiring hrun nofun (.finish (.inl ⟨_, hcore⟩) true)
  | waited hrun hphase hsettled hreleased hrejects =>
      exact waited_follows hwf hrun hphase hsettled hrejects
  | retried hrun hphase =>
      obtain ⟨hacquiring, hcore⟩ := hwf.acquires hrun hphase nofun
      exact loop_follows hwf hacquiring hrun (.inr ⟨_, hcore⟩)
  | adapterMade hrun hphase error => exact adapterMade_follows hwf hrun hphase error
  | acquired hrun hphase answer => exact acquired_follows hwf hrun hphase answer
  | lateMade hj error => exact lateMade_follows hwf hj error
  | lateFailed hj error => exact lateFailed_follows hwf hj error
  | lateGot hj snapshot => exact lateGot_follows hwf hj snapshot
  | attempted hrun hphase h => exact attempted_follows hwf hrun hphase h
  | timedOut hrun hphase => exact abandon_follows hwf hrun hphase
  | cleared hrun hphase => exact cleared_follows hwf hrun hphase
  | released => exact released_follows hwf _
  | releaseRejected => exact Beside.follows (.of_core rfl rfl rfl rfl) hwf
  | releaseEnded j => exact Beside.follows (.of_core rfl rfl rfl rfl) hwf
  | disposalSettled hpending ok => exact disposalSettled_follows hwf hpending ok
  | changed hf r => exact Beside.follows (.of_core (core_modify hf r) rfl rfl (by simp)) hwf
  | failureTimer => exact stopTracking_beside.follows hwf
  | readEnded reads previous view =>
      have hreads : Beside s { s with reads := reads } := .of_core rfl rfl rfl rfl
      exact (hreads.trans (readEnded_beside previous view)).follows hwf
  | advance => exact Beside.follows (.of_core rfl rfl rfl rfl) hwf

theorem step_follows (hwf : Wf s) {e : Event B N} (h : s.step lib e = some s') : Follows s s' :=
  act_follows hwf (step_act h)

/-! ## Runs -/

/-- A lease that was just made. -/
def initial (now : ℤ) (recovery : L) : State B N L R := { now, recovery }

/-- `s` is reached by a new lease: owners come and go, requests are asked, and the registries, the
reads and the clock answer as they like. -/
def Reached (lib : Library B N L R) (s : State B N L R) : Prop :=
  ∃ now recovery es, (initial now recovery).run lib es = some s

/-- What every step keeps holds of every lease. -/
theorem Reached.induct {P : State B N L R → Prop}
    (hinit : ∀ now recovery, P (initial now recovery))
    (hstep : ∀ s e s', P s → s.step lib e = some s' → P s') (h : Reached lib s) : P s := by
  obtain ⟨now, recovery, es, hrun⟩ := h
  have hall : ∀ (es : List (Event B N)) (t : State B N L R), P t → t.run lib es = some s → P s := by
    intro es
    induction es with
    | nil =>
        intro t ht hrun
        cases hrun
        exact ht
    | cons e es ih =>
        intro t ht hrun
        obtain ⟨t', htstep, hrest⟩ := Option.bind_eq_some_iff.mp hrun
        exact ih t' (hstep t e t' ht htstep) hrest
  exact hall es _ (hinit now recovery) hrun

/-- What is known of the registries of every lease. -/
structure Sound (s : State B N L R) : Prop where
  wf : Wf s
  inv : s.core.Inv
  spent : s.core.Spent

theorem Sound.act (h : Sound s) (hact : Act lib s s') : Sound s' := by
  have hfollows := act_follows h.wf hact
  exact ⟨hfollows.wf, h.inv.run hfollows.moves, h.spent.run h.inv hfollows.moves⟩

theorem Sound.step (h : Sound s) {e : Event B N} (hstep : s.step lib e = some s') : Sound s' :=
  h.act (step_act hstep)

theorem Reached.sound (h : Reached lib s) : Sound s := by
  refine h.induct ?_ fun _ _ _ ht hstep => ht.step hstep
  intro now recovery
  refine ⟨⟨nofun, ?_⟩, Core.inv_init, Core.spent_init⟩
  intro k run hrun
  cases hrun

/-! ## The registries -/

/-- A library whose bindings and reads are all alike. -/
def plain : Library Unit Unit Unit Unit where
  accountId _ := "main"
  limitAccountId _ := "main"
  isIdentityCompatible _ _ := true
  limitsBindingProjection _ := ""
  generation _ := ""
  revision _ := 0
  operationIds _ := []
  restricted _ _ := false
  capture recovery _ _ := (recovery, ())
  adopt recovery _ _ := (recovery, true)
  view _ := ⟨(), true, false, []⟩

/-- A request has the lease acquire its first registry. -/
def acquires : List (Event Unit Unit) :=
  [.acquire, .forRequest 0 true, .waited 0, .adapterMade (.run 0) none, .acquired (.run 0) (.ok ()),
    .attempted 0 true, .cleared 0, .requestResumed 0]

/-- The lease holds registry `r`, or is about to. -/
def Keeps (s : State B N L R) (r : ℕ) : Prop :=
  s.registry = some r ∨
    ∃ (k : ℕ) (run : Run) (due : ℤ), s.runs[k]? = some run ∧
      run.phase = .attempting (.got r) due

theorem slot_of_registry {r : ℕ} {registry : Registry N} (h : s.registries[r]? = some registry) :
    s.core.slots[r]? = some registry.slot := by
  rw [core, List.getElem?_map, h]
  rfl

theorem Wf.keeps (hwf : Wf s) {r : ℕ} :
    s.Keeps r ↔ s.core.registry = some r ∨ s.core.Transit r := by
  constructor
  · rintro (h | ⟨k, run, due, hrun, hphase⟩)
    · exact .inl h
    · exact .inr ⟨due, (hwf.acquires hrun hphase nofun).2⟩
  · rintro (h | ⟨due, h⟩)
    · exact .inl h
    · obtain ⟨k, hk, hphase⟩ := Option.bind_eq_some_iff.mp h
      obtain ⟨run, hrun, heq⟩ := Option.map_eq_some_iff.mp hphase
      exact .inr ⟨k, run, due, hrun, heq⟩

/-- A registry that was obtained is disposed once, when the lease does not keep it any longer; one
that was not is never disposed; and the lease keeps at most one. -/
theorem registries_disposed (h : Reached lib s) :
    (∀ (r : ℕ) (registry : Registry N), s.registries[r]? = some registry →
      if registry.snapshot.isSome then
        (s.Keeps r ∧ registry.disposals = 0) ∨ (¬ s.Keeps r ∧ registry.disposals = 1)
      else registry.disposals = 0) ∧
      ∀ r q, s.Keeps r → s.Keeps q → r = q := by
  obtain ⟨hwf, hinv, -⟩ := h.sound
  constructor
  · intro r registry hregistry
    have hslot := slot_of_registry hregistry
    split
    · rename_i hobtained
      by_cases hkeeps : s.Keeps r
      · obtain ⟨slot, hheld, -, hdisposals⟩ := hinv.held r (hwf.keeps.mp hkeeps)
        rw [hslot] at hheld
        cases hheld
        exact .inl ⟨hkeeps, hdisposals⟩
      · have hnot := fun hr => hkeeps (hwf.keeps.mpr hr)
        exact .inr ⟨hkeeps, hinv.dropped r _ hslot hobtained (fun hr => hnot (.inl hr))
          fun hr => hnot (.inr hr)⟩
    · rename_i hnew
      exact hinv.kept r _ hslot (Bool.eq_false_iff.mpr hnew)
  · intro r q hr hq
    rcases hwf.keeps.mp hr with hr | hr
    · rcases hwf.keeps.mp hq with hq | hq
      · rw [hr] at hq
        exact Option.some.inj hq
      · exact absurd hq (hinv.not_transit hr)
    · rcases hwf.keeps.mp hq with hq | hq
      · exact absurd hr (hinv.not_transit hq)
      · obtain ⟨due, hr⟩ := hr
        obtain ⟨due', hq⟩ := hq
        rw [hr] at hq
        cases hq
        rfl

theorem registries_disposed_released : ∃ s,
    (initial 0 ()).run plain (acquires ++ [.dispose 0, .releaseResumed 0]) = some s ∧
      (∀ (r : ℕ) (registry : Registry Unit), s.registries[r]? = some registry →
        if registry.snapshot.isSome then
          (s.Keeps r ∧ registry.disposals = 0) ∨ (¬ s.Keeps r ∧ registry.disposals = 1)
        else registry.disposals = 0) ∧ ∀ r q, s.Keeps r → s.Keeps q → r = q :=
  ⟨_, rfl, registries_disposed ⟨0, (), acquires ++ [.dispose 0, .releaseResumed 0], rfl⟩⟩

/-- When a step asks for a registry, every registry obtained before has been disposed, and its
disposal has ended. -/
theorem registry_asked_alone (h : Reached lib s) {e : Event B N} (hstep : s.step lib e = some s')
    (hasks : s'.registries.length ≠ s.registries.length) {r : ℕ} {registry : Registry N}
    (hregistry : s.registries[r]? = some registry) (hobtained : registry.snapshot.isSome) :
    registry.disposals = 1 ∧ (registry.disposal = .settled ∨ registry.disposal = .failed) := by
  obtain ⟨hwf, hinv, -⟩ := h.sound
  exact hinv.all_disposed ((step_follows hwf hstep).asks hasks) (slot_of_registry hregistry)
    hobtained

/-- The lease gives its registry back, and another owner has it asked for the next. -/
def reacquires : List (Event Unit Unit) :=
  acquires ++ [.dispose 0, .releaseResumed 0, .disposalSettled 0 true, .releaseEnded 0, .acquire,
    .forRequest 1 true, .waited 1]

theorem registry_asked_alone_again : ∃ s s' : State Unit Unit Unit Unit, ∃ registry,
    (initial 0 ()).run plain reacquires = some s ∧
      s.step plain (.adapterMade (.run 1) none) = some s' ∧ s.registries[0]? = some registry ∧
      registry.disposals = 1 ∧ (registry.disposal = .settled ∨ registry.disposal = .failed) :=
  ⟨_, _, _, rfl, rfl, rfl, registry_asked_alone (e := .adapterMade (.run 1) none) (r := 0)
    (⟨0, (), reacquires, rfl⟩ : Reached plain _) rfl (by decide) rfl rfl⟩

end State

end LimitsLease
