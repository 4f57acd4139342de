import OpenaiAuth.Interleave.Prog
import Mathlib.Order.Nat

/-! # Interleaved runs and rely/guarantee reasoning

Any number of programs run over one world. A run is a list of events: a new
program starts, one program makes its next call, one program stops for good
(its process died), or the environment moves on its own. Every choice the
world makes is part of the event, so a run can be evaluated.

`Contract` is the proof rule. It fixes an invariant of the world, what each
program may see the others do (`rely`), and the condition under which a call
keeps both (`pre`). `Contract.Safe` is then one obligation for each program,
proved without looking at the others, and `Contract.run_safe` carries it to
every interleaving.
-/

namespace Interleave

/-- A world for the calls of `S`. `exec t o c w` is what call `o` of program
`t` answers and leaves behind when the world chooses `c`; `none` when that
choice is not one it has. `halt` is what the end of a program's process does. -/
structure Machine (S : Sig) where
  World : Type
  Choice : Type
  Move : Type
  exec : Nat → (o : S.Call) → Choice → World → Option (S.Ans o × World)
  move : Move → World → Option World
  halt : Nat → World → World

/-- The world, the programs under way by number, and the next free number. -/
structure Config {S : Sig} (M : Machine S) (α : Type) where
  world : M.World
  thread : Nat → Option (Prog S α)
  next : Nat

/-- One event of a run. -/
inductive Event {S : Sig} (M : Machine S) (α : Type) where
  | start (p : Prog S α)
  | act (t : Nat) (c : M.Choice)
  | stop (t : Nat)
  | move (m : M.Move)

namespace Config

variable {S : Sig} {M : Machine S} {α : Type}

/-- Nothing is running yet. -/
def initial (w : M.World) : Config M α where
  world := w
  thread := fun _ => none
  next := 0

/-- `c` with program `t` now at `p`. -/
def setThread (c : Config M α) (t : Nat) (p : Option (Prog S α)) : Config M α :=
  { c with thread := fun i => if i = t then p else c.thread i }

@[simp] theorem setThread_world (c : Config M α) (t : Nat) (p : Option (Prog S α)) :
    (c.setThread t p).world = c.world := rfl

@[simp] theorem setThread_next (c : Config M α) (t : Nat) (p : Option (Prog S α)) :
    (c.setThread t p).next = c.next := rfl

@[simp] theorem setThread_self (c : Config M α) (t : Nat) (p : Option (Prog S α)) :
    (c.setThread t p).thread t = p := by
  simp [setThread]

theorem setThread_ne (c : Config M α) {t i : Nat} (p : Option (Prog S α)) (h : i ≠ t) :
    (c.setThread t p).thread i = c.thread i := by
  simp [setThread, h]

/-- One event; `none` when it cannot happen here. -/
def step (c : Config M α) : Event M α → Option (Config M α)
  | .start p => some { c.setThread c.next (some p) with next := c.next + 1 }
  | .act t ch =>
      match c.thread t with
      | some (.call o k) =>
          (M.exec t o ch c.world).map fun r =>
            { c.setThread t (some (k r.1)) with world := r.2 }
      | _ => none
  | .stop t => (c.thread t).map fun _ => { c.setThread t none with world := M.halt t c.world }
  | .move m => (M.move m c.world).map fun w => { c with world := w }

/-- The events of a run, first to last. -/
def run (c : Config M α) : List (Event M α) → Option (Config M α)
  | [] => some c
  | e :: es => (c.step e).bind fun c' => c'.run es

theorem run_append (c : Config M α) (es fs : List (Event M α)) :
    c.run (es ++ fs) = (c.run es).bind fun c' => c'.run fs := by
  induction es generalizing c with
  | nil => rfl
  | cons e es ih =>
      simp only [List.cons_append, run]
      cases c.step e with
      | none => rfl
      | some c' => simpa using ih c'

/-- Every event of a run that starts at `c` meets `ok` where it happens. -/
def Meets (ok : Config M α → Event M α → Prop) : Config M α → List (Event M α) → Prop
  | _, [] => True
  | c, e :: es => ok c e ∧ ∀ c', c.step e = some c' → Meets ok c' es

theorem meets_of_forall {ok : Config M α → Event M α → Prop} {es : List (Event M α)}
    (h : ∀ e ∈ es, ∀ c, ok c e) (c : Config M α) : Meets ok c es := by
  induction es generalizing c with
  | nil => trivial
  | cons e es ih =>
      exact ⟨h e List.mem_cons_self c, fun c' _ =>
        ih (fun e' he' => h e' (List.mem_cons_of_mem _ he')) c'⟩

theorem meets_mono {ok ok' : Config M α → Event M α → Prop} {es : List (Event M α)}
    (h : ∀ e ∈ es, ∀ c, ok c e → ok' c e) {c : Config M α} (hmeets : Meets ok c es) :
    Meets ok' c es := by
  induction es generalizing c with
  | nil => trivial
  | cons e es ih =>
      exact ⟨h e List.mem_cons_self c hmeets.1, fun c' hstep =>
        ih (fun e' he' => h e' (List.mem_cons_of_mem _ he')) (hmeets.2 c' hstep)⟩

/-- A run that starts only programs in `start` leads from `c` to `d`. -/
def RunsTo (start : Prog S α → Prop) (c d : Config M α) : Prop :=
  ∃ es, (∀ p, Event.start p ∈ es → start p) ∧ c.run es = some d

namespace RunsTo

variable {start : Prog S α → Prop} {c d e : Config M α}

theorem refl : RunsTo start c c :=
  ⟨[], by simp, rfl⟩

theorem trans (h : RunsTo start c d) (h' : RunsTo start d e) : RunsTo start c e := by
  obtain ⟨es, hes, hrun⟩ := h
  obtain ⟨fs, hfs, hrun'⟩ := h'
  refine ⟨es ++ fs, fun p hp => (List.mem_append.mp hp).elim (hes p) (hfs p), ?_⟩
  rw [run_append, hrun]
  exact hrun'

end RunsTo

end Config

/-! ## One program at a time -/

namespace Machine

variable {S : Sig} (M : Machine S) {α : Type}

/-- Program `t` makes one call after the other, with the choices `chs`, while
nothing else happens. -/
def drive (t : Nat) : List M.Choice → Prog S α → M.World → Option (Prog S α × M.World)
  | [], p, w => some (p, w)
  | _ :: _, .ret _, _ => none
  | ch :: chs, .call o k, w => (M.exec t o ch w).bind fun r => drive t chs (k r.1) r.2

variable {M}

theorem drive_append (t : Nat) (chs chs' : List M.Choice) (p : Prog S α) (w : M.World) :
    M.drive t (chs ++ chs') p w =
      (M.drive t chs p w).bind fun r => M.drive t chs' r.1 r.2 := by
  induction chs generalizing p w with
  | nil => rfl
  | cons ch chs ih =>
      cases p with
      | ret a => rfl
      | call o k =>
          simp only [List.cons_append, drive]
          cases M.exec t o ch w with
          | none => rfl
          | some r => exact ih (k r.1) r.2

/-- Driving one program is a run, and it leaves the others where they are. -/
theorem runsTo_drive (start : Prog S α → Prop) {t : Nat} {chs : List M.Choice} {c : Config M α}
    {p q : Prog S α} {w : M.World} (ht : c.thread t = some p)
    (h : M.drive t chs p c.world = some (q, w)) :
    ∃ d, Config.RunsTo start c d ∧ d.world = w ∧ d.thread t = some q ∧
      d.next = c.next ∧ ∀ i, i ≠ t → d.thread i = c.thread i := by
  induction chs generalizing c p with
  | nil =>
      obtain ⟨rfl, rfl⟩ := Prod.mk.inj (Option.some.inj h)
      exact ⟨c, .refl, rfl, ht, rfl, fun _ _ => rfl⟩
  | cons ch chs ih =>
      cases p with
      | ret a => cases h
      | call o k =>
          obtain ⟨⟨r, w₁⟩, hx, hd⟩ := Option.bind_eq_some_iff.mp h
          let c₁ : Config M α := { c.setThread t (some (k r)) with world := w₁ }
          have hstep : c.run [.act t ch] = some c₁ := by
            simp [Config.run, Config.step, ht, hx, c₁]
          obtain ⟨d, hrun, hw, hq, hn, hi⟩ := ih (c := c₁) (Config.setThread_self c t _) hd
          refine ⟨d, .trans ⟨[.act t ch], by simp, hstep⟩ hrun, hw, hq, hn, fun i hne => ?_⟩
          rw [hi i hne]
          exact Config.setThread_ne c _ hne

/-- So is starting a program and driving it at once. -/
theorem runsTo_start {start : Prog S α → Prop} {chs : List M.Choice} {c : Config M α}
    {p q : Prog S α} {w : M.World} (hp : start p)
    (h : M.drive c.next chs p c.world = some (q, w)) :
    ∃ d, Config.RunsTo start c d ∧ d.world = w ∧ d.thread c.next = some q ∧
      d.next = c.next + 1 ∧ ∀ i, i ≠ c.next → d.thread i = c.thread i := by
  let c₁ : Config M α := { c.setThread c.next (some p) with next := c.next + 1 }
  have hstep : c.run [.start p] = some c₁ := rfl
  obtain ⟨d, hrun, hw, hq, hn, hi⟩ :=
    runsTo_drive start (c := c₁) (Config.setThread_self c _ _) h
  refine ⟨d, .trans ⟨[.start p], fun p' hp' => ?_, hstep⟩ hrun, hw, hq, hn, fun i hne => ?_⟩
  · cases List.mem_singleton.mp hp'
    exact hp
  · rw [hi i hne]
    exact Config.setThread_ne c _ hne

end Machine

/-! ## The proof rule -/

/-- An invariant, an interference relation and a condition on calls that fit
together. `okCall` and `okMove` limit the runs spoken about; both are `True`
for a statement about every run. -/
structure Contract {S : Sig} (M : Machine S) where
  inv : M.World → Prop
  /-- What program `t` may see happen between two of its calls. -/
  rely : Nat → M.World → M.World → Prop
  /-- No program `t` has started yet. -/
  fresh : Nat → M.World → Prop
  /-- What program `t` must know to make call `o`. -/
  pre : Nat → S.Call → M.World → Prop
  okCall : Nat → S.Call → M.Choice → M.World → Prop
  okMove : M.Move → M.World → Prop
  rely_refl : ∀ t w, rely t w w
  rely_trans : ∀ {t w₁ w₂ w₃}, rely t w₁ w₂ → rely t w₂ w₃ → rely t w₁ w₃
  rely_fresh : ∀ {t w w'}, rely t w w' → fresh t w → fresh t w'
  call_inv : ∀ {t o ch w r w'}, inv w → pre t o w → okCall t o ch w →
    M.exec t o ch w = some (r, w') → inv w'
  call_rely : ∀ {t o ch w r w' t'}, inv w → pre t o w → okCall t o ch w →
    M.exec t o ch w = some (r, w') → t' ≠ t → rely t' w w'
  move_inv : ∀ {m w w'}, inv w → okMove m w → M.move m w = some w' → inv w'
  move_rely : ∀ {m w w' t}, inv w → okMove m w → M.move m w = some w' → rely t w w'
  halt_inv : ∀ {t w}, inv w → inv (M.halt t w)
  halt_rely : ∀ {t w t'}, inv w → t' ≠ t → rely t' w (M.halt t w)

namespace Contract

variable {S : Sig} {M : Machine S} {α β ε : Type} (K : Contract M)

/-- Program `t`, now at `p` in world `w`, makes only calls whose condition
holds, whatever the others do in between, and ends in `Q`. -/
def Safe (t : Nat) : Prog S α → (α → M.World → Prop) → M.World → Prop
  | .ret a, Q, w => Q a w
  | .call o k, Q, w => ∀ w₁, K.rely t w w₁ → K.inv w₁ →
      K.pre t o w₁ ∧ ∀ ch r w₂, K.okCall t o ch w₁ → M.exec t o ch w₁ = some (r, w₂) →
        K.inv w₂ → Safe t (k r) Q w₂

@[simp] theorem safe_ret {t : Nat} {a : α} {Q : α → M.World → Prop} {w : M.World} :
    K.Safe t (.ret a) Q w ↔ Q a w := Iff.rfl

theorem safe_mono {t : Nat} {p : Prog S α} {Q Q' : α → M.World → Prop} {w : M.World}
    (h : K.Safe t p Q w) (hQ : ∀ a w, Q a w → Q' a w) : K.Safe t p Q' w := by
  induction p generalizing w with
  | ret a => exact hQ a w h
  | call o k ih =>
      intro w₁ hr hi
      obtain ⟨hpre, hk⟩ := h w₁ hr hi
      exact ⟨hpre, fun ch r w₂ hok hx hi₂ => ih r (hk ch r w₂ hok hx hi₂)⟩

theorem safe_bind {t : Nat} {p : Prog S α} {f : α → Prog S β} {Q : β → M.World → Prop}
    {w : M.World} (h : K.Safe t p (fun a => K.Safe t (f a) Q) w) :
    K.Safe t (p >>= f) Q w := by
  induction p generalizing w with
  | ret a => exact h
  | call o k ih =>
      intro w₁ hr hi
      obtain ⟨hpre, hk⟩ := h w₁ hr hi
      exact ⟨hpre, fun ch r w₂ hok hx hi₂ => ih r (hk ch r w₂ hok hx hi₂)⟩

/-- The bind rule for programs that may throw: what is thrown ends the whole. -/
theorem safe_bindThrowing {t : Nat} {p : Throwing ε S α} {f : α → Throwing ε S β}
    {Q : Except ε β → M.World → Prop} {w : M.World}
    (h : K.Safe t p.run (fun r => match r with
      | .ok a => K.Safe t (f a).run Q
      | .error e => Q (.error e)) w) :
    K.Safe t (p >>= f).run Q w := by
  refine K.safe_bind (K.safe_mono h ?_)
  rintro (e | a) w' hw
  · exact hw
  · exact hw

theorem safe_attempt {t : Nat} {p : Throwing ε S α}
    {Q : Except ε (Except ε α) → M.World → Prop} {w : M.World}
    (h : K.Safe t p.run (fun r => Q (.ok r)) w) :
    K.Safe t (Throwing.attempt p).run Q w :=
  K.safe_bind h

/-- What others do in between never breaks an obligation whose end cannot
be disturbed. -/
theorem safe_stable {t : Nat} {p : Prog S α} {Q : α → M.World → Prop} {w w' : M.World}
    (h : K.Safe t p Q w) (hr : K.rely t w w') (hQ : ∀ a, Q a w → Q a w') :
    K.Safe t p Q w' := by
  cases p with
  | ret a => exact hQ a h
  | call o k => exact fun w₁ hr₁ => h w₁ (K.rely_trans hr hr₁)

/-- What holds of every configuration of a run. -/
structure Holds (c : Config M α) : Prop where
  inv : K.inv c.world
  safe : ∀ t p, c.thread t = some p → K.Safe t p (fun _ _ => True) c.world
  unused : ∀ t, c.next ≤ t → c.thread t = none ∧ K.fresh t c.world

/-- The events `okCall` and `okMove` describe, where only programs in `start`
are started. -/
def Ok (start : Prog S α → Prop) (c : Config M α) : Event M α → Prop
  | .start p => start p
  | .act t ch => ∀ o k, c.thread t = some (.call o k) → K.okCall t o ch c.world
  | .stop _ => True
  | .move m => K.okMove m c.world

variable {start : Prog S α → Prop}

theorem step_holds
    (hstart : ∀ p t w, start p → K.inv w → K.fresh t w → K.Safe t p (fun _ _ => True) w)
    {c c' : Config M α} {e : Event M α} (hc : K.Holds c) (hok : K.Ok start c e)
    (hs : c.step e = some c') : K.Holds c' := by
  cases e with
  | start p =>
      simp only [Config.step, Option.some.injEq] at hs
      subst hs
      refine ⟨hc.inv, ?_, ?_⟩
      · intro t q hq
        by_cases ht : t = c.next
        · subst ht
          have hpq : p = q := by simpa [Config.setThread] using hq
          subst hpq
          exact hstart p c.next c.world hok hc.inv (hc.unused c.next le_rfl).2
        · exact hc.safe t q (by simpa [Config.setThread, ht] using hq)
      · intro t ht
        have hlt : c.next < t := ht
        refine ⟨?_, (hc.unused t hlt.le).2⟩
        simpa [Config.setThread, hlt.ne'] using (hc.unused t hlt.le).1
  | act t ch =>
      simp only [Config.step] at hs
      split at hs
      · rename_i o k ht
        obtain ⟨⟨r, w'⟩, hx, rfl⟩ := Option.map_eq_some_iff.mp hs
        have hsafe := hc.safe t _ ht c.world (K.rely_refl t _) hc.inv
        have hokc := hok o k ht
        have hinv' : K.inv w' := K.call_inv hc.inv hsafe.1 hokc hx
        have hother : ∀ t', t' ≠ t → K.rely t' c.world w' := fun t' ht' =>
          K.call_rely hc.inv hsafe.1 hokc hx ht'
        refine ⟨hinv', ?_, ?_⟩
        · intro i q hq
          by_cases hi : i = t
          · subst hi
            have hkq : k r = q := by simpa [Config.setThread] using hq
            subst hkq
            exact hsafe.2 ch r w' hokc hx hinv'
          · have hq' : c.thread i = some q := by simpa [Config.setThread, hi] using hq
            exact K.safe_stable (hc.safe i q hq') (hother i hi) fun _ _ => trivial
        · intro i hi
          have hne : i ≠ t := by
            rintro rfl
            rw [(hc.unused i hi).1] at ht
            cases ht
          refine ⟨by simpa [Config.setThread, hne] using (hc.unused i hi).1, ?_⟩
          exact K.rely_fresh (hother i hne) (hc.unused i hi).2
      · cases hs
  | stop t =>
      obtain ⟨p, ht, rfl⟩ := Option.map_eq_some_iff.mp hs
      refine ⟨K.halt_inv hc.inv, ?_, ?_⟩
      · intro i q hq
        by_cases hi : i = t
        · subst hi
          simp [Config.setThread] at hq
        · have hq' : c.thread i = some q := by simpa [Config.setThread, hi] using hq
          exact K.safe_stable (hc.safe i q hq') (K.halt_rely hc.inv hi) fun _ _ => trivial
      · intro i hi
        have hne : i ≠ t := by
          rintro rfl
          rw [(hc.unused i hi).1] at ht
          cases ht
        refine ⟨by simpa [Config.setThread, hne] using (hc.unused i hi).1, ?_⟩
        exact K.rely_fresh (K.halt_rely hc.inv hne) (hc.unused i hi).2
  | move m =>
      obtain ⟨w', hm, rfl⟩ := Option.map_eq_some_iff.mp hs
      refine ⟨K.move_inv hc.inv hok hm, ?_, ?_⟩
      · intro i q hq
        exact K.safe_stable (hc.safe i q hq) (K.move_rely hc.inv hok hm) fun _ _ => trivial
      · intro i hi
        exact ⟨(hc.unused i hi).1, K.rely_fresh (K.move_rely hc.inv hok hm) (hc.unused i hi).2⟩

/-- The run rule: when every program that may start is safe from a fresh
start, the invariant holds after every run that meets the conditions. -/
theorem run_holds
    (hstart : ∀ p t w, start p → K.inv w → K.fresh t w → K.Safe t p (fun _ _ => True) w)
    {c c' : Config M α} {es : List (Event M α)} (hc : K.Holds c)
    (hok : Config.Meets (K.Ok start) c es) (hrun : c.run es = some c') : K.Holds c' := by
  induction es generalizing c with
  | nil =>
      simp only [Config.run, Option.some.injEq] at hrun
      exact hrun ▸ hc
  | cons e es ih =>
      obtain ⟨d, hd, hrun'⟩ := Option.bind_eq_some_iff.mp hrun
      exact ih (K.step_holds hstart hc hok.1 hd) (hok.2 d hd) hrun'

theorem initial_holds {w : M.World} (hi : K.inv w) (hf : ∀ t, K.fresh t w) :
    K.Holds (Config.initial w : Config M α) where
  inv := hi
  safe := fun _ _ h => by cases h
  unused := fun t _ => ⟨rfl, hf t⟩

end Contract

end Interleave
