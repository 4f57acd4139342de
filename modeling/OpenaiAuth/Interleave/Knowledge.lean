import Mathlib.Logic.Function.Basic
import OpenaiAuth.Interleave.System

/-! # What a program knows

A program sees the world only through the answers to its calls. `Learning` says
what it takes from each answer, and `Justified` that it makes only calls that
what it knows allows. That is shown of the program alone, whatever it is
answered. `Assertion` is an invariant over the world and what every program
knows; its obligations speak about one call, one move or one end of a program,
never about the text of a program. `Assertion.run_holds` puts the two together.
-/

namespace Interleave

/-- What a program knows before its first call, what it takes from an answer,
and what is left of it when the program's process has ended. -/
structure Learning (S : Sig) where
  Known : Type
  start : Known
  learn : Known → (o : S.Call) → S.Ans o → Known
  forget : Known → Known

namespace Learning

variable {S : Sig} {α β ε : Type} (L : Learning S) (may : L.Known → S.Call → Prop)

/-- From what it knows, `p` makes only calls that `may` allows then, and ends
in `Q`. -/
def Justified : L.Known → Prog S α → (α → L.Known → Prop) → Prop
  | k, .ret a, Q => Q a k
  | k, .call o c, Q => may k o ∧ ∀ r, Justified (L.learn k o r) (c r) Q

variable {L may} {k : L.Known}

theorem justified_mono {p : Prog S α} {Q Q' : α → L.Known → Prop} (h : L.Justified may k p Q)
    (hQ : ∀ a k, Q a k → Q' a k) : L.Justified may k p Q' := by
  induction p generalizing k with
  | ret a => exact hQ a k h
  | call o c ih => exact ⟨h.1, fun r => ih r (h.2 r)⟩

theorem justified_bind {p : Prog S α} {f : α → Prog S β} {Q : β → L.Known → Prop}
    (h : L.Justified may k p fun a k' => L.Justified may k' (f a) Q) :
    L.Justified may k (p >>= f) Q := by
  induction p generalizing k with
  | ret a => exact h
  | call o c ih => exact ⟨h.1, fun r => ih r (h.2 r)⟩

variable (L may)

/-- `p` makes only allowed calls, and what it returns meets `Q`; nothing is said
about what it throws. -/
def Returns (k : L.Known) (p : Throwing ε S α) (Q : α → L.Known → Prop) : Prop :=
  L.Justified may k p.run fun r k' => ∀ a, r = .ok a → Q a k'

variable {L may}

theorem returns_pure {a : α} {Q : α → L.Known → Prop} (h : Q a k) :
    L.Returns may k (pure a : Throwing ε S α) Q := by
  intro b hb
  cases hb
  exact h

theorem returns_throw {e : ε} {Q : α → L.Known → Prop} :
    L.Returns may k (throw e : Throwing ε S α) Q := by
  intro b hb
  cases hb

theorem returns_mono {p : Throwing ε S α} {Q Q' : α → L.Known → Prop} (h : L.Returns may k p Q)
    (hQ : ∀ a k, Q a k → Q' a k) : L.Returns may k p Q' :=
  justified_mono h fun _ k' hr a ha => hQ a k' (hr a ha)

theorem returns_bind {p : Throwing ε S α} {f : α → Throwing ε S β} {Q : β → L.Known → Prop}
    (h : L.Returns may k p fun a k' => L.Returns may k' (f a) Q) :
    L.Returns may k (p >>= f) Q := by
  refine justified_bind (justified_mono h ?_)
  rintro (e | a) k' hr
  · intro b hb
    cases hb
  · exact hr a rfl

/-- One call, and what its answer says when it did not throw. -/
theorem returns_perform {o : S.Call} {ans : S.Ans o → Except ε α} {Q : α → L.Known → Prop}
    (hmay : may k o) (h : ∀ r a, ans r = .ok a → Q a (L.learn k o r)) :
    L.Returns may k (Throwing.perform o ans) Q :=
  ⟨hmay, h⟩

theorem returns_attempt {p : Throwing ε S α} {Q : Except ε α → L.Known → Prop}
    (h : L.Justified may k p.run Q) : L.Returns may k (Throwing.attempt p) Q := by
  refine justified_bind (justified_mono h ?_)
  intro r k' hr b hb
  cases hb
  exact hr

variable (L may)

/-- `p` makes only allowed calls; what it returns meets `Q` and what it throws
`E`. -/
def Ends (k : L.Known) (p : Throwing ε S α) (Q : α → L.Known → Prop) (E : ε → L.Known → Prop) :
    Prop :=
  L.Justified may k p.run fun r k' => (∀ a, r = .ok a → Q a k') ∧ ∀ e, r = .error e → E e k'

variable {L may} {E : ε → L.Known → Prop}

theorem ends_pure {a : α} {Q : α → L.Known → Prop} (h : Q a k) :
    L.Ends may k (pure a : Throwing ε S α) Q E := by
  refine ⟨?_, ?_⟩
  · intro b hb
    cases hb
    exact h
  · intro e he
    cases he

theorem ends_throw {e : ε} {Q : α → L.Known → Prop} (h : E e k) :
    L.Ends may k (throw e : Throwing ε S α) Q E := by
  refine ⟨?_, ?_⟩
  · intro b hb
    cases hb
  · intro e' he
    cases he
    exact h

theorem ends_mono {p : Throwing ε S α} {Q Q' : α → L.Known → Prop} (h : L.Ends may k p Q E)
    (hQ : ∀ a k, Q a k → Q' a k) : L.Ends may k p Q' E :=
  justified_mono h fun _ k' hr => ⟨fun a ha => hQ a k' (hr.1 a ha), hr.2⟩

theorem ends_bind {p : Throwing ε S α} {f : α → Throwing ε S β} {Q : β → L.Known → Prop}
    (h : L.Ends may k p (fun a k' => L.Ends may k' (f a) Q E) E) :
    L.Ends may k (p >>= f) Q E := by
  refine justified_bind (justified_mono h ?_)
  rintro (e | a) k' hr
  · refine ⟨?_, ?_⟩
    · intro b hb
      cases hb
    · intro e' he
      cases he
      exact hr.2 e rfl
  · exact hr.1 a rfl

/-- One call, and what its answer says. -/
theorem ends_perform {o : S.Call} {ans : S.Ans o → Except ε α} {Q : α → L.Known → Prop}
    (hmay : may k o) (hok : ∀ r a, ans r = .ok a → Q a (L.learn k o r))
    (herror : ∀ r e, ans r = .error e → E e (L.learn k o r)) :
    L.Ends may k (Throwing.perform o ans) Q E :=
  ⟨hmay, fun r => ⟨hok r, herror r⟩⟩

theorem ends_attempt {p : Throwing ε S α} {Q : Except ε α → L.Known → Prop}
    (h : L.Justified may k p.run Q) : L.Ends may k (Throwing.attempt p) Q E := by
  refine justified_bind (justified_mono h ?_)
  intro r k' hr
  refine ⟨?_, ?_⟩
  · intro b hb
    cases hb
    exact hr
  · intro e he
    cases he

end Learning

/-! ## What a program did -/

/-- A call and its answer. -/
abbrev Exchange (S : Sig) := Σ o : S.Call, S.Ans o

namespace Prog

variable {S : Sig} {α : Type}

/-- `p` makes the calls of `trace`, is answered so, and is at `q` then. -/
inductive Makes : Prog S α → List (Exchange S) → Prog S α → Prop where
  | nil (p : Prog S α) : Makes p [] p
  | cons {o : S.Call} {k : S.Ans o → Prog S α} (r : S.Ans o) {trace : List (Exchange S)}
      {q : Prog S α} (h : Makes (k r) trace q) : Makes (.call o k) (⟨o, r⟩ :: trace) q

/-- Follows `trace` as far as the calls are those `p` makes. -/
def follow [DecidableEq S.Call] : Prog S α → List (Exchange S) → Option (Prog S α)
  | p, [] => some p
  | .ret _, _ :: _ => none
  | .call o k, x :: trace => if h : x.1 = o then follow (k (h ▸ x.2)) trace else none

theorem makes_of_follow [DecidableEq S.Call] {p q : Prog S α} {trace : List (Exchange S)}
    (h : p.follow trace = some q) : p.Makes trace q := by
  induction trace generalizing p with
  | nil =>
      rw [follow, Option.some.injEq] at h
      exact h ▸ .nil p
  | cons x trace ih =>
      cases p with
      | ret a => cases h
      | call o k =>
          obtain ⟨o', r⟩ := x
          rw [follow] at h
          split at h
          · rename_i heq
            cases heq
            exact .cons r (ih h)
          · cases h

/-- The value of a program that has finished. -/
def value : Prog S α → Option α
  | .ret a => some a
  | .call _ _ => none

/-- A run that follows `trace` to its end, as a computation can check it. -/
theorem makes_of_value [DecidableEq S.Call] {p : Prog S α} {trace : List (Exchange S)} {a : α}
    (h : (p.follow trace).bind value = some a) : p.Makes trace (.ret a) := by
  obtain ⟨q, hq, ha⟩ := Option.bind_eq_some_iff.mp h
  cases q with
  | ret b =>
      rw [value, Option.some.injEq] at ha
      rw [← ha]
      exact makes_of_follow hq
  | call o k => cases ha

end Prog

namespace Learning

variable {S : Sig} {α : Type} (L : Learning S)

/-- What is known after the calls of `trace`. -/
def learnAll (k : L.Known) (trace : List (Exchange S)) : L.Known :=
  trace.foldl (fun k x => L.learn k x.1 x.2) k

variable {L} {may : L.Known → S.Call → Prop} {k : L.Known}

/-- What justifies a program justifies what is left of it after any calls. -/
theorem justified_makes {p q : Prog S α} {Q : α → L.Known → Prop} {trace : List (Exchange S)}
    (h : L.Justified may k p Q) (hm : p.Makes trace q) :
    L.Justified may (L.learnAll k trace) q Q := by
  induction hm generalizing k with
  | nil => exact h
  | cons r _ ih => exact ih (h.2 r)

/-- Every call of a justified program was allowed when it was made. -/
theorem justified_call {p q : Prog S α} {Q : α → L.Known → Prop} {before after : List (Exchange S)}
    {x : Exchange S} (h : L.Justified may k p Q) (hm : p.Makes (before ++ x :: after) q) :
    may (L.learnAll k before) x.1 := by
  induction before generalizing k p with
  | nil =>
      cases hm
      exact h.1
  | cons y before ih =>
      cases hm with
      | cons r hrest => exact ih (h.2 r) hrest

/-- A program that forgets nothing: what it knows is what it did so far. -/
def history (S : Sig) : Learning S where
  Known := List (Exchange S)
  start := []
  learn past o r := past ++ [⟨o, r⟩]
  forget := id

@[simp] theorem history_start : (history S).start = [] := rfl

theorem learnAll_history (past trace : List (Exchange S)) :
    (history S).learnAll past trace = past ++ trace := by
  induction trace generalizing past with
  | nil => exact (List.append_nil past).symm
  | cons x trace ih =>
      have hstep : (history S).learnAll past (x :: trace) =
          (history S).learnAll (past ++ [x]) trace := rfl
      rw [hstep, ih, List.append_assoc, List.singleton_append]

end Learning

/-! ## Assertions -/

/-- An invariant of the world and of what the programs know. `thread` limits
which programs there are and `okMove` what happens beside them. -/
structure Assertion {S : Sig} (M : Machine S) (L : Learning S) (may : L.Known → S.Call → Prop)
    where
  inv : M.World → (Nat → L.Known) → Prop
  thread : Nat → Prop
  okMove : M.Move → M.World → Prop
  call : ∀ {t o ch w r w' g}, inv w g → thread t → may (g t) o → M.exec t o ch w = some (r, w') →
    inv w' (Function.update g t (L.learn (g t) o r))
  move : ∀ {m w w' g}, inv w g → okMove m w → M.move m w = some w' → inv w' g
  halt : ∀ {t w g}, inv w g → inv (M.halt t w) (Function.update g t (L.forget (g t)))

namespace Assertion

variable {S : Sig} {M : Machine S} {L : Learning S} {may : L.Known → S.Call → Prop} {α : Type}
  (A : Assertion M L may)

/-- What holds of a configuration when its programs know `g`. -/
structure Holds (c : Config M α) (g : Nat → L.Known) : Prop where
  inv : A.inv c.world g
  justified : ∀ t p, c.thread t = some p → L.Justified may (g t) p fun _ _ => True
  thread : ∀ t p, c.thread t = some p → A.thread t
  unused : ∀ t, c.next ≤ t → c.thread t = none ∧ g t = L.start

/-- The same, where the programs that have ended did so in `Q`. -/
structure HoldsTo (Q : α → L.Known → Prop) (c : Config M α) (g : Nat → L.Known) : Prop where
  inv : A.inv c.world g
  justified : ∀ t p, c.thread t = some p → L.Justified may (g t) p Q
  thread : ∀ t p, c.thread t = some p → A.thread t
  unused : ∀ t, c.next ≤ t → c.thread t = none ∧ g t = L.start

/-- The events the assertion speaks about, where only programs in `start` are
started. -/
def Ok (start : Prog S α → Prop) (c : Config M α) : Event M α → Prop
  | .start p => start p ∧ A.thread c.next
  | .act _ _ => True
  | .stop _ => True
  | .move m => A.okMove m c.world

variable {start : Prog S α → Prop} {A}

theorem step_holdsTo {Q : α → L.Known → Prop}
    (hstart : ∀ p, start p → L.Justified may L.start p Q) {c c' : Config M α} {e : Event M α}
    {g : Nat → L.Known} (hc : A.HoldsTo Q c g) (hok : A.Ok start c e) (hs : c.step e = some c') :
    ∃ g', A.HoldsTo Q c' g' := by
  cases e with
  | start p =>
      simp only [Config.step, Option.some.injEq] at hs
      subst hs
      refine ⟨g, hc.inv, ?_, ?_, ?_⟩
      · intro t q hq
        by_cases ht : t = c.next
        · subst ht
          have hpq : p = q := by simpa [Config.setThread] using hq
          rw [← hpq, (hc.unused _ le_rfl).2]
          exact hstart p hok.1
        · exact hc.justified t q (by simpa [Config.setThread, ht] using hq)
      · intro t q hq
        by_cases ht : t = c.next
        · rw [ht]
          exact hok.2
        · exact hc.thread t q (by simpa [Config.setThread, ht] using hq)
      · intro t ht
        have hlt : c.next < t := ht
        refine ⟨?_, (hc.unused t hlt.le).2⟩
        simpa [Config.setThread, hlt.ne'] using (hc.unused t hlt.le).1
  | act t ch =>
      simp only [Config.step] at hs
      split at hs
      · rename_i o k ht
        obtain ⟨⟨r, w'⟩, hx, rfl⟩ := Option.map_eq_some_iff.mp hs
        have hjust := hc.justified t _ ht
        refine ⟨Function.update g t (L.learn (g t) o r),
          A.call hc.inv (hc.thread t _ ht) hjust.1 hx, ?_, ?_, ?_⟩
        · intro i q hq
          by_cases hi : i = t
          · subst hi
            have hkq : k r = q := by simpa [Config.setThread] using hq
            rw [← hkq, Function.update_self]
            exact hjust.2 r
          · rw [Function.update_of_ne hi]
            exact hc.justified i q (by simpa [Config.setThread, hi] using hq)
        · intro i q hq
          by_cases hi : i = t
          · rw [hi]
            exact hc.thread t _ ht
          · exact hc.thread i q (by simpa [Config.setThread, hi] using hq)
        · intro i hi
          have hne : i ≠ t := by
            rintro rfl
            rw [(hc.unused i hi).1] at ht
            cases ht
          refine ⟨by simpa [Config.setThread, hne] using (hc.unused i hi).1, ?_⟩
          rw [Function.update_of_ne hne]
          exact (hc.unused i hi).2
      · cases hs
  | stop t =>
      obtain ⟨p, ht, rfl⟩ := Option.map_eq_some_iff.mp hs
      refine ⟨Function.update g t (L.forget (g t)), A.halt hc.inv, ?_, ?_, ?_⟩
      · intro i q hq
        by_cases hi : i = t
        · subst hi
          simp [Config.setThread] at hq
        · rw [Function.update_of_ne hi]
          exact hc.justified i q (by simpa [Config.setThread, hi] using hq)
      · intro i q hq
        by_cases hi : i = t
        · subst hi
          simp [Config.setThread] at hq
        · exact hc.thread i q (by simpa [Config.setThread, hi] using hq)
      · intro i hi
        have hne : i ≠ t := by
          rintro rfl
          rw [(hc.unused i hi).1] at ht
          cases ht
        refine ⟨by simpa [Config.setThread, hne] using (hc.unused i hi).1, ?_⟩
        rw [Function.update_of_ne hne]
        exact (hc.unused i hi).2
  | move m =>
      obtain ⟨w', hm, rfl⟩ := Option.map_eq_some_iff.mp hs
      exact ⟨g, A.move hc.inv hok hm, hc.justified, hc.thread, hc.unused⟩

/-- The run rule: every run of programs that make only justified calls keeps the
invariant, for some account of what they know. -/
theorem run_holdsTo {Q : α → L.Known → Prop}
    (hstart : ∀ p, start p → L.Justified may L.start p Q) {c c' : Config M α}
    {es : List (Event M α)} {g : Nat → L.Known} (hc : A.HoldsTo Q c g)
    (hok : Config.Meets (A.Ok start) c es) (hrun : c.run es = some c') :
    ∃ g', A.HoldsTo Q c' g' := by
  induction es generalizing c g with
  | nil =>
      simp only [Config.run, Option.some.injEq] at hrun
      exact ⟨g, hrun ▸ hc⟩
  | cons e es ih =>
      obtain ⟨d, hd, hrun'⟩ := Option.bind_eq_some_iff.mp hrun
      obtain ⟨g', hg'⟩ := step_holdsTo hstart hc hok.1 hd
      exact ih hg' (hok.2 d hd) hrun'

theorem holds_iff {c : Config M α} {g : Nat → L.Known} :
    A.Holds c g ↔ A.HoldsTo (fun _ _ => True) c g :=
  ⟨fun h => ⟨h.inv, h.justified, h.thread, h.unused⟩, fun h => ⟨h.inv, h.justified, h.thread, h.unused⟩⟩

/-- The run rule where nothing is said of how the programs end. -/
theorem run_holds (hstart : ∀ p, start p → L.Justified may L.start p fun _ _ => True)
    {c c' : Config M α} {es : List (Event M α)} {g : Nat → L.Known} (hc : A.Holds c g)
    (hok : Config.Meets (A.Ok start) c es) (hrun : c.run es = some c') : ∃ g', A.Holds c' g' := by
  obtain ⟨g', hg'⟩ := run_holdsTo hstart (holds_iff.mp hc) hok hrun
  exact ⟨g', holds_iff.mpr hg'⟩

theorem initial_holds {w : M.World} (hi : A.inv w fun _ => L.start) :
    A.Holds (Config.initial w : Config M α) fun _ => L.start where
  inv := hi
  justified := fun _ _ h => by cases h
  thread := fun _ _ h => by cases h
  unused := fun _ _ => ⟨rfl, rfl⟩

/-- Where any program may be started and anything may happen beside the programs,
every configuration that is reached is one the assertion holds of. -/
theorem holdsTo_of_runsTo {Q : α → L.Known → Prop}
    (hstart : ∀ p, start p → L.Justified may L.start p Q) (hthread : ∀ t, A.thread t)
    (hmove : ∀ m w, A.okMove m w) {w : M.World} (hi : A.inv w fun _ => L.start) {c : Config M α}
    (h : Config.RunsTo start (Config.initial w) c) : ∃ g, A.HoldsTo Q c g := by
  obtain ⟨events, hstarts, hrun⟩ := h
  have hok : Config.Meets (A.Ok start) (Config.initial w) events := by
    refine Config.meets_of_forall ?_ _
    intro e he c
    cases e with
    | start p => exact ⟨hstarts p he, hthread c.next⟩
    | act t ch => exact trivial
    | stop t => exact trivial
    | move m => exact hmove m c.world
  have hinitial : A.HoldsTo Q (Config.initial w : Config M α) fun _ => L.start :=
    ⟨hi, fun _ _ h => (by cases h), fun _ _ h => (by cases h), fun _ _ => ⟨rfl, rfl⟩⟩
  exact run_holdsTo hstart hinitial hok hrun

/-- The invariant holds of every world that is reached. -/
theorem inv_of_runsTo (hstart : ∀ p, start p → L.Justified may L.start p fun _ _ => True)
    (hthread : ∀ t, A.thread t) (hmove : ∀ m w, A.okMove m w) {w : M.World}
    (hi : A.inv w fun _ => L.start) {c : Config M α}
    (h : Config.RunsTo start (Config.initial w) c) : ∃ g, A.inv c.world g := by
  obtain ⟨g, hholds⟩ := holdsTo_of_runsTo hstart hthread hmove hi h
  exact ⟨g, hholds.inv⟩

end Assertion

end Interleave
