import Mathlib.Logic.Relation
import OpenaiAuth.LimitsLease.Lease

/-! # What a lease holds

The part of a lease that decides which registries there are and who disposes them: a machine of its
own, whose steps the steps of `State` are made of. At most one acquisition is under way, so one
phase is enough.
-/

namespace LimitsLease

/-- A registry as the machine sees it. -/
structure Slot where
  obtained : Bool := false
  disposals : ℕ := 0
  disposal : Disposal := .none
deriving DecidableEq

structure Core where
  registry : Option ℕ := none
  fallback : Bool := false
  releasing : Option Releasing := none
  slots : List Slot := []
  late : List Attempt := []
  /-- Of the acquisition that is under way. -/
  phase : Option RunPhase := none
deriving DecidableEq

namespace Core

def disposeSlot (slot : Slot) : Slot :=
  { slot with disposals := slot.disposals + 1, disposal := .pending }

variable (c : Core)

def dispose (r : ℕ) : Core := { c with slots := c.slots.modify r disposeSlot }

def disposal (r : ℕ) : Disposal := (c.slots[r]?.map (·.disposal)).getD .none

/-- The lease has dropped its registry, if it had one. -/
def stopped : Core :=
  match c.registry with
  | none => { c with fallback := true }
  | some r => { c.dispose r with fallback := true, registry := none, releasing := some ⟨r, true⟩ }

def settled (promise : Option Releasing) : Prop :=
  ∀ p ∈ promise, c.disposal p.registry = .settled ∨ c.disposal p.registry = .failed

/-- The promise has rejected: nobody has caught the failure. -/
def rejects (promise : Option Releasing) : Prop :=
  ∃ p ∈ promise, p.caught = false ∧ c.disposal p.registry = .failed

/-- The loop of `acquire` may take another turn. -/
def MayTry : Prop :=
  (∃ promise, c.phase = some (.releasing promise) ∧ c.settled promise ∧ ¬ c.rejects promise) ∨
    ∃ due, c.phase = some (.retrying due)

/-- Nothing is left to take back from where the acquisition is. -/
def MayEnd : Prop :=
  (∃ promise, c.phase = some (.releasing promise)) ∨ (∃ due, c.phase = some (.retrying due)) ∨
    ∃ error due, c.phase = some (.attempting (.failed error) due)

inductive Moves : Core → Core → Prop
  | stop {c : Core} (h : c.fallback = false) : Moves c c.stopped
  | start {c : Core} (hphase : c.phase = none) (hregistry : c.registry = none) :
      Moves c { c with phase := some (.releasing c.releasing) }
  | tryAdapter {c : Core} (h : c.MayTry) (hfallback : c.fallback = false) (due : ℤ) :
      Moves c { c with phase := some (.attempting .adapter due) }
  | tryRegistry {c : Core} (h : c.MayTry) (hfallback : c.fallback = false) (due : ℤ) :
      Moves c { c with
        slots := c.slots ++ [{}]
        phase := some (.attempting (.acquiring c.slots.length) due) }
  | made {c : Core} {due : ℤ} (h : c.phase = some (.attempting .adapter due)) :
      Moves c { c with
        slots := c.slots ++ [{}]
        phase := some (.attempting (.acquiring c.slots.length) due) }
  | failed {c : Core} {attempt : Attempt} {due : ℤ} (h : c.phase = some (.attempting attempt due))
      (hattempt : attempt = .adapter ∨ ∃ r, attempt = .acquiring r) (error : AcquireError) :
      Moves c { c with phase := some (.attempting (.failed error) due) }
  | got {c : Core} {r : ℕ} {due : ℤ} (h : c.phase = some (.attempting (.acquiring r) due)) :
      Moves c { c with
        slots := c.slots.modify r fun slot => { slot with obtained := true }
        phase := some (.attempting (.got r) due) }
  | hold {c : Core} {r : ℕ} {due : ℤ} (h : c.phase = some (.attempting (.got r) due))
      (hfallback : c.fallback = false) :
      Moves c { c with registry := some r, phase := some (.over false) }
  | dispose {c : Core} {r : ℕ} {due : ℤ} (h : c.phase = some (.attempting (.got r) due))
      (hfallback : c.fallback = true) : Moves c { c.dispose r with phase := some (.over false) }
  | leave {c : Core} {attempt : Attempt} {due : ℤ} (h : c.phase = some (.attempting attempt due))
      (hfallback : c.fallback = true)
      (hattempt : attempt = .adapter ∨ ∃ r, attempt = .acquiring r) :
      Moves c { c with late := c.late ++ [attempt], phase := some (.over false) }
  | retry {c : Core} {error : AcquireError} {due : ℤ}
      (h : c.phase = some (.attempting (.failed error) due)) (later : ℤ) :
      Moves c { c with phase := some (.retrying later) }
  | finish {c : Core} (h : c.MayEnd) (rejected : Bool) :
      Moves c { c with phase := some (.over rejected) }
  | clear {c : Core} {rejected : Bool} (h : c.phase = some (.over rejected)) :
      Moves c { c with phase := none }
  | lateMade {c : Core} {j : ℕ} (h : c.late[j]? = some .adapter) :
      Moves c { c with
        slots := c.slots ++ [{}]
        late := c.late.set j (.acquiring c.slots.length) }
  | lateFailed {c : Core} {j : ℕ} {attempt : Attempt} (h : c.late[j]? = some attempt)
      (error : AcquireError) : Moves c { c with late := c.late.set j (.failed error) }
  | lateGot {c : Core} {j r : ℕ} (h : c.late[j]? = some (.acquiring r)) :
      Moves c { c with
        slots := c.slots.modify r fun slot => disposeSlot { slot with obtained := true }
        late := c.late.set j (.got r) }
  | release {c : Core} {r : ℕ} (h : c.registry = some r) :
      Moves c { c.dispose r with registry := none, releasing := some ⟨r, false⟩ }
  | settle {c : Core} {r : ℕ} {disposal : Disposal} (h : c.disposal r = .pending)
      (hsettled : disposal = .settled ∨ disposal = .failed) :
      Moves c { c with slots := c.slots.modify r fun slot => { slot with disposal := disposal } }

/-! ## The invariant -/

/-- The acquisition has not ended. -/
def Acquires : Prop := ∃ phase, c.phase = some phase ∧ ∀ rejected, phase ≠ .over rejected

/-- The loop of the acquisition is entered. -/
def Loops : Prop :=
  (∃ attempt due, c.phase = some (.attempting attempt due)) ∨ ∃ due, c.phase = some (.retrying due)

/-- The registry is on its way to the lease. -/
def Transit (r : ℕ) : Prop := ∃ due, c.phase = some (.attempting (.got r) due)

structure Inv : Prop where
  idle : c.Acquires → c.registry = none
  fallback : c.fallback = true → c.registry = none
  held : ∀ r, c.registry = some r ∨ c.Transit r → ∃ slot : Slot, c.slots[r]? = some slot ∧
    slot.obtained = true ∧ slot.disposals = 0
  /-- Whoever waits for a registry will be the first to have it. -/
  asked : ∀ r, (∃ due, c.phase = some (.attempting (.acquiring r) due)) ∨ .acquiring r ∈ c.late →
    ∃ slot : Slot, c.slots[r]? = some slot ∧ slot.obtained = false ∧ slot.disposals = 0
  kept : ∀ (r : ℕ) (slot : Slot), c.slots[r]? = some slot → slot.obtained = false →
    slot.disposals = 0
  dropped : ∀ (r : ℕ) (slot : Slot), c.slots[r]? = some slot → slot.obtained = true →
    c.registry ≠ some r → ¬ c.Transit r → slot.disposals = 1
  late : c.late ≠ [] → c.fallback = true ∧ ¬ c.Loops ∧ c.late.length = 1
  quiet : c.Loops ∨ c.registry.isSome ∨ .adapter ∈ c.late → ∀ r, c.disposal r ≠ .pending
  pending : c.fallback = false → ∀ r, c.disposal r = .pending →
    ∃ caught, c.releasing = some ⟨r, caught⟩
  waits : c.fallback = false → ∀ promise, c.phase = some (.releasing promise) →
    promise = c.releasing
  begun : ∀ (r : ℕ) (slot : Slot), c.slots[r]? = some slot →
    (slot.disposals = 0 ↔ slot.disposal = .none)

theorem inv_init : Inv {} where
  idle := fun _ => rfl
  fallback := fun _ => rfl
  held := by
    rintro r (h | ⟨due, h⟩) <;> cases h
  asked := by
    rintro r (⟨due, h⟩ | h) <;> cases h
  kept := nofun
  dropped := nofun
  late := fun h => absurd rfl h
  quiet := fun _ r => nofun
  pending := fun _ r => nofun
  waits := nofun
  begun := nofun

section Inv

variable {c : Core}

theorem slot_modify {slots : List Slot} {f : Slot → Slot} {r q : ℕ} {slot' : Slot}
    (h : (slots.modify r f)[q]? = some slot') :
    (q = r ∧ ∃ slot, slots[r]? = some slot ∧ slot' = f slot) ∨
      (q ≠ r ∧ slots[q]? = some slot') := by
  by_cases heq : q = r
  · subst heq
    rw [List.getElem?_modify_eq] at h
    obtain ⟨slot, hslot, hf⟩ := Option.map_eq_some_iff.mp h
    exact .inl ⟨rfl, slot, hslot, hf.symm⟩
  · rw [List.getElem?_modify_ne f slots (Ne.symm heq)] at h
    exact .inr ⟨heq, h⟩

theorem slot_append {slots : List Slot} {slot slot' : Slot} {q : ℕ}
    (h : (slots ++ [slot])[q]? = some slot') :
    (q = slots.length ∧ slot' = slot) ∨ slots[q]? = some slot' := by
  rcases Nat.lt_or_ge q slots.length with hlt | hge
  · rw [List.getElem?_append_left hlt] at h
    exact .inr h
  · rw [List.getElem?_append_right hge] at h
    have hzero : q - slots.length = 0 := by
      by_contra hne
      rw [List.getElem?_singleton, if_neg hne] at h
      cases h
    rw [hzero] at h
    exact .inl ⟨by omega, (Option.some.inj h).symm⟩

theorem slot_append_of {slots : List Slot} {slot slot' : Slot} {q : ℕ}
    (h : slots[q]? = some slot') : (slots ++ [slot])[q]? = some slot' := by
  obtain ⟨hlt, -⟩ := List.getElem?_eq_some_iff.mp h
  rw [List.getElem?_append_left hlt, h]

theorem slot_modify_ne {slots : List Slot} {f : Slot → Slot} {r q : ℕ} (h : q ≠ r) :
    (slots.modify r f)[q]? = slots[q]? := List.getElem?_modify_ne f slots (Ne.symm h)

theorem slot_modify_self {slots : List Slot} {f : Slot → Slot} {r : ℕ} {slot : Slot}
    (h : slots[r]? = some slot) : (slots.modify r f)[r]? = some (f slot) := by
  rw [List.getElem?_modify_eq, h]
  rfl

theorem disposal_of_slot {r : ℕ} {slot : Slot} (h : c.slots[r]? = some slot) :
    c.disposal r = slot.disposal := by
  rw [disposal, h]
  rfl

theorem disposal_pending {r : ℕ} (h : c.disposal r = .pending) :
    ∃ slot, c.slots[r]? = some slot ∧ slot.disposal = .pending := by
  unfold disposal at h
  cases hslot : c.slots[r]? with
  | none =>
      rw [hslot] at h
      cases h
  | some slot =>
      rw [hslot] at h
      exact ⟨slot, rfl, h⟩

theorem disposal_dispose_ne {r q : ℕ} (h : q ≠ r) : (c.dispose r).disposal q = c.disposal q := by
  rw [disposal, dispose, slot_modify_ne h, disposal]

theorem loops_acquires (h : c.Loops) : c.Acquires := by
  rcases h with ⟨attempt, due, h⟩ | ⟨due, h⟩
  · exact ⟨_, h, nofun⟩
  · exact ⟨_, h, nofun⟩

theorem transit_loops {r : ℕ} (h : c.Transit r) : c.Loops := by
  obtain ⟨due, h⟩ := h
  exact .inl ⟨_, due, h⟩

theorem loops_of_phase {attempt : Attempt} {due : ℤ}
    (h : c.phase = some (.attempting attempt due)) : c.Loops := .inl ⟨attempt, due, h⟩

/-- The registry that is held is on its way to nobody. -/
theorem Inv.not_acquires (h : Inv c) {r : ℕ} (hr : c.registry = some r) : ¬ c.Acquires := by
  intro hacquires
  rw [h.idle hacquires] at hr
  cases hr

theorem Inv.not_transit (h : Inv c) {r q : ℕ} (hr : c.registry = some r) : ¬ c.Transit q :=
  fun htransit => h.not_acquires hr (loops_acquires (transit_loops htransit))

theorem Inv.late_nil (h : Inv c) (hfallback : c.fallback = false) : c.late = [] := by
  by_contra hne
  rw [(h.late hne).1] at hfallback
  cases hfallback

theorem Inv.late_nil_of_registry (h : Inv c) {r : ℕ} (hr : c.registry = some r) : c.late = [] := by
  by_contra hne
  rw [h.fallback (h.late hne).1] at hr
  cases hr

theorem Inv.late_nil_of_loops (h : Inv c) (hloops : c.Loops) : c.late = [] := by
  by_contra hne
  exact (h.late hne).2.1 hloops

/-- The lease gives back the registry that it holds. -/
theorem Inv.drop (h : Inv c) {r : ℕ} (hregistry : c.registry = some r) (fallback caught : Bool) :
    Inv { c.dispose r with
      registry := none
      fallback := fallback
      releasing := some ⟨r, caught⟩ } := by
  have hlate := h.late_nil_of_registry hregistry
  have hidle := h.not_acquires hregistry
  obtain ⟨held, hheld, hobtained, hdisposals⟩ := h.held r (.inl hregistry)
  constructor
  · exact fun _ => rfl
  · exact fun _ => rfl
  · rintro q (hq | hq)
    · cases hq
    · exact absurd hq (h.not_transit hregistry)
  · rintro q (⟨due, hq⟩ | hq)
    · exact absurd ⟨_, hq, nofun⟩ hidle
    · have hq : Attempt.acquiring q ∈ c.late := hq
      rw [hlate] at hq
      cases hq
  · intro q slot' hq hnew
    rcases slot_modify hq with ⟨rfl, slot, hslot, rfl⟩ | ⟨-, hslot⟩
    · rw [hheld] at hslot
      cases hslot
      rw [disposeSlot, hobtained] at hnew
      cases hnew
    · exact h.kept q slot' hslot hnew
  · rintro q slot' hq hold - -
    rcases slot_modify hq with ⟨rfl, slot, hslot, rfl⟩ | ⟨hne, hslot⟩
    · rw [hheld] at hslot
      cases hslot
      exact congrArg (· + 1) hdisposals
    · refine h.dropped q slot' hslot hold ?_ (h.not_transit hregistry)
      rw [hregistry]
      exact fun heq => hne (Option.some.inj heq).symm
  · exact fun hne => absurd hlate hne
  · rintro (hloops | hheld | hadapter) q
    · exact absurd (loops_acquires hloops) hidle
    · cases hheld
    · have hadapter : Attempt.adapter ∈ c.late := hadapter
      rw [hlate] at hadapter
      cases hadapter
  · intro _ q hq
    by_cases heq : q = r
    · exact ⟨caught, by rw [heq]⟩
    · have hq : (c.dispose r).disposal q = .pending := hq
      rw [disposal_dispose_ne heq] at hq
      exact absurd hq (h.quiet (.inr (.inl (by rw [hregistry]; rfl))) q)
  · exact fun _ promise hphase => absurd ⟨_, hphase, nofun⟩ hidle
  · intro q slot' hq
    rcases slot_modify hq with ⟨rfl, slot, -, rfl⟩ | ⟨-, hslot⟩
    · exact ⟨nofun, nofun⟩
    · exact h.begun q slot' hslot

theorem Inv.stopped (h : Inv c) : Inv c.stopped := by
  unfold Core.stopped
  split
  · rename_i hregistry
    exact {
      idle := fun _ => hregistry
      fallback := fun _ => hregistry
      held := h.held
      asked := h.asked
      kept := h.kept
      dropped := h.dropped
      late := fun hne => ⟨rfl, (h.late hne).2⟩
      quiet := h.quiet
      pending := nofun
      waits := nofun
      begun := h.begun }
  · rename_i hregistry
    exact h.drop hregistry true true

/-- The acquisition goes on, and has no registry of its own. -/
theorem Inv.setPhase (h : Inv c) {phase : Option RunPhase}
    (hbefore : ∀ r, ¬ c.Transit r) (hafter : ∀ r due, phase ≠ some (.attempting (.got r) due))
    (hregistry : ({ c with phase := phase } : Core).Acquires → c.registry = none)
    (hasked : ∀ r due, phase = some (.attempting (.acquiring r) due) →
      ∃ slot : Slot, c.slots[r]? = some slot ∧ slot.obtained = false ∧ slot.disposals = 0)
    (hloops : ({ c with phase := phase } : Core).Loops →
      c.late = [] ∧ ∀ r, c.disposal r ≠ .pending)
    (hwaits : c.fallback = false → ∀ promise, phase = some (.releasing promise) →
      promise = c.releasing) : Inv { c with phase := phase } := by
  constructor
  · exact hregistry
  · exact h.fallback
  · rintro r (hr | ⟨due, hr⟩)
    · exact h.held r (.inl hr)
    · exact absurd hr (hafter r due)
  · rintro r (⟨due, hr⟩ | hr)
    · exact hasked r due hr
    · exact h.asked r (.inr hr)
  · exact h.kept
  · exact fun r slot hr hold hne _ => h.dropped r slot hr hold hne (hbefore r)
  · exact fun hne => ⟨(h.late hne).1, fun hl => hne (hloops hl).1, (h.late hne).2.2⟩
  · rintro (hl | hheld | hadapter) r
    · exact (hloops hl).2 r
    · exact h.quiet (.inr (.inl hheld)) r
    · exact h.quiet (.inr (.inr hadapter)) r
  · exact h.pending
  · exact hwaits
  · exact h.begun

/-- A registry is asked for. -/
theorem Inv.append (h : Inv c) : Inv { c with slots := c.slots ++ [{}] } := by
  have hdisposal : ∀ r, ({ c with slots := c.slots ++ [{}] } : Core).disposal r = .pending →
      c.disposal r = .pending := by
    intro r hr
    obtain ⟨slot, hslot, hpending⟩ := disposal_pending hr
    rcases slot_append hslot with ⟨-, rfl⟩ | hslot
    · cases hpending
    · rw [disposal_of_slot hslot, hpending]
  constructor
  · exact h.idle
  · exact h.fallback
  · intro r hr
    obtain ⟨slot, hslot, hrest⟩ := h.held r hr
    exact ⟨slot, slot_append_of hslot, hrest⟩
  · intro r hr
    obtain ⟨slot, hslot, hrest⟩ := h.asked r hr
    exact ⟨slot, slot_append_of hslot, hrest⟩
  · intro r slot hr hnew
    rcases slot_append hr with ⟨-, rfl⟩ | hslot
    · rfl
    · exact h.kept r slot hslot hnew
  · intro r slot hr hold hne hnot
    rcases slot_append hr with ⟨-, rfl⟩ | hslot
    · cases hold
    · exact h.dropped r slot hslot hold hne hnot
  · exact h.late
  · exact fun hq r hr => h.quiet hq r (hdisposal r hr)
  · exact fun hfallback r hr => h.pending hfallback r (hdisposal r hr)
  · exact h.waits
  · intro r slot hr
    rcases slot_append hr with ⟨-, rfl⟩ | hslot
    · exact ⟨fun _ => rfl, fun _ => rfl⟩
    · exact h.begun r slot hslot

theorem slot_new : (c.slots ++ [({} : Slot)])[c.slots.length]? = some {} := by
  rw [List.getElem?_append_right (le_refl _), Nat.sub_self]
  rfl

/-- Nothing is being disposed when the loop of `acquire` takes another turn. -/
theorem Inv.quiet_of_mayTry (h : Inv c) (hfallback : c.fallback = false) (hmay : c.MayTry) :
    (∀ r, c.disposal r ≠ .pending) ∧ c.registry = none ∧ ∀ r, ¬ c.Transit r := by
  rcases hmay with ⟨promise, hphase, hsettled, -⟩ | ⟨due, hphase⟩
  · refine ⟨?_, h.idle ⟨_, hphase, nofun⟩, ?_⟩
    · intro r hr
      obtain ⟨caught, hreleasing⟩ := h.pending hfallback r hr
      have hpromise := h.waits hfallback promise hphase
      rcases hsettled ⟨r, caught⟩ (by rw [hpromise, hreleasing]; rfl) with heq | heq
      · rw [hr] at heq
        cases heq
      · rw [hr] at heq
        cases heq
    · rintro r ⟨due, hr⟩
      rw [hphase] at hr
      cases hr
  · refine ⟨h.quiet (.inl (.inr ⟨due, hphase⟩)), h.idle ⟨_, hphase, nofun⟩, ?_⟩
    rintro r ⟨due', hr⟩
    rw [hphase] at hr
    cases hr

/-- A registry is asked for when nothing is being disposed. -/
theorem Inv.ask (h : Inv c) (due : ℤ) (hlate : c.late = [])
    (hquiet : ∀ r, c.disposal r ≠ .pending) (hregistry : c.registry = none)
    (hbefore : ∀ r, ¬ c.Transit r) :
    Inv { c with
      slots := c.slots ++ [{}]
      phase := some (.attempting (.acquiring c.slots.length) due) } := by
  refine h.append.setPhase hbefore nofun (fun _ => hregistry) ?_ ?_ nofun
  · intro r due' hr
    cases hr
    exact ⟨{}, slot_new, rfl, rfl⟩
  · refine fun _ => ⟨hlate, fun r hr => ?_⟩
    obtain ⟨slot, hslot, hpending⟩ := disposal_pending hr
    rcases slot_append hslot with ⟨-, rfl⟩ | hslot
    · cases hpending
    · exact hquiet r (by rw [disposal_of_slot hslot, hpending])

theorem Inv.got (h : Inv c) {r : ℕ} {due : ℤ}
    (hphase : c.phase = some (.attempting (.acquiring r) due)) :
    Inv { c with
      slots := c.slots.modify r fun slot => { slot with obtained := true }
      phase := some (.attempting (.got r) due) } := by
  have hloops := loops_of_phase hphase
  have hlate := h.late_nil_of_loops hloops
  have hregistry := h.idle (loops_acquires hloops)
  obtain ⟨asked, hasked, -, hdisposals⟩ := h.asked r (.inl ⟨due, hphase⟩)
  constructor
  · exact fun _ => hregistry
  · exact h.fallback
  · rintro q (hq | ⟨due', hq⟩)
    · rw [show c.registry = some q from hq] at hregistry
      cases hregistry
    · cases hq
      exact ⟨_, slot_modify_self hasked, rfl, hdisposals⟩
  · rintro q (⟨due', hq⟩ | hq)
    · cases hq
    · have hq : Attempt.acquiring q ∈ c.late := hq
      rw [hlate] at hq
      cases hq
  · intro q slot' hq hnew
    rcases slot_modify hq with ⟨rfl, slot, hslot, rfl⟩ | ⟨-, hslot⟩
    · cases hnew
    · exact h.kept q slot' hslot hnew
  · intro q slot' hq hold hne hnot
    rcases slot_modify hq with ⟨rfl, slot, hslot, rfl⟩ | ⟨-, hslot⟩
    · exact absurd ⟨due, rfl⟩ hnot
    · refine h.dropped q slot' hslot hold hne ?_
      rintro ⟨due', hq'⟩
      rw [hphase] at hq'
      cases hq'
  · exact fun hne => absurd hlate hne
  · intro _ q hq
    obtain ⟨slot', hslot', hpending⟩ := disposal_pending hq
    refine h.quiet (.inl hloops) q ?_
    rcases slot_modify hslot' with ⟨rfl, slot, hslot, rfl⟩ | ⟨-, hslot⟩
    · rw [disposal_of_slot hslot]
      exact hpending
    · rw [disposal_of_slot hslot, hpending]
  · intro hfallback q hq
    obtain ⟨slot', hslot', hpending⟩ := disposal_pending hq
    refine h.pending hfallback q ?_
    rcases slot_modify hslot' with ⟨rfl, slot, hslot, rfl⟩ | ⟨-, hslot⟩
    · rw [disposal_of_slot hslot]
      exact hpending
    · rw [disposal_of_slot hslot, hpending]
  · exact nofun
  · intro q slot' hq
    rcases slot_modify hq with ⟨rfl, slot, hslot, rfl⟩ | ⟨-, hslot⟩
    · exact h.begun q slot hslot
    · exact h.begun q slot' hslot

theorem Inv.hold (h : Inv c) {r : ℕ} {due : ℤ}
    (hphase : c.phase = some (.attempting (.got r) due)) (hfallback : c.fallback = false) :
    Inv { c with registry := some r, phase := some (.over false) } := by
  have hloops := loops_of_phase hphase
  have hnone := h.idle (loops_acquires hloops)
  constructor
  · rintro ⟨phase, hover, hne⟩
    cases hover
    exact absurd rfl (hne false)
  · intro heq
    rw [show c.fallback = true from heq] at hfallback
    cases hfallback
  · rintro q (hq | ⟨due', hq⟩)
    · cases hq
      exact h.held r (.inr ⟨due, hphase⟩)
    · cases hq
  · rintro q (⟨due', hq⟩ | hq)
    · cases hq
    · exact h.asked q (.inr hq)
  · exact h.kept
  · intro q slot hq hold hne _
    refine h.dropped q slot hq hold (by rw [hnone]; exact nofun) ?_
    rintro ⟨due', hq'⟩
    rw [hphase] at hq'
    cases hq'
    exact hne rfl
  · exact fun hne => absurd (h.late_nil hfallback) hne
  · exact fun _ => h.quiet (.inl hloops)
  · exact h.pending
  · exact nofun
  · exact h.begun

/-- A registry that nobody will hold is given back. -/
theorem Inv.dispose (h : Inv c) {r : ℕ} {due : ℤ}
    (hphase : c.phase = some (.attempting (.got r) due)) (hfallback : c.fallback = true) :
    Inv { c.dispose r with phase := some (.over false) } := by
  have hloops := loops_of_phase hphase
  have hlate := h.late_nil_of_loops hloops
  have hregistry := h.fallback hfallback
  obtain ⟨held, hheld, hobtained, hdisposals⟩ := h.held r (.inr ⟨due, hphase⟩)
  constructor
  · exact fun _ => hregistry
  · exact fun _ => hregistry
  · rintro q (hq | ⟨due', hq⟩)
    · rw [show c.registry = some q from hq] at hregistry
      cases hregistry
    · cases hq
  · rintro q (⟨due', hq⟩ | hq)
    · cases hq
    · have hq : Attempt.acquiring q ∈ c.late := hq
      rw [hlate] at hq
      cases hq
  · intro q slot' hq hnew
    rcases slot_modify hq with ⟨rfl, slot, hslot, rfl⟩ | ⟨-, hslot⟩
    · rw [hheld] at hslot
      cases hslot
      rw [disposeSlot, hobtained] at hnew
      cases hnew
    · exact h.kept q slot' hslot hnew
  · intro q slot' hq hold hne _
    rcases slot_modify hq with ⟨rfl, slot, hslot, rfl⟩ | ⟨hne', hslot⟩
    · rw [hheld] at hslot
      cases hslot
      exact congrArg (· + 1) hdisposals
    · refine h.dropped q slot' hslot hold hne ?_
      rintro ⟨due', hq'⟩
      rw [hphase] at hq'
      cases hq'
      exact hne' rfl
  · exact fun hne => absurd hlate hne
  · rintro (hl | hl | hl) q
    · obtain ⟨attempt, due', hl⟩ | ⟨due', hl⟩ := hl
      · cases hl
      · cases hl
    · have hl : c.registry.isSome = true := hl
      rw [hregistry] at hl
      cases hl
    · have hl : Attempt.adapter ∈ c.late := hl
      rw [hlate] at hl
      cases hl
  · intro heq
    rw [show c.fallback = false from heq] at hfallback
    cases hfallback
  · exact nofun
  · intro q slot' hq
    rcases slot_modify hq with ⟨rfl, slot, -, rfl⟩ | ⟨-, hslot⟩
    · exact ⟨nofun, nofun⟩
    · exact h.begun q slot' hslot

/-- The attempt is left to itself. -/
theorem Inv.leave (h : Inv c) {attempt : Attempt} {due : ℤ}
    (hphase : c.phase = some (.attempting attempt due)) (hfallback : c.fallback = true)
    (hattempt : attempt = .adapter ∨ ∃ r, attempt = .acquiring r) :
    Inv { c with late := c.late ++ [attempt], phase := some (.over false) } := by
  have hloops := loops_of_phase hphase
  have hlate := h.late_nil_of_loops hloops
  have hnot : ∀ r, ¬ c.Transit r := by
    rintro r ⟨due', hr⟩
    rw [hphase] at hr
    cases hr
    rcases hattempt with heq | ⟨q, heq⟩
    · cases heq
    · cases heq
  constructor
  · exact fun _ => h.fallback hfallback
  · exact h.fallback
  · rintro q (hq | ⟨due', hq⟩)
    · exact h.held q (.inl hq)
    · cases hq
  · rintro q (⟨due', hq⟩ | hq)
    · cases hq
    · have hq : Attempt.acquiring q ∈ c.late ++ [attempt] := hq
      rw [hlate, List.nil_append, List.mem_singleton] at hq
      rw [← hq] at hphase
      exact h.asked q (.inl ⟨due, hphase⟩)
  · exact h.kept
  · exact fun q slot hq hold hne _ => h.dropped q slot hq hold hne (hnot q)
  · refine fun _ => ⟨hfallback, ?_, by rw [hlate]; rfl⟩
    rintro (⟨attempt', due', hl⟩ | ⟨due', hl⟩)
    · cases hl
    · cases hl
  · exact fun _ => h.quiet (.inl hloops)
  · exact h.pending
  · exact nofun
  · exact h.begun

theorem Inv.late_set (h : Inv c) {j : ℕ} {before : Attempt} (hj : c.late[j]? = some before)
    (after : Attempt) : c.late.set j after = [after] := by
  have hmem : before ∈ c.late := List.mem_of_getElem? hj
  obtain ⟨-, -, hlength⟩ := h.late (List.ne_nil_of_mem hmem)
  obtain ⟨hlt, -⟩ := List.getElem?_eq_some_iff.mp hj
  obtain ⟨attempt, hattempt⟩ := List.length_eq_one_iff.mp hlength
  rw [hattempt] at hlt ⊢
  have hzero : j = 0 := by simpa using hlt
  rw [hzero]
  rfl

theorem Inv.late_fallback (h : Inv c) {j : ℕ} {attempt : Attempt}
    (hj : c.late[j]? = some attempt) :
    c.fallback = true ∧ ¬ c.Loops ∧ c.late.length = 1 :=
  h.late (List.ne_nil_of_mem (List.mem_of_getElem? hj))

/-- The attempt that nobody waits for goes on. -/
theorem Inv.setLate (h : Inv c) {j : ℕ} {before : Attempt} (hj : c.late[j]? = some before)
    (after : Attempt) (hafter : after ≠ .adapter)
    (hasked : ∀ r, after = .acquiring r →
      ∃ slot : Slot, c.slots[r]? = some slot ∧ slot.obtained = false ∧ slot.disposals = 0) :
    Inv { c with late := c.late.set j after } := by
  obtain ⟨hfallback, hloops, hlength⟩ := h.late_fallback hj
  have hlate := h.late_set hj after
  constructor
  · exact h.idle
  · exact h.fallback
  · exact h.held
  · rintro q (hq | hq)
    · exact h.asked q (.inl hq)
    · have hq : Attempt.acquiring q ∈ c.late.set j after := hq
      rw [hlate, List.mem_singleton] at hq
      exact hasked q hq.symm
  · exact h.kept
  · exact h.dropped
  · exact fun _ => ⟨hfallback, hloops, by rw [List.length_set, hlength]⟩
  · rintro (hl | hl | hl)
    · exact absurd hl hloops
    · have hl : c.registry.isSome = true := hl
      rw [h.fallback hfallback] at hl
      cases hl
    · have hl : Attempt.adapter ∈ c.late.set j after := hl
      rw [hlate, List.mem_singleton] at hl
      exact absurd hl.symm hafter
  · exact h.pending
  · exact h.waits
  · exact h.begun

/-- A registry comes when nobody waits for it any longer, and is given back. -/
theorem Inv.lateGot (h : Inv c) {j r : ℕ} (hj : c.late[j]? = some (.acquiring r)) :
    Inv { c with
      slots := c.slots.modify r fun slot => disposeSlot { slot with obtained := true }
      late := c.late.set j (.got r) } := by
  obtain ⟨hfallback, hloops, hlength⟩ := h.late_fallback hj
  have hlate := h.late_set hj (.got r)
  have hregistry := h.fallback hfallback
  obtain ⟨asked, hasked, -, hdisposals⟩ := h.asked r (.inr (List.mem_of_getElem? hj))
  have hnot : ∀ q, ¬ c.Transit q := fun q hq => hloops (transit_loops hq)
  constructor
  · exact fun _ => hregistry
  · exact fun _ => hregistry
  · rintro q (hq | hq)
    · rw [show c.registry = some q from hq] at hregistry
      cases hregistry
    · exact absurd hq (hnot q)
  · rintro q (⟨due, hq⟩ | hq)
    · exact absurd (.inl ⟨_, due, hq⟩) hloops
    · have hq : Attempt.acquiring q ∈ c.late.set j (.got r) := hq
      rw [hlate, List.mem_singleton] at hq
      cases hq
  · intro q slot' hq hnew
    rcases slot_modify hq with ⟨rfl, slot, hslot, rfl⟩ | ⟨-, hslot⟩
    · cases hnew
    · exact h.kept q slot' hslot hnew
  · intro q slot' hq hold hne _
    rcases slot_modify hq with ⟨rfl, slot, hslot, rfl⟩ | ⟨-, hslot⟩
    · rw [hasked] at hslot
      cases hslot
      exact congrArg (· + 1) hdisposals
    · exact h.dropped q slot' hslot hold hne (hnot q)
  · exact fun _ => ⟨hfallback, hloops, by rw [List.length_set, hlength]⟩
  · rintro (hl | hl | hl)
    · exact absurd hl hloops
    · have hl : c.registry.isSome = true := hl
      rw [hregistry] at hl
      cases hl
    · have hl : Attempt.adapter ∈ c.late.set j (.got r) := hl
      rw [hlate, List.mem_singleton] at hl
      cases hl
  · intro heq
    rw [show c.fallback = false from heq] at hfallback
    cases hfallback
  · intro heq
    rw [show c.fallback = false from heq] at hfallback
    cases hfallback
  · intro q slot' hq
    rcases slot_modify hq with ⟨rfl, slot, -, rfl⟩ | ⟨-, hslot⟩
    · exact ⟨nofun, nofun⟩
    · exact h.begun q slot' hslot

/-- A disposal ends. -/
theorem Inv.settle (h : Inv c) {r : ℕ} (hbefore : c.disposal r = .pending) {ended : Disposal}
    (hended : ended = .settled ∨ ended = .failed) :
    Inv { c with slots := c.slots.modify r fun slot => { slot with disposal := ended } } := by
  have hslot : ∀ {q : ℕ} {slot' : Slot},
      (c.slots.modify r fun slot => { slot with disposal := ended })[q]? = some slot' →
      ∃ slot, c.slots[q]? = some slot ∧ slot'.obtained = slot.obtained ∧
        slot'.disposals = slot.disposals ∧
        (slot'.disposal = ended ∨ slot'.disposal = slot.disposal) := by
    intro q slot' hq
    rcases slot_modify hq with ⟨rfl, slot, hslot, rfl⟩ | ⟨-, hslot⟩
    · exact ⟨slot, hslot, rfl, rfl, .inl rfl⟩
    · exact ⟨slot', hslot, rfl, rfl, .inr rfl⟩
  have hback : ∀ {q : ℕ} {slot : Slot}, c.slots[q]? = some slot → ∃ slot',
      (c.slots.modify r fun slot => { slot with disposal := ended })[q]? = some slot' ∧
        slot'.obtained = slot.obtained ∧ slot'.disposals = slot.disposals := by
    intro q slot hq
    by_cases heq : q = r
    · subst heq
      exact ⟨_, slot_modify_self hq, rfl, rfl⟩
    · exact ⟨slot, by rw [slot_modify_ne heq, hq], rfl, rfl⟩
  have hdisposal : ∀ q, ({ c with
      slots := c.slots.modify r fun slot => { slot with disposal := ended } } : Core).disposal q =
        .pending → c.disposal q = .pending := by
    intro q hq
    obtain ⟨slot', hslot', hpending⟩ := disposal_pending hq
    obtain ⟨slot, hslot, -, -, heq | heq⟩ := hslot hslot'
    · rw [hpending] at heq
      rcases hended with hended | hended
      · rw [hended] at heq
        cases heq
      · rw [hended] at heq
        cases heq
    · rw [disposal_of_slot hslot, ← heq, hpending]
  constructor
  · exact h.idle
  · exact h.fallback
  · intro q hq
    obtain ⟨slot, hslot, hobtained, hdisposals⟩ := h.held q hq
    obtain ⟨slot', hslot', ho, hd⟩ := hback hslot
    exact ⟨slot', hslot', by rw [ho, hobtained], by rw [hd, hdisposals]⟩
  · intro q hq
    obtain ⟨slot, hslot, hobtained, hdisposals⟩ := h.asked q hq
    obtain ⟨slot', hslot', ho, hd⟩ := hback hslot
    exact ⟨slot', hslot', by rw [ho, hobtained], by rw [hd, hdisposals]⟩
  · intro q slot' hq hnew
    obtain ⟨slot, hslot, ho, hd, -⟩ := hslot hq
    rw [hd, h.kept q slot hslot (by rw [← ho, hnew])]
  · intro q slot' hq hold hne hnot
    obtain ⟨slot, hslot, ho, hd, -⟩ := hslot hq
    rw [hd, h.dropped q slot hslot (by rw [← ho, hold]) hne hnot]
  · exact h.late
  · exact fun hq q hpending => h.quiet hq q (hdisposal q hpending)
  · exact fun hfallback q hpending => h.pending hfallback q (hdisposal q hpending)
  · exact h.waits
  · intro q slot' hq
    rcases slot_modify hq with ⟨rfl, slot, hslot, rfl⟩ | ⟨-, hslot⟩
    · have hbegun : slot.disposals ≠ 0 := by
        rw [Ne, h.begun q slot hslot, ← disposal_of_slot hslot, hbefore]
        exact nofun
      refine ⟨fun hzero => absurd hzero hbegun, fun hnone => ?_⟩
      rcases hended with hended | hended
      · rw [show ended = .none from hnone] at hended
        cases hended
      · rw [show ended = .none from hnone] at hended
        cases hended
    · exact h.begun q slot' hslot

theorem not_transit_of_phase {phase : RunPhase} (hphase : c.phase = some phase)
    (hne : ∀ r due, phase ≠ .attempting (.got r) due) : ∀ r, ¬ c.Transit r := by
  rintro r ⟨due, hr⟩
  rw [hphase] at hr
  exact hne r due (Option.some.inj hr)

theorem Inv.moves {c' : Core} (h : Inv c) (hm : Moves c c') : Inv c' := by
  cases hm with
  | stop => exact h.stopped
  | start hphase hregistry =>
      refine h.setPhase ?_ nofun (fun _ => hregistry) nofun ?_ ?_
      · rintro r ⟨due, hr⟩
        rw [hphase] at hr
        cases hr
      · rintro (⟨attempt, due, hl⟩ | ⟨due, hl⟩)
        · cases hl
        · cases hl
      · intro _ promise hpromise
        cases hpromise
        rfl
  | tryAdapter hmay hfallback due =>
      obtain ⟨hquiet, hregistry, hbefore⟩ := h.quiet_of_mayTry hfallback hmay
      exact h.setPhase hbefore nofun (fun _ => hregistry) nofun
        (fun _ => ⟨h.late_nil hfallback, hquiet⟩) nofun
  | tryRegistry hmay hfallback due =>
      obtain ⟨hquiet, hregistry, hbefore⟩ := h.quiet_of_mayTry hfallback hmay
      exact h.ask due (h.late_nil hfallback) hquiet hregistry hbefore
  | made hphase =>
      have hloops := loops_of_phase hphase
      exact h.ask _ (h.late_nil_of_loops hloops) (h.quiet (.inl hloops))
        (h.idle (loops_acquires hloops)) (not_transit_of_phase hphase nofun)
  | failed hphase hattempt error =>
      have hloops := loops_of_phase hphase
      refine h.setPhase (not_transit_of_phase hphase ?_) nofun
        (fun _ => h.idle (loops_acquires hloops)) nofun
        (fun _ => ⟨h.late_nil_of_loops hloops, h.quiet (.inl hloops)⟩) nofun
      rintro r due' heq
      cases heq
      rcases hattempt with heq | ⟨q, heq⟩
      · cases heq
      · cases heq
  | got hphase => exact h.got hphase
  | hold hphase hfallback => exact h.hold hphase hfallback
  | dispose hphase hfallback => exact h.dispose hphase hfallback
  | leave hphase hfallback hattempt => exact h.leave hphase hfallback hattempt
  | retry hphase later =>
      have hloops := loops_of_phase hphase
      exact h.setPhase (not_transit_of_phase hphase nofun) nofun
        (fun _ => h.idle (loops_acquires hloops)) nofun
        (fun _ => ⟨h.late_nil_of_loops hloops, h.quiet (.inl hloops)⟩) nofun
  | finish hmay rejected =>
      have hbefore : ∀ r, ¬ c.Transit r := by
        rcases hmay with ⟨promise, hphase⟩ | ⟨due, hphase⟩ | ⟨error, due, hphase⟩
        · exact not_transit_of_phase hphase nofun
        · exact not_transit_of_phase hphase nofun
        · exact not_transit_of_phase hphase nofun
      refine h.setPhase hbefore nofun ?_ nofun ?_ nofun
      · rintro ⟨phase, hover, hne⟩
        cases hover
        exact absurd rfl (hne rejected)
      · rintro (⟨attempt, due, hl⟩ | ⟨due, hl⟩)
        · cases hl
        · cases hl
  | clear hphase =>
      refine h.setPhase (not_transit_of_phase hphase nofun) nofun ?_ nofun ?_ nofun
      · rintro ⟨phase, hnone, -⟩
        cases hnone
      · rintro (⟨attempt, due, hl⟩ | ⟨due, hl⟩)
        · cases hl
        · cases hl
  | lateMade hj =>
      refine h.append.setLate hj (.acquiring c.slots.length) nofun ?_
      intro r hr
      cases hr
      exact ⟨{}, slot_new, rfl, rfl⟩
  | lateFailed hj error => exact h.setLate hj (.failed error) nofun nofun
  | lateGot hj => exact h.lateGot hj
  | release hregistry => exact h.drop hregistry _ false
  | settle hpending hsettled => exact h.settle hpending hsettled

/-- A registry may be asked for. -/
def Asks (c : Core) : Prop :=
  (c.MayTry ∧ c.fallback = false) ∨ (∃ due, c.phase = some (.attempting .adapter due)) ∨
    .adapter ∈ c.late

/-- Every registry before was disposed, and its disposal has ended. -/
theorem Inv.all_disposed (h : Inv c) (hasks : c.Asks) {r : ℕ} {slot : Slot}
    (hslot : c.slots[r]? = some slot) (hobtained : slot.obtained = true) :
    slot.disposals = 1 ∧ (slot.disposal = .settled ∨ slot.disposal = .failed) := by
  have hquiet : (∀ r, c.disposal r ≠ .pending) ∧ c.registry = none ∧ ∀ r, ¬ c.Transit r := by
    rcases hasks with ⟨hmay, hfallback⟩ | ⟨due, hphase⟩ | hlate
    · exact h.quiet_of_mayTry hfallback hmay
    · have hloops := loops_of_phase hphase
      exact ⟨h.quiet (.inl hloops), h.idle (loops_acquires hloops),
        not_transit_of_phase hphase nofun⟩
    · obtain ⟨hfallback, hloops, -⟩ := h.late (List.ne_nil_of_mem hlate)
      exact ⟨h.quiet (.inr (.inr hlate)), h.fallback hfallback,
        fun q hq => hloops (transit_loops hq)⟩
  obtain ⟨hpending, hregistry, hnot⟩ := hquiet
  have hone := h.dropped r slot hslot hobtained (by rw [hregistry]; exact nofun) (hnot r)
  refine ⟨hone, ?_⟩
  have hbegun : slot.disposal ≠ .none := by
    rw [Ne, ← h.begun r slot hslot, hone]
    exact nofun
  have hended := hpending r
  rw [disposal_of_slot hslot] at hended
  cases hdisposal : slot.disposal with
  | none => exact absurd hdisposal hbegun
  | pending => exact absurd hdisposal hended
  | settled => exact .inl rfl
  | failed => exact .inr rfl

/-- No registry is held, or will be: the disposal that the next acquisition waits for has failed. -/
def Barren (c : Core) : Prop := c.registry = none ∧ ¬ c.Loops ∧ .adapter ∉ c.late

/-- The lease has no registry and asks for none once a disposal has failed that its release
started. -/
def Spent (c : Core) : Prop :=
  ∀ r, c.releasing = some ⟨r, false⟩ → c.disposal r = .failed → c.Barren

theorem spent_init : Spent {} := nofun

theorem Spent.phase (h : c.Spent) {phase : Option RunPhase}
    (hloops : ({ c with phase := phase } : Core).Loops → c.Loops) :
    ({ c with phase := phase } : Core).Spent :=
  fun r hr hfailed => ⟨(h r hr hfailed).1, fun hl => (h r hr hfailed).2.1 (hloops hl),
    (h r hr hfailed).2.2⟩

/-- While the acquisition loops, no disposal that its release started has failed. -/
theorem Spent.of_loops (h : c.Spent) {c' : Core} (hloops : c.Loops)
    (hreleasing : c'.releasing = c.releasing)
    (hdisposal : ∀ r, c'.disposal r = .failed → c.disposal r = .failed) : c'.Spent := by
  intro r hr hfailed
  rw [hreleasing] at hr
  exact absurd hloops (h r hr (hdisposal r hfailed)).2.1

theorem disposal_failed {r : ℕ} (h : c.disposal r = .failed) :
    ∃ slot, c.slots[r]? = some slot ∧ slot.disposal = .failed := by
  unfold disposal at h
  cases hslot : c.slots[r]? with
  | none =>
      rw [hslot] at h
      cases h
  | some slot =>
      rw [hslot] at h
      exact ⟨slot, rfl, h⟩

theorem failed_append {phase : Option RunPhase} {late : List Attempt} {r : ℕ}
    (h : ({ c with slots := c.slots ++ [{}], phase := phase, late := late } : Core).disposal r =
      .failed) : c.disposal r = .failed := by
  obtain ⟨slot, hslot, hfailed⟩ := disposal_failed h
  rcases slot_append hslot with ⟨-, rfl⟩ | hslot
  · cases hfailed
  · rw [disposal_of_slot hslot, hfailed]

theorem failed_dispose {q r : ℕ} (h : (c.dispose q).disposal r = .failed) :
    c.disposal r = .failed := by
  by_cases heq : r = q
  · subst heq
    obtain ⟨slot, hslot, hfailed⟩ := disposal_failed h
    rcases slot_modify hslot with ⟨-, slot', -, rfl⟩ | ⟨hne, -⟩
    · cases hfailed
    · exact absurd rfl hne
  · rw [disposal_dispose_ne heq] at h
    exact h

theorem Spent.moves {c' : Core} (h : c.Spent) (hinv : Inv c) (hm : Moves c c') : c'.Spent := by
  cases hm with
  | stop =>
      unfold Core.stopped
      split
      · exact h
      · rintro r ⟨⟩
  | start hphase hregistry =>
      refine h.phase ?_
      rintro (⟨attempt, due, hl⟩ | ⟨due, hl⟩)
      · cases hl
      · cases hl
  | tryAdapter hmay hfallback due =>
      rcases hmay with ⟨promise, hphase, -, hrejects⟩ | ⟨due', hphase⟩
      · intro r hr hfailed
        have hpromise := hinv.waits hfallback promise hphase
        exact absurd ⟨⟨r, false⟩, by rw [hpromise]; exact hr, rfl, hfailed⟩ hrejects
      · exact h.of_loops (.inr ⟨due', hphase⟩) rfl fun _ => id
  | tryRegistry hmay hfallback due =>
      rcases hmay with ⟨promise, hphase, -, hrejects⟩ | ⟨due', hphase⟩
      · intro r hr hfailed
        have hpromise := hinv.waits hfallback promise hphase
        exact absurd ⟨⟨r, false⟩, by rw [hpromise]; exact hr, rfl, failed_append hfailed⟩ hrejects
      · exact h.of_loops (.inr ⟨due', hphase⟩) rfl fun _ => failed_append
  | made hphase => exact h.of_loops (loops_of_phase hphase) rfl fun _ => failed_append
  | failed hphase => exact h.of_loops (loops_of_phase hphase) rfl fun _ => id
  | got hphase =>
      refine h.of_loops (loops_of_phase hphase) rfl ?_
      intro r hr
      obtain ⟨slot', hslot', hfailed⟩ := disposal_failed hr
      rcases slot_modify hslot' with ⟨rfl, slot, hslot, rfl⟩ | ⟨-, hslot⟩
      · rw [disposal_of_slot hslot]
        exact hfailed
      · rw [disposal_of_slot hslot, hfailed]
  | hold hphase => exact h.of_loops (loops_of_phase hphase) rfl fun _ => id
  | dispose hphase => exact h.of_loops (loops_of_phase hphase) rfl fun _ => failed_dispose
  | leave hphase => exact h.of_loops (loops_of_phase hphase) rfl fun _ => id
  | retry hphase => exact h.of_loops (loops_of_phase hphase) rfl fun _ => id
  | finish =>
      refine h.phase ?_
      rintro (⟨attempt, due, hl⟩ | ⟨due, hl⟩)
      · cases hl
      · cases hl
  | clear =>
      refine h.phase ?_
      rintro (⟨attempt, due, hl⟩ | ⟨due, hl⟩)
      · cases hl
      · cases hl
  | lateMade hj =>
      intro r hr hfailed
      exact absurd (List.mem_of_getElem? hj) (h r hr (failed_append hfailed)).2.2
  | lateFailed hj error =>
      intro r hr hfailed
      obtain ⟨hregistry, hloops, -⟩ := h r hr hfailed
      refine ⟨hregistry, hloops, ?_⟩
      rw [show _ = [Attempt.failed error] from hinv.late_set hj (.failed error),
        List.mem_singleton]
      exact nofun
  | lateGot hj =>
      intro r hr hfailed
      have hfailed : c.disposal r = .failed := by
        obtain ⟨slot', hslot', hfailed⟩ := disposal_failed hfailed
        rcases slot_modify hslot' with ⟨rfl, slot, hslot, rfl⟩ | ⟨-, hslot⟩
        · cases hfailed
        · rw [disposal_of_slot hslot, hfailed]
      obtain ⟨hregistry, hloops, -⟩ := h r hr hfailed
      refine ⟨hregistry, hloops, ?_⟩
      rw [show _ = [Attempt.got _] from hinv.late_set hj (.got _), List.mem_singleton]
      exact nofun
  | release hregistry =>
      rintro r ⟨⟩ hfailed
      exfalso
      obtain ⟨slot, hslot, hfailed⟩ := disposal_failed hfailed
      rcases slot_modify hslot with ⟨-, slot', -, rfl⟩ | ⟨hne, -⟩
      · cases hfailed
      · exact hne rfl
  | @settle q disposal hpending hsettled =>
      intro r hr hfailed
      by_cases heq : r = q
      · subst heq
        refine ⟨?_, ?_, ?_⟩
        · by_contra hne
          exact hinv.quiet (.inr (.inl (Option.isSome_iff_ne_none.mpr hne))) r hpending
        · exact fun hl => hinv.quiet (.inl hl) r hpending
        · exact fun hl => hinv.quiet (.inr (.inr hl)) r hpending
      · have hfailed' : c.disposal r = .failed := by
          obtain ⟨slot, hslot, hfailed⟩ := disposal_failed hfailed
          rcases slot_modify hslot with ⟨rfl, -⟩ | ⟨-, hslot⟩
          · exact absurd rfl heq
          · rw [disposal_of_slot hslot, hfailed]
        exact h r hr hfailed'

/-- A failed disposal that its release started stays the one an acquisition waits for, and no
registry is asked for. -/
theorem Spent.stays {c' : Core} (h : c.Spent) (hinv : Inv c) (hm : Moves c c') {r : ℕ}
    (hr : c.releasing = some ⟨r, false⟩) (hfailed : c.disposal r = .failed) :
    c'.releasing = some ⟨r, false⟩ ∧ c'.disposal r = .failed ∧
      c'.slots.length = c.slots.length := by
  obtain ⟨hregistry, hloops, hlate⟩ := h r hr hfailed
  obtain ⟨held, hheld, hdisposal⟩ := disposal_failed hfailed
  cases hm with
  | stop =>
      unfold Core.stopped
      rw [hregistry]
      exact ⟨hr, hfailed, rfl⟩
  | start => exact ⟨hr, hfailed, rfl⟩
  | tryAdapter => exact ⟨hr, hfailed, rfl⟩
  | tryRegistry hmay hfallback =>
      rcases hmay with ⟨promise, hphase, -, hrejects⟩ | ⟨due', hphase⟩
      · have hpromise := hinv.waits hfallback promise hphase
        exact absurd ⟨⟨r, false⟩, by rw [hpromise]; exact hr, rfl, hfailed⟩ hrejects
      · exact absurd (.inr ⟨due', hphase⟩) hloops
  | made hphase => exact absurd (loops_of_phase hphase) hloops
  | failed hphase => exact absurd (loops_of_phase hphase) hloops
  | got hphase => exact absurd (loops_of_phase hphase) hloops
  | hold hphase => exact absurd (loops_of_phase hphase) hloops
  | dispose hphase => exact absurd (loops_of_phase hphase) hloops
  | leave hphase => exact absurd (loops_of_phase hphase) hloops
  | retry hphase => exact absurd (loops_of_phase hphase) hloops
  | finish => exact ⟨hr, hfailed, rfl⟩
  | clear => exact ⟨hr, hfailed, rfl⟩
  | lateMade hj => exact absurd (List.mem_of_getElem? hj) hlate
  | lateFailed => exact ⟨hr, hfailed, rfl⟩
  | @lateGot j q hj =>
      obtain ⟨asked, hasked, -, hdisposals⟩ := hinv.asked q (.inr (List.mem_of_getElem? hj))
      have hne : r ≠ q := by
        rintro rfl
        rw [hheld] at hasked
        cases hasked
        have hnone := (hinv.begun r held hheld).mp hdisposals
        rw [hdisposal] at hnone
        cases hnone
      refine ⟨hr, ?_, by simp⟩
      rw [disposal, slot_modify_ne hne, hheld]
      exact hdisposal
  | release hheld =>
      rw [hregistry] at hheld
      cases hheld
  | @settle q disposal hpending hsettled =>
      have hne : r ≠ q := by
        rintro rfl
        rw [hfailed] at hpending
        cases hpending
      refine ⟨hr, ?_, by simp⟩
      rw [Core.disposal, slot_modify_ne hne, hheld]
      exact hdisposal

theorem Inv.run {c' : Core} (h : Inv c) (hm : Relation.ReflTransGen Moves c c') : Inv c' := by
  induction hm with
  | refl => exact h
  | tail _ hstep ih => exact ih.moves hstep

theorem Spent.run {c' : Core} (h : c.Spent) (hinv : Inv c)
    (hm : Relation.ReflTransGen Moves c c') : c'.Spent := by
  induction hm with
  | refl => exact h
  | tail hm hstep ih => exact ih.moves (hinv.run hm) hstep

theorem Spent.stays_run {c' : Core} (h : c.Spent) (hinv : Inv c)
    (hm : Relation.ReflTransGen Moves c c') {r : ℕ} (hr : c.releasing = some ⟨r, false⟩)
    (hfailed : c.disposal r = .failed) :
    c'.releasing = some ⟨r, false⟩ ∧ c'.disposal r = .failed ∧
      c'.slots.length = c.slots.length := by
  induction hm with
  | refl => exact ⟨hr, hfailed, rfl⟩
  | tail hm hstep ih =>
      obtain ⟨hr', hfailed', hlength⟩ := ih
      obtain ⟨hr', hfailed', hlength'⟩ := (h.run hinv hm).stays (hinv.run hm) hstep hr' hfailed'
      exact ⟨hr', hfailed', hlength'.trans hlength⟩

theorem fallback_moves {c' : Core} (hm : Moves c c') (h : c.fallback = true) :
    c'.fallback = true := by
  cases hm with
  | stop =>
      unfold Core.stopped
      split
      · rfl
      · rfl
  | _ => exact h

theorem fallback_run {c' : Core} (hm : Relation.ReflTransGen Moves c c')
    (h : c.fallback = true) : c'.fallback = true := by
  induction hm with
  | refl => exact h
  | tail _ hstep ih => exact fallback_moves hstep ih

end Inv

end Core

end LimitsLease
