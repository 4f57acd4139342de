import Mathlib.Order.Bounds.Basic
import OpenaiAuth.Sidebar.State

/-! # Persisting session pins

`persistSidebarStickyAssignment`: every process writes the pins it decided into
the shared file, and the merge keeps the newest placement of a session with the
largest request and the last sighting. The file lock makes a run of several
processes a list of writes.

Main results, for every list of writes of one session's pin:

* `storedPin_write`: what one write does to the stored pin;
* `storedPin_run`: what a run stores is the writes settled one after another;
* `stored_pin`: the stored pin is of the newest placement and carries the
  maxima written for it since another account last tied with it.
-/

namespace Sidebar.Pins

/-! ## The write -/

/-- One `persistSidebarStickyAssignment` call, and the clock under the lock. -/
structure Write where
  assignment : StickyAssignment
  validPinnedAccountIds : List String
  hooks : SidebarMergeHooks := {}
  now : ℚ
deriving DecidableEq, Repr

def samePlacement (left right : StickyAssignment) : Bool :=
  left.accountId = right.accountId && left.assignedAt = right.assignedAt

/-- The pin that is written over `current`. -/
def mergeAssignment (current : Option StickyAssignment) (assignment : StickyAssignment) :
    StickyAssignment :=
  match current with
  | none => assignment
  | some current =>
      if samePlacement current assignment then
        { assignment with
          inputBytes := max current.inputBytes assignment.inputBytes
          lastSeenAt := max current.lastSeenAt assignment.lastSeenAt }
      else assignment

/-- The merge of `persistSidebarStickyAssignment`. -/
def persistMerge (sessionHash : String) (write : Write) (latest : SidebarState) :
    Option SidebarState :=
  let vaultMode := write.hooks.vaultMode.getD latest.vaultAccounts.isSome
  let stickyAssignments := pruneStickyAssignments latest.stickyAssignments
    (if vaultMode then none else some write.validPinnedAccountIds) write.now
  let current := stickyAssignments.bind (·.get sessionHash)
  let lastUpdated := max write.now (latest.lastUpdated + 1)
  if current.any (write.assignment.assignedAt < ·.assignedAt) then
    if stickyAssignmentsEqual latest.stickyAssignments stickyAssignments then none
    else some { latest with stickyAssignments, lastUpdated }
  else
    let assignment := mergeAssignment current write.assignment
    some
      { latest with
        stickyAssignments := some (limitStickyAssignments
          ((stickyAssignments.getD .empty).set sessionHash assignment) sessionHash)
        lastUpdated }

variable (digest : SessionDigest) (sessionId : String)

def persistSidebarStickyAssignment (write : Write) (file : SidebarState) : SidebarState :=
  writeMergedSidebarState write.hooks (persistMerge (digest.hash sessionId) write) file

/-- The pin a reader of the file finds for the session. -/
def storedPin (file : SidebarState) : Option StickyAssignment :=
  (normalizeSidebarState file).pin (digest.hash sessionId)

def run (file : SidebarState) : List Write → SidebarState
  | [] => file
  | write :: rest => run (persistSidebarStickyAssignment digest sessionId write file) rest

/-- The session's pins written so far, newest first: what the file held at the
start counts as written before. -/
def history (file : SidebarState) (writes : List Write) : List StickyAssignment :=
  ((writes.filter (·.hooks.canWrite)).map (·.assignment)).reverse ++
    (storedPin digest sessionId file).toList

/-! ## What the writers have in common -/

/-- The writer's roster has the account: the listed ones for a local writer, the
vault's that are not killed for one in vault mode. -/
def accepts (write : Write) (file : SidebarState) (accountId : String) : Bool :=
  let roster := file.localRoster write.hooks
  if write.hooks.vaultMode.getD roster.vaultAccounts.isSome then
    isVaultId accountId &&
      !(roster.vaultAccounts.getD []).any fun account => account.id = accountId && account.killed
  else accountId ∈ write.validPinnedAccountIds

/-- The writer's roster contains the accounts involved, and the stored pin has
not expired. -/
structure Meets (file : SidebarState) (write : Write) : Prop where
  wellFormed : write.assignment.isWellFormed = true
  own : accepts write file write.assignment.accountId = true
  stored : ∀ pin ∈ storedPin digest sessionId file, accepts write file pin.accountId = true
  unexpired : ∀ pin ∈ storedPin digest sessionId file,
    write.now - stickyAssignmentMaxAgeMs ≤ pin.lastSeenAt

instance (file : SidebarState) (write : Write) :
    Decidable (Meets digest sessionId file write) :=
  decidable_of_iff
    (write.assignment.isWellFormed = true ∧
      accepts write file write.assignment.accountId = true ∧
      (∀ pin ∈ storedPin digest sessionId file, accepts write file pin.accountId = true) ∧
      ∀ pin ∈ storedPin digest sessionId file,
        write.now - stickyAssignmentMaxAgeMs ≤ pin.lastSeenAt)
    ⟨fun ⟨hwf, hown, hstored, hfresh⟩ => ⟨hwf, hown, hstored, hfresh⟩,
      fun h => ⟨h.wellFormed, h.own, h.stored, h.unexpired⟩⟩

def AllMeet (file : SidebarState) : List Write → Prop
  | [] => True
  | write :: rest =>
      Meets digest sessionId file write ∧
        AllMeet (persistSidebarStickyAssignment digest sessionId write file) rest

def decideAllMeet : (file : SidebarState) → (writes : List Write) →
    Decidable (AllMeet digest sessionId file writes)
  | _, [] => .isTrue trivial
  | file, write :: rest =>
      have := decideAllMeet (persistSidebarStickyAssignment digest sessionId write file) rest
      inferInstanceAs (Decidable (Meets digest sessionId file write ∧
        AllMeet digest sessionId (persistSidebarStickyAssignment digest sessionId write file) rest))

instance (file : SidebarState) (writes : List Write) :
    Decidable (AllMeet digest sessionId file writes) :=
  decideAllMeet digest sessionId file writes

/-! ## Settling placements

What the writes of one session amount to, away from the file. -/

/-- An older placement changes nothing; any other is merged with the pin. -/
def settle (current : Option StickyAssignment) (assignment : StickyAssignment) :
    StickyAssignment :=
  match current with
  | none => assignment
  | some current =>
      if assignment.assignedAt < current.assignedAt then current
      else mergeAssignment current assignment

/-- The pins, newest first, settled one after another. -/
def settled : List StickyAssignment → Option StickyAssignment
  | [] => none
  | a :: older => some (settle (settled older) a)

/-- The pins of `p`'s placement, back to the last one of another account that
was assigned at the same time. -/
def standing (p : StickyAssignment) : List StickyAssignment → List StickyAssignment
  | [] => []
  | a :: older =>
      if a.assignedAt ≠ p.assignedAt then standing p older
      else if a.accountId = p.accountId then a :: standing p older
      else []

/-- The newest pin assigned when `p` was is of `p`'s account. -/
def Leads (p : StickyAssignment) : List StickyAssignment → Prop
  | [] => False
  | a :: older =>
      if a.assignedAt = p.assignedAt then a.accountId = p.accountId else Leads p older

structure HighWater (p : StickyAssignment) (h : List StickyAssignment) : Prop where
  leads : Leads p h
  newest : ∀ a ∈ h, a.assignedAt ≤ p.assignedAt
  bytes : IsGreatest {n | ∃ a ∈ standing p h, a.inputBytes = n} p.inputBytes
  seen : IsGreatest {n | ∃ a ∈ standing p h, a.lastSeenAt = n} p.lastSeenAt

theorem standing_congr {p q : StickyAssignment} (h : samePlacement p q = true)
    (pins : List StickyAssignment) : standing p pins = standing q pins := by
  have hsame : p.accountId = q.accountId ∧ p.assignedAt = q.assignedAt := by
    simpa [samePlacement] using h
  induction pins with
  | nil => rfl
  | cons a older ih => simp only [standing, hsame.1, hsame.2, ih]

theorem Leads.mem {p : StickyAssignment} {h : List StickyAssignment} (hl : Leads p h) :
    ∃ a ∈ h, samePlacement a p = true := by
  induction h with
  | nil => exact hl.elim
  | cons a older ih =>
      by_cases hat : a.assignedAt = p.assignedAt
      · have hacct : a.accountId = p.accountId := by simpa [Leads, hat] using hl
        exact ⟨a, List.mem_cons_self, by simp [samePlacement, hat, hacct]⟩
      · have hrest : Leads p older := by simpa [Leads, hat] using hl
        rcases ih hrest with ⟨b, hb, hsame⟩
        exact ⟨b, List.mem_cons_of_mem a hb, hsame⟩

/-- A placement that another account leads, or that is newer than everything,
has nothing standing. -/
theorem standing_eq_nil {p c : StickyAssignment} {h : List StickyAssignment} (hl : Leads c h)
    (hnewest : ∀ a ∈ h, a.assignedAt ≤ c.assignedAt) (hle : c.assignedAt ≤ p.assignedAt)
    (hne : samePlacement c p = false) : standing p h = [] := by
  induction h with
  | nil => rfl
  | cons a older ih =>
      have holder : ∀ b ∈ older, b.assignedAt ≤ c.assignedAt := fun b hb =>
        hnewest b (List.mem_cons_of_mem a hb)
      have ha := hnewest a List.mem_cons_self
      by_cases hat : a.assignedAt = p.assignedAt
      · -- then `c` was assigned at the same time, by another account
        have hcp : c.assignedAt = p.assignedAt := le_antisymm hle (hat ▸ ha)
        have hac : a.assignedAt = c.assignedAt := by rw [hat, hcp]
        have hacct : a.accountId = c.accountId := by simpa [Leads, hac] using hl
        have hother : ¬ a.accountId = p.accountId := by
          intro heq
          simp [samePlacement, ← hacct, heq, hcp] at hne
        simp [standing, hat, hother]
      · rw [standing, if_pos hat]
        by_cases hac : a.assignedAt = c.assignedAt
        · -- `c` is older than `p`, and so is all of the history
          have hlt : c.assignedAt < p.assignedAt := lt_of_le_of_ne hle (hac ▸ hat)
          clear ih hl
          induction older with
          | nil => rfl
          | cons b rest ihr =>
              have hb := holder b List.mem_cons_self
              have hbp : b.assignedAt ≠ p.assignedAt := ne_of_lt (lt_of_le_of_lt hb hlt)
              rw [standing, if_pos hbp]
              apply ihr
              · intro d hd
                rcases List.mem_cons.mp hd with heq | hd
                · exact heq ▸ ha
                · exact holder d (List.mem_cons_of_mem b hd)
              · exact fun d hd => holder d (List.mem_cons_of_mem b hd)
        · have hrest : Leads c older := by simpa [Leads, hac] using hl
          exact ih hrest holder

theorem greatest_cons {f : StickyAssignment → ℚ} {pins : List StickyAssignment} {m : ℚ}
    (h : IsGreatest {n | ∃ a ∈ pins, f a = n} m) (a : StickyAssignment) :
    IsGreatest {n | ∃ b ∈ a :: pins, f b = n} (max m (f a)) := by
  constructor
  · rcases max_choice m (f a) with hmax | hmax
    · rcases h.1 with ⟨b, hb, heq⟩
      exact ⟨b, List.mem_cons_of_mem a hb, by rw [hmax, heq]⟩
    · exact ⟨a, List.mem_cons_self, hmax.symm⟩
  · rintro n ⟨b, hb, rfl⟩
    rcases List.mem_cons.mp hb with heq | hb
    · rw [heq]
      exact le_max_right m (f a)
    · exact (h.2 ⟨b, hb, rfl⟩).trans (le_max_left m (f a))

/-- One more pin: the three ways it can go. -/
theorem HighWater.settle {c : StickyAssignment} {h : List StickyAssignment} (hc : HighWater c h)
    (a : StickyAssignment) : HighWater (settle (some c) a) (a :: h) := by
  by_cases hlt : a.assignedAt < c.assignedAt
  · -- an older placement
    have hne : a.assignedAt ≠ c.assignedAt := ne_of_lt hlt
    have hkept : Pins.settle (some c) a = c := by simp [Pins.settle, hlt]
    rw [hkept]
    have hstanding : standing c (a :: h) = standing c h := by simp [standing, hne]
    constructor
    · simpa [Leads, hne] using hc.leads
    · intro b hb
      rcases List.mem_cons.mp hb with heq | hb
      · rw [heq]
        exact hlt.le
      · exact hc.newest b hb
    · rw [hstanding]
      exact hc.bytes
    · rw [hstanding]
      exact hc.seen
  · have hle : c.assignedAt ≤ a.assignedAt := not_lt.mp hlt
    have hnewest : ∀ b ∈ a :: h, b.assignedAt ≤ a.assignedAt := by
      intro b hb
      rcases List.mem_cons.mp hb with heq | hb
      · rw [heq]
      · exact (hc.newest b hb).trans hle
    by_cases hsame : samePlacement c a = true
    · -- the same placement: both high-water marks
      have hmerged : Pins.settle (some c) a =
          { a with
            inputBytes := max c.inputBytes a.inputBytes
            lastSeenAt := max c.lastSeenAt a.lastSeenAt } := by
        simp [Pins.settle, hlt, mergeAssignment, hsame]
      have hstanding : standing (Pins.settle (some c) a) (a :: h) = a :: standing c h := by
        rw [hmerged, standing_congr (q := a) (by simp [samePlacement]), standing_congr hsame h]
        simp [standing]
      constructor
      · rw [hmerged]
        simp [Leads]
      · rw [hmerged]
        exact hnewest
      · rw [hstanding, hmerged]
        exact greatest_cons hc.bytes a
      · rw [hstanding, hmerged]
        exact greatest_cons hc.seen a
    · -- another placement takes over
      have hother : samePlacement c a = false := by simpa using hsame
      have htaken : Pins.settle (some c) a = a := by
        simp [Pins.settle, hlt, mergeAssignment, hother]
      have hstanding : standing a (a :: h) = [a] := by
        simp [standing, standing_eq_nil hc.leads hc.newest hle hother]
      rw [htaken]
      constructor
      · simp [Leads]
      · exact hnewest
      · rw [hstanding]
        simp
      · rw [hstanding]
        simp

theorem HighWater.single (a : StickyAssignment) : HighWater a [a] := by
  constructor
  · simp [Leads]
  · simp
  · simp [standing]
  · simp [standing]

theorem highWater_settled {h : List StickyAssignment} {p : StickyAssignment}
    (hp : settled h = some p) : HighWater p h := by
  induction h generalizing p with
  | nil => cases hp
  | cons a older ih =>
      rw [← Option.some.inj hp]
      cases hold : settled older with
      | none =>
          have hnil : older = [] := by
            cases older with
            | nil => rfl
            | cons b rest => cases hold
          rw [hnil]
          exact .single a
      | some c => exact (ih hold).settle a

/-! ## One write -/

section

variable {digest sessionId} {file : SidebarState} {write : Write}

theorem localRoster_vaultAccounts {next : SidebarState} (hooks : SidebarMergeHooks)
    (hvault : next.vaultAccounts = file.vaultAccounts) :
    (next.localRoster hooks).vaultAccounts = (file.localRoster hooks).vaultAccounts := by
  unfold SidebarState.localRoster
  split
  · rfl
  · exact hvault

theorem localRoster_pin (hooks : SidebarMergeHooks) (next : SidebarState) (sessionHash : String) :
    (next.localRoster hooks).pin sessionHash = next.pin sessionHash := by
  unfold SidebarState.localRoster
  split <;> rfl

/-- Clearing the roster does not change which mode the writer is in. -/
theorem localRoster_vaultMode (hooks : SidebarMergeHooks) (state : SidebarState) :
    hooks.vaultMode.getD (state.localRoster hooks).vaultAccounts.isSome =
      hooks.vaultMode.getD state.vaultAccounts.isSome := by
  unfold SidebarState.localRoster
  cases hooks.vaultMode with
  | none => rfl
  | some mode => rfl

theorem storedPin_wellFormed {pin : StickyAssignment}
    (h : storedPin digest sessionId file = some pin) : pin.isWellFormed = true := by
  rw [storedPin, pin_normalize file (digest.isHash sessionId)] at h
  exact (Option.filter_eq_some_iff.mp h).2

theorem storedPin_of_pin {pin : StickyAssignment}
    (h : file.pin (digest.hash sessionId) = some pin) (hwf : pin.isWellFormed = true) :
    storedPin digest sessionId file = some pin := by
  rw [storedPin, pin_normalize file (digest.isHash sessionId), h]
  simp [hwf]

/-- A pin its writer accepts survives the filters after the merge. -/
theorem storedPin_merged {next : SidebarState} {pin : StickyAssignment}
    (hvault : next.vaultAccounts = file.vaultAccounts)
    (hpin : next.pin (digest.hash sessionId) = some pin) (hwf : pin.isWellFormed = true)
    (hacc : accepts write file pin.accountId = true) :
    storedPin digest sessionId (normalizeSidebarState
      (if write.hooks.vaultMode.getD (next.localRoster write.hooks).vaultAccounts.isSome then
        (next.localRoster write.hooks).vaultOnly
      else next.localRoster write.hooks)) = some pin := by
  have hroster := localRoster_vaultAccounts write.hooks hvault
  have hkept : (next.localRoster write.hooks).pin (digest.hash sessionId) = some pin := by
    rw [localRoster_pin, hpin]
  apply storedPin_of_pin _ hwf
  apply storedPin_of_pin _ hwf
  simp only [accepts] at hacc
  rw [hroster]
  by_cases hmode : write.hooks.vaultMode.getD (file.localRoster write.hooks).vaultAccounts.isSome
  · -- in vault mode the filter asks what the roster asked
    rw [if_pos hmode] at hacc ⊢
    rw [pin_vaultOnly, hkept, hroster]
    simp [hacc]
  · rw [if_neg hmode]
    exact hkept

/-- Pruning keeps the session's pin. -/
theorem pruned_pin (h : Meets digest sessionId file write) :
    (pruneStickyAssignments (normalizeSidebarState file).stickyAssignments
      (if write.hooks.vaultMode.getD (normalizeSidebarState file).vaultAccounts.isSome then none
        else some write.validPinnedAccountIds) write.now).bind
      (·.get (digest.hash sessionId)) = storedPin digest sessionId file := by
  rw [get_pruned]
  change (storedPin digest sessionId file).filter _ = _
  cases hpin : storedPin digest sessionId file with
  | none => rfl
  | some pin =>
      have hfresh : ¬ pin.lastSeenAt < write.now - stickyAssignmentMaxAgeMs :=
        not_lt.mpr (h.unexpired pin hpin)
      have hacc := h.stored pin hpin
      simp only [accepts, localRoster_vaultMode] at hacc
      have hvault : (normalizeSidebarState file).vaultAccounts = file.vaultAccounts := rfl
      rw [hvault, Option.filter_some, if_pos]
      rw [decide_eq_true hfresh, Bool.true_and]
      by_cases hmode : write.hooks.vaultMode.getD file.vaultAccounts.isSome
      · rw [if_pos hmode]
        rfl
      · rw [if_neg hmode] at hacc ⊢
        exact hacc

theorem mergeAssignment_accountId (current : Option StickyAssignment)
    (assignment : StickyAssignment) :
    (mergeAssignment current assignment).accountId = assignment.accountId := by
  unfold mergeAssignment
  cases current with
  | none => rfl
  | some current =>
      simp only
      split <;> rfl

theorem mergeAssignment_wellFormed {current : Option StickyAssignment}
    {assignment : StickyAssignment} (hwf : assignment.isWellFormed = true) :
    (mergeAssignment current assignment).isWellFormed = true := by
  unfold mergeAssignment
  cases current with
  | none => exact hwf
  | some current =>
      simp only
      split
      · simp only [StickyAssignment.isWellFormed, Bool.and_eq_true, decide_eq_true_eq] at hwf ⊢
        rcases hwf with ⟨⟨⟨⟨haccount, hassigned⟩, hseen⟩, hbytes⟩, hquota⟩
        exact ⟨⟨⟨⟨haccount, hassigned⟩, hseen.trans (le_max_right _ _)⟩,
          hbytes.trans (le_max_right _ _)⟩, hquota⟩
      · exact hwf

/-- What the merge asks to be written, if anything, has the settled pin. -/
theorem persistMerge_cases (h : Meets digest sessionId file write) :
    (persistMerge (digest.hash sessionId) write (normalizeSidebarState file) = none ∧
      storedPin digest sessionId file =
        some (settle (storedPin digest sessionId file) write.assignment)) ∨
    ∃ next, persistMerge (digest.hash sessionId) write (normalizeSidebarState file) = some next ∧
      next.vaultAccounts = file.vaultAccounts ∧
      next.pin (digest.hash sessionId) =
        some (settle (storedPin digest sessionId file) write.assignment) := by
  have hpruned := pruned_pin h
  simp only [persistMerge, hpruned]
  by_cases hnewer : (storedPin digest sessionId file).any (write.assignment.assignedAt < ·.assignedAt)
  · -- another process placed the session later
    have hsettle : storedPin digest sessionId file =
        some (settle (storedPin digest sessionId file) write.assignment) := by
      cases hpin : storedPin digest sessionId file with
      | none => simp [hpin] at hnewer
      | some pin =>
          have hlt : write.assignment.assignedAt < pin.assignedAt := by simpa [hpin] using hnewer
          simp [settle, hlt]
    rw [if_pos hnewer]
    by_cases hsame : stickyAssignmentsEqual (normalizeSidebarState file).stickyAssignments
        (pruneStickyAssignments (normalizeSidebarState file).stickyAssignments
          (if write.hooks.vaultMode.getD (normalizeSidebarState file).vaultAccounts.isSome then none
            else some write.validPinnedAccountIds) write.now) = true
    · rw [if_pos hsame]
      exact Or.inl ⟨rfl, hsettle⟩
    · rw [if_neg hsame]
      exact Or.inr ⟨_, rfl, rfl, hpruned.trans hsettle⟩
  · have hsettle : settle (storedPin digest sessionId file) write.assignment =
        mergeAssignment (storedPin digest sessionId file) write.assignment := by
      cases hpin : storedPin digest sessionId file with
      | none => rfl
      | some pin =>
          have hlt : ¬ write.assignment.assignedAt < pin.assignedAt := by simpa [hpin] using hnewer
          simp [settle, hlt]
    rw [if_neg hnewer, hsettle]
    -- the limit evicts other sessions only
    exact Or.inr ⟨_, rfl, rfl, by simp [SidebarState.pin, get_limited]⟩

theorem settle_accountId (current : Option StickyAssignment) (assignment : StickyAssignment) :
    some (settle current assignment) = current ∨
      (settle current assignment).accountId = assignment.accountId := by
  unfold settle
  cases current with
  | none => exact Or.inr rfl
  | some current =>
      simp only
      split
      · exact Or.inl rfl
      · exact Or.inr (mergeAssignment_accountId _ _)

theorem settle_wellFormed {current : Option StickyAssignment} {assignment : StickyAssignment}
    (hwf : assignment.isWellFormed = true)
    (hcurrent : ∀ pin, current = some pin → pin.isWellFormed = true) :
    (settle current assignment).isWellFormed = true := by
  unfold settle
  cases current with
  | none => exact hwf
  | some current =>
      simp only
      split
      · exact hcurrent current rfl
      · exact mergeAssignment_wellFormed hwf

/-- Neither pruning, the limit nor the vault filter touches a pin its writer
accepts: one write settles its pin with the stored one. -/
theorem storedPin_write (h : Meets digest sessionId file write)
    (hcan : write.hooks.canWrite = true) :
    storedPin digest sessionId (persistSidebarStickyAssignment digest sessionId write file) =
      some (settle (storedPin digest sessionId file) write.assignment) := by
  unfold persistSidebarStickyAssignment writeMergedSidebarState
  rw [if_neg (by simp [hcan])]
  rcases persistMerge_cases h with ⟨hnone, hkept⟩ | ⟨next, hnext, hvault, hpin⟩
  · rw [hnone]
    exact hkept
  · rw [hnext]
    apply storedPin_merged hvault hpin
    · exact settle_wellFormed h.wellFormed fun _ => storedPin_wellFormed
    · rcases settle_accountId (storedPin digest sessionId file) write.assignment with hold | hnew
      · exact h.stored _ hold.symm
      · rw [hnew]
        exact h.own

/-- A write that may no longer be made leaves the file alone. -/
theorem persist_refused (hcan : write.hooks.canWrite = false) :
    persistSidebarStickyAssignment digest sessionId write file = file := by
  unfold persistSidebarStickyAssignment writeMergedSidebarState
  rw [if_pos (by simp [hcan])]

end

/-! ## Runs -/

section

variable {digest sessionId} {file : SidebarState} {writes : List Write}

theorem settled_append_toList (older : Option StickyAssignment) (newer : List StickyAssignment)
    (a : StickyAssignment) :
    settled (newer ++ (some (settle older a)).toList) = settled (newer ++ a :: older.toList) := by
  induction newer with
  | nil =>
      cases older with
      | none => rfl
      | some c => rfl
  | cons b newer ih => simp only [List.cons_append, settled, ih]

/-- A run stores what its writes settle to. -/
theorem storedPin_run (h : AllMeet digest sessionId file writes) :
    storedPin digest sessionId (run digest sessionId file writes) =
      settled (history digest sessionId file writes) := by
  induction writes generalizing file with
  | nil =>
      cases hpin : storedPin digest sessionId file with
      | none => simp [run, history, hpin, settled]
      | some pin => simp [run, history, hpin, settled, settle]
  | cons write rest ih =>
      rw [run, ih h.2]
      unfold history
      by_cases hcan : write.hooks.canWrite = true
      · rw [storedPin_write h.1 hcan, settled_append_toList, List.filter_cons_of_pos (by simpa using hcan)]
        simp
      · have hrefused : write.hooks.canWrite = false := by simpa using hcan
        rw [persist_refused hrefused, List.filter_cons_of_neg (by simpa using hcan)]

theorem run_append (before after : List Write) :
    run digest sessionId file (before ++ after) =
      run digest sessionId (run digest sessionId file before) after := by
  induction before generalizing file with
  | nil => rfl
  | cons write before ih => exact ih

theorem allMeet_append {before after : List Write}
    (h : AllMeet digest sessionId file (before ++ after)) :
    AllMeet digest sessionId (run digest sessionId file before) after := by
  induction before generalizing file with
  | nil => exact h
  | cons write before ih => exact ih h.2

end

/-- In any run of several processes' writes the stored pin is of a placement
that was written, none written is newer, and it carries the maxima written for
it since another account last tied with it; an older placement leaves it as it
was. -/
theorem stored_pin (digest : SessionDigest) (sessionId : String) (file : SidebarState)
    (writes : List Write) (h : AllMeet digest sessionId file writes) :
    (history digest sessionId file writes ≠ [] →
      (storedPin digest sessionId (run digest sessionId file writes)).isSome = true) ∧
    (∀ p, storedPin digest sessionId (run digest sessionId file writes) = some p →
      (∃ a ∈ history digest sessionId file writes, samePlacement a p = true) ∧
      (∀ a ∈ history digest sessionId file writes, a.assignedAt ≤ p.assignedAt) ∧
      IsGreatest {n | ∃ a ∈ standing p (history digest sessionId file writes), a.inputBytes = n}
        p.inputBytes ∧
      IsGreatest {n | ∃ a ∈ standing p (history digest sessionId file writes), a.lastSeenAt = n}
        p.lastSeenAt) ∧
    (∀ before write after p, writes = before ++ write :: after →
      storedPin digest sessionId (run digest sessionId file before) = some p →
      write.assignment.assignedAt < p.assignedAt →
      storedPin digest sessionId (run digest sessionId file (before ++ [write])) = some p) := by
  refine ⟨?_, ?_, ?_⟩
  · intro hne
    rw [storedPin_run h]
    cases hlist : history digest sessionId file writes with
    | nil => exact absurd hlist hne
    | cons a older => rfl
  · intro p hp
    rw [storedPin_run h] at hp
    have hwater := highWater_settled hp
    exact ⟨hwater.leads.mem, hwater.newest, hwater.bytes, hwater.seen⟩
  · intro before write after p hwrites hp hlt
    have hmeets : Meets digest sessionId (run digest sessionId file before) write := by
      rw [hwrites] at h
      exact (allMeet_append h).1
    rw [run_append]
    by_cases hcan : write.hooks.canWrite = true
    · have hstep := storedPin_write hmeets hcan
      rw [hp] at hstep
      simpa [run, settle, hlt] using hstep
    · have hrefused : write.hooks.canWrite = false := by simpa using hcan
      simpa [run, persist_refused hrefused] using hp

/-! ## Two accounts assigned at the same time -/

/-- The digest of the session id `session`. -/
def sessionDigest : SessionDigest where
  hash := fun _ => "3f3af1ecebbd1410ab417ec0d27bbfcb5d340e177ae159b59fc8626c2dfd9175"
  isHash := fun _ => by decide

/-- One process pins the session to account `a`, a second one to `b` in the same
millisecond, and the first reports a smaller request. -/
def tiedWrites : List Write :=
  [{ assignment := { accountId := "a", assignedAt := 5, lastSeenAt := 5, inputBytes := 100 },
     validPinnedAccountIds := ["a", "b"], now := 5 },
   { assignment := { accountId := "b", assignedAt := 5, lastSeenAt := 5, inputBytes := 10 },
     validPinnedAccountIds := ["a", "b"], now := 6 },
   { assignment := { accountId := "a", assignedAt := 5, lastSeenAt := 7, inputBytes := 50 },
     validPinnedAccountIds := ["a", "b"], now := 7 }]

/-- The stored pin need not carry the largest request of its placement. -/
theorem stored_pin_tied :
    ¬ ∀ (digest : SessionDigest) (sessionId : String) (file : SidebarState) (writes : List Write),
      AllMeet digest sessionId file writes →
      ∀ p ∈ storedPin digest sessionId (run digest sessionId file writes),
        ∀ a ∈ history digest sessionId file writes,
          samePlacement a p = true → a.inputBytes ≤ p.inputBytes := by
  intro h
  have hrun : AllMeet sessionDigest "session" {} tiedWrites := by decide +kernel
  have hall := h sessionDigest "session" {} tiedWrites hrun
  revert hall
  decide +kernel

theorem stored_pin_session :
    (storedPin sessionDigest "session" (run sessionDigest "session" {} tiedWrites)).isSome = true :=
  (stored_pin sessionDigest "session" {} tiedWrites (by decide +kernel)).1 (by decide +kernel)

end Sidebar.Pins
