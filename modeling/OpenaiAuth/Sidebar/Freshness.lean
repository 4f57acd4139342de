import Mathlib.Order.WithBot
import Mathlib.Tactic.NormNum
import OpenaiAuth.Sidebar.Quota

/-! # What a merge knows of time

`mergeQuotaByWindow` keeps the later of two windows of a slot, and gives the merged
snapshot the stamps of the windows that survive. That is the freshness of the fresher side
only where a surviving window bears it.

Main result: `merge_keeps_time`, for every two snapshots.
-/

namespace Sidebar

inductive QuotaSlot where
  | primary
  | secondary
deriving DecidableEq, Repr

def AccountQuota.window (quota : AccountQuota) : QuotaSlot → Option QuotaWindow
  | .primary => quota.primary
  | .secondary => quota.secondary

namespace Quota

/-! ## Stamps -/

/-- A stamp as a point in time, before every other where it is absent. -/
def time : Option ℚ → WithBot ℚ
  | none => ⊥
  | some stamp => stamp

/-- The stamp that a window bears itself. -/
def ownTime (window : Option QuotaWindow) : WithBot ℚ := time (window.bind (·.checkedAt))

/-- The stamp a window is judged by. -/
def effectiveTime (quota : AccountQuota) (slot : QuotaSlot) : WithBot ℚ :=
  time (finiteWindowCheckedAt (quota.window slot) quota.checkedAt)

def freshness (quota : AccountQuota) : WithBot ℚ := time (latestQuotaCheckedAt (some quota))

theorem existingIsFresher_iff {incomingAt existingAt : Option ℚ} :
    existingIsFresher incomingAt existingAt = true ↔ time incomingAt < time existingAt := by
  unfold existingIsFresher
  cases existingAt with
  | none => simp [time]
  | some existing =>
      cases incomingAt with
      | none => simp [time, WithBot.bot_lt_coe]
      | some incoming => simp [time, WithBot.coe_lt_coe]

theorem time_or (first second : Option ℚ) :
    time (first.or second) = if time first = ⊥ then time second else time first := by
  cases first with
  | none => simp [time]
  | some p => simp [time]

variable {quota incoming existing : AccountQuota} {slot : QuotaSlot}

theorem freshness_eq (quota : AccountQuota) :
    freshness quota = max (max (ownTime (quota.window .primary)) (ownTime (quota.window .secondary)))
      (time quota.checkedAt) := by
  unfold freshness latestQuotaCheckedAt ownTime AccountQuota.window
  simp only [List.foldl_cons, List.foldl_nil, Option.bind_some]
  cases quota.primary.bind (·.checkedAt) <;> cases quota.secondary.bind (·.checkedAt) <;>
    cases quota.checkedAt <;> simp [time]

theorem ownTime_le_freshness (quota : AccountQuota) (slot : QuotaSlot) :
    ownTime (quota.window slot) ≤ freshness quota := by
  rw [freshness_eq]
  cases slot with
  | primary => exact (le_max_left _ _).trans (le_max_left _ _)
  | secondary => exact (le_max_right _ _).trans (le_max_left _ _)

theorem time_le_freshness (quota : AccountQuota) : time quota.checkedAt ≤ freshness quota := by
  rw [freshness_eq]
  exact le_max_right _ _

/-- The freshness of a snapshot is the stamp of a window or its own. -/
theorem freshness_attained (quota : AccountQuota) :
    (∃ slot, ownTime (quota.window slot) = freshness quota) ∨
      time quota.checkedAt = freshness quota := by
  rw [freshness_eq]
  rcases max_choice (max (ownTime (quota.window .primary)) (ownTime (quota.window .secondary)))
    (time quota.checkedAt) with windows | stamp
  · rw [windows]
    rcases max_choice (ownTime (quota.window .primary)) (ownTime (quota.window .secondary)) with
      first | second
    · exact .inl ⟨.primary, first.symm⟩
    · exact .inl ⟨.secondary, second.symm⟩
  · rw [stamp]
    exact .inr rfl

theorem effectiveTime_eq (quota : AccountQuota) (slot : QuotaSlot) :
    effectiveTime quota slot = if ownTime (quota.window slot) = ⊥ then time quota.checkedAt
      else ownTime (quota.window slot) :=
  time_or _ _

theorem effectiveTime_of_own (own : ownTime (quota.window slot) ≠ ⊥) :
    effectiveTime quota slot = ownTime (quota.window slot) := by
  rw [effectiveTime_eq, if_neg own]

theorem effectiveTime_of_unstamped (unstamped : ownTime (quota.window slot) = ⊥) :
    effectiveTime quota slot = time quota.checkedAt := by
  rw [effectiveTime_eq, if_pos unstamped]

theorem effectiveTime_le_freshness (quota : AccountQuota) (slot : QuotaSlot) :
    effectiveTime quota slot ≤ freshness quota := by
  rw [effectiveTime_eq]
  split_ifs
  · exact time_le_freshness quota
  · exact ownTime_le_freshness quota slot

/-! ## The merge -/

/-- What a merge of two snapshots should leave. The incoming side counts as the fresher one
in a tie. -/
structure NeverBackwards (incoming existing merged : AccountQuota) : Prop where
  both : ∀ slot i e, incoming.window slot = some i → existing.window slot = some e →
    merged.window slot =
      some (if effectiveTime incoming slot < effectiveTime existing slot then e else i)
  incomingOnly : ∀ slot i, incoming.window slot = some i → existing.window slot = none →
    merged.window slot = if freshness existing ≤ freshness incoming then some i else none
  existingOnly : ∀ slot e, incoming.window slot = none → existing.window slot = some e →
    merged.window slot = if freshness incoming < freshness existing then some e else none
  neither : ∀ slot, incoming.window slot = none → existing.window slot = none →
    merged.window slot = none
  kept : freshness merged = max (freshness incoming) (freshness existing)

/-- A window of the snapshot bears its freshest stamp. -/
def Bears (quota : AccountQuota) : Prop :=
  freshness quota ≠ ⊥ ∧ ∃ slot, ownTime (quota.window slot) = freshness quota

/-- A window of the fresher side bears the freshest stamp. Where it is the incoming side that
is fresher, one of the other side's windows may also bear it beside an older stamped one, or
none of its stamped windows survives: each is met by a window that is judged by the other
snapshot's later stamp. -/
def KeepsTime (incoming existing : AccountQuota) : Prop :=
  if freshness incoming < freshness existing then Bears existing
  else
    Bears incoming ∨
    (∃ slot, ownTime (incoming.window slot) ≠ ⊥ ∧
      ownTime (existing.window slot) = freshness incoming) ∨
    ∀ slot, ownTime (incoming.window slot) ≠ ⊥ →
      (existing.window slot).isSome = true ∧ ownTime (existing.window slot) = ⊥ ∧
        ownTime (incoming.window slot) < time existing.checkedAt

/-- The window that survives in a slot. -/
def survivor (incoming existing : AccountQuota) (slot : QuotaSlot) : Option QuotaWindow :=
  if (incoming.window slot).isSome && (existing.window slot).isSome then
    if effectiveTime incoming slot < effectiveTime existing slot then existing.window slot
    else incoming.window slot
  else if freshness incoming < freshness existing then existing.window slot
  else incoming.window slot

theorem freshestWindow_eq (slot : QuotaSlot) :
    freshestWindow (incoming.window slot) (existing.window slot)
      (existingIsFresher (latestQuotaCheckedAt (some incoming)) (latestQuotaCheckedAt (some existing)))
      incoming.checkedAt existing.checkedAt = survivor incoming existing slot := by
  unfold freshestWindow survivor effectiveTime freshness
  simp only [existingIsFresher_iff]

theorem merged_window {merged : AccountQuota}
    (h : mergeQuotaByWindow (some incoming) (some existing) = some merged) (slot : QuotaSlot) :
    merged.window slot = survivor incoming existing slot := by
  rw [← freshestWindow_eq]
  simp only [mergeQuotaByWindow, Option.some.injEq] at h
  rw [← h]
  cases slot <;> rfl

/-- The stamps that survive, the later one of the two slots. -/
def survivingTime (incoming existing : AccountQuota) : WithBot ℚ :=
  max (ownTime (survivor incoming existing .primary)) (ownTime (survivor incoming existing .secondary))

theorem merged_time {merged : AccountQuota}
    (h : mergeQuotaByWindow (some incoming) (some existing) = some merged) :
    time merged.checkedAt = if survivingTime incoming existing = ⊥ then time incoming.checkedAt
      else survivingTime incoming existing := by
  have primary := merged_window h .primary
  have secondary := merged_window h .secondary
  simp only [mergeQuotaByWindow, Option.some.injEq] at h
  rw [← h] at primary secondary ⊢
  simp only [AccountQuota.window] at primary secondary
  simp only [primary, secondary, finiteWindowCheckedAt, Option.or_none]
  unfold survivingTime ownTime
  cases (survivor incoming existing .primary).bind (·.checkedAt) <;>
    cases (survivor incoming existing .secondary).bind (·.checkedAt) <;>
      cases incoming.checkedAt <;> simp [time]

theorem merged_freshness {merged : AccountQuota}
    (h : mergeQuotaByWindow (some incoming) (some existing) = some merged) :
    freshness merged = if survivingTime incoming existing = ⊥ then time incoming.checkedAt
      else survivingTime incoming existing := by
  rw [freshness_eq, merged_window h, merged_window h, merged_time h]
  change max (survivingTime incoming existing) _ = _
  split_ifs with unstamped
  · rw [unstamped, max_eq_right bot_le]
  · exact max_self _

/-! ## The windows -/

theorem survivor_both {i e : QuotaWindow} (hi : incoming.window slot = some i)
    (he : existing.window slot = some e) :
    survivor incoming existing slot =
      some (if effectiveTime incoming slot < effectiveTime existing slot then e else i) := by
  unfold survivor
  rw [hi, he]
  simp only [Option.isSome_some, Bool.and_self, if_true]
  split_ifs <;> rfl

theorem survivor_oneSided
    (h : (incoming.window slot).isSome = false ∨ (existing.window slot).isSome = false) :
    survivor incoming existing slot =
      if freshness incoming < freshness existing then existing.window slot
      else incoming.window slot := by
  unfold survivor
  rcases h with absent | absent <;> rw [absent] <;> simp

variable (incoming existing) in
/-- A survivor is of one of the sides. -/
theorem survivor_or (slot : QuotaSlot) :
    survivor incoming existing slot = incoming.window slot ∨
      survivor incoming existing slot = existing.window slot := by
  unfold survivor
  split_ifs
  · exact .inr rfl
  · exact .inl rfl
  · exact .inr rfl
  · exact .inl rfl

/-- In a fresher existing snapshot the window that bears its stamp survives. -/
theorem survivor_existing (fresher : freshness incoming < freshness existing)
    (bears : ownTime (existing.window slot) = freshness existing) :
    survivor incoming existing slot = existing.window slot := by
  have stamped : ownTime (existing.window slot) ≠ ⊥ := by
    rw [bears]
    exact (bot_le.trans_lt fresher).ne'
  have later : effectiveTime incoming slot < effectiveTime existing slot := by
    rw [effectiveTime_of_own stamped, bears]
    exact (effectiveTime_le_freshness incoming slot).trans_lt fresher
  unfold survivor
  rw [if_pos later, if_pos fresher]
  exact ite_self _

/-- In an incoming snapshot that is as fresh, the window that bears its stamp survives. -/
theorem survivor_incoming (fresher : freshness existing ≤ freshness incoming)
    (bears : ownTime (incoming.window slot) = freshness incoming)
    (stamped : freshness incoming ≠ ⊥) :
    survivor incoming existing slot = incoming.window slot := by
  have later : ¬effectiveTime incoming slot < effectiveTime existing slot := by
    rw [effectiveTime_of_own (bears ▸ stamped), bears]
    exact not_lt.mpr ((effectiveTime_le_freshness existing slot).trans fresher)
  unfold survivor
  rw [if_neg later, if_neg (not_lt.mpr fresher)]
  exact ite_self _

theorem survivingTime_le :
    survivingTime incoming existing ≤ max (freshness incoming) (freshness existing) := by
  have each : ∀ slot, ownTime (survivor incoming existing slot) ≤
      max (freshness incoming) (freshness existing) := by
    intro slot
    rcases survivor_or incoming existing slot with side | side
    · rw [side]
      exact (ownTime_le_freshness incoming slot).trans (le_max_left _ _)
    · rw [side]
      exact (ownTime_le_freshness existing slot).trans (le_max_right _ _)
  exact max_le (each .primary) (each .secondary)

theorem ownTime_le_survivingTime (slot : QuotaSlot) :
    ownTime (survivor incoming existing slot) ≤ survivingTime incoming existing := by
  cases slot with
  | primary => exact le_max_left _ _
  | secondary => exact le_max_right _ _

variable (incoming existing) in
theorem survivingTime_attained :
    ∃ slot, ownTime (survivor incoming existing slot) = survivingTime incoming existing := by
  unfold survivingTime
  rcases max_choice (ownTime (survivor incoming existing .primary))
    (ownTime (survivor incoming existing .secondary)) with first | second
  · exact ⟨.primary, first.symm⟩
  · exact ⟨.secondary, second.symm⟩

theorem survivingTime_eq_bot :
    survivingTime incoming existing = ⊥ ↔
      ∀ slot, ownTime (survivor incoming existing slot) = ⊥ := by
  constructor
  · intro unstamped slot
    exact le_bot_iff.mp ((ownTime_le_survivingTime slot).trans_eq unstamped)
  · intro unstamped
    obtain ⟨slot, attained⟩ := survivingTime_attained incoming existing
    rw [← attained, unstamped]

/-! ## The freshness of a merge -/

variable (slot) in
/-- A surviving window that bears the freshest stamp hands it to the merged snapshot. -/
theorem freshness_of_survivor {merged : AccountQuota}
    (h : mergeQuotaByWindow (some incoming) (some existing) = some merged)
    (stamped : ownTime (survivor incoming existing slot) ≠ ⊥)
    (bears : ownTime (survivor incoming existing slot) =
      max (freshness incoming) (freshness existing)) :
    freshness merged = max (freshness incoming) (freshness existing) := by
  have all : survivingTime incoming existing = max (freshness incoming) (freshness existing) :=
    le_antisymm survivingTime_le (bears ▸ ownTime_le_survivingTime slot)
  rw [merged_freshness h, all, if_neg]
  exact bears ▸ stamped

theorem kept_of_fresher_existing {merged : AccountQuota}
    (h : mergeQuotaByWindow (some incoming) (some existing) = some merged)
    (fresher : freshness incoming < freshness existing) :
    freshness merged = max (freshness incoming) (freshness existing) ↔ Bears existing := by
  have freshest : max (freshness incoming) (freshness existing) = freshness existing :=
    max_eq_right fresher.le
  have known : freshness existing ≠ ⊥ := (bot_le.trans_lt fresher).ne'
  constructor
  · intro kept
    rw [merged_freshness h, freshest] at kept
    split_ifs at kept
    · -- the stamp would be the incoming snapshot's own
      exact absurd kept ((time_le_freshness incoming).trans_lt fresher).ne
    · obtain ⟨slot, attained⟩ := survivingTime_attained incoming existing
      rw [kept] at attained
      refine ⟨known, slot, ?_⟩
      rcases survivor_or incoming existing slot with side | side
      · rw [side] at attained
        exact absurd attained ((ownTime_le_freshness incoming slot).trans_lt fresher).ne
      · rwa [side] at attained
  · rintro ⟨-, slot, bears⟩
    have survives := survivor_existing fresher bears
    refine freshness_of_survivor slot h ?_ ?_
    · rw [survives, bears]
      exact known
    · rw [survives, bears, freshest]

theorem freshness_of_bearing {merged : AccountQuota}
    (h : mergeQuotaByWindow (some incoming) (some existing) = some merged)
    (fresher : freshness existing ≤ freshness incoming)
    (bears : ownTime (incoming.window slot) = freshness incoming)
    (known : freshness incoming ≠ ⊥) :
    freshness merged = max (freshness incoming) (freshness existing) := by
  have survives := survivor_incoming fresher bears known
  refine freshness_of_survivor slot h ?_ ?_
  · rw [survives, bears]
    exact known
  · rw [survives, bears, max_eq_left fresher]

theorem window_of_own (own : ownTime (quota.window slot) ≠ ⊥) :
    ∃ w, quota.window slot = some w := by
  rcases present : quota.window slot with _ | w
  · rw [present] at own
    exact absurd rfl own
  · exact ⟨w, rfl⟩

/-- A stamped window whose slot comes out unstamped was met by one judged by its snapshot's
later stamp. -/
theorem replaced_of_unstamped (fresher : freshness existing ≤ freshness incoming)
    (own : ownTime (incoming.window slot) ≠ ⊥)
    (gone : ownTime (survivor incoming existing slot) = ⊥) :
    (existing.window slot).isSome = true ∧ ownTime (existing.window slot) = ⊥ ∧
      ownTime (incoming.window slot) < time existing.checkedAt := by
  obtain ⟨i, hi⟩ := window_of_own own
  rcases he : existing.window slot with _ | e
  · rw [survivor_oneSided (.inr (by rw [he]; rfl)), if_neg (not_lt.mpr fresher)] at gone
    exact absurd gone own
  rw [survivor_both hi he] at gone
  split_ifs at gone with later
  · have unstamped : ownTime (existing.window slot) = ⊥ := by rw [he, gone]
    rw [effectiveTime_of_own own, effectiveTime_of_unstamped unstamped] at later
    exact ⟨rfl, gone, later⟩
  · rw [hi, gone] at own
    exact absurd rfl own

/-- Where a stamp survives beside an unstamped window, another window bears it. -/
theorem bears_of_unstamped (fresher : freshness existing ≤ freshness incoming)
    (own : ownTime (incoming.window slot) = ⊥)
    (attained : ownTime (survivor incoming existing slot) = freshness incoming)
    (known : freshness incoming ≠ ⊥) : Bears incoming := by
  refine ⟨known, ?_⟩
  rcases freshness_attained incoming with window | stamp
  · exact window
  -- the snapshot's own stamp would have kept the unstamped window
  have kept : survivor incoming existing slot = incoming.window slot := by
    have later : ¬effectiveTime incoming slot < effectiveTime existing slot := by
      rw [effectiveTime_of_unstamped own, stamp]
      exact not_lt.mpr ((effectiveTime_le_freshness existing slot).trans fresher)
    unfold survivor
    rw [if_neg later, if_neg (not_lt.mpr fresher)]
    exact ite_self _
  rw [kept, own] at attained
  exact absurd attained.symm known

/-- A window of the other side that bears the same stamp beats an older one. -/
theorem survivor_tied (own : ownTime (incoming.window slot) ≠ ⊥)
    (tied : ownTime (existing.window slot) = freshness incoming)
    (older : ownTime (incoming.window slot) < freshness incoming) :
    survivor incoming existing slot = existing.window slot := by
  have stamped : ownTime (existing.window slot) ≠ ⊥ := by
    rw [tied]
    exact (bot_le.trans_lt older).ne'
  obtain ⟨i, hi⟩ := window_of_own own
  obtain ⟨e, he⟩ := window_of_own stamped
  have later : effectiveTime incoming slot < effectiveTime existing slot := by
    rw [effectiveTime_of_own own, effectiveTime_of_own stamped, tied]
    exact older
  rw [survivor_both hi he, if_pos later, he]

section Replaced

variable (fresher : freshness existing ≤ freshness incoming)
  (replaced : ∀ slot, ownTime (incoming.window slot) ≠ ⊥ →
    (existing.window slot).isSome = true ∧ ownTime (existing.window slot) = ⊥ ∧
      ownTime (incoming.window slot) < time existing.checkedAt)
include fresher replaced

theorem time_of_replaced : time incoming.checkedAt = freshness incoming := by
  rcases freshness_attained incoming with ⟨slot, bears⟩ | stamp
  · by_cases own : ownTime (incoming.window slot) = ⊥
    · -- nothing is stamped at all
      have least : freshness incoming = ⊥ := bears.symm.trans own
      rw [least]
      exact le_bot_iff.mp ((time_le_freshness incoming).trans_eq least)
    · have later := (replaced slot own).2.2
      rw [bears] at later
      exact absurd later (not_lt.mpr ((time_le_freshness existing).trans fresher))
  · exact stamp

theorem unstamped_of_replaced (slot : QuotaSlot) :
    ownTime (survivor incoming existing slot) = ⊥ := by
  rcases hi : incoming.window slot with _ | i
  · rw [survivor_oneSided (.inl (by rw [hi]; rfl)), if_neg (not_lt.mpr fresher), hi]
    rfl
  by_cases own : ownTime (incoming.window slot) = ⊥
  · -- the incoming snapshot's stamp is the freshest, so its window stays
    have later : ¬effectiveTime incoming slot < effectiveTime existing slot := by
      rw [effectiveTime_of_unstamped own, time_of_replaced fresher replaced]
      exact not_lt.mpr ((effectiveTime_le_freshness existing slot).trans fresher)
    unfold survivor
    rw [if_neg later, if_neg (not_lt.mpr fresher), ite_self]
    exact own
  · obtain ⟨present, unstamped, later⟩ := replaced slot own
    obtain ⟨e, he⟩ := Option.isSome_iff_exists.mp present
    have judged : effectiveTime incoming slot < effectiveTime existing slot := by
      rw [effectiveTime_of_own own, effectiveTime_of_unstamped unstamped]
      exact later
    rw [survivor_both hi he, if_pos judged, ← he]
    exact unstamped

end Replaced

theorem kept_of_fresher_incoming {merged : AccountQuota}
    (h : mergeQuotaByWindow (some incoming) (some existing) = some merged)
    (fresher : freshness existing ≤ freshness incoming) :
    freshness merged = max (freshness incoming) (freshness existing) ↔
      Bears incoming ∨
      (∃ slot, ownTime (incoming.window slot) ≠ ⊥ ∧
        ownTime (existing.window slot) = freshness incoming) ∨
      ∀ slot, ownTime (incoming.window slot) ≠ ⊥ →
        (existing.window slot).isSome = true ∧ ownTime (existing.window slot) = ⊥ ∧
          ownTime (incoming.window slot) < time existing.checkedAt := by
  constructor
  · intro kept
    rw [merged_freshness h, max_eq_left fresher] at kept
    split_ifs at kept with unstamped
    · right
      right
      intro slot own
      exact replaced_of_unstamped fresher own (survivingTime_eq_bot.mp unstamped slot)
    · obtain ⟨slot, attained⟩ := survivingTime_attained incoming existing
      rw [kept] at attained unstamped
      by_cases own : ownTime (incoming.window slot) = ⊥
      · exact .inl (bears_of_unstamped fresher own attained unstamped)
      rcases survivor_or incoming existing slot with side | side
      · rw [side] at attained
        exact .inl ⟨unstamped, slot, attained⟩
      · rw [side] at attained
        exact .inr (.inl ⟨slot, own, attained⟩)
  · rintro (⟨known, slot, bears⟩ | ⟨slot, own, tied⟩ | replaced)
    · exact freshness_of_bearing h fresher bears known
    · by_cases same : ownTime (incoming.window slot) = freshness incoming
      · exact freshness_of_bearing h fresher same (same ▸ own)
      have older : ownTime (incoming.window slot) < freshness incoming :=
        lt_of_le_of_ne (ownTime_le_freshness incoming slot) same
      have survives := survivor_tied own tied older
      refine freshness_of_survivor slot h ?_ ?_
      · rw [survives, tied]
        exact (bot_le.trans_lt older).ne'
      · rw [survives, tied, max_eq_left fresher]
    · -- no stamped window survives, and the incoming snapshot's stamp is its freshest one
      have gone : survivingTime incoming existing = ⊥ :=
        survivingTime_eq_bot.mpr fun slot => unstamped_of_replaced fresher replaced slot
      rw [merged_freshness h, if_pos gone, max_eq_left fresher]
      exact time_of_replaced fresher replaced

/-- For every two snapshots: the windows are the later ones, and the merged snapshot is as
fresh as the fresher of the two if and only if `KeepsTime`. -/
theorem merge_keeps_time (incoming existing : AccountQuota) :
    ∃ merged, mergeQuotaByWindow (some incoming) (some existing) = some merged ∧
      (NeverBackwards incoming existing merged ↔ KeepsTime incoming existing) := by
  obtain ⟨merged, h⟩ : ∃ merged, mergeQuotaByWindow (some incoming) (some existing) = some merged :=
    ⟨_, rfl⟩
  refine ⟨merged, h, ?_⟩
  have kept_iff : freshness merged = max (freshness incoming) (freshness existing) ↔
      KeepsTime incoming existing := by
    unfold KeepsTime
    split_ifs with fresher
    · exact kept_of_fresher_existing h fresher
    · exact kept_of_fresher_incoming h (not_lt.mp fresher)
  rw [← kept_iff]
  refine ⟨NeverBackwards.kept, fun kept => ⟨?_, ?_, ?_, ?_, kept⟩⟩
  · intro slot i e hi he
    rw [merged_window h, survivor_both hi he]
  · intro slot i hi he
    rw [merged_window h, survivor_oneSided (.inr (by rw [he]; rfl)), hi, he]
    by_cases fresher : freshness existing ≤ freshness incoming
    · rw [if_neg (not_lt.mpr fresher), if_pos fresher]
    · rw [if_pos (not_le.mp fresher), if_neg fresher]
  · intro slot e hi he
    rw [merged_window h, survivor_oneSided (.inl (by rw [hi]; rfl)), hi, he]
  · intro slot hi he
    rw [merged_window h, survivor_oneSided (.inl (by rw [hi]; rfl)), hi, he, ite_self]

/-- A reading in which the account has no windows any more. -/
private def retired : AccountQuota where
  checkedAt := some 100

private def stale : AccountQuota where
  checkedAt := some 50
  primary := some { usedPercent := 10, remainingPercent := 90, checkedAt := some 50 }

/-- A stale snapshot written after the windows are gone makes the stored one as old as itself. -/
theorem merge_loses_time :
    ¬∀ incoming existing : AccountQuota,
      ∃ merged, mergeQuotaByWindow (some incoming) (some existing) = some merged ∧
        NeverBackwards incoming existing merged := by
  intro never
  obtain ⟨merged, h, holds⟩ := never stale retired
  have fresher : freshness stale < freshness retired := by
    rw [freshness_eq, freshness_eq]
    simp only [stale, retired, AccountQuota.window, ownTime, time, Option.bind_some, Option.bind_none,
      max_self, bot_le, max_eq_left, max_eq_right]
    exact WithBot.coe_lt_coe.mpr (by norm_num)
  obtain ⟨known, slot, bears⟩ := (kept_of_fresher_existing h fresher).mp holds.kept
  have bare : ownTime (retired.window slot) = ⊥ := by cases slot <;> rfl
  exact known (bears.symm.trans bare)

end Quota

end Sidebar
