import OpenaiAuth.Sidebar.Freshness
import OpenaiAuth.Stamps.Register

/-! # Whose budget is stored

A budget has no stamp of its own: `mergeQuotaByWindow` judges it by the freshness of the
snapshot around it, which pushes that say nothing of a budget raise too. The stored budget is
a register of that kind, so `Stamps.Report.settled_iff` tells when the order of the writes
does not matter.

Main result: `budget_of_latest`, for every list of snapshots.
-/

namespace Sidebar.Quota

open Stamps (Report)

/-! ## Snapshots -/

/-- What a snapshot says of the budget. -/
inductive Budget where
  | known (reading : SpendControlReading)
  | cleared
deriving DecidableEq, Repr

def budgetOf (quota : AccountQuota) : Option Budget :=
  match quota.spendControl with
  | some reading => some (.known reading)
  | none => if quota.spendControlCleared then some .cleared else none

/-- The two fields a budget is stored in. -/
def budgetFields (quota : Option AccountQuota) : Option SpendControlReading × Bool :=
  (quota.bind (·.spendControl), quota.any (·.spendControlCleared))

/-- No snapshot has both a budget and the report that there is none. -/
def Exclusive (quota : AccountQuota) : Prop :=
  quota.spendControl.isSome = true → quota.spendControlCleared = false

/-- A reading of an account: its windows bear the time of the reading. -/
structure Snapshot where
  quota : AccountQuota
  taken : ℚ
  windowed : ∃ slot, (quota.window slot).isSome = true
  stamped : ∀ slot w, quota.window slot = some w → w.checkedAt = some taken
  own : ∀ stamp, quota.checkedAt = some stamp → stamp = taken
  exclusive : Exclusive quota

def Snapshot.Speaks (snapshot : Snapshot) : Prop := budgetOf snapshot.quota ≠ none

/-- What is stored after these writes of one account, one after another. -/
def storeAll (snapshots : List Snapshot) : Option AccountQuota :=
  snapshots.foldl (fun stored snapshot => mergeQuotaByWindow (some snapshot.quota) stored) none

/-- The stored budget is that of the latest snapshot that says anything about it. -/
def LatestBudget (snapshots : List Snapshot) (stored : Option SpendControlReading × Bool) : Prop :=
  (stored = (none, false) ∧ ∀ snapshot ∈ snapshots, ¬snapshot.Speaks) ∨
    ∃ latest ∈ snapshots, latest.Speaks ∧ stored = budgetFields (some latest.quota) ∧
      ∀ snapshot ∈ snapshots, snapshot.Speaks → snapshot.taken ≤ latest.taken

/-- Each snapshot that says something says what a latest such one says, or is earlier and no
snapshot at all is later than that one. -/
def BudgetSettled (snapshots : List Snapshot) : Prop :=
  ∀ snapshot ∈ snapshots, snapshot.Speaks → ∀ latest ∈ snapshots, latest.Speaks →
    (∀ other ∈ snapshots, other.Speaks → other.taken ≤ latest.taken) →
    budgetFields (some snapshot.quota) = budgetFields (some latest.quota) ∨
      snapshot.taken < latest.taken ∧ ∀ other ∈ snapshots, other.taken ≤ latest.taken

/-! ## The register -/

def Snapshot.report (snapshot : Snapshot) : Report ℚ Budget :=
  ⟨snapshot.taken, budgetOf snapshot.quota⟩

/-- The stored quota holds what the register says, and a window of it bears the register's
time. -/
structure Holds (quota : AccountQuota) (report : Report ℚ Budget) : Prop where
  value : budgetOf quota = report.value
  time : freshness quota = report.taken
  bears : ∃ slot, ownTime (quota.window slot) = freshness quota
  exclusive : Exclusive quota

theorem Snapshot.holds (snapshot : Snapshot) : Holds snapshot.quota snapshot.report := by
  have own : ∀ slot, ownTime (snapshot.quota.window slot) ≤ (snapshot.taken : WithBot ℚ) := by
    intro slot
    rcases present : snapshot.quota.window slot with _ | w
    · exact bot_le
    · unfold ownTime
      rw [Option.bind_some, snapshot.stamped slot w present]
      exact le_refl _
  have whole : Quota.time snapshot.quota.checkedAt ≤ (snapshot.taken : WithBot ℚ) := by
    rcases present : snapshot.quota.checkedAt with _ | stamp
    · exact bot_le
    · rw [snapshot.own stamp present]
      exact le_refl _
  obtain ⟨slot, present⟩ := snapshot.windowed
  obtain ⟨w, held⟩ := Option.isSome_iff_exists.mp present
  have borne : ownTime (snapshot.quota.window slot) = (snapshot.taken : WithBot ℚ) := by
    unfold ownTime
    rw [held, Option.bind_some, snapshot.stamped slot w held]
    rfl
  have time : freshness snapshot.quota = (snapshot.taken : WithBot ℚ) := by
    refine le_antisymm ?_ (borne ▸ ownTime_le_freshness _ slot)
    rw [freshness_eq]
    exact max_le (max_le (own .primary) (own .secondary)) whole
  exact ⟨rfl, time, ⟨slot, borne.trans time.symm⟩, snapshot.exclusive⟩

theorem budgetOf_merge (fresher older : AccountQuota) {quota : AccountQuota}
    (spendControl : quota.spendControl = mergeSpendControl fresher older)
    (cleared : quota.spendControlCleared = (quota.spendControl.isNone &&
      (fresher.spendControlCleared || older.spendControlCleared))) :
    budgetOf quota = (budgetOf fresher).or (budgetOf older) := by
  unfold budgetOf
  rw [cleared, spendControl]
  unfold mergeSpendControl
  cases fresher.spendControl with
  | some reading => rfl
  | none =>
      cases fresher.spendControlCleared with
      | true => rfl
      | false =>
          cases older.spendControl with
          | some reading => rfl
          | none => simp

/-- A write of a snapshot is a merge of its report into the register. -/
theorem Holds.merge {incoming existing : AccountQuota} {report stored : Report ℚ Budget}
    (hi : Holds incoming report) (he : Holds existing stored) :
    ∃ merged, mergeQuotaByWindow (some incoming) (some existing) = some merged ∧
      Holds merged (report.merge stored) := by
  obtain ⟨merged, h⟩ : ∃ merged, mergeQuotaByWindow (some incoming) (some existing) = some merged :=
    ⟨_, rfl⟩
  refine ⟨merged, h, ?_⟩
  have later_iff : freshness incoming < freshness existing ↔ report.taken < stored.taken := by
    rw [hi.time, he.time, WithBot.coe_lt_coe]
  have known : freshness incoming ≠ ⊥ := by
    rw [hi.time]
    exact WithBot.coe_ne_bot
  have known' : freshness existing ≠ ⊥ := by
    rw [he.time]
    exact WithBot.coe_ne_bot
  have fields : merged.spendControl = (if freshness incoming < freshness existing then
        mergeSpendControl existing incoming else mergeSpendControl incoming existing) ∧
      merged.spendControlCleared = (merged.spendControl.isNone &&
        (incoming.spendControlCleared || existing.spendControlCleared)) := by
    simp only [mergeQuotaByWindow, Option.some.injEq] at h
    rw [← h]
    simp only [existingIsFresher_iff]
    exact ⟨rfl, trivial⟩
  have exclusive : Exclusive merged := by
    intro present
    rw [fields.2, Option.isNone_eq_false_iff.mpr present, Bool.false_and]
  unfold Report.merge
  by_cases later : freshness incoming < freshness existing
  · rw [if_pos (later_iff.mp later)]
    have kept : freshness merged = freshness existing := by
      rw [(kept_of_fresher_existing h later).mpr ⟨known', he.bears⟩, max_eq_right later.le]
    obtain ⟨slot, borne⟩ := he.bears
    refine ⟨?_, kept.trans he.time, ⟨slot, ?_⟩, exclusive⟩
    · have spent := fields.1
      rw [if_pos later] at spent
      rw [budgetOf_merge existing incoming spent (by rw [fields.2, Bool.or_comm]), hi.value, he.value]
    · rw [merged_window h, survivor_existing later borne, borne, kept]
  · rw [if_neg (fun sooner => later (later_iff.mpr sooner))]
    have fresher := not_lt.mp later
    obtain ⟨slot, borne⟩ := hi.bears
    have kept : freshness merged = freshness incoming := by
      rw [freshness_of_bearing h fresher borne known, max_eq_left fresher]
    refine ⟨?_, kept.trans hi.time, ⟨slot, ?_⟩, exclusive⟩
    · have spent := fields.1
      rw [if_neg later] at spent
      rw [budgetOf_merge incoming existing spent fields.2, hi.value, he.value]
    · rw [merged_window h, survivor_incoming fresher borne known, borne, kept]

/-- The stored quota follows the register through every run of writes. -/
theorem storeAll_holds (snapshots : List Snapshot) :
    (storeAll snapshots = none ∧ Report.storeAll (snapshots.map Snapshot.report) = none) ∨
      ∃ quota report, storeAll snapshots = some quota ∧
        Report.storeAll (snapshots.map Snapshot.report) = some report ∧ Holds quota report := by
  induction snapshots using List.reverseRecOn with
  | nil => exact .inl ⟨rfl, rfl⟩
  | append_singleton snapshots last ih =>
      right
      rw [List.map_append, List.map_singleton, Report.storeAll_concat]
      unfold storeAll
      rw [List.foldl_append, List.foldl_cons, List.foldl_nil]
      change ∃ quota report, mergeQuotaByWindow (some last.quota) (storeAll snapshots) = _ ∧ _
      rcases ih with ⟨nothing, empty⟩ | ⟨quota, report, held, stored, holds⟩
      · rw [nothing, empty]
        exact ⟨last.quota, last.report, rfl, rfl, last.holds⟩
      · rw [held, stored]
        obtain ⟨merged, h, holds'⟩ := last.holds.merge holds
        exact ⟨merged, _, h, rfl, holds'⟩

/-! ## Every order -/

def Budget.fields : Option Budget → Option SpendControlReading × Bool
  | none => (none, false)
  | some (.known reading) => (some reading, false)
  | some .cleared => (none, true)

theorem Budget.fields_inj {left right : Option Budget}
    (same : Budget.fields left = Budget.fields right) : left = right := by
  rcases left with _ | ⟨reading⟩ | _ <;> rcases right with _ | ⟨reading'⟩ | _ <;>
    simp_all [Budget.fields]

theorem Exclusive.fields {quota : AccountQuota} (exclusive : Exclusive quota) :
    budgetFields (some quota) = Budget.fields (budgetOf quota) := by
  unfold Exclusive at exclusive
  unfold budgetFields budgetOf
  rw [Option.bind_some, Option.any_some]
  rcases spent : quota.spendControl with _ | reading
  · cases quota.spendControlCleared <;> rfl
  · rw [exclusive (by rw [spent]; rfl)]
    rfl

theorem fields_storeAll (snapshots : List Snapshot) :
    budgetFields (storeAll snapshots) =
      Budget.fields ((Report.storeAll (snapshots.map Snapshot.report)).bind (·.value)) := by
  rcases storeAll_holds snapshots with ⟨nothing, empty⟩ | ⟨quota, report, held, stored, holds⟩
  · rw [nothing, empty]
    rfl
  · rw [held, stored, holds.exclusive.fields, holds.value]
    rfl

/-- An order of the images comes from an order of what they are images of. -/
theorem exists_order_of_map {α β : Type*} (f : α → β) {items : List α} {images : List β}
    (permuted : images.Perm (items.map f)) :
    ∃ order : List α, order.Perm items ∧ order.map f = images := by
  induction items generalizing images with
  | nil => exact ⟨[], List.Perm.refl _, (List.perm_nil.mp permuted).symm⟩
  | cons first rest ih =>
      have mem : f first ∈ images := permuted.mem_iff.mpr (List.mem_map_of_mem (List.mem_cons_self))
      obtain ⟨before, behind, rfl⟩ := List.append_of_mem mem
      have others : (before ++ behind).Perm (rest.map f) :=
        (List.perm_middle.symm.trans permuted).cons_inv
      obtain ⟨order, perm, images⟩ := ih others
      obtain ⟨left, right, split, rfl, rfl⟩ := List.map_eq_append_iff.mp images
      rw [split] at perm
      refine ⟨left ++ first :: right, List.perm_middle.trans (perm.cons first), ?_⟩
      rw [List.map_append, List.map_cons]

variable {snapshots : List Snapshot}

theorem settled_report : Report.Settled (snapshots.map Snapshot.report) ↔ BudgetSettled snapshots := by
  unfold Report.Settled BudgetSettled Report.IsLatest
  simp only [List.forall_mem_map]
  constructor
  · intro settled snapshot mem speaks latest there loud after
    rcases settled snapshot mem speaks latest.report
        ⟨List.mem_map_of_mem there, loud, after⟩ with same | earlier
    · left
      rw [snapshot.exclusive.fields, latest.exclusive.fields]
      exact congrArg Budget.fields same
    · exact .inr earlier
  · rintro settled snapshot mem speaks latest ⟨there, loud, after⟩
    obtain ⟨source, here, rfl⟩ := List.mem_map.mp there
    rcases settled snapshot mem speaks source here loud after with same | earlier
    · left
      rw [snapshot.exclusive.fields, source.exclusive.fields] at same
      exact Budget.fields_inj same
    · exact .inr earlier

theorem latestBudget_iff {said : Option Budget} :
    LatestBudget snapshots (Budget.fields said) ↔
      Report.LatestValue (snapshots.map Snapshot.report) said := by
  unfold LatestBudget Report.LatestValue Report.IsLatest
  simp only [List.forall_mem_map]
  constructor
  · rintro (⟨nothing, silent⟩ | ⟨latest, mem, speaks, stored, after⟩)
    · exact .inl ⟨Budget.fields_inj nothing, silent⟩
    · right
      rw [latest.exclusive.fields] at stored
      exact ⟨latest.report, ⟨List.mem_map_of_mem mem, speaks, after⟩, (Budget.fields_inj stored).symm⟩
  · rintro (⟨nothing, silent⟩ | ⟨latest, ⟨mem, speaks, after⟩, same⟩)
    · exact .inl ⟨by rw [nothing]; rfl, silent⟩
    · obtain ⟨source, here, rfl⟩ := List.mem_map.mp mem
      refine .inr ⟨source, here, speaks, ?_, after⟩
      rw [source.exclusive.fields, ← same]
      rfl

/-- Every order of the snapshots stores the budget of the latest one that says anything of
it, if and only if they are settled. -/
theorem budget_of_latest (snapshots : List Snapshot) :
    (∃ stored, (∀ order, order.Perm snapshots → budgetFields (storeAll order) = stored) ∧
      LatestBudget snapshots stored) ↔ BudgetSettled snapshots := by
  rw [← settled_report, ← Report.settled_iff]
  constructor
  · rintro ⟨stored, same, latest⟩
    have told : stored = Budget.fields
        ((Report.storeAll (snapshots.map Snapshot.report)).bind (·.value)) := by
      rw [← fields_storeAll]
      exact (same snapshots (List.Perm.refl _)).symm
    rw [told] at same latest
    refine ⟨_, ?_, latestBudget_iff.mp latest⟩
    intro images permuted
    obtain ⟨order, perm, rfl⟩ := exists_order_of_map Snapshot.report permuted
    have stored := same order perm
    rw [fields_storeAll] at stored
    exact Budget.fields_inj stored
  · rintro ⟨said, same, latest⟩
    refine ⟨Budget.fields said, ?_, latestBudget_iff.mpr latest⟩
    intro order perm
    rw [fields_storeAll, same _ (perm.map Snapshot.report)]

/-! ## A push between two polls -/

private def reached : SpendControlReading where
  limit := 20
  used := 20
  remaining := 0
  usedPercent := 100
  remainingPercent := 0
  reached := true

/-- A snapshot of one window, taken at `taken`. -/
private def snapshotOf (taken : ℚ) (spendControl : Option SpendControlReading) (cleared : Bool)
    (exclusive : spendControl.isSome = true → cleared = false) : Snapshot where
  quota :=
    { checkedAt := some taken
      primary := some { usedPercent := 10, remainingPercent := 90, checkedAt := some taken }
      spendControl
      spendControlCleared := cleared }
  taken := taken
  windowed := ⟨.primary, rfl⟩
  stamped := by
    intro slot w present
    cases slot with
    | primary =>
        cases present
        rfl
    | secondary => cases present
  own := by
    rintro stamp ⟨⟩
    rfl
  exclusive := exclusive

/-- A poll that reads a used-up budget. -/
private def spent : Snapshot := snapshotOf 10 (some reached) false fun _ => rfl

/-- A later poll that reads no budget. -/
private def lifted : Snapshot := snapshotOf 20 none true nofun

/-- A push after both, which says nothing of a budget. -/
private def push : Snapshot := snapshotOf 30 none false nofun

/-- Written before the second poll, the push keeps the budget that poll saw removed. -/
theorem budget_of_push :
    ¬∀ snapshots : List Snapshot,
      ∃ stored, (∀ order, order.Perm snapshots → budgetFields (storeAll order) = stored) ∧
        LatestBudget snapshots stored := by
  intro settled
  obtain ⟨stored, same, -⟩ := settled [spent, lifted, push]
  have inOrder : budgetFields (storeAll [spent, lifted, push]) = (none, true) := by
    rw [fields_storeAll]
    decide
  have overtaken : budgetFields (storeAll [spent, push, lifted]) = (some reached, false) := by
    rw [fields_storeAll]
    decide
  have first := same _ (List.Perm.refl _)
  have second := same [spent, push, lifted] ((List.Perm.swap lifted push []).cons spent)
  rw [inOrder] at first
  rw [overtaken] at second
  exact absurd (first.trans second.symm) (by decide)

end Sidebar.Quota
