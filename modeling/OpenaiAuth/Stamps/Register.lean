import Mathlib.Data.List.Induction
import Mathlib.Order.Lattice

/-! # A register without a stamp of its own

Reports are taken at times, and some say nothing about the register. A merge keeps the
later of the two times, and what the later report says, or else what the earlier one says:
the time of a silent report then stands for a value that is older.

Main result: `settled_iff`, when every order of a list of reports leaves what the latest
speaking one says.
-/

namespace Stamps

structure Report (τ β : Type*) where
  taken : τ
  value : Option β

namespace Report

variable {τ β : Type*} [LinearOrder τ]

def merge (incoming existing : Report τ β) : Report τ β :=
  if incoming.taken < existing.taken then ⟨existing.taken, existing.value.or incoming.value⟩
  else ⟨incoming.taken, incoming.value.or existing.value⟩

def store (stored : Option (Report τ β)) (report : Report τ β) : Option (Report τ β) :=
  some (stored.elim report report.merge)

/-- What is stored after these reports, one after another. -/
def storeAll (reports : List (Report τ β)) : Option (Report τ β) := reports.foldl store none

def Speaks (report : Report τ β) : Prop := report.value ≠ none

/-- No report that says something is later. -/
def IsLatest (reports : List (Report τ β)) (latest : Report τ β) : Prop :=
  latest ∈ reports ∧ latest.Speaks ∧ ∀ report ∈ reports, report.Speaks → report.taken ≤ latest.taken

/-- What the latest speaking report says, or nothing where none speaks. -/
def LatestValue (reports : List (Report τ β)) (said : Option β) : Prop :=
  (said = none ∧ ∀ report ∈ reports, ¬report.Speaks) ∨
    ∃ latest, IsLatest reports latest ∧ latest.value = said

/-- Each speaking report says what a latest one says, or is earlier and nothing at all is
later than that one. -/
def Settled (reports : List (Report τ β)) : Prop :=
  ∀ report ∈ reports, report.Speaks → ∀ latest, IsLatest reports latest →
    report.value = latest.value ∨
      report.taken < latest.taken ∧ ∀ other ∈ reports, other.taken ≤ latest.taken

/-! ## One merge -/

variable {stored incoming : Report τ β} {reports order : List (Report τ β)}

theorem merge_taken (incoming existing : Report τ β) :
    (incoming.merge existing).taken = max incoming.taken existing.taken := by
  unfold merge
  split_ifs with later
  · exact (max_eq_right later.le).symm
  · exact (max_eq_left (not_lt.mp later)).symm

theorem merge_value_later (later : incoming.taken < stored.taken) (speaks : stored.Speaks) :
    (incoming.merge stored).value = stored.value := by
  obtain ⟨said, told⟩ := Option.ne_none_iff_exists'.mp speaks
  unfold merge
  rw [if_pos later, told, Option.some_or]

theorem merge_value_incoming (notLater : stored.taken ≤ incoming.taken) (speaks : incoming.Speaks) :
    (incoming.merge stored).value = incoming.value := by
  obtain ⟨said, told⟩ := Option.ne_none_iff_exists'.mp speaks
  unfold merge
  rw [if_neg (not_lt.mpr notLater), told, Option.some_or]

theorem merge_value_silent (silent : incoming.value = none) :
    (incoming.merge stored).value = stored.value := by
  unfold merge
  rw [silent]
  split_ifs
  · exact Option.or_none
  · exact Option.none_or

/-- A merge says what one of the two says. -/
theorem merge_value_or (incoming existing : Report τ β) :
    (incoming.merge existing).value = incoming.value ∨
      (incoming.merge existing).value = existing.value := by
  unfold merge
  split_ifs
  · cases existing.value with
    | none => exact .inl Option.none_or
    | some said => exact .inr rfl
  · cases incoming.value with
    | none => exact .inr Option.none_or
    | some said => exact .inl rfl

/-! ## A run of merges -/

theorem storeAll_concat (reports : List (Report τ β)) (report : Report τ β) :
    storeAll (reports ++ [report]) = store (storeAll reports) report := by
  unfold storeAll
  rw [List.foldl_append]
  rfl

/-- After a report there is something stored, not earlier and not later than all of them. -/
theorem storeAll_taken (bound : τ) (before : ∀ report ∈ reports, report.taken ≤ bound) :
    ∀ stored ∈ storeAll reports, stored.taken ≤ bound := by
  induction reports using List.reverseRecOn with
  | nil => exact fun stored h => absurd h (Option.not_mem_none stored)
  | append_singleton reports report ih =>
      intro stored h
      have last : report.taken ≤ bound := before report (by simp)
      have first := ih fun other mem => before other (by simp [mem])
      rw [storeAll_concat, store, Option.mem_some_iff] at h
      subst h
      rcases held : storeAll reports with _ | old
      · exact last
      · simp only [Option.elim_some]
        rw [merge_taken]
        exact max_le last (first old held)

/-- What is stored is what some report says, nothing where all are silent. -/
theorem storeAll_value (stored : Report τ β) (h : stored ∈ storeAll reports) :
    ∃ report ∈ reports, stored.value = report.value := by
  induction reports using List.reverseRecOn generalizing stored with
  | nil => exact absurd h (Option.not_mem_none stored)
  | append_singleton reports report ih =>
      rw [storeAll_concat, store, Option.mem_some_iff] at h
      subst h
      rcases held : storeAll reports with _ | old
      · exact ⟨report, by simp, rfl⟩
      · rcases merge_value_or report old with own | earlier
        · exact ⟨report, by simp, own⟩
        · obtain ⟨other, mem, same⟩ := ih old held
          exact ⟨other, by simp [mem], earlier.trans same⟩

/-- Once a speaking report is merged, something is said. -/
theorem storeAll_speaks {report : Report τ β} (mem : report ∈ reports) (speaks : report.Speaks) :
    ∃ stored ∈ storeAll reports, stored.Speaks := by
  induction reports using List.reverseRecOn with
  | nil => cases mem
  | append_singleton reports last ih =>
      rw [storeAll_concat, store]
      refine ⟨_, rfl, ?_⟩
      rcases List.mem_append.mp mem with earlier | here
      · obtain ⟨old, held, said⟩ := ih earlier
        rw [Option.mem_def.mp held]
        simp only [Option.elim_some, Speaks]
        unfold merge
        split_ifs
        · exact fun none => said (Option.or_eq_none_iff.mp none).1
        · exact fun none => said (Option.or_eq_none_iff.mp none).2
      · rw [List.mem_singleton] at here
        subst here
        rcases storeAll reports with _ | old
        · exact speaks
        · simp only [Option.elim_some, Speaks]
          unfold merge
          split_ifs
          · exact fun none => speaks (Option.or_eq_none_iff.mp none).2
          · exact fun none => speaks (Option.or_eq_none_iff.mp none).1

/-- A report that no earlier one is later than decides, if it comes last. -/
theorem storeAll_last {report : Report τ β} (speaks : report.Speaks)
    (latest : ∀ other ∈ reports, other.taken ≤ report.taken) :
    (storeAll (reports ++ [report])).bind (·.value) = report.value := by
  rw [storeAll_concat, store]
  rcases held : storeAll reports with _ | old
  · rfl
  · exact merge_value_incoming (storeAll_taken report.taken latest old held) speaks

variable (reports) in
/-- A speaking report followed by a later silent one: what is said stays, if no other
speaking report is as late. -/
theorem storeAll_hidden {report silent : Report τ β} (speaks : report.Speaks)
    (quiet : silent.value = none)
    (earlier : ∀ other ∈ reports, other.Speaks → other.taken < silent.taken) :
    ∃ stored ∈ storeAll (report :: silent :: reports),
      silent.taken ≤ stored.taken ∧ stored.value = report.value := by
  induction reports using List.reverseRecOn with
  | nil =>
      refine ⟨silent.merge report, rfl, ?_, merge_value_silent quiet⟩
      rw [merge_taken]
      exact le_max_left _ _
  | append_singleton reports last ih =>
      obtain ⟨old, held, late, same⟩ := ih fun other mem => earlier other (by simp [mem])
      refine ⟨last.merge old, ?_, ?_, ?_⟩
      · change storeAll ((report :: silent :: reports) ++ [last]) = _
        rw [storeAll_concat, Option.mem_def.mp held]
        rfl
      · rw [merge_taken]
        exact late.trans (le_max_right _ _)
      · by_cases quiet_last : last.value = none
        · rw [merge_value_silent quiet_last, same]
        · have sooner := (earlier last (by simp) quiet_last).trans_le late
          rw [merge_value_later sooner (by rw [Speaks, same]; exact speaks), same]

variable (reports) in
/-- Where nothing is later than a latest speaking report, and those as late say the same,
what it says stays from then on. -/
theorem storeAll_kept {latest : Report τ β} (speaks : latest.Speaks)
    (bounded : ∀ other ∈ reports, other.taken ≤ latest.taken)
    (same : ∀ other ∈ reports, other.Speaks → other.taken = latest.taken →
      other.value = latest.value) (mem : latest ∈ reports) :
    ∃ stored ∈ storeAll reports, stored.taken = latest.taken ∧ stored.value = latest.value := by
  induction reports using List.reverseRecOn with
  | nil => cases mem
  | append_singleton reports last ih =>
      have notLater : last.taken ≤ latest.taken := bounded last (by simp)
      rw [storeAll_concat, store]
      refine ⟨_, rfl, ?_⟩
      rcases List.mem_append.mp mem with earlier | here
      · obtain ⟨old, held, time, value⟩ := ih (fun other mem => bounded other (by simp [mem]))
          (fun other mem => same other (by simp [mem])) earlier
        rw [Option.mem_def.mp held]
        simp only [Option.elim_some]
        refine ⟨by rw [merge_taken, time, max_eq_right notLater], ?_⟩
        have said : old.Speaks := by rw [Speaks, value]; exact speaks
        rcases notLater.lt_or_eq with sooner | tie
        · rw [merge_value_later (time ▸ sooner) said, value]
        by_cases quiet : last.value = none
        · rw [merge_value_silent quiet, value]
        · rw [merge_value_incoming (by rw [time, tie]) quiet]
          exact same last (by simp) quiet tie
      · rw [List.mem_singleton] at here
        subst here
        rcases held : storeAll reports with _ | old
        · exact ⟨rfl, rfl⟩
        · have first := storeAll_taken latest.taken
            (fun other mem => bounded other (by simp [mem])) old held
          simp only [Option.elim_some]
          exact ⟨by rw [merge_taken, max_eq_left first], merge_value_incoming first speaks⟩

/-! ## Every order -/

/-- One of the latest speaking reports, if any speaks. -/
theorem exists_latest (speaks : ∃ report ∈ reports, report.Speaks) :
    ∃ latest, IsLatest reports latest := by
  induction reports with
  | nil =>
      obtain ⟨report, mem, -⟩ := speaks
      cases mem
  | cons first rest ih =>
      by_cases later : ∃ report ∈ rest, report.Speaks
      · obtain ⟨latest, mem, said, after⟩ := ih later
        by_cases own : first.Speaks ∧ latest.taken < first.taken
        · refine ⟨first, by simp, own.1, ?_⟩
          intro report here speaks
          rcases List.mem_cons.mp here with rfl | there
          · exact le_refl _
          · exact (after report there speaks).trans own.2.le
        · refine ⟨latest, by simp [mem], said, ?_⟩
          intro report here heard
          rcases List.mem_cons.mp here with rfl | there
          · exact not_lt.mp fun sooner => own ⟨heard, sooner⟩
          · exact after report there heard
      · obtain ⟨report, mem, said⟩ := speaks
        rcases List.mem_cons.mp mem with rfl | there
        · refine ⟨report, by simp, said, ?_⟩
          intro other here speaks
          rcases List.mem_cons.mp here with rfl | there
          · exact le_refl _
          · exact absurd ⟨other, there, speaks⟩ later
        · exact absurd ⟨report, there, said⟩ later

theorem storeAll_settled (settled : Settled reports) {latest : Report τ β}
    (isLatest : IsLatest reports latest) (permuted : order.Perm reports) :
    (storeAll order).bind (·.value) = latest.value := by
  obtain ⟨mem, speaks, after⟩ := isLatest
  by_cases agree : ∀ report ∈ reports, report.Speaks → report.value = latest.value
  · -- whoever speaks says the same
    obtain ⟨stored, held, said⟩ := storeAll_speaks (permuted.mem_iff.mpr mem) speaks
    obtain ⟨report, here, same⟩ := storeAll_value stored held
    rw [Option.mem_def.mp held, Option.bind_some, same]
    exact agree report (permuted.mem_iff.mp here) (by rw [Speaks, ← same]; exact said)
  · push Not at agree
    obtain ⟨report, here, said, different⟩ := agree
    have bounded := ((settled report here said latest ⟨mem, speaks, after⟩).resolve_left different).2
    obtain ⟨stored, held, -, value⟩ := storeAll_kept order speaks
      (fun other there => bounded other (permuted.mem_iff.mp there))
      (fun other there quiet tie => by
        rcases settled other (permuted.mem_iff.mp there) quiet latest ⟨mem, speaks, after⟩ with
          same | ⟨sooner, -⟩
        · exact same
        · exact absurd tie sooner.ne)
      (permuted.mem_iff.mpr mem)
    rw [Option.mem_def.mp held, Option.bind_some, value]

/-- Two speaking reports that say different things, the one a latest one: the orders that
end on either, or that let a later silent one follow either, leave different things. -/
theorem settled_of_same {said : Option β}
    (same : ∀ order, order.Perm reports → (storeAll order).bind (·.value) = said) :
    Settled reports := by
  intro report mem speaks latest isLatest
  obtain ⟨there, loud, after⟩ := isLatest
  by_cases equal : report.value = latest.value
  · exact .inl equal
  right
  have bounded : ∀ other ∈ reports, other.taken ≤ latest.taken := by
    intro silent here
    by_contra beyond
    have sooner := not_le.mp beyond
    have quiet : silent.value = none := by
      by_contra loud'
      exact beyond (after silent here loud')
    have hidden : ∀ first ∈ reports, first.Speaks → said = first.value := by
      intro first held heard
      obtain ⟨before, behind, rfl⟩ := List.append_of_mem held
      have apart : silent ∈ before ++ behind := by
        rcases List.mem_append.mp here with left | right
        · exact List.mem_append_left _ left
        rcases List.mem_cons.mp right with rfl | right
        · exact absurd quiet heard
        · exact List.mem_append_right _ right
      obtain ⟨start, rest, split⟩ := List.append_of_mem apart
      have permuted : (first :: silent :: (start ++ rest)).Perm (before ++ first :: behind) := by
        refine List.Perm.trans ?_ List.perm_middle.symm
        refine List.Perm.cons first ?_
        rw [split]
        exact List.perm_middle.symm
      obtain ⟨stored, held', -, value⟩ := storeAll_hidden (start ++ rest) heard quiet
        fun other inside speaks' => by
          have member : other ∈ before ++ first :: behind :=
            permuted.mem_iff.mp (by simp [List.mem_append.mp inside])
          exact (after other member speaks').trans_lt sooner
      have left := same _ permuted
      rw [Option.mem_def.mp held', Option.bind_some, value] at left
      exact left.symm
    exact equal ((hidden report mem speaks).symm.trans (hidden latest there loud))
  refine ⟨lt_of_le_of_ne (bounded report mem) ?_, bounded⟩
  intro tie
  have last : ∀ final ∈ reports, final.Speaks → final.taken = latest.taken → said = final.value := by
    intro final held heard late
    obtain ⟨before, behind, rfl⟩ := List.append_of_mem held
    have permuted : ((before ++ behind) ++ [final]).Perm (before ++ final :: behind) :=
      (List.perm_append_singleton final (before ++ behind)).trans List.perm_middle.symm
    have left := same _ permuted
    rw [storeAll_last heard] at left
    · exact left.symm
    · intro other inside
      rw [late]
      refine bounded other ?_
      rcases List.mem_append.mp inside with early | behind'
      · exact List.mem_append_left _ early
      · exact List.mem_append_right _ (List.mem_cons_of_mem _ behind')
  exact equal ((last report mem speaks tie).symm.trans (last latest there loud rfl))

/-- Every order of the reports leaves what the latest speaking one says if and only if they
are settled. -/
theorem settled_iff :
    (∃ said, (∀ order, order.Perm reports → (storeAll order).bind (·.value) = said) ∧
      LatestValue reports said) ↔ Settled reports := by
  constructor
  · rintro ⟨said, same, -⟩
    exact settled_of_same same
  · intro settled
    by_cases speaks : ∃ report ∈ reports, report.Speaks
    · obtain ⟨latest, isLatest⟩ := exists_latest speaks
      exact ⟨latest.value, fun order => storeAll_settled settled isLatest,
        .inr ⟨latest, isLatest, rfl⟩⟩
    · refine ⟨none, ?_, .inl ⟨rfl, fun report mem said => speaks ⟨report, mem, said⟩⟩⟩
      intro order permuted
      rcases held : storeAll order with _ | stored
      · rfl
      · obtain ⟨report, here, same⟩ := storeAll_value stored held
        rw [Option.bind_some, same]
        by_contra said
        exact speaks ⟨report, permuted.mem_iff.mp here, said⟩

end Report

end Stamps
