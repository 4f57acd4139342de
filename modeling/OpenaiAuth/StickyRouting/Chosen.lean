import OpenaiAuth.StickyRouting.Select
import Mathlib.Data.List.Rotate
import Mathlib.Tactic.NormNum

/-! # What a placement is

Where every configured order is a number, both sorts compare by a key in a linear
order: score or credits, then configured order, then id. So the head is the least
candidate, whatever order the candidates come in.

Main result: `sticky_selection`.
-/

namespace StickyRouting

open Js Number

/-! ## The head of a sort -/

section Sorting

variable {α β : Type} [LinearOrder β] {compare : α → α → Ordering} {items : List α} {key : α → β}

/-- The comparison is that of the keys, as far as these items go. -/
def ComparesBy (compare : α → α → Ordering) (key : α → β) (items : List α) : Prop :=
  ∀ left ∈ items, ∀ right ∈ items, ((compare left right).isLE = true ↔ key left ≤ key right)

theorem mem_sortBy {item : α} : item ∈ sortBy compare items ↔ item ∈ items :=
  (List.perm_insertionSort _ _).mem_iff

theorem head?_sortBy_none : (sortBy compare items).head? = none ↔ items = [] := by
  rw [List.head?_eq_none_iff]
  constructor
  · intro h
    have hperm := List.perm_insertionSort (fun left right => (compare left right).isLE = true) items
    rw [show items.insertionSort _ = [] from h] at hperm
    exact hperm.symm.eq_nil
  · rintro rfl
    rfl

/-- The head of a sort is a least item. -/
theorem head?_sortBy_least (by_key : ComparesBy compare key items) {head : α}
    (h : (sortBy compare items).head? = some head) :
    head ∈ items ∧ ∀ item ∈ items, key head ≤ key item := by
  induction items generalizing head with
  | nil => cases h
  | cons first rest ih =>
    have tail : ComparesBy compare key rest := fun left hleft right hright =>
      by_key left (List.mem_cons_of_mem _ hleft) right (List.mem_cons_of_mem _ hright)
    unfold sortBy at h
    rw [List.insertionSort_cons] at h
    cases hrest : sortBy compare rest with
    | nil =>
      have hnil := head?_sortBy_none.mp (List.head?_eq_none_iff.mpr hrest)
      subst hnil
      cases h
      simp
    | cons next others =>
      have hhead : (sortBy compare rest).head? = some next := by rw [hrest]; rfl
      obtain ⟨hnext, hleast⟩ := ih tail hhead
      have hcompare := by_key first (List.mem_cons_self ..) next (List.mem_cons_of_mem _ hnext)
      rw [show rest.insertionSort _ = next :: others from hrest, List.orderedInsert] at h
      split at h
      · -- the new item comes first
        rename_i hle
        cases h
        refine ⟨List.mem_cons_self .., ?_⟩
        intro item hitem
        rcases List.mem_cons.mp hitem with rfl | hitem
        · exact le_rfl
        · exact (hcompare.mp hle).trans (hleast item hitem)
      · rename_i hlt
        cases h
        refine ⟨List.mem_cons_of_mem _ hnext, ?_⟩
        intro item hitem
        rcases List.mem_cons.mp hitem with rfl | hitem
        · exact (not_le.mp fun hle => hlt (hcompare.mpr hle)).le
        · exact hleast item hitem

end Sorting

/-! ## Keys -/

theorem isLE_compareAccountIds (left right : Units) :
    (compareAccountIds left right).isLE = true ↔ left ≤ right := by
  unfold compareAccountIds
  rcases lt_trichotomy left right with h | rfl | h
  · simp [h, h.le]
  · simp
  · simp [h, h.not_gt, h.not_ge]

/-- Two numbers, then what else there is to say. -/
theorem isLE_then {left right : Number} (hleft : left ≠ nan) (hright : right ≠ nan)
    (rest : Ordering) :
    ((left.sub right).sign.then rest).isLE = true ↔
      left.place < right.place ∨ left.place = right.place ∧ rest.isLE = true := by
  rw [Ordering.isLE_then_iff_or, sign_sub hleft hright, compare_lt_iff_lt, compare_eq_iff_eq]

abbrev Place := WithBot (WithTop ℚ)

/-- Configured order, then id. -/
def configuredKey (candidate : StickySelectionCandidate) : Place ×ₗ Units :=
  toLex (candidate.configuredOrder.place, candidate.accountId)

theorem isLE_compareConfigured {left right : StickySelectionCandidate}
    (hleft : left.configuredOrder ≠ nan) (hright : right.configuredOrder ≠ nan) :
    (compareConfigured left right).isLE = true ↔ configuredKey left ≤ configuredKey right := by
  unfold compareConfigured configuredKey
  rw [isLE_then hleft hright, isLE_compareAccountIds, Prod.Lex.toLex_le_toLex]

section Scores

variable (pendingBytes : Units → Option ℚ) (requestBytes : ℚ)

/-- Score, then configured order, then id. -/
def weightedKey (weighted : WeightedCandidate) : Place ×ₗ Place ×ₗ Units :=
  toLex ((weightedScore pendingBytes requestBytes weighted).place,
    configuredKey weighted.candidate)

/-- Credits first, then configured order, then id. -/
def fallbackKey (candidate : StickySelectionCandidate) : ℚ ×ₗ Place ×ₗ Units :=
  toLex (-creditsRank candidate, configuredKey candidate)

variable {pendingBytes requestBytes}

theorem weightedScore_ne_nan {weighted : WeightedCandidate}
    (hpositive : (finite 0).lt weighted.weight = true) :
    weightedScore pendingBytes requestBytes weighted ≠ nan := by
  unfold weightedScore
  cases hweight : weighted.weight with
  | nan => rw [hweight] at hpositive; cases hpositive
  | negInfinity => rw [hweight] at hpositive; cases hpositive
  | infinity => simp [Number.max, place, div]
  | finite weight =>
    -- the divisor is the weight or the guard, and both are above 0
    rw [hweight, lt_iff (by simp) (by simp), place_finite_lt] at hpositive
    have guard : minWeight ≠ 0 := by norm_num [minWeight]
    simp only [Number.max, reduceCtorEq, decide_false, Bool.or_self, Bool.false_eq_true, if_false]
    split <;> simp [div, guard, hpositive.ne']

theorem isLE_compareWeighted {left right : WeightedCandidate}
    (hleft : left.candidate.configuredOrder ≠ nan) (hright : right.candidate.configuredOrder ≠ nan)
    (pleft : (finite 0).lt left.weight = true) (pright : (finite 0).lt right.weight = true) :
    (compareWeighted pendingBytes requestBytes left right).isLE = true ↔
      weightedKey pendingBytes requestBytes left ≤ weightedKey pendingBytes requestBytes right := by
  unfold compareWeighted weightedKey
  rw [isLE_then (weightedScore_ne_nan pleft) (weightedScore_ne_nan pright),
    isLE_compareConfigured hleft hright, Prod.Lex.toLex_le_toLex]

theorem isLE_compareFallback {left right : StickySelectionCandidate}
    (hleft : left.configuredOrder ≠ nan) (hright : right.configuredOrder ≠ nan) :
    (compareFallback left right).isLE = true ↔ fallbackKey left ≤ fallbackKey right := by
  unfold compareFallback fallbackKey
  rw [isLE_then (by simp) (by simp), isLE_compareConfigured hleft hright, Prod.Lex.toLex_le_toLex,
    place_finite_lt, place_finite_inj, neg_lt_neg_iff, neg_inj, eq_comm]

end Scores

/-! ## Weights -/

/-- A reading at most `quotaStalenessMs` old gives this positive weight, the least of
its windows and its budget. -/
structure Weighs (dateParse : String → Option ℚ) (now : ℚ) (candidate : StickySelectionCandidate)
    (weighted : WeightedCandidate) : Prop where
  same : weighted.candidate = candidate
  reading : ∃ quota, candidate.quota = some quota ∧
    snapshotCheckedAt (some quota) candidate.quotaCheckedAt = some weighted.quotaCheckedAt ∧
    weighted.weight ∈ presentWeights dateParse quota candidate.reservePercent now ∧
    ∀ other ∈ presentWeights dateParse quota candidate.reservePercent now,
      other ≠ nan ∧ weighted.weight.place ≤ other.place
  fresh : now - weighted.quotaCheckedAt ≤ quotaStalenessMs
  positive : (finite 0).lt weighted.weight = true

/-- The least of the weights, where there is a positive one. -/
theorem leastWeight_iff {weights : List Number} {weight : Number}
    (positive : (finite 0).lt weight = true) :
    leastWeight weights = weight ↔
      weight ∈ weights ∧ ∀ other ∈ weights, other ≠ nan ∧ weight.place ≤ other.place := by
  obtain ⟨-, hnan⟩ := ne_nan_of_lt positive
  cases weights with
  | nil =>
    constructor
    · rintro rfl
      cases positive
    · rintro ⟨h, -⟩
      cases h
  | cons first rest =>
    constructor
    · rintro rfl
      exact foldl_min_spec hnan
    · rintro ⟨hmem, hleast⟩
      have hne := foldl_min_ne_nan fun other h => (hleast other h).1
      obtain ⟨hmem', hleast'⟩ := foldl_min_spec hne
      exact place_inj hne hnan (le_antisymm (hleast' weight hmem).2 (hleast _ hmem').2)

theorem candidateWeight_iff {dateParse : String → Option ℚ} {now : ℚ}
    {candidate : StickySelectionCandidate} {weighted : WeightedCandidate} :
    candidateWeight dateParse candidate now = some weighted ↔
      Weighs dateParse now candidate weighted := by
  unfold candidateWeight
  constructor
  · intro h
    obtain ⟨quota, hquota, h⟩ := Option.bind_eq_some_iff.mp h
    obtain ⟨checkedAt, hchecked, h⟩ := Option.bind_eq_some_iff.mp h
    split at h
    · cases h
    · rename_i hfresh
      simp only at h
      split at h
      · rename_i hpositive
        cases h
        exact ⟨rfl, ⟨quota, hquota, hchecked, (leastWeight_iff hpositive).mp rfl⟩,
          not_lt.mp hfresh, hpositive⟩
      · cases h
  · rintro ⟨hcandidate, ⟨quota, hquota, hchecked, hleast⟩, hfresh, hpositive⟩
    have hweight := (leastWeight_iff hpositive).mpr hleast
    simp only [hquota, hchecked, Option.bind_some, not_lt.mpr hfresh, if_false, hweight, hpositive,
      if_true]
    rw [← hcandidate]

/-! ## Every order of the candidates -/

section Choice

variable {α β : Type} [LinearOrder β] {compare : α → α → Ordering} {items others : List α}
  {key : α → β}

/-- Items with different keys have one least item, in whatever order they come. -/
theorem head?_sortBy_perm (by_key : ComparesBy compare key items)
    (distinct : ∀ left ∈ items, ∀ right ∈ items, key left = key right → left = right)
    (perm : others.Perm items) :
    (sortBy compare others).head? = (sortBy compare items).head? := by
  have by_key' : ComparesBy compare key others := fun left hleft right hright =>
    by_key left (perm.mem_iff.mp hleft) right (perm.mem_iff.mp hright)
  cases h : (sortBy compare items).head? with
  | none =>
    rw [head?_sortBy_none] at h ⊢
    subst h
    exact perm.eq_nil
  | some head =>
    cases h' : (sortBy compare others).head? with
    | none =>
      rw [head?_sortBy_none.mp h'] at perm
      rw [perm.symm.eq_nil] at h
      cases h
    | some head' =>
      obtain ⟨hmem, hleast⟩ := head?_sortBy_least by_key h
      obtain ⟨hmem', hleast'⟩ := head?_sortBy_least by_key' h'
      rw [distinct head' (perm.mem_iff.mp hmem') head hmem
        (le_antisymm (hleast' head (perm.mem_iff.mpr hmem)) (hleast head' (perm.mem_iff.mp hmem')))]

end Choice

/-! ## The selection -/

section Selection

variable {dateParse : String → Option ℚ} {candidates : List StickySelectionCandidate}
  {pendingBytes : Units → Option ℚ} {requestBytes now : ℚ}

/-- The candidates that survive and have a positive weight, with it. -/
def weighed (dateParse : String → Option ℚ) (candidates : List StickySelectionCandidate)
    (now : ℚ) : List WeightedCandidate :=
  (candidates.filter survives).filterMap fun candidate => candidateWeight dateParse candidate now

theorem mem_weighed {weighted : WeightedCandidate} :
    weighted ∈ weighed dateParse candidates now ↔
      ∃ candidate ∈ candidates, survives candidate = true ∧
        Weighs dateParse now candidate weighted := by
  simp only [weighed, List.mem_filterMap, List.mem_filter, candidateWeight_iff, and_assoc]

/-- What a selection is, by the heads of the two sorts. -/
inductive Selects (dateParse : String → Option ℚ) (candidates : List StickySelectionCandidate)
    (pendingBytes : Units → Option ℚ) (requestBytes now : ℚ) :
    Except String (Option Selection) → Prop
  | empty (message : String) (h : candidates = []) :
      Selects dateParse candidates pendingBytes requestBytes now (.error message)
  | killed (h : candidates.filter survives = []) :
      Selects dateParse candidates pendingBytes requestBytes now (.ok none)
  | weighted (selected : WeightedCandidate)
      (head : (sortBy (compareWeighted pendingBytes requestBytes)
        (weighed dateParse candidates now)).head? = some selected) :
      Selects dateParse candidates pendingBytes requestBytes now
        (.ok (some ⟨selected.candidate.accountId, some selected.quotaCheckedAt, .weighted⟩))
  | fallback (selected : StickySelectionCandidate) (h : weighed dateParse candidates now = [])
      (head : (sortBy compareFallback (candidates.filter survives)).head? = some selected) :
      Selects dateParse candidates pendingBytes requestBytes now
        (.ok (some ⟨selected.accountId,
          snapshotCheckedAt selected.quota selected.quotaCheckedAt, .modeFallback⟩))

theorem selectStickyCandidate_selects :
    Selects dateParse candidates pendingBytes requestBytes now
      (selectStickyCandidate dateParse candidates pendingBytes requestBytes now) := by
  unfold selectStickyCandidate
  simp only
  split
  · rename_i hnone
    exact .empty _ hnone
  · split
    · rename_i hnone
      exact .killed hnone
    · rename_i heligible
      split
      · rename_i selected hhead
        exact .weighted selected hhead
      · rename_i hnone
        have hweighed := head?_sortBy_none.mp hnone
        split
        · rename_i selected hhead
          exact .fallback selected hweighed hhead
        · rename_i hhead
          exact absurd (head?_sortBy_none.mp hhead) heligible

theorem comparesBy_weighed (orders : ∀ candidate ∈ candidates, candidate.configuredOrder ≠ nan) :
    ComparesBy (compareWeighted pendingBytes requestBytes) (weightedKey pendingBytes requestBytes)
      (weighed dateParse candidates now) := by
  intro left hleft right hright
  obtain ⟨candidate, hmem, -, hweighs⟩ := mem_weighed.mp hleft
  obtain ⟨other, hmem', -, hweighs'⟩ := mem_weighed.mp hright
  exact isLE_compareWeighted (by rw [hweighs.same]; exact orders candidate hmem)
    (by rw [hweighs'.same]; exact orders other hmem') hweighs.positive hweighs'.positive

theorem comparesBy_eligible (orders : ∀ candidate ∈ candidates, candidate.configuredOrder ≠ nan) :
    ComparesBy compareFallback fallbackKey (candidates.filter survives) := fun left hleft right
    hright => isLE_compareFallback (orders left (List.mem_of_mem_filter hleft))
      (orders right (List.mem_of_mem_filter hright))

theorem accountId_of_configuredKey {left right : StickySelectionCandidate}
    (h : configuredKey left = configuredKey right) : left.accountId = right.accountId :=
  congrArg (fun key : Place ×ₗ Units => (ofLex key).2) h

theorem weighed_distinct (ids : (candidates.map (·.accountId)).Nodup) :
    ∀ left ∈ weighed dateParse candidates now, ∀ right ∈ weighed dateParse candidates now,
      weightedKey pendingBytes requestBytes left = weightedKey pendingBytes requestBytes right →
      left = right := by
  intro left hleft right hright hkey
  obtain ⟨candidate, hmem, -, hweighs⟩ := mem_weighed.mp hleft
  obtain ⟨other, hmem', -, hweighs'⟩ := mem_weighed.mp hright
  have hid := accountId_of_configuredKey
    (congrArg (fun key : Place ×ₗ Place ×ₗ Units => (ofLex key).2) hkey)
  rw [hweighs.same, hweighs'.same] at hid
  -- one candidate, so one weight
  obtain rfl := List.inj_on_of_nodup_map ids hmem hmem' hid
  have hsame := (candidateWeight_iff.mpr hweighs).symm.trans (candidateWeight_iff.mpr hweighs')
  exact Option.some.inj hsame

theorem eligible_distinct (ids : (candidates.map (·.accountId)).Nodup) :
    ∀ left ∈ candidates.filter survives, ∀ right ∈ candidates.filter survives,
      fallbackKey left = fallbackKey right → left = right := by
  intro left hleft right hright hkey
  have hid := accountId_of_configuredKey
    (congrArg (fun key : ℚ ×ₗ Place ×ₗ Units => (ofLex key).2) hkey)
  exact List.inj_on_of_nodup_map ids (List.mem_of_mem_filter hleft) (List.mem_of_mem_filter hright)
    hid

theorem selectStickyCandidate_perm (ids : (candidates.map (·.accountId)).Nodup)
    (orders : ∀ candidate ∈ candidates, candidate.configuredOrder ≠ nan)
    {others : List StickySelectionCandidate} (perm : others.Perm candidates) :
    selectStickyCandidate dateParse others pendingBytes requestBytes now =
      selectStickyCandidate dateParse candidates pendingBytes requestBytes now := by
  have hfilter : (others.filter survives).Perm (candidates.filter survives) := perm.filter _
  have hweighed : (weighed dateParse others now).Perm (weighed dateParse candidates now) :=
    hfilter.filterMap _
  have by_key : ComparesBy (compareWeighted pendingBytes requestBytes)
      (weightedKey pendingBytes requestBytes) (weighed dateParse candidates now) :=
    comparesBy_weighed orders
  have hhead := head?_sortBy_perm by_key (weighed_distinct ids) hweighed
  have hfallback := head?_sortBy_perm (comparesBy_eligible orders) (eligible_distinct ids) hfilter
  have hnone : others = [] ↔ candidates = [] := by
    rw [← List.length_eq_zero_iff, perm.length_eq, List.length_eq_zero_iff]
  have hkilled : others.filter survives = [] ↔ candidates.filter survives = [] := by
    rw [← List.length_eq_zero_iff, hfilter.length_eq, List.length_eq_zero_iff]
  unfold weighed at hhead
  unfold selectStickyCandidate
  simp only [hnone, hkilled, hhead, hfallback]

/-- No selection names a candidate that the killswitch stops. -/
theorem Selects.survivor {result : Except String (Option Selection)}
    (selects : Selects dateParse candidates pendingBytes requestBytes now result)
    {answer : Selection} (h : result = .ok (some answer)) :
    ∃ candidate ∈ candidates, survives candidate = true ∧
      candidate.accountId = answer.accountId := by
  cases selects with
  | empty => cases h
  | killed => cases h
  | weighted selected head =>
    cases h
    obtain ⟨candidate, hmem, hsurvives, hweighs⟩ :=
      mem_weighed.mp (mem_sortBy.mp (List.mem_of_mem_head? head))
    exact ⟨candidate, hmem, hsurvives, by rw [hweighs.same]⟩
  | fallback selected hnone head =>
    cases h
    obtain ⟨hmem, hsurvives⟩ := List.mem_filter.mp (mem_sortBy.mp (List.mem_of_mem_head? head))
    exact ⟨selected, hmem, hsurvives, rfl⟩

/-- A weighted answer is the least of the weighed candidates. -/
theorem Selects.least {result : Except String (Option Selection)}
    (selects : Selects dateParse candidates pendingBytes requestBytes now result)
    (orders : ∀ candidate ∈ candidates, candidate.configuredOrder ≠ nan)
    {answer : Selection} (h : result = .ok (some answer)) (source : answer.source = .weighted) :
    ∃ selected ∈ weighed dateParse candidates now,
      answer = ⟨selected.candidate.accountId, some selected.quotaCheckedAt, .weighted⟩ ∧
      ∀ other ∈ weighed dateParse candidates now,
        weightedKey pendingBytes requestBytes selected ≤
          weightedKey pendingBytes requestBytes other := by
  cases selects with
  | empty => cases h
  | killed => cases h
  | weighted selected head =>
    cases h
    obtain ⟨hmem, hleast⟩ := head?_sortBy_least (comparesBy_weighed orders) head
    exact ⟨selected, hmem, rfl, hleast⟩
  | fallback selected hnone head =>
    cases h
    cases source

theorem Selects.mode_fallback {result : Except String (Option Selection)}
    (selects : Selects dateParse candidates pendingBytes requestBytes now result) :
    (∃ answer, result = .ok (some answer) ∧ answer.source = .modeFallback) ↔
      candidates.filter survives ≠ [] ∧ weighed dateParse candidates now = [] := by
  cases selects with
  | empty message hnone => simp [hnone]
  | killed hnone => simp [hnone]
  | weighted selected head =>
    have hmem := mem_sortBy.mp (List.mem_of_mem_head? head)
    simp [List.ne_nil_of_mem hmem]
  | fallback selected hnone head =>
    have hmem := mem_sortBy.mp (List.mem_of_mem_head? head)
    simp [hnone, List.ne_nil_of_mem hmem]

end Selection

/-- With distinct ids and orders that are numbers: the answer is the same for every
order of the candidates; it names a survivor; a weighted one has a fresh reading, the
least of its weights, positive, and the least score over the guarded weights, then the
least configured order, then the least id; and the fallback answers exactly where there
are survivors and none has a positive weight. -/
theorem sticky_selection (dateParse : String → Option ℚ)
    (candidates : List StickySelectionCandidate) (pendingBytes : Units → Option ℚ)
    (requestBytes now : ℚ) (ids : (candidates.map (·.accountId)).Nodup)
    (orders : ∀ candidate ∈ candidates, candidate.configuredOrder ≠ nan) :
    let select := fun candidates =>
      selectStickyCandidate dateParse candidates pendingBytes requestBytes now
    (∀ others, others.Perm candidates → select others = select candidates) ∧
    (∀ answer, select candidates = .ok (some answer) → ∃ candidate ∈ candidates,
      survives candidate = true ∧ candidate.accountId = answer.accountId) ∧
    (∀ answer, select candidates = .ok (some answer) → answer.source = .weighted →
      ∃ candidate ∈ candidates, survives candidate = true ∧ ∃ weighted,
        Weighs dateParse now candidate weighted ∧
        answer = ⟨candidate.accountId, some weighted.quotaCheckedAt, .weighted⟩ ∧
        ∀ other ∈ candidates, survives other = true → ∀ rival, Weighs dateParse now other rival →
          weightedKey pendingBytes requestBytes weighted ≤
            weightedKey pendingBytes requestBytes rival) ∧
    ((∃ answer, select candidates = .ok (some answer) ∧ answer.source = .modeFallback) ↔
      (∃ candidate ∈ candidates, survives candidate = true) ∧
      ∀ candidate ∈ candidates, survives candidate = true →
        ¬ ∃ weighted, Weighs dateParse now candidate weighted) := by
  have selects : Selects dateParse candidates pendingBytes requestBytes now
    (selectStickyCandidate dateParse candidates pendingBytes requestBytes now) :=
    selectStickyCandidate_selects
  refine ⟨fun others perm => selectStickyCandidate_perm ids orders perm,
    fun answer h => selects.survivor h, ?_, ?_⟩
  · intro answer h source
    obtain ⟨selected, hselected, hanswer, hleast⟩ := selects.least orders h source
    obtain ⟨candidate, hmem, hsurvives, hweighs⟩ := mem_weighed.mp hselected
    refine ⟨candidate, hmem, hsurvives, selected, hweighs, ?_, ?_⟩
    · rw [hanswer, hweighs.same]
    · intro other hother hsurvives' rival hrival
      exact hleast rival (mem_weighed.mpr ⟨other, hother, hsurvives', hrival⟩)
  · rw [selects.mode_fallback]
    refine and_congr ?_ ?_
    · rw [ne_eq, List.filter_eq_nil_iff]
      simp
    · rw [List.eq_nil_iff_forall_not_mem]
      simp only [mem_weighed]
      constructor
      · rintro hnone candidate hmem hsurvives ⟨weighted, hweighs⟩
        exact hnone weighted ⟨candidate, hmem, hsurvives, hweighs⟩
      · rintro hnone weighted ⟨candidate, hmem, hsurvives, hweighs⟩
        exact hnone candidate hmem hsurvives ⟨weighted, hweighs⟩

/-! ## Small weights, and an order that is no number -/

def windowOf (remainingPercent : ℚ) : AccountQuota where
  primary := some { remainingPercent := finite remainingPercent, checkedAt := some (finite 0) }

def lightCandidates : List StickySelectionCandidate :=
  [{ accountId := [97], quota := some (windowOf (1 / 10000000)), configuredOrder := finite 0 },
   { accountId := [98], quota := some (windowOf (5 / 10000000)), configuredOrder := finite 1 }]

def unorderedCandidates : List StickySelectionCandidate :=
  [{ accountId := [97], configuredOrder := finite 2 },
   { accountId := [98], configuredOrder := nan },
   { accountId := [99], configuredOrder := finite 1 }]

theorem sticky_selection_two :
    (lightCandidates.map (·.accountId)).Nodup ∧
    selectStickyCandidate (fun _ => none) lightCandidates.reverse (fun _ => none) 1 0 =
      selectStickyCandidate (fun _ => none) lightCandidates (fun _ => none) 1 0 := by
  have ids : (lightCandidates.map (·.accountId)).Nodup := by decide
  exact ⟨ids, (sticky_selection (fun _ => none) lightCandidates (fun _ => none) 1 0 ids
    (by decide)).1 _ (List.reverse_perm _)⟩

/-- Below the guard of the division the score is not the bytes over the weight: the
first candidate is chosen though the second has less of them. And where an order is no
number the comparison runs in a circle, so that the answer follows the order of the
candidates; where none survives there is no answer to fall back to. -/
theorem sticky_selection_wrong :
    (selectStickyCandidate (fun _ => none) lightCandidates
        (fun id => if id = [98] then some 2 else none) 1 0 = .ok (some ⟨[97], some 0, .weighted⟩) ∧
      lightCandidates.filterMap (fun candidate =>
        (candidateWeight (fun _ => none) candidate 0).map fun weighted =>
          (candidate.accountId, weighted.weight)) =
        [([97], finite (1 / 10000000)), ([98], finite (5 / 10000000))] ∧
      ((2 + 1) / (5 / 10000000) : ℚ) < 1 / (1 / 10000000)) ∧
    (∃ others : List StickySelectionCandidate, others.Perm unorderedCandidates ∧
      (unorderedCandidates.map (·.accountId)).Nodup ∧
      selectStickyCandidate (fun _ => none) others (fun _ => none) 1 0 ≠
        selectStickyCandidate (fun _ => none) unorderedCandidates (fun _ => none) 1 0) ∧
    selectStickyCandidate (fun _ => none)
      [{ accountId := [97], configuredOrder := finite 0, killswitchPasses := some false }]
      (fun _ => none) 1 0 = .ok none := by
  refine ⟨⟨?_, ?_, by norm_num⟩, ?_, rfl⟩
  · decide +kernel
  · decide +kernel
  · refine ⟨unorderedCandidates.rotate 2, List.rotate_perm _ _, by decide, ?_⟩
    decide +kernel

end StickyRouting
