import OpenaiAuth.Request.Routing

/-! # What a plan is

A plan over a roster that holds each id once, in the terms of its admission: rows with
free quota, rows with usable credits, and rows that are known to be exhausted.

Main result: `planOrdered_tiers`.
-/

namespace Request.Pool

variable {Map : Type} (L : Library Map)

/-! ## The rows of an admission -/

section Rows

variable (input : PoolRoutingInput Map) (admission : AdmissionResult) (id : String)

/-- The row is admitted and not below its floor. -/
def Admitted : Prop := input.passes id = true ∧ ∃ row ∈ admission.admitted, row.id = id

/-- The row is admitted with free quota. -/
def Free : Prop :=
  input.passes id = true ∧ ∃ row ∈ admission.admitted, row.id = id ∧ row.lastPath = false

/-- The row is refused for a spent window, and its prepaid credits can serve. -/
def Funded : Prop :=
  input.passes id = true ∧
    (∃ row ∈ input.rows, row.id = id ∧ row.kind = .oauth ∧
      L.budgetExhaustedResetAt row.quota input.now = false ∧
      creditsUsable L (L.projectQuota row.quota).credits input.now = true) ∧
    ∃ refusal ∈ admission.refused, refusal.id = id ∧ refusal.reason = .exhausted

/-- The row is known to be exhausted. -/
def Exhausted : Prop :=
  input.passes id = true ∧
    ∃ refusal ∈ admission.refused, refusal.id = id ∧ isConfirmedExhaustion refusal = true

/-- The row is refused because it waits for its first reading. -/
def Waiting : Prop :=
  ∃ refusal ∈ admission.refused, refusal.id = id ∧ refusal.reason = .quotaUnknown

instance : Decidable (Admitted input admission id) := by unfold Admitted; infer_instance

instance : Decidable (Free input admission id) := by unfold Free; infer_instance

instance : Decidable (Funded L input admission id) := by unfold Funded; infer_instance

instance : Decidable (Exhausted input admission id) := by unfold Exhausted; infer_instance

/-- The rows to try when none is free and none has credits: those the library admits for a
spent credit budget, or if it admits none those that are known to be exhausted. -/
def LastPath (ids : List String) : Prop :=
  if ∃ id ∈ ids, Admitted input admission id then Admitted input admission id
  else Exhausted input admission id

instance (ids : List String) : Decidable (LastPath input admission id ids) := by
  unfold LastPath; infer_instance

end Rows

/-- What is assumed of the library: its order is the admitted rows above their floor, in
placement order, and no row is both admitted and refused, or either twice. -/
structure OrdersAdmitted (L : Library Map) : Prop where
  placed : ∀ ids placement mainId, (L.orderForPlacement ids placement mainId).Perm ids
  order : ∀ (input : PoolRoutingInput Map) placement mainId,
    (L.routeOrdered input placement mainId).order =
      (L.orderForPlacement (input.rows.map (·.id)) placement mainId).filter fun id =>
        decide (Admitted input (L.routeOrdered input placement mainId).admission id)
  outcomes : ∀ (input : PoolRoutingInput Map) placement mainId, (input.rows.map (·.id)).Nodup →
    ((L.routeOrdered input placement mainId).admission.admitted.map (·.id) ++
      (L.routeOrdered input placement mainId).admission.refused.map (·.id)).Nodup

variable {L} {input : PoolRoutingInput Map} {admission : AdmissionResult} {id : String}

/-- Each row has at most one outcome. -/
def Settled (admission : AdmissionResult) : Prop :=
  (admission.admitted.map (·.id) ++ admission.refused.map (·.id)).Nodup

theorem Settled.refusal {refusal other : AdmissionRefusal} (h : Settled admission)
    (hmem : refusal ∈ admission.refused) (hother : other ∈ admission.refused)
    (hid : other.id = refusal.id) : other = refusal :=
  List.inj_on_of_nodup_map (List.nodup_append.mp h).2.1 hother hmem hid

theorem Settled.not_refused {row : AdmittedRow} {refusal : AdmissionRefusal}
    (h : Settled admission) (hrow : row ∈ admission.admitted) (hmem : refusal ∈ admission.refused) :
    row.id ≠ refusal.id :=
  (List.nodup_append.mp h).2.2 _ (List.mem_map_of_mem hrow) _ (List.mem_map_of_mem hmem)

/-- A row that can be sent to does not wait for its first reading. -/
theorem Settled.not_waiting (h : Settled admission)
    (hrow : Admitted input admission id ∨ Funded L input admission id ∨ Exhausted input admission id) :
    ¬Waiting admission id := by
  rintro ⟨waiting, hwaiting, rfl, hunknown⟩
  rcases hrow with ⟨-, row, hrow, hid⟩ | ⟨-, -, refusal, hmem, hid, hreason⟩ |
    ⟨-, refusal, hmem, hid, hreason⟩
  · exact h.not_refused hrow hwaiting hid
  · rw [h.refusal hwaiting hmem hid, hunknown] at hreason
    cases hreason
  · rw [h.refusal hwaiting hmem hid] at hreason
    simp [isConfirmedExhaustion, hunknown] at hreason

/-! ## The tiers -/

theorem mem_free {rows : List (RoutingRow Map)} :
    id ∈ (creditsTiers L rows input admission).free ↔ Free input admission id := by
  simp only [creditsTiers, List.mem_map, List.mem_filter, Bool.and_eq_true, Bool.not_eq_true']
  constructor
  · rintro ⟨row, ⟨hrow, hlast, hpasses⟩, rfl⟩
    exact ⟨hpasses, row, hrow, rfl, hlast⟩
  · rintro ⟨hpasses, row, hrow, rfl, hlast⟩
    exact ⟨row, ⟨hrow, hlast, hpasses⟩, rfl⟩

theorem refused_reason (h : Settled admission) {reason : RefusalReason} :
    (admission.refused.reverse.find? fun refusal => refusal.id = id).map (·.reason) = some reason ↔
      ∃ refusal ∈ admission.refused, refusal.id = id ∧ refusal.reason = reason := by
  constructor
  · intro hfind
    obtain ⟨refusal, hfound, rfl⟩ := Option.map_eq_some_iff.mp hfind
    have hid := List.find?_some hfound
    exact ⟨refusal, List.mem_reverse.mp (List.mem_of_find?_eq_some hfound), of_decide_eq_true hid, rfl⟩
  · rintro ⟨refusal, hmem, rfl, rfl⟩
    have hsome : (admission.refused.reverse.find? fun other => other.id = refusal.id).isSome := by
      rw [List.find?_isSome]
      exact ⟨refusal, List.mem_reverse.mpr hmem, decide_eq_true rfl⟩
    obtain ⟨other, hfind⟩ := Option.isSome_iff_exists.mp hsome
    have hother := List.mem_reverse.mp (List.mem_of_find?_eq_some hfind)
    have hid := List.find?_some hfind
    rw [hfind, h.refusal hmem hother (of_decide_eq_true hid)]
    rfl

theorem mem_credits (h : Settled admission) :
    id ∈ (creditsTiers L input.rows input admission).credits ↔ Funded L input admission id := by
  simp only [creditsTiers, List.mem_map, List.mem_filter, Bool.and_eq_true, Bool.not_eq_true',
    decide_eq_true_eq]
  constructor
  · rintro ⟨row, ⟨hrow, ⟨⟨⟨hkind, hpasses⟩, hreason⟩, hbudget⟩, hcredits⟩, rfl⟩
    exact ⟨hpasses, ⟨row, hrow, rfl, hkind, hbudget, hcredits⟩, (refused_reason h).mp hreason⟩
  · rintro ⟨hpasses, ⟨row, hrow, rfl, hkind, hbudget, hcredits⟩, hrefused⟩
    exact ⟨row, ⟨hrow, ⟨⟨⟨hkind, hpasses⟩, (refused_reason h).mpr hrefused⟩, hbudget⟩, hcredits⟩, rfl⟩

theorem mem_confirmed :
    id ∈ (admission.refused.filter fun refusal =>
        isConfirmedExhaustion refusal && input.passes refusal.id).map (·.id) ↔
      Exhausted input admission id := by
  simp only [List.mem_map, List.mem_filter, Bool.and_eq_true]
  constructor
  · rintro ⟨refusal, ⟨hmem, hconfirmed, hpasses⟩, rfl⟩
    exact ⟨hpasses, refusal, hmem, rfl, hconfirmed⟩
  · rintro ⟨hpasses, refusal, hmem, rfl, hconfirmed⟩
    exact ⟨refusal, ⟨hmem, hconfirmed, hpasses⟩, rfl⟩

theorem Free.admitted (h : Free input admission id) : Admitted input admission id := by
  obtain ⟨hpasses, row, hrow, hid, -⟩ := h
  exact ⟨hpasses, row, hrow, hid⟩

/-! ## The plan -/

section Plan

variable (L input) (placement : OrderedPlacement) (mainId : Option (Option String))
  (replayable : Bool)

def planMain : String := (mainId.map (·.getD "")).getD formerMainId

def planPlacement : OrderedPlacement := if replayable then placement else .mainFirst

def planAdmission : AdmissionResult :=
  (L.routeOrdered input (planPlacement placement replayable) (planMain mainId)).admission

/-- The roster in placement order. -/
def planIds : List String :=
  L.orderForPlacement (input.rows.map (·.id)) (planPlacement placement replayable) (planMain mainId)

end Plan

section Tiers

variable {placement : OrderedPlacement} {mainId : Option (Option String)} {replayable : Bool}
  (hL : OrdersAdmitted L) (hrows : (input.rows.map (·.id)).Nodup)

include hL in
theorem mem_planIds : id ∈ planIds L input placement mainId replayable ↔ id ∈ input.rows.map (·.id) :=
  (hL.placed _ _ _).mem_iff

include hL hrows in
theorem planIds_nodup : (planIds L input placement mainId replayable).Nodup :=
  (hL.placed _ _ _).nodup_iff.mpr hrows

include hL hrows in
theorem planAdmission_settled : Settled (planAdmission L input placement mainId replayable) :=
  hL.outcomes _ _ _ hrows

include hL hrows in
/-- The plan in the terms of the admission. -/
theorem planOrdered_eq :
    planOrdered L input placement mainId replayable =
      let admission := planAdmission L input placement mainId replayable
      let ids := planIds L input placement mainId replayable
      let admitted := ids.filter fun id => decide (Admitted input admission id)
      let free := ids.filter fun id => decide (Free input admission id)
      let credits := ids.filter fun id => decide (Funded L input admission id)
      let lastPath := ids.filter fun id => decide (Exhausted input admission id)
      if !replayable then
        match if planMain mainId ∈ ids then some (planMain mainId)
          else ((free.head?.or credits.head?).or admitted.head?).or lastPath.head? with
        | some target =>
            if target ∈ admitted then .send [target] false
            else if target ∈ credits then .send [target] false
            else if Exhausted input admission target then .send [target] true
            else if planMain mainId ∈ ids then
              .block (blockFor (some (planMain mainId)) admission input.killswitch)
            else .block (routeBlock ids admission input.killswitch)
        | none => .block (routeBlock ids admission input.killswitch)
      else if free ≠ [] then .send free false
      else if credits ≠ [] then
        .send (credits ++ (if admitted ≠ [] then admitted else lastPath).filter (· ∉ credits)) false
      else if admitted ≠ [] then .send admitted false
      else if lastPath ≠ [] then .send lastPath true
      else .block (routeBlock ids admission input.killswitch) := by
  have hsettled : Settled (planAdmission L input placement mainId replayable) :=
    planAdmission_settled hL hrows
  have horder : (L.routeOrdered input (planPlacement placement replayable) (planMain mainId)).order =
      (planIds L input placement mainId replayable).filter fun id =>
        decide (Admitted input (planAdmission L input placement mainId replayable) id) :=
    hL.order _ _ _
  have hfree : ((planIds L input placement mainId replayable).filter fun id =>
      decide (Admitted input (planAdmission L input placement mainId replayable) id)).filter
        (· ∈ (creditsTiers L input.rows input
          (planAdmission L input placement mainId replayable)).free) =
      (planIds L input placement mainId replayable).filter fun id =>
        decide (Free input (planAdmission L input placement mainId replayable) id) := by
    rw [List.filter_filter]
    refine List.filter_congr fun id _ => ?_
    rw [← Bool.decide_and]
    refine decide_eq_decide.mpr ⟨fun h => mem_free.mp h.1, fun h => ⟨mem_free.mpr h, h.admitted⟩⟩
  have hcredits : (planIds L input placement mainId replayable).filter
      (· ∈ (creditsTiers L input.rows input
        (planAdmission L input placement mainId replayable)).credits) =
      (planIds L input placement mainId replayable).filter fun id =>
        decide (Funded L input (planAdmission L input placement mainId replayable) id) :=
    List.filter_congr fun id _ => decide_eq_decide.mpr (mem_credits hsettled)
  have hlast : (planIds L input placement mainId replayable).filter
      (· ∈ ((planAdmission L input placement mainId replayable).refused.filter fun refusal =>
        isConfirmedExhaustion refusal && input.passes refusal.id).map (·.id)) =
      (planIds L input placement mainId replayable).filter fun id =>
        decide (Exhausted input (planAdmission L input placement mainId replayable) id) :=
    List.filter_congr fun id _ => decide_eq_decide.mpr mem_confirmed
  dsimp only
  rw [← hcredits, ← hlast, ← hfree, ← horder]
  simp only [← mem_confirmed]
  rfl

theorem mem_keep {p : String → Prop} [DecidablePred p] {ids : List String} :
    id ∈ ids.filter (fun id => decide (p id)) ↔ id ∈ ids ∧ p id := by
  rw [List.mem_filter, decide_eq_true_eq]

include hL hrows in
/-- A plan names rows of the roster that can serve, each once. -/
theorem send_rows {order : List String} {lastPath : Bool}
    (h : planOrdered L input placement mainId replayable = .send order lastPath) :
    order ≠ [] ∧ order.Nodup ∧ ∀ id ∈ order, id ∈ planIds L input placement mainId replayable ∧
      (Admitted input (planAdmission L input placement mainId replayable) id ∨
        Funded L input (planAdmission L input placement mainId replayable) id ∨
        Exhausted input (planAdmission L input placement mainId replayable) id) := by
  have hids : (planIds L input placement mainId replayable).Nodup := planIds_nodup hL hrows
  rw [planOrdered_eq hL hrows] at h
  generalize planAdmission L input placement mainId replayable = admission at h ⊢
  generalize planIds L input placement mainId replayable = ids at h hids ⊢
  dsimp only at h
  split at h
  · -- one row: main, or the first of the best tier that has one
    split at h
    · rename_i target htarget
      have hmem : target ∈ ids := by
        split at htarget
        · rename_i hmain
          cases htarget
          exact hmain
        · simp only [Option.or_eq_some_iff, List.head?_eq_some_iff] at htarget
          rcases htarget with ((⟨_, hhead⟩ | ⟨-, _, hhead⟩) | ⟨-, _, hhead⟩) | ⟨-, _, hhead⟩
          all_goals
            exact (List.mem_filter.mp (hhead ▸ List.mem_cons_self : target ∈ _)).1
      have hone : Admitted input admission target ∨ Funded L input admission target ∨
          Exhausted input admission target → [target] ≠ [] ∧ [target].Nodup ∧ ∀ id ∈ [target],
            id ∈ ids ∧ (Admitted input admission id ∨ Funded L input admission id ∨
              Exhausted input admission id) := by
        intro hserves
        refine ⟨List.cons_ne_nil _ _, List.nodup_singleton _, fun id hid => ?_⟩
        rw [List.mem_singleton.mp hid]
        exact ⟨hmem, hserves⟩
      split at h
      · rename_i hadmitted
        cases h
        exact hone (.inl (mem_keep.mp hadmitted).2)
      · split at h
        · rename_i hfunded
          cases h
          exact hone (.inr (.inl (mem_keep.mp hfunded).2))
        · split at h
          · rename_i hexhausted
            cases h
            exact hone (.inr (.inr hexhausted))
          · split at h <;> cases h
    · cases h
  · split at h
    · rename_i hfree
      cases h
      refine ⟨hfree, hids.filter _, fun id hid => ?_⟩
      exact ⟨(mem_keep.mp hid).1, .inl (mem_keep.mp hid).2.admitted⟩
    · split at h
      · rename_i hcredits
        cases h
        refine ⟨fun hnil => hcredits (List.append_eq_nil_iff.mp hnil).1, ?_, fun id hid => ?_⟩
        · refine List.Nodup.append (hids.filter _) (List.Nodup.filter _ ?_) ?_
          · split <;> exact hids.filter _
          · intro id hid hrest
            exact of_decide_eq_true (List.mem_filter.mp hrest).2 hid
        · rcases List.mem_append.mp hid with hid | hid
          · exact ⟨(mem_keep.mp hid).1, .inr (.inl (mem_keep.mp hid).2)⟩
          · have hrest := (List.mem_filter.mp hid).1
            split at hrest
            · exact ⟨(mem_keep.mp hrest).1, .inl (mem_keep.mp hrest).2⟩
            · exact ⟨(mem_keep.mp hrest).1, .inr (.inr (mem_keep.mp hrest).2)⟩
      · split at h
        · rename_i hadmitted
          cases h
          exact ⟨hadmitted, hids.filter _, fun id hid =>
            ⟨(mem_keep.mp hid).1, .inl (mem_keep.mp hid).2⟩⟩
        · split at h
          · rename_i hlast
            cases h
            exact ⟨hlast, hids.filter _, fun id hid =>
              ⟨(mem_keep.mp hid).1, .inr (.inr (mem_keep.mp hid).2)⟩⟩
          · cases h

theorem keep_ne_nil {p : String → Prop} [DecidablePred p] {ids : List String} :
    ids.filter (fun id => decide (p id)) ≠ [] ↔ ∃ id ∈ ids, p id := by
  rw [List.ne_nil_iff_length_pos, List.length_pos_iff_exists_mem]
  simp only [mem_keep]

variable (placement mainId) in
include hL hrows in
/-- A request that may be replayed tries the free rows; without any, those with credits and
then the last path. -/
theorem replayable_tiers :
    ((∃ id ∈ planIds L input placement mainId true,
        Free input (planAdmission L input placement mainId true) id) →
      planOrdered L input placement mainId true =
        .send ((planIds L input placement mainId true).filter fun id =>
          decide (Free input (planAdmission L input placement mainId true) id)) false) ∧
    ((¬∃ id ∈ planIds L input placement mainId true,
        Free input (planAdmission L input placement mainId true) id) →
      ∀ order lastPath, planOrdered L input placement mainId true = .send order lastPath →
        order = ((planIds L input placement mainId true).filter fun id =>
            decide (Funded L input (planAdmission L input placement mainId true) id)) ++
          (planIds L input placement mainId true).filter fun id =>
            decide (LastPath input (planAdmission L input placement mainId true) id
                (planIds L input placement mainId true) ∧
              ¬Funded L input (planAdmission L input placement mainId true) id)) ∧
    ∀ block, planOrdered L input placement mainId true = .block block →
      ∀ id ∈ planIds L input placement mainId true,
        ¬Admitted input (planAdmission L input placement mainId true) id ∧
          ¬Funded L input (planAdmission L input placement mainId true) id ∧
          ¬Exhausted input (planAdmission L input placement mainId true) id := by
  rw [planOrdered_eq hL hrows]
  generalize planAdmission L input placement mainId true = admission
  generalize planIds L input placement mainId true = ids
  simp only [Bool.not_true, Bool.false_eq_true, if_false, keep_ne_nil]
  refine ⟨fun hfree => if_pos hfree, ?_, ?_⟩
  · intro hfree order lastPath h
    rw [if_neg hfree] at h
    -- the rows of the last path, without those that are tried on their credits
    have hrest : (if ∃ id ∈ ids, Admitted input admission id then
          ids.filter fun id => decide (Admitted input admission id)
        else ids.filter fun id => decide (Exhausted input admission id)).filter
          (· ∉ ids.filter fun id => decide (Funded L input admission id)) =
        ids.filter fun id =>
          decide (LastPath input admission id ids ∧ ¬Funded L input admission id) := by
      unfold LastPath
      split_ifs
      · rw [List.filter_filter]
        refine List.filter_congr fun id hid => ?_
        rw [← Bool.decide_and]
        simp only [mem_keep, hid, true_and, and_comm]
      · rw [List.filter_filter]
        refine List.filter_congr fun id hid => ?_
        rw [← Bool.decide_and]
        simp only [mem_keep, hid, true_and, and_comm]
    by_cases hcredits : ∃ id ∈ ids, Funded L input admission id
    · rw [if_pos hcredits] at h
      cases h
      rw [← hrest]
    · rw [if_neg hcredits] at h
      have hnil : ids.filter (fun id => decide (Funded L input admission id)) = [] := by
        rw [← not_not (a := _ = []), ← ne_eq, keep_ne_nil]
        exact hcredits
      rw [← hrest, hnil, List.nil_append]
      have hall : ∀ rows : List String, rows.filter (· ∉ ([] : List String)) = rows := by simp
      rw [hall]
      split_ifs at h with hadmitted hlast
      · cases h
        rw [if_pos hadmitted]
      · cases h
        rw [if_neg hadmitted]
  · intro block h id hid
    split_ifs at h with hfree hcredits hadmitted hlast
    exact ⟨fun hin => hadmitted ⟨id, hid, hin⟩, fun hin => hcredits ⟨id, hid, hin⟩,
      fun hin => hlast ⟨id, hid, hin⟩⟩

include hL hrows in
/-- A request that may not be replayed gets one row, and main if the roster has it. -/
theorem single_row :
    (∀ order lastPath, planOrdered L input placement mainId false = .send order lastPath →
      ∃ id, order = [id] ∧
        (planMain mainId ∈ planIds L input placement mainId false → id = planMain mainId)) ∧
    ∀ block, planOrdered L input placement mainId false = .block block →
      ∀ id ∈ planIds L input placement mainId false,
        (planMain mainId ∈ planIds L input placement mainId false → id = planMain mainId) →
        ¬Admitted input (planAdmission L input placement mainId false) id ∧
          ¬Funded L input (planAdmission L input placement mainId false) id ∧
          ¬Exhausted input (planAdmission L input placement mainId false) id := by
  rw [planOrdered_eq hL hrows]
  generalize planAdmission L input placement mainId false = admission
  generalize planIds L input placement mainId false = ids
  generalize planMain mainId = main
  simp only [Bool.not_false, if_true, mem_keep]
  constructor
  · intro order lastPath h
    split at h
    · rename_i target htarget
      have hmain : main ∈ ids → target = main := by
        intro hmem
        rw [if_pos hmem] at htarget
        exact (Option.some.inj htarget).symm
      refine ⟨target, ?_, hmain⟩
      split_ifs at h
      all_goals
        cases h
        rfl
    · cases h
  · intro block h id hid honly
    split at h
    · rename_i target htarget
      split_ifs at h with hadmitted hfunded hexhausted hmain
      · -- main is in the roster and is none of these
        rw [if_pos hmain] at htarget
        cases htarget
        rw [honly hmain]
        exact ⟨fun hin => hadmitted ⟨hmain, hin⟩, fun hin => hfunded ⟨hmain, hin⟩, hexhausted⟩
      · rw [if_neg hmain] at htarget
        simp only [Option.or_eq_some_iff, List.head?_eq_some_iff] at htarget
        rcases htarget with ((⟨_, hhead⟩ | ⟨-, _, hhead⟩) | ⟨-, _, hhead⟩) | ⟨-, _, hhead⟩
        · obtain ⟨hmem, hin⟩ := mem_keep.mp (hhead ▸ List.mem_cons_self : target ∈ _)
          exact (hadmitted ⟨hmem, hin.admitted⟩).elim
        · exact (hfunded (mem_keep.mp (hhead ▸ List.mem_cons_self : target ∈ _))).elim
        · exact (hadmitted (mem_keep.mp (hhead ▸ List.mem_cons_self : target ∈ _))).elim
        · exact (hexhausted (mem_keep.mp (hhead ▸ List.mem_cons_self : target ∈ _)).2).elim
    · rename_i htarget
      split_ifs at htarget
      simp only [Option.or_eq_none_iff, List.head?_eq_none_iff] at htarget
      obtain ⟨⟨⟨-, hcredits⟩, hadmitted⟩, hlast⟩ := htarget
      have hnone : ∀ {p : String → Prop} [DecidablePred p],
          ids.filter (fun id => decide (p id)) = [] → ¬p id := by
        intro p _ hnil hin
        have hmem : id ∈ ids.filter fun id => decide (p id) := mem_keep.mpr ⟨hid, hin⟩
        rw [hnil] at hmem
        cases hmem
      exact ⟨hnone hadmitted, hnone hcredits, hnone hlast⟩

end Tiers

/-- Over a roster that holds each id once. A plan names rows of the roster, each once, none
killed or waiting for its first reading. With a free row it is the free rows in placement
order, otherwise the rows with usable credits and then the last path. A request that may not
be replayed gets one row, main if the roster has it. A block means that no row above its
floor is admitted, has usable credits or is known to be exhausted, or, for a request that may
not be replayed and a roster with main, that main is none of these. -/
theorem planOrdered_tiers {L : Library Map} (hL : OrdersAdmitted L) {input : PoolRoutingInput Map}
    (hrows : (input.rows.map (·.id)).Nodup) (placement : OrderedPlacement)
    (mainId : Option (Option String)) (replayable : Bool) :
    let plan := planOrdered L input placement mainId replayable
    let admission := planAdmission L input placement mainId replayable
    let ids := planIds L input placement mainId replayable
    let roster := input.rows.map (·.id)
    (∀ order lastPath, plan = .send order lastPath →
      order ≠ [] ∧ order.Nodup ∧
        ∀ id ∈ order, id ∈ roster ∧ input.passes id = true ∧ ¬Waiting admission id) ∧
    (replayable = true →
      ((∃ id ∈ roster, Free input admission id) →
        plan = .send (ids.filter fun id => decide (Free input admission id)) false) ∧
      ((¬∃ id ∈ roster, Free input admission id) →
        ∀ order lastPath, plan = .send order lastPath →
          order = (ids.filter fun id => decide (Funded L input admission id)) ++
            ids.filter fun id =>
              decide (LastPath input admission id ids ∧ ¬Funded L input admission id))) ∧
    (replayable = false → ∀ order lastPath, plan = .send order lastPath →
      ∃ id, order = [id] ∧ (planMain mainId ∈ roster → id = planMain mainId)) ∧
    ∀ block, plan = .block block → ∀ id ∈ roster,
      (replayable = false → planMain mainId ∈ roster → id = planMain mainId) →
        ¬Admitted input admission id ∧ ¬Funded L input admission id ∧
          ¬Exhausted input admission id := by
  intro plan admission ids roster
  have hmem : ∀ {id}, id ∈ ids ↔ id ∈ roster := mem_planIds hL
  have hsettled : Settled admission := planAdmission_settled hL hrows
  refine ⟨?_, ?_, ?_, ?_⟩
  · intro order lastPath hplan
    obtain ⟨hne, hnodup, hall⟩ := send_rows hL hrows hplan
    refine ⟨hne, hnodup, fun id hid => ?_⟩
    obtain ⟨hin, hserves⟩ := hall id hid
    refine ⟨hmem.mp hin, ?_, hsettled.not_waiting hserves⟩
    rcases hserves with h | h | h
    · exact h.1
    · exact h.1
    · exact h.1
  · rintro rfl
    obtain ⟨hfree, hrest, -⟩ := replayable_tiers placement mainId hL hrows
    refine ⟨fun ⟨id, hid, hin⟩ => hfree ⟨id, hmem.mpr hid, hin⟩, fun hnone => hrest ?_⟩
    rintro ⟨id, hid, hin⟩
    exact hnone ⟨id, hmem.mp hid, hin⟩
  · rintro rfl order lastPath hplan
    obtain ⟨id, horder, hmain⟩ := (single_row hL hrows).1 order lastPath hplan
    exact ⟨id, horder, fun hin => hmain (hmem.mpr hin)⟩
  · intro block hblock id hid honly
    cases replayable with
    | true => exact (replayable_tiers placement mainId hL hrows).2.2 block hblock id (hmem.mpr hid)
    | false =>
        exact (single_row hL hrows).2 block hblock id (hmem.mpr hid) fun hin =>
          honly rfl (hmem.mp hin)

/-! ## A library -/

/-- A quota as it may read: a free window, a spent credit budget, a spent window without and
with usable credits. -/
inductive Reading where
  | free
  | budgetSpent
  | exhausted
  | credits
deriving DecidableEq

def isAdmitted (input : PoolRoutingInput Reading) (row : RoutingRow Reading) : Bool :=
  (input.rateLimitMarks row.id).isNone && (row.quota = some .free || row.quota = some .budgetSpent)

def isRefused (input : PoolRoutingInput Reading) (row : RoutingRow Reading) : Bool :=
  (input.rateLimitMarks row.id).isNone && !(row.quota = some .free || row.quota = some .budgetSpent)

def readingAdmission (rows : List (RoutingRow Reading)) (input : PoolRoutingInput Reading) :
    AdmissionResult where
  admitted := (rows.filter (isAdmitted input)).map fun row =>
    { id := row.id, lastPath := row.quota = some .budgetSpent }
  refused := (rows.filter (isRefused input)).map fun row =>
    { id := row.id, reason := if row.quota = none then .quotaUnknown else .exhausted }
  excluded := rows.filterMap fun row => (input.rateLimitMarks row.id).map fun mark =>
    { id := row.id, reason := .rateLimited, «until» := mark }

def readingOrder (ids : List String) (placement : OrderedPlacement) (mainId : String) :
    List String :=
  match placement with
  | .roster => ids
  | .mainFirst => ids.filter (· = mainId) ++ ids.filter fun id => !decide (id = mainId)
  | .fallbackFirst => (ids.filter fun id => !decide (id = mainId)) ++ ids.filter (· = mainId)

def readingLibrary : Library Reading where
  projectQuota := fun reading =>
    if reading = some .credits then
      { credits := some { hasCredits := true, unlimited := true, checkedAt := 0 } }
    else {}
  budgetExhaustedResetAt := fun _ _ => false
  quotaStalenessMs := 600000
  admitRows := readingAdmission
  routeOrdered := fun input placement mainId =>
    { order := (readingOrder (input.rows.map (·.id)) placement mainId).filter fun id =>
        decide (Admitted input (readingAdmission input.rows input) id)
      admission := readingAdmission input.rows input }
  orderForPlacement := readingOrder
  routeSticky := fun rows input _ _ _ =>
    { dispatch := none, admission := readingAdmission rows input }
  decideStickyBreak := fun _ _ status _ => status.isSome
  nextOrderedAttempt := fun order attempts _ => order.find? fun id => id ∉ attempts.map (·.id)

theorem readingLibrary_admitted : OrdersAdmitted readingLibrary where
  placed := by
    intro ids placement mainId
    cases placement with
    | roster => exact List.Perm.refl _
    | mainFirst => exact List.filter_append_perm _ _
    | fallbackFirst => exact List.perm_append_comm.trans (List.filter_append_perm _ _)
  order := fun _ _ _ => rfl
  outcomes := by
    intro input placement mainId hrows
    change (((input.rows.filter _).map _).map _ ++ ((input.rows.filter _).map _).map _).Nodup
    simp only [List.map_map]
    refine List.Nodup.append (hrows.sublist (List.filter_sublist.map _))
      (hrows.sublist (List.filter_sublist.map _)) ?_
    intro id hadmitted hrefused
    obtain ⟨row, hrow, rfl⟩ := List.mem_map.mp hadmitted
    obtain ⟨other, hother, hid⟩ := List.mem_map.mp hrefused
    obtain ⟨hrow, hisAdmitted⟩ := List.mem_filter.mp hrow
    obtain ⟨hother, hisRefused⟩ := List.mem_filter.mp hother
    -- the two are one row, which has one outcome
    have hsame : other = row := List.inj_on_of_nodup_map hrows hother hrow hid
    rw [hsame, isRefused, Bool.and_eq_true, Bool.not_eq_true'] at hisRefused
    rw [isAdmitted, Bool.and_eq_true, hisRefused.2] at hisAdmitted
    cases hisAdmitted.2

def readings (rows : List (String × Option Reading)) (marks : String → Option ℚ) :
    PoolRoutingInput Reading where
  rows := rows.map fun row => { id := row.1, kind := .oauth, quota := row.2 }
  now := 0
  rateLimitMarks := marks
  refreshBackoff := fun _ => none
  killswitch := fun _ => none

/-- No row is free: main has credits, another row is kept for its spent budget, and the plan
leaves out the one that waits for its first reading. -/
theorem planOrdered_tiers_credits :
    ["main", "spent"].Nodup ∧
      ¬Waiting (planAdmission readingLibrary
        (readings [("new", none), ("spent", some .budgetSpent), ("main", some .credits)]
          fun _ => none) .roster none true) "spent" := by
  have hrows : ((readings [("new", none), ("spent", some .budgetSpent), ("main", some .credits)]
      fun _ => none).rows.map (·.id)).Nodup := by decide
  have hplan := (planOrdered_tiers readingLibrary_admitted hrows .roster none true).1 ["main", "spent"] false (by decide +kernel)
  exact ⟨hplan.2.1, (hplan.2.2 "spent" (by decide)).2.2⟩

/-- A request that may not be replayed is blocked while main has a rate-limit mark, though
another row has free quota. -/
theorem planOrdered_blocks_main :
    let input := readings [("main", some .free), ("work", some .free)] fun id =>
      if id = "main" then some 60000 else none
    OrdersAdmitted readingLibrary ∧ (input.rows.map (·.id)).Nodup ∧
      (∃ block, planOrdered readingLibrary input .roster none false = .block block) ∧
      Free input (planAdmission readingLibrary input .roster none false) "work" := by
  refine ⟨readingLibrary_admitted, by decide,
    ⟨{ reason := .midStreamRateLimit, resetAtMs := some 60000 }, ?_⟩, ?_⟩
  · decide +kernel
  · decide +kernel

end Request.Pool
