import Mathlib.Data.List.Induction
import OpenaiAuth.OpenCode2.Adapter
import OpenaiAuth.Request.PoolSends

/-! # One choice of an account

What `chooseAccount` may do, whatever it is answered: it asks the vault for each account at
most once, leaves out nothing and ignores no mark before a round found no account with them,
plans no pin once an account was refused, and comes to an end.

Main result: `chooseAccount_disciplined`.
-/

namespace OpenCode2

open Interleave Js Sidebar Sidebar.Placement Request Request.Pool

/-! ## Reading the calls -/

variable {Map Facts : Type}

abbrev Past (Map Facts : Type) : Type := List (Exchange (sig Map Facts))

def authorizes : Call → Option String
  | .authorize id => some id
  | _ => none

/-- The account that the answer refused. -/
def refusal : (o : Call) → Answer Map Facts o → Option String
  | .authorize id => fun r =>
      match r with
      | .ok none => some id
      | _ => none
  | .usableToken id => fun (r : Bool) => if r then none else some id
  | _ => fun _ => none

/-- The accounts the vault was asked to authorize. -/
def authorized (past : Past Map Facts) : List String := past.filterMap fun x => authorizes x.1

def refusedIn (past : Past Map Facts) : List String := past.filterMap fun x => refusal x.1 x.2

/-- Calls were made that neither ask the vault nor refuse an account. -/
structure Quiet (past later : Past Map Facts) : Prop where
  grows : past <+: later
  authorized : authorized later = authorized past
  refused : refusedIn later = refusedIn past

theorem Quiet.refl (past : Past Map Facts) : Quiet past past := ⟨List.prefix_refl _, rfl, rfl⟩

theorem Quiet.trans {past mid later : Past Map Facts} (h : Quiet past mid) (h' : Quiet mid later) :
    Quiet past later :=
  ⟨h.grows.trans h'.grows, h'.authorized.trans h.authorized, h'.refused.trans h.refused⟩

theorem authorized_append (past : Past Map Facts) (o : Call) (r : Answer Map Facts o) :
    authorized (past ++ [⟨o, r⟩]) = authorized past ++ (authorizes o).toList := by
  rw [authorized, List.filterMap_append]
  cases h : authorizes o with
  | none => simp [authorized, h]
  | some id => simp [authorized, h]

theorem refusedIn_append (past : Past Map Facts) (o : Call) (r : Answer Map Facts o) :
    refusedIn (past ++ [⟨o, r⟩]) = refusedIn past ++ (refusal o r).toList := by
  rw [refusedIn, List.filterMap_append]
  cases h : refusal o r with
  | none => simp [refusedIn, h]
  | some id => simp [refusedIn, h]

theorem quiet_step {past : Past Map Facts} {o : Call} {r : Answer Map Facts o}
    (hasked : authorizes o = none) (hrefused : refusal o r = none) :
    Quiet past (past ++ [⟨o, r⟩]) := by
  refine ⟨List.prefix_append _ _, ?_, ?_⟩
  · rw [authorized_append, hasked, Option.toList_none, List.append_nil]
  · rw [refusedIn_append, hrefused, Option.toList_none, List.append_nil]

/-! ## What a round finds -/

section Choose

variable (L : Library Map) (P : PinLibrary) (sameAccount : AccountKey → AccountKey → Bool)
  (dateParse : String → Option ℚ)
  (retains : Facts → List LimitCandidate → LimitCandidate → Bool)
  (input : ChooseAccountInput) (m : Moment Map Facts)

/-- What the choosers find from a look that leaves out `excluded` and `refused` and goes by
`marks`. -/
def found (excluded refused : List String) (marks : Table ℚ) (look : Look) : Option String :=
  (pickAccount L P dateParse input m.toRoll
    { wakeAccount := none, excluded, refused, marks } look).chosen refused

/-- A look of this call found no account, with these left out and these marks respected. -/
def Unfound (past : Past Map Facts) (excluded : List String) (marks : Table ℚ) : Prop :=
  ∃ refused look, ⟨.look input.sessionID excluded refused marks, look⟩ ∈ past ∧
    refused ⊆ refusedIn past ∧ found L P dateParse input m excluded refused marks look = none

/-- The marks without those of the account the request was rerouted from. -/
def withoutReroute : Table ℚ := input.rerouteFrom.toList.foldl Table.delete m.marks

/-- How much a look may widen the choice: not at all; to the account the request was
rerouted from, once nothing else was found; to marked accounts, once nothing was found
with the marks respected. -/
inductive Widened (past : Past Map Facts) : List String → Table ℚ → Prop
  | all : Widened past input.rerouteFrom.toList m.marks
  | reroute (h : Unfound L P dateParse input m past input.rerouteFrom.toList m.marks) :
      Widened past [] (withoutReroute input m)
  | marks (hreroute : input.rerouteFrom ≠ none →
        Unfound L P dateParse input m past input.rerouteFrom.toList m.marks)
      (h : Unfound L P dateParse input m past [] (withoutReroute input m)) :
      Widened past [] .empty

/-- What each call must keep to. -/
def May (past : Past Map Facts) : Call → Prop
  | .authorize id => id ∉ authorized past
  | .look sessionID excluded refused marks =>
      sessionID = input.sessionID ∧ refused = refusedIn past ∧
        Widened L P dateParse input m past excluded marks
  | .commit _ pin => refusedIn past ≠ [] → pin = none
  | .keep _ _ pin => refusedIn past ≠ [] → pin = none
  | _ => True

/-- The program keeps to that, its loop comes to an end, and what it returns meets `Q`. -/
abbrev Keeps {α : Type} (past : Past Map Facts) (p : AdapterM Map Facts α)
    (Q : α → Past Map Facts → Prop) : Prop :=
  (Learning.history (sig Map Facts)).Ends (May L P dateParse input m) past p Q
    fun e _ => e ≠ .loopEnds

variable {L P sameAccount dateParse retains input m}
variable {past : Past Map Facts}

theorem Unfound.mono {later : Past Map Facts} {excluded : List String} {marks : Table ℚ}
    (hgrows : past <+: later) (hrefused : refusedIn past ⊆ refusedIn later)
    (h : Unfound L P dateParse input m past excluded marks) :
    Unfound L P dateParse input m later excluded marks := by
  obtain ⟨refused, look, hmem, hsub, hfound⟩ := h
  exact ⟨refused, look, hgrows.subset hmem, fun _ hid => hrefused (hsub hid), hfound⟩

theorem Widened.mono {later : Past Map Facts} {excluded : List String} {marks : Table ℚ}
    (hgrows : past <+: later) (hrefused : refusedIn past ⊆ refusedIn later)
    (h : Widened L P dateParse input m past excluded marks) :
    Widened L P dateParse input m later excluded marks := by
  cases h with
  | all => exact .all
  | reroute h => exact .reroute (h.mono hgrows hrefused)
  | marks hreroute h => exact .marks (fun hne => (hreroute hne).mono hgrows hrefused) (h.mono hgrows hrefused)

/-- What was left out is let in, and its marks go. -/
theorem Widened.next_reroute {excluded : List String} {marks : Table ℚ} (hne : excluded ≠ [])
    (h : Widened L P dateParse input m past excluded marks)
    (hunfound : Unfound L P dateParse input m past excluded marks) :
    Widened L P dateParse input m past [] (excluded.foldl Table.delete marks) := by
  cases h with
  | all => exact .reroute hunfound
  | reroute _ => exact (hne rfl).elim
  | marks _ _ => exact (hne rfl).elim

theorem Widened.next_marks {excluded : List String} {marks : Table ℚ} (hnil : excluded = [])
    (hsize : 0 < marks.size) (h : Widened L P dateParse input m past excluded marks)
    (hunfound : Unfound L P dateParse input m past excluded marks) :
    Widened L P dateParse input m past [] .empty := by
  cases h with
  | all =>
      have hnone : input.rerouteFrom = none := Option.toList_eq_nil_iff.mp hnil
      refine .marks (fun hne => (hne hnone).elim) ?_
      rw [withoutReroute, hnone]
      rw [hnone] at hunfound
      exact hunfound
  | reroute hfirst => exact .marks (fun _ => hfirst) hunfound
  | marks _ _ => exact absurd hsize (Nat.lt_irrefl 0)

theorem size_foldl_delete_le (ids : List String) (marks : Table ℚ) :
    (ids.foldl Table.delete marks).size ≤ marks.size := by
  induction ids generalizing marks with
  | nil => exact Nat.le_refl _
  | cons id rest ih => exact (ih _).trans (Table.size_delete_le marks id)

/-! ### One call -/

theorem ask_keeps {o : Call} {Q : Answer Map Facts o → Past Map Facts → Prop}
    (hmay : May L P dateParse input m past o)
    (h : ∀ r, Q r (past ++ [⟨o, r⟩])) : Keeps L P dateParse input m past (ask o) Q :=
  Learning.ends_perform hmay (fun _ _ ha => by cases ha; exact h _) fun _ _ he => by cases he

/-- A call that neither asks the vault nor refuses. -/
theorem ask_quiet {o : Call} {Q : Answer Map Facts o → Past Map Facts → Prop}
    (hmay : May L P dateParse input m past o) (hasked : authorizes o = none)
    (hrefused : ∀ r : Answer Map Facts o, refusal o r = none)
    (h : ∀ r later, Quiet past later → Q r later) :
    Keeps L P dateParse input m past (ask o) Q :=
  ask_keeps hmay fun r => h r _ (quiet_step hasked (hrefused r))

theorem rollback_keeps {lease : Option Lease} {Q : Unit → Past Map Facts → Prop}
    (h : ∀ later, Quiet past later → Q () later) :
    Keeps L P dateParse input m past (rollback lease) Q := by
  cases lease with
  | none => exact Learning.ends_pure (h _ (.refl _))
  | some lease => exact ask_quiet trivial rfl (fun _ => rfl) fun _ => h

theorem reserve_keeps {roll : Roll Map} {s : Round} {accountId : String}
    {Q : Option Lease → Past Map Facts → Prop} (h : ∀ lease later, Quiet past later → Q lease later) :
    Keeps L P dateParse input m past (reserveAccount L dateParse input roll s accountId) Q := by
  unfold reserveAccount
  split
  · refine Learning.ends_bind (ask_quiet trivial rfl (fun _ => rfl) ?_)
    intro ref later hquiet
    exact Learning.ends_pure (h _ later hquiet)
  · exact Learning.ends_pure (h _ _ (.refl _))

/-- A call that throws leaves with what it threw, whatever it gives up before. -/
theorem releasing_keeps {α : Type} {lease : Option Lease} {p : AdapterM Map Facts α}
    {Q : α → Past Map Facts → Prop} (h : Keeps L P dateParse input m past p Q) :
    Keeps L P dateParse input m past (releasing lease p) Q := by
  unfold releasing
  refine Learning.ends_bind (Learning.ends_attempt (Learning.justified_mono h ?_))
  rintro (error | a) later ⟨hok, herror⟩
  · refine Learning.ends_bind (rollback_keeps fun after hquiet => ?_)
    exact Learning.ends_throw (herror error rfl)
  · exact Learning.ends_pure (hok a rfl)

/-! ### What a round may choose -/

variable (L dateParse m) in
/-- One of the call's accounts, and not below its killswitch floor. -/
structure Serves (id : String) : Prop where
  target : id ∈ m.targets.map (·.id)
  floor : m.killswitch L dateParse id ≠ some false

/-- The limit policy wakes only an account it may admit. -/
def RetainsAdmitted (retains : Facts → List LimitCandidate → LimitCandidate → Bool) : Prop :=
  ∀ facts candidates held, retains facts candidates held = true → held.admitted = true

theorem serves_of_row {marks : Table ℚ} {id : String}
    (hrow : id ∈ (m.routing L dateParse marks).rows.map (·.id))
    (hpasses : (m.routing L dateParse marks).passes id = true) : Serves L dateParse m id := by
  refine ⟨?_, of_decide_eq_true hpasses⟩
  simpa [Roll.routing, routingRow] using hrow

theorem row_of_serves {id : String} (h : Serves L dateParse m id) (marks : Table ℚ) :
    id ∈ (m.routing L dateParse marks).rows.map (·.id) ∧
      (m.routing L dateParse marks).passes id = true := by
  refine ⟨?_, decide_eq_true h.floor⟩
  simpa [Roll.routing, routingRow] using h.target

theorem wakeAccount_serves (hretains : RetainsAdmitted retains) {id : String}
    (h : wakeAccount L sameAccount dateParse retains input m = some id) :
    Serves L dateParse m id := by
  unfold wakeAccount at h
  split at h
  · cases h
  · split at h
    · rename_i previous _ hprevious
      split at h
      · rename_i hretained
        cases h
        simp only [Bool.and_eq_true] at hretained
        have hadmitted := hretains _ _ _ hretained.2
        obtain ⟨key, -, hfind⟩ := Option.bind_eq_some_iff.mp hprevious
        obtain ⟨target, htarget, hcandidate⟩ :=
          List.mem_filterMap.mp (List.mem_of_find?_eq_some hfind)
        obtain ⟨account, haccount, rfl⟩ := Option.map_eq_some_iff.mp hcandidate
        have hid : account.accountId = target.id := by
          simpa using List.find?_some haccount
        simp only [Bool.and_eq_true, decide_eq_true_eq] at hadmitted
        refine ⟨?_, ?_⟩
        · rw [hid]
          exact List.mem_map_of_mem htarget
        · rw [hid]
          exact hadmitted.1.1.1.1
      · cases h
    · cases h

section Pick

variable (hL : NamesRows L) (hfloor : KeepsFloor L) (hP : KeepsValid P)

include hL hfloor hP in
/-- A round picks an account that serves and that is not left out. -/
theorem pickAccount_sound {s : Round} {look : Look} {id : String}
    (hwake : ∀ id, s.wakeAccount = some id → Serves L dateParse m id)
    (h : (pickAccount L P dateParse input m.toRoll s look).accountId = some id) :
    Serves L dateParse m id ∧ id ∉ s.skip := by
  unfold pickAccount at h
  simp only at h
  split at h
  · rename_i account hsome
    cases h
    obtain ⟨hwoken, hnot⟩ := Option.filter_eq_some_iff.mp hsome
    exact ⟨hwake _ hwoken, of_decide_eq_true hnot⟩
  · have hordered : ∀ follow mainId id, chooseOrdered L (m.routing L dateParse s.marks) m.mode
        s.skip follow mainId = some id → Serves L dateParse m id ∧ id ∉ s.skip := by
      intro follow mainId id hid
      obtain ⟨hrow, hnot, hpasses⟩ := chooseOrdered_sound hL hfloor hid
      exact ⟨serves_of_row hrow hpasses, hnot⟩
    by_cases hsticky : sticky m.toRoll = true
    · rw [if_pos hsticky] at h
      rcases Option.or_eq_some_iff.mp h with hchosen | ⟨-, hid⟩
      · obtain ⟨hrow, hnot, hpasses⟩ := chooseSticky_sound hL hfloor hP
          (fun _ hnone => by cases hnone) (Prod.ext hchosen rfl)
        exact ⟨serves_of_row hrow hpasses, hnot⟩
      · exact hordered _ _ id hid
    · rw [if_neg hsticky] at h
      exact hordered _ _ id h

/-- Once an account was refused a round plans no pin. -/
theorem pickAccount_pin {s : Round} {look : Look} (h : s.refused ≠ []) :
    (pickAccount L P dateParse input m.toRoll s look).plannedPin = none := by
  unfold pickAccount
  simp only
  split
  · rfl
  · by_cases hsticky : sticky m.toRoll = true
    · rw [if_pos hsticky]
      -- the choice is not to persist, so the session's pin is the one that was read
      have hpersist : (input.primary && decide (s.refused = [])) = false := by simp [h]
      rw [hpersist]
      simp [chooseSticky_pins]
    · rw [if_neg hsticky]

/-- A wake only decides the round it is used in. -/
theorem found_of_picked {s : Round} {look : Look}
    (h : (pickAccount L P dateParse input m.toRoll s look).chosen s.refused = none) :
    found L P dateParse input m s.excluded s.refused s.marks look = none := by
  have hunused : s.wakeAccount.filter (· ∉ s.skip) = none := by
    rw [Option.filter_eq_none_iff]
    intro id hwake hnot
    have hpicked : (pickAccount L P dateParse input m.toRoll s look).accountId = some id := by
      unfold pickAccount
      rw [hwake, Option.filter_some, if_pos hnot]
    rw [Picked.chosen, hpicked, Option.filter_some, if_pos] at h
    · cases h
    · have hskip := of_decide_eq_true hnot
      rw [Round.skip, List.mem_append, not_or] at hskip
      exact decide_eq_true hskip.2
  have hsame : (pickAccount L P dateParse input m.toRoll s look).accountId =
      (pickAccount L P dateParse input m.toRoll
        { wakeAccount := none, excluded := s.excluded, refused := s.refused, marks := s.marks }
        look).accountId := by
    unfold pickAccount
    rw [hunused]
    simp only [Option.filter_none]
    by_cases hsticky : sticky m.toRoll = true
    · rw [if_pos hsticky, if_pos hsticky]
      rfl
    · rw [if_neg hsticky, if_neg hsticky]
      rfl
  rw [found, Picked.chosen, ← hsame]
  exact h

include hL hfloor in
/-- Advice names an account of the plan that is not left out. -/
theorem chooseVaultRouting_keeps {s : Round} {picked : Picked} {look : Look}
    {Q : Option String → Past Map Facts → Prop}
    (h : ∀ advised later, Quiet past later →
      (∀ id, advised = some id → Serves L dateParse m id ∧ id ∉ s.skip) → Q advised later) :
    Keeps L P dateParse input m past
      (chooseVaultRouting L dateParse input m.toRoll s picked look) Q := by
  have hnone : Q none past := h none past (.refl _) fun _ hsome => by cases hsome
  unfold chooseVaultRouting
  split
  · exact Learning.ends_pure hnone
  · split
    · exact Learning.ends_pure hnone
    · rename_i order lastPath hplan
      dsimp only
      split
      · exact Learning.ends_pure hnone
      · refine Learning.ends_perform trivial ?_ ?_
        · intro answer advised hadvised
          refine h _ _ (quiet_step rfl rfl) fun id hid => ?_
          subst hid
          cases answer with
          | error _ => cases hadvised
          | ok advice =>
              obtain ⟨i, -, rfl⟩ := Option.map_eq_some_iff.mp (Except.ok.inj hadvised)
              have hmem := List.get_mem (routingCandidates look.routes order
                ((m.targets.map (·.id)).filter (· ∉ s.skip))) i
              generalize (routingCandidates look.routes order
                ((m.targets.map (·.id)).filter (· ∉ s.skip))).get i = candidate at hmem ⊢
              obtain ⟨route, -, hcandidate⟩ := List.mem_filterMap.mp hmem
              split at hcandidate
              · rename_i hallowed
                split at hcandidate
                · cases hcandidate
                  have hrow := planOrdered_rows hL hplan _ hallowed.1
                  exact ⟨serves_of_row hrow (planOrdered_floor hfloor hplan _ hallowed.1),
                    of_decide_eq_true (List.mem_filter.mp hallowed.2).2⟩
                · cases hcandidate
              · cases hcandidate
        · intro answer error herror
          cases answer with
          | error _ =>
              cases herror
              exact fun heq => by cases heq
          | ok _ => cases herror

/-- What a plan keeps to: it serves, it is not left out, and it plans no pin once an account
was refused. -/
structure Plans (L : Library Map) (dateParse : String → Option ℚ) (m : Moment Map Facts) (s : Round)
    (planned : Planned) : Prop where
  serves : Serves L dateParse m planned.accountId
  skip : planned.accountId ∉ s.skip
  pin : s.refused ≠ [] → planned.plannedPin = none

include hL hfloor hP in
theorem followAdvice_keeps {s : Round} {planned : Planned} {preferred : String}
    {Q : Planned → Past Map Facts → Prop} (hrefused : s.refused = refusedIn past)
    (hwidened : Widened L P dateParse input m past s.excluded s.marks) (hnone : s.refused = [])
    (hplanned : Plans L dateParse m s planned)
    (hpreferred : Serves L dateParse m preferred ∧ preferred ∉ s.skip)
    (h : ∀ planned later, Quiet past later →
      Plans L dateParse m s planned → Q planned later) :
    Keeps L P dateParse input m past
      (followAdvice L P dateParse input m.toRoll s planned preferred) Q := by
  unfold followAdvice
  refine Learning.ends_bind (rollback_keeps fun later hquiet => ?_)
  split
  · refine Learning.ends_bind (ask_quiet ⟨rfl, hquiet.refused ▸ hrefused,
      hwidened.mono hquiet.grows (hquiet.refused ▸ List.Subset.refl _)⟩ rfl (fun _ => rfl) ?_)
    intro look after hafter
    dsimp only
    refine Learning.ends_bind (reserve_keeps fun lease final hfinal => ?_)
    have hchosen : ∀ id, (chooseSticky L P m.toRoll (m.routing L dateParse s.marks) input.sessionID
        s.skip input.primary look.pins look.mint (some preferred)).1 = some id →
        Serves L dateParse m id ∧ id ∉ s.skip := by
      intro id hid
      obtain ⟨hrow, hnot, hpasses⟩ := chooseSticky_sound hL hfloor hP
        (fun other hother => by
          cases hother
          exact ⟨(row_of_serves hpreferred.1 s.marks).1, hpreferred.2,
            (row_of_serves hpreferred.1 s.marks).2⟩) (Prod.ext hid rfl)
      exact ⟨serves_of_row hrow hpasses, hnot⟩
    have hgetD : Serves L dateParse m ((chooseSticky L P m.toRoll (m.routing L dateParse s.marks)
        input.sessionID s.skip input.primary look.pins look.mint (some preferred)).1.getD
          planned.accountId) ∧
        ((chooseSticky L P m.toRoll (m.routing L dateParse s.marks) input.sessionID s.skip
          input.primary look.pins look.mint (some preferred)).1.getD planned.accountId) ∉ s.skip := by
      cases hid : (chooseSticky L P m.toRoll (m.routing L dateParse s.marks) input.sessionID s.skip
          input.primary look.pins look.mint (some preferred)).1 with
      | none => exact ⟨hplanned.serves, hplanned.skip⟩
      | some id => exact hchosen id hid
    exact Learning.ends_pure (h _ final ((hquiet.trans hafter).trans hfinal)
      ⟨hgetD.1, hgetD.2, fun hne => (hne hnone).elim⟩)
  · exact Learning.ends_pure (h _ later hquiet
      ⟨hpreferred.1, hpreferred.2, fun hne => (hne hnone).elim⟩)

include hL hfloor hP in
/-- The routing accessor is asked before any account was refused. -/
theorem consult_keeps {s : Round} {picked : Picked} {look : Look} {planned : Planned}
    {Q : Planned → Past Map Facts → Prop} (hrefused : s.refused = refusedIn past)
    (hwidened : Widened L P dateParse input m past s.excluded s.marks)
    (hconsulted : s.consulted = false → s.refused = [])
    (hplanned : Plans L dateParse m s planned)
    (h : ∀ planned later, Quiet past later → Plans L dateParse m s planned → Q planned later) :
    Keeps L P dateParse input m past
      (consult L P dateParse input m.toRoll s picked look planned) Q := by
  unfold consult
  split
  · exact Learning.ends_pure (h planned past (.refl _) hplanned)
  · rename_i hfirst
    have hnone : s.refused = [] := hconsulted (by
      simp only [Bool.or_eq_true, not_or, Bool.not_eq_true] at hfirst
      exact hfirst.1)
    refine Learning.ends_bind (releasing_keeps (chooseVaultRouting_keeps hL hfloor ?_))
    intro advised later hquiet hadvised
    split
    · exact Learning.ends_pure (h planned later hquiet hplanned)
    · rename_i preferred hpreferred
      have hsome := (Option.filter_eq_some_iff.mp hpreferred).1
      refine followAdvice_keeps hL hfloor hP (hquiet.refused ▸ hrefused)
        (hwidened.mono hquiet.grows (hquiet.refused ▸ List.Subset.refl _)) hnone hplanned
        (hadvised preferred hsome) ?_
      exact fun planned after hafter => h planned after (hquiet.trans hafter)

theorem authorize_keeps {id : String} {Q : Option Receipt → Past Map Facts → Prop}
    (hfresh : id ∉ authorized past)
    (hrefused : ∀ later, past <+: later → refusedIn later = refusedIn past ++ [id] →
      authorized later ⊆ authorized past ++ [id] → Q none later)
    (hsent : ∀ receipt later, past <+: later → refusedIn later = refusedIn past →
      Q (some receipt) later) :
    Keeps L P dateParse input m past (authorize id) Q := by
  refine Learning.ends_perform hfresh ?_ ?_
  · intro (answer : Except Unit (Option Receipt)) receipt hanswer
    cases answer with
    | error _ => cases hanswer
    | ok answer =>
        cases hanswer
        cases receipt with
        | none =>
            refine hrefused _ (List.prefix_append past _) (refusedIn_append past (.authorize id) (.ok none)) ?_
            exact (authorized_append past (.authorize id) (.ok none)) ▸ List.Subset.refl _
        | some receipt =>
            refine hsent receipt _ (List.prefix_append past _) ?_
            exact (refusedIn_append past (.authorize id) (.ok (some receipt))).trans
              (List.append_nil _)
  · intro (answer : Except Unit (Option Receipt)) error herror
    cases answer with
    | error _ =>
        cases herror
        exact fun heq => by cases heq
    | ok _ => cases herror

/-- The account is refused, or the call goes on with it. -/
theorem canSend_keeps {planned : Planned} {Q : Bool → Past Map Facts → Prop}
    (hfresh : planned.accountId ∉ authorized past)
    (hsent : ∀ later, past <+: later → refusedIn later = refusedIn past → Q true later)
    (hrefused : ∀ later, past <+: later → refusedIn later = refusedIn past ++ [planned.accountId] →
      authorized later ⊆ authorized past ++ [planned.accountId] → Q false later) :
    Keeps L P dateParse input m past (canSend input m.toRoll planned) Q := by
  unfold canSend
  split
  · refine ask_keeps trivial fun (usable : Bool) => ?_
    cases usable with
    | false =>
        refine hrefused _ (List.prefix_append past _) (refusedIn_append past (.usableToken planned.accountId) false) ?_
        rw [authorized_append]
        exact List.append_subset.mpr ⟨List.subset_append_left _ _, fun _ hmem => by cases hmem⟩
    | true =>
        refine hsent _ (List.prefix_append past _) ?_
        rw [refusedIn_append]
        exact List.append_nil _
  · split
    · exact Learning.ends_pure (hsent past (List.prefix_refl _) rfl)
    · refine Learning.ends_bind (releasing_keeps (authorize_keeps hfresh ?_ ?_))
      · intro later hgrows hrefusedIn hauthorized
        exact Learning.ends_pure (hrefused later hgrows hrefusedIn hauthorized)
      · intro receipt later hgrows hrefusedIn
        refine Learning.ends_bind (ask_quiet trivial rfl (fun _ => rfl) ?_)
        intro _ after hquiet
        exact Learning.ends_pure (hsent after (hgrows.trans hquiet.grows)
          (hquiet.refused.trans hrefusedIn))

end Pick

/-! ### The rounds -/

theorem pickAccount_wake {s : Round} {look : Look} {id : String}
    (h : (pickAccount L P dateParse input m.toRoll s look).wakeAccount = some id) :
    s.wakeAccount = some id := by
  unfold pickAccount at h
  simp only at h
  split at h
  · cases h
  · by_cases hsticky : sticky m.toRoll = true
    · rw [if_pos hsticky] at h
      exact h
    · rw [if_neg hsticky] at h
      exact h

variable (L P dateParse input m) in
/-- What every round starts from. -/
structure Ready (past : Past Map Facts) (s : Round) : Prop where
  refused : s.refused = refusedIn past
  asked : authorized past ⊆ s.refused
  widened : Widened L P dateParse input m past s.excluded s.marks
  nodup : s.refused.Nodup
  targets : s.refused ⊆ m.targets.map (·.id)
  consulted : s.consulted = false → s.refused = []
  wake : ∀ id, s.wakeAccount = some id → Serves L dateParse m id

/-- The rounds that are left: one for each account that was not refused, and one for each
way to widen the choice. -/
def Round.left (s : Round) (targets : ℕ) : ℕ :=
  targets - s.refused.length + (if s.excluded = [] then 0 else 1) +
    if 0 < s.marks.size then 1 else 0

theorem Round.left_le (s : Round) (targets : ℕ) : s.left targets ≤ targets + 2 := by
  unfold Round.left
  split <;> split <;> omega

variable (L P dateParse input m) in
/-- What is said of the account that a call chooses. -/
structure Settled (past : Past Map Facts) (planned : Planned) : Prop where
  serves : Serves L dateParse m planned.accountId
  fresh : planned.accountId ∉ refusedIn past
  pin : refusedIn past ≠ [] → planned.plannedPin = none
  reroute : input.rerouteFrom = some planned.accountId →
    Unfound L P dateParse input m past input.rerouteFrom.toList m.marks

theorem Ready.refused_lt {s : Round} {id : String} (h : Ready L P dateParse input m past s)
    (hserves : Serves L dateParse m id) (hfresh : id ∉ s.refused) :
    s.refused.length < m.targets.length := by
  have hnodup : (s.refused ++ [id]).Nodup :=
    h.nodup.append (List.nodup_singleton id) (by simpa using hfresh)
  have hsub : s.refused ++ [id] ⊆ m.targets.map (·.id) :=
    List.append_subset.mpr ⟨h.targets, by simpa using hserves.target⟩
  have hlength := (List.subperm_of_subset hnodup hsub).length_le
  simp only [List.length_append, List.length_singleton, List.length_map] at hlength
  omega

/-- A plan that is settled: what it did not leave out was let in by an earlier round. -/
theorem Ready.settle {s : Round} {planned : Planned} {later : Past Map Facts}
    (h : Ready L P dateParse input m past s) (hplanned : Plans L dateParse m s planned)
    (hgrows : past <+: later) (hrefused : refusedIn later = refusedIn past) :
    Settled L P dateParse input m later planned := by
  have hskip := hplanned.skip
  rw [Round.skip, List.mem_append, not_or] at hskip
  have hwidened := h.widened
  refine ⟨hplanned.serves, ?_, ?_, fun hreroute => ?_⟩
  · rw [hrefused, ← h.refused]
    exact hskip.2
  · rw [hrefused, ← h.refused]
    exact hplanned.pin
  · have hmono : ∀ {excluded marks}, Unfound L P dateParse input m past excluded marks →
        Unfound L P dateParse input m later excluded marks := fun hunfound =>
      hunfound.mono hgrows (hrefused ▸ List.Subset.refl _)
    generalize s.excluded = excluded at hwidened hskip
    generalize s.marks = marks at hwidened
    cases hwidened with
    | all => exact (hskip.1 (by rw [hreroute]; exact List.mem_singleton_self _)).elim
    | reroute hunfound => exact hmono hunfound
    | marks hunfound _ => exact hmono (hunfound (by rw [hreroute]; exact Option.some_ne_none _))

theorem chooseLoop_keeps (hL : NamesRows L) (hfloor : KeepsFloor L) (hP : KeepsValid P) {fuel : ℕ}
    {s : Round} (h : Ready L P dateParse input m past s)
    (hfuel : s.left m.targets.length < fuel) :
    Keeps L P dateParse input m past (chooseLoop L P dateParse input m.toRoll fuel s)
      fun r later => r.2 = refusedIn later ∧
        ∀ planned, r.1 = some planned → Settled L P dateParse input m later planned := by
  induction fuel generalizing s past with
  | zero => exact absurd hfuel (Nat.not_lt_zero _)
  | succ fuel ih =>
      rw [chooseLoop]
      refine Learning.ends_bind (ask_keeps ⟨rfl, h.refused, h.widened⟩ fun (look : Look) => ?_)
      have hlook : Quiet past (past ++ [⟨.look input.sessionID s.excluded s.refused s.marks, look⟩]) :=
        quiet_step rfl rfl
      generalize hlater : past ++ [(⟨.look input.sessionID s.excluded s.refused s.marks, look⟩ :
        Exchange (sig Map Facts))] = later at hlook ⊢
      have hmem : (⟨.look input.sessionID s.excluded s.refused s.marks, look⟩ :
          Exchange (sig Map Facts)) ∈ later := by
        rw [← hlater]
        exact List.mem_append_right _ (List.mem_singleton_self _)
      have hwidened := h.widened.mono hlook.grows (hlook.refused ▸ List.Subset.refl _)
      have hwake : ∀ id, (pickAccount L P dateParse input m.toRoll s look).wakeAccount = some id →
          Serves L dateParse m id := fun id hid => h.wake id (pickAccount_wake hid)
      dsimp only
      split
      · -- nothing was found, so the next round leaves less out, or there is none
        rename_i hnone
        have hunfound : Unfound L P dateParse input m later s.excluded s.marks :=
          ⟨s.refused, look, hmem, (hlook.refused.trans h.refused.symm) ▸ List.Subset.refl _,
            found_of_picked hnone⟩
        split
        · rename_i hexcluded
          refine ih ⟨h.refused.trans hlook.refused.symm, hlook.authorized ▸ h.asked,
            hwidened.next_reroute hexcluded hunfound, h.nodup, h.targets, h.consulted, hwake⟩ ?_
          · have hsize := size_foldl_delete_le s.excluded s.marks
            simp only [Round.left, if_neg hexcluded, if_true] at hfuel ⊢
            split_ifs at hfuel ⊢ <;> omega
        · rename_i hexcluded
          have hexcluded := not_not.mp hexcluded
          split
          · rename_i hsize
            refine ih ⟨h.refused.trans hlook.refused.symm, hlook.authorized ▸ h.asked, ?_, h.nodup,
              h.targets, h.consulted, hwake⟩ ?_
            · have hnext := hwidened.next_marks hexcluded hsize hunfound
              rw [← hexcluded] at hnext
              exact hnext
            · have hempty : (Table.empty : Table ℚ).size = 0 := rfl
              simp only [Round.left, if_pos hsize, hempty, Nat.lt_irrefl, if_false] at hfuel ⊢
              omega
          · exact Learning.ends_pure ⟨h.refused.trans hlook.refused.symm, fun _ hsome => by cases hsome⟩
      · rename_i accountId hchosen
        obtain ⟨hpicked, hnot⟩ := Option.filter_eq_some_iff.mp hchosen
        obtain ⟨hserves, hskip⟩ := pickAccount_sound hL hfloor hP h.wake hpicked
        refine Learning.ends_bind (reserve_keeps fun lease reserved hreserved => ?_)
        have hround : Ready L P dateParse input m reserved s :=
          ⟨h.refused.trans (hreserved.refused.trans hlook.refused).symm,
            (hreserved.authorized.trans hlook.authorized) ▸ h.asked,
            hwidened.mono hreserved.grows (hreserved.refused ▸ List.Subset.refl _), h.nodup, h.targets,
            h.consulted, h.wake⟩
        refine Learning.ends_bind (consult_keeps hL hfloor hP hround.refused hround.widened
          h.consulted ⟨hserves, hskip, pickAccount_pin⟩ fun planned advised hadvised hplanned => ?_)
        have hfresh := hplanned.skip
        rw [Round.skip, List.mem_append, not_or] at hfresh
        refine Learning.ends_bind (canSend_keeps ?_ ?_ ?_)
        · rw [hadvised.authorized]
          exact fun hasked => hfresh.2 (hround.asked hasked)
        · intro sent hgrows hrefused
          refine Learning.ends_pure ⟨hround.refused.trans (hrefused.trans hadvised.refused).symm, ?_⟩
          rintro _ ⟨rfl⟩
          exact hround.settle hplanned (hadvised.grows.trans hgrows) (hrefused.trans hadvised.refused)
        · -- the account was refused, so one account less is left
          intro refused hgrows hrefused hasked
          refine Learning.ends_bind (rollback_keeps fun after hafter => ?_)
          rw [hadvised.refused, ← hround.refused] at hrefused
          have hrefusedIn : refusedIn after = s.refused ++ [planned.accountId] :=
            hafter.refused.trans hrefused
          refine ih ⟨hrefusedIn.symm, ?_, ?_, ?_, ?_, fun hfalse => (by cases hfalse), hwake⟩ ?_
          · rw [hafter.authorized]
            refine fun id hid => ?_
            rcases List.mem_append.mp (hasked hid) with hid | hid
            · rw [hadvised.authorized] at hid
              exact List.mem_append_left _ (hround.asked hid)
            · exact List.mem_append_right _ hid
          · refine hround.widened.mono ((hadvised.grows.trans hgrows).trans hafter.grows) ?_
            rw [hrefusedIn, ← hround.refused]
            exact List.subset_append_left _ _
          · exact h.nodup.append (List.nodup_singleton _) (by simpa using hfresh.2)
          · exact List.append_subset.mpr ⟨h.targets, by simpa using hplanned.serves.target⟩
          · have hlt := h.refused_lt hplanned.serves hfresh.2
            simp only [Round.left, List.length_append, List.length_singleton] at hfuel ⊢
            omega

/-! ### The call -/

theorem refuse_keeps {refused : List String} :
    Keeps L P dateParse input m past (refuseNone L dateParse input m refused)
      fun result _ => result = .none := by
  have hlogin : Keeps L P dateParse input m past (refuseMissingLogin m) fun _ _ => True := by
    unfold refuseMissingLogin
    split
    · refine Learning.ends_bind (ask_keeps trivial fun (placeholder : Bool) => ?_)
      cases placeholder
      · exact Learning.ends_pure trivial
      · exact Learning.ends_throw fun heq => by cases heq
    · exact Learning.ends_pure trivial
  have hvault : ∀ past, Keeps L P dateParse input m past (refuseVault m refused) fun _ _ => True := by
    intro past
    unfold refuseVault
    split
    · exact Learning.ends_throw fun heq => by cases heq
    · exact Learning.ends_pure trivial
  have hquota : ∀ past, Keeps L P dateParse input m past (refuseQuota L dateParse input m)
      fun _ _ => True := by
    intro past
    unfold refuseQuota
    dsimp only
    split
    · refine Learning.ends_bind (ask_keeps trivial fun (refusal : Bool) => ?_)
      cases refusal
      · exact Learning.ends_pure trivial
      · exact Learning.ends_throw fun heq => by cases heq
    · exact Learning.ends_pure trivial
  refine Learning.ends_bind (Learning.ends_mono hlogin fun _ _ _ => ?_)
  refine Learning.ends_bind (Learning.ends_mono (hvault _) fun _ _ _ => ?_)
  refine Learning.ends_bind (Learning.ends_mono (hquota _) fun _ _ _ => ?_)
  exact Learning.ends_pure rfl

theorem commitOrKeep_keeps {planned : Planned} (hpin : refusedIn past ≠ [] → planned.plannedPin = none)
    {Q : Unit → Past Map Facts → Prop} (h : ∀ later, Quiet past later → Q () later) :
    Keeps L P dateParse input m past (commitOrKeep input planned) Q := by
  unfold commitOrKeep
  split
  · exact ask_quiet hpin rfl (fun _ => rfl) fun _ => h
  · refine Learning.ends_bind (ask_quiet hpin rfl (fun _ => rfl) fun _ later hquiet => ?_)
    exact rollback_keeps fun after hafter => h after (hquiet.trans hafter)

theorem Settled.of_quiet {later : Past Map Facts} {planned : Planned}
    (h : Settled L P dateParse input m past planned) (hquiet : Quiet past later) :
    Settled L P dateParse input m later planned := by
  refine ⟨h.serves, hquiet.refused ▸ h.fresh, hquiet.refused ▸ h.pin, fun hreroute => ?_⟩
  exact (h.reroute hreroute).mono hquiet.grows (hquiet.refused ▸ List.Subset.refl _)

theorem chooseFrom_keeps (hL : NamesRows L) (hfloor : KeepsFloor L) (hP : KeepsValid P)
    (hretains : RetainsAdmitted retains) :
    Keeps L P dateParse input m [] (chooseFrom L P sameAccount dateParse retains input m)
      fun result later => ∀ id, result = .account id →
        ∃ planned, planned.accountId = id ∧ Settled L P dateParse input m later planned := by
  have hready : Ready L P dateParse input m []
      (firstRound L sameAccount dateParse retains input m) :=
    ⟨rfl, List.nil_subset _, .all, List.nodup_nil, List.nil_subset _, fun _ => rfl,
      fun _ hwake => wakeAccount_serves hretains hwake⟩
  have hfuel : (firstRound L sameAccount dateParse retains input m).left m.targets.length <
      m.targets.length + 3 := by
    have hleft := (firstRound L sameAccount dateParse retains input m).left_le m.targets.length
    omega
  unfold chooseFrom
  refine Learning.ends_bind (Learning.ends_mono (chooseLoop_keeps hL hfloor hP hready hfuel) ?_)
  rintro ⟨choice, refused⟩ later ⟨-, hsettled⟩
  cases choice with
  | none =>
      refine Learning.ends_mono refuse_keeps fun result after hresult id hid => ?_
      rw [hresult] at hid
      cases hid
  | some planned =>
      have hplanned := hsettled planned rfl
      refine Learning.ends_bind (commitOrKeep_keeps hplanned.pin fun after hquiet => ?_)
      refine Learning.ends_pure fun id hid => ?_
      cases hid
      exact ⟨planned, rfl, hplanned.of_quiet hquiet⟩

/-- Each account is new when it is asked for, so none is asked for twice. -/
theorem authorized_nodup {trace : Past Map Facts}
    (h : ∀ before x after, trace = before ++ x :: after → May L P dateParse input m before x.1) :
    (authorized trace).Nodup := by
  induction trace using List.reverseRec with
  | nil => exact List.nodup_nil
  | append_singleton before x ih =>
      have hbefore := ih fun first y after hsplit => h first y (after ++ [x]) (by
        rw [hsplit, List.append_assoc, List.cons_append])
      obtain ⟨o, r⟩ := x
      rw [authorized_append]
      have hmay := h before ⟨o, r⟩ [] rfl
      cases o with
      | authorize id =>
          have hfresh : id ∉ authorized before := hmay
          exact hbefore.append (List.nodup_singleton id) (by simpa [authorizes] using hfresh)
      | _ => exact (List.append_nil _).symm ▸ hbefore

end Choose

/-- One call, whatever it is answered: it ends; it asks the vault for no account twice, each
look leaves out what it must, and no pin is planned once an account was refused; the account
it returns serves the request, was not refused, is no pool row in vault mode, and is the one
the request was rerouted from only when nothing else was found. -/
theorem chooseAccount_disciplined {L : Library Map} {P : PinLibrary}
    {sameAccount : AccountKey → AccountKey → Bool} {dateParse : String → Option ℚ}
    {retains : Facts → List LimitCandidate → LimitCandidate → Bool} {input : ChooseAccountInput}
    (hL : NamesRows L) (hfloor : KeepsFloor L) (hP : KeepsValid P)
    (hretains : RetainsAdmitted retains) {entry : Entry Map Facts} {trace : Past Map Facts}
    {q : Prog (sig Map Facts) (Except Failure ChooseAccountResult)}
    (h : (chooseAccount L P sameAccount dateParse retains input).run.Makes
      (⟨.enter, entry⟩ :: trace) q) :
    q ≠ .ret (.error .loopEnds) ∧
    (∀ m, entry = .ready m →
      (authorized trace).Nodup ∧
      (∀ before x after, trace = before ++ x :: after → May L P dateParse input m before x.1) ∧
      ∀ id, q = .ret (.ok (.account id)) →
        id ∈ m.targets.map (·.id) ∧
        m.killswitch L dateParse id ≠ some false ∧
        id ∉ refusedIn trace ∧
        (m.vaultMode = true → ∀ target ∈ m.targets, target.id = id → target.isRow = false) ∧
        (input.rerouteFrom = some id →
          Unfound L P dateParse input m trace [id] m.marks)) ∧
    ((∀ m, entry ≠ .ready m) → trace = [] ∧ ∀ id, q ≠ .ret (.ok (.account id))) := by
  have hended : ∀ {result : Except Failure ChooseAccountResult},
      (Prog.ret result : Prog (sig Map Facts) _).Makes trace q → trace = [] ∧ q = .ret result := by
    intro result hmakes
    cases hmakes
    exact ⟨rfl, rfl⟩
  cases h with
  | cons _ h =>
      cases entry with
      | ready m =>
          have hkeeps : Keeps L P dateParse input m [] (chooseFrom L P sameAccount dateParse retains
            input m) _ := chooseFrom_keeps hL hfloor hP hretains
          have hcall : ∀ before x after, trace = before ++ x :: after →
              May L P dateParse input m before x.1 := by
            rintro before x after rfl
            have hmay := Learning.justified_call hkeeps h
            rwa [Learning.learnAll_history, List.nil_append] at hmay
          have hend : ∀ result, q = .ret result →
              (∀ r, result = .ok r → ∀ id, r = .account id →
                ∃ planned, planned.accountId = id ∧
                  Settled L P dateParse input m trace planned) ∧
              ∀ e, result = .error e → e ≠ .loopEnds := by
            rintro result rfl
            have hret := Learning.justified_makes hkeeps h
            rw [Learning.learnAll_history, List.nil_append] at hret
            exact hret
          refine ⟨fun heq => (hend _ heq).2 _ rfl rfl, ?_, fun hready => (hready m rfl).elim⟩
          rintro m' ⟨rfl⟩
          refine ⟨authorized_nodup hcall, hcall, fun id heq => ?_⟩
          obtain ⟨planned, rfl, hsettled⟩ := (hend _ heq).1 _ rfl _ rfl
          refine ⟨hsettled.serves.target, hsettled.serves.floor, hsettled.fresh, ?_, ?_⟩
          · intro hvault target htarget _
            exact Roll.isRow_of_vaultMode hvault target htarget
          · intro hreroute
            have hunfound := hsettled.reroute hreroute
            rwa [hreroute] at hunfound
      | _ =>
          obtain ⟨rfl, rfl⟩ := hended h
          refine ⟨fun heq => (by cases heq), fun _ heq => (by cases heq), fun _ => ⟨rfl, ?_⟩⟩
          exact fun _ heq => by cases heq

/-- A library for rows that are all free, and that knows no row but those it is given. -/
def rowsLibrary : Library ProjectedQuota :=
  { freeLibrary with
    routeSticky := fun rows input _ pin _ =>
      let free := (rows.map (·.id)).filter (input.passes ·)
      { dispatch := ((pin.filter (· ∈ free)).map fun id => { accountId := id, source := .pin }).or
          (free.head?.map fun id => { accountId := id, source := .weighted, assigns := true })
        admission := { admitted := rows.map fun row => { id := row.id } } } }

def rowsPins : PinLibrary where
  isPinValid := fun pin valid wireIdentity =>
    pin.accountId ∈ valid && pin.wireIdentity = wireIdentity
  pendingBytesForPins := fun _ _ _ _ => 0

theorem rowsLibrary_sticky {rows : List (RoutingRow ProjectedQuota)}
    {input : PoolRoutingInput ProjectedQuota} {options : StickyRouteOptions} {pin : Option String}
    {pendingBytes : String → ℚ} {dispatch : StickyDispatch}
    (h : (rowsLibrary.routeSticky rows input options pin pendingBytes).dispatch = some dispatch) :
    dispatch.accountId ∈ (rows.map (·.id)).filter (input.passes ·) := by
  rcases Option.or_eq_some_iff.mp h with h | ⟨-, h⟩
  · obtain ⟨id, hid, rfl⟩ := Option.map_eq_some_iff.mp h
    exact of_decide_eq_true (Option.filter_eq_some_iff.mp hid).2
  · obtain ⟨id, hid, rfl⟩ := Option.map_eq_some_iff.mp h
    exact List.mem_of_mem_head? hid

theorem rowsLibrary_names : NamesRows rowsLibrary where
  ordered := fun _ _ _ _ hid => (List.mem_filter.mp hid).1
  placed := fun _ _ _ _ hid => hid
  sticky := fun _ _ _ _ _ _ h => (List.mem_filter.mp (rowsLibrary_sticky h)).1

theorem rowsLibrary_floor : KeepsFloor rowsLibrary where
  ordered := fun _ _ _ _ hid => (List.mem_filter.mp hid).2
  sticky := fun _ _ _ _ _ _ h => (List.mem_filter.mp (rowsLibrary_sticky h)).2

theorem rowsPins_valid : KeepsValid rowsPins := by
  intro pin valid wireIdentity h
  simp only [rowsPins, Bool.and_eq_true, decide_eq_true_eq] at h
  exact h.1

/-- A vault with two logins. -/
def twoLogins : Moment ProjectedQuota Unit where
  storage := none
  mode := .stickyBalanced
  vault := true
  vaultMode := true
  now := 0
  rows := []
  routes := [{ id := "a" }, { id := "b" }]
  refreshBackoff := fun _ => none
  resetCredits := fun _ => none
  marks := .empty
  accountKeys := []
  usable := fun _ => true
  waits := false
  facts := ()

def firstRequest : ChooseAccountInput where
  sessionID := "s"
  kind := "primary"
  modelID := ""
  retry := false
  rerouteFrom := none
  previousAccountId := none
  wake := none
  hostAttempt := none

def noLook : Look where
  pins := .empty
  mint := 0
  activeAccount := none
  routes := []

/-- The vault refuses the first login and authorizes the second. -/
def secondLoginTrace : Past ProjectedQuota Unit :=
  [⟨.look "s" [] [] .empty, noLook⟩,
    ⟨.reserve "s" "a" none none, (7 : ℕ)⟩,
    ⟨.authorize "a", (.ok none : Except Unit (Option Receipt))⟩,
    ⟨.rollback ⟨"s", 7⟩, ()⟩,
    ⟨.look "s" [] ["a"] .empty, noLook⟩,
    ⟨.reserve "s" "b" none none, (8 : ℕ)⟩,
    ⟨.authorize "b", (.ok (some ⟨"login-b", "token", none⟩) : Except Unit (Option Receipt))⟩,
    ⟨.keepReceipt (receiptKey ⟨"s", "primary", "b"⟩) ⟨"login-b", "token", none⟩, ()⟩,
    ⟨.commit (some ⟨"s", 8⟩) none, ()⟩,
    ⟨.rollback ⟨"s", 8⟩, ()⟩]

theorem chooseAccount_disciplined_second :
    (authorized secondLoginTrace).Nodup ∧ "b" ∈ twoLogins.targets.map (·.id) ∧
      "b" ∉ refusedIn secondLoginTrace := by
  have hmakes : (chooseAccount rowsLibrary rowsPins (fun _ _ => false) (fun _ => none)
      (fun _ _ _ => false) firstRequest).run.Makes (⟨.enter, .ready twoLogins⟩ :: secondLoginTrace)
        (.ret (.ok (.account "b"))) := Prog.makes_of_value (by decide +kernel)
  have h := (chooseAccount_disciplined rowsLibrary_names rowsLibrary_floor rowsPins_valid
    (fun _ _ _ hretained => (by cases hretained)) hmakes).2.1 twoLogins rfl
  obtain ⟨htarget, -, hfresh, -⟩ := h.2.2 "b" rfl
  exact ⟨h.1, htarget, hfresh⟩

end OpenCode2
