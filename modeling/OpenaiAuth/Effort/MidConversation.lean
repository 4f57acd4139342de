import Mathlib.Data.List.Induction
import OpenaiAuth.Effort.Updates

/-! # OpenCode 1's effort rule

`applyMidConversationEffort` keeps a session's request-level effort and puts each later
effort in front of the user message it came with, at every request again, for as long as the
messages are still there.

Main result: `effort_rule`, over every sequence of a session's requests.
-/

namespace Effort

open Js

/-! ## The rule -/

def hiddenEffortAgents : List String := ["title", "compaction", "summary"]

variable {F : Type} [DecidableEq F]

/-- `placed` is its anchor and effort; the fingerprint is the anchored message's. -/
structure EffortUpdate (F : Type) where
  placed : Placed
  fingerprint : F
deriving DecidableEq

/-- What a session's metadata keeps of efforts. -/
structure CodexSessionMetadata (F : Type) where
  pinnedEffort : Option String := none
  effortUpdates : List (EffortUpdate F) := []
deriving DecidableEq

/-- The effort that a request is handled with, if it is. -/
def handledEffort (parsed : Members) (agent : Option String) : Option String :=
  if agent.any (· ∈ hiddenEffortAgents) then none
  else if modelOf parsed ∉ midConversationEffortModels then none
  else (requestEffort parsed).filter (· ≠ "")

/-- The update's message is still where it was. -/
def EffortUpdate.stands (fingerprint : Json → F) (input : Option (List Json))
    (update : EffortUpdate F) : Bool :=
  ((input.getD [])[update.placed.anchor]?).any fun item =>
    isUserMessage item && fingerprint item = update.fingerprint

/-- The updates with this effort at the last user message. -/
def recordEffort (pinned effort : String) (fingerprint : F) (anchor : ℕ)
    (updates : List (EffortUpdate F)) : List (EffortUpdate F) :=
  match updates.getLast? with
  | some latest =>
      if latest.placed.anchor = anchor then
        let before := (updates.dropLast.getLast?.map (·.placed.effort)).getD pinned
        if effort = before then updates.dropLast
        else updates.dropLast ++ [{ latest with placed := { latest.placed with effort } }]
      else updates ++ [⟨⟨anchor, effort⟩, fingerprint⟩]
  | none => updates ++ [⟨⟨anchor, effort⟩, fingerprint⟩]

def effectiveEffort (pinned : String) (updates : List (EffortUpdate F)) : String :=
  (updates.getLast?.map (·.placed.effort)).getD pinned

def ascending : List (EffortUpdate F) → Bool
  | first :: second :: rest =>
      first.placed.anchor < second.placed.anchor && ascending (second :: rest)
  | _ => true

section Apply

variable (fingerprint : Json → F)

/-- The request with the pinned effort and every update in its place; starts over where two
updates would stand side by side. -/
def rewriteEffort (pinned effort : String) (input : List Json) (updates : List (EffortUpdate F))
    (parsed : Members) : Members × CodexSessionMetadata F :=
  if ascending updates then
    ((setEffort ((reasoningOf parsed).getD .null) pinned parsed).set "input"
        (.arr (insertUpdates (updates.map (·.placed)) input)),
      { pinnedEffort := some pinned, effortUpdates := updates })
  else (parsed, { pinnedEffort := some effort, effortUpdates := [] })

/-- The body as it is sent, and what the session keeps then. -/
def applyMidConversationEffort (metadata : CodexSessionMetadata F) (parsed : Members)
    (agent : Option String) : Members × CodexSessionMetadata F :=
  match handledEffort parsed agent with
  | none => (parsed, metadata)
  | some effort =>
      let updates := metadata.effortUpdates
      match metadata.pinnedEffort with
      | none => (parsed, { pinnedEffort := some effort, effortUpdates := [] })
      | some pinned =>
          if updates.any fun update => !update.stands fingerprint (inputOf parsed) then
            (parsed, { pinnedEffort := some effort, effortUpdates := [] })
          else
            let input := (inputOf parsed).getD []
            if input = [] then (parsed, metadata)
            else
              match findLastIndex isUserMessage input with
              | none =>
                  -- no user turn can carry a new instruction
                  if effort ≠ effectiveEffort pinned updates then (parsed, metadata)
                  else rewriteEffort pinned effort input updates parsed
              | some anchor =>
                  if effort ≠ effectiveEffort pinned updates then
                    rewriteEffort pinned effort input
                      (recordEffort pinned effort (fingerprint (input[anchor]?.getD .null)) anchor
                        updates) parsed
                  else rewriteEffort pinned effort input updates parsed

/-- The session's metadata after its requests. -/
def afterRequests (requests : List (Members × Option String)) : CodexSessionMetadata F :=
  requests.foldl (fun metadata request =>
    (applyMidConversationEffort fingerprint metadata request.1 request.2).2) {}

end Apply

/-! ## Updates that stand -/

/-- The updates go up, and each stands at its message. -/
structure Anchored (fingerprint : Json → F) (updates : List (EffortUpdate F)) (input : List Json) :
    Prop where
  increasing : Increasing (updates.map (·.placed))
  stands : ∀ update ∈ updates, update.stands fingerprint (some input) = true

section Rule

variable {fingerprint : Json → F} {updates : List (EffortUpdate F)} {input : List Json}
  {pinned effort : String}

omit [DecidableEq F] in
theorem ascending_iff : ascending updates = true ↔ Increasing (updates.map (·.placed)) := by
  induction updates with
  | nil => simp [ascending, Increasing]
  | cons first rest ih =>
      cases rest with
      | nil => simp [ascending, Increasing]
      | cons second rest =>
          rw [ascending, Bool.and_eq_true, decide_eq_true_eq, ih]
          constructor
          · rintro ⟨hlt, hrest⟩
            refine List.pairwise_cons.mpr ⟨fun update hmem => ?_, hrest⟩
            rcases List.mem_cons.mp hmem with rfl | hmem
            · exact hlt
            · exact hlt.trans ((List.pairwise_cons.mp hrest).1 update hmem)
          · intro h
            obtain ⟨hfirst, hrest⟩ := List.pairwise_cons.mp h
            exact ⟨hfirst second.placed List.mem_cons_self, hrest⟩

theorem EffortUpdate.stands_iff {update : EffortUpdate F} :
    update.stands fingerprint (some input) = true ↔ ∃ item, input[update.placed.anchor]? = some item ∧
      isUserMessage item = true ∧ fingerprint item = update.fingerprint := by
  rw [EffortUpdate.stands, Option.getD_some, Option.any_eq_true]
  refine exists_congr fun item => and_congr_right fun _ => ?_
  rw [Bool.and_eq_true, decide_eq_true_eq]

theorem Anchored.lt (h : Anchored fingerprint updates input) {placed : Placed}
    (hmem : placed ∈ updates.map (·.placed)) : placed.anchor < input.length := by
  obtain ⟨update, hupdate, rfl⟩ := List.mem_map.mp hmem
  obtain ⟨item, hget, -⟩ := EffortUpdate.stands_iff.mp (h.stands update hupdate)
  exact (List.getElem?_eq_some_iff.mp hget).1

theorem Anchored.user (h : Anchored fingerprint updates input) {placed : Placed}
    (hmem : placed ∈ updates.map (·.placed)) {item : Json}
    (hget : input[placed.anchor]? = some item) : isUserMessage item = true := by
  obtain ⟨update, hupdate, rfl⟩ := List.mem_map.mp hmem
  obtain ⟨item', hget', huser, -⟩ := EffortUpdate.stands_iff.mp (h.stands update hupdate)
  rw [hget] at hget'
  cases hget'
  exact huser

theorem Anchored.le_last (h : Anchored fingerprint updates input) {anchor : ℕ}
    (hlast : findLastIndex isUserMessage input = some anchor) {update : EffortUpdate F}
    (hmem : update ∈ updates) : update.placed.anchor ≤ anchor := by
  obtain ⟨item, hget, huser, -⟩ := EffortUpdate.stands_iff.mp (h.stands update hmem)
  exact findLastIndex_last hlast hget huser

theorem anchored_nil : Anchored fingerprint [] input :=
  ⟨List.Pairwise.nil, fun _ hmem => by cases hmem⟩

/-- Without a user message nothing stands. -/
theorem Anchored.eq_nil (h : Anchored fingerprint updates input)
    (hnone : findLastIndex isUserMessage input = none) : updates = [] := by
  rw [List.eq_nil_iff_forall_not_mem]
  intro update hmem
  obtain ⟨item, hget, huser, -⟩ := EffortUpdate.stands_iff.mp (h.stands update hmem)
  rw [findLastIndex_eq_none.mp hnone item (List.mem_of_getElem? hget)] at huser
  cases huser

/-- What stands in an input stands in every longer one. -/
theorem Anchored.append (h : Anchored fingerprint updates input) (suffix : List Json) :
    Anchored fingerprint updates (input ++ suffix) := by
  refine ⟨h.increasing, fun update hmem => ?_⟩
  obtain ⟨item, hget, hitem⟩ := EffortUpdate.stands_iff.mp (h.stands update hmem)
  refine EffortUpdate.stands_iff.mpr ⟨item, ?_, hitem⟩
  rw [List.getElem?_append_left (List.getElem?_eq_some_iff.mp hget).1, hget]

/-! ### Recording an effort -/

theorem Anchored.push (h : Anchored fingerprint updates input) {anchor : ℕ} {item : Json}
    (hget : input[anchor]? = some item) (huser : isUserMessage item = true)
    (hlt : ∀ update ∈ updates, update.placed.anchor < anchor) :
    Anchored fingerprint (updates ++ [⟨⟨anchor, effort⟩, fingerprint item⟩]) input := by
  refine ⟨?_, fun update hmem => ?_⟩
  · rw [List.map_append, Increasing, List.pairwise_append]
    refine ⟨h.increasing, List.pairwise_singleton _ _, ?_⟩
    intro old hold new hnew
    obtain ⟨update, hmem, rfl⟩ := List.mem_map.mp hold
    rw [List.map_singleton, List.mem_singleton] at hnew
    rw [hnew]
    exact hlt update hmem
  · rcases List.mem_append.mp hmem with hmem | hmem
    · exact h.stands update hmem
    · rw [List.mem_singleton.mp hmem]
      exact EffortUpdate.stands_iff.mpr ⟨item, hget, huser, rfl⟩

theorem Anchored.dropLast (h : Anchored fingerprint updates input) :
    Anchored fingerprint updates.dropLast input where
  increasing := by
    rw [List.map_dropLast]
    exact List.Pairwise.sublist (List.dropLast_sublist _) h.increasing
  stands := fun update hmem => h.stands update (List.dropLast_subset _ hmem)

omit [DecidableEq F] in
theorem effectiveEffort_append (latest : EffortUpdate F) :
    effectiveEffort pinned (updates ++ [latest]) = latest.placed.effort := by
  rw [effectiveEffort, List.getLast?_concat]
  rfl

variable (pinned effort) in
theorem recordEffort_anchored (h : Anchored fingerprint updates input) {anchor : ℕ}
    (hlast : findLastIndex isUserMessage input = some anchor) :
    Anchored fingerprint (recordEffort pinned effort (fingerprint (input[anchor]?.getD .null))
        anchor updates) input ∧
      effectiveEffort pinned (recordEffort pinned effort (fingerprint (input[anchor]?.getD .null))
        anchor updates) = effort := by
  obtain ⟨item, hget, huser⟩ := findLastIndex_get hlast
  rw [hget, Option.getD_some, recordEffort]
  rcases List.eq_nil_or_concat updates with rfl | ⟨earlier, latest, rfl⟩
  · exact ⟨h.push hget huser fun _ hmem => (by cases hmem), effectiveEffort_append _⟩
  · rw [List.concat_eq_append] at h ⊢
    rw [List.getLast?_concat, List.dropLast_concat]
    dsimp only
    have hmem : latest ∈ earlier ++ [latest] := List.mem_append_right _ (List.mem_singleton_self _)
    have hbefore : ∀ update ∈ earlier, update.placed.anchor < latest.placed.anchor := by
      intro update hupdate
      have hincreasing := h.increasing
      rw [List.map_append, Increasing, List.pairwise_append] at hincreasing
      exact hincreasing.2.2 _ (List.mem_map_of_mem hupdate) _ (List.mem_singleton_self _)
    have hearlier : Anchored fingerprint earlier input := by
      have := h.dropLast
      rwa [List.dropLast_concat] at this
    by_cases hanchor : latest.placed.anchor = anchor
    · -- the effort changed again within the turn
      rw [if_pos hanchor]
      split_ifs with hback
      · exact ⟨hearlier, hback.symm⟩
      · refine ⟨⟨?_, fun update hupdate => ?_⟩, effectiveEffort_append _⟩
        · have hincreasing := h.increasing
          rw [List.map_append, Increasing, List.pairwise_append] at hincreasing ⊢
          refine ⟨hincreasing.1, List.pairwise_singleton _ _, ?_⟩
          intro old hold new hnew
          rw [List.map_singleton, List.mem_singleton] at hnew
          rw [hnew]
          exact hincreasing.2.2 old hold latest.placed (List.mem_singleton_self _)
        · rcases List.mem_append.mp hupdate with hupdate | hupdate
          · exact hearlier.stands update hupdate
          · rw [List.mem_singleton.mp hupdate]
            exact h.stands latest hmem
    · rw [if_neg hanchor]
      refine ⟨h.push hget huser fun update hupdate => ?_, effectiveEffort_append _⟩
      have hlatest : latest.placed.anchor < anchor :=
        lt_of_le_of_ne (h.le_last hlast hmem) hanchor
      rcases List.mem_append.mp hupdate with hupdate | hupdate
      · exact (hbefore update hupdate).trans hlatest
      · rw [List.mem_singleton.mp hupdate]
        exact hlatest

omit [DecidableEq F] in
/-- At a later message the effort is recorded behind the others. -/
theorem recordEffort_later {anchor : ℕ} {print : F}
    (hlt : ∀ update ∈ updates, update.placed.anchor < anchor) :
    recordEffort pinned effort print anchor updates = updates ++ [⟨⟨anchor, effort⟩, print⟩] := by
  rw [recordEffort]
  split
  · rename_i latest hlatest
    rw [if_neg (hlt latest (List.mem_of_getLast? hlatest)).ne]
  · rfl

/-! ### One request -/

/-- The request goes out with the session's effort and every update in its place. -/
structure Sent (fingerprint : Json → F) (host : List Json) (effort pinned : String)
    (result : Members × CodexSessionMetadata F) : Prop where
  session : result.2.pinnedEffort = some pinned
  request : requestEffort result.1 = some pinned
  input : inputOf result.1 = some (weave (result.2.effortUpdates.map (·.placed)) 0 host)
  anchored : Anchored fingerprint result.2.effortUpdates host
  effective : effectiveEffort pinned result.2.effortUpdates = effort

/-- Without a user message a new effort is left to the host. -/
def LeftAlone (metadata : CodexSessionMetadata F) (input : List Json) (effort : String) : Prop :=
  findLastIndex isUserMessage input = none ∧ metadata.effortUpdates = [] ∧
    ∃ pinned, metadata.pinnedEffort = some pinned ∧ pinned ≠ effort

variable {metadata : CodexSessionMetadata F} {parsed : Members} {agent : Option String}

omit [DecidableEq F] in
theorem requestEffort_of_handled (h : handledEffort parsed agent = some effort) :
    requestEffort parsed = some effort := by
  unfold handledEffort at h
  split_ifs at h
  exact (Option.filter_eq_some_iff.mp h).1

theorem sent_rewrite (h : Anchored fingerprint updates input)
    (heffective : effectiveEffort pinned updates = effort) :
    Sent fingerprint input effort pinned (rewriteEffort pinned effort input updates parsed) := by
  have hplaced : insertUpdates (updates.map (·.placed)) input =
      weave (updates.map (·.placed)) 0 input :=
    insertUpdates_eq h.increasing fun _ hmem => h.lt hmem
  rw [rewriteEffort, if_pos (ascending_iff.mpr h.increasing), hplaced]
  exact ⟨rfl, by simp, inputOf_set _ _, h, heffective⟩

theorem sent_reset (hinput : inputOf parsed = some input)
    (hrequest : requestEffort parsed = some effort) :
    Sent fingerprint input effort effort
      (parsed, ({ pinnedEffort := some effort, effortUpdates := [] } : CodexSessionMetadata F)) where
  session := rfl
  request := hrequest
  input := by
    rw [hinput, List.map_nil, weave_nil]
  anchored := anchored_nil
  effective := rfl

/-- What a handled request comes to when nothing is reset. -/
theorem apply_standing (h : handledEffort parsed agent = some effort)
    (hinput : inputOf parsed = some input) (hpinned : metadata.pinnedEffort = some pinned)
    (hanchored : Anchored fingerprint metadata.effortUpdates input) :
    (LeftAlone metadata input effort ∧
        applyMidConversationEffort fingerprint metadata parsed agent = (parsed, metadata)) ∨
      (Sent fingerprint input effort pinned
          (applyMidConversationEffort fingerprint metadata parsed agent) ∧
        (effort = effectiveEffort pinned metadata.effortUpdates →
          (applyMidConversationEffort fingerprint metadata parsed agent).2.effortUpdates =
            metadata.effortUpdates) ∧
        ∀ anchor, findLastIndex isUserMessage input = some anchor →
          (∀ update ∈ metadata.effortUpdates, update.placed.anchor < anchor) →
            (applyMidConversationEffort fingerprint metadata parsed agent).2.effortUpdates =
                metadata.effortUpdates ∨
              ∃ print, (applyMidConversationEffort fingerprint metadata parsed agent).2.effortUpdates =
                metadata.effortUpdates ++ [⟨⟨anchor, effort⟩, print⟩]) := by
  have hstands : (metadata.effortUpdates.any fun update =>
      !update.stands fingerprint (inputOf parsed)) = false := by
    rw [List.any_eq_false]
    intro update hmem
    rw [hinput, hanchored.stands update hmem]
    simp
  have hupdates : ∀ {updates : List (EffortUpdate F)} (h : Anchored fingerprint updates input),
      (rewriteEffort pinned effort input updates parsed).2.effortUpdates = updates := by
    intro updates h
    rw [rewriteEffort, if_pos (ascending_iff.mpr h.increasing)]
  unfold applyMidConversationEffort
  rw [h]
  dsimp only
  rw [hpinned, hstands]
  simp only [Bool.false_eq_true, if_false, hinput, Option.getD_some]
  by_cases hempty : input = []
  · -- without items nothing stands, and the request goes out as it is
    subst hempty
    have hnil := hanchored.eq_nil rfl
    rw [if_pos rfl]
    by_cases heffort : pinned = effort
    · subst heffort
      refine .inr ⟨⟨hpinned, requestEffort_of_handled h, ?_, hanchored, ?_⟩, fun _ => rfl, ?_⟩
      · rw [hinput, hnil, List.map_nil, weave_nil]
      · rw [hnil]
        rfl
      · rintro anchor ⟨⟩
    · exact .inl ⟨⟨rfl, hnil, pinned, hpinned, heffort⟩, rfl⟩
  · rw [if_neg hempty]
    cases hlast : findLastIndex isUserMessage input with
    | none =>
        have hnil := hanchored.eq_nil hlast
        dsimp only
        by_cases heffort : effort = effectiveEffort pinned metadata.effortUpdates
        · rw [if_neg (not_not.mpr heffort)]
          exact .inr ⟨sent_rewrite hanchored heffort.symm, fun _ => hupdates hanchored,
            fun _ hsome => by cases hsome⟩
        · rw [if_pos heffort]
          refine .inl ⟨⟨hlast, hnil, pinned, hpinned, fun heq => heffort ?_⟩, rfl⟩
          rw [hnil, ← heq]
          rfl
    | some anchor =>
        dsimp only
        by_cases heffort : effort = effectiveEffort pinned metadata.effortUpdates
        · rw [if_neg (not_not.mpr heffort)]
          exact .inr ⟨sent_rewrite hanchored heffort.symm, fun _ => hupdates hanchored,
            fun _ _ _ => .inl (hupdates hanchored)⟩
        · rw [if_pos heffort]
          obtain ⟨hrecorded, heffective⟩ := recordEffort_anchored pinned effort hanchored hlast
          refine .inr ⟨sent_rewrite hrecorded heffective, fun heq => (heffort heq).elim, ?_⟩
          rintro _ ⟨⟩ hlt
          exact .inr ⟨_, (hupdates hrecorded).trans (recordEffort_later hlt)⟩

theorem apply_cases (h : handledEffort parsed agent = some effort)
    (hinput : inputOf parsed = some input)
    (hincreasing : Increasing (metadata.effortUpdates.map (·.placed))) :
    (LeftAlone metadata input effort ∧
        applyMidConversationEffort fingerprint metadata parsed agent = (parsed, metadata)) ∨
      ∃ pinned, Sent fingerprint input effort pinned
        (applyMidConversationEffort fingerprint metadata parsed agent) := by
  cases hpinned : metadata.pinnedEffort with
  | none =>
      refine .inr ⟨effort, ?_⟩
      unfold applyMidConversationEffort
      rw [h]
      dsimp only
      rw [hpinned]
      exact sent_reset hinput (requestEffort_of_handled h)
  | some pinned =>
      by_cases hgone : (metadata.effortUpdates.any fun update =>
          !update.stands fingerprint (inputOf parsed)) = true
      · refine .inr ⟨effort, ?_⟩
        unfold applyMidConversationEffort
        rw [h]
        dsimp only
        rw [hpinned, hgone]
        exact sent_reset hinput (requestEffort_of_handled h)
      · have hanchored : Anchored fingerprint metadata.effortUpdates input := by
          refine ⟨hincreasing, fun update hmem => ?_⟩
          rw [Bool.not_eq_true, List.any_eq_false] at hgone
          have hstands := hgone update hmem
          rw [hinput] at hstands
          simpa using hstands
        rcases apply_standing h hinput hpinned hanchored with hleft | ⟨hsent, -⟩
        · exact .inl hleft
        · exact .inr ⟨pinned, hsent⟩

omit [DecidableEq F] in
theorem rewriteEffort_increasing :
    Increasing ((rewriteEffort pinned effort input updates parsed).2.effortUpdates.map (·.placed)) := by
  unfold rewriteEffort
  split_ifs with hascending
  · exact ascending_iff.mp hascending
  · exact List.Pairwise.nil

variable (fingerprint)

theorem apply_increasing (h : Increasing (metadata.effortUpdates.map (·.placed))) :
    Increasing ((applyMidConversationEffort fingerprint metadata parsed agent).2.effortUpdates.map
      (·.placed)) := by
  unfold applyMidConversationEffort
  split
  · exact h
  · dsimp only
    split
    · exact List.Pairwise.nil
    · split
      · exact List.Pairwise.nil
      · split
        · exact h
        · split
          · split
            · exact h
            · exact rewriteEffort_increasing
          · split
            · exact rewriteEffort_increasing
            · exact rewriteEffort_increasing

/-- Whatever the session sent, its updates go up. -/
theorem afterRequests_increasing (requests : List (Members × Option String)) :
    Increasing ((afterRequests fingerprint requests).effortUpdates.map (·.placed)) := by
  induction requests using List.reverseRec with
  | nil => exact List.Pairwise.nil
  | append_singleton requests request ih =>
      rw [afterRequests, List.foldl_append]
      exact apply_increasing fingerprint ih

theorem afterRequests_others {requests others : List (Members × Option String)}
    (h : ∀ request ∈ others, handledEffort request.1 request.2 = none) :
    afterRequests fingerprint (requests ++ others) = afterRequests fingerprint requests := by
  induction others using List.reverseRec with
  | nil => rw [List.append_nil]
  | append_singleton others request ih =>
      have hnone := h request (List.mem_append_right _ (List.mem_singleton_self _))
      have hrest := ih fun other hmem => h other (List.mem_append_left _ hmem)
      rw [← List.append_assoc, afterRequests, List.foldl_append]
      rw [afterRequests] at hrest
      rw [hrest]
      change (applyMidConversationEffort fingerprint (afterRequests fingerprint requests) request.1
        request.2).2 = _
      rw [applyMidConversationEffort, hnone]

variable {fingerprint}

/-- The efforts that are in force. -/
theorem Sent.inForce {result : Members × CodexSessionMetadata F}
    (h : Sent fingerprint input effort pinned result) (hplain : Plain input) :
    effortInForce (weave (result.2.effortUpdates.map (·.placed)) 0 input)
      (requestEffort result.1) = some effort := by
  rw [effortInForce, updateEffort_weave h.anchored.increasing (fun _ hmem => h.anchored.lt hmem) hplain,
    h.request, List.map_map, List.getLast?_map]
  have heffective := h.effective
  unfold effectiveEffort at heffective
  cases hlast : result.2.effortUpdates.getLast? with
  | none =>
      rw [hlast] at heffective
      exact congrArg some heffective
  | some latest =>
      rw [hlast] at heffective
      exact congrArg some heffective

/-- What a request that extends the one before keeps of it. -/
theorem Sent.extends {result : Members × CodexSessionMetadata F} {suffix : List Json}
    {next : Members} {agent' : Option String} {effort' : String}
    (h : Sent fingerprint input effort pinned result)
    (hnext : handledEffort next agent' = some effort') (hinput : inputOf next = some (input ++ suffix))
    (hgrows : effort' = effort ∨ ∃ item ∈ suffix, isUserMessage item = true) :
    requestEffort (applyMidConversationEffort fingerprint result.2 next agent').1 = some pinned ∧
      ∃ wire, inputOf (applyMidConversationEffort fingerprint result.2 next agent').1 = some wire ∧
        weave (result.2.effortUpdates.map (·.placed)) 0 input <+: wire := by
  have hanchored := h.anchored.append suffix
  rcases apply_standing hnext hinput h.session hanchored with
    ⟨⟨hlast, hnil, p, hp, hne⟩, -⟩ | ⟨hsent, hsame, hlater⟩
  · -- a request that is left alone brings no user message, and so no new effort
    exfalso
    rcases hgrows with rfl | ⟨item, hmem, huser⟩
    · have heffective := h.effective
      rw [hnil] at heffective
      rw [h.session] at hp
      cases hp
      exact hne heffective
    · rw [findLastIndex_eq_none.mp hlast item (List.mem_append_right _ hmem)] at huser
      cases huser
  · refine ⟨hsent.request, _, hsent.input, ?_⟩
    have hleads : ∀ updates' : List (EffortUpdate F),
        (updates' = result.2.effortUpdates ∨ ∃ update, input.length ≤ update.placed.anchor ∧
          updates' = result.2.effortUpdates ++ [update]) →
        weave (result.2.effortUpdates.map (·.placed)) 0 input <+:
          weave (updates'.map (·.placed)) 0 (input ++ suffix) := by
      rintro updates' (rfl | ⟨update, hle, rfl⟩)
      · rw [weave_append]
        exact List.prefix_append _ _
      · have hold : weave ((result.2.effortUpdates ++ [update]).map (·.placed)) 0 input =
            weave (result.2.effortUpdates.map (·.placed)) 0 input := by
          refine weave_congr fun k _ hlt => ?_
          rw [List.map_append, List.filter_append, List.map_singleton, List.filter_cons_of_neg,
            List.filter_nil, List.append_nil]
          simp only [decide_eq_true_eq]
          omega
        rw [weave_append, hold]
        exact List.prefix_append _ _
    refine hleads _ ?_
    rcases hgrows with rfl | ⟨item, hmem, huser⟩
    · exact .inl (hsame h.effective.symm)
    · obtain ⟨anchor, hlast, hle⟩ := findLastIndex_append_of_mem input hmem huser
      have hlt : ∀ update ∈ result.2.effortUpdates, update.placed.anchor < anchor := fun update hupdate =>
        (h.anchored.lt (List.mem_map_of_mem hupdate)).trans_le hle
      rcases hlater anchor hlast hlt with heq | ⟨print, heq⟩
      · exact .inl heq
      · exact .inr ⟨_, hle, heq⟩

end Rule

/-- Over every sequence of a session's requests, whose hosts bring no configuration update
of their own. A handled request with an input goes out with the effort in force that the host
asked for; without the items put in it is the host's input, and each of them stands right
before a user message. And where the next handled request extends it, with the same effort or
with a new user message, what was sent is a prefix of what is sent then under one
request-level effort, unless the earlier request was left alone: it had no user message and
asked for another effort than the session's. -/
theorem effort_rule (fingerprint : Json → F) (requests : List (Members × Option String))
    {parsed : Members} {agent : Option String} {effort : String} {input : List Json}
    (h : handledEffort parsed agent = some effort) (hinput : inputOf parsed = some input)
    (hplain : Plain input) :
    let metadata := afterRequests fingerprint requests
    let sent := (applyMidConversationEffort fingerprint metadata parsed agent).1
    ∃ wire, inputOf sent = some wire ∧
      effortInForce wire (requestEffort sent) = some effort ∧
      wire.filter (!isConfigurationUpdate ·) = input ∧
      BeforeUser wire ∧
      (¬LeftAlone metadata input effort →
        ∀ others : List (Members × Option String), ∀ next : Members, ∀ agent' effort' suffix,
          (∀ request ∈ others, handledEffort request.1 request.2 = none) →
          handledEffort next agent' = some effort' → inputOf next = some (input ++ suffix) →
          (effort' = effort ∨ ∃ item ∈ suffix, isUserMessage item = true) →
          let later := afterRequests fingerprint (requests ++ [(parsed, agent)] ++ others)
          let sent' := (applyMidConversationEffort fingerprint later next agent').1
          requestEffort sent' = requestEffort sent ∧
            ∃ wire', inputOf sent' = some wire' ∧ wire <+: wire') := by
  intro metadata sent
  have hincreasing : Increasing (metadata.effortUpdates.map (·.placed)) :=
    afterRequests_increasing fingerprint requests
  rcases apply_cases h hinput hincreasing with ⟨hleft, heq⟩ | ⟨pinned, hsent⟩
  · have hparsed : sent = parsed := congrArg Prod.fst heq
    rw [hparsed]
    refine ⟨input, hinput, ?_, ?_, ?_, fun hnot => (hnot hleft).elim⟩
    · rw [effortInForce, updateEffort_plain hplain, requestEffort_of_handled h]
      rfl
    · exact List.filter_eq_self.mpr fun item hmem => by simp [hplain item hmem]
    · intro before item after hsplit hitem
      have hmem : item ∈ input := hsplit ▸ List.mem_append_right _ List.mem_cons_self
      rw [hplain item hmem] at hitem
      cases hitem
  · refine ⟨_, hsent.input, hsent.inForce hplain, filter_weave hplain, ?_, ?_⟩
    · refine weave_beforeUser hsent.anchored.increasing hplain fun update hmem item _ hget => ?_
      rw [Nat.sub_zero] at hget
      exact hsent.anchored.user hmem hget
    · intro _ others next agent' effort' suffix hothers hnext hnextInput hgrows
      have hlater : afterRequests fingerprint (requests ++ [(parsed, agent)] ++ others) =
          (applyMidConversationEffort fingerprint metadata parsed agent).2 := by
        rw [afterRequests_others fingerprint hothers, afterRequests, List.foldl_append]
        rfl
      rw [hlater]
      obtain ⟨hrequest, hwire⟩ := hsent.extends hnext hnextInput hgrows
      exact ⟨hrequest.trans hsent.request.symm, hwire⟩

/-- A request for a model of the rule. -/
def effortRequest (effort : String) (input : List Json) : Members :=
  [("model", .str "gpt-6-sol"), ("reasoning", .obj [("effort", .str effort)]),
    ("input", .arr input)]

def developerMessage : Json := .obj [("role", .str "developer"), ("content", .str "rules")]

def userMessage (text : String) : Json := .obj [("role", .str "user"), ("content", .str text)]

/-- The effort goes up with the second user message. -/
theorem effort_rule_raised :
    ∃ wire, inputOf (applyMidConversationEffort (F := Json) id
        (afterRequests id [(effortRequest "low" [userMessage "a"], none)])
        (effortRequest "high" [userMessage "a", userMessage "b"]) none).1 = some wire ∧
      effortInForce wire (some "low") = some "high" ∧
      wire.filter (!isConfigurationUpdate ·) = [userMessage "a", userMessage "b"] := by
  have hplain : Plain [userMessage "a", userMessage "b"] := by
    intro item hmem
    simp only [List.mem_cons, List.not_mem_nil, or_false] at hmem
    rcases hmem with rfl | rfl <;> rfl
  have hhandled : handledEffort (effortRequest "high" [userMessage "a", userMessage "b"]) none =
      some "high" := by decide
  obtain ⟨wire, hwire, hforce, hhost, -⟩ := effort_rule (F := Json) id
    [(effortRequest "low" [userMessage "a"], none)] hhandled rfl hplain
  exact ⟨wire, hwire, hforce, hhost⟩

/-- Before its first user message a session asks for another effort than its first and is
left alone. With the message the request-level effort is the first one again, so the prefix
that was sent is not kept. -/
theorem left_alone_prefix :
    let first := (effortRequest "low" [developerMessage], (none : Option String))
    let second := (effortRequest "high" [developerMessage], (none : Option String))
    let third := effortRequest "high" [developerMessage, userMessage "a"]
    handledEffort second.1 none = some "high" ∧ handledEffort third none = some "high" ∧
      inputOf third = (inputOf second.1).map (· ++ [userMessage "a"]) ∧
      requestEffort (applyMidConversationEffort (F := Json) id (afterRequests id [first])
        second.1 none).1 = some "high" ∧
      requestEffort (applyMidConversationEffort (F := Json) id (afterRequests id [first, second])
        third none).1 = some "low" := by
  decide

end Effort
