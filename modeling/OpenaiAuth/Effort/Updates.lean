import Mathlib.Data.List.Basic
import Mathlib.Order.Basic
import OpenaiAuth.Js.Fields

/-! # Configuration updates in an input

Both hosts keep a session's request-level effort and tell the model of a later effort by a
`configuration_update` item in front of a user message. `weave` is an input with such items
before the messages at given places; it is what splicing them in from the last one down
comes to.
-/

namespace Effort

open Js

/-! ## Items -/

def isMessageWithRole (item : Json) (role : String) : Bool :=
  item.isRecord && (item.type? = some "message" || (item.get? "role").isSome) &&
    item.stringAt? "role" = some role

def isUserMessage (item : Json) : Bool := isMessageWithRole item "user"

def isConfigurationUpdate (item : Json) : Bool :=
  item.isRecord && item.type? = some "configuration_update"

def configurationUpdate (effort : String) : Json :=
  .obj [("type", .str "configuration_update"), ("reasoning", .obj [("effort", .str effort)])]

/-- The effort that a configuration update asks for. -/
def updateEffort (item : Json) : Option String :=
  if isConfigurationUpdate item then (item.recordAt? "reasoning").bind (·.stringAt? "effort")
  else none

@[simp] theorem isConfigurationUpdate_configurationUpdate (effort : String) :
    isConfigurationUpdate (configurationUpdate effort) = true := rfl

@[simp] theorem updateEffort_configurationUpdate (effort : String) :
    updateEffort (configurationUpdate effort) = some effort := rfl

@[simp] theorem isUserMessage_configurationUpdate (effort : String) :
    isUserMessage (configurationUpdate effort) = false := rfl

/-- No configuration update of the host's own. -/
def Plain (input : List Json) : Prop := ∀ item ∈ input, isConfigurationUpdate item = false

theorem updateEffort_plain {input : List Json} (h : Plain input) :
    input.filterMap updateEffort = [] := by
  rw [List.filterMap_eq_nil_iff]
  intro item hmem
  rw [updateEffort, h item hmem]
  rfl

/-! ## Bodies -/

def midConversationEffortModels : List String :=
  ["gpt-6-astra", "gpt-6-sol", "gpt-6-luna", "gpt-6.1-sol"]

def reasoningOf (body : Members) : Option Json := (body.lookup "reasoning").filter Json.isRecord

def requestEffort (body : Members) : Option String :=
  (reasoningOf body).bind (·.stringAt? "effort")

def inputOf (body : Members) : Option (List Json) := (body.lookup "input").bind Json.array?

def modelOf (body : Members) : String := ((body.lookup "model").bind Json.string?).getD ""

/-- `body.reasoning = { ...reasoning, effort }` -/
def setEffort (reasoning : Json) (effort : String) (body : Members) : Members :=
  body.set "reasoning" (.obj (reasoning.members.set "effort" (.str effort)))

@[simp] theorem requestEffort_setEffort (reasoning : Json) (effort : String) (body : Members) :
    requestEffort (setEffort reasoning effort body) = some effort := by
  have hreasoning : reasoningOf (setEffort reasoning effort body) =
      some (.obj (reasoning.members.set "effort" (.str effort))) := by
    rw [reasoningOf, setEffort, Members.lookup_set_self]
    rfl
  rw [requestEffort, hreasoning]
  simp

@[simp] theorem inputOf_setEffort (reasoning : Json) (effort : String) (body : Members) :
    inputOf (setEffort reasoning effort body) = inputOf body := by
  simp [inputOf, setEffort]

@[simp] theorem inputOf_set (items : List Json) (body : Members) :
    inputOf (body.set "input" (.arr items)) = some items := by
  simp [inputOf, Json.array?]

@[simp] theorem requestEffort_set (items : List Json) (body : Members) :
    requestEffort (body.set "input" (.arr items)) = requestEffort body := by
  simp [requestEffort, reasoningOf]

/-- What the model goes by at the end of the input: the last update, or the request. -/
def effortInForce (context : List Json) (request : Option String) : Option String :=
  (context.filterMap updateEffort).getLast?.or request

/-! ## The last user message -/

/-- `findLastIndex`; none for -1. -/
def findLastIndex {α : Type*} (p : α → Bool) : List α → Option ℕ
  | [] => none
  | x :: xs =>
      match findLastIndex p xs with
      | some i => some (i + 1)
      | none => if p x then some 0 else none

section FindLast

variable {α : Type*} {p : α → Bool}

theorem findLastIndex_eq_none {xs : List α} :
    findLastIndex p xs = none ↔ ∀ x ∈ xs, p x = false := by
  induction xs with
  | nil => simp [findLastIndex]
  | cons x xs ih =>
      rw [findLastIndex, List.forall_mem_cons]
      cases h : findLastIndex p xs with
      | none =>
          have hrest := ih.mp h
          cases hx : p x with
          | false => simpa using hrest
          | true => simp
      | some i =>
          simp only [reduceCtorEq, false_iff, not_and]
          intro _ hall
          rw [ih.mpr hall] at h
          cases h

theorem findLastIndex_get {xs : List α} {i : ℕ} (h : findLastIndex p xs = some i) :
    ∃ x, xs[i]? = some x ∧ p x = true := by
  induction xs generalizing i with
  | nil => cases h
  | cons x xs ih =>
      rw [findLastIndex] at h
      split at h
      · rename_i j hj
        cases h
        simpa using ih hj
      · split_ifs at h with hx
        cases h
        exact ⟨x, rfl, hx⟩

/-- No later element has the property. -/
theorem findLastIndex_last {xs : List α} {i j : ℕ} {x : α} (h : findLastIndex p xs = some i)
    (hget : xs[j]? = some x) (hx : p x = true) : j ≤ i := by
  induction xs generalizing i j with
  | nil => cases h
  | cons y ys ih =>
      rw [findLastIndex] at h
      cases j with
      | zero => exact Nat.zero_le _
      | succ j =>
          split at h
          · rename_i k hk
            cases h
            exact Nat.succ_le_succ (ih hk (by simpa using hget))
          · rename_i hnone
            have hmem : x ∈ ys := List.mem_of_getElem? (by simpa using hget)
            rw [findLastIndex_eq_none.mp hnone x hmem] at hx
            cases hx

theorem findLastIndex_append_of_mem (xs : List α) {ys : List α} {y : α} (hmem : y ∈ ys) (hy : p y = true) :
    ∃ i, findLastIndex p (xs ++ ys) = some i ∧ xs.length ≤ i := by
  obtain ⟨k, hk⟩ := List.mem_iff_getElem?.mp hmem
  have hget : (xs ++ ys)[xs.length + k]? = some y := by
    rw [List.getElem?_append_right (Nat.le_add_right _ _), Nat.add_sub_cancel_left]
    exact hk
  cases h : findLastIndex p (xs ++ ys) with
  | none =>
      rw [findLastIndex_eq_none.mp h y (List.mem_append_right _ hmem)] at hy
      cases hy
  | some i =>
      have hle := findLastIndex_last h hget hy
      exact ⟨i, rfl, by omega⟩

end FindLast

/-! ## Woven inputs -/

/-- `input.splice(at, 0, item)` -/
def splice (anchor : ℕ) (item : Json) (input : List Json) : List Json :=
  input.take anchor ++ item :: input.drop anchor

/-- An update and the index it goes in front of. -/
structure Placed where
  anchor : ℕ
  effort : String
deriving DecidableEq, Repr

/-- The input from index `i` on, with the updates in their places. -/
def weave (updates : List Placed) : ℕ → List Json → List Json
  | _, [] => []
  | i, x :: xs =>
      ((updates.filter (·.anchor = i)).map fun update => configurationUpdate update.effort) ++
        x :: weave updates (i + 1) xs

/-- Splices the updates in, the last one first. -/
def insertUpdates (updates : List Placed) (input : List Json) : List Json :=
  updates.foldr (fun update input => splice update.anchor (configurationUpdate update.effort) input)
    input

/-- The places go up. -/
def Increasing (updates : List Placed) : Prop := updates.Pairwise fun a b => a.anchor < b.anchor

theorem weave_congr {updates updates' : List Placed} {i : ℕ} {input : List Json}
    (h : ∀ k, i ≤ k → k < i + input.length →
      updates.filter (·.anchor = k) = updates'.filter (·.anchor = k)) :
    weave updates i input = weave updates' i input := by
  induction input generalizing i with
  | nil => rfl
  | cons x xs ih =>
      rw [weave, weave, h i le_rfl (by simp), ih fun k hle hlt => h k (by omega) ?_]
      rw [List.length_cons]
      omega

@[simp] theorem weave_nil (i : ℕ) (input : List Json) : weave [] i input = input := by
  induction input generalizing i with
  | nil => rfl
  | cons x xs ih => rw [weave, ih, List.filter_nil, List.map_nil, List.nil_append]

theorem weave_append (updates : List Placed) (i : ℕ) (xs ys : List Json) :
    weave updates i (xs ++ ys) = weave updates i xs ++ weave updates (i + xs.length) ys := by
  induction xs generalizing i with
  | nil => simp [weave]
  | cons x xs ih =>
      rw [List.cons_append, weave, weave, ih, List.length_cons, List.append_assoc,
        List.cons_append, Nat.add_right_comm, Nat.add_assoc]

/-- The first update is spliced in after the others. -/
theorem weave_cons {update : Placed} {rest : List Placed} {i : ℕ} {input : List Json}
    (hrest : ∀ other ∈ rest, update.anchor < other.anchor) (hle : i ≤ update.anchor)
    (hlt : update.anchor < i + input.length) :
    weave (update :: rest) i input =
      splice (update.anchor - i) (configurationUpdate update.effort) (weave rest i input) := by
  induction input generalizing i with
  | nil => simp at hlt; omega
  | cons x xs ih =>
      rw [weave, weave]
      by_cases hhere : update.anchor = i
      · -- no other update is as early as this one
        have hnone : rest.filter (·.anchor = i) = [] := by
          rw [List.filter_eq_nil_iff]
          intro other hmem hother
          have := hrest other hmem
          have := of_decide_eq_true hother
          omega
        have hlater : weave (update :: rest) (i + 1) xs = weave rest (i + 1) xs := by
          refine weave_congr fun k hle _ => ?_
          rw [List.filter_cons_of_neg]
          simp only [decide_eq_true_eq]
          omega
        rw [List.filter_cons_of_pos (by simpa using hhere), hnone, hlater, hhere, Nat.sub_self]
        rfl
      · have hfilter : (update :: rest).filter (·.anchor = i) = [] := by
          rw [List.filter_eq_nil_iff]
          intro other hmem hother
          have hi := of_decide_eq_true hother
          rcases List.mem_cons.mp hmem with rfl | hmem
          · exact hhere hi
          · have := hrest other hmem
            omega
        have hfilter' : rest.filter (·.anchor = i) = [] := by
          rw [List.filter_cons_of_neg (by simpa using hhere)] at hfilter
          exact hfilter
        have hsub : update.anchor - i = update.anchor - (i + 1) + 1 := by omega
        rw [hfilter, hfilter', ih (by omega) (by rw [List.length_cons] at hlt; omega), hsub]
        rfl

theorem insertUpdates_eq {updates : List Placed} {input : List Json} (h : Increasing updates)
    (hlt : ∀ update ∈ updates, update.anchor < input.length) :
    insertUpdates updates input = weave updates 0 input := by
  induction updates with
  | nil => exact (weave_nil 0 input).symm
  | cons update rest ih =>
      obtain ⟨hfirst, hrest⟩ := List.pairwise_cons.mp h
      have hupdate := hlt update List.mem_cons_self
      rw [weave_cons hfirst (Nat.zero_le _) (by omega), Nat.sub_zero,
        ← ih hrest fun other hmem => hlt other (List.mem_cons_of_mem _ hmem)]
      rfl

/-! ### What is woven in -/

theorem weave_skip {updates : List Placed} {i : ℕ} {input : List Json}
    (h : ∀ update ∈ updates, i + input.length ≤ update.anchor) : weave updates i input = input := by
  have hnone : weave updates i input = weave [] i input := by
    refine weave_congr fun k _ hlt => ?_
    rw [List.filter_nil, List.filter_eq_nil_iff]
    intro update hmem heq
    have := h update hmem
    have := of_decide_eq_true heq
    omega
  rw [hnone, weave_nil]

/-- Without the updates it is the input. -/
theorem filter_weave {updates : List Placed} {i : ℕ} {input : List Json} (h : Plain input) :
    (weave updates i input).filter (!isConfigurationUpdate ·) = input := by
  induction input generalizing i with
  | nil => rfl
  | cons x xs ih =>
      have hx := h x List.mem_cons_self
      have hupdates : ((updates.filter (·.anchor = i)).map fun update =>
          configurationUpdate update.effort).filter (!isConfigurationUpdate ·) = [] := by
        rw [List.filter_eq_nil_iff]
        intro item hmem
        obtain ⟨update, -, rfl⟩ := List.mem_map.mp hmem
        simp
      rw [weave, List.filter_append, hupdates, List.nil_append,
        List.filter_cons_of_pos (by simp [hx]), ih fun item hmem => h item (List.mem_cons_of_mem _ hmem)]

/-- The efforts come in the order of the updates. -/
theorem updateEffort_weave {updates : List Placed} {input : List Json} (h : Increasing updates)
    (hlt : ∀ update ∈ updates, update.anchor < input.length) (hplain : Plain input) :
    (weave updates 0 input).filterMap updateEffort = updates.map (·.effort) := by
  induction updates with
  | nil =>
      rw [weave_nil]
      exact updateEffort_plain hplain
  | cons update rest ih =>
      obtain ⟨hfirst, hrest⟩ := List.pairwise_cons.mp h
      have hupdate := hlt update List.mem_cons_self
      have hih := ih hrest fun other hmem => hlt other (List.mem_cons_of_mem _ hmem)
      -- nothing is woven in before the first update
      have hsplit : weave rest 0 input =
          input.take update.anchor ++ weave rest update.anchor (input.drop update.anchor) := by
        have hlength : (input.take update.anchor).length = update.anchor := by
          rw [List.length_take]
          omega
        conv_lhs => rw [← List.take_append_drop update.anchor input, weave_append, hlength, Nat.zero_add]
        rw [weave_skip]
        intro other hmem
        have := hfirst other hmem
        omega
      have hbefore : (input.take update.anchor).filterMap updateEffort = [] :=
        updateEffort_plain fun item hmem => hplain item (List.mem_of_mem_take hmem)
      have htake : (weave rest 0 input).take update.anchor = input.take update.anchor := by
        rw [hsplit, List.take_append_of_le_length (by rw [List.length_take]; omega)]
        rw [List.take_take, Nat.min_self]
      have hdrop : (weave rest 0 input).drop update.anchor =
          weave rest update.anchor (input.drop update.anchor) := by
        rw [hsplit, List.drop_left' (by rw [List.length_take]; omega)]
      rw [hsplit, List.filterMap_append, hbefore, List.nil_append] at hih
      rw [weave_cons hfirst (Nat.zero_le _) (by omega), Nat.sub_zero, splice, htake, hdrop,
        List.filterMap_append, hbefore, List.nil_append,
        List.filterMap_cons_some (updateEffort_configurationUpdate _), hih, List.map_cons]

theorem filter_anchor {updates : List Placed} (h : Increasing updates) (i : ℕ) :
    updates.filter (·.anchor = i) = [] ∨
      ∃ update ∈ updates, update.anchor = i ∧ updates.filter (·.anchor = i) = [update] := by
  induction updates with
  | nil => exact .inl rfl
  | cons update rest ih =>
      obtain ⟨hfirst, hrest⟩ := List.pairwise_cons.mp h
      by_cases hhere : update.anchor = i
      · have hnone : rest.filter (·.anchor = i) = [] := by
          rw [List.filter_eq_nil_iff]
          intro other hmem hother
          have := hfirst other hmem
          have := of_decide_eq_true hother
          omega
        refine .inr ⟨update, List.mem_cons_self, hhere, ?_⟩
        rw [List.filter_cons_of_pos (by simpa using hhere), hnone]
      · rw [List.filter_cons_of_neg (by simpa using hhere)]
        rcases ih hrest with hnil | ⟨other, hmem, hother, hone⟩
        · exact .inl hnil
        · exact .inr ⟨other, List.mem_cons_of_mem _ hmem, hother, hone⟩

/-- Each configuration update stands right before a user message. -/
def BeforeUser (input : List Json) : Prop :=
  ∀ before item after, input = before ++ item :: after → isConfigurationUpdate item = true →
    ∃ next rest, after = next :: rest ∧ isUserMessage next = true ∧
      isConfigurationUpdate next = false

theorem weave_beforeUser {updates : List Placed} {i : ℕ} {input : List Json}
    (h : Increasing updates) (hplain : Plain input)
    (huser : ∀ update ∈ updates, ∀ item, i ≤ update.anchor →
      input[update.anchor - i]? = some item → isUserMessage item = true) :
    BeforeUser (weave updates i input) := by
  induction input generalizing i with
  | nil =>
      intro before item after heq
      simp [weave] at heq
  | cons x xs ih =>
      have hx := hplain x List.mem_cons_self
      have hrest : BeforeUser (weave updates (i + 1) xs) := by
        refine ih (fun item hmem => hplain item (List.mem_cons_of_mem _ hmem)) ?_
        intro update hmem item hle hget
        refine huser update hmem item (by omega) ?_
        have hsub : update.anchor - i = update.anchor - (i + 1) + 1 := by omega
        rw [hsub, List.getElem?_cons_succ, hget]
      have htail : BeforeUser (x :: weave updates (i + 1) xs) := by
        intro before item after heq hitem
        cases before with
        | nil =>
            cases heq
            rw [hx] at hitem
            cases hitem
        | cons b bs =>
            obtain ⟨-, heq⟩ := List.cons.inj heq
            exact hrest bs item after heq hitem
      rw [weave]
      rcases filter_anchor h i with hnil | ⟨update, hmem, rfl, hone⟩
      · rw [hnil]
        exact htail
      · rw [hone]
        intro before item after heq hitem
        cases before with
        | nil =>
            obtain ⟨-, rfl⟩ := List.cons.inj heq
            refine ⟨x, _, rfl, huser update hmem x le_rfl ?_, hx⟩
            rw [Nat.sub_self]
            rfl
        | cons b bs =>
            obtain ⟨-, heq⟩ := List.cons.inj heq
            exact htail bs item after heq hitem

end Effort
