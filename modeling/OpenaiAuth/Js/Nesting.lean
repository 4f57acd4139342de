import OpenaiAuth.Js.Lexing

/-! # The outermost object

What the machine does with the members of the outermost object, whatever their values
contain. A value is read above its object as it would be read alone, so the machine is at
one of four places: before a key, before a colon, in a value, or at the end.

Main results:

* `step_above`: a value is read above a frame as it is read alone;
* `depth_step`: which tokens open and close arrays and objects;
* `run_places`: a property of the places holds at the end of every object;
* `occurrences_begin`, `occurrences_other`: the tokens that a key's values begin with.
-/

namespace Js.Parse

/-! ## Values above a frame -/

/-- The state, with `base` below all that is open. -/
def State.above (base : Frame) : State → State
  | .value stack => .value (stack ++ [base])
  | .first stack => .first (stack ++ [base])
  | .key members stack => .key members (stack ++ [base])
  | .colon members name stack => .colon members name (stack ++ [base])
  | .after stack v => .after (stack ++ [base]) v

/-- How many arrays and objects are open. -/
def State.depth : State → Nat
  | .value stack | .after stack _ => stack.length
  | .first stack | .key _ stack | .colon _ _ stack => stack.length + 1

def Token.opens : Token → Bool
  | .beginArray | .beginObject => true
  | _ => false

def Token.shuts : Token → Bool
  | .endArray | .endObject => true
  | _ => false

/-- An array or an object. -/
def Value.isCompound : Value → Bool
  | .array _ | .object _ => true
  | _ => false

theorem valueStep_above (base : Frame) (stack : List Frame) (token : Token) :
    valueStep (stack ++ [base]) token = (valueStep stack token).map (State.above base) := by
  cases token with
  | string body =>
      simp only [valueStep, Option.map_map]
      rfl
  | _ => rfl

theorem step_above (base : Frame) {state : State} (h : finished state = none) (token : Token) :
    step (state.above base) token = (step state token).map (State.above base) := by
  cases state with
  | value stack => exact valueStep_above base stack token
  | first stack =>
      by_cases hend : token = .endArray
      · rw [hend]
        rfl
      · have hfirst (stack : List Frame) : step (.first stack) token =
            valueStep (.array [] :: stack) token := by
          cases token with
          | endArray => exact absurd rfl hend
          | _ => rfl
        rw [State.above, hfirst, hfirst, ← valueStep_above, List.cons_append]
  | key members stack =>
      cases token with
      | string body =>
          simp only [State.above, step, Option.map_map]
          rfl
      | endObject =>
          cases members with
          | nil => rfl
          | cons member rest => rfl
      | _ => cases members <;> rfl
  | colon members key stack => cases token <;> rfl
  | after stack v =>
      cases stack with
      | nil => cases h
      | cons frame rest =>
          cases frame with
          | array items => cases token <;> rfl
          | object members key => cases token <;> rfl

theorem depth_valueStep {stack : List Frame} {token : Token} {next : State}
    (h : valueStep stack token = some next) :
    next.depth = stack.length + (if token.opens then 1 else 0) ∧ token.shuts = false := by
  cases token with
  | string body =>
      obtain ⟨text, _, rfl⟩ := Option.map_eq_some_iff.mp h
      exact ⟨rfl, rfl⟩
  | null => cases h; exact ⟨rfl, rfl⟩
  | bool value => cases h; exact ⟨rfl, rfl⟩
  | number fields => cases h; exact ⟨rfl, rfl⟩
  | beginArray => cases h; exact ⟨rfl, rfl⟩
  | beginObject => cases h; exact ⟨rfl, rfl⟩
  | _ => cases h

/-- Only the tokens that open and close change the depth. -/
theorem depth_step {state next : State} {token : Token} (h : step state token = some next) :
    next.depth + (if token.shuts then 1 else 0) =
      state.depth + (if token.opens then 1 else 0) := by
  cases state with
  | value stack =>
      obtain ⟨hdepth, hshuts⟩ := depth_valueStep h
      rw [hdepth, hshuts]
      rfl
  | first stack =>
      by_cases hend : token = .endArray
      · rw [hend] at h ⊢
        cases h
        rfl
      · have hvalue : valueStep (.array [] :: stack) token = some next := by
          cases token with
          | endArray => exact absurd rfl hend
          | _ => exact h
        obtain ⟨hdepth, hshuts⟩ := depth_valueStep hvalue
        rw [hdepth, hshuts]
        rfl
  | key members stack =>
      cases token with
      | string body =>
          obtain ⟨key, _, rfl⟩ := Option.map_eq_some_iff.mp h
          rfl
      | endObject =>
          cases members with
          | nil => cases h; rfl
          | cons member rest => cases h
      | _ => cases members <;> cases h
  | colon members key stack =>
      cases token with
      | colon => cases h; rfl
      | _ => cases h
  | after stack v =>
      cases stack with
      | nil => cases h
      | cons frame rest =>
          cases frame with
          | array items =>
              cases token with
              | comma => cases h; rfl
              | endArray => cases h; rfl
              | _ => cases h
          | object members key =>
              cases token with
              | comma => cases h; rfl
              | endObject => cases h; rfl
              | _ => cases h

/-- Nothing is open before a value and after it. -/
theorem depth_eq_zero {state : State} (h : state.depth = 0) (hopen : finished state = none) :
    state = .value [] := by
  cases state with
  | value stack => rw [List.eq_nil_of_length_eq_zero h]
  | after stack v =>
      rw [State.depth] at h
      rw [List.eq_nil_of_length_eq_zero h] at hopen
      cases hopen
  | first stack => cases h
  | key members stack => cases h
  | colon members key stack => cases h

theorem depth_of_finished {state : State} {v : Value} (h : finished state = some v) :
    state = .after [] v ∧ state.depth = 0 := by
  unfold finished at h
  split at h
  · cases h
    exact ⟨rfl, rfl⟩
  · cases h

theorem shuts_iff {token : Token} :
    token.shuts = true ↔ token = .endArray ∨ token = .endObject := by
  cases token <;> simp [Token.shuts]

theorem not_shuts_of_opens {token : Token} (h : token.opens = true) : token.shuts = false := by
  cases token with
  | beginArray => rfl
  | beginObject => rfl
  | _ => cases h

/-- What a closing token ends is an array or an object. -/
theorem compound_of_shuts {state : State} {token : Token} {stack : List Frame} {v : Value}
    (hshuts : token.shuts = true) (h : step state token = some (.after stack v)) :
    v.isCompound = true := by
  cases state with
  | value stack => rcases shuts_iff.mp hshuts with rfl | rfl <;> cases h
  | first stack =>
      rcases shuts_iff.mp hshuts with rfl | rfl
      · cases h
        rfl
      · cases h
  | key members stack =>
      rcases shuts_iff.mp hshuts with rfl | rfl
      · cases members <;> cases h
      · cases members with
        | nil =>
            cases h
            rfl
        | cons member rest => cases h
  | colon members key stack => rcases shuts_iff.mp hshuts with rfl | rfl <;> cases h
  | after stack v =>
      cases stack with
      | nil => cases h
      | cons frame rest =>
          rcases shuts_iff.mp hshuts with rfl | rfl
          · cases frame with
            | array items =>
                cases h
                rfl
            | object members key => cases h
          · cases frame with
            | array items => cases h
            | object members key =>
                cases h
                rfl

/-! ## Places -/

/-- Where the machine is in the outermost object. -/
inductive Place where
  | key (members : List (Units × Value))
  | colon (members : List (Units × Value)) (name : Units)
  /-- In the value of the member, which is read as if it stood alone. -/
  | inside (members : List (Units × Value)) (name : Units) (state : State)
  | done (members : List (Units × Value))

def Place.state : Place → State
  | .key members => .key members []
  | .colon members name => .colon members name []
  | .inside members name state => state.above (.object members name)
  | .done members => .after [] (.object members)

/-- What a token does in the outermost object. -/
inductive Move : Place → Token → Place → Prop where
  | name {members : List (Units × Value)} {body name : Units}
      (hdecode : decodeString body = some name) :
      Move (.key members) (.string body) (.colon members name)
  | empty : Move (.key []) .endObject (.done [])
  | colon {members : List (Units × Value)} {name : Units} :
      Move (.colon members name) .colon (.inside members name (.value []))
  | inner {members : List (Units × Value)} {name : Units} {state next : State} {token : Token}
      (hopen : finished state = none) (hstep : step state token = some next) :
      Move (.inside members name state) token (.inside members name next)
  | comma {members : List (Units × Value)} {name : Units} {v : Value} :
      Move (.inside members name (.after [] v)) .comma (.key (members ++ [(name, v)]))
  | close {members : List (Units × Value)} {name : Units} {v : Value} :
      Move (.inside members name (.after [] v)) .endObject (.done (members ++ [(name, v)]))

/-- Every step in the outermost object is a move. -/
theorem move_of_step {place : Place} {token : Token} {next : State}
    (h : step place.state token = some next) :
    ∃ place', next = place'.state ∧ Move place token place' := by
  cases place with
  | key members =>
      cases token with
      | string body =>
          obtain ⟨name, hdecode, rfl⟩ := Option.map_eq_some_iff.mp h
          exact ⟨.colon members name, rfl, .name hdecode⟩
      | endObject =>
          cases members with
          | nil =>
              cases h
              exact ⟨.done [], rfl, .empty⟩
          | cons member rest => cases h
      | _ => cases members <;> cases h
  | colon members name =>
      cases token with
      | colon =>
          cases h
          exact ⟨.inside members name (.value []), rfl, .colon⟩
      | _ => cases h
  | inside members name state =>
      cases hfinished : finished state with
      | none =>
          rw [Place.state, step_above _ hfinished] at h
          obtain ⟨inner, hinner, rfl⟩ := Option.map_eq_some_iff.mp h
          exact ⟨.inside members name inner, rfl, .inner hfinished hinner⟩
      | some v =>
          -- the value is complete: a comma or the closing brace follows
          rw [(depth_of_finished hfinished).1] at h ⊢
          cases token with
          | comma =>
              cases h
              exact ⟨.key (members ++ [(name, v)]), rfl, .comma⟩
          | endObject =>
              cases h
              exact ⟨.done (members ++ [(name, v)]), rfl, .close⟩
          | _ => cases h
  | done members => cases h

/-- The outermost value is an array. -/
inductive InArray : State → Prop where
  | first : InArray (.first [])
  | inside (items : List Value) (state : State) : InArray (state.above (.array items))
  | done (items : List Value) : InArray (.after [] (.array items))

theorem InArray.step {state next : State} {token : Token} (h : InArray state)
    (hstep : step state token = some next) : InArray next := by
  cases h with
  | first =>
      by_cases hend : token = .endArray
      · rw [hend] at hstep
        cases hstep
        exact .done []
      · have hvalue : valueStep ([] ++ [.array []]) token = some next := by
          cases token with
          | endArray => exact absurd rfl hend
          | _ => exact hstep
        rw [valueStep_above] at hvalue
        obtain ⟨inner, _, rfl⟩ := Option.map_eq_some_iff.mp hvalue
        exact .inside [] inner
  | inside items state =>
      cases hfinished : finished state with
      | none =>
          rw [step_above _ hfinished] at hstep
          obtain ⟨inner, _, rfl⟩ := Option.map_eq_some_iff.mp hstep
          exact .inside items inner
      | some v =>
          rw [(depth_of_finished hfinished).1] at hstep
          cases token with
          | comma =>
              cases hstep
              exact .inside (items ++ [v]) (.value [])
          | endArray =>
              cases hstep
              exact .done (items ++ [v])
          | _ => cases hstep
  | done items => cases hstep

theorem InArray.run {state next : State} {tokens : List Token} (h : InArray state)
    (hrun : run state tokens = some next) : InArray next := by
  induction tokens generalizing state with
  | nil =>
      cases hrun
      exact h
  | cons token rest ih =>
      obtain ⟨middle, hstep, hrest⟩ := Option.bind_eq_some_iff.mp hrun
      exact ih (h.step hstep) hrest

theorem not_inArray_object {members : List (Units × Value)} :
    ¬InArray (.after [] (.object members)) := by
  intro h
  generalize hstate : State.after [] (.object members) = state at h
  cases h with
  | first => cases hstate
  | inside items state =>
      cases state with
      | after stack v => simp [State.above] at hstate
      | _ => cases hstate
  | done items => cases hstate

theorem Place.eq_done {place : Place} {members : List (Units × Value)}
    (h : place.state = .after [] (.object members)) : place = .done members := by
  cases place with
  | done others =>
      cases h
      rfl
  | inside others name state =>
      cases state with
      | after stack v => simp [Place.state, State.above] at h
      | _ => cases h
  | _ => cases h

/-- The moves of an object, one by one. -/
theorem run_places {P : Place → List Token → Prop} (hstart : P (.key []) [.beginObject])
    (hmove : ∀ place before token place', run (.value []) before = some place.state →
      P place before → Move place token place' → P place' (before ++ [token]))
    {tokens : List Token} {members : List (Units × Value)}
    (h : run (.value []) tokens = some (.after [] (.object members))) :
    P (.done members) tokens := by
  have hrest : ∀ rest before place, run (.value []) before = some place.state → P place before →
      run place.state rest = some (.after [] (.object members)) →
      P (.done members) (before ++ rest) := by
    intro rest
    induction rest with
    | nil =>
        intro before place _ hplace hrun
        rw [List.append_nil, ← Place.eq_done (Option.some.inj hrun)]
        exact hplace
    | cons token rest ih =>
        intro before place hbefore hplace hrun
        obtain ⟨next, hstep, hrest⟩ := Option.bind_eq_some_iff.mp hrun
        obtain ⟨place', rfl, hmoved⟩ := move_of_step hstep
        have hreached : run (.value []) (before ++ [token]) = some place'.state := by
          rw [run_append, hbefore]
          simp only [Option.bind_some, run, hstep]
        have hlast := ih (before ++ [token]) place' hreached
          (hmove place before token place' hbefore hplace hmoved) hrest
        rwa [List.append_assoc] at hlast
  cases tokens with
  | nil => cases h
  | cons token rest =>
      obtain ⟨next, hstep, hrun⟩ := Option.bind_eq_some_iff.mp h
      -- after a value that is no array and no object nothing may follow
      have hscalar : ∀ v, next = .after [] v → v.isCompound = true := by
        rintro v rfl
        cases rest with
        | nil =>
            cases hrun
            rfl
        | cons other more => cases hrun
      cases token with
      | beginObject =>
          cases hstep
          exact hrest rest [.beginObject] (.key []) rfl hstart hrun
      | beginArray =>
          cases hstep
          exact absurd (InArray.first.run hrun) not_inArray_object
      | string body =>
          obtain ⟨text, _, rfl⟩ := Option.map_eq_some_iff.mp hstep
          cases hscalar _ rfl
      | null =>
          cases hstep
          cases hscalar _ rfl
      | bool value =>
          cases hstep
          cases hscalar _ rfl
      | number fields =>
          cases hstep
          cases hscalar _ rfl
      | _ => cases hstep

/-! ## Occurrences of a key -/

/-- The next token begins the value of a member of the outermost object with this name. -/
def State.expects (name : Units) : State → Bool
  | .value [.object _ other] => other = name
  | _ => false

/-- The first tokens of the values that the outermost object has under a name, in the order
of the text. -/
def occurrences (name : Units) : State → List Token → List Token
  | _, [] => []
  | state, token :: rest =>
      let later := (step state token).elim [] fun next => occurrences name next rest
      if state.expects name then token :: later else later

/-- The token begins the value; a scalar is the value. -/
inductive Begins : Token → Value → Prop where
  | null : Begins .null .null
  | bool (value : Bool) : Begins (.bool value) (.bool value)
  | number (fields : NumberFields) : Begins (.number fields) (.number fields)
  | string {body text : Units} (hdecode : decodeString body = some text) :
      Begins (.string body) (.string text)
  | compound {token : Token} {v : Value} (hopens : token.opens = true)
      (hcompound : v.isCompound = true) : Begins token v

/-- The values that the members have under a name. -/
def valuesAt (name : Units) (members : List (Units × Value)) : List Value :=
  (members.filter fun member => member.1 = name).map Prod.snd

theorem valuesAt_concat (name other : Units) (members : List (Units × Value)) (v : Value) :
    valuesAt name (members ++ [(other, v)]) =
      valuesAt name members ++ if other = name then [v] else [] := by
  unfold valuesAt
  rw [List.filter_append, List.map_append]
  by_cases h : other = name
  · simp [h]
  · simp [h]

theorem occurrences_concat (name : Units) {state last : State} {before : List Token}
    (h : run state before = some last) (token : Token) :
    occurrences name state (before ++ [token]) =
      occurrences name state before ++ if last.expects name then [token] else [] := by
  induction before generalizing state with
  | nil =>
      cases h
      have hlater : (step last token).elim [] (fun next => occurrences name next []) = [] := by
        cases step last token with
        | none => rfl
        | some next => rfl
      rw [List.nil_append, occurrences, occurrences, List.nil_append]
      simp only [hlater]
  | cons first rest ih =>
      obtain ⟨next, hstep, hrest⟩ := Option.bind_eq_some_iff.mp h
      rw [List.cons_append, occurrences, occurrences, hstep]
      simp only [Option.elim_some, ih hrest]
      split
      · rfl
      · rfl

/-- What the occurrences say of the members, at each place. -/
inductive Reads (name : Units) : Place → List Token → Prop where
  | key {members : List (Units × Value)} {found : List Token}
      (h : List.Forall₂ Begins found (valuesAt name members)) : Reads name (.key members) found
  | colon {members : List (Units × Value)} {other : Units} {found : List Token}
      (h : List.Forall₂ Begins found (valuesAt name members)) :
      Reads name (.colon members other) found
  | start {members : List (Units × Value)} {other : Units} {found : List Token}
      (h : List.Forall₂ Begins found (valuesAt name members)) :
      Reads name (.inside members other (.value [])) found
  | nested {members : List (Units × Value)} {other : Units} {found : List Token} {token : Token}
      {state : State} (hdeep : 0 < state.depth) (hopens : token.opens = true)
      (h : List.Forall₂ Begins found (valuesAt name members)) :
      Reads name (.inside members other state) (found ++ if other = name then [token] else [])
  | value {members : List (Units × Value)} {other : Units} {found : List Token} {v : Value}
      (h : List.Forall₂ Begins found (valuesAt name (members ++ [(other, v)]))) :
      Reads name (.inside members other (.after [] v)) found
  | done {members : List (Units × Value)} {found : List Token}
      (h : List.Forall₂ Begins found (valuesAt name members)) : Reads name (.done members) found

theorem expects_above (name : Units) (members : List (Units × Value)) (other : Units)
    (state : State) : (state.above (.object members other)).expects name = true ↔
      state = .value [] ∧ other = name := by
  cases state with
  | value stack =>
      cases stack with
      | nil => simp [State.above, State.expects]
      | cons frame rest => cases rest <;> cases frame <;> simp [State.above, State.expects]
  | _ => simp [State.above, State.expects]

theorem depth_pos_of_step {state next : State} {token : Token} (h : step state token = some next)
    (hopen : finished next = none) : 0 < next.depth := by
  by_contra hzero
  have hvalue := depth_eq_zero (by omega) hopen
  rw [hvalue] at h
  -- a value is expected only where an array or an object is open
  cases state with
  | value stack =>
      cases token with
      | string body =>
          obtain ⟨text, _, hnext⟩ := Option.map_eq_some_iff.mp h
          cases hnext
      | _ => cases h
  | first stack =>
      cases token with
      | string body =>
          obtain ⟨text, _, hnext⟩ := Option.map_eq_some_iff.mp h
          cases hnext
      | _ => cases h
  | key members stack =>
      cases token with
      | string body =>
          obtain ⟨text, _, hnext⟩ := Option.map_eq_some_iff.mp h
          cases hnext
      | _ => cases members <;> cases h
  | colon members key stack => cases token <;> cases h
  | after stack v =>
      cases stack with
      | nil => cases h
      | cons frame rest => cases frame <;> cases token <;> cases h

/-- The first token of a value: it is the value, or it opens it. -/
theorem first_token {token : Token} {next : State} (h : step (.value []) token = some next) :
    (∃ v, next = .after [] v ∧ Begins token v ∧ v.isCompound = false) ∨
      (token.opens = true ∧ finished next = none) := by
  cases token with
  | string body =>
      obtain ⟨text, hdecode, rfl⟩ := Option.map_eq_some_iff.mp h
      exact Or.inl ⟨.string text, rfl, .string hdecode, rfl⟩
  | null =>
      cases h
      exact Or.inl ⟨.null, rfl, .null, rfl⟩
  | bool value =>
      cases h
      exact Or.inl ⟨.bool value, rfl, .bool value, rfl⟩
  | number fields =>
      cases h
      exact Or.inl ⟨.number fields, rfl, .number fields, rfl⟩
  | beginArray =>
      cases h
      exact Or.inr ⟨rfl, rfl⟩
  | beginObject =>
      cases h
      exact Or.inr ⟨rfl, rfl⟩
  | _ => cases h

theorem reads_move {name : Units} {place place' : Place} {found : List Token} {token : Token}
    (h : Reads name place found) (hmove : Move place token place') :
    Reads name place' (found ++ if place.state.expects name then [token] else []) := by
  cases hmove with
  | name hdecode =>
      cases h with
      | key h =>
          rw [show (Place.key _).state.expects name = false from rfl, if_neg Bool.false_ne_true,
            List.append_nil]
          exact .colon h
  | empty =>
      cases h with
      | key h =>
          rw [show (Place.key []).state.expects name = false from rfl, if_neg Bool.false_ne_true,
            List.append_nil]
          exact .done h
  | colon =>
      cases h with
      | colon h =>
          rw [show (Place.colon _ _).state.expects name = false from rfl, if_neg Bool.false_ne_true,
            List.append_nil]
          exact .start h
  | @comma members other v =>
      rw [if_neg (by rw [Place.state, expects_above]; simp), List.append_nil]
      cases h with
      | nested hdeep => cases hdeep
      | value h => exact .key h
  | @close members other v =>
      rw [if_neg (by rw [Place.state, expects_above]; simp), List.append_nil]
      cases h with
      | nested hdeep => cases hdeep
      | value h => exact .done h
  | @inner members other state next token hopen hstep =>
      cases h with
      | value h => cases hopen
      | @start _ _ found h =>
          have hexpects : (Place.inside members other (.value [])).state.expects name = true ↔
              other = name := by
            rw [Place.state, expects_above]
            simp
          simp only [hexpects]
          rcases first_token hstep with ⟨v, rfl, hbegins, _⟩ | ⟨hopens, hnext⟩
          · apply Reads.value
            rw [valuesAt_concat]
            by_cases hname : other = name
            · rw [if_pos hname, if_pos hname]
              exact List.rel_append h (.cons hbegins .nil)
            · rw [if_neg hname, if_neg hname, List.append_nil, List.append_nil]
              exact h
          · exact .nested (depth_pos_of_step hstep hnext) hopens h
      | @nested _ _ found first _ hdeep hopens h =>
          have hinside : (Place.inside members other state).state.expects name = false := by
            rw [Bool.eq_false_iff, Ne, Place.state, expects_above]
            rintro ⟨hvalue, _⟩
            rw [hvalue] at hdeep
            cases hdeep
          rw [hinside, if_neg Bool.false_ne_true, List.append_nil]
          cases hfinished : finished next with
          | none => exact .nested (depth_pos_of_step hstep hfinished) hopens h
          | some v =>
              obtain ⟨hnext, hzero⟩ := depth_of_finished hfinished
              have hdepth := depth_step hstep
              have hshuts : token.shuts = true := by
                by_contra hnot
                rw [if_neg hnot] at hdepth
                omega
              rw [hnext] at hstep ⊢
              apply Reads.value
              rw [valuesAt_concat]
              by_cases hname : other = name
              · rw [if_pos hname, if_pos hname]
                exact List.rel_append h
                  (.cons (.compound hopens (compound_of_shuts hshuts hstep)) .nil)
              · rw [if_neg hname, if_neg hname, List.append_nil, List.append_nil]
                exact h

/-- The values under a name begin at the occurrences of the name, in their order. -/
theorem occurrences_begin (name : Units) {tokens : List Token} {members : List (Units × Value)}
    (h : run (.value []) tokens = some (.after [] (.object members))) :
    List.Forall₂ Begins (occurrences name (.value []) tokens) (valuesAt name members) := by
  have hreads : Reads name (.done members) (occurrences name (.value []) tokens) := by
    apply run_places (P := fun place before => Reads name place (occurrences name (.value []) before))
      _ _ h
    · exact .key .nil
    · intro place before token place' hrun hplace hmoved
      rw [occurrences_concat name hrun]
      exact reads_move hplace hmoved
  cases hreads with
  | done h => exact h

/-! ### Texts that are no object -/

theorem InArray.occurrences {state : State} (h : InArray state) (name : Units)
    (tokens : List Token) : occurrences name state tokens = [] := by
  induction tokens generalizing state with
  | nil => rfl
  | cons token rest ih =>
      have hexpects : state.expects name = false := by
        cases h with
        | first => rfl
        | done items => rfl
        | inside items inner =>
            cases inner with
            | value stack =>
                cases stack with
                | nil => rfl
                | cons frame more => cases more <;> cases frame <;> rfl
            | _ => rfl
      rw [Parse.occurrences, hexpects]
      cases hstep : Parse.step state token with
      | none => rfl
      | some next => exact ih (h.step hstep)

theorem exists_place_of_run {place : Place} {tokens : List Token} {last : State}
    (h : run place.state tokens = some last) : ∃ place' : Place, last = place'.state := by
  induction tokens generalizing place with
  | nil => exact ⟨place, (Option.some.inj h).symm⟩
  | cons token rest ih =>
      obtain ⟨next, hstep, hrest⟩ := Option.bind_eq_some_iff.mp h
      obtain ⟨place', rfl, _⟩ := move_of_step hstep
      exact ih hrest

theorem occurrences_other (name : Units) {tokens : List Token} {value : Value}
    (h : run (.value []) tokens = some (.after [] value))
    (hother : ∀ members, value ≠ .object members) : occurrences name (.value []) tokens = [] := by
  cases tokens with
  | nil => rfl
  | cons token rest =>
      obtain ⟨next, hstep, hrun⟩ := Option.bind_eq_some_iff.mp h
      rw [occurrences, hstep]
      show occurrences name next rest = []
      rcases first_token hstep with ⟨v, rfl, _, _⟩ | ⟨hopens, _⟩
      · cases rest with
        | nil => rfl
        | cons other more => cases hrun
      · cases token with
        | beginArray =>
            cases hstep
            exact InArray.first.occurrences name rest
        | beginObject =>
            cases hstep
            obtain ⟨place, hplace⟩ :=
              exists_place_of_run (show run (Place.key []).state rest = _ from hrun)
            -- the last place of an object is its end
            cases place with
            | done members =>
                cases hplace
                exact absurd rfl (hother members)
            | inside members other state =>
                cases state with
                | after stack v => simp [Place.state, State.above] at hplace
                | _ => cases hplace
            | _ => cases hplace
        | _ => cases hopens

end Js.Parse
