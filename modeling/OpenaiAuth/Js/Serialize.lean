import OpenaiAuth.Js.Canonical

/-! # Texts of values

`JSON.stringify` writes a value token by token, and `JSON.parse` reads it back: with its
keys where they were, and with `null` for a number that is not finite. `spelled` stands
for `String(number)`, a JSON number, and `read` for the number that one denotes, `none`
for one beyond the finite numbers.

Main result: `stringify_stable_iff`. Two values have one canonical text just when they
are the same but for the order of their keys.
-/

namespace Js.Canonical

open Js.Parse

variable {ν : Type}

/-- How numbers are written and read. -/
structure Numerals (ν : Type) where
  spelled : ν → NumberFields
  read : NumberFields → Option ν

/-- A number is written as a JSON number, and that is read as the number. -/
structure Numerals.RoundTrip (numerals : Numerals ν) : Prop where
  wellFormed : ∀ n, (numerals.spelled n).WellFormed
  read : ∀ n, numerals.read (numerals.spelled n) = some n

namespace Value

variable (numerals : Numerals ν)

/-! ## Writing -/

/-- The items' tokens with commas between them. -/
def joinItems : List (List Token) → List Token
  | [] => []
  | [tokens] => tokens
  | tokens :: more :: rest => tokens ++ .comma :: joinItems (more :: rest)

def joinMember (member : Units × List Token) : List Token :=
  .string (Units.quoteUnits member.1) :: .colon :: member.2

mutual

/-- What `JSON.stringify(value)` writes. -/
def tokens : Value ν → List Token
  | .null => [.null]
  | .bool b => [.bool b]
  | .num n => [.number (numerals.spelled n)]
  | .overflow _ => [.null]
  | .str s => [.string (Units.quoteUnits s)]
  | .arr items => .beginArray :: (joinItems (itemTokens items) ++ [.endArray])
  | .obj members => .beginObject :: (joinItems (memberTokens members) ++ [.endObject])

def itemTokens : List (Value ν) → List (List Token)
  | [] => []
  | v :: vs => tokens v :: itemTokens vs

def memberTokens : List (Units × Value ν) → List (List Token)
  | [] => []
  | (key, v) :: rest => joinMember (key, tokens v) :: memberTokens rest

end

/-- `JSON.stringify(value)` -/
def stringify (v : Value ν) : Units := (tokens numerals v).flatMap Token.text

theorem itemTokens_eq (items : List (Value ν)) :
    itemTokens numerals items = items.map (tokens numerals) := by
  induction items with
  | nil => rfl
  | cons v vs ih => rw [itemTokens, ih, List.map_cons]

theorem memberTokens_eq (members : List (Units × Value ν)) :
    memberTokens numerals members = (mapValues (tokens numerals) members).map joinMember := by
  induction members with
  | nil => rfl
  | cons m rest ih =>
    rw [memberTokens, ih]
    rfl

/-! ## One text -/

variable {numerals}

/-- The same values are written alike once their keys are sorted. -/
theorem Same.tokens_stable {a b : Value ν} (h : Same a b) (ha : a.WellFormed)
    (hb : b.WellFormed) : tokens numerals a.stable = tokens numerals b.stable := by
  induction h with
  | @isNull a b hnull hnull' =>
    have written (v : Value ν) (hv : v.isNull = true) : tokens numerals v.stable = [.null] := by
      cases v with
      | null => rfl
      | overflow negative => rfl
      | _ => cases hv
    rw [written a hnull, written b hnull']
  | bool b => rfl
  | num n => rfl
  | str s => rfl
  | @arr items items' hlength _ ih =>
    have hitems : items.map (fun v => tokens numerals v.stable) =
        items'.map (fun v => tokens numerals v.stable) := by
      refine List.ext_getElem? fun i => ?_
      rw [List.getElem?_map, List.getElem?_map]
      cases hx : items[i]? with
      | none =>
        rw [List.getElem?_eq_none (hlength ▸ List.getElem?_eq_none_iff.mp hx)]
      | some x =>
        have hi : i < items'.length := hlength ▸ (List.getElem?_eq_some_iff.mp hx).1
        rw [List.getElem?_eq_getElem hi, Option.map_some, Option.map_some,
          ih i x items'[i] hx (List.getElem?_eq_getElem hi)
            (wellFormed_arr.mp ha x (List.mem_of_getElem? hx))
            (wellFormed_arr.mp hb _ (List.getElem_mem hi))]
    simp only [stable, tokens, stableItems_eq, itemTokens_eq, List.map_map]
    exact congrArg (fun written => Token.beginArray :: (joinItems written ++ [.endArray])) hitems
  | @obj members members' hkeys _ ih =>
    obtain ⟨honce, hvalues⟩ := wellFormed_obj.mp ha
    obtain ⟨honce', hvalues'⟩ := wellFormed_obj.mp hb
    -- under each key both have the same tokens, so they are the same entries in some order
    have hlookup (key : Units) :
        (mapValues (fun v => tokens numerals v.stable) members).lookup key =
          (mapValues (fun v => tokens numerals v.stable) members').lookup key := by
      rw [lookup_mapValues, lookup_mapValues]
      cases hx : members.lookup key with
      | none =>
        have hnone := hkeys key
        rw [hx, Option.isSome_none] at hnone
        have hy : members'.lookup key = none := by simpa using hnone.symm
        rw [hy]
      | some x =>
        have hsome := hkeys key
        rw [hx, Option.isSome_some] at hsome
        obtain ⟨y, hy⟩ := Option.isSome_iff_exists.mp hsome.symm
        rw [hy, Option.map_some, Option.map_some, ih key x y hx hy
          (hvalues _ (mem_of_lookup hx)) (hvalues' _ (mem_of_lookup hy))]
    have hperm := perm_of_lookup (honce.mapValues _) (honce'.mapValues _) hlookup
    have harranged := arrange_eq_of_perm (honce.mapValues _) hperm
    have written (members : List (Units × Value ν)) (honce : KeysOnce members) :
        tokens numerals (Value.obj members).stable =
          .beginObject :: (joinItems ((arrange
            (mapValues (fun v => tokens numerals v.stable) members)).map joinMember) ++
              [.endObject]) := by
      simp only [stable, tokens, stableMembers_eq, memberTokens_eq]
      rw [arrange_mapValues _ (honce.mapValues _)]
      simp only [mapValues, List.map_map]
      rfl
    rw [written members honce, written members' honce', harranged]

/-! ## Reading back -/

variable (numerals)

mutual

/-- What the machine makes of a value's tokens. -/
def parsed : Value ν → Parse.Value
  | .null => .null
  | .bool b => .bool b
  | .num n => .number (numerals.spelled n)
  | .overflow _ => .null
  | .str s => .string s
  | .arr items => .array (parsedItems items)
  | .obj members => .object (parsedMembers members)

def parsedItems : List (Value ν) → List Parse.Value
  | [] => []
  | v :: vs => parsed v :: parsedItems vs

def parsedMembers : List (Units × Value ν) → List (Units × Parse.Value)
  | [] => []
  | (key, v) :: rest => (key, parsed v) :: parsedMembers rest

end

theorem parsedItems_eq (items : List (Value ν)) :
    parsedItems numerals items = items.map (parsed numerals) := by
  induction items with
  | nil => rfl
  | cons v vs ih => rw [parsedItems, ih, List.map_cons]

theorem parsedMembers_eq (members : List (Units × Value ν)) :
    parsedMembers numerals members = mapValues (parsed numerals) members := by
  induction members with
  | nil => rfl
  | cons m rest ih =>
    rw [parsedMembers, ih]
    rfl

/-- The tokens of a value are read as a value, whatever is open around it. -/
def ReadsBack (v : Value ν) : Prop :=
  ∀ stack, run (.value stack) (tokens numerals v) = some (.after stack (parsed numerals v))

theorem ReadsBack.run {v : Value ν} (h : ReadsBack numerals v) (stack : List Frame)
    (rest : List Token) :
    Parse.run (.value stack) (tokens numerals v ++ rest) =
      Parse.run (.after stack (parsed numerals v)) rest := by
  rw [run_append, h stack]
  rfl

/-- No value begins with the end of an array. -/
theorem run_first (v : Value ν) (stack : List Frame) (rest : List Token) :
    Parse.run (.first stack) (tokens numerals v ++ rest) =
      Parse.run (.value (.array [] :: stack)) (tokens numerals v ++ rest) := by
  cases v <;> rfl

theorem run_items {items : List (Value ν)} (h : ∀ v ∈ items, ReadsBack numerals v)
    (hne : items ≠ []) (done : List Parse.Value) (stack : List Frame) (rest : List Token) :
    Parse.run (.value (.array done :: stack))
        (joinItems (items.map (tokens numerals)) ++ .endArray :: rest) =
      Parse.run (.after stack (.array (done ++ items.map (parsed numerals)))) rest := by
  induction items generalizing done with
  | nil => exact absurd rfl hne
  | cons v vs ih =>
    have hv := h v (List.mem_cons_self ..)
    cases vs with
    | nil =>
      rw [List.map_cons, List.map_nil, joinItems, hv.run]
      rfl
    | cons w ws =>
      have hrest := ih (fun v hv => h v (List.mem_cons_of_mem _ hv)) (by simp)
        (done ++ [parsed numerals v])
      rw [List.map_cons, List.map_cons] at hrest ⊢
      rw [joinItems, List.append_assoc, hv.run]
      refine Eq.trans ?_ (hrest.trans ?_)
      · rfl
      · rw [List.append_assoc]
        rfl

theorem run_key (members : List (Units × Parse.Value)) (key : Units) (stack : List Frame)
    (rest : List Token) :
    Parse.run (.key members stack) (.string (Units.quoteUnits key) :: .colon :: rest) =
      Parse.run (.value (.object members key :: stack)) rest := by
  have hstep : step (.key members stack) (.string (Units.quoteUnits key)) =
      some (.colon members key stack) := by
    cases members <;> rw [step, decodeString_quoteUnits] <;> rfl
  rw [Parse.run, hstep]
  rfl

theorem run_members {members : List (Units × Value ν)}
    (h : ∀ m ∈ members, ReadsBack numerals m.2) (hne : members ≠ [])
    (done : List (Units × Parse.Value)) (stack : List Frame) (rest : List Token) :
    Parse.run (.key done stack)
        (joinItems ((mapValues (tokens numerals) members).map joinMember) ++ .endObject :: rest) =
      Parse.run (.after stack (.object (done ++ mapValues (parsed numerals) members))) rest := by
  induction members generalizing done with
  | nil => exact absurd rfl hne
  | cons m ms ih =>
    obtain ⟨key, v⟩ := m
    have hv : ReadsBack numerals v := h (key, v) (List.mem_cons_self ..)
    cases ms with
    | nil =>
      simp only [mapValues, List.map_cons, List.map_nil, joinItems, joinMember, List.cons_append]
      rw [run_key, hv.run]
      rfl
    | cons m' ms =>
      have hrest := ih (fun m hm => h m (List.mem_cons_of_mem _ hm)) (by simp)
        (done ++ [(key, parsed numerals v)])
      simp only [mapValues, List.map_cons, joinItems, joinMember, List.cons_append,
        List.append_assoc, List.nil_append] at hrest ⊢
      rw [run_key, hv.run]
      exact hrest

theorem readsBack (v : Value ν) : ReadsBack numerals v := by
  induction v using inductMem with
  | null => exact fun _ => rfl
  | bool b => exact fun _ => rfl
  | num n => exact fun _ => rfl
  | overflow negative => exact fun _ => rfl
  | str s =>
    intro stack
    rw [tokens, Parse.run, step, valueStep, decodeString_quoteUnits]
    rfl
  | arr items ih =>
    intro stack
    rw [tokens, parsed, itemTokens_eq, parsedItems_eq]
    cases items with
    | nil => rfl
    | cons v vs =>
      have hitems := run_items numerals ih (by simp) [] stack []
      rw [List.nil_append] at hitems
      refine Eq.trans ?_ hitems
      -- the opening bracket, and the first item in its place
      have hfirst : ∃ more, joinItems ((v :: vs).map (tokens numerals)) ++ [.endArray] =
          tokens numerals v ++ more := by
        cases vs with
        | nil => exact ⟨[.endArray], rfl⟩
        | cons w ws =>
          exact ⟨_, by rw [List.map_cons, List.map_cons, joinItems, List.append_assoc]⟩
      obtain ⟨more, hmore⟩ := hfirst
      rw [hmore]
      exact run_first numerals v stack more
  | obj members ih =>
    intro stack
    rw [tokens, parsed, memberTokens_eq, parsedMembers_eq]
    cases members with
    | nil => rfl
    | cons m ms =>
      have hmembers := run_members numerals ih (by simp) [] stack []
      rw [List.nil_append] at hmembers
      exact hmembers

/-! ## The text -/

theorem tokens_proper (hround : numerals.RoundTrip) (v : Value ν) :
    ∀ token ∈ tokens numerals v, token.Proper := by
  have joined {parts : List (List Token)} (h : ∀ part ∈ parts, ∀ token ∈ part, token.Proper) :
      ∀ token ∈ joinItems parts, token.Proper := by
    induction parts with
    | nil => simp [joinItems]
    | cons part rest ih =>
      cases rest with
      | nil => exact h part (List.mem_cons_self ..)
      | cons more rest =>
        intro token htoken
        rw [joinItems, List.mem_append, List.mem_cons] at htoken
        rcases htoken with htoken | rfl | htoken
        · exact h part (List.mem_cons_self ..) token htoken
        · trivial
        · exact ih (fun part hpart => h part (List.mem_cons_of_mem _ hpart)) token htoken
  induction v using inductMem with
  | num n =>
    intro token htoken
    rw [tokens, List.mem_singleton] at htoken
    rw [htoken]
    exact hround.wellFormed n
  | str s =>
    intro token htoken
    rw [tokens, List.mem_singleton] at htoken
    rw [htoken]
    exact Token.proper_quoted s
  | arr items ih =>
    intro token htoken
    rw [tokens, itemTokens_eq, List.mem_cons, List.mem_append, List.mem_singleton] at htoken
    rcases htoken with rfl | htoken | rfl
    · trivial
    · refine joined (fun part hpart => ?_) token htoken
      obtain ⟨v, hv, rfl⟩ := List.mem_map.mp hpart
      exact ih v hv
    · trivial
  | obj members ih =>
    intro token htoken
    rw [tokens, memberTokens_eq, List.mem_cons, List.mem_append, List.mem_singleton] at htoken
    rcases htoken with rfl | htoken | rfl
    · trivial
    · refine joined (fun part hpart token' htoken' => ?_) token htoken
      obtain ⟨m', hm', rfl⟩ := List.mem_map.mp hpart
      obtain ⟨m, hm, rfl⟩ := List.mem_map.mp hm'
      rw [joinMember, List.mem_cons, List.mem_cons] at htoken'
      rcases htoken' with rfl | rfl | htoken'
      · exact Token.proper_quoted m.1
      · trivial
      · exact ih m hm token' htoken'
    · trivial
  | _ =>
    intro token htoken
    rw [tokens, List.mem_singleton] at htoken
    rw [htoken]
    trivial

/-- The text is spelled by its tokens, without whitespace. -/
theorem stringify_eq_spell (v : Value ν) :
    stringify numerals v = spell ((tokens numerals v).map (⟨[], ·⟩)) [] := by
  unfold stringify
  induction tokens numerals v with
  | nil => rfl
  | cons token rest ih =>
    rw [List.flatMap_cons, ih]
    simp [spell]

theorem parse_stringify (hround : numerals.RoundTrip) (v : Value ν) :
    parse (stringify numerals v) = some (parsed numerals v) := by
  have hrun := readsBack numerals v []
  have hspelling : Spelling ((tokens numerals v).map (⟨[], ·⟩)) [] := by
    constructor
    · intro piece hpiece
      obtain ⟨token, -, rfl⟩ := List.mem_map.mp hpiece
      simp [White]
    · simp [White]
    · intro piece hpiece
      obtain ⟨token, htoken, rfl⟩ := List.mem_map.mp hpiece
      exact tokens_proper numerals hround v token htoken
  have htokens : ((tokens numerals v).map (Piece.mk [])).map Piece.token = tokens numerals v := by
    rw [List.map_map]
    exact List.map_id _
  have hlex := lex_spell hspelling (by rw [htokens]; exact numbersStop_of_run hrun)
  rw [← stringify_eq_spell, htokens] at hlex
  unfold parse
  rw [hlex]
  simp only [Option.bind_eq_bind, Option.bind_some, hrun]
  rfl

/-! ## `JSON.parse` on a text that was written -/

mutual

/-- The value that has been read, its objects built key by key. -/
def ofParsed : Parse.Value → Value ν
  | .null => .null
  | .bool b => .bool b
  | .number fields =>
      match numerals.read fields with
      | some n => .num n
      | none => .overflow (fields.sign ≠ [])
  | .string s => .str s
  | .array items => .arr (ofParsedItems items)
  | .object members => .obj (fromEntries (ofParsedMembers members))

def ofParsedItems : List Parse.Value → List (Value ν)
  | [] => []
  | v :: vs => ofParsed v :: ofParsedItems vs

def ofParsedMembers : List (Units × Parse.Value) → List (Units × Value ν)
  | [] => []
  | (key, v) :: rest => (key, ofParsed v) :: ofParsedMembers rest

end

/-- `JSON.parse(text)` -/
def jsonParse (text : Units) : Option (Value ν) := (parse text).map (ofParsed numerals)

theorem ofParsedItems_eq (items : List Parse.Value) :
    ofParsedItems numerals items = items.map (ofParsed numerals) := by
  induction items with
  | nil => rfl
  | cons v vs ih => rw [ofParsedItems, ih, List.map_cons]

theorem ofParsedMembers_eq (members : List (Units × Parse.Value)) :
    ofParsedMembers numerals members = mapValues (ofParsed numerals) members := by
  induction members with
  | nil => rfl
  | cons m rest ih =>
    rw [ofParsedMembers, ih]
    rfl

/-- A value that is written and read. -/
def reread (v : Value ν) : Value ν := ofParsed numerals (parsed numerals v)

theorem jsonParse_stringify (hround : numerals.RoundTrip) (v : Value ν) :
    jsonParse numerals (stringify numerals v) = some (reread numerals v) := by
  rw [jsonParse, parse_stringify numerals hround]
  rfl

theorem reread_arr (items : List (Value ν)) :
    reread numerals (.arr items) = .arr (items.map (reread numerals)) := by
  rw [reread, parsed, ofParsed, ofParsedItems_eq, parsedItems_eq, List.map_map]
  rfl

theorem reread_obj (members : List (Units × Value ν)) :
    reread numerals (.obj members) = .obj (fromEntries (mapValues (reread numerals) members)) := by
  rw [reread, parsed, ofParsed, ofParsedMembers_eq, parsedMembers_eq]
  simp only [mapValues, List.map_map]
  rfl

theorem wellFormed_reread {v : Value ν} (h : v.WellFormed) : (reread numerals v).WellFormed := by
  induction v using inductMem with
  | num n =>
    rw [reread, parsed, ofParsed]
    split <;> trivial
  | arr items ih =>
    rw [reread_arr]
    refine wellFormed_arr.mpr fun w hw => ?_
    obtain ⟨x, hx, rfl⟩ := List.mem_map.mp hw
    exact ih x hx (wellFormed_arr.mp h x hx)
  | obj members ih =>
    obtain ⟨hkeys, hvalues⟩ := wellFormed_obj.mp h
    rw [reread_obj]
    exact wellFormed_rebuilt (reread numerals) h (fun m hm => ih m hm (hvalues m hm))
      (perm_fromEntries (hkeys.mapValues _))
  | _ => trivial

/-- Writing and reading keeps the value. -/
theorem same_reread (hround : numerals.RoundTrip) {v : Value ν} (h : v.WellFormed) :
    Same v (reread numerals v) := by
  induction v using inductMem with
  | null => exact .refl _
  | bool b => exact .refl _
  | num n =>
    rw [reread, parsed, ofParsed, hround.read n]
    exact .refl _
  | overflow negative => exact .isNull rfl rfl
  | str s => exact .refl _
  | arr items ih =>
    rw [reread_arr]
    exact same_arr_map _ fun v hv => ih v hv (wellFormed_arr.mp h v hv)
  | obj members ih =>
    obtain ⟨hkeys, hvalues⟩ := wellFormed_obj.mp h
    rw [reread_obj]
    exact same_obj_rebuilt hkeys _ (fun m hm => ih m hm (hvalues m hm))
      (perm_fromEntries (hkeys.mapValues _))

/-- `stableStringify(value)` -/
def stableStringify (v : Value ν) : Units := stringify numerals v.stable

/-- One canonical text stands for one value up to the order of its keys. -/
theorem stringify_stable_iff (hround : numerals.RoundTrip) {a b : Value ν} (ha : a.WellFormed)
    (hb : b.WellFormed) : stableStringify numerals a = stableStringify numerals b ↔ Same a b := by
  constructor
  · intro h
    have hparsed := congrArg (jsonParse numerals) h
    unfold stableStringify at hparsed
    rw [jsonParse_stringify numerals hround, jsonParse_stringify numerals hround,
      Option.some.injEq] at hparsed
    have hleft := (same_stable ha).trans (same_reread numerals hround ha.stable)
    have hright := (same_stable hb).trans (same_reread numerals hround hb.stable)
    rw [hparsed] at hleft
    exact hleft.trans hright.symm
  · intro h
    unfold stableStringify stringify
    rw [h.tokens_stable ha hb]

end Value

end Js.Canonical
