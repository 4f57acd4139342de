import OpenaiAuth.Js.Text

/-! # Parsing JSON

`JSON.parse`: a scanner cuts the text into tokens, and a machine with a stack of
open arrays and objects reads them. A value keeps the members of an object in
their order, duplicates included, and its numbers as they are spelled.

Main results, for every text that parses:

* `lexed_of_lex`: the tokens lie in the text one after another, with nothing but
  whitespace between them;
* `backed_of_parse`: each member of a value is spelled by a key, a colon and,
  where it is a string, that string, side by side among the tokens.
-/

namespace Js.Parse

/-! ## Numbers -/

def isDigit (c : Nat) : Bool := 48 ≤ c && c ≤ 57

/-- The groups of `(-?)(0|[1-9]\d*)(?:\.(\d+))?(?:[eE]([+-]?\d+))?`. An exponent
keeps its letter and its sign. -/
structure NumberFields where
  sign : Units
  whole : Units
  fraction : Option Units
  exponent : Option (Nat × Units)
deriving DecidableEq, Repr

def NumberFields.text (fields : NumberFields) : Units :=
  fields.sign ++ fields.whole ++ fields.fraction.elim [] (46 :: ·) ++
    fields.exponent.elim [] fun e => e.1 :: e.2

def wholeAt (text : Units) : Option Units :=
  match text with
  | 48 :: _ => some [48]
  | c :: _ => if isDigit c then some (text.takeWhile isDigit) else none
  | [] => none

def fractionAt (text : Units) : Option Units :=
  match text with
  | 46 :: rest =>
      if rest.takeWhile isDigit = [] then none else some (rest.takeWhile isDigit)
  | _ => none

def exponentAt (text : Units) : Option (Nat × Units) :=
  match text with
  | letter :: rest =>
      let sign := (rest.take 1).filter fun c => c = 43 || c = 45
      let digits := (rest.drop sign.length).takeWhile isDigit
      if (letter = 101 ∨ letter = 69) ∧ digits ≠ [] then some (letter, sign ++ digits) else none
  | [] => none

/-- The number a text begins with. -/
def numberAt (text : Units) : Option NumberFields :=
  let sign : Units := if text.head? = some 45 then [45] else []
  (wholeAt (text.drop sign.length)).map fun whole =>
    let fraction := fractionAt (text.drop (sign ++ whole).length)
    let decimal := sign ++ whole ++ fraction.elim [] (46 :: ·)
    { sign, whole, fraction, exponent := exponentAt (text.drop decimal.length) }

/-- The value of decimal digits. -/
def decimal (digits : Units) : Nat := digits.foldl (fun value digit => value * 10 + (digit - 48)) 0

/-- Without the sign, the value is `coefficient * 10 ^ scale`. -/
def NumberFields.coefficient (fields : NumberFields) : Nat :=
  decimal (fields.whole ++ fields.fraction.getD [])

def NumberFields.scale (fields : NumberFields) : Int :=
  let exponent := (fields.exponent.map Prod.snd).getD []
  let size : Int := decimal (exponent.filter isDigit)
  (if exponent.head? = some 45 then -size else size) - (fields.fraction.getD []).length

/-- The nearest double is infinite: the value is not below the middle between the
greatest double and the power of two that would follow it. -/
def NumberFields.isInfinite (fields : NumberFields) : Bool :=
  (2 ^ 1024 - 2 ^ 970) * 10 ^ (-fields.scale).toNat ≤ fields.coefficient * 10 ^ fields.scale.toNat

/-- The nearest double is zero: the value is at most half of the least double. -/
def NumberFields.isZero (fields : NumberFields) : Bool :=
  fields.coefficient * 10 ^ fields.scale.toNat * 2 ^ 1075 ≤ 10 ^ (-fields.scale).toNat

/-! ## Strings -/

/-- What stands between an opening quote and the closing one. -/
def stringBody : Units → Option Units
  | [] => none
  | 34 :: _ => some []
  | 92 :: c :: rest => (stringBody rest).map fun body => 92 :: c :: body
  | c :: rest => (stringBody rest).map (c :: ·)

def simpleEscape (c : Nat) : Option Nat :=
  if c = 34 ∨ c = 92 ∨ c = 47 then some c
  else if c = 98 then some 8
  else if c = 102 then some 12
  else if c = 110 then some 10
  else if c = 114 then some 13
  else if c = 116 then some 9
  else none

/-- The string a body spells; `none` for a wrong escape or a control character. -/
def decodeString : Units → Option Units
  | [] => some []
  | 92 :: 117 :: a :: b :: c :: d :: rest => do
      let value ← Units.fourHex [a, b, c, d]
      let decoded ← decodeString rest
      return value :: decoded
  | 92 :: e :: rest => do
      let value ← simpleEscape e
      let decoded ← decodeString rest
      return value :: decoded
  | c :: rest =>
      if c < 32 ∨ c = 92 then none
      else do
        let decoded ← decodeString rest
        return c :: decoded

/-! ## Tokens -/

inductive Token where
  | beginArray
  | endArray
  | beginObject
  | endObject
  | colon
  | comma
  | null
  | bool (value : Bool)
  | number (fields : NumberFields)
  | string (body : Units)
deriving DecidableEq, Repr

def Token.text : Token → Units
  | .beginArray => [91]
  | .endArray => [93]
  | .beginObject => [123]
  | .endObject => [125]
  | .colon => [58]
  | .comma => [44]
  | .null => Units.of "null"
  | .bool true => Units.of "true"
  | .bool false => Units.of "false"
  | .number fields => fields.text
  | .string body => 34 :: (body ++ [34])

def isWhite (c : Nat) : Bool := c = 32 || c = 9 || c = 10 || c = 13

/-- The tokens with one spelling. -/
def fixedTokens : List Token :=
  [.beginArray, .endArray, .beginObject, .endObject, .colon, .comma, .null, .bool true, .bool false]

def stringAt (text : Units) : Option Token :=
  match text with
  | 34 :: rest => do
      let body ← stringBody rest
      let _ ← decodeString body
      return .string body
  | _ => none

def tokenAt (text : Units) : Option Token :=
  (fixedTokens.find? fun token => token.text.isPrefixOf text).or
    ((stringAt text).or ((numberAt text).map .number))

/-- `skip` units of a token are still to be passed. -/
def lexFrom : Nat → Units → Option (List Token)
  | _, [] => some []
  | skip + 1, _ :: rest => lexFrom skip rest
  | 0, c :: rest =>
      if isWhite c then lexFrom 0 rest
      else do
        let token ← tokenAt (c :: rest)
        let more ← lexFrom (token.text.length - 1) rest
        return token :: more

def lex (text : Units) : Option (List Token) := lexFrom 0 text

/-! ## Values -/

inductive Value where
  | null
  | bool (value : Bool)
  | number (fields : NumberFields)
  | string (text : Units)
  | array (items : List Value)
  | object (members : List (Units × Value))

/-- An array or an object that is being read; an object knows the key whose value
comes next. -/
inductive Frame where
  | array (items : List Value)
  | object (members : List (Units × Value)) (key : Units)

/-- What may come next: a value, the first value of an array, a key, a colon, or
what follows a value. -/
inductive State where
  | value (stack : List Frame)
  | first (stack : List Frame)
  | key (members : List (Units × Value)) (stack : List Frame)
  | colon (members : List (Units × Value)) (key : Units) (stack : List Frame)
  | after (stack : List Frame) (value : Value)

def valueStep (stack : List Frame) : Token → Option State
  | .null => some (.after stack .null)
  | .bool value => some (.after stack (.bool value))
  | .number fields => some (.after stack (.number fields))
  | .string body => (decodeString body).map fun text => .after stack (.string text)
  | .beginArray => some (.first stack)
  | .beginObject => some (.key [] stack)
  | _ => none

def step : State → Token → Option State
  | .value stack, token => valueStep stack token
  | .first stack, .endArray => some (.after stack (.array []))
  | .first stack, token => valueStep (.array [] :: stack) token
  | .key members stack, .string body =>
      (decodeString body).map fun key => .colon members key stack
  | .key [] stack, .endObject => some (.after stack (.object []))
  | .colon members key stack, .colon => some (.value (.object members key :: stack))
  | .after (.array items :: stack) v, .comma => some (.value (.array (items ++ [v]) :: stack))
  | .after (.array items :: stack) v, .endArray => some (.after stack (.array (items ++ [v])))
  | .after (.object members key :: stack) v, .comma => some (.key (members ++ [(key, v)]) stack)
  | .after (.object members key :: stack) v, .endObject =>
      some (.after stack (.object (members ++ [(key, v)])))
  | _, _ => none

def run : State → List Token → Option State
  | state, [] => some state
  | state, token :: rest => (step state token).bind fun next => run next rest

def finished : State → Option Value
  | .after [] v => some v
  | _ => none

/-- `JSON.parse` -/
def parse (text : Units) : Option Value := do
  let tokens ← lex text
  let state ← run (.value []) tokens
  finished state

/-- `value?.[key]` of a parsed value: of two members with one key the later is found. -/
def Value.get? (key : Units) : Value → Option Value
  | .object members => (members.reverse.find? fun member => member.1 = key).map Prod.snd
  | _ => none

/-- Whether a parsed value, or the `undefined` of a missing member, is truthy. -/
def truthy : Option Value → Bool
  | none | some .null => false
  | some (.bool value) => value
  | some (.number fields) => !fields.isZero
  | some (.string text) => !text.isEmpty
  | some (.array _) | some (.object _) => true

/-! ## Tokens are spelled by the text -/

theorem wholeAt_prefix {text whole : Units} (h : wholeAt text = some whole) :
    whole <+: text ∧ whole ≠ [] := by
  unfold wholeAt at h
  split at h
  · rw [← Option.some.inj h]
    exact ⟨List.prefix_append [48] _, by simp⟩
  · rename_i c rest _
    split at h
    · rename_i hdigit
      rw [← Option.some.inj h]
      refine ⟨List.takeWhile_prefix _, ?_⟩
      simp [hdigit]
    · cases h
  · cases h

theorem fractionAt_prefix {text fraction : Units} (h : fractionAt text = some fraction) :
    46 :: fraction <+: text := by
  unfold fractionAt at h
  split at h
  · split at h
    · cases h
    · rw [← Option.some.inj h]
      exact (List.prefix_cons_inj 46).mpr (List.takeWhile_prefix _)
  · cases h

theorem exponentAt_prefix {text : Units} {exponent : Nat × Units}
    (h : exponentAt text = some exponent) : exponent.1 :: exponent.2 <+: text := by
  unfold exponentAt at h
  split at h
  · rename_i letter rest
    simp only at h
    split at h
    · rw [← Option.some.inj h]
      apply (List.prefix_cons_inj letter).mpr
      -- the sign is the rest's first unit or nothing
      have hsign : ((rest.take 1).filter fun c => c = 43 || c = 45) ++
          rest.drop ((rest.take 1).filter fun c => c = 43 || c = 45).length = rest := by
        cases rest with
        | nil => rfl
        | cons c tail =>
            by_cases hc : (c = 43 || c = 45) = true
            · simp [hc]
            · simp [hc]
      have hdigits := List.prefix_append_right_inj
        ((rest.take 1).filter fun c => c = 43 || c = 45) |>.mpr
        (List.takeWhile_prefix isDigit (l := rest.drop
          ((rest.take 1).filter fun c => c = 43 || c = 45).length))
      rwa [hsign] at hdigits
    · cases h
  · cases h

theorem prefix_drop_append {a b text : Units} (ha : a <+: text) (hb : b <+: text.drop a.length) :
    a ++ b <+: text := by
  rcases ha with ⟨rest, rfl⟩
  rw [List.drop_left] at hb
  exact (List.prefix_append_right_inj a).mpr hb

theorem numberAt_prefix {text : Units} {fields : NumberFields} (h : numberAt text = some fields) :
    fields.text <+: text ∧ fields.text ≠ [] := by
  rcases Option.map_eq_some_iff.mp h with ⟨whole, hwhole, hfields⟩
  have hsign : (if text.head? = some 45 then [45] else []) <+: text := by
    split
    · rename_i hhead
      cases text with
      | nil => cases hhead
      | cons c rest =>
          rw [List.head?_cons, Option.some.injEq] at hhead
          rw [hhead]
          exact List.prefix_append [45] rest
    · exact List.nil_prefix
  have hwholes := wholeAt_prefix hwhole
  rw [← hfields]
  simp only [NumberFields.text]
  constructor
  · apply prefix_drop_append
    · apply prefix_drop_append (prefix_drop_append hsign hwholes.1)
      cases hfraction : fractionAt (text.drop _) with
      | none => exact List.nil_prefix
      | some fraction => exact fractionAt_prefix hfraction
    · cases hexponent : exponentAt (text.drop _) with
      | none => exact List.nil_prefix
      | some exponent => exact exponentAt_prefix hexponent
  · intro hnil
    simp [hwholes.2] at hnil

theorem stringBody_leads {text body : Units} (h : stringBody text = some body) :
    body ++ [34] <+: text := by
  induction text using stringBody.induct generalizing body with
  | case1 => cases h
  | case2 rest =>
      rw [stringBody, Option.some.injEq] at h
      rw [← h]
      exact List.prefix_append [34] rest
  | case3 c rest ih =>
      rw [stringBody, Option.map_eq_some_iff] at h
      rcases h with ⟨tail, htail, heq⟩
      rw [← heq]
      exact (List.prefix_cons_inj 92).mpr ((List.prefix_cons_inj c).mpr (ih htail))
  | case4 c rest hquote hescape ih =>
      rw [stringBody, Option.map_eq_some_iff] at h
      · rcases h with ⟨tail, htail, heq⟩
        rw [← heq]
        exact (List.prefix_cons_inj c).mpr (ih htail)
      · exact hquote
      · exact hescape

theorem tokenAt_leads {text : Units} {token : Token} (h : tokenAt text = some token) :
    token.text <+: text ∧ token.text ≠ [] := by
  rcases Option.or_eq_some_iff.mp h with hfixed | ⟨-, h⟩
  · have hleads := List.find?_some hfixed
    rw [List.isPrefixOf_iff_prefix] at hleads
    have hspelled : ∀ token ∈ fixedTokens, token.text ≠ [] := by decide
    exact ⟨hleads, hspelled token (List.mem_of_find?_eq_some hfixed)⟩
  · rcases Option.or_eq_some_iff.mp h with hstring | ⟨-, hnumber⟩
    · unfold stringAt at hstring
      split at hstring
      · rename_i rest
        rcases Option.bind_eq_some_iff.mp hstring with ⟨body, hbody, hrest⟩
        rcases Option.bind_eq_some_iff.mp hrest with ⟨_, _, htoken⟩
        rw [← Option.some.inj htoken]
        exact ⟨(List.prefix_cons_inj 34).mpr (stringBody_leads hbody), by simp [Token.text]⟩
      · cases hstring
    · rcases Option.map_eq_some_iff.mp hnumber with ⟨fields, hfields, htoken⟩
      rw [← htoken]
      exact numberAt_prefix hfields

/-- The tokens in the text, one after another, with whitespace between them. -/
inductive Lexed : Units → List Token → Prop where
  | nil {white : Units} (hwhite : ∀ c ∈ white, isWhite c = true) : Lexed white []
  | cons {white rest : Units} {token : Token} {tokens : List Token}
      (hwhite : ∀ c ∈ white, isWhite c = true) (hrest : Lexed rest tokens) :
      Lexed (white ++ token.text ++ rest) (token :: tokens)

theorem Lexed.white {c : Nat} (hc : isWhite c = true) {text : Units} {tokens : List Token}
    (h : Lexed text tokens) : Lexed (c :: text) tokens := by
  cases h with
  | nil hwhite =>
      apply Lexed.nil
      intro d hd
      rcases List.mem_cons.mp hd with heq | hd
      · exact heq ▸ hc
      · exact hwhite d hd
  | @cons white rest token tokens hwhite hrest =>
      have hmore : ∀ d ∈ c :: white, isWhite d = true := by
        intro d hd
        rcases List.mem_cons.mp hd with heq | hd
        · exact heq ▸ hc
        · exact hwhite d hd
      exact Lexed.cons hmore hrest

theorem lexFrom_skip (skip : Nat) (text : Units) :
    lexFrom skip text = lexFrom 0 (text.drop skip) := by
  induction skip generalizing text with
  | zero => rfl
  | succ skip ih =>
      cases text with
      | nil => rfl
      | cons c rest => exact ih rest

/-- By induction on a bound for the length: a token takes at least one unit. -/
theorem lexed_of_lexFrom {n : Nat} {text : Units} (hn : text.length ≤ n) {tokens : List Token}
    (h : lexFrom 0 text = some tokens) : Lexed text tokens := by
  induction n generalizing text tokens with
  | zero =>
      rw [List.eq_nil_of_length_eq_zero (Nat.le_zero.mp hn)] at h ⊢
      rw [← Option.some.inj h]
      exact .nil (by simp)
  | succ n ih =>
      cases text with
      | nil =>
          rw [← Option.some.inj h]
          exact .nil (by simp)
      | cons c rest =>
          rw [lexFrom] at h
          have hrest : rest.length ≤ n := by simpa using hn
          split at h
          · rename_i hc
            exact (ih hrest h).white hc
          · rcases Option.bind_eq_some_iff.mp h with ⟨token, htoken, hmore⟩
            rcases Option.bind_eq_some_iff.mp hmore with ⟨more, htail, heq⟩
            rcases tokenAt_leads htoken with ⟨⟨after, hafter⟩, hne⟩
            -- what follows the token is what `skip` passes on
            have hdrop : rest.drop (token.text.length - 1) = after := by
              have hpos : 0 < token.text.length := List.length_pos_iff.mpr hne
              have hboth := congrArg (List.drop token.text.length) hafter
              rw [List.drop_left] at hboth
              rw [hboth, ← Nat.sub_add_cancel hpos]
              rfl
            rw [lexFrom_skip, hdrop] at htail
            rw [← Option.some.inj heq, ← hafter]
            have hshort : after.length ≤ n := by
              rw [← hdrop, List.length_drop]
              omega
            exact @Lexed.cons [] after token more (by simp) (ih hshort htail)

theorem lexed_of_lex {text : Units} {tokens : List Token} (h : lex text = some tokens) :
    Lexed text tokens :=
  lexed_of_lexFrom le_rfl h

/-! ## Members are spelled by tokens -/

/-- A key and a colon stand side by side among the tokens, and a string that is
the member's value follows them. -/
structure Spelled (tokens : List Token) (key : Units) (value : Value) : Prop where
  byKey : ∃ body, decodeString body = some key ∧ [.string body, .colon] <:+: tokens
  byText : ∀ text, value = .string text → ∃ body body', decodeString body = some key ∧
    decodeString body' = some text ∧ [.string body, .colon, .string body'] <:+: tokens

/-- Every member of the value, and of the objects that are its members' values,
is spelled. -/
inductive Backed (tokens : List Token) : Value → Prop where
  | null : Backed tokens .null
  | bool (value : Bool) : Backed tokens (.bool value)
  | number (fields : NumberFields) : Backed tokens (.number fields)
  | string (text : Units) : Backed tokens (.string text)
  | array (items : List Value) : Backed tokens (.array items)
  | object (members : List (Units × Value))
      (hspelled : ∀ member ∈ members, Spelled tokens member.1 member.2)
      (hbacked : ∀ member ∈ members, Backed tokens member.2) : Backed tokens (.object members)

def MembersBacked (tokens : List Token) (members : List (Units × Value)) : Prop :=
  ∀ member ∈ members, Spelled tokens member.1 member.2 ∧ Backed tokens member.2

/-- An open object's members are spelled, and so is the key that is pending. -/
def FrameBacked (tokens : List Token) : Frame → Prop
  | .array _ => True
  | .object members key => MembersBacked tokens members ∧
      ∃ body, decodeString body = some key ∧ [.string body, .colon] <:+: tokens

/-- What has been read so far ends with the key of the innermost frame. -/
def EndsWithKey (tokens : List Token) : List Frame → Prop
  | .object _ key :: _ => ∃ body, decodeString body = some key ∧
      [.string body, .colon] <:+ tokens
  | _ => True

/-- A string that is the value of the innermost frame's key has just been read. -/
def EndsWithText (tokens : List Token) (value : Value) : List Frame → Prop
  | .object _ key :: _ => ∀ text, value = .string text → ∃ body body',
      decodeString body = some key ∧ decodeString body' = some text ∧
        [.string body, .colon, .string body'] <:+ tokens
  | _ => True

/-- What holds of a state after the tokens before it. -/
def StateBacked (tokens : List Token) : State → Prop
  | .value stack => (∀ frame ∈ stack, FrameBacked tokens frame) ∧ EndsWithKey tokens stack
  | .first stack => ∀ frame ∈ stack, FrameBacked tokens frame
  | .key members stack => MembersBacked tokens members ∧ ∀ frame ∈ stack, FrameBacked tokens frame
  | .colon members key stack => MembersBacked tokens members ∧
      (∀ frame ∈ stack, FrameBacked tokens frame) ∧
      ∃ body, decodeString body = some key ∧ [.string body] <:+ tokens
  | .after stack value => (∀ frame ∈ stack, FrameBacked tokens frame) ∧ Backed tokens value ∧
      EndsWithText tokens value stack

section

variable {tokens : List Token} {token : Token}

theorem infix_concat {part : List Token} (h : part <:+: tokens) : part <:+: tokens ++ [token] :=
  h.trans (List.prefix_append tokens [token]).isInfix

theorem Spelled.concat {key : Units} {value : Value} (h : Spelled tokens key value) :
    Spelled (tokens ++ [token]) key value := by
  constructor
  · rcases h.byKey with ⟨body, hdecode, hinside⟩
    exact ⟨body, hdecode, infix_concat hinside⟩
  · intro text htext
    rcases h.byText text htext with ⟨body, body', hkey, hvalue, hinside⟩
    exact ⟨body, body', hkey, hvalue, infix_concat hinside⟩

theorem Backed.concat {value : Value} (h : Backed tokens value) :
    Backed (tokens ++ [token]) value := by
  induction h with
  | null => exact .null
  | bool value => exact .bool value
  | number fields => exact .number fields
  | string text => exact .string text
  | array items => exact .array items
  | object members hspelled _ ih =>
      exact .object members (fun member hmem => (hspelled member hmem).concat) ih

theorem MembersBacked.concat {members : List (Units × Value)} (h : MembersBacked tokens members) :
    MembersBacked (tokens ++ [token]) members := by
  intro member hmem
  exact ⟨(h member hmem).1.concat, (h member hmem).2.concat⟩

theorem FrameBacked.concat {frame : Frame} (h : FrameBacked tokens frame) :
    FrameBacked (tokens ++ [token]) frame := by
  cases frame with
  | array items => trivial
  | object members key =>
      rcases h with ⟨hmembers, body, hdecode, hinside⟩
      exact ⟨hmembers.concat, body, hdecode, infix_concat hinside⟩

theorem framesBacked_concat {stack : List Frame} (h : ∀ frame ∈ stack, FrameBacked tokens frame) :
    ∀ frame ∈ stack, FrameBacked (tokens ++ [token]) frame :=
  fun frame hmem => (h frame hmem).concat

/-- A value that is not a string says nothing about the last tokens. -/
theorem endsWithText_of_ne {value : Value} (h : ∀ text, value ≠ .string text)
    (stack : List Frame) : EndsWithText tokens value stack := by
  unfold EndsWithText
  split
  · intro text htext
    exact absurd htext (h text)
  · trivial

theorem valueStep_backed {stack : List Frame} {state : State}
    (hstack : ∀ frame ∈ stack, FrameBacked tokens frame) (hkey : EndsWithKey tokens stack)
    (h : valueStep stack token = some state) : StateBacked (tokens ++ [token]) state := by
  have hframes := @framesBacked_concat tokens token stack hstack
  cases token with
  | null =>
      rw [← Option.some.inj h]
      exact ⟨hframes, .null, endsWithText_of_ne (by simp) stack⟩
  | bool value =>
      rw [← Option.some.inj h]
      exact ⟨hframes, .bool value, endsWithText_of_ne (by simp) stack⟩
  | number fields =>
      rw [← Option.some.inj h]
      exact ⟨hframes, .number fields, endsWithText_of_ne (by simp) stack⟩
  | string body' =>
      rcases Option.map_eq_some_iff.mp h with ⟨text, htext, heq⟩
      rw [← heq]
      refine ⟨hframes, .string text, ?_⟩
      cases stack with
      | nil => trivial
      | cons frame rest =>
          cases frame with
          | array items => trivial
          | object members key =>
              -- the key and the colon are the tokens before this one
              intro text' htext'
              rw [Value.string.injEq] at htext'
              rcases hkey with ⟨body, hdecode, before, hsuffix⟩
              refine ⟨body, body', hdecode, htext' ▸ htext, before, ?_⟩
              rw [← hsuffix, List.append_assoc]
              rfl
  | beginArray =>
      rw [← Option.some.inj h]
      exact hframes
  | beginObject =>
      rw [← Option.some.inj h]
      refine ⟨?_, hframes⟩
      intro member hmem
      cases hmem
  | endArray => cases h
  | endObject => cases h
  | colon => cases h
  | comma => cases h

/-- The member that is complete joins the others. -/
theorem membersBacked_snoc {members : List (Units × Value)} {key : Units} {value : Value}
    {stack : List Frame} (hframe : FrameBacked tokens (.object members key))
    (hvalue : Backed tokens value) (htext : EndsWithText tokens value (.object members key :: stack)) :
    MembersBacked tokens (members ++ [(key, value)]) := by
  rcases hframe with ⟨hmembers, hkey⟩
  intro member hmem
  rcases List.mem_append.mp hmem with hmem | hmem
  · exact hmembers member hmem
  · rw [List.mem_singleton.mp hmem]
    refine ⟨⟨hkey, ?_⟩, hvalue⟩
    intro text heq
    rcases htext text heq with ⟨body, body', hdecode, hdecode', hsuffix⟩
    exact ⟨body, body', hdecode, hdecode', hsuffix.isInfix⟩

theorem backed_object {members : List (Units × Value)} (h : MembersBacked tokens members) :
    Backed tokens (.object members) :=
  .object members (fun member hmem => (h member hmem).1) fun member hmem => (h member hmem).2

theorem step_backed {state next : State} (hstate : StateBacked tokens state)
    (h : step state token = some next) : StateBacked (tokens ++ [token]) next := by
  cases state with
  | value stack => exact valueStep_backed hstate.1 hstate.2 h
  | first stack =>
      by_cases hend : token = .endArray
      · rw [hend] at h ⊢
        rw [← Option.some.inj h]
        exact ⟨framesBacked_concat hstate, .array [], endsWithText_of_ne (by simp) stack⟩
      · have hvalue : valueStep (.array [] :: stack) token = some next := by
          cases token <;> first | exact h | exact absurd rfl hend
        apply valueStep_backed _ _ hvalue
        · intro frame hmem
          rcases List.mem_cons.mp hmem with heq | hmem
          · rw [heq]
            trivial
          · exact hstate frame hmem
        · trivial
  | key members stack =>
      cases token with
      | string body =>
          rcases Option.map_eq_some_iff.mp h with ⟨key, hkey, heq⟩
          rw [← heq]
          exact ⟨hstate.1.concat, framesBacked_concat hstate.2, body, hkey,
            List.suffix_append tokens [.string body]⟩
      | endObject =>
          cases members with
          | nil =>
              rw [← Option.some.inj h]
              exact ⟨framesBacked_concat hstate.2, backed_object hstate.1.concat,
                endsWithText_of_ne (by simp) stack⟩
          | cons member rest => cases h
      | _ => cases members <;> cases h
  | colon members key stack =>
      cases token with
      | colon =>
          rw [← Option.some.inj h]
          rcases hstate with ⟨hmembers, hstack, body, hdecode, before, hsuffix⟩
          have hkey : [.string body, .colon] <:+ tokens ++ [Token.colon] := by
            refine ⟨before, ?_⟩
            rw [← hsuffix, List.append_assoc]
            rfl
          refine ⟨?_, body, hdecode, hkey⟩
          intro frame hmem
          rcases List.mem_cons.mp hmem with heq | hmem
          · rw [heq]
            exact ⟨hmembers.concat, body, hdecode, hkey.isInfix⟩
          · exact (hstack frame hmem).concat
      | _ => cases h
  | after stack value =>
      rcases hstate with ⟨hstack, hvalue, htext⟩
      cases stack with
      | nil => cases h
      | cons frame rest =>
          have hrest : ∀ frame ∈ rest, FrameBacked tokens frame := fun frame hmem =>
            hstack frame (List.mem_cons_of_mem _ hmem)
          cases frame with
          | array items =>
              cases token with
              | comma =>
                  rw [← Option.some.inj h]
                  refine ⟨?_, trivial⟩
                  intro frame hmem
                  rcases List.mem_cons.mp hmem with heq | hmem
                  · rw [heq]
                    trivial
                  · exact (hrest frame hmem).concat
              | endArray =>
                  rw [← Option.some.inj h]
                  exact ⟨framesBacked_concat hrest, .array _, endsWithText_of_ne (by simp) rest⟩
              | _ => cases h
          | object members key =>
              have hmembers := membersBacked_snoc (hstack _ List.mem_cons_self) hvalue htext
              cases token with
              | comma =>
                  rw [← Option.some.inj h]
                  exact ⟨hmembers.concat, framesBacked_concat hrest⟩
              | endObject =>
                  rw [← Option.some.inj h]
                  exact ⟨framesBacked_concat hrest, backed_object hmembers.concat,
                    endsWithText_of_ne (by simp) rest⟩
              | _ => cases h

theorem run_backed {state last : State} {more : List Token} (hstate : StateBacked tokens state)
    (h : run state more = some last) : StateBacked (tokens ++ more) last := by
  induction more generalizing tokens state with
  | nil =>
      rw [← Option.some.inj h, List.append_nil]
      exact hstate
  | cons token more ih =>
      rcases Option.bind_eq_some_iff.mp h with ⟨next, hstep, hrest⟩
      have hmore := ih (step_backed hstate hstep) hrest
      simpa using hmore

end

/-- A text that parses has tokens that spell the members of its value. -/
theorem backed_of_parse {text : Units} {value : Value} (h : parse text = some value) :
    ∃ tokens, Lexed text tokens ∧ Backed tokens value := by
  rcases Option.bind_eq_some_iff.mp h with ⟨tokens, htokens, hrest⟩
  rcases Option.bind_eq_some_iff.mp hrest with ⟨state, hrun, hfinished⟩
  have hstart : StateBacked [] (.value []) := by
    refine ⟨?_, trivial⟩
    intro frame hmem
    cases hmem
  have hstate := run_backed hstart hrun
  refine ⟨tokens, lexed_of_lex htokens, ?_⟩
  unfold finished at hfinished
  split at hfinished
  · rw [← Option.some.inj hfinished]
    exact hstate.2.1
  · cases hfinished

/-- A member that is found is spelled. -/
theorem Backed.get? {tokens : List Token} {value found : Value} {key : Units}
    (h : Backed tokens value) (hget : value.get? key = some found) :
    Spelled tokens key found ∧ Backed tokens found := by
  cases h with
  | object members hspelled hbacked =>
      rcases Option.map_eq_some_iff.mp hget with ⟨member, hfind, heq⟩
      have hmem := List.mem_reverse.mp (List.mem_of_find?_eq_some hfind)
      have hkey : member.1 = key := by simpa using List.find?_some hfind
      rw [← heq, ← hkey]
      exact ⟨hspelled member hmem, hbacked member hmem⟩
  | _ => cases hget

/-! ## From the tokens to the text -/

/-- Neighbouring tokens have only whitespace between them in the text. -/
theorem Lexed.split {text : Units} {before after : List Token}
    (h : Lexed text (before ++ after)) : ∃ start rest, text = start ++ rest ∧ Lexed rest after := by
  induction before generalizing text with
  | nil => exact ⟨[], text, rfl, h⟩
  | cons token before ih =>
      cases h with
      | @cons white rest _ _ hwhite hrest =>
          rcases ih hrest with ⟨start, last, heq, hlast⟩
          exact ⟨white ++ token.text ++ start, last, by rw [heq]; simp, hlast⟩

/-- A key and its colon, as the text has them. -/
theorem Lexed.key {text body : Units} {tokens : List Token} (h : Lexed text tokens)
    (hinside : [.string body, .colon] <:+: tokens) :
    ∃ start white rest, (∀ c ∈ white, isWhite c = true) ∧
      text = start ++ 34 :: (body ++ 34 :: (white ++ 58 :: rest)) := by
  rcases hinside with ⟨before, after, rfl⟩
  rw [List.append_assoc] at h
  rcases h.split with ⟨start, last, heq, hlast⟩
  cases hlast with
  | @cons white _ _ _ _ hrest =>
      cases hrest with
      | @cons white' rest _ _ hwhite' _ =>
          refine ⟨start ++ white, white', rest, hwhite', ?_⟩
          rw [heq]
          simp [Token.text]

/-- A key, its colon and a string, as the text has them. -/
theorem Lexed.keyAndText {text body body' : Units} {tokens : List Token} (h : Lexed text tokens)
    (hinside : [.string body, .colon, .string body'] <:+: tokens) :
    ∃ start white white' rest, (∀ c ∈ white, isWhite c = true) ∧ (∀ c ∈ white', isWhite c = true) ∧
      text = start ++ 34 :: (body ++ 34 :: (white ++ 58 :: (white' ++
        34 :: (body' ++ 34 :: rest)))) := by
  rcases hinside with ⟨before, after, rfl⟩
  rw [List.append_assoc] at h
  rcases h.split with ⟨start, last, heq, hlast⟩
  cases hlast with
  | @cons white _ _ _ _ hrest =>
      cases hrest with
      | @cons white' _ _ _ hwhite' hrest' =>
          cases hrest' with
          | @cons white'' rest _ _ hwhite'' _ =>
              refine ⟨start ++ white, white', white'', rest, hwhite', hwhite'', ?_⟩
              rw [heq]
              simp [Token.text]

/-! ## White space and plain strings -/

theorem isSpace_of_isWhite {c : Nat} (h : isWhite c = true) : Units.isSpace c = true := by
  simp only [isWhite, Bool.or_eq_true, decide_eq_true_eq] at h
  rcases h with ((rfl | rfl) | rfl) | rfl <;> decide

theorem dropWhile_white {white rest : Units} {c : Nat} (h : ∀ d ∈ white, isWhite d = true)
    (hc : Units.isSpace c = false) :
    (white ++ c :: rest).dropWhile Units.isSpace = c :: rest := by
  rw [List.dropWhile_append_of_pos fun d hd => isSpace_of_isWhite (h d hd),
    List.dropWhile_cons_of_neg (by rw [hc]; simp)]

/-- A body without escapes spells itself. -/
theorem decodeString_plain {body text : Units} (hplain : 92 ∉ body)
    (h : decodeString body = some text) : text = body := by
  induction body generalizing text with
  | nil => exact (Option.some.inj h).symm
  | cons c rest ih =>
    have hc : c ≠ 92 := fun heq => hplain (heq ▸ List.mem_cons_self)
    have hrest : 92 ∉ rest := fun hmem => hplain (List.mem_cons_of_mem _ hmem)
    unfold decodeString at h
    split at h
    · rename_i heq
      cases heq
    · rename_i heq
      exact absurd (List.cons.inj heq).1 hc
    · rename_i heq
      exact absurd (List.cons.inj heq).1 hc
    · rename_i heq
      obtain ⟨rfl, rfl⟩ := List.cons.inj heq
      split at h
      · cases h
      · obtain ⟨decoded, hdecoded, h⟩ := Option.bind_eq_some_iff.mp h
        rw [← Option.some.inj h, ih hrest hdecoded]

end Js.Parse
