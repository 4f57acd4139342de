import Mathlib.Algebra.BigOperators.Group.List.Basic
import OpenaiAuth.Js.Record

/-! # JSON texts

`JSON.stringify` on parsed values, and the number of bytes of its text in UTF-8.
`numberText` stands for `String(number)`. The text of an array or an object is
the texts of its parts with the punctuation between them, so its bytes are a sum.
-/

namespace Js

/-- `Buffer.byteLength(text)` -/
def byteLength (text : String) : ℕ := text.utf8ByteSize

@[simp] theorem byteLength_append (s t : String) :
    byteLength (s ++ t) = byteLength s + byteLength t :=
  String.utf8ByteSize_append

/-- A character inside a quoted text. -/
def quotedChar (c : Char) : String :=
  if c.toNat = 34 then "\\\""
  else if c.toNat = 92 then "\\\\"
  else if c.toNat = 8 then "\\b"
  else if c.toNat = 9 then "\\t"
  else if c.toNat = 10 then "\\n"
  else if c.toNat = 12 then "\\f"
  else if c.toNat = 13 then "\\r"
  else if c.toNat < 32 then
    "\\u00" ++ (if c.toNat < 16 then "0" else "1") ++
      String.singleton (Nat.digitChar (c.toNat % 16))
  else String.singleton c

def quotedText (text : String) : String :=
  "\"" ++ (text.toList.map quotedChar).foldr (· ++ ·) "" ++ "\""

section

variable (numberText : Rat → String)

mutual

/-- `JSON.stringify(value)` -/
def stringify : Json → String
  | .null => "null"
  | .bool b => if b then "true" else "false"
  | .num q => numberText q
  | .str s => quotedText s
  | .arr items => "[" ++ stringifyItems items ++ "]"
  | .obj members => "\x7b" ++ stringifyMembers members ++ "\x7d"

def stringifyItems : List Json → String
  | [] => ""
  | [v] => stringify v
  | v :: w :: rest => stringify v ++ "," ++ stringifyItems (w :: rest)

def stringifyMembers : Members → String
  | [] => ""
  | [(key, v)] => quotedText key ++ ":" ++ stringify v
  | (key, v) :: m :: rest =>
      quotedText key ++ ":" ++ stringify v ++ "," ++ stringifyMembers (m :: rest)

end

/-- The bytes of a value's text. -/
def jsonBytes (v : Json) : ℕ := byteLength (stringify numberText v)

variable {numberText}

theorem byteLength_stringifyItems (items : List Json) :
    byteLength (stringifyItems numberText items) =
      (items.map (jsonBytes numberText)).sum + (items.length - 1) := by
  induction items with
  | nil => rfl
  | cons v rest ih =>
      cases rest with
      | nil => simp [stringifyItems, jsonBytes]
      | cons w rest =>
          have hcomma : byteLength "," = 1 := rfl
          rw [stringifyItems, byteLength_append, byteLength_append, ih, hcomma]
          simp only [List.map_cons, List.sum_cons, List.length_cons, jsonBytes]
          omega

theorem jsonBytes_arr (items : List Json) :
    jsonBytes numberText (.arr items) =
      2 + (items.map (jsonBytes numberText)).sum + (items.length - 1) := by
  have hopen : byteLength "[" = 1 := rfl
  have hclose : byteLength "]" = 1 := rfl
  rw [jsonBytes, stringify, byteLength_append, byteLength_append, byteLength_stringifyItems, hopen,
    hclose]
  omega

/-- One member with its key and colon. -/
theorem byteLength_member (key : String) (v : Json) :
    byteLength (stringifyMembers numberText [(key, v)]) =
      byteLength (quotedText key) + 1 + jsonBytes numberText v := by
  have hcolon : byteLength ":" = 1 := rfl
  rw [stringifyMembers, byteLength_append, byteLength_append, hcolon, jsonBytes]

theorem byteLength_members_cons (key : String) (v : Json) (m : String × Json) (rest : Members) :
    byteLength (stringifyMembers numberText ((key, v) :: m :: rest)) =
      byteLength (quotedText key) + 1 + jsonBytes numberText v + 1 +
        byteLength (stringifyMembers numberText (m :: rest)) := by
  have hcolon : byteLength ":" = 1 := rfl
  have hcomma : byteLength "," = 1 := rfl
  rw [stringifyMembers, byteLength_append, byteLength_append, byteLength_append, byteLength_append,
    hcolon, hcomma, jsonBytes]

theorem jsonBytes_obj (members : Members) :
    jsonBytes numberText (.obj members) = 2 + byteLength (stringifyMembers numberText members) := by
  have hopen : byteLength "\x7b" = 1 := rfl
  have hclose : byteLength "\x7d" = 1 := rfl
  rw [jsonBytes, stringify, byteLength_append, byteLength_append, hopen, hclose]
  omega

end

end Js
