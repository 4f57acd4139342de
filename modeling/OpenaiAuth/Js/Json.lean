import Mathlib.Algebra.GroupWithZero.Nat
import Mathlib.Data.Rat.Defs

/-! # JSON values

What `JSON.parse` returns, and the tests the code makes on such values. An
object is its list of members, each key once. Numbers are the finite values
they denote; a literal too large for a double is out of scope.
-/

namespace Js

/-- A value `JSON.parse` may return. -/
inductive Json where
  | null
  | bool (b : Bool)
  | num (q : Rat)
  | str (s : String)
  | arr (items : List Json)
  | obj (members : List (String × Json))
deriving Repr, Inhabited

namespace Json

mutual

/-- Equality of values is decided member by member. -/
def decEq : (a b : Json) → Decidable (a = b)
  | .null, .null => isTrue rfl
  | .bool a, .bool b =>
      if h : a = b then isTrue (by rw [h]) else isFalse (by simpa using h)
  | .num a, .num b =>
      if h : a = b then isTrue (by rw [h]) else isFalse (by simpa using h)
  | .str a, .str b =>
      if h : a = b then isTrue (by rw [h]) else isFalse (by simpa using h)
  | .arr a, .arr b =>
      match decEqItems a b with
      | isTrue h => isTrue (by rw [h])
      | isFalse h => isFalse (by simpa using h)
  | .obj a, .obj b =>
      match decEqMembers a b with
      | isTrue h => isTrue (by rw [h])
      | isFalse h => isFalse (by simpa using h)
  | .null, .bool _ | .null, .num _ | .null, .str _ | .null, .arr _ | .null, .obj _
  | .bool _, .null | .bool _, .num _ | .bool _, .str _ | .bool _, .arr _ | .bool _, .obj _
  | .num _, .null | .num _, .bool _ | .num _, .str _ | .num _, .arr _ | .num _, .obj _
  | .str _, .null | .str _, .bool _ | .str _, .num _ | .str _, .arr _ | .str _, .obj _
  | .arr _, .null | .arr _, .bool _ | .arr _, .num _ | .arr _, .str _ | .arr _, .obj _
  | .obj _, .null | .obj _, .bool _ | .obj _, .num _ | .obj _, .str _ | .obj _, .arr _ =>
      isFalse (by simp)

def decEqItems : (a b : List Json) → Decidable (a = b)
  | [], [] => isTrue rfl
  | [], _ :: _ | _ :: _, [] => isFalse (by simp)
  | x :: xs, y :: ys =>
      match decEq x y, decEqItems xs ys with
      | isTrue h, isTrue h' => isTrue (by rw [h, h'])
      | isFalse h, _ => isFalse (by simp [h])
      | _, isFalse h => isFalse (by simp [h])

def decEqMembers : (a b : List (String × Json)) → Decidable (a = b)
  | [], [] => isTrue rfl
  | [], _ :: _ | _ :: _, [] => isFalse (by simp)
  | (k, x) :: xs, (l, y) :: ys =>
      match decEq x y, decEqMembers xs ys with
      | isTrue h, isTrue h' =>
          if hk : k = l then isTrue (by rw [hk, h, h']) else isFalse (by simp [hk])
      | isFalse h, _ => isFalse (by simp [h])
      | _, isFalse h => isFalse (by simp [h])

end

instance : DecidableEq Json := decEq

/-- The member `key` of an object; `none` is JavaScript's `undefined`. -/
def get? (key : String) : Json → Option Json
  | .obj members => members.lookup key
  | _ => none

/-- `isRecord`: a non-null object that is no array. -/
def isRecord : Json → Bool
  | .obj _ => true
  | _ => false

/-- The string a value is, if it is one (`typeof value === 'string'`). -/
def string? : Json → Option String
  | .str s => some s
  | _ => none

/-- The number a value is, if it is one (`typeof value === 'number'`). -/
def number? : Json → Option Rat
  | .num q => some q
  | _ => none

/-- The items of an array (`Array.isArray`). -/
def array? : Json → Option (List Json)
  | .arr items => some items
  | _ => none

/-- The string member `key` of an object. -/
def stringAt? (key : String) (v : Json) : Option String :=
  (v.get? key).bind string?

/-- `value.type`, when it is a string. -/
def type? (v : Json) : Option String :=
  v.stringAt? "type"

/-- The number member `key` of an object. -/
def numberAt? (key : String) (v : Json) : Option Rat :=
  (v.get? key).bind number?

/-- The member `key` of an object, if it is itself a record. -/
def recordAt? (key : String) (v : Json) : Option Json :=
  (v.get? key).filter isRecord

/-- `a ?? b`: the fallback for a missing or null value. -/
def orElse : Option Json → Option Json → Option Json
  | none, b | some .null, b => b
  | some a, _ => some a

mutual

/-- Whether `String(value)` returns. A parsed object with a member `toString`
hides the inherited method and has no primitive value. -/
def hasString : Json → Bool
  | .obj members => (members.lookup "toString").isNone
  | .arr items => itemsHaveString items
  | _ => true

def itemsHaveString : List Json → Bool
  | [] => true
  | v :: vs => hasString v && itemsHaveString vs

end

mutual

/-- A bound from below on the length of any text that parses to the value. -/
def weight : Json → Nat
  | .str s => s.length + 2
  | .arr items => weightItems items + 2
  | .obj members => weightMembers members + 2
  | _ => 0

def weightItems : List Json → Nat
  | [] => 0
  | v :: vs => weight v + weightItems vs

def weightMembers : List (String × Json) → Nat
  | [] => 0
  | (_, v) :: vs => weight v + weightMembers vs

end

theorem weight_lookup {key : String} {v : Json} {members : List (String × Json)}
    (h : members.lookup key = some v) : v.weight ≤ weightMembers members := by
  induction members with
  | nil => simp at h
  | cons m rest ih =>
      rcases m with ⟨k, w⟩
      rw [List.lookup_cons] at h
      by_cases hk : key == k
      · simp only [hk, Option.some.injEq] at h
        simp only [weightMembers, h]
        omega
      · simp only [hk] at h
        have := ih h
        simp only [weightMembers]
        omega

/-- A member is lighter than its object. -/
theorem weight_get? {key : String} {v w : Json} (h : v.get? key = some w) :
    w.weight < v.weight := by
  cases v with
  | obj members =>
      have := weight_lookup (show members.lookup key = some w from h)
      simp only [weight]
      omega
  | _ => simp [get?] at h

@[simp] theorem stringAt?_eq_some {key s : String} {v : Json} :
    v.stringAt? key = some s ↔ v.get? key = some (.str s) := by
  unfold stringAt?
  rcases v.get? key with _ | _ | _ | _ | _ | _ | _ <;> simp [string?]

end Json

/-- The built-in functions on JSON texts and numbers. -/
structure Builtins where
  /-- `JSON.parse`; `none` when it throws. -/
  parse : String → Option Json
  /-- A text is no shorter than the value it denotes. -/
  parse_weight : ∀ text v, parse text = some v → v.weight ≤ text.length
  /-- `String(number)`. -/
  numberText : Rat → String

/-- The built-ins as far as the texts of a table ask of them. -/
def Builtins.ofTable (table : List (String × Json))
    (h : ∀ p ∈ table, p.2.weight ≤ p.1.length) : Builtins where
  parse text := table.lookup text
  parse_weight text v hv := by
    have hmem : (text, v) ∈ table := by
      rw [List.lookup_eq_some_iff] at hv
      obtain ⟨l, r, rfl, -⟩ := hv
      simp
    exact h _ hmem
  numberText q := if q.den = 1 then toString q.num else toString q

/-- `Number.MAX_SAFE_INTEGER`. -/
def maxSafeInteger : Nat := 2 ^ 53 - 1

/-- The natural number `q` is, if it is one that `Number.isSafeInteger` accepts. -/
def safeNat? (q : Rat) : Option Nat :=
  if q.den = 1 ∧ 0 ≤ q.num ∧ q.num.toNat ≤ maxSafeInteger then some q.num.toNat else none

@[simp] theorem safeNat?_natCast (n : Nat) :
    safeNat? (n : Rat) = if n ≤ maxSafeInteger then some n else none := by
  simp [safeNat?]

end Js
