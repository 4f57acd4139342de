import OpenaiAuth.Js.Number
import OpenaiAuth.Js.Parse
import OpenaiAuth.Js.Trim
import Mathlib.Algebra.Order.Field.Power
import Mathlib.Data.List.TakeWhile
import Mathlib.Tactic.Linarith
import Mathlib.Tactic.NormNum

/-! # Numbers in texts

`Number(text)`: white space around the text does not count, a text of nothing else is
zero, and a text that is no numeral is `NaN`. As in `Number`, a finite value is the exact
one.
-/

namespace Js

/-- `text.trim()` -/
def Units.trim (text : Units) : Units := stripEnds Units.isSpace text

theorem Units.trim_surrounded {before text after : Units} (hbefore : ∀ c ∈ before, isSpace c = true)
    (hafter : ∀ c ∈ after, isSpace c = true) (hfirst : ∀ c ∈ text.head?, isSpace c = false)
    (hlast : ∀ c ∈ text.getLast?, isSpace c = false) : trim (before ++ text ++ after) = text := by
  have hdrop : ∀ {spaces rest : Units}, (∀ c ∈ spaces, isSpace c = true) →
      (spaces ++ rest).dropWhile isSpace = rest.dropWhile isSpace := by
    intro spaces rest hspaces
    induction spaces with
    | nil => rfl
    | cons c spaces ih =>
        rw [List.cons_append, List.dropWhile_cons_of_pos (hspaces c List.mem_cons_self)]
        exact ih fun d hd => hspaces d (List.mem_cons_of_mem c hd)
  cases htext : text with
  | nil =>
      have hall : ∀ c ∈ before ++ after, isSpace c = true := by
        intro c hc
        rcases List.mem_append.mp hc with hc | hc
        · exact hbefore c hc
        · exact hafter c hc
      have hnone : (before ++ after ++ []).dropWhile isSpace = [].dropWhile isSpace := hdrop hall
      rw [List.append_nil] at hnone
      rw [trim, stripEnds, List.append_nil, hnone]
      rfl
  | cons c rest =>
      have hfront : (text ++ after).dropWhile isSpace = text ++ after := by
        apply dropWhile_eq_self
        intro d hd
        rw [htext, List.cons_append] at hd
        apply hfirst
        rw [htext]
        exact hd
      have hback : text.reverse.dropWhile isSpace = text.reverse := by
        apply dropWhile_eq_self
        intro d hd
        rw [List.head?_reverse] at hd
        exact hlast d hd
      have hreverse : ∀ d ∈ after.reverse, isSpace d = true := by
        intro d hd
        exact hafter d (List.mem_reverse.mp hd)
      rw [← htext, trim, stripEnds, List.append_assoc, hdrop hbefore, hfront, List.reverse_append,
        hdrop hreverse, hback, List.reverse_reverse]

theorem Units.trim_eq_self {text : Units} (hfirst : ∀ c ∈ text.head?, isSpace c = false)
    (hlast : ∀ c ∈ text.getLast?, isSpace c = false) : trim text = text := by
  have hnone : ∀ c ∈ ([] : Units), isSpace c = true := by
    intro c hc
    cases hc
  have h := trim_surrounded hnone hnone hfirst hlast
  rw [List.append_nil, List.nil_append] at h
  exact h

namespace Number

/-- The middle between the greatest double and the next power of two. -/
def overflow : ℚ := 2 ^ 970 * (2 ^ 54 - 1)

/-- The nearest double, where it is not finite; otherwise the value. -/
def ofExact (value : ℚ) : Number :=
  if overflow ≤ value then .infinity
  else if value ≤ -overflow then .negInfinity
  else .finite value

/-- The digits after `0x`, `0o` or `0b`. -/
def ofRadix (radix : Nat) (digits : Units) : Number :=
  if digits ≠ [] ∧ digits.all fun c => (Units.hexValue c).any (· < radix) then
    ofExact (digits.foldl (fun value c => value * radix + (Units.hexValue c).getD 0) (0 : Nat))
  else .nan

/-- An exponent, with its `e`, or nothing. -/
def exponentOf : Units → Option Int
  | [] => some 0
  | e :: rest =>
      let sign := rest.take 1
      let digits := if sign = [43] ∨ sign = [45] then rest.drop 1 else rest
      if (e = 101 ∨ e = 69) ∧ digits ≠ [] ∧ digits.all Parse.isDigit then
        some (if sign = [45] then -(Parse.decimal digits : Int) else Parse.decimal digits)
      else none

/-- A decimal numeral without a sign. -/
def ofDecimal (text : Units) : Option ℚ :=
  let whole := text.takeWhile Parse.isDigit
  let rest := text.dropWhile Parse.isDigit
  let fraction := if rest.head? = some 46 then (rest.drop 1).takeWhile Parse.isDigit else []
  let exponent :=
    if rest.head? = some 46 then (rest.drop 1).dropWhile Parse.isDigit else rest
  if whole = [] ∧ fraction = [] then none
  else
    (exponentOf exponent).map fun (size : Int) =>
      (Parse.decimal (whole ++ fraction) : ℚ) * 10 ^ (size - (fraction.length : Int))

def ofSigned (negative : Bool) (text : Units) : Number :=
  if text = Units.of "Infinity" then if negative then .negInfinity else .infinity
  else
    match ofDecimal text with
    | none => .nan
    | some value => ofExact (if negative then -value else value)

/-- A numeral that says its radix, and the digits. -/
def radixOf (text : Units) : Option (Nat × Units) :=
  if text.take 2 = Units.of "0x" ∨ text.take 2 = Units.of "0X" then some (16, text.drop 2)
  else if text.take 2 = Units.of "0o" ∨ text.take 2 = Units.of "0O" then some (8, text.drop 2)
  else if text.take 2 = Units.of "0b" ∨ text.take 2 = Units.of "0B" then some (2, text.drop 2)
  else none

/-- `Number(text)` -/
def ofText (text : Units) : Number :=
  let text := Units.trim text
  match radixOf text with
  | some (radix, digits) => ofRadix radix digits
  | none =>
      if text = [] then .finite 0
      else if text.head? = some 43 then ofSigned false (text.drop 1)
      else if text.head? = some 45 then ofSigned true (text.drop 1)
      else ofSigned false text

theorem isDigit_bounds {c : Nat} (h : Parse.isDigit c = true) : 48 ≤ c ∧ c ≤ 57 := by
  simpa [Parse.isDigit] using h

theorem not_isSpace_of_isDigit {c : Nat} (h : Parse.isDigit c = true) :
    Units.isSpace c = false := by
  have hc := isDigit_bounds h
  simp only [Units.isSpace, Bool.or_eq_false_iff, Bool.and_eq_false_iff, decide_eq_false_iff_not]
  omega

theorem radixOf_digits {digits : Units} (h : ∀ c ∈ digits, Parse.isDigit c = true) :
    radixOf digits = none := by
  have hnot : ∀ c, Parse.isDigit c = false → digits.take 2 ≠ [48, c] := by
    intro c hc htake
    have hmem : c ∈ digits := List.mem_of_mem_take (i := 2) (by rw [htake]; simp)
    rw [h c hmem] at hc
    cases hc
  rw [radixOf, if_neg, if_neg, if_neg]
  · exact not_or.mpr ⟨hnot 98 rfl, hnot 66 rfl⟩
  · exact not_or.mpr ⟨hnot 111 rfl, hnot 79 rfl⟩
  · exact not_or.mpr ⟨hnot 120 rfl, hnot 88 rfl⟩

theorem ofExact_natCast {n : Nat} (h : n < 2 ^ 53) : ofExact (n : ℚ) = .finite n := by
  have hcast : (n : ℚ) < 2 ^ 53 := by exact_mod_cast h
  have hnonneg : (0 : ℚ) ≤ n := Nat.cast_nonneg n
  have hbig : (2 : ℚ) ^ 53 ≤ overflow := by
    have hone : (1 : ℚ) ≤ 2 ^ 970 := one_le_pow₀ (by norm_num)
    rw [overflow]
    generalize (2 : ℚ) ^ 970 = unit at hone
    linarith
  rw [ofExact, if_neg, if_neg]
  · linarith
  · linarith

theorem ofDecimal_digits {digits : Units} (hne : digits ≠ [])
    (h : ∀ c ∈ digits, Parse.isDigit c = true) :
    ofDecimal digits = some (Parse.decimal digits : ℚ) := by
  have hwhole : digits.takeWhile Parse.isDigit = digits := List.takeWhile_eq_self_iff.mpr h
  have hrest : digits.dropWhile Parse.isDigit = [] := List.dropWhile_eq_nil_iff.mpr h
  simp [ofDecimal, hwhole, hrest, hne, exponentOf]

/-- A text of digits is their value. -/
theorem ofText_digits {digits : Units} (hne : digits ≠ [])
    (h : ∀ c ∈ digits, Parse.isDigit c = true) (hsmall : Parse.decimal digits < 2 ^ 53) :
    ofText digits = .finite (Parse.decimal digits) := by
  have htrim : Units.trim digits = digits := by
    apply Units.trim_eq_self
    · intro c hc
      exact not_isSpace_of_isDigit (h c (List.mem_of_mem_head? hc))
    · intro c hc
      exact not_isSpace_of_isDigit (h c (List.mem_of_getLast? hc))
  have hsign : ∀ c, Parse.isDigit c = false → digits.head? ≠ some c := by
    intro c hc hhead
    rw [h c (List.mem_of_mem_head? hhead)] at hc
    cases hc
  have hinfinity : digits ≠ Units.of "Infinity" := by
    intro heq
    exact hsign 73 rfl (heq ▸ rfl)
  simp only [ofText, htrim, radixOf_digits h]
  rw [if_neg hne, if_neg (hsign 43 rfl), if_neg (hsign 45 rfl), ofSigned, if_neg hinfinity,
    ofDecimal_digits hne h]
  exact ofExact_natCast hsmall

end Number

end Js
