import Mathlib
import OpenaiAuth.Js.Lexing
import OpenaiAuth.Redaction.Frame

/-! # Numbers that denote the same value

The decimal value of a number's text, exact, and what `canonicalNumber` makes of it: a
sign, digits that neither begin nor end with a zero, and a power of ten. No value has two
such forms, so two texts with one form denote one value. An exponent with more than 16
significant digits is not computed.

Main results: `canonicalNumber_eq_iff`, of the fields, and `canonicalNumber_exact`, of the
texts.
-/

namespace Js.Parse

/-! ## Decimal digits -/

theorem decimal_eq_ofDigits (digits : Units) :
    decimal digits = Nat.ofDigits 10 (digits.reverse.map (· - 48)) := by
  induction digits using List.reverseRecOn with
  | nil => rfl
  | append_singleton digits digit ih =>
    unfold decimal at ih ⊢
    rw [List.foldl_append, List.foldl_cons, List.foldl_nil, ih, List.reverse_append]
    simp [Nat.ofDigits_cons]
    ring

theorem decimal_dropWhile (digits : Units) :
    decimal (digits.dropWhile (· = 48)) = decimal digits := by
  induction digits with
  | nil => rfl
  | cons digit rest ih =>
    by_cases h : digit = 48
    · subst h
      rw [List.dropWhile_cons_of_pos (by simp), ih]
      rfl
    · rw [List.dropWhile_cons_of_neg (by simpa using h)]

theorem decimal_zeros (digits : Units) (n : Nat) :
    decimal (digits ++ List.replicate n 48) = decimal digits * 10 ^ n := by
  induction n with
  | zero => simp
  | succ n ih =>
    rw [List.replicate_succ', ← List.append_assoc]
    unfold decimal at ih ⊢
    rw [List.foldl_append, ih]
    simp [pow_succ, mul_assoc]

/-- Digits without a leading zero are determined by their value. -/
theorem decimal_inj {left right : Units} (hleft : ∀ d ∈ left, isDigit d = true)
    (hright : ∀ d ∈ right, isDigit d = true) (hl : left.head? ≠ some 48)
    (hr : right.head? ≠ some 48) (h : decimal left = decimal right) : left = right := by
  have key (digits : Units) (hdigits : ∀ d ∈ digits, isDigit d = true)
      (hhead : digits.head? ≠ some 48) :
      Nat.digits 10 (decimal digits) = digits.reverse.map (· - 48) := by
    rw [decimal_eq_ofDigits]
    refine Nat.digits_ofDigits 10 (by norm_num) _ ?_ ?_
    · intro value hvalue
      obtain ⟨digit, hdigit, rfl⟩ := List.mem_map.mp hvalue
      have := hdigits digit (List.mem_reverse.mp hdigit)
      simp only [isDigit, Bool.and_eq_true, decide_eq_true_eq] at this
      omega
    · intro hne
      -- the last of the reversed digits is the first of the digits
      cases digits with
      | nil => simp at hne
      | cons digit rest =>
        have := hdigits digit (by simp)
        simp only [isDigit, Bool.and_eq_true, decide_eq_true_eq] at this
        have hzero : digit ≠ 48 := fun h => hhead (by rw [h]; rfl)
        simp only [List.reverse_cons, List.map_append, List.map_cons, List.map_nil,
          List.getLast_append_singleton]
        omega
  have hmap : left.map (· - 48) = right.map (· - 48) := by
    have := (key left hleft hl).symm.trans ((congrArg (Nat.digits 10) h).trans (key right hright hr))
    rw [List.map_reverse, List.map_reverse] at this
    exact List.reverse_injective this
  have back (digits : Units) (hdigits : ∀ d ∈ digits, isDigit d = true) :
      (digits.map (· - 48)).map (· + 48) = digits := by
    rw [List.map_map]
    refine (List.map_congr_left fun digit hdigit => ?_).trans (List.map_id digits)
    have := hdigits digit hdigit
    simp only [isDigit, Bool.and_eq_true, decide_eq_true_eq] at this
    simp only [Function.comp_apply, id_eq]
    omega
  rw [← back left hleft, ← back right hright, hmap]

/-- Digits whose last is no zero are no multiple of ten. -/
theorem not_ten_dvd_decimal {digits : Units} (hdigits : ∀ d ∈ digits, isDigit d = true)
    (hne : digits ≠ []) (hlast : digits.getLast? ≠ some 48) : ¬10 ∣ decimal digits := by
  obtain ⟨front, digit, rfl⟩ := (List.eq_nil_or_concat' digits).resolve_left hne
  rw [List.getLast?_concat] at hlast
  have hdigit := hdigits digit (by simp)
  simp only [isDigit, Bool.and_eq_true, decide_eq_true_eq] at hdigit
  have hzero : digit ≠ 48 := fun h => hlast (by rw [h])
  have hvalue : decimal (front ++ [digit]) = decimal front * 10 + (digit - 48) := by
    unfold decimal
    rw [List.foldl_append]
    rfl
  rw [hvalue]
  omega

/-! ## Values -/

namespace NumberFields

def signum (fields : NumberFields) : ℤ := if fields.sign = [] then 1 else -1

/-- The value that the text spells. -/
def value (fields : NumberFields) : ℚ :=
  fields.signum * fields.coefficient * (10 : ℚ) ^ fields.scale

/-- The digits from the first that is no zero. -/
def significand (fields : NumberFields) : Units :=
  (fields.whole ++ fields.fraction.getD []).dropWhile (· = 48)

/-- The digits from the first to the last that is no zero. -/
def digits (fields : NumberFields) : Units :=
  (fields.significand.reverse.dropWhile (· = 48)).reverse

/-- The significant digits of the exponent. -/
def exponentDigits (fields : NumberFields) : Units :=
  (((fields.exponent.map Prod.snd).getD [48]).filter isDigit).dropWhile (· = 48)

/-- The power of ten by which `digits` are multiplied. -/
def place (fields : NumberFields) : ℤ :=
  (if ((fields.exponent.map Prod.snd).getD [48]).head? = some 45 then
      -(decimal fields.exponentDigits : ℤ) else decimal fields.exponentDigits) -
    (fields.fraction.getD []).length + (fields.significand.length - fields.digits.length)

/-- The exponent is computed, or it does not matter. -/
def Bounded (fields : NumberFields) : Prop :=
  fields.significand = [] ∨ fields.exponentDigits.length ≤ 16

instance (fields : NumberFields) : Decidable fields.Bounded := inferInstanceAs (Decidable (_ ∨ _))

theorem significand_eq (fields : NumberFields) :
    fields.significand = fields.digits ++
      List.replicate (fields.significand.length - fields.digits.length) 48 := by
  have hsplit := List.takeWhile_append_dropWhile (p := (· = 48)) (l := fields.significand.reverse)
  have hzeros : fields.significand.reverse.takeWhile (· = 48) =
      List.replicate (fields.significand.reverse.takeWhile (· = 48)).length 48 :=
    List.eq_replicate_of_mem fun d hd => by simpa using List.mem_takeWhile_imp hd
  have hreverse := congrArg List.reverse hsplit
  rw [List.reverse_append, List.reverse_reverse] at hreverse
  have hlength := congrArg List.length hreverse
  simp only [List.length_append, List.length_reverse] at hlength
  rw [hzeros, List.reverse_replicate] at hreverse
  have hcount : fields.significand.length - fields.digits.length =
      (fields.significand.reverse.takeWhile (· = 48)).length := by
    unfold digits
    rw [List.length_reverse]
    omega
  rw [hcount]
  exact hreverse.symm

theorem coefficient_eq (fields : NumberFields) :
    fields.coefficient =
      decimal fields.digits * 10 ^ (fields.significand.length - fields.digits.length) := by
  rw [← decimal_zeros, ← significand_eq, significand, decimal_dropWhile]
  rfl

theorem length_digits_le (fields : NumberFields) :
    fields.digits.length ≤ fields.significand.length := by
  unfold digits
  rw [List.length_reverse]
  exact (List.dropWhile_suffix _).length_le.trans (by rw [List.length_reverse])

theorem scale_eq (fields : NumberFields) :
    fields.scale = fields.place - (fields.significand.length - fields.digits.length) := by
  unfold scale place exponentDigits
  rw [decimal_dropWhile]
  cases fields.exponent with
  | none => simp [decimal, isDigit]
  | some exponent =>
    simp only [Option.map_some, Option.getD_some]
    ring

/-- The value in terms of the digits that count. -/
theorem value_eq (fields : NumberFields) :
    fields.value = fields.signum * decimal fields.digits * (10 : ℚ) ^ fields.place := by
  have hplace : (10 : ℚ) ^ fields.place =
      10 ^ (fields.significand.length - fields.digits.length) * (10 : ℚ) ^ fields.scale := by
    rw [scale_eq, ← zpow_natCast, ← zpow_add₀ (by norm_num),
      Nat.cast_sub fields.length_digits_le]
    congr 1
    ring
  rw [value, coefficient_eq, hplace]
  push_cast
  ring

variable {fields : NumberFields}

theorem WellFormed.coefficientDigits (h : fields.WellFormed) :
    ∀ d ∈ fields.whole ++ fields.fraction.getD [], isDigit d = true := by
  intro d hd
  rcases List.mem_append.mp hd with hd | hd
  · rcases h.whole with hwhole | ⟨-, -, hdigits⟩
    · rw [hwhole, List.mem_singleton] at hd
      rw [hd]
      rfl
    · exact hdigits d hd
  · cases hfraction : fields.fraction with
    | none => simp [hfraction] at hd
    | some digits =>
      rw [hfraction] at hd
      exact (h.fraction digits hfraction).2 d hd

theorem WellFormed.digits_isDigit (h : fields.WellFormed) :
    ∀ d ∈ fields.digits, isDigit d = true := by
  intro d hd
  apply h.coefficientDigits
  have hmem := List.mem_reverse.mp hd
  exact (List.dropWhile_suffix _).subset
    (List.mem_reverse.mp ((List.dropWhile_suffix _).subset hmem))

theorem digits_eq_nil : fields.digits = [] ↔ fields.significand = [] := by
  constructor
  · intro h
    -- all of the significand would be zeros, and its first digit is not
    have hzeros := fields.significand_eq
    rw [h, List.nil_append] at hzeros
    by_contra hne
    have hhead : fields.significand.head? ≠ some 48 := by
      unfold significand at hne ⊢
      intro hhead
      have := List.head?_dropWhile_not (p := (· = 48))
        (l := fields.whole ++ fields.fraction.getD [])
      simp only [hhead] at this
      simp at this
    obtain ⟨d, rest, hcons⟩ := List.exists_cons_of_ne_nil hne
    rw [hcons] at hzeros hhead
    rw [List.length_nil, Nat.sub_zero, List.length_cons, List.replicate_succ] at hzeros
    exact hhead (by rw [(List.cons.inj hzeros).1]; rfl)
  · intro h
    unfold digits
    rw [h]
    rfl

theorem digits_head : fields.digits.head? ≠ some 48 := by
  intro hhead
  have hsignificand : fields.significand.head? = some 48 := by
    rw [significand_eq]
    cases hdigits : fields.digits with
    | nil => rw [hdigits] at hhead; cases hhead
    | cons d rest => rw [hdigits] at hhead; exact hhead
  have := List.head?_dropWhile_not (p := (· = 48)) (l := fields.whole ++ fields.fraction.getD [])
  rw [show (fields.whole ++ fields.fraction.getD []).dropWhile (· = 48) = fields.significand from
    rfl, hsignificand] at this
  simp at this

theorem digits_getLast : fields.digits.getLast? ≠ some 48 := by
  unfold digits
  rw [List.getLast?_reverse]
  intro hhead
  have := List.head?_dropWhile_not (p := (· = 48)) (l := fields.significand.reverse)
  rw [hhead] at this
  simp at this

theorem signum_ne_zero (fields : NumberFields) : fields.signum ≠ 0 := by
  unfold signum
  split <;> decide

theorem WellFormed.not_ten_dvd (h : fields.WellFormed) (hne : fields.significand ≠ []) :
    ¬10 ∣ decimal fields.digits :=
  not_ten_dvd_decimal h.digits_isDigit (fun hnil => hne (digits_eq_nil.mp hnil)) digits_getLast

theorem WellFormed.value_eq_zero (h : fields.WellFormed) :
    fields.value = 0 ↔ fields.significand = [] := by
  rw [value_eq]
  constructor
  · intro hzero
    by_contra hne
    have hdigits : decimal fields.digits ≠ 0 := by
      intro hdigits
      exact h.not_ten_dvd hne (by rw [hdigits]; exact dvd_zero 10)
    rcases mul_eq_zero.mp hzero with hzero | hzero
    · rcases mul_eq_zero.mp hzero with hzero | hzero
      · exact fields.signum_ne_zero (by exact_mod_cast hzero)
      · exact hdigits (by exact_mod_cast hzero)
    · exact absurd hzero (zpow_ne_zero _ (by norm_num))
  · intro hnil
    rw [digits_eq_nil.mpr hnil]
    simp [decimal]

/-- A power of ten times a number that ten does not divide: the power is determined. -/
theorem place_le_of_value_eq {m n : ℕ} {i j : ℤ} (hn : ¬10 ∣ n)
    (h : (m : ℚ) * 10 ^ i = n * 10 ^ j) : i ≤ j := by
  by_contra hlt
  obtain ⟨k, hk⟩ : ∃ k : ℕ, i = j + (k + 1 : ℕ) := ⟨(i - j - 1).toNat, by omega⟩
  have hten : (10 : ℚ) ^ j ≠ 0 := zpow_ne_zero _ (by norm_num)
  rw [hk, zpow_add₀ (by norm_num), zpow_natCast, mul_comm ((10 : ℚ) ^ j), ← mul_assoc] at h
  have hnat : (m * 10 ^ (k + 1) : ℚ) = n := mul_right_cancel₀ hten h
  have hdvd : m * 10 ^ (k + 1) = n := by exact_mod_cast hnat
  exact hn ⟨m * 10 ^ k, by rw [← hdvd, pow_succ]; ring⟩

/-- The sign, the digits that count and their place, from the value. -/
theorem eq_of_value_eq {left right : NumberFields} (hleft : left.WellFormed)
    (hright : right.WellFormed) (hl : left.significand ≠ []) (hr : right.significand ≠ [])
    (h : left.value = right.value) :
    left.sign = right.sign ∧ left.digits = right.digits ∧ left.place = right.place := by
  have hpositive (fields : NumberFields) (hfields : fields.WellFormed)
      (hne : fields.significand ≠ []) :
      0 < (decimal fields.digits : ℚ) * 10 ^ fields.place := by
    have : decimal fields.digits ≠ 0 := fun hzero =>
      hfields.not_ten_dvd hne (by rw [hzero]; exact dvd_zero 10)
    positivity
  rw [value_eq, value_eq, mul_assoc, mul_assoc] at h
  have hpl := hpositive left hleft hl
  have hpr := hpositive right hright hr
  have hsigns : left.sign = right.sign ∧ left.signum = right.signum := by
    rcases hleft.sign with hls | hls <;> rcases hright.sign with hrs | hrs
    · simp [signum, hls, hrs]
    · -- a positive and a negative value
      exfalso
      simp only [signum, hls, hrs, if_true, reduceCtorEq, if_false] at h
      push_cast at h
      linarith
    · exfalso
      simp only [signum, hls, hrs, if_true, reduceCtorEq, if_false] at h
      push_cast at h
      linarith
    · simp [signum, hls, hrs]
  obtain ⟨hsign, hsignum⟩ := hsigns
  rw [hsignum] at h
  have hmagnitude := mul_left_cancel₀ (by exact_mod_cast right.signum_ne_zero) h
  have hplace : left.place = right.place :=
    le_antisymm (place_le_of_value_eq (hright.not_ten_dvd hr) hmagnitude)
      (place_le_of_value_eq (hleft.not_ten_dvd hl) hmagnitude.symm)
  rw [hplace] at hmagnitude
  have hdecimal := mul_right_cancel₀ (zpow_ne_zero _ (by norm_num)) hmagnitude
  exact ⟨hsign, decimal_inj hleft.digits_isDigit hright.digits_isDigit digits_head digits_head
    (by exact_mod_cast hdecimal), hplace⟩

end NumberFields

/-! ## Texts of a sign, digits and a power of ten -/

theorem of_toString_inj {i j : ℤ} : Units.of (toString i) = Units.of (toString j) ↔ i = j := by
  constructor
  · intro h
    have hlist : (toString i).toList = (toString j).toList :=
      List.map_injective_iff.mpr (fun a b hab => Char.toNat_inj.mp hab) h
    exact Int.repr_inj.mp (String.toList_inj.mp hlist)
  · rintro rfl
    rfl

theorem noDigit_exponent (rest : Units) : NoDigit (101 :: rest) := by
  intro c hc
  cases hc
  rfl

theorem signed_inj {sign sign' digits digits' tail tail' : Units}
    (hsign : sign = [] ∨ sign = [45]) (hsign' : sign' = [] ∨ sign' = [45])
    (hdigits : ∀ d ∈ digits, isDigit d = true) (hdigits' : ∀ d ∈ digits', isDigit d = true)
    (hne : digits ≠ []) (hne' : digits' ≠ [])
    (h : sign ++ digits ++ 101 :: tail = sign' ++ digits' ++ 101 :: tail') :
    sign = sign' ∧ digits = digits' ∧ tail = tail' := by
  have unsigned (digits digits' : Units) (hdigits : ∀ d ∈ digits, isDigit d = true)
      (hdigits' : ∀ d ∈ digits', isDigit d = true)
      (h : digits ++ 101 :: tail = digits' ++ 101 :: tail') : digits = digits' ∧ tail = tail' := by
    have htaken := congrArg (List.takeWhile isDigit) h
    rw [takeWhile_digits hdigits (noDigit_exponent _),
      takeWhile_digits hdigits' (noDigit_exponent _)] at htaken
    subst htaken
    exact ⟨rfl, (List.cons.inj (List.append_cancel_left h)).2⟩
  -- a digit is no sign
  have notMinus (digits rest : Units) (hdigits : ∀ d ∈ digits, isDigit d = true)
      (hne : digits ≠ []) (tail : Units) : digits ++ tail ≠ 45 :: rest := by
    cases digits with
    | nil => exact absurd rfl hne
    | cons d more =>
      intro heq
      have hd := hdigits d (by simp)
      rw [(List.cons.inj heq).1] at hd
      cases hd
  rcases hsign with rfl | rfl <;> rcases hsign' with rfl | rfl
  · exact ⟨rfl, unsigned digits digits' hdigits hdigits' h⟩
  · exact absurd h (notMinus digits _ hdigits hne _)
  · exact absurd h.symm (notMinus digits' _ hdigits' hne' _)
  · exact ⟨rfl, unsigned digits digits' hdigits hdigits' (List.cons.inj h).2⟩

end Js.Parse

namespace Redaction

open Js Js.Parse

/-! ## The canonical form -/

theorem canonicalNumber_text {fields : NumberFields} (h : fields.WellFormed) :
    canonicalNumber fields.text =
      if fields.significand = [] then some [48]
      else if 16 < fields.exponentDigits.length then none
      else some (fields.sign ++ fields.digits ++ 101 :: Units.of (toString fields.place)) := by
  have hnumber := numberAt_text h stops_nil
  rw [List.append_nil] at hnumber
  unfold canonicalNumber
  rw [hnumber]
  simp only [Option.bind_eq_bind, Option.bind_some, ne_eq, not_true_eq_false, if_false]
  rfl

theorem canonicalNumber_of_ne_text {text : Units}
    (h : ∀ fields, numberAt text = some fields → fields.text ≠ text) :
    canonicalNumber text = none := by
  unfold canonicalNumber
  cases hnumber : numberAt text with
  | none => rfl
  | some fields =>
    simp only [Option.bind_eq_bind, Option.bind_some]
    rw [if_pos (h fields hnumber)]

theorem canonicalNumber_isSome {fields : NumberFields} (h : fields.WellFormed) :
    (canonicalNumber fields.text).isSome = true ↔ fields.Bounded := by
  rw [canonicalNumber_text h]
  unfold NumberFields.Bounded
  split
  · simp_all
  · split
    · rename_i hnil hlong
      simp only [Option.isSome_none, Bool.false_eq_true, hnil, false_or, false_iff, not_le]
      exact hlong
    · rename_i hnil hshort
      simp only [Option.isSome_some, hnil, false_or, true_iff]
      exact not_lt.mp hshort

/-- Two texts have one form just when they denote one value. -/
theorem canonicalNumber_eq_iff {left right : NumberFields} (hleft : left.WellFormed)
    (hright : right.WellFormed) (hbleft : left.Bounded) (hbright : right.Bounded) :
    canonicalNumber left.text = canonicalNumber right.text ↔ left.value = right.value := by
  have notZero (fields : NumberFields) (hfields : fields.WellFormed)
      (hne : fields.significand ≠ []) (rest : Units) :
      fields.sign ++ fields.digits ++ 101 :: rest ≠ [48] := by
    intro h
    have hlength := congrArg List.length h
    have hdigits := List.length_pos_iff.mpr fun hnil => hne (NumberFields.digits_eq_nil.mp hnil)
    simp at hlength
    omega
  have computed (fields : NumberFields) (hfields : fields.WellFormed) (hb : fields.Bounded)
      (hne : fields.significand ≠ []) : canonicalNumber fields.text =
        some (fields.sign ++ fields.digits ++ 101 :: Units.of (toString fields.place)) := by
    rw [canonicalNumber_text hfields, if_neg hne, if_neg (not_lt.mpr (hb.resolve_left hne))]
  by_cases hl : left.significand = [] <;> by_cases hr : right.significand = []
  · rw [canonicalNumber_text hleft, canonicalNumber_text hright, if_pos hl, if_pos hr,
      hleft.value_eq_zero.mpr hl, hright.value_eq_zero.mpr hr]
    simp
  · -- zero has a form of its own
    rw [canonicalNumber_text hleft, if_pos hl, computed right hright hbright hr,
      hleft.value_eq_zero.mpr hl, Option.some.injEq]
    constructor
    · exact fun h => absurd h.symm (notZero right hright hr _)
    · exact fun h => absurd (hright.value_eq_zero.mp h.symm) hr
  · rw [canonicalNumber_text hright, if_pos hr, computed left hleft hbleft hl,
      hright.value_eq_zero.mpr hr, Option.some.injEq]
    constructor
    · exact fun h => absurd h (notZero left hleft hl _)
    · exact fun h => absurd (hleft.value_eq_zero.mp h) hl
  · rw [computed left hleft hbleft hl, computed right hright hbright hr, Option.some.injEq]
    constructor
    · intro h
      obtain ⟨hsign, hdigits, htail⟩ := signed_inj hleft.sign hright.sign hleft.digits_isDigit
        hright.digits_isDigit (fun hnil => hl (NumberFields.digits_eq_nil.mp hnil))
        (fun hnil => hr (NumberFields.digits_eq_nil.mp hnil)) h
      rw [NumberFields.value_eq, NumberFields.value_eq, NumberFields.signum, NumberFields.signum,
        hsign, hdigits, of_toString_inj.mp htail]
    · intro h
      obtain ⟨hsign, hdigits, hplace⟩ := NumberFields.eq_of_value_eq hleft hright hl hr h
      rw [hsign, hdigits, hplace]

/-- `0` -/
def zero : NumberFields where
  sign := []
  whole := [48]
  fraction := none
  exponent := none

theorem zero_wellFormed : zero.WellFormed :=
  wellFormed_of_numberAt (show numberAt [48] = some zero from rfl)

/-- The text is a JSON number with an exponent of at most 16 significant digits, and this
is its decimal value. -/
def Spells (text : Units) (value : ℚ) : Prop :=
  ∃ fields : NumberFields, fields.WellFormed ∧ fields.text = text ∧
    fields.exponentDigits.length ≤ 16 ∧ fields.value = value

/-- Two numbers have one canonical form just when they denote one value, and zero has
a form of its own. -/
theorem canonicalNumber_exact {left right : Units} {u v : ℚ} (hleft : Spells left u)
    (hright : Spells right v) :
    (canonicalNumber left).isSome = true ∧
      (canonicalNumber left = canonicalNumber right ↔ u = v) ∧
      (canonicalNumber left = some [48] ↔ u = 0) := by
  obtain ⟨a, ha, rfl, hshorta, rfl⟩ := hleft
  obtain ⟨b, hb, rfl, hshortb, rfl⟩ := hright
  refine ⟨(canonicalNumber_isSome ha).mpr (.inr hshorta),
    canonicalNumber_eq_iff ha hb (.inr hshorta) (.inr hshortb), ?_⟩
  have hzero := canonicalNumber_eq_iff ha zero_wellFormed (.inr hshorta) (.inl rfl)
  have hform : canonicalNumber zero.text = some [48] := by decide
  rwa [hform, zero_wellFormed.value_eq_zero.mpr rfl] at hzero

theorem spells_of_numberAt {text : Units} {fields : NumberFields}
    (h : numberAt text = some fields) (htext : fields.text = text)
    (hshort : fields.exponentDigits.length ≤ 16) : Spells text fields.value :=
  ⟨fields, wellFormed_of_numberAt h, htext, hshort, rfl⟩

/-- `-123456789012345678901.20` -/
def longFields : NumberFields where
  sign := [45]
  whole := Units.of "123456789012345678901"
  fraction := some (Units.of "20")
  exponent := none

/-- `-1234567890123456789012E-01` -/
def shiftedFields : NumberFields where
  sign := [45]
  whole := Units.of "1234567890123456789012"
  fraction := none
  exponent := some (69, Units.of "-01")

/-- More digits than a double holds, spelled in two ways. -/
theorem canonicalNumber_exact_long :
    canonicalNumber (Units.of "-123456789012345678901.20") =
      canonicalNumber (Units.of "-1234567890123456789012E-01") := by
  have hlong : numberAt (Units.of "-123456789012345678901.20") = some longFields := by decide
  have hshifted : numberAt (Units.of "-1234567890123456789012E-01") = some shiftedFields := by decide
  refine (canonicalNumber_exact (spells_of_numberAt hlong (by decide) (by decide))
    (spells_of_numberAt hshifted (by decide) (by decide))).2.1.mpr ?_
  have hplace : longFields.scale = -2 := by decide
  have hplace' : shiftedFields.scale = -1 := by decide
  have hdigits : longFields.coefficient = 12345678901234567890120 := by decide
  have hdigits' : shiftedFields.coefficient = 1234567890123456789012 := by decide
  rw [NumberFields.value, NumberFields.value, hplace, hplace', hdigits, hdigits']
  norm_num [NumberFields.signum, longFields, shiftedFields]

end Redaction
