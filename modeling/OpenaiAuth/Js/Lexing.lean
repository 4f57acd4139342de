import Mathlib.Data.List.Chain
import Mathlib.Data.List.TakeWhile
import OpenaiAuth.Js.Parse

/-! # Texts that are spelled token by token

The other direction of the scanner: tokens that are written one after another, with
whitespace between them, are the tokens it finds. A number has to be followed by
something that does not continue it; a quoted string decodes to itself.

Main results: `spelled_of_lex`, `lex_spell` and `decodeString_quoteUnits`.
-/

namespace Js.Parse

/-! ## Numbers -/

/-- The signs, digits and letters that the expression for a number admits. -/
structure NumberFields.WellFormed (fields : NumberFields) : Prop where
  sign : fields.sign = [] ∨ fields.sign = [45]
  whole : fields.whole = [48] ∨
    fields.whole ≠ [] ∧ fields.whole.head? ≠ some 48 ∧ ∀ d ∈ fields.whole, isDigit d = true
  fraction : ∀ digits, fields.fraction = some digits →
    digits ≠ [] ∧ ∀ d ∈ digits, isDigit d = true
  exponent : ∀ exponent, fields.exponent = some exponent →
    (exponent.1 = 101 ∨ exponent.1 = 69) ∧ ∃ sign digits, exponent.2 = sign ++ digits ∧
      (sign = [] ∨ sign = [43] ∨ sign = [45]) ∧ digits ≠ [] ∧ ∀ d ∈ digits, isDigit d = true

/-- What follows is no further digit. -/
def NoDigit (rest : Units) : Prop := ∀ c, rest.head? = some c → isDigit c = false

/-- What follows does not continue a number. -/
def Stops (rest : Units) : Prop :=
  ∀ c, rest.head? = some c → isDigit c = false ∧ c ≠ 46 ∧ c ≠ 101 ∧ c ≠ 69

theorem Stops.noDigit {rest : Units} (h : Stops rest) : NoDigit rest := fun c hc => (h c hc).1

theorem stops_nil : Stops [] := fun _ h => by cases h

theorem stops_cons {c : Nat} (hc : isDigit c = false ∧ c ≠ 46 ∧ c ≠ 101 ∧ c ≠ 69) (rest : Units) :
    Stops (c :: rest) := by
  intro d hd
  cases hd
  exact hc

theorem takeWhile_digits {digits rest : Units} (hdigits : ∀ d ∈ digits, isDigit d = true)
    (hrest : NoDigit rest) : (digits ++ rest).takeWhile isDigit = digits := by
  rw [List.takeWhile_append_of_pos hdigits]
  cases rest with
  | nil => simp
  | cons c rest =>
    have hc : isDigit c = false := hrest c rfl
    rw [List.takeWhile_cons_of_neg (by simp [hc]), List.append_nil]

theorem wholeAt_append {whole rest : Units} (hrest : NoDigit rest)
    (h : whole = [48] ∨ whole ≠ [] ∧ whole.head? ≠ some 48 ∧ ∀ d ∈ whole, isDigit d = true) :
    wholeAt (whole ++ rest) = some whole := by
  rcases h with rfl | ⟨hne, hhead, hdigits⟩
  · rfl
  · cases whole with
    | nil => exact absurd rfl hne
    | cons c more =>
      have hc : isDigit c = true := hdigits c (by simp)
      have hzero : c ≠ 48 := fun h => hhead (by rw [h]; rfl)
      unfold wholeAt
      rw [List.cons_append]
      split
      · rename_i heq
        exact absurd (List.cons.inj heq).1 hzero
      · rename_i heq
        obtain ⟨rfl, rfl⟩ := List.cons.inj heq
        rw [if_pos hc, ← List.cons_append, takeWhile_digits hdigits hrest]
      · rename_i heq
        cases heq

theorem fractionAt_append {digits rest : Units} (hne : digits ≠ [])
    (hdigits : ∀ d ∈ digits, isDigit d = true) (hrest : NoDigit rest) :
    fractionAt (46 :: (digits ++ rest)) = some digits := by
  rw [fractionAt, takeWhile_digits hdigits hrest, if_neg hne]

theorem fractionAt_none {rest : Units} (h : rest.head? ≠ some 46) : fractionAt rest = none := by
  unfold fractionAt
  split
  · exact absurd rfl h
  · rfl

theorem exponentAt_append {letter : Nat} {sign digits rest : Units}
    (hletter : letter = 101 ∨ letter = 69) (hsign : sign = [] ∨ sign = [43] ∨ sign = [45])
    (hne : digits ≠ []) (hdigits : ∀ d ∈ digits, isDigit d = true) (hrest : NoDigit rest) :
    exponentAt (letter :: (sign ++ digits ++ rest)) = some (letter, sign ++ digits) := by
  have htaken : ((sign ++ digits ++ rest).take 1).filter (fun c => c = 43 || c = 45) = sign := by
    rcases hsign with rfl | rfl | rfl
    · -- the first unit is a digit, and no sign
      cases digits with
      | nil => exact absurd rfl hne
      | cons d more =>
        have hd : isDigit d = true := hdigits d (by simp)
        have : ¬(d = 43 ∨ d = 45) := by
          rintro (rfl | rfl) <;> cases hd
        simp only [List.nil_append, List.cons_append, List.take_succ_cons, List.take_zero]
        rw [List.filter_cons_of_neg (by simpa using this)]
        rfl
    · rfl
    · rfl
  simp only [exponentAt, htaken]
  rw [List.append_assoc, List.drop_left, takeWhile_digits hdigits hrest, if_pos ⟨hletter, hne⟩]

theorem exponentAt_none {rest : Units} (h : ∀ c, rest.head? = some c → c ≠ 101 ∧ c ≠ 69) :
    exponentAt rest = none := by
  cases rest with
  | nil => rfl
  | cons c more =>
    obtain ⟨hlower, hupper⟩ := h c rfl
    rw [exponentAt, if_neg (by simp [hlower, hupper])]

/-- The fields are read back from their text. -/
theorem numberAt_text {fields : NumberFields} (h : fields.WellFormed) {rest : Units}
    (hrest : Stops rest) : numberAt (fields.text ++ rest) = some fields := by
  obtain ⟨sign, whole, fraction, exponent⟩ := fields
  obtain ⟨hsign, hwhole, hfraction, hexponent⟩ := h
  simp only at hsign hwhole hfraction hexponent
  -- what follows each part, from the end
  have hexpText : ∃ tail, (exponent.elim [] fun e => e.1 :: e.2) ++ rest = tail ∧
      exponentAt tail = exponent ∧ NoDigit tail ∧ tail.head? ≠ some 46 := by
    cases exponent with
    | none =>
      refine ⟨rest, rfl, exponentAt_none fun c hc => (hrest c hc).2.2, hrest.noDigit, ?_⟩
      exact fun hdot => (hrest 46 hdot).2.1 rfl
    | some exponent =>
      obtain ⟨hletter, esign, digits, heq, hesign, hne, hdigits⟩ := hexponent _ rfl
      obtain ⟨letter, signed⟩ := exponent
      simp only at heq hletter
      subst heq
      refine ⟨letter :: (esign ++ digits ++ rest), rfl,
        exponentAt_append hletter hesign hne hdigits hrest.noDigit, ?_, ?_⟩
      · intro c hc
        cases hc
        rcases hletter with rfl | rfl <;> rfl
      · rcases hletter with rfl | rfl <;> simp
  obtain ⟨tail, htail, hexpAt, hexpDigit, hexpDot⟩ := hexpText
  have hfracText : ∃ tail', (fraction.elim [] (46 :: ·)) ++ tail = tail' ∧
      fractionAt tail' = fraction ∧ NoDigit tail' := by
    cases fraction with
    | none => exact ⟨tail, rfl, fractionAt_none hexpDot, hexpDigit⟩
    | some digits =>
      obtain ⟨hne, hdigits⟩ := hfraction digits rfl
      refine ⟨46 :: (digits ++ tail), rfl, fractionAt_append hne hdigits hexpDigit, ?_⟩
      intro c hc
      cases hc
      rfl
  obtain ⟨tail', htail', hfracAt, hfracDigit⟩ := hfracText
  have hwholeAt := wholeAt_append hfracDigit hwhole
  have htext : NumberFields.text ⟨sign, whole, fraction, exponent⟩ ++ rest =
      sign ++ (whole ++ tail') := by
    simp only [NumberFields.text]
    rw [← htail', ← htail]
    simp only [List.append_assoc]
  have hsignAt : (if (sign ++ (whole ++ tail')).head? = some 45 then [45] else []) = sign := by
    rcases hsign with rfl | rfl
    · rw [if_neg]
      intro hminus
      rcases hwhole with rfl | ⟨hne, -, hdigits⟩
      · cases hminus
      · cases whole with
        | nil => exact absurd rfl hne
        | cons c more =>
          cases hminus
          have : isDigit 45 = true := hdigits 45 (by simp)
          cases this
    · rfl
  rw [htext]
  simp only [numberAt, hsignAt, List.drop_left, hwholeAt, Option.map_some]
  rw [← List.append_assoc, List.drop_left, hfracAt]
  have hdecimal : sign ++ whole ++ tail' = sign ++ whole ++ fraction.elim [] (46 :: ·) ++ tail := by
    rw [← htail', List.append_assoc (sign ++ whole)]
  rw [hdecimal, List.drop_left, hexpAt]

theorem wellFormed_wholeAt {text whole : Units} (h : wholeAt text = some whole) :
    whole = [48] ∨ whole ≠ [] ∧ whole.head? ≠ some 48 ∧ ∀ d ∈ whole, isDigit d = true := by
  unfold wholeAt at h
  split at h
  · exact .inl (Option.some.inj h).symm
  · rename_i c rest hzero
    split at h
    · rename_i hdigit
      rw [← Option.some.inj h, List.takeWhile_cons_of_pos hdigit]
      refine .inr ⟨by simp, ?_, ?_⟩
      · intro hhead
        cases hhead
        exact hzero rfl
      · intro d hd
        rw [← List.takeWhile_cons_of_pos hdigit] at hd
        exact List.mem_takeWhile_imp hd
    · cases h
  · cases h

theorem wellFormed_fractionAt {text digits : Units} (h : fractionAt text = some digits) :
    digits ≠ [] ∧ ∀ d ∈ digits, isDigit d = true := by
  unfold fractionAt at h
  split at h
  · split at h
    · cases h
    · rename_i hne
      rw [← Option.some.inj h]
      exact ⟨hne, fun d hd => List.mem_takeWhile_imp hd⟩
  · cases h

theorem wellFormed_exponentAt {text : Units} {exponent : Nat × Units}
    (h : exponentAt text = some exponent) :
    (exponent.1 = 101 ∨ exponent.1 = 69) ∧ ∃ sign digits, exponent.2 = sign ++ digits ∧
      (sign = [] ∨ sign = [43] ∨ sign = [45]) ∧ digits ≠ [] ∧ ∀ d ∈ digits, isDigit d = true := by
  unfold exponentAt at h
  split at h
  · rename_i letter rest
    simp only at h
    split at h
    · rename_i hletter
      rw [← Option.some.inj h]
      refine ⟨hletter.1, _, _, rfl, ?_, hletter.2, fun d hd => List.mem_takeWhile_imp hd⟩
      cases rest with
      | nil => exact .inl rfl
      | cons c more =>
        by_cases hc : c = 43 ∨ c = 45
        · rcases hc with rfl | rfl
          · exact .inr (.inl rfl)
          · exact .inr (.inr rfl)
        · exact .inl (by simpa using hc)
    · cases h
  · cases h

theorem wellFormed_of_numberAt {text : Units} {fields : NumberFields}
    (h : numberAt text = some fields) : fields.WellFormed := by
  obtain ⟨whole, hwhole, rfl⟩ := Option.map_eq_some_iff.mp h
  constructor
  · simp only
    split
    · exact .inr rfl
    · exact .inl rfl
  · exact wellFormed_wholeAt hwhole
  · exact fun digits hdigits => wellFormed_fractionAt hdigits
  · exact fun exponent hexponent => wellFormed_exponentAt hexponent

/-! ## Strings -/

theorem stringBody_escape (c : Nat) (rest : Units) :
    stringBody (92 :: c :: rest) = (stringBody rest).map fun body => 92 :: c :: body := by
  rw [stringBody]

theorem stringBody_plain {c : Nat} (hquote : c ≠ 34) (hescape : c ≠ 92) (rest : Units) :
    stringBody (c :: rest) = (stringBody rest).map (c :: ·) := by
  rw [stringBody]
  · exact hquote
  · intro _ _ h
    exact absurd h hescape

/-- Where a body ends does not depend on what follows the quote. -/
theorem stringBody_append {text body : Units} (h : stringBody text = some body) (rest : Units) :
    stringBody (body ++ 34 :: rest) = some body := by
  induction text using stringBody.induct generalizing body with
  | case1 => cases h
  | case2 text =>
    rw [stringBody, Option.some.injEq] at h
    rw [← h]
    rfl
  | case3 c text ih =>
    rw [stringBody_escape, Option.map_eq_some_iff] at h
    obtain ⟨tail, htail, rfl⟩ := h
    rw [List.cons_append, List.cons_append, stringBody_escape, ih htail]
    rfl
  | case4 c text hquote hescape ih =>
    rw [stringBody, Option.map_eq_some_iff] at h
    · obtain ⟨tail, htail, rfl⟩ := h
      by_cases hc : c = 92
      · -- a lone backslash: nothing follows it
        cases text with
        | nil => cases htail
        | cons d more => exact absurd rfl (hescape d more hc)
      · rw [List.cons_append, stringBody_plain hquote hc, ih htail]
        rfl
    · exact hquote
    · exact hescape

theorem decodeString_plainUnit {c : Nat} (hlow : 32 ≤ c) (hescape : c ≠ 92) (rest : Units) :
    decodeString (c :: rest) = (decodeString rest).map (c :: ·) := by
  have hbad : ¬(c < 32 ∨ c = 92) := by omega
  rw [decodeString]
  · rw [if_neg hbad]
    cases decodeString rest <;> rfl
  · intro _ _ _ _ _ h
    exact absurd h hescape
  · intro _ _ h
    exact absurd h hescape

theorem decodeString_escape {e value : Nat} (he : e ≠ 117) (h : simpleEscape e = some value)
    (rest : Units) : decodeString (92 :: e :: rest) = (decodeString rest).map (value :: ·) := by
  rw [decodeString]
  · rw [h]
    cases decodeString rest <;> rfl
  · intro _ _ _ _ _ heq
    exact absurd heq he

theorem decodeString_hex {a b c d value : Nat} (h : Units.fourHex [a, b, c, d] = some value)
    (rest : Units) :
    decodeString (92 :: 117 :: a :: b :: c :: d :: rest) =
      (decodeString rest).map (value :: ·) := by
  rw [decodeString, h]
  cases decodeString rest <;> rfl

theorem hexValue_hexDigit {v : Nat} (hv : v < 16) : Units.hexValue (Units.hexDigit v) = some v := by
  have all : ∀ v < 16, Units.hexValue (Units.hexDigit v) = some v := by decide
  exact all v hv

theorem fourHex_unicodeEscape {c : Nat} (hc : c < 65536) :
    Units.fourHex [Units.hexDigit (c / 4096 % 16), Units.hexDigit (c / 256 % 16),
      Units.hexDigit (c / 16 % 16), Units.hexDigit (c % 16)] = some c := by
  have hdigit (n : Nat) : Units.hexValue (Units.hexDigit (n % 16)) = some (n % 16) :=
    hexValue_hexDigit (Nat.mod_lt n (by decide))
  simp only [Units.fourHex, hdigit, Option.bind_eq_bind, Option.bind_some, Option.pure_def,
    Option.some.injEq]
  omega

/-- The units that are written as `\uxxxx`. -/
theorem escaped_lt {c : Nat} (h : c < 32 ∨ Units.isHighSurrogate c ∨ Units.isLowSurrogate c) :
    c < 65536 := by
  simp only [Units.isHighSurrogate, Units.isLowSurrogate, Bool.and_eq_true, decide_eq_true_eq] at h
  omega

/-- A quoted unit decodes to the unit. One case for each way to write it. -/
theorem decodeString_quoteUnit (c : Nat) (rest : Units) :
    decodeString (Units.quoteUnit c ++ rest) = (decodeString rest).map (c :: ·) := by
  unfold Units.quoteUnit
  split
  · rename_i hc
    rcases hc with rfl | rfl
    · exact decodeString_escape (by decide) rfl rest
    · exact decodeString_escape (by decide) rfl rest
  split
  · rename_i hc
    subst hc
    exact decodeString_escape (by decide) rfl rest
  split
  · rename_i hc
    subst hc
    exact decodeString_escape (by decide) rfl rest
  split
  · rename_i hc
    subst hc
    exact decodeString_escape (by decide) rfl rest
  split
  · rename_i hc
    subst hc
    exact decodeString_escape (by decide) rfl rest
  split
  · rename_i hc
    subst hc
    exact decodeString_escape (by decide) rfl rest
  split
  · rename_i hc
    exact decodeString_hex (fourHex_unicodeEscape (escaped_lt hc)) rest
  · rename_i hquote _ _ _ _ _ hcontrol
    exact decodeString_plainUnit (by omega) (fun h => hquote (.inr h)) rest

theorem stringBody_quoteUnit (c : Nat) (rest : Units) :
    stringBody (Units.quoteUnit c ++ rest) = (stringBody rest).map (Units.quoteUnit c ++ ·) := by
  unfold Units.quoteUnit
  split
  · exact stringBody_escape c rest
  split
  · exact stringBody_escape 98 rest
  split
  · exact stringBody_escape 116 rest
  split
  · exact stringBody_escape 110 rest
  split
  · exact stringBody_escape 102 rest
  split
  · exact stringBody_escape 114 rest
  split
  · -- after the escaped letter come four digits
    have hdigit (v : Nat) : Units.hexDigit (v % 16) ≠ 34 ∧ Units.hexDigit (v % 16) ≠ 92 := by
      have hv := Nat.mod_lt v (y := 16) (by decide)
      unfold Units.hexDigit
      split <;> omega
    simp only [Units.unicodeEscape, List.cons_append, List.nil_append]
    rw [stringBody_escape, stringBody_plain (hdigit _).1 (hdigit _).2,
      stringBody_plain (hdigit _).1 (hdigit _).2, stringBody_plain (hdigit _).1 (hdigit _).2,
      stringBody_plain (hdigit _).1 (hdigit _).2]
    simp only [Option.map_map]
    rfl
  · rename_i hquote _ _ _ _ _ _
    exact stringBody_plain (fun h => hquote (.inl h)) (fun h => hquote (.inr h)) rest

theorem surrogate_plain {c : Nat} (h : Units.isHighSurrogate c = true ∨
    Units.isLowSurrogate c = true) : 32 ≤ c ∧ c ≠ 92 ∧ c ≠ 34 := by
  simp only [Units.isHighSurrogate, Units.isLowSurrogate, Bool.and_eq_true, decide_eq_true_eq] at h
  omega

/-- What is quoted decodes to itself. -/
theorem decodeString_quoteUnits (text : Units) : decodeString (Units.quoteUnits text) = some text := by
  induction text using Units.quoteUnits.induct with
  | case1 => rfl
  | case2 c =>
    rw [Units.quoteUnits, ← List.append_nil (Units.quoteUnit c), decodeString_quoteUnit]
    rfl
  | case3 c d rest hpair ih =>
    obtain ⟨hhigh, hlow⟩ := Bool.and_eq_true_iff.mp hpair
    obtain ⟨hc, hc92, -⟩ := surrogate_plain (.inl hhigh)
    obtain ⟨hd, hd92, -⟩ := surrogate_plain (.inr hlow)
    rw [Units.quoteUnits, if_pos hpair, decodeString_plainUnit hc hc92,
      decodeString_plainUnit hd hd92, ih]
    rfl
  | case4 c d rest hpair ih =>
    rw [Units.quoteUnits, if_neg hpair, decodeString_quoteUnit, ih]
    rfl

/-- A quoted text is closed by the quote after it, and by none before. -/
theorem stringBody_quoteUnits (text rest : Units) :
    stringBody (Units.quoteUnits text ++ 34 :: rest) = some (Units.quoteUnits text) := by
  induction text using Units.quoteUnits.induct with
  | case1 => rfl
  | case2 c =>
    rw [Units.quoteUnits, stringBody_quoteUnit, stringBody]
    simp
  | case3 c d text hpair ih =>
    obtain ⟨hhigh, hlow⟩ := Bool.and_eq_true_iff.mp hpair
    obtain ⟨-, hc92, hc34⟩ := surrogate_plain (.inl hhigh)
    obtain ⟨-, hd92, hd34⟩ := surrogate_plain (.inr hlow)
    rw [Units.quoteUnits, if_pos hpair, List.cons_append, List.cons_append,
      stringBody_plain hc34 hc92, stringBody_plain hd34 hd92, ih]
    rfl
  | case4 c d text hpair ih =>
    rw [Units.quoteUnits, if_neg hpair, List.append_assoc, stringBody_quoteUnit, ih]
    rfl

/-! ## Tokens -/

/-- The token is spelled as the scanner would leave it. -/
def Token.Proper : Token → Prop
  | .number fields => fields.WellFormed
  | .string body =>
      (decodeString body).isSome = true ∧ ∀ rest, stringBody (body ++ 34 :: rest) = some body
  | _ => True

def Token.isNumber : Token → Bool
  | .number _ => true
  | _ => false

/-- Keys and values that are no array and no object. -/
def Token.isScalar : Token → Bool
  | .null | .bool _ | .number _ | .string _ => true
  | _ => false

/-- What may follow a value. -/
def Token.closes : Token → Bool
  | .comma | .endArray | .endObject => true
  | _ => false

theorem Token.proper_quoted (text : Units) : Token.Proper (.string (Units.quoteUnits text)) :=
  ⟨by rw [decodeString_quoteUnits]; rfl, stringBody_quoteUnits text⟩

/-- What a number begins with is a digit or a minus, and nothing else. -/
theorem ne_of_starts {c d : Nat} (hc : isDigit c = true ∨ c = 45) (hd : isDigit d = false)
    (hminus : d ≠ 45) : c ≠ d := by
  rintro rfl
  rcases hc with hc | hc
  · rw [hc] at hd
    cases hd
  · exact hminus hc

theorem tokenAt_number {c : Nat} {rest : Units} (hc : isDigit c = true ∨ c = 45) :
    tokenAt (c :: rest) = (numberAt (c :: rest)).map .number := by
  have hplain : c ≠ 34 := ne_of_starts hc rfl (by decide)
  have hfixed : (fixedTokens.find? fun token => token.text.isPrefixOf (c :: rest)) = none := by
    rw [List.find?_eq_none]
    intro token htoken hleads
    -- no fixed token begins with a digit or a minus
    have hhead : ∀ token ∈ fixedTokens, ∀ d, token.text.head? = some d →
        isDigit d = false ∧ d ≠ 45 := by decide
    cases htext : token.text with
    | nil =>
      have hne : ∀ token ∈ fixedTokens, token.text ≠ [] := by decide
      exact hne token htoken htext
    | cons d more =>
      rw [htext, List.isPrefixOf_cons_cons, Bool.and_eq_true, beq_iff_eq] at hleads
      obtain ⟨hdigit, hminus⟩ := hhead token htoken d (by rw [htext]; rfl)
      exact ne_of_starts hc hdigit hminus hleads.1.symm
  have hstring : stringAt (c :: rest) = none := by
    unfold stringAt
    split
    · rename_i heq
      exact absurd (List.cons.inj heq).1 hplain
    · rfl
  rw [tokenAt, hfixed, hstring]
  rfl

theorem NumberFields.WellFormed.head {fields : NumberFields} (h : fields.WellFormed) :
    ∃ c rest, fields.text = c :: rest ∧ (isDigit c = true ∨ c = 45) := by
  obtain ⟨sign, whole, fraction, exponent⟩ := fields
  obtain ⟨hsign, hwhole, -, -⟩ := h
  simp only at hsign hwhole
  rcases hsign with rfl | rfl
  · rcases hwhole with rfl | ⟨hne, -, hdigits⟩
    · exact ⟨48, _, rfl, .inl rfl⟩
    · cases whole with
      | nil => exact absurd rfl hne
      | cons c more => exact ⟨c, _, rfl, .inl (hdigits c (by simp))⟩
  · exact ⟨45, _, rfl, .inr rfl⟩

theorem NumberFields.WellFormed.head_ne {fields : NumberFields} (h : fields.WellFormed) {d : Nat}
    (hd : isDigit d = false) (hminus : d ≠ 45) : fields.text.head? ≠ some d := by
  obtain ⟨c, rest, htext, hc⟩ := NumberFields.WellFormed.head h
  rw [htext]
  intro heq
  exact ne_of_starts hc hd hminus (Option.some.inj heq)

/-- A token is found where it is spelled. -/
theorem tokenAt_text {token : Token} (h : token.Proper) {rest : Units}
    (hrest : token.isNumber = true → Stops rest) : tokenAt (token.text ++ rest) = some token := by
  cases token with
  | number fields =>
    obtain ⟨c, more, htext, hc⟩ := NumberFields.WellFormed.head h
    have hnumber := numberAt_text h (hrest rfl)
    rw [htext, List.cons_append] at hnumber
    rw [Token.text, htext, List.cons_append, tokenAt_number hc, hnumber]
    rfl
  | string body =>
    obtain ⟨hdecode, hbody⟩ := h
    obtain ⟨decoded, hdecode⟩ := Option.isSome_iff_exists.mp hdecode
    have hfixed : (fixedTokens.find? fun token =>
        token.text.isPrefixOf (34 :: (body ++ 34 :: rest))) = none := by
      have hhead : ∀ token ∈ fixedTokens, token.text.head? ≠ some 34 ∧ token.text ≠ [] := by
        decide
      rw [List.find?_eq_none]
      intro token htoken hleads
      obtain ⟨hquote, hne⟩ := hhead token htoken
      cases htext : token.text with
      | nil => exact hne htext
      | cons d more =>
        rw [htext, List.isPrefixOf_cons_cons, Bool.and_eq_true, beq_iff_eq] at hleads
        exact hquote (by rw [htext, hleads.1]; rfl)
    have htext : (Token.string body).text ++ rest = 34 :: (body ++ 34 :: rest) := by
      simp [Token.text]
    rw [htext, tokenAt, hfixed]
    simp only [stringAt, hbody rest, Option.bind_eq_bind, Option.bind_some, hdecode]
    rfl
  | bool value => cases value <;> rfl
  | _ => rfl

theorem proper_of_tokenAt {text : Units} {token : Token} (h : tokenAt text = some token) :
    token.Proper := by
  rcases Option.or_eq_some_iff.mp h with hfixed | ⟨-, h⟩
  · have hmem := List.mem_of_find?_eq_some hfixed
    simp only [fixedTokens, List.mem_cons, List.not_mem_nil, or_false] at hmem
    rcases hmem with rfl | rfl | rfl | rfl | rfl | rfl | rfl | rfl | rfl <;> trivial
  · rcases Option.or_eq_some_iff.mp h with hstring | ⟨-, hnumber⟩
    · unfold stringAt at hstring
      split at hstring
      · obtain ⟨body, hbody, hrest⟩ := Option.bind_eq_some_iff.mp hstring
        obtain ⟨decoded, hdecoded, htoken⟩ := Option.bind_eq_some_iff.mp hrest
        rw [← Option.some.inj htoken]
        exact ⟨by rw [hdecoded]; rfl, stringBody_append hbody⟩
      · cases hstring
    · obtain ⟨fields, hfields, rfl⟩ := Option.map_eq_some_iff.mp hnumber
      exact wellFormed_of_numberAt hfields

theorem proper_of_lexFrom {skip : Nat} {text : Units} {tokens : List Token}
    (h : lexFrom skip text = some tokens) : ∀ token ∈ tokens, token.Proper := by
  induction text generalizing skip tokens with
  | nil =>
    have hnil : lexFrom skip [] = some [] := by cases skip <;> rfl
    rw [hnil] at h
    rw [← Option.some.inj h]
    simp
  | cons c rest ih =>
    cases skip with
    | succ skip => exact ih h
    | zero =>
      rw [lexFrom] at h
      split at h
      · exact ih h
      · obtain ⟨token, htoken, hmore⟩ := Option.bind_eq_some_iff.mp h
        obtain ⟨more, htail, heq⟩ := Option.bind_eq_some_iff.mp hmore
        rw [← Option.some.inj heq]
        intro other hother
        rcases List.mem_cons.mp hother with rfl | hother
        · exact proper_of_tokenAt htoken
        · exact ih htail other hother

/-! ## Spelling -/

/-- A token and the whitespace before it. -/
structure Piece where
  white : Units
  token : Token
deriving DecidableEq, Repr

/-- The text of the pieces, and `last` after them. -/
def spell (pieces : List Piece) (last : Units) : Units :=
  pieces.foldr (fun piece rest => piece.white ++ piece.token.text ++ rest) last

def White (text : Units) : Prop := ∀ c ∈ text, isWhite c = true

/-- A text that is spelled token by token. -/
structure Spelling (pieces : List Piece) (last : Units) : Prop where
  white : ∀ piece ∈ pieces, White piece.white
  last : White last
  proper : ∀ piece ∈ pieces, piece.token.Proper

/-- No number is followed by anything that could continue it. -/
def NumbersStop (tokens : List Token) : Prop :=
  tokens.IsChain fun token next => token.isNumber = true → next.closes = true

theorem Spelling.tail {piece : Piece} {pieces : List Piece} {last : Units}
    (h : Spelling (piece :: pieces) last) : Spelling pieces last where
  white other hother := h.white other (List.mem_cons_of_mem _ hother)
  last := h.last
  proper other hother := h.proper other (List.mem_cons_of_mem _ hother)

/-- A text that the scanner accepts is spelled by its tokens. -/
theorem spelled_of_lex {text : Units} {tokens : List Token} (h : lex text = some tokens) :
    ∃ pieces last, Spelling pieces last ∧ text = spell pieces last ∧
      tokens = pieces.map Piece.token := by
  have hproper := proper_of_lexFrom h
  have hlexed := lexed_of_lex h
  clear h
  induction hlexed with
  | nil hwhite => exact ⟨[], _, ⟨by simp, hwhite, by simp⟩, rfl, rfl⟩
  | @cons white rest token tokens hwhite _ ih =>
    obtain ⟨pieces, last, hspelling, rfl, rfl⟩ :=
      ih fun other hother => hproper other (List.mem_cons_of_mem _ hother)
    refine ⟨⟨white, token⟩ :: pieces, last, ?_, rfl, rfl⟩
    constructor
    · intro piece hpiece
      rcases List.mem_cons.mp hpiece with rfl | hpiece
      · exact hwhite
      · exact hspelling.white piece hpiece
    · exact hspelling.last
    · intro piece hpiece
      rcases List.mem_cons.mp hpiece with rfl | hpiece
      · exact hproper token (List.mem_cons_self ..)
      · exact hspelling.proper piece hpiece

theorem not_continues_of_isWhite {c : Nat} (h : isWhite c = true) :
    isDigit c = false ∧ c ≠ 46 ∧ c ≠ 101 ∧ c ≠ 69 := by
  simp only [isWhite, Bool.or_eq_true, decide_eq_true_eq] at h
  rcases h with ((rfl | rfl) | rfl) | rfl <;> decide

theorem stops_white {white rest : Units} (hwhite : White white) (hrest : Stops rest) :
    Stops (white ++ rest) := by
  cases white with
  | nil => exact hrest
  | cons c more => exact stops_cons (not_continues_of_isWhite (hwhite c (by simp))) _

/-- What comes after a number in a spelled text. -/
theorem stops_spell {pieces : List Piece} {last : Units} (h : Spelling pieces last)
    (hnext : ∀ piece, pieces.head? = some piece → piece.token.closes = true) :
    Stops (spell pieces last) := by
  cases pieces with
  | nil =>
    have hend := stops_white h.last stops_nil
    rwa [List.append_nil] at hend
  | cons piece rest =>
    have hcloses := hnext piece rfl
    have hwhite := h.white piece (List.mem_cons_self ..)
    obtain ⟨white, token⟩ := piece
    simp only at hcloses hwhite
    unfold spell
    rw [List.foldr_cons, List.append_assoc]
    refine stops_white hwhite ?_
    cases token with
    | comma => exact stops_cons (by decide) _
    | endArray => exact stops_cons (by decide) _
    | endObject => exact stops_cons (by decide) _
    | _ => cases hcloses

theorem NumbersStop.follows {piece : Piece} {pieces : List Piece} {last : Units}
    (hstop : NumbersStop ((piece :: pieces).map Piece.token))
    (h : Spelling (piece :: pieces) last) :
    piece.token.isNumber = true → Stops (spell pieces last) := by
  intro hnumber
  refine stops_spell h.tail fun next hnext => ?_
  cases pieces with
  | nil => cases hnext
  | cons other more =>
    cases hnext
    exact (List.isChain_cons_cons.mp hstop).1 hnumber

theorem lexFrom_white {white : Units} (hwhite : White white) (rest : Units) :
    lexFrom 0 (white ++ rest) = lexFrom 0 rest := by
  induction white with
  | nil => rfl
  | cons c more ih =>
    rw [List.cons_append, lexFrom, if_pos (hwhite c (by simp))]
    exact ih fun d hd => hwhite d (List.mem_cons_of_mem _ hd)

theorem isWhite_head {c : Nat} {token : Token}
    (h : token.text.head? = some c) (hproper : token.Proper) : isWhite c = false := by
  cases token with
  | number fields =>
    obtain ⟨d, more, htext, hd⟩ := NumberFields.WellFormed.head hproper
    rw [Token.text, htext] at h
    cases h
    rcases hd with hd | rfl
    · simp only [isDigit, Bool.and_eq_true, decide_eq_true_eq] at hd
      simp only [isWhite, Bool.or_eq_false_iff, decide_eq_false_iff_not]
      omega
    · rfl
  | string body =>
    cases h
    rfl
  | bool value => cases value <;> cases h <;> rfl
  | _ =>
    cases h
    rfl

/-- The scanner finds the tokens that the text is spelled by. -/
theorem lex_spell {pieces : List Piece} {last : Units} (h : Spelling pieces last)
    (hstop : NumbersStop (pieces.map Piece.token)) :
    lex (spell pieces last) = some (pieces.map Piece.token) := by
  unfold lex
  induction pieces with
  | nil =>
    have hend := lexFrom_white h.last []
    rwa [List.append_nil] at hend
  | cons piece rest ih =>
    have hproper := h.proper piece (List.mem_cons_self ..)
    have hwhite := h.white piece (List.mem_cons_self ..)
    have hfollows := hstop.follows h
    have hrest := ih h.tail hstop.tail
    have htoken := tokenAt_text hproper hfollows
    obtain ⟨white, token⟩ := piece
    simp only at hproper hwhite htoken
    have hspell : spell (⟨white, token⟩ :: rest) last = white ++ (token.text ++ spell rest last) := by
      simp [spell]
    rw [hspell, lexFrom_white hwhite]
    cases htext : token.text with
    | nil => exact absurd htext (tokenAt_leads htoken).2
    | cons c more =>
      have hc : isWhite c = false := isWhite_head (by rw [htext]; rfl) hproper
      rw [htext, List.cons_append] at htoken
      have hlength : token.text.length - 1 = more.length := by rw [htext]; rfl
      rw [List.cons_append, lexFrom, if_neg (by rw [hc]; simp), htoken]
      simp only [Option.bind_eq_bind, Option.bind_some, hlength]
      rw [lexFrom_skip, List.drop_left, hrest]
      rfl

/-! ## What the machine asks of its tokens -/

theorem run_append (state : State) (before after : List Token) :
    run state (before ++ after) = (run state before).bind fun next => run next after := by
  induction before generalizing state with
  | nil => rfl
  | cons token rest ih =>
    rw [List.cons_append, run, run]
    cases step state token with
    | none => rfl
    | some next => exact ih next

theorem after_of_number {state next : State} {fields : NumberFields}
    (h : step state (.number fields) = some next) : ∃ stack value, next = .after stack value := by
  cases state with
  | value stack => exact ⟨stack, _, (Option.some.inj h).symm⟩
  | first stack => exact ⟨.array [] :: stack, _, (Option.some.inj h).symm⟩
  | key members stack => cases members <;> cases h
  | colon members key stack => cases h
  | after stack value =>
    cases stack with
    | nil => cases h
    | cons frame stack => cases frame <;> cases h

theorem closes_of_after {stack : List Frame} {value : Value} {token : Token} {next : State}
    (h : step (.after stack value) token = some next) : token.closes = true := by
  cases stack with
  | nil => cases token <;> cases h
  | cons frame stack => cases frame <;> cases token <;> first | rfl | cases h

/-- In a text that parses no number touches another token. -/
theorem numbersStop_of_run {state last : State} {tokens : List Token}
    (h : run state tokens = some last) : NumbersStop tokens := by
  induction tokens generalizing state with
  | nil => exact .nil
  | cons token rest ih =>
    obtain ⟨next, hstep, hrest⟩ := Option.bind_eq_some_iff.mp h
    cases rest with
    | nil => exact .singleton _
    | cons other more =>
      refine List.isChain_cons_cons.mpr ⟨fun hnumber => ?_, ih hrest⟩
      cases token with
      | number fields =>
        obtain ⟨stack, value, rfl⟩ := after_of_number hstep
        obtain ⟨_, hother, -⟩ := Option.bind_eq_some_iff.mp hrest
        exact closes_of_after hother
      | _ => cases hnumber

/-! ## Scalars replaced by strings -/

/-- The other token may stand in its place: it is the same, or a scalar has become a
string. -/
def Token.Replaces (token other : Token) : Prop :=
  other = token ∨
    token.isScalar = true ∧ ∃ body, other = .string body ∧ (decodeString body).isSome = true

inductive FrameAlike : Frame → Frame → Prop where
  | array {items items' : List Value} : FrameAlike (.array items) (.array items')
  | object {members members' : List (Units × Value)} {key key' : Units} :
      FrameAlike (.object members key) (.object members' key')

abbrev StackAlike := List.Forall₂ FrameAlike

/-- The machine is at the same place, with other values. -/
inductive StateAlike : State → State → Prop where
  | value {stack stack' : List Frame} (h : StackAlike stack stack') :
      StateAlike (.value stack) (.value stack')
  | first {stack stack' : List Frame} (h : StackAlike stack stack') :
      StateAlike (.first stack) (.first stack')
  | key {members members' : List (Units × Value)} {stack stack' : List Frame}
      (hempty : members = [] → members' = []) (h : StackAlike stack stack') :
      StateAlike (.key members stack) (.key members' stack')
  | colon {members members' : List (Units × Value)} {key key' : Units} {stack stack' : List Frame}
      (h : StackAlike stack stack') :
      StateAlike (.colon members key stack) (.colon members' key' stack')
  | after {stack stack' : List Frame} {v v' : Value} (h : StackAlike stack stack') :
      StateAlike (.after stack v) (.after stack' v')

theorem valueStep_alike {stack stack' : List Frame} (h : StackAlike stack stack')
    {token other : Token} (hother : token.Replaces other) {next : State}
    (hstep : valueStep stack token = some next) :
    ∃ next', valueStep stack' other = some next' ∧ StateAlike next next' := by
  rcases hother with rfl | ⟨hscalar, body, rfl, hbody⟩
  · cases other with
    | null => exact ⟨_, rfl, Option.some.inj hstep ▸ .after h⟩
    | bool value => exact ⟨_, rfl, Option.some.inj hstep ▸ .after h⟩
    | number fields => exact ⟨_, rfl, Option.some.inj hstep ▸ .after h⟩
    | string body =>
      obtain ⟨text, htext, rfl⟩ := Option.map_eq_some_iff.mp hstep
      exact ⟨.after stack' (.string text), by rw [valueStep, htext]; rfl, .after h⟩
    | beginArray => exact ⟨_, rfl, Option.some.inj hstep ▸ .first h⟩
    | beginObject => exact ⟨_, rfl, Option.some.inj hstep ▸ .key (fun _ => rfl) h⟩
    | _ => cases hstep
  · obtain ⟨text, htext⟩ := Option.isSome_iff_exists.mp hbody
    refine ⟨.after stack' (.string text), by rw [valueStep, htext]; rfl, ?_⟩
    cases token with
    | null => exact Option.some.inj hstep ▸ .after h
    | bool value => exact Option.some.inj hstep ▸ .after h
    | number fields => exact Option.some.inj hstep ▸ .after h
    | string old =>
      obtain ⟨_, _, rfl⟩ := Option.map_eq_some_iff.mp hstep
      exact .after h
    | _ => cases hscalar

/-- A scalar where no value may stand is a key. -/
theorem key_alike {members members' : List (Units × Value)} {stack stack' : List Frame}
    (hempty : members = [] → members' = []) (h : StackAlike stack stack')
    {token other : Token} (hother : token.Replaces other) {next : State}
    (hstep : step (.key members stack) token = some next) :
    ∃ next', step (.key members' stack') other = some next' ∧ StateAlike next next' := by
  have asKey {body : Units} (hbody : (decodeString body).isSome = true) :
      ∃ key', step (.key members' stack') (.string body) =
        some (.colon members' key' stack') := by
    obtain ⟨text, htext⟩ := Option.isSome_iff_exists.mp hbody
    refine ⟨text, ?_⟩
    cases members' <;> (rw [step, htext]; rfl)
  have wasKey {body : Units} (hstep : step (.key members stack) (.string body) = some next) :
      (decodeString body).isSome = true ∧ ∃ key, next = .colon members key stack := by
    have hmap : (decodeString body).map (fun key => State.colon members key stack) = some next := by
      cases members <;> exact hstep
    obtain ⟨text, htext, rfl⟩ := Option.map_eq_some_iff.mp hmap
    exact ⟨by rw [htext]; rfl, text, rfl⟩
  cases token with
  | string body =>
    obtain ⟨hbody, key, rfl⟩ := wasKey hstep
    rcases hother with rfl | ⟨-, body', rfl, hbody'⟩
    · obtain ⟨key', hkey⟩ := asKey hbody
      exact ⟨_, hkey, .colon h⟩
    · obtain ⟨key', hkey⟩ := asKey hbody'
      exact ⟨_, hkey, .colon h⟩
  | endObject =>
    rcases hother with rfl | ⟨hscalar, -⟩
    · cases members with
      | nil =>
        rw [hempty rfl]
        exact ⟨_, rfl, Option.some.inj hstep ▸ .after h⟩
      | cons member rest => cases hstep
    · cases hscalar
  | _ => cases members <;> cases hstep

theorem step_alike {state state' : State} (h : StateAlike state state') {token other : Token}
    (hother : token.Replaces other) {next : State} (hstep : step state token = some next) :
    ∃ next', step state' other = some next' ∧ StateAlike next next' := by
  cases h with
  | @value stack stack' h => exact valueStep_alike h hother hstep
  | @first stack stack' h =>
    have inner : StackAlike (.array [] :: stack) (.array [] :: stack') := .cons .array h
    by_cases hend : token = .endArray
    · subst hend
      rcases hother with rfl | ⟨hscalar, -⟩
      · exact ⟨_, rfl, Option.some.inj hstep ▸ .after h⟩
      · cases hscalar
    · have hothers : other ≠ .endArray := by
        rcases hother with rfl | ⟨-, body, rfl, -⟩
        · exact hend
        · simp
      rw [step] at hstep ⊢
      · exact valueStep_alike inner hother hstep
      · exact hothers
      · exact hend
  | @key members members' stack stack' hempty h => exact key_alike hempty h hother hstep
  | @colon members members' key key' stack stack' h =>
    cases token with
    | colon =>
      rcases hother with rfl | ⟨hscalar, -⟩
      · exact ⟨_, rfl, Option.some.inj hstep ▸ .value (.cons .object h)⟩
      · cases hscalar
    | _ => cases hstep
  | @after stack stack' v v' h =>
    -- a value that has been read is followed by no scalar
    have hsame : other = token := by
      rcases hother with rfl | ⟨hscalar, -⟩
      · rfl
      · have hcloses := closes_of_after hstep
        cases token <;>
          first
          | exact absurd hscalar Bool.false_ne_true
          | exact absurd hcloses Bool.false_ne_true
    subst hsame
    cases h with
    | nil => cases other <;> cases hstep
    | @cons frame frame' stack stack' hframe h =>
      cases hframe with
      | array =>
        cases other with
        | comma => exact ⟨_, rfl, Option.some.inj hstep ▸ .value (.cons .array h)⟩
        | endArray => exact ⟨_, rfl, Option.some.inj hstep ▸ .after h⟩
        | _ => cases hstep
      | object =>
        cases other with
        | comma =>
          refine ⟨_, rfl, Option.some.inj hstep ▸ .key (fun hnil => ?_) h⟩
          simp at hnil
        | endObject => exact ⟨_, rfl, Option.some.inj hstep ▸ .after h⟩
        | _ => cases hstep

theorem run_alike {tokens others : List Token} (hothers : List.Forall₂ Token.Replaces tokens others)
    {state state' last : State} (h : StateAlike state state')
    (hrun : run state tokens = some last) :
    ∃ last', run state' others = some last' ∧ StateAlike last last' := by
  induction hothers generalizing state state' with
  | nil =>
    rw [← Option.some.inj hrun]
    exact ⟨state', rfl, h⟩
  | @cons token other tokens others hother _ ih =>
    obtain ⟨next, hstep, hrest⟩ := Option.bind_eq_some_iff.mp hrun
    obtain ⟨next', hstep', halike⟩ := step_alike h hother hstep
    obtain ⟨last', hrun', hlast⟩ := ih halike hrest
    exact ⟨last', by rw [run, hstep']; exact hrun', hlast⟩

/-- A text that parses still does with scalars replaced by strings. -/
theorem parse_replaced {pieces pieces' : List Piece} {last : Units}
    (hparse : (parse (spell pieces last)).isSome = true) (h : Spelling pieces last)
    (hstop : NumbersStop (pieces.map Piece.token)) (h' : Spelling pieces' last)
    (hothers : List.Forall₂ Token.Replaces (pieces.map Piece.token) (pieces'.map Piece.token)) :
    lex (spell pieces' last) = some (pieces'.map Piece.token) ∧
      (parse (spell pieces' last)).isSome = true := by
  obtain ⟨value, hvalue⟩ := Option.isSome_iff_exists.mp hparse
  obtain ⟨tokens, htokens, hvalue⟩ := Option.bind_eq_some_iff.mp hvalue
  obtain ⟨state, hstate, hfinished⟩ := Option.bind_eq_some_iff.mp hvalue
  rw [lex_spell h hstop, Option.some.injEq] at htokens
  rw [← htokens] at hstate
  obtain ⟨state', hstate', halike⟩ := run_alike hothers (.value .nil) hstate
  have hlex := lex_spell h' (numbersStop_of_run hstate')
  refine ⟨hlex, ?_⟩
  unfold parse
  rw [hlex]
  simp only [Option.bind_eq_bind, Option.bind_some, hstate']
  cases halike with
  | after hstack =>
    cases hstack with
    | nil => rfl
    | cons => cases hfinished
  | _ => cases hfinished

end Js.Parse
