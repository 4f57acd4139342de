import OpenaiAuth.Redaction.Numbers

/-! # Redacting the literals of a JSON text

`redactCredentialJsonText` replaces literals by one regular expression. On a text that
parses, the expression finds the scalars among the tokens and nothing else, and decoding
a literal's escapes is what `JSON.parse` makes of it. So the result has the same tokens
but for the scalars that are redacted, and it parses.

Main result: `redactCredentialJsonText_tokens`. The exponents of numbers are compared
only up to 16 significant digits.
-/

namespace Redaction

open Js Js.Parse

/-! ## Decoding -/

theorem decodeFrom_skip (a b : Units) : decodeFrom a.length (a ++ b) = decodeFrom 0 b := by
  induction a with
  | nil => rfl
  | cons c rest ih => exact ih

theorem decodeFrom_escape {rest : Units} {value length : Nat}
    (h : escapeAt rest = some (value, length)) :
    decodeFrom 0 (92 :: rest) = value :: decodeFrom length rest := by
  rw [decodeFrom, if_pos rfl, h]

theorem shortEscape_eq {e value : Nat} (h : simpleEscape e = some value) :
    shortEscape e = some value ∧ Units.lower e ≠ 117 := by
  unfold simpleEscape at h
  split at h
  · rename_i he
    cases h
    rcases he with rfl | rfl | rfl <;> exact ⟨rfl, by decide⟩
  split at h
  · rename_i he
    cases h
    subst he
    exact ⟨rfl, by decide⟩
  split at h
  · rename_i he
    cases h
    subst he
    exact ⟨rfl, by decide⟩
  split at h
  · rename_i he
    cases h
    subst he
    exact ⟨rfl, by decide⟩
  split at h
  · rename_i he
    cases h
    subst he
    exact ⟨rfl, by decide⟩
  split at h
  · rename_i he
    cases h
    subst he
    exact ⟨rfl, by decide⟩
  · cases h

/-- On the body of a string both ways to decode it agree. -/
theorem decodeEscapes_eq {body text : Units} (h : decodeString body = some text) :
    decodeEscapes body = text := by
  unfold decodeEscapes
  induction body using decodeString.induct generalizing text with
  | case1 => exact Option.some.inj h
  | case2 a b c d rest ih =>
    obtain ⟨value, hvalue, h⟩ := Option.bind_eq_some_iff.mp h
    obtain ⟨decoded, hdecoded, h⟩ := Option.bind_eq_some_iff.mp h
    have hescape : escapeAt (117 :: a :: b :: c :: d :: rest) = some (value, 5) := by
      have hfour : Units.fourHex (a :: b :: c :: d :: rest) = some value := hvalue
      rw [escapeAt, if_pos ⟨by decide, by rw [hfour]; rfl⟩, hfour]
      rfl
    rw [decodeFrom_escape hescape, ← Option.some.inj h]
    exact congrArg (value :: ·) ((decodeFrom_skip [117, a, b, c, d] rest).trans (ih hdecoded))
  | case3 e rest hhex ih =>
    rw [decodeString] at h
    · obtain ⟨value, hvalue, h⟩ := Option.bind_eq_some_iff.mp h
      obtain ⟨decoded, hdecoded, h⟩ := Option.bind_eq_some_iff.mp h
      obtain ⟨hshort, hlower⟩ := shortEscape_eq hvalue
      have hescape : escapeAt (e :: rest) = some (value, 1) := by
        rw [escapeAt, if_neg (fun h => hlower h.1), hshort]
        rfl
      rw [decodeFrom_escape hescape, ← Option.some.inj h]
      exact congrArg (value :: ·) ((decodeFrom_skip [e] rest).trans (ih hdecoded))
    · exact hhex
  | case4 c rest hhex hescape hbad =>
    rw [decodeString] at h
    · rw [if_pos hbad] at h
      cases h
    · exact hhex
    · exact hescape
  | case5 c rest hhex hescape hgood ih =>
    rw [decodeString] at h
    · rw [if_neg hgood] at h
      obtain ⟨decoded, hdecoded, h⟩ := Option.bind_eq_some_iff.mp h
      have hc : c ≠ 92 := fun h => hgood (.inr h)
      rw [decodeFrom, if_neg hc, ← Option.some.inj h, ih hdecoded]
    · exact hhex
    · exact hescape

/-! ## Scalars in a text -/

theorem not_quote_of_fourHex {a b c d value : Nat} (h : Units.fourHex [a, b, c, d] = some value) :
    ∀ e ∈ [a, b, c, d], e ≠ 34 ∧ e ≠ 92 := by
  have hexed (e v : Nat) (he : Units.hexValue e = some v) : e ≠ 34 ∧ e ≠ 92 := by
    constructor <;> rintro rfl <;> cases he
  obtain ⟨va, ha, h⟩ := Option.bind_eq_some_iff.mp h
  obtain ⟨vb, hb, h⟩ := Option.bind_eq_some_iff.mp h
  obtain ⟨vc, hc, h⟩ := Option.bind_eq_some_iff.mp h
  obtain ⟨vd, hd, h⟩ := Option.bind_eq_some_iff.mp h
  intro e he
  simp only [List.mem_cons, List.not_mem_nil, or_false] at he
  rcases he with rfl | rfl | rfl | rfl
  · exact hexed _ _ ha
  · exact hexed _ _ hb
  · exact hexed _ _ hc
  · exact hexed _ _ hd

theorem literalBody_plain {c : Nat} (hquote : c ≠ 34) (hescape : c ≠ 92) (rest : Units) :
    literalBody (c :: rest) = (literalBody rest).map (c :: ·) := by
  rw [literalBody]
  · rw [if_neg hescape]
  · exact hquote
  · intro _ _ h
    exact absurd h hescape

theorem literalBody_escape {c : Nat} (hc : isLineTerminator c = false) (rest : Units) :
    literalBody (92 :: c :: rest) = (literalBody rest).map fun body => 92 :: c :: body := by
  rw [literalBody, if_neg (by rw [hc]; simp)]

theorem not_lineTerminator_of_simpleEscape {e value : Nat} (h : simpleEscape e = some value) :
    isLineTerminator e = false := by
  by_contra hline
  rw [Bool.not_eq_false] at hline
  simp only [isLineTerminator, Bool.or_eq_true, decide_eq_true_eq] at hline
  rcases hline with ((rfl | rfl) | rfl) | rfl <;> cases h

/-- The expression for a string stops at the quote that ends the body. -/
theorem literalBody_append {body text : Units} (hdecode : decodeString body = some text)
    (rest : Units) (hbody : stringBody (body ++ 34 :: rest) = some body) :
    literalBody (body ++ 34 :: rest) = some (body ++ [34]) := by
  induction body using decodeString.induct generalizing text with
  | case1 => rfl
  | case2 a b c d more ih =>
    obtain ⟨value, hvalue, hdecode⟩ := Option.bind_eq_some_iff.mp hdecode
    obtain ⟨decoded, hdecoded, -⟩ := Option.bind_eq_some_iff.mp hdecode
    have hplain := not_quote_of_fourHex hvalue
    obtain ⟨ha, ha'⟩ := hplain a (by simp)
    obtain ⟨hb, hb'⟩ := hplain b (by simp)
    obtain ⟨hc, hc'⟩ := hplain c (by simp)
    obtain ⟨hd, hd'⟩ := hplain d (by simp)
    simp only [List.cons_append] at hbody ⊢
    rw [stringBody_escape, stringBody_plain ha ha', stringBody_plain hb hb',
      stringBody_plain hc hc', stringBody_plain hd hd'] at hbody
    simp only [Option.map_map, Option.map_eq_some_iff, Function.comp_apply, List.cons.injEq,
      true_and, exists_eq_right] at hbody
    rw [literalBody_escape (by decide), literalBody_plain ha ha', literalBody_plain hb hb',
      literalBody_plain hc hc', literalBody_plain hd hd', ih hdecoded hbody]
    rfl
  | case3 e more hhex ih =>
    rw [decodeString] at hdecode
    · obtain ⟨value, hvalue, hdecode⟩ := Option.bind_eq_some_iff.mp hdecode
      obtain ⟨decoded, hdecoded, -⟩ := Option.bind_eq_some_iff.mp hdecode
      simp only [List.cons_append] at hbody ⊢
      rw [stringBody_escape] at hbody
      simp only [Option.map_eq_some_iff, List.cons.injEq, true_and, exists_eq_right] at hbody
      rw [literalBody_escape (not_lineTerminator_of_simpleEscape hvalue), ih hdecoded hbody]
      rfl
    · exact hhex
  | case4 c more hhex hescape hbad =>
    rw [decodeString] at hdecode
    · rw [if_pos hbad] at hdecode
      cases hdecode
    · exact hhex
    · exact hescape
  | case5 c more hhex hescape hgood ih =>
    rw [decodeString] at hdecode
    · rw [if_neg hgood] at hdecode
      obtain ⟨decoded, hdecoded, -⟩ := Option.bind_eq_some_iff.mp hdecode
      have hc : c ≠ 92 := fun h => hgood (.inr h)
      -- a quote would have ended the body
      have hquote : c ≠ 34 := by
        rintro rfl
        rw [List.cons_append, stringBody] at hbody
        cases hbody
      rw [List.cons_append, stringBody_plain hquote hc] at hbody
      simp only [Option.map_eq_some_iff, List.cons.injEq, true_and, exists_eq_right] at hbody
      rw [List.cons_append, literalBody_plain hquote hc, ih hdecoded hbody]
      rfl
    · exact hhex
    · exact hescape

theorem literalAt_number {c : Nat} {rest : Units} (hc : isDigit c = true ∨ c = 45)
    {fields : NumberFields} (h : numberAt (c :: rest) = some fields) :
    literalAt (c :: rest) = some fields.text := by
  have hquote : c ≠ 34 := ne_of_starts hc rfl (by decide)
  unfold literalAt
  rw [h, if_neg (by simpa using hquote)]
  rfl

/-- The expression finds a scalar where it is spelled. -/
theorem literalAt_scalar {token : Token} (hscalar : token.isScalar = true) (h : token.Proper)
    {rest : Units} (hrest : token.isNumber = true → Stops rest) :
    literalAt (token.text ++ rest) = some token.text := by
  cases token with
  | number fields =>
    obtain ⟨c, more, htext, hc⟩ := NumberFields.WellFormed.head h
    have hnumber := numberAt_text h (hrest rfl)
    rw [htext, List.cons_append] at hnumber
    rw [Token.text, htext, List.cons_append, literalAt_number hc hnumber, htext]
  | string body =>
    obtain ⟨hdecode, hbody⟩ := h
    obtain ⟨decoded, hdecode⟩ := Option.isSome_iff_exists.mp hdecode
    have htext : (Token.string body).text ++ rest = 34 :: (body ++ 34 :: rest) := by
      simp [Token.text]
    rw [htext]
    simp only [literalAt, List.head?_cons, if_true, List.tail_cons,
      literalBody_append hdecode rest (hbody rest)]
    rfl
  | bool value => cases value <;> rfl
  | null => rfl
  | _ => cases hscalar

theorem literalAt_white {c : Nat} (hc : isWhite c = true) (rest : Units) :
    literalAt (c :: rest) = none := by
  simp only [isWhite, Bool.or_eq_true, decide_eq_true_eq] at hc
  rcases hc with ((rfl | rfl) | rfl) | rfl <;> rfl

theorem literalAt_mark {token : Token} (hscalar : token.isScalar = false) :
    ∃ c, token.text = [c] ∧ ∀ rest, literalAt (c :: rest) = none := by
  cases token with
  | beginArray => exact ⟨91, rfl, fun _ => rfl⟩
  | endArray => exact ⟨93, rfl, fun _ => rfl⟩
  | beginObject => exact ⟨123, rfl, fun _ => rfl⟩
  | endObject => exact ⟨125, rfl, fun _ => rfl⟩
  | colon => exact ⟨58, rfl, fun _ => rfl⟩
  | comma => exact ⟨44, rfl, fun _ => rfl⟩
  | _ => cases hscalar

section Replacing

variable (replace : Units → Units)

theorem replaceLiterals_skip (a b : Units) :
    replaceLiterals replace a.length (a ++ b) = replaceLiterals replace 0 b := by
  induction a with
  | nil => rfl
  | cons c rest ih => exact ih

theorem replaceLiterals_white {white : Units} (hwhite : White white) (rest : Units) :
    replaceLiterals replace 0 (white ++ rest) = white ++ replaceLiterals replace 0 rest := by
  induction white with
  | nil => rfl
  | cons c more ih =>
    rw [List.cons_append, replaceLiterals, literalAt_white (hwhite c (by simp))]
    exact congrArg (c :: ·) (ih fun d hd => hwhite d (List.mem_cons_of_mem _ hd))

theorem replaceLiterals_literal {literal : Units} (hne : literal ≠ []) {rest : Units}
    (h : literalAt (literal ++ rest) = some literal) :
    replaceLiterals replace 0 (literal ++ rest) =
      replace literal ++ replaceLiterals replace 0 rest := by
  cases literal with
  | nil => exact absurd rfl hne
  | cons c more =>
    rw [List.cons_append] at h ⊢
    rw [replaceLiterals, h]
    exact congrArg (replace (c :: more) ++ ·) (replaceLiterals_skip replace more rest)

/-- What a token's text becomes. -/
def replaceToken (token : Token) : Units :=
  if token.isScalar then replace token.text else token.text

/-- In a spelled text the scalars are replaced, and nothing else. -/
theorem replaceLiterals_spell {pieces : List Piece} {last : Units} (h : Spelling pieces last)
    (hstop : NumbersStop (pieces.map Piece.token)) :
    replaceLiterals replace 0 (spell pieces last) =
      pieces.foldr (fun piece rest => piece.white ++ replaceToken replace piece.token ++ rest)
        last := by
  induction pieces with
  | nil =>
    have hend := replaceLiterals_white replace h.last []
    rw [List.append_nil] at hend
    exact hend.trans (List.append_nil last)
  | cons piece rest ih =>
    have hproper := h.proper piece (List.mem_cons_self ..)
    have hwhite := h.white piece (List.mem_cons_self ..)
    have hfollows := hstop.follows h
    have hrest := ih h.tail hstop.tail
    obtain ⟨white, token⟩ := piece
    simp only at hproper hwhite hfollows
    have hspell : spell (⟨white, token⟩ :: rest) last = white ++ (token.text ++ spell rest last) := by
      simp [spell]
    rw [hspell, replaceLiterals_white replace hwhite, List.foldr_cons, List.append_assoc]
    refine congrArg (white ++ ·) ?_
    rw [← hrest]
    unfold replaceToken
    cases hscalar : token.isScalar with
    | true =>
      have hliteral := literalAt_scalar hscalar hproper hfollows
      rw [if_pos rfl]
      refine replaceLiterals_literal replace ?_ hliteral
      exact (tokenAt_leads (tokenAt_text hproper hfollows)).2
    | false =>
      obtain ⟨c, htext, hnone⟩ := literalAt_mark hscalar
      rw [if_neg (by simp), htext]
      simp only [List.cons_append, List.nil_append]
      rw [replaceLiterals, hnone]

end Replacing

/-! ## What a literal denotes -/

/-- The whole text is the number. -/
def SpellsNumber (text : Units) (fields : NumberFields) : Prop :=
  numberAt text = some fields ∧ fields.text = text

theorem SpellsNumber.wellFormed {text : Units} {fields : NumberFields}
    (h : SpellsNumber text fields) : fields.WellFormed := wellFormed_of_numberAt h.1

/-- From here on the nearest double is infinite. -/
def overflow : ℚ := 2 ^ 1024 - 2 ^ 970

theorem isInfinite_iff (fields : NumberFields) :
    fields.isInfinite = true ↔ overflow ≤ |fields.value| := by
  have hten : (0 : ℚ) < 10 ^ (-fields.scale).toNat := by positivity
  have hscale : fields.scale = (fields.scale.toNat : ℤ) - (-fields.scale).toNat := by omega
  have habs : |fields.value| =
      fields.coefficient * 10 ^ fields.scale.toNat / 10 ^ (-fields.scale).toNat := by
    have hsignum : |(fields.signum : ℚ)| = 1 := by
      unfold NumberFields.signum
      split <;> norm_num
    have hpower : (10 : ℚ) ^ fields.scale =
        10 ^ fields.scale.toNat / 10 ^ (-fields.scale).toNat := by
      conv_lhs => rw [hscale]
      rw [zpow_sub₀ (by norm_num), zpow_natCast, zpow_natCast]
    rw [NumberFields.value, abs_mul, abs_mul, hsignum, one_mul, hpower, Nat.abs_cast,
      abs_of_pos (by positivity)]
    ring
  unfold NumberFields.isInfinite overflow
  rw [decide_eq_true_eq, habs, le_div_iff₀ hten]
  have hpowers (m n : ℕ) (h : m ≤ n) : (2 : ℕ) ^ m ≤ 2 ^ n := Nat.pow_le_pow_right Nat.two_pos h
  rw [← Nat.cast_le (α := ℚ)]
  simp only [Nat.cast_mul, Nat.cast_pow, Nat.cast_ofNat, Nat.cast_sub (hpowers 970 1024 (by decide))]

/-- The credential as a literal of its own, as another spelling of its number, or as the
infinity that the literal's double is. Numbers count as `comparable` admits them. -/
def Denotes (comparable : NumberFields → Prop) (credential literal : Units) : Prop :=
  literal = credential ∨
    (∃ left right, SpellsNumber literal left ∧ SpellsNumber credential right ∧
      comparable left ∧ comparable right ∧ left.value = right.value) ∨
    ∃ fields, SpellsNumber literal fields ∧ overflow ≤ |fields.value| ∧
      credential = if fields.sign = [] then Units.of "Infinity" else Units.of "-Infinity"

theorem canonicalNumber_isSome_iff {text : Units} :
    (canonicalNumber text).isSome = true ↔ ∃ fields, SpellsNumber text fields ∧ fields.Bounded := by
  constructor
  · intro h
    by_cases hspells : ∃ fields, SpellsNumber text fields
    · obtain ⟨fields, hspells⟩ := hspells
      refine ⟨fields, hspells, ?_⟩
      rw [← hspells.2] at h
      exact (canonicalNumber_isSome hspells.wellFormed).mp h
    · rw [canonicalNumber_of_ne_text fun fields hnumber htext => hspells ⟨fields, hnumber, htext⟩]
        at h
      cases h
  · rintro ⟨fields, hspells, hbounded⟩
    rw [← hspells.2]
    exact (canonicalNumber_isSome hspells.wellFormed).mpr hbounded

theorem sameNumber_iff {literal credential : Units} :
    ((canonicalNumber credential).isSome = true ∧
      canonicalNumber literal = canonicalNumber credential) ↔
      ∃ left right, SpellsNumber literal left ∧ SpellsNumber credential right ∧
        left.Bounded ∧ right.Bounded ∧ left.value = right.value := by
  constructor
  · rintro ⟨hsome, heq⟩
    obtain ⟨right, hright, hbright⟩ := canonicalNumber_isSome_iff.mp hsome
    obtain ⟨left, hleft, hbleft⟩ := canonicalNumber_isSome_iff.mp (by rw [heq]; exact hsome)
    refine ⟨left, right, hleft, hright, hbleft, hbright, ?_⟩
    rw [← hleft.2, ← hright.2] at heq
    exact (canonicalNumber_eq_iff hleft.wellFormed hright.wellFormed hbleft hbright).mp heq
  · rintro ⟨left, right, hleft, hright, hbleft, hbright, hvalue⟩
    refine ⟨canonicalNumber_isSome_iff.mpr ⟨right, hright, hbright⟩, ?_⟩
    rw [← hleft.2, ← hright.2]
    exact (canonicalNumber_eq_iff hleft.wellFormed hright.wellFormed hbleft hbright).mpr hvalue

theorem overflowsTo_iff {literal credential : Units}
    (hwhole : ∀ fields, numberAt literal = some fields → fields.text = literal) :
    overflowsTo credential literal = true ↔
      ∃ fields, SpellsNumber literal fields ∧ overflow ≤ |fields.value| ∧
        credential = if fields.sign = [] then Units.of "Infinity" else Units.of "-Infinity" := by
  unfold overflowsTo
  rw [Option.any_eq_true]
  simp only [Bool.and_eq_true, decide_eq_true_eq, isInfinite_iff]
  constructor
  · rintro ⟨fields, hnumber, hinfinite, hcredential⟩
    exact ⟨fields, ⟨hnumber, hwhole fields hnumber⟩, hinfinite, hcredential⟩
  · rintro ⟨fields, hspells, hinfinite, hcredential⟩
    exact ⟨fields, hspells.1, hinfinite, hcredential⟩

/-- A token that is no string is a number as a whole, or has none in front. -/
theorem whole_of_scalar {token : Token} (hscalar : token.isScalar = true) (h : token.Proper)
    (hstring : ∀ body, token ≠ .string body) :
    ∀ fields, numberAt token.text = some fields → fields.text = token.text := by
  intro fields hfields
  cases token with
  | number own =>
    have hnumber := numberAt_text h stops_nil
    rw [List.append_nil] at hnumber
    rw [Token.text, hnumber, Option.some.injEq] at hfields
    rw [← hfields]
    rfl
  | string body => exact absurd rfl (hstring body)
  | bool value => cases value <;> cases hfields
  | null => cases hfields
  | _ => cases hscalar

/-! ## Redacted tokens -/

section Tokens

variable (redactStrings : Units → Units) (credential : Option Units)

/-- The credential, where there is one, is denoted by the literal. -/
def Denoted (comparable : NumberFields → Prop) (literal : Units) : Prop :=
  ∃ secret, credential = some secret ∧ secret ≠ [] ∧ Denotes comparable secret literal

/-- What becomes of a token. -/
inductive Redacted (comparable : NumberFields → Prop) : Token → Token → Prop where
  | unchanged {body text : Units} (hdecode : decodeString body = some text)
      (hsame : redactCredentialText redactStrings text credential = text) :
      Redacted comparable (.string body) (.string body)
  | rewritten {body text : Units} (hdecode : decodeString body = some text)
      (hchanged : redactCredentialText redactStrings text credential ≠ text) :
      Redacted comparable (.string body)
        (.string (Units.quoteUnits (redactCredentialText redactStrings text credential)))
  | kept {token : Token} (hscalar : token.isScalar = true) (hstring : ∀ body, token ≠ .string body)
      (h : ¬Denoted credential comparable token.text) : Redacted comparable token token
  | marked {token : Token} (hscalar : token.isScalar = true)
      (hstring : ∀ body, token ≠ .string body) (h : Denoted credential comparable token.text) :
      Redacted comparable token (.string credentialMarker)
  | mark {token : Token} (hscalar : token.isScalar = false) : Redacted comparable token token

/-- The result is a JSON text with the same tokens between the same whitespace, but for
the scalars that are redacted. -/
def RedactsTokens (comparable : NumberFields → Prop) (text : Units) : Prop :=
  ∃ pieces pieces' last, Spelling pieces last ∧ text = spell pieces last ∧
    lex text = some (pieces.map Piece.token) ∧
    redactCredentialJsonText redactStrings text credential = spell pieces' last ∧
    lex (redactCredentialJsonText redactStrings text credential) =
      some (pieces'.map Piece.token) ∧
    (parse (redactCredentialJsonText redactStrings text credential)).isSome = true ∧
    List.Forall₂ (fun piece piece' => piece'.white = piece.white ∧
      Redacted redactStrings credential comparable piece.token piece'.token) pieces pieces'

theorem quoteUnits_credentialMarker : Units.quoteUnits credentialMarker = credentialMarker := by
  decide

theorem redactLiteral_string {body text : Units} (hdecode : decodeString body = some text) :
    redactLiteral redactStrings credential (Token.string body).text =
      if redactCredentialText redactStrings text credential = text then (Token.string body).text
      else Units.quoted (redactCredentialText redactStrings text credential) := by
  have hbody : (Token.string body).text.tail.dropLast = body := by
    rw [Token.text, List.tail_cons, List.dropLast_concat]
  unfold redactLiteral
  rw [if_pos (by rfl), hbody, decodeEscapes_eq hdecode]

theorem redactLiteral_other {token : Token} (hscalar : token.isScalar = true) (h : token.Proper)
    (hstring : ∀ body, token ≠ .string body) :
    (Denoted credential NumberFields.Bounded token.text ∧
      redactLiteral redactStrings credential token.text = (Token.string credentialMarker).text) ∨
    (¬Denoted credential NumberFields.Bounded token.text ∧
      redactLiteral redactStrings credential token.text = token.text) := by
  have hquote : token.text.head? ≠ some 34 := by
    cases token with
    | number fields =>
      exact NumberFields.WellFormed.head_ne h rfl (by decide)
    | string body => exact absurd rfl (hstring body)
    | bool value => cases value <;> decide
    | null => decide
    | _ => cases hscalar
  have undenoted (hfalsy : credential = none ∨ credential = some []) :
      ¬Denoted credential NumberFields.Bounded token.text := by
    rintro ⟨secret, hsecret, hne, -⟩
    rcases hfalsy with rfl | rfl
    · cases hsecret
    · exact hne (Option.some.inj hsecret).symm
  unfold redactLiteral
  rw [if_neg hquote]
  split
  · exact .inr ⟨undenoted (.inl rfl), rfl⟩
  · exact .inr ⟨undenoted (.inr rfl), rfl⟩
  · rename_i secret hne
    have hsecret : secret ≠ [] := fun hnil => hne (by rw [hnil])
    have hiff : (token.text = secret ∨ ((canonicalNumber secret).isSome = true ∧
        canonicalNumber token.text = canonicalNumber secret) ∨
        overflowsTo secret token.text = true) ↔
        Denoted (some secret) NumberFields.Bounded token.text := by
      rw [sameNumber_iff, overflowsTo_iff (whole_of_scalar hscalar h hstring)]
      constructor
      · exact fun hdenotes => ⟨secret, rfl, hsecret, hdenotes⟩
      · rintro ⟨_, heq, -, hdenotes⟩
        rw [Option.some.inj heq]
        exact hdenotes
    split
    · rename_i hmatches
      exact .inl ⟨hiff.mp hmatches, rfl⟩
    · rename_i hmatches
      exact .inr ⟨fun hdenoted => hmatches (hiff.mpr hdenoted), rfl⟩

/-- What replaces a token's text is the text of the redacted token. -/
theorem redacted_of_proper {token : Token} (h : token.Proper) :
    ∃ token', Redacted redactStrings credential NumberFields.Bounded token token' ∧
      replaceToken (redactLiteral redactStrings credential) token = token'.text ∧
      token'.Proper ∧ token.Replaces token' := by
  by_cases hscalar : token.isScalar = true
  · by_cases hstring : ∃ body, token = .string body
    · obtain ⟨body, rfl⟩ := hstring
      obtain ⟨text, hdecode⟩ := Option.isSome_iff_exists.mp h.1
      unfold replaceToken
      rw [if_pos hscalar, redactLiteral_string redactStrings credential hdecode]
      split
      · rename_i hsame
        exact ⟨_, .unchanged hdecode hsame, rfl, h, .inl rfl⟩
      · rename_i hchanged
        exact ⟨_, .rewritten hdecode hchanged, rfl, Token.proper_quoted _,
          .inr ⟨rfl, _, rfl, by rw [decodeString_quoteUnits]; rfl⟩⟩
    · have hother : ∀ body, token ≠ .string body := fun body heq => hstring ⟨body, heq⟩
      unfold replaceToken
      rw [if_pos hscalar]
      rcases redactLiteral_other redactStrings credential hscalar h hother with ⟨hdenoted, htext⟩ | ⟨hnot, htext⟩
      · have hproper := Token.proper_quoted credentialMarker
        rw [quoteUnits_credentialMarker] at hproper
        exact ⟨_, .marked hscalar hother hdenoted, htext, hproper,
          .inr ⟨hscalar, _, rfl, hproper.1⟩⟩
      · exact ⟨_, .kept hscalar hother hnot, htext, h, .inl rfl⟩
  · rw [Bool.not_eq_true] at hscalar
    unfold replaceToken
    rw [if_neg (by rw [hscalar]; simp)]
    exact ⟨_, .mark hscalar, rfl, h, .inl rfl⟩

/-- Piece by piece. -/
theorem redacted_pieces {pieces : List Piece} {last : Units} (h : Spelling pieces last) :
    ∃ pieces', Spelling pieces' last ∧
      pieces.foldr (fun piece rest => piece.white ++
        replaceToken (redactLiteral redactStrings credential) piece.token ++ rest) last =
        spell pieces' last ∧
      List.Forall₂ Token.Replaces (pieces.map Piece.token) (pieces'.map Piece.token) ∧
      List.Forall₂ (fun piece piece' => piece'.white = piece.white ∧
        Redacted redactStrings credential NumberFields.Bounded piece.token piece'.token)
        pieces pieces' := by
  induction pieces with
  | nil => exact ⟨[], h, rfl, .nil, .nil⟩
  | cons piece rest ih =>
    obtain ⟨rest', hspelling, hspell, hreplaces, hredacted⟩ := ih h.tail
    obtain ⟨token', htoken, htext, hproper, hothers⟩ :=
      redacted_of_proper redactStrings credential (h.proper piece (List.mem_cons_self ..))
    refine ⟨⟨piece.white, token'⟩ :: rest', ⟨?_, hspelling.last, ?_⟩, ?_, .cons hothers hreplaces,
      .cons ⟨rfl, htoken⟩ hredacted⟩
    · intro other hother
      rcases List.mem_cons.mp hother with rfl | hother
      · exact h.white piece (List.mem_cons_self ..)
      · exact hspelling.white other hother
    · intro other hother
      rcases List.mem_cons.mp hother with rfl | hother
      · exact hproper
      · exact hspelling.proper other hother
    · rw [List.foldr_cons, hspell, htext]
      rfl

end Tokens

/-- A JSON text is redacted token by token, and stays a JSON text. -/
theorem redactCredentialJsonText_tokens (redactStrings : Units → Units)
    (credential : Option Units) {text : Units} (hjson : (parse text).isSome = true) :
    RedactsTokens redactStrings credential NumberFields.Bounded text := by
  obtain ⟨value, hvalue⟩ := Option.isSome_iff_exists.mp hjson
  obtain ⟨tokens, hlex, hvalue⟩ := Option.bind_eq_some_iff.mp hvalue
  obtain ⟨state, hrun, -⟩ := Option.bind_eq_some_iff.mp hvalue
  obtain ⟨pieces, last, hspelling, rfl, rfl⟩ := spelled_of_lex hlex
  have hstop := numbersStop_of_run hrun
  obtain ⟨pieces', hspelling', hspell, hreplaces, hredacted⟩ :=
    redacted_pieces redactStrings credential hspelling
  have hresult : redactCredentialJsonText redactStrings (spell pieces last) credential =
      spell pieces' last :=
    (replaceLiterals_spell _ hspelling hstop).trans hspell
  obtain ⟨hlex', hparse'⟩ := parse_replaced hjson hspelling hstop hspelling' hreplaces
  refine ⟨pieces, pieces', last, hspelling, rfl, hlex, hresult, ?_, ?_, hredacted⟩
  · rw [hresult]
    exact hlex'
  · rw [hresult]
    exact hparse'

/-- A key stays, a number is spelled as the credential is not, and an escape hides nothing. -/
theorem redactCredentialJsonText_tokens_number :
    RedactsTokens id (some (Units.of "12e-1")) NumberFields.Bounded
        (Units.of "\x7b\"k\": [1.20, \"\\u0061\", 1.2e1]\x7d") ∧
      redactCredentialJsonText id (Units.of "\x7b\"k\": [1.20, \"\\u0061\", 1.2e1]\x7d")
          (some (Units.of "12e-1")) =
        Units.of "\x7b\"k\": [\"[credential]\", \"\\u0061\", 1.2e1]\x7d" :=
  ⟨redactCredentialJsonText_tokens id (some (Units.of "12e-1")) (by decide), by decide +kernel⟩

/-! ## Exponents that are not computed -/

/-- `10e9999999999999999` -/
def hostileFields : NumberFields where
  sign := []
  whole := Units.of "10"
  fraction := none
  exponent := some (101, Units.of "9999999999999999")

/-- `1e10000000000000000`: the same value, with an exponent of 17 digits. -/
def hostileCredential : NumberFields where
  sign := []
  whole := Units.of "1"
  fraction := none
  exponent := some (101, Units.of "10000000000000000")

theorem hostileFields_value : hostileFields.value = hostileCredential.value := by
  have hleft : hostileFields.scale = 9999999999999999 := by decide
  have hright : hostileCredential.scale = 9999999999999999 + 1 := by decide
  have hten : hostileFields.coefficient = 10 := by decide
  have hone : hostileCredential.coefficient = 1 := by decide
  rw [NumberFields.value, NumberFields.value, hleft, hright, hten, hone]
  generalize (9999999999999999 : ℤ) = scale
  rw [zpow_add_one₀ (by norm_num)]
  simp only [NumberFields.signum, hostileFields, hostileCredential, if_true]
  push_cast
  ring

theorem hostileFields_spelled : SpellsNumber hostileFields.text hostileFields :=
  ⟨by decide, rfl⟩

theorem hostileFields_wellFormed : hostileFields.WellFormed := hostileFields_spelled.wellFormed

theorem hostile_undenoted :
    ¬Denoted (some hostileCredential.text) NumberFields.Bounded hostileFields.text := by
  rintro ⟨secret, hsecret, -, hdenotes⟩
  rw [← Option.some.inj hsecret] at hdenotes
  rcases hdenotes with heq | ⟨left, right, -, hright, -, hbounded, -⟩ | ⟨fields, -, -, heq⟩
  · exact absurd heq (by decide)
  · -- the credential's exponent has 17 digits
    have hfields : numberAt hostileCredential.text = some hostileCredential := by decide
    have hsame := hfields.symm.trans hright.1
    rw [Option.some.injEq] at hsame
    rw [← hsame] at hbounded
    exact absurd hbounded (by decide)
  · have hhead : hostileCredential.text.head? = some 49 := by decide
    rw [heq] at hhead
    split at hhead <;> exact absurd hhead (by decide)

/-- A text that is one scalar. -/
theorem redactCredentialJsonText_scalar (redactStrings : Units → Units) (credential : Option Units)
    {token : Token} (hscalar : token.isScalar = true) (h : token.Proper) :
    redactCredentialJsonText redactStrings token.text credential =
      redactLiteral redactStrings credential token.text := by
  have hne : token.text ≠ [] := (tokenAt_leads (tokenAt_text h fun _ => stops_nil)).2
  have hreplaced := replaceLiterals_literal (redactLiteral redactStrings credential) hne
    (literalAt_scalar hscalar h fun _ => stops_nil)
  rw [List.append_nil, replaceLiterals, List.append_nil] at hreplaced
  exact hreplaced

theorem hostile_stays :
    redactCredentialJsonText id hostileFields.text (some hostileCredential.text) =
      hostileFields.text := by
  have hproper : Token.Proper (.number hostileFields) := hostileFields_wellFormed
  have hscalar := redactCredentialJsonText_scalar id (some hostileCredential.text) rfl hproper
  rcases redactLiteral_other id (some hostileCredential.text) rfl hproper (by simp) with
    ⟨hdenoted, -⟩ | ⟨-, hkept⟩
  · exact absurd hdenoted hostile_undenoted
  · exact hscalar.trans hkept

/-- The literal is the credential's number, and stays. -/
theorem redactCredentialJsonText_hostile :
    ¬∀ (redactStrings : Units → Units) (credential : Option Units) (text : Units),
      (parse text).isSome = true →
      RedactsTokens redactStrings credential (fun _ => True) text := by
  intro h
  obtain ⟨pieces, pieces', last, -, -, hlex, -, hlex', -, hredacted⟩ :=
    h id (some hostileCredential.text) hostileFields.text (by decide)
  have hnumber : lex hostileFields.text = some [.number hostileFields] := by decide
  have hdenoted : Denoted (some hostileCredential.text) (fun _ => True) hostileFields.text :=
    ⟨_, rfl, by decide, .inr (.inl ⟨hostileFields, hostileCredential, hostileFields_spelled,
      ⟨by decide, rfl⟩, trivial, trivial, hostileFields_value⟩)⟩
  rw [hostile_stays, hnumber, Option.some.injEq] at hlex'
  rw [hnumber, Option.some.injEq] at hlex
  cases hredacted with
  | nil => cases hlex
  | @cons piece piece' rest rest' hpiece _ =>
    obtain ⟨htoken, -⟩ := List.cons.inj hlex
    obtain ⟨htoken', -⟩ := List.cons.inj hlex'
    obtain ⟨-, hpiece⟩ := hpiece
    rw [← htoken, ← htoken'] at hpiece
    -- a number that stays is not denoted
    cases hpiece with
    | kept _ _ hnot => exact hnot hdenoted
    | mark hscalar => cases hscalar

end Redaction
