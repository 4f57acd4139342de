import OpenaiAuth.Js.Parse
import OpenaiAuth.Redaction.Text

/-! # Credentials in a frame

`redactCredentialFrame` rewrites a frame only where it parses as an error
envelope. It parses only frames that can be one: a frame that has the word
`error`, or one that spells the word with `\u00` escapes as a key or as the
value of `type`.

Main result, for every frame and credential: skipping the other frames changes
nothing (`redactCredentialFrame_eq`). A value that is found in an envelope has
its key among the tokens of the text, and a body that decodes to a word is read
by the word's regular expression.
-/

namespace Redaction

open Js Js.Parse

/-! ## Regular expressions of escaped words -/

/-- The letters of `(?:e|\u0065)(?:r|\u0072){2}(?:o|\u006f)(?:r|\u0072)`. -/
def errorWord : List (Nat × Units) :=
  [(101, Units.of "\\u0065"), (114, Units.of "\\u0072"), (114, Units.of "\\u0072"),
    (111, Units.of "\\u006f"), (114, Units.of "\\u0072")]

/-- The letters of `(?:t|\u0074)(?:y|\u0079)(?:p|\u0070)(?:e|\u0065)`. -/
def typeWord : List (Nat × Units) :=
  [(116, Units.of "\\u0074"), (121, Units.of "\\u0079"), (112, Units.of "\\u0070"),
    (101, Units.of "\\u0065")]

/-- What follows a letter, or its escape. -/
def spelledUnit (letter : Nat × Units) (text : Units) : Option Units :=
  (Units.dropFolded [letter.1] text).or (Units.dropFolded letter.2 text)

def spelledWord : List (Nat × Units) → Units → Option Units
  | [], text => some text
  | letter :: word, text => (spelledUnit letter text).bind (spelledWord word)

/-- `"word"` -/
def quotedWord (word : List (Nat × Units)) (text : Units) : Option Units :=
  (Units.dropFolded [34] text).bind fun body => (spelledWord word body).bind (Units.dropFolded [34])

/-- `\s*:` -/
def colonAfter (text : Units) : Option Units := Units.dropFolded [58] (text.dropWhile Units.isSpace)

/-- `escapedErrorField.test(text)` -/
def escapedErrorField (text : Units) : Bool :=
  text.tails.any fun tail => ((quotedWord errorWord tail).bind colonAfter).isSome

/-- `escapedErrorType.test(text)` -/
def escapedErrorType (text : Units) : Bool :=
  text.tails.any fun tail => (((quotedWord typeWord tail).bind colonAfter).bind fun rest =>
    quotedWord errorWord (rest.dropWhile Units.isSpace)).isSome

/-! ## Redacting the literals of a text -/

/-- Compares decimal values without rounding them. -/
def canonicalNumber (text : Units) : Option Units := do
  let parts ← numberAt text
  let fraction := parts.fraction.getD []
  let significand := (parts.whole ++ fraction).dropWhile (· = 48)
  let digits := (significand.reverse.dropWhile (· = 48)).reverse
  let exponent := (parts.exponent.map Prod.snd).getD [48]
  let significant := (exponent.filter isDigit).dropWhile (· = 48)
  let size : Int := decimal significant
  let scale := (if exponent.head? = some 45 then -size else size) - fraction.length +
    (significand.length - digits.length)
  if parts.text ≠ text then none
  else if significand = [] then some [48]
  -- the exponent of a hostile text is not computed
  else if 16 < significant.length then none
  else some (parts.sign ++ digits ++ 101 :: Units.of (toString scale))

def isLineTerminator (c : Nat) : Bool := c = 10 || c = 13 || c = 0x2028 || c = 0x2029

/-- `(?:\\.|[^"\\])*"` -/
def literalBody : Units → Option Units
  | [] => none
  | 34 :: _ => some [34]
  | 92 :: c :: rest =>
      if isLineTerminator c then none else (literalBody rest).map fun body => 92 :: c :: body
  | c :: rest => if c = 92 then none else (literalBody rest).map (c :: ·)

/-- The scalar literal that a text begins with. -/
def literalAt (text : Units) : Option Units :=
  let string := if text.head? = some 34 then (literalBody text.tail).map (34 :: ·) else none
  let keyword := [Units.of "true", Units.of "false", Units.of "null"].find? fun word =>
    word.isPrefixOf text
  string.or (((numberAt text).map NumberFields.text).or keyword)

/-- `skip` units of a literal are still to be passed. -/
def replaceLiterals (replace : Units → Units) : Nat → Units → Units
  | _, [] => []
  | skip + 1, _ :: rest => replaceLiterals replace skip rest
  | 0, c :: rest =>
      match literalAt (c :: rest) with
      | some literal => replace literal ++ replaceLiterals replace (literal.length - 1) rest
      | none => c :: replaceLiterals replace 0 rest

/-- `String(Number(literal)) === credential` for an infinite credential. -/
def overflowsTo (credential literal : Units) : Bool :=
  (numberAt literal).any fun fields => fields.isInfinite &&
    credential = (if fields.sign = [] then Units.of "Infinity" else Units.of "-Infinity")

variable (redactStrings : Units → Units)

def redactLiteral (credential : Option Units) (literal : Units) : Units :=
  if literal.head? = some 34 then
    let decoded := decodeEscapes literal.tail.dropLast
    let redacted := redactCredentialText redactStrings decoded credential
    if redacted = decoded then literal else Units.quoted redacted
  else
    match credential with
    | none | some [] => literal
    | some credential =>
        if literal = credential ∨
            ((canonicalNumber credential).isSome ∧
              canonicalNumber literal = canonicalNumber credential) ∨
            overflowsTo credential literal then
          34 :: (credentialMarker ++ [34])
        else literal

/-- Visits the scalar literals in place. -/
def redactCredentialJsonText (text : Units) (credential : Option Units) : Units :=
  replaceLiterals (redactLiteral redactStrings credential) 0 text

/-! ## Frames -/

/-- `value?.type === 'error' || value?.error || value?.response?.error` -/
def isErrorEnvelope (value : Value) : Bool :=
  (match value.get? (Units.of "type") with
    | some (.string text) => text = Units.of "error"
    | _ => false) ||
  truthy (value.get? (Units.of "error")) ||
  truthy ((value.get? (Units.of "response")).bind fun response =>
    response.get? (Units.of "error"))

/-- Only these frames are parsed. -/
def canBeErrorEnvelope (frame : Units) : Bool :=
  Units.includes frame (Units.of "error") ||
    (Units.includes frame (Units.of "\\u00") && (escapedErrorField frame || escapedErrorType frame))

/-- What a frame becomes if every frame is parsed. -/
def redactParsedFrame (frame : Units) (credential : Option Units) : Units :=
  match parse frame with
  | none => frame
  | some value =>
      if isErrorEnvelope value then redactCredentialJsonText redactStrings frame credential
      else frame

def redactCredentialFrame (frame : Units) (credential : Option Units) : Units :=
  if canBeErrorEnvelope frame then redactParsedFrame redactStrings frame credential else frame

/-! ## Bodies that decode to a word -/

theorem hexValue_lower {h value : Nat} (heq : Units.hexValue h = some value) :
    value < 16 ∧ Units.lower h = Units.hexDigit value := by
  unfold Units.hexValue at heq
  unfold Units.lower Units.hexDigit
  split at heq
  · rw [← Option.some.inj heq]
    constructor
    · omega
    · rw [if_neg (by omega), if_pos (by omega)]
      omega
  · split at heq
    · rw [← Option.some.inj heq]
      constructor
      · omega
      · rw [if_neg (by omega), if_neg (by omega)]
        omega
    · split at heq
      · rw [← Option.some.inj heq]
        constructor
        · omega
        · rw [if_pos (by omega), if_neg (by omega)]
          omega
      · cases heq

theorem hexValue_zero {h : Nat} (heq : Units.hexValue h = some 0) : h = 48 := by
  unfold Units.hexValue at heq
  split at heq
  · have hzero := Option.some.inj heq
    omega
  · split at heq
    · have hzero := Option.some.inj heq
      omega
    · split at heq
      · have hzero := Option.some.inj heq
        omega
      · cases heq

/-- The escape of a Latin letter begins with two zeros. -/
theorem fourHex_latin {a b c d v : Nat} (h : Units.fourHex [a, b, c, d] = some v) (hv : v < 256) :
    a = 48 ∧ b = 48 ∧ Units.lower c = Units.hexDigit (v / 16) ∧
      Units.lower d = Units.hexDigit (v % 16) := by
  rcases Option.bind_eq_some_iff.mp h with ⟨va, ha, h⟩
  rcases Option.bind_eq_some_iff.mp h with ⟨vb, hb, h⟩
  rcases Option.bind_eq_some_iff.mp h with ⟨vc, hc, h⟩
  rcases Option.bind_eq_some_iff.mp h with ⟨vd, hd, h⟩
  have hvalue : va * 4096 + vb * 256 + vc * 16 + vd = v := Option.some.inj h
  have hclow := hexValue_lower hc
  have hdlow := hexValue_lower hd
  have hva : va = 0 := by omega
  have hvb : vb = 0 := by omega
  rw [hva] at ha
  rw [hvb] at hb
  refine ⟨hexValue_zero ha, hexValue_zero hb, ?_, ?_⟩
  · rw [hclow.2, show v / 16 = vc by omega]
  · rw [hdlow.2, show v % 16 = vd by omega]

/-- A letter of a word: its escape is the one that spells it. -/
structure IsLetter (letter : Nat × Units) : Prop where
  small : 97 ≤ letter.1 ∧ letter.1 ≤ 122
  escape : letter.2 = [92, 117, 48, 48, Units.hexDigit (letter.1 / 16),
    Units.hexDigit (letter.1 % 16)]

theorem isLetter_errorWord : ∀ letter ∈ errorWord, IsLetter letter := by
  intro letter hmem
  have hall : ∀ letter ∈ errorWord, (97 ≤ letter.1 ∧ letter.1 ≤ 122) ∧ letter.2 =
    [92, 117, 48, 48, Units.hexDigit (letter.1 / 16), Units.hexDigit (letter.1 % 16)] := by decide
  exact ⟨(hall letter hmem).1, (hall letter hmem).2⟩

theorem isLetter_typeWord : ∀ letter ∈ typeWord, IsLetter letter := by
  intro letter hmem
  have hall : ∀ letter ∈ typeWord, (97 ≤ letter.1 ∧ letter.1 ≤ 122) ∧ letter.2 =
    [92, 117, 48, 48, Units.hexDigit (letter.1 / 16), Units.hexDigit (letter.1 % 16)] := by decide
  exact ⟨(hall letter hmem).1, (hall letter hmem).2⟩

/-- A short escape stands for no letter. -/
theorem simpleEscape_not_letter {e v : Nat} (h : simpleEscape e = some v) : ¬ 97 ≤ v := by
  unfold simpleEscape at h
  repeat' split at h
  all_goals first | cases h; done | skip
  all_goals
    have hv := Option.some.inj h
    omega

/-- A body whose string begins with a letter begins with the letter or its escape. -/
theorem decodeString_letter {body text : Units} {v : Nat} (hv : 97 ≤ v)
    (h : decodeString body = some (v :: text)) :
    (∃ rest, body = v :: rest ∧ decodeString rest = some text) ∨
      ∃ a b c d rest, body = 92 :: 117 :: a :: b :: c :: d :: rest ∧
        Units.fourHex [a, b, c, d] = some v ∧ decodeString rest = some text := by
  unfold decodeString at h
  split at h
  · cases h
  · rename_i a b c d rest
    rcases Option.bind_eq_some_iff.mp h with ⟨value, hvalue, h⟩
    rcases Option.bind_eq_some_iff.mp h with ⟨decoded, hdecoded, h⟩
    rcases List.cons.inj (Option.some.inj h) with ⟨hhead, htail⟩
    exact Or.inr ⟨a, b, c, d, rest, rfl, hhead ▸ hvalue, htail ▸ hdecoded⟩
  · rename_i e rest _
    rcases Option.bind_eq_some_iff.mp h with ⟨value, hvalue, h⟩
    rcases Option.bind_eq_some_iff.mp h with ⟨decoded, hdecoded, h⟩
    rcases List.cons.inj (Option.some.inj h) with ⟨hhead, -⟩
    rw [hhead] at hvalue
    exact absurd hv (simpleEscape_not_letter hvalue)
  · rename_i c rest _ _
    split at h
    · cases h
    · rcases Option.bind_eq_some_iff.mp h with ⟨decoded, hdecoded, h⟩
      rcases List.cons.inj (Option.some.inj h) with ⟨hhead, htail⟩
      exact Or.inl ⟨rest, by rw [hhead], htail ▸ hdecoded⟩

theorem decodeString_empty {body : Units} (h : decodeString body = some []) : body = [] := by
  unfold decodeString at h
  split at h
  · rfl
  · rcases Option.bind_eq_some_iff.mp h with ⟨_, _, h⟩
    rcases Option.bind_eq_some_iff.mp h with ⟨_, _, h⟩
    cases h
  · rcases Option.bind_eq_some_iff.mp h with ⟨_, _, h⟩
    rcases Option.bind_eq_some_iff.mp h with ⟨_, _, h⟩
    cases h
  · split at h
    · cases h
    · rcases Option.bind_eq_some_iff.mp h with ⟨_, _, h⟩
      cases h

theorem lower_letter {v : Nat} (hv : 97 ≤ v) : Units.lower v = v := by
  unfold Units.lower
  rw [if_neg (by omega)]

/-- A body that decodes to a word is the word or has a `\u00` escape, and the
word's regular expression reads it. By induction on the word. -/
theorem spelledWord_of_decode {word : List (Nat × Units)} (hword : ∀ letter ∈ word, IsLetter letter)
    {body : Units} (h : decodeString body = some (word.map Prod.fst)) :
    (∀ rest, spelledWord word (body ++ rest) = some rest) ∧
      (body = word.map Prod.fst ∨ Units.of "\\u00" <:+: body) := by
  induction word generalizing body with
  | nil =>
      rw [decodeString_empty h]
      exact ⟨fun rest => rfl, Or.inl rfl⟩
  | cons letter word ih =>
      have hletter := hword letter List.mem_cons_self
      have hmore : ∀ letter ∈ word, IsLetter letter := fun letter hmem =>
        hword letter (List.mem_cons_of_mem _ hmem)
      rcases decodeString_letter hletter.small.1 h with ⟨tail, heq, htail⟩ |
        ⟨a, b, c, d, tail, heq, hhex, htail⟩
      · -- the letter itself
        rcases ih hmore htail with ⟨hreads, hescape⟩
        constructor
        · intro rest
          have hdrop : Units.dropFolded [letter.1] ([letter.1] ++ (tail ++ rest)) = some (tail ++ rest) := by
            apply Units.dropFolded_append
            rw [List.map_singleton, lower_letter hletter.small.1]
          rw [heq, spelledWord, spelledUnit]
          change ((Units.dropFolded [letter.1] ([letter.1] ++ (tail ++ rest))).or _).bind _ = _
          rw [hdrop]
          exact hreads rest
        · rcases hescape with hplain | hescape
          · exact Or.inl (by rw [heq, hplain]; rfl)
          · exact Or.inr (heq ▸ hescape.trans (List.suffix_cons _ _).isInfix)
      · -- its escape
        rcases ih hmore htail with ⟨hreads, -⟩
        rcases fourHex_latin hhex (by have hsmall := hletter.small; omega) with ⟨ha, hb, hc, hd⟩
        constructor
        · intro rest
          have hfirst : Units.dropFolded [letter.1] (body ++ rest) = none := by
            have hsmall := hletter.small
            rw [heq, Units.dropFolded, if_neg]
            intro hlower
            have hhead := (List.cons.inj hlower).1
            have hslash : Units.lower 92 = 92 := by decide
            omega
          have hsecond : Units.dropFolded letter.2 (body ++ rest) = some (tail ++ rest) := by
            have hbody : body ++ rest = [92, 117, a, b, c, d] ++ (tail ++ rest) := by
              rw [heq]
              rfl
            rw [hbody]
            apply Units.dropFolded_append
            rw [hletter.escape, ha, hb, ← hc, ← hd]
            rfl
          rw [spelledWord, spelledUnit, hfirst, hsecond]
          exact hreads rest
        · right
          rw [heq, ha, hb]
          exact (List.prefix_append [92, 117, 48, 48] (c :: d :: tail)).isInfix

/-! ## Texts that spell an envelope -/

theorem quotedWord_of_decode {word : List (Nat × Units)} (hword : ∀ letter ∈ word, IsLetter letter)
    {body : Units} (h : decodeString body = some (word.map Prod.fst)) (rest : Units) :
    quotedWord word (34 :: (body ++ 34 :: rest)) = some rest := by
  have hopening : Units.dropFolded [34] ([34] ++ (body ++ 34 :: rest)) = some (body ++ 34 :: rest) :=
    Units.dropFolded_append rfl
  have hclosing : Units.dropFolded [34] ([34] ++ rest) = some rest := Units.dropFolded_append rfl
  change (Units.dropFolded [34] ([34] ++ (body ++ 34 :: rest))).bind _ = _
  rw [hopening, Option.bind_some, (spelledWord_of_decode hword h).1]
  exact hclosing

theorem colonAfter_white {white : Units} (h : ∀ d ∈ white, isWhite d = true) (rest : Units) :
    colonAfter (white ++ 58 :: rest) = some rest := by
  have hcolon : Units.dropFolded [58] ([58] ++ rest) = some rest := Units.dropFolded_append rfl
  rw [colonAfter, dropWhile_white h (by decide)]
  exact hcolon

theorem escapedErrorField_of_key {start body white rest : Units}
    (h : decodeString body = some (Units.of "error")) (hwhite : ∀ d ∈ white, isWhite d = true) :
    escapedErrorField (start ++ 34 :: (body ++ 34 :: (white ++ 58 :: rest))) = true := by
  rw [escapedErrorField, List.any_eq_true]
  refine ⟨34 :: (body ++ 34 :: (white ++ 58 :: rest)), ?_, ?_⟩
  · rw [List.mem_tails]
    exact List.suffix_append start _
  · rw [quotedWord_of_decode isLetter_errorWord h, Option.bind_some, colonAfter_white hwhite]
    rfl

theorem escapedErrorType_of_keyAndText {start body body' white white' rest : Units}
    (h : decodeString body = some (Units.of "type"))
    (h' : decodeString body' = some (Units.of "error"))
    (hwhite : ∀ d ∈ white, isWhite d = true) (hwhite' : ∀ d ∈ white', isWhite d = true) :
    escapedErrorType (start ++ 34 :: (body ++ 34 :: (white ++ 58 :: (white' ++
      34 :: (body' ++ 34 :: rest))))) = true := by
  rw [escapedErrorType, List.any_eq_true]
  refine ⟨34 :: (body ++ 34 :: (white ++ 58 :: (white' ++ 34 :: (body' ++ 34 :: rest)))), ?_, ?_⟩
  · rw [List.mem_tails]
    exact List.suffix_append start _
  · rw [quotedWord_of_decode isLetter_typeWord h, Option.bind_some, colonAfter_white hwhite,
      Option.bind_some, dropWhile_white hwhite' (by decide),
      quotedWord_of_decode isLetter_errorWord h']
    rfl

/-- The key `error` is in the text, as it is or with escapes. -/
theorem canBe_of_key {frame : Units} {tokens : List Token} (hlexed : Lexed frame tokens)
    {value : Value} (h : Spelled tokens (Units.of "error") value) :
    canBeErrorEnvelope frame = true := by
  rcases h.byKey with ⟨body, hdecode, hinside⟩
  rcases hlexed.key hinside with ⟨start, white, rest, hwhite, heq⟩
  have hbody : body <:+: frame := by
    refine ⟨start ++ [34], 34 :: (white ++ 58 :: rest), ?_⟩
    rw [heq]
    simp
  rw [canBeErrorEnvelope, Bool.or_eq_true, Bool.and_eq_true]
  rcases (spelledWord_of_decode isLetter_errorWord hdecode).2 with hplain | hescape
  · left
    rw [hplain] at hbody
    exact Units.includes_of_infix hbody
  · right
    refine ⟨Units.includes_of_infix (hescape.trans hbody), ?_⟩
    rw [heq, escapedErrorField_of_key hdecode hwhite]
    rfl

/-- The value `error` of the key `type` is in the text, as it is or with escapes. -/
theorem canBe_of_type {frame : Units} {tokens : List Token} (hlexed : Lexed frame tokens)
    (h : Spelled tokens (Units.of "type") (.string (Units.of "error"))) :
    canBeErrorEnvelope frame = true := by
  rcases h.byText _ rfl with ⟨body, body', hdecode, hdecode', hinside⟩
  rcases hlexed.keyAndText hinside with ⟨start, white, white', rest, hwhite, hwhite', heq⟩
  have hbody : body' <:+: frame := by
    refine ⟨start ++ 34 :: (body ++ 34 :: (white ++ 58 :: (white' ++ [34]))), 34 :: rest, ?_⟩
    rw [heq]
    simp
  rw [canBeErrorEnvelope, Bool.or_eq_true, Bool.and_eq_true]
  rcases (spelledWord_of_decode isLetter_errorWord hdecode').2 with hplain | hescape
  · left
    rw [hplain] at hbody
    exact Units.includes_of_infix hbody
  · right
    refine ⟨Units.includes_of_infix (hescape.trans hbody), ?_⟩
    rw [heq, escapedErrorType_of_keyAndText hdecode hdecode' hwhite hwhite', Bool.or_true]

/-- What is truthy has been found. -/
theorem exists_of_truthy {value : Option Value} (h : truthy value = true) :
    ∃ found, value = some found := by
  cases value with
  | none => cases h
  | some found => exact ⟨found, rfl⟩

/-- An error envelope is never skipped. -/
theorem canBe_of_envelope {frame : Units} {value : Value} (hparse : parse frame = some value)
    (h : isErrorEnvelope value = true) : canBeErrorEnvelope frame = true := by
  rcases backed_of_parse hparse with ⟨tokens, hlexed, hbacked⟩
  rw [isErrorEnvelope, Bool.or_eq_true, Bool.or_eq_true] at h
  rcases h with (htype | herror) | hresponse
  · split at htype
    · rename_i text hget
      have hspelled := (hbacked.get? hget).1
      rw [of_decide_eq_true htype] at hspelled
      exact canBe_of_type hlexed hspelled
    · cases htype
  · rcases exists_of_truthy herror with ⟨found, hget⟩
    exact canBe_of_key hlexed (hbacked.get? hget).1
  · rcases exists_of_truthy hresponse with ⟨found, hfound⟩
    rcases Option.bind_eq_some_iff.mp hfound with ⟨response, hget, hget'⟩
    exact canBe_of_key hlexed ((hbacked.get? hget).2.get? hget').1

/-- Frames that are not parsed would not change: the result is that of parsing
every frame, and no error envelope is skipped. -/
theorem redactCredentialFrame_eq (redactStrings : Units → Units) (frame : Units)
    (credential : Option Units) :
    redactCredentialFrame redactStrings frame credential =
        redactParsedFrame redactStrings frame credential ∧
      ((parse frame).any isErrorEnvelope = true → canBeErrorEnvelope frame = true) := by
  have hnever : (parse frame).any isErrorEnvelope = true → canBeErrorEnvelope frame = true := by
    intro h
    cases hparse : parse frame with
    | none =>
        rw [hparse] at h
        cases h
    | some value =>
        rw [hparse] at h
        exact canBe_of_envelope hparse h
  refine ⟨?_, hnever⟩
  unfold redactCredentialFrame
  split
  · rfl
  · rename_i hskip
    unfold redactParsedFrame
    split
    · rfl
    · rename_i value hparse
      have hordinary : ¬ isErrorEnvelope value = true := fun henvelope =>
        hskip (canBe_of_envelope hparse henvelope)
      rw [if_neg hordinary]

/-- An escaped key makes an envelope; the number keeps its spelling. -/
example : redactCredentialFrame id
    (Units.of "\x7b\"\\u0065rr\\u006Fr\" : \"abc\", \"n\": 1.0e2\x7d") (some (Units.of "abc")) =
      Units.of "\x7b\"\\u0065rr\\u006Fr\" : \"[credential]\", \"n\": 1.0e2\x7d" := by
  decide +kernel

end Redaction
