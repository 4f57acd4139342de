import OpenaiAuth.Js.Text

/-! # Credentials in diagnostic text

`redactCredentialText` masks a known credential in a text and in the text with
its escapes decoded, and returns the text unless decoding brought something to
light. What the shared logger masks is a parameter.

Main results, for every text and credential:

* `maskKnownCredential_pieces`: what the masking leaves between its markers has
  no copy of the credential, wrapped or not;
* `redactCredentialText_masks`: neither has the result.
-/

namespace Redaction

open Js

/-! ## Decoding escapes -/

/-- The letter of a short escape stands for a control character when it is
lower case, and for itself otherwise. -/
def shortEscape (c : Nat) : Option Nat :=
  if c = 98 then some 8
  else if c = 102 then some 12
  else if c = 110 then some 10
  else if c = 114 then some 13
  else if c = 116 then some 9
  else if c = 34 ∨ c = 92 ∨ c = 47 ∨ Units.lower c ∈ Units.of "bfnrt" then some c
  else none

/-- What the escape after a backslash stands for, and how long it is. -/
def escapeAt (rest : Units) : Option (Nat × Nat) :=
  match rest with
  | [] => none
  | c :: tail =>
      if Units.lower c = 117 ∧ (Units.fourHex tail).isSome then (Units.fourHex tail).map fun value => (value, 5)
      else (shortEscape c).map fun value => (value, 1)

/-- `skip` units of an escape are still to be passed. -/
def decodeFrom : Nat → Units → Units
  | _, [] => []
  | skip + 1, _ :: rest => decodeFrom skip rest
  | 0, c :: rest =>
      match if c = 92 then escapeAt rest else none with
      | some (value, length) => value :: decodeFrom length rest
      | none => c :: decodeFrom 0 rest

def decodeEscapes (text : Units) : Units := decodeFrom 0 text

/-! ## Masking -/

/-- `[credential]` -/
def credentialMarker : Units := Units.of "[credential]"

/-- `***REDACTED***` -/
def redactedMarker : Units := Units.of "***REDACTED***"

/-- The places of the units that are not whitespace. -/
def positionsFrom : Nat → Units → List Nat
  | _, [] => []
  | index, c :: rest =>
      if Units.isSpace c then positionsFrom (index + 1) rest
      else index :: positionsFrom (index + 1) rest

/-- The loop over the occurrences of `needle` in `normalized`. Each round begins
beyond the last one, so there are at most as many as units. -/
def maskWrapped (needle literal normalized : Units) (positions : List Nat) :
    Nat → (start copied : Nat) → Units
  | 0, _, copied => literal.drop copied
  | rounds + 1, start, copied =>
      match Units.indexOf needle normalized start with
      | none => literal.drop copied
      | some found =>
          let first := (positions[found]?).getD copied
          let past := (positions[found + needle.length - 1]?).getD first + 1
          Units.slice literal copied first ++ credentialMarker ++
            maskWrapped needle literal normalized positions rounds (found + needle.length) past

def maskKnownCredential (text : Units) (credential : Option Units) : Units :=
  match credential with
  | none | some [] => text
  | some credential =>
      let literal := Units.replaceAll credential credentialMarker text
      let needle := Units.strip credential
      if needle = [] then literal
      else
        let normalized := Units.strip literal
        if Units.includes normalized needle then
          maskWrapped needle literal normalized (positionsFrom 0 literal)
            (normalized.length + 1) 0 0
        else literal

variable (redactStrings : Units → Units)

def redactRawText (text : Units) (credential : Option Units) : Units :=
  Units.replaceAll redactedMarker credentialMarker
    (redactStrings (maskKnownCredential text credential))

/-- Scans both spellings. -/
def redactCredentialText (text : Units) (credential : Option Units) : Units :=
  let raw := redactRawText redactStrings text credential
  let decoded := decodeEscapes raw
  let safe := redactRawText redactStrings decoded credential
  if safe = decoded then raw else safe

/-! ## Where the units that are not whitespace are -/

theorem positionsFrom_spec {literal : Units} {index k p : Nat}
    (h : (positionsFrom index literal)[k]? = some p) :
    ∃ n, p = index + n ∧ n < literal.length ∧
      Units.strip (literal.take n) = (Units.strip literal).take k ∧
      Units.strip (literal.take (n + 1)) = (Units.strip literal).take (k + 1) ∧
      k < (Units.strip literal).length := by
  induction literal generalizing index k with
  | nil => simp [positionsFrom] at h
  | cons c rest ih =>
      by_cases hspace : Units.isSpace c = true
      · -- whitespace has no place of its own
        rw [positionsFrom, if_pos hspace] at h
        rcases ih h with ⟨n, hp, hn, hbefore, hupto, hk⟩
        have hstrip : ∀ tail, Units.strip (c :: tail) = Units.strip tail := by
          intro tail
          simp [Units.strip, hspace]
        refine ⟨n + 1, by omega, by simpa using hn, ?_, ?_, ?_⟩
        · rw [List.take_succ_cons, hstrip, hstrip, hbefore]
        · rw [List.take_succ_cons, hstrip, hstrip, hupto]
        · rw [hstrip]
          exact hk
      · rw [positionsFrom, if_neg hspace] at h
        have hstrip : ∀ tail, Units.strip (c :: tail) = c :: Units.strip tail := by
          intro tail
          simp [Units.strip, hspace]
        cases k with
        | zero =>
            rw [List.getElem?_cons_zero, Option.some.injEq] at h
            refine ⟨0, by omega, by simp, rfl, ?_, ?_⟩
            · rw [List.take_succ_cons, List.take_zero, hstrip, hstrip]
              rfl
            · rw [hstrip]
              exact Nat.succ_pos _
        | succ k =>
            rw [List.getElem?_cons_succ] at h
            rcases ih h with ⟨n, hp, hn, hbefore, hupto, hk⟩
            refine ⟨n + 1, by omega, by simpa using hn, ?_, ?_, ?_⟩
            · rw [List.take_succ_cons, hstrip, hstrip, hbefore, List.take_succ_cons]
            · rw [List.take_succ_cons, hstrip, hstrip, hupto, List.take_succ_cons]
            · rw [hstrip, List.length_cons]
              omega

theorem length_positionsFrom (literal : Units) (index : Nat) :
    (positionsFrom index literal).length = (Units.strip literal).length := by
  induction literal generalizing index with
  | nil => rfl
  | cons c rest ih =>
      by_cases hspace : Units.isSpace c = true
      · simp [positionsFrom, Units.strip, hspace]
        exact ih (index + 1)
      · simp [positionsFrom, Units.strip, hspace]
        exact ih (index + 1)

/-- A place exists for each unit that is not whitespace. -/
theorem exists_position {literal : Units} {k : Nat} (hk : k < (Units.strip literal).length) :
    ∃ p, (positionsFrom 0 literal)[k]? = some p ∧ p < literal.length ∧
      Units.strip (literal.take p) = (Units.strip literal).take k ∧
      Units.strip (literal.take (p + 1)) = (Units.strip literal).take (k + 1) := by
  have hlen : k < (positionsFrom 0 literal).length := by
    rw [length_positionsFrom]
    exact hk
  have hget := List.getElem?_eq_getElem hlen
  rcases positionsFrom_spec hget with ⟨n, hp, hn, hbefore, hupto, -⟩
  rw [Nat.zero_add] at hp
  rw [hp] at hget
  exact ⟨n, hget, hn, hbefore, hupto⟩

/-! ## What masking leaves -/

/-- What is copied between two occurrences, without its whitespace. -/
theorem strip_slice {literal : Units} {copied first start found : Nat}
    (hcopied : Units.strip (literal.take copied) = (Units.strip literal).take start)
    (hfirst : Units.strip (literal.take first) = (Units.strip literal).take found)
    (hle : copied ≤ first) (hfound : start ≤ found) :
    Units.strip (Units.slice literal copied first) =
      Units.slice (Units.strip literal) start found := by
  rw [← Units.take_append_slice literal hle, Units.strip_append, hcopied,
    ← Units.take_append_slice (Units.strip literal) hfound] at hfirst
  exact List.append_cancel_left hfirst

/-- Places go up: what has been copied ends before the next occurrence. -/
theorem copied_le {literal : Units} {copied start p k : Nat}
    (hcopied : Units.strip (literal.take copied) = (Units.strip literal).take start)
    (hupto : Units.strip (literal.take (p + 1)) = (Units.strip literal).take (k + 1))
    (hk : k < (Units.strip literal).length) (hle : start ≤ k) : copied ≤ p := by
  by_contra hlt
  have hleads : literal.take (p + 1) <+: literal.take copied := by
    exact List.take_prefix_take_left (by omega)
  have hlen := (hleads.filter fun c => !Units.isSpace c).length_le
  change (Units.strip _).length ≤ (Units.strip _).length at hlen
  rw [hcopied, hupto, List.length_take, List.length_take] at hlen
  omega

/-- No occurrence lies before the one that is found. -/
theorem not_infix_slice {needle text : Units} {start found : Nat} (hlen : found ≤ text.length)
    (hleast : ∀ i, start ≤ i → i < found → ¬ needle <+: text.drop i) (hne : needle ≠ []) :
    ¬ needle <:+: Units.slice text start found := by
  intro hinside
  rcases Units.infix_drop hinside with ⟨i, hi, -, hleads⟩
  have hin : i < found := by
    by_contra hge
    rw [List.drop_eq_nil_of_le (by rw [List.length_take]; omega), List.prefix_nil] at hleads
    exact hne hleads
  apply hleast i hi hin
  refine hleads.trans ?_
  rw [List.drop_take]
  exact List.take_prefix _ _

/-- The loop masks every occurrence that whitespace may have broken up. -/
theorem maskWrapped_pieces {needle literal : Units} (hne : needle ≠ []) (rounds : Nat)
    {start copied : Nat} (hstart : start ≤ (Units.strip literal).length)
    (hrounds : (Units.strip literal).length < start + rounds)
    (hcopied : Units.strip (literal.take copied) = (Units.strip literal).take start) :
    Units.Pieces credentialMarker (fun p => ¬ needle <:+: Units.strip p)
      (maskWrapped needle literal (Units.strip literal) (positionsFrom 0 literal) rounds start
        copied) := by
  have hneedle : 0 < needle.length := List.length_pos_iff.mpr hne
  induction rounds generalizing start copied with
  | zero => omega
  | succ rounds ih =>
      rw [maskWrapped]
      cases hfind : Units.indexOf needle (Units.strip literal) start with
      | none =>
          -- nothing follows
          apply Units.Pieces.last
          have hrest : Units.strip (literal.drop copied) = (Units.strip literal).drop start := by
            have hsplit := congrArg Units.strip (List.take_append_drop copied literal)
            rw [Units.strip_append, hcopied] at hsplit
            have hsplit' := List.take_append_drop start (Units.strip literal)
            exact List.append_cancel_left (hsplit.trans hsplit'.symm)
          rw [hrest]
          exact Units.indexOf_eq_none hstart hfind
      | some found =>
          rcases Units.indexOf_eq_some hfind with ⟨hfound, hleads, hleast⟩
          have hfits : found + needle.length ≤ (Units.strip literal).length := by
            have hlen := hleads.length_le
            rw [List.length_drop] at hlen
            omega
          rcases exists_position (show found < (Units.strip literal).length by omega) with
            ⟨first, hfirst, -, hbefore, hupto⟩
          rcases exists_position
            (show found + needle.length - 1 < (Units.strip literal).length by omega) with
            ⟨last, hlast, -, -, hpast⟩
          have hle : copied ≤ first := copied_le hcopied hupto (by omega) hfound
          simp only [hfirst, hlast, Option.getD_some]
          apply Units.Pieces.cons
          · rw [strip_slice hcopied hbefore hle hfound]
            exact not_infix_slice (by omega) hleast hne
          · apply ih
            · exact hfits
            · omega
            · rw [hpast, Nat.sub_add_cancel (by omega)]

theorem strip_credentialMarker : Units.strip credentialMarker = credentialMarker := by decide

/-- Masking a known credential leaves no copy of it outside the markers. -/
theorem maskKnownCredential_pieces (text : Units) {credential : Units}
    (hne : Units.strip credential ≠ []) :
    Units.Pieces credentialMarker (fun p => ¬ Units.strip credential <:+: Units.strip p)
      (maskKnownCredential text (some credential)) := by
  cases hcred : credential with
  | nil =>
      rw [hcred] at hne
      exact absurd rfl hne
  | cons c rest =>
      rw [← hcred]
      have hmask : maskKnownCredential text (some credential) =
          if Units.includes (Units.strip (Units.replaceAll credential credentialMarker text))
              (Units.strip credential) then
            maskWrapped (Units.strip credential) (Units.replaceAll credential credentialMarker text)
              (Units.strip (Units.replaceAll credential credentialMarker text))
              (positionsFrom 0 (Units.replaceAll credential credentialMarker text))
              ((Units.strip (Units.replaceAll credential credentialMarker text)).length + 1) 0 0
          else Units.replaceAll credential credentialMarker text := by
        simp only [maskKnownCredential, hcred]
        rw [if_neg (hcred ▸ hne)]
      rw [hmask]
      split
      · apply maskWrapped_pieces hne
        · exact Nat.zero_le _
        · omega
        · rfl
      · rename_i hnot
        apply Units.Pieces.last
        exact Units.not_infix_of_not_includes (by simpa using hnot)

/-! ## What reaches a log -/

section

variable {redactStrings : Units → Units}

/-- The credential has none of the units the markers are set off by. -/
structure Plain (needle : Units) : Prop where
  opening : 91 ∉ needle
  closing : 93 ∉ needle
  star : 42 ∉ needle
  credential : ¬ needle <:+: Units.of "credential"
  redacted : ¬ needle <:+: Units.of "REDACTED"

theorem Plain.not_infix_stars {needle : Units} (h : Plain needle) :
    ¬ needle <:+: Units.of "**REDACTED**" := by
  intro hinside
  have hfirst : Units.of "**REDACTED**" = [] ++ 42 :: ([] ++ 42 :: (Units.of "REDACTED" ++
      42 :: ([] ++ 42 :: []))) := by decide
  rw [hfirst] at hinside
  have hnil : ¬ needle <:+: [] := by
    intro (hin : needle <:+: [])
    exact h.credential (hin.trans List.nil_infix)
  rcases Units.infix_split h.star hinside with hin | hin
  · exact hnil hin
  · rcases Units.infix_split h.star hin with hin | hin
    · exact hnil hin
    · rcases Units.infix_split h.star hin with hin | hin
      · exact h.redacted hin
      · rcases Units.infix_split h.star hin with hin | hin
        · exact hnil hin
        · exact hnil hin

/-- Pieces without the needle make a text without it: the credential's marker
is set off by brackets. -/
theorem Plain.not_infix_of_pieces {needle text : Units} (h : Plain needle)
    (hpieces : Units.Pieces credentialMarker (fun p => ¬ needle <:+: Units.strip p) text) :
    ¬ needle <:+: Units.strip text := by
  have hmarker : credentialMarker = 91 :: (Units.of "credential" ++ [93]) := by decide
  rw [hmarker] at hpieces
  apply hpieces.not_infix h.opening h.closing h.credential
  rw [← hmarker]
  exact strip_credentialMarker

/-- What one pass over a text leaves. -/
theorem redactRawText_masks (hmasks : ∀ t, Units.Pieces redactedMarker (· <:+: t) (redactStrings t))
    (text : Units) {credential : Units} (hne : Units.strip credential ≠ [])
    (h : Plain (Units.strip credential)) :
    ¬ Units.strip credential <:+: Units.strip (redactRawText redactStrings text (some credential)) := by
  have hmasked := h.not_infix_of_pieces (maskKnownCredential_pieces text hne)
  have hlogged : ¬ Units.strip credential <:+:
      Units.strip (redactStrings (maskKnownCredential text (some credential))) := by
    have hmarker : redactedMarker = 42 :: (Units.of "**REDACTED**" ++ [42]) := by decide
    have hfree : ∀ p, p <:+: maskKnownCredential text (some credential) →
        ¬ Units.strip credential <:+: Units.strip p := fun p hp hin =>
      hmasked (List.IsInfix.trans hin (Units.strip_infix hp))
    have hpieces := (hmasks (maskKnownCredential text (some credential))).imp hfree
    rw [hmarker] at hpieces
    apply hpieces.not_infix h.star h.star h.not_infix_stars
    decide
  -- the logger's marker becomes the credential's
  apply h.not_infix_of_pieces
  exact (Units.replaceAll_pieces redactedMarker credentialMarker _).imp fun p hp hin =>
    hlogged (List.IsInfix.trans hin (Units.strip_infix hp))

theorem Plain.strip {credential : Units} (hopening : 91 ∉ credential) (hclosing : 93 ∉ credential)
    (hstar : 42 ∉ credential) (hword : ¬ Units.strip credential <:+: Units.of "credential")
    (hredacted : ¬ Units.strip credential <:+: Units.of "REDACTED") :
    Plain (Units.strip credential) :=
  ⟨fun h => hopening (List.mem_filter.mp h).1, fun h => hclosing (List.mem_filter.mp h).1,
    fun h => hstar (List.mem_filter.mp h).1, hword, hredacted⟩

end

/-- The result has no copy of the credential, wrapped or not; and where decoding
the escapes of the text brought nothing to light, neither has the result with
its own escapes decoded. -/
theorem redactCredentialText_masks (redactStrings : Units → Units)
    (hmasks : ∀ t, Units.Pieces redactedMarker (· <:+: t) (redactStrings t))
    (text credential : Units)
    (hopening : 91 ∉ credential) (hclosing : 93 ∉ credential) (hstar : 42 ∉ credential)
    (hword : ¬ Units.strip credential <:+: Units.of "credential")
    (hredacted : ¬ Units.strip credential <:+: Units.of "REDACTED") :
    ¬ Units.strip credential <:+:
        Units.strip (redactCredentialText redactStrings text (some credential)) ∧
      (redactRawText redactStrings
          (decodeEscapes (redactRawText redactStrings text (some credential))) (some credential) =
        decodeEscapes (redactRawText redactStrings text (some credential)) →
      ¬ Units.strip credential <:+:
        Units.strip (decodeEscapes (redactCredentialText redactStrings text (some credential)))) := by
  have hplain := Plain.strip hopening hclosing hstar hword hredacted
  have hne : Units.strip credential ≠ [] := by
    intro hnil
    rw [hnil] at hword
    exact hword List.nil_infix
  have hraw := redactRawText_masks hmasks text hne hplain
  have hsafe := redactRawText_masks hmasks
    (decodeEscapes (redactRawText redactStrings text (some credential))) hne hplain
  simp only [redactCredentialText]
  constructor
  · split
    · exact hraw
    · exact hsafe
  · intro hsame
    rw [if_pos hsame, ← hsame]
    exact hsafe

/-- A text without anything to mask. -/
theorem redactCredentialText_masks_plain :
    ¬ Units.of "secret" <:+: Units.strip (redactCredentialText id
        (Units.of "token sec\nret") (some (Units.of "secret"))) := by
  have hmasks : ∀ t : Units, Units.Pieces redactedMarker (· <:+: t) (id t) := fun t =>
    .last List.infix_rfl
  exact (redactCredentialText_masks id hmasks (Units.of "token sec\nret") (Units.of "secret")
    (by decide) (by decide) (by decide) (by decide) (by decide)).1

/-- An escaped backslash: one copy is escaped once, the other one twice. -/
def nestedEscapes : Units := Units.of "\\u0061bc \\u005cu0061bc"

/-- Decoding the result once more brings the second copy to light. -/
theorem redactCredentialText_nested :
    ¬ ∀ (redactStrings : Units → Units) (text credential : Units),
      (∀ t, Units.Pieces redactedMarker (· <:+: t) (redactStrings t)) →
      91 ∉ credential → 93 ∉ credential → 42 ∉ credential →
      ¬ credential <:+: Units.of "credential" → ¬ credential <:+: Units.of "REDACTED" →
      ¬ Units.strip credential <:+: Units.strip (decodeEscapes
        (redactCredentialText redactStrings text (some credential))) := by
  intro h
  have hmasks : ∀ t : Units, Units.Pieces redactedMarker (· <:+: t) (id t) := fun t =>
    .last List.infix_rfl
  exact h id nestedEscapes (Units.of "abc") hmasks (by decide) (by decide) (by decide) (by decide)
    (by decide) (by decide +kernel)

end Redaction
