import Mathlib.Algebra.Group.Nat.Defs
import Mathlib.Data.List.Basic
import Mathlib.Data.List.Infix

/-! # Strings as code units

A JavaScript string is a list of UTF-16 code units; nothing here depends on
their bound. Searching, replacing and slicing work on units, and `\s` is the
class of the regular expressions. What a search finds is said with infixes.
-/

namespace Js

abbrev Units := List Nat

namespace Units

/-- The units of a text of the basic plane. -/
def of (text : String) : Units := text.toList.map Char.toNat

/-- `\s` -/
def isSpace (c : Nat) : Bool :=
  (9 ≤ c && c ≤ 13) || c = 32 || c = 0xa0 || c = 0x1680 || (0x2000 ≤ c && c ≤ 0x200a) ||
    c = 0x2028 || c = 0x2029 || c = 0x202f || c = 0x205f || c = 0x3000 || c = 0xfeff

/-- `text.replace(/\s/g, '')` -/
def strip (text : Units) : Units := text.filter fun c => !isSpace c

/-- `text.slice(start, stop)` for a start that is not beyond the stop. -/
def slice (text : Units) (start stop : Nat) : Units := (text.take stop).drop start

/-- `text.indexOf(needle, start)` -/
def indexOf (needle text : Units) (start : Nat) : Option Nat :=
  (List.range (text.length + 1)).find? fun i => start ≤ i && needle.isPrefixOf (text.drop i)

/-- `text.includes(needle)` -/
def includes (text needle : Units) : Bool := (indexOf needle text 0).isSome

/-- Replaces from left to right; `skip` units of an occurrence are still to be passed. -/
def replaceFrom (needle replacement : Units) : Nat → Units → Units
  | _, [] => []
  | skip + 1, _ :: rest => replaceFrom needle replacement skip rest
  | 0, c :: rest =>
      if needle.isPrefixOf (c :: rest) then
        replacement ++ replaceFrom needle replacement (needle.length - 1) rest
      else c :: replaceFrom needle replacement 0 rest

/-- `text.replaceAll(needle, replacement)`, or `text.split(needle).join(replacement)`,
of a needle that is not empty. -/
def replaceAll (needle replacement text : Units) : Units := replaceFrom needle replacement 0 text

/-! ## Digits and letters -/

/-- The value of a hexadecimal digit, of either case. -/
def hexValue (c : Nat) : Option Nat :=
  if 48 ≤ c ∧ c ≤ 57 then some (c - 48)
  else if 97 ≤ c ∧ c ≤ 102 then some (c - 87)
  else if 65 ≤ c ∧ c ≤ 70 then some (c - 55)
  else none

/-- Four hexadecimal digits at the beginning of the text. -/
def fourHex (text : Units) : Option Nat :=
  match text with
  | a :: b :: c :: d :: _ => do
      let a ← hexValue a
      let b ← hexValue b
      let c ← hexValue c
      let d ← hexValue d
      return a * 4096 + b * 256 + c * 16 + d
  | _ => none

def lower (c : Nat) : Nat := if 65 ≤ c ∧ c ≤ 90 then c + 32 else c

/-- What follows `word`, of either case, at the beginning of the text. -/
def dropFolded (word text : Units) : Option Units :=
  if (text.take word.length).map lower = word then some (text.drop word.length) else none

/-- A hexadecimal digit, in lower case. -/
def hexDigit (value : Nat) : Nat := if value < 10 then 48 + value else 87 + value

/-- `\uxxxx` -/
def unicodeEscape (c : Nat) : Units :=
  [92, 117, hexDigit (c / 4096 % 16), hexDigit (c / 256 % 16), hexDigit (c / 16 % 16),
    hexDigit (c % 16)]

/-! ## Quoting -/

def isHighSurrogate (c : Nat) : Bool := 0xd800 ≤ c && c ≤ 0xdbff

def isLowSurrogate (c : Nat) : Bool := 0xdc00 ≤ c && c ≤ 0xdfff

/-- A unit that is not half of a pair, as `JSON.stringify` writes it. -/
def quoteUnit (c : Nat) : Units :=
  if c = 34 ∨ c = 92 then [92, c]
  else if c = 8 then of "\\b"
  else if c = 9 then of "\\t"
  else if c = 10 then of "\\n"
  else if c = 12 then of "\\f"
  else if c = 13 then of "\\r"
  else if c < 32 ∨ isHighSurrogate c ∨ isLowSurrogate c then unicodeEscape c
  else [c]

def quoteUnits : Units → Units
  | [] => []
  | [c] => quoteUnit c
  | c :: d :: rest =>
      if isHighSurrogate c && isLowSurrogate d then c :: d :: quoteUnits rest
      else quoteUnit c ++ quoteUnits (d :: rest)

/-- `JSON.stringify(text)` -/
def quoted (text : Units) : Units := 34 :: (quoteUnits text ++ [34])

/-! ## Infixes -/

/-- What does not contain `d` lies on one side of it. -/
theorem infix_split {needle a b : Units} {d : Nat} (hd : d ∉ needle)
    (h : needle <:+: a ++ d :: b) : needle <:+: a ∨ needle <:+: b := by
  rcases h with ⟨s, t, heq⟩
  rw [List.append_assoc, List.append_eq_append_iff] at heq
  rcases heq with ⟨c, ha, hrest⟩ | ⟨c, hs, hrest⟩
  · rw [List.append_eq_append_iff] at hrest
    rcases hrest with ⟨e, hc, -⟩ | ⟨e, hneedle, hrest⟩
    · left
      exact ⟨s, e, by rw [ha, hc, List.append_assoc]⟩
    · cases e with
      | nil =>
          left
          rw [hneedle, List.append_nil, ha]
          exact (List.suffix_append s c).isInfix
      | cons x e =>
          rw [List.cons_append, List.cons.injEq] at hrest
          rw [hneedle, ← hrest.1] at hd
          simp at hd
  · cases c with
    | nil =>
        cases needle with
        | nil => exact Or.inl (List.nil_infix)
        | cons x needle =>
            rw [List.nil_append, List.cons_append, List.cons.injEq] at hrest
            rw [← hrest.1] at hd
            simp at hd
    | cons x c =>
        rw [List.cons_append, List.cons.injEq] at hrest
        exact Or.inr ⟨c, t, by rw [hrest.2, List.append_assoc]⟩

@[simp] theorem strip_append (a b : Units) : strip (a ++ b) = strip a ++ strip b :=
  List.filter_append a b

theorem strip_infix {a b : Units} (h : a <:+: b) : strip a <:+: strip b := h.filter _

theorem take_append_slice (text : Units) {start stop : Nat} (h : start ≤ stop) :
    text.take start ++ slice text start stop = text.take stop := by
  have hsplit := List.take_append_drop start (text.take stop)
  rwa [List.take_take, min_eq_left h] at hsplit

/-! ## Searching -/

theorem infix_drop {needle text : Units} {start : Nat} (h : needle <:+: text.drop start) :
    ∃ i, start ≤ i ∧ i ≤ max start text.length ∧ needle <+: text.drop i := by
  rcases List.infix_iff_prefix_suffix.mp h with ⟨rest, hleads, hsuffix⟩
  rw [List.suffix_iff_eq_drop] at hsuffix
  refine ⟨start + ((text.drop start).length - rest.length), by omega, ?_, ?_⟩
  · rw [List.length_drop]
    omega
  · rw [← List.drop_drop, ← hsuffix]
    exact hleads

theorem indexOf_eq_some {needle text : Units} {start found : Nat}
    (h : indexOf needle text start = some found) :
    start ≤ found ∧ needle <+: text.drop found ∧
      ∀ i, start ≤ i → i < found → ¬ needle <+: text.drop i := by
  rw [indexOf, List.find?_range_eq_some] at h
  rcases h with ⟨hfound, -, hleast⟩
  simp only [Bool.and_eq_true, decide_eq_true_eq, List.isPrefixOf_iff_prefix] at hfound
  refine ⟨hfound.1, hfound.2, ?_⟩
  intro i hi hlt hleads
  have hnot := hleast i hlt
  rw [List.isPrefixOf_iff_prefix.mpr hleads] at hnot
  simp [hi] at hnot

theorem indexOf_of_least {needle text : Units} {found : Nat} (hfound : found ≤ text.length)
    (hleads : needle <+: text.drop found) (hleast : ∀ i < found, ¬ needle <+: text.drop i) :
    indexOf needle text 0 = some found := by
  rw [indexOf, List.find?_range_eq_some]
  refine ⟨?_, List.mem_range.mpr (by omega), ?_⟩
  · rw [List.isPrefixOf_iff_prefix.mpr hleads]
    rfl
  · intro i hi
    have hnot : needle.isPrefixOf (text.drop i) = false := by
      rw [← Bool.not_eq_true, List.isPrefixOf_iff_prefix]
      exact hleast i hi
    rw [hnot]
    rfl

theorem indexOf_eq_none {needle text : Units} {start : Nat} (hstart : start ≤ text.length)
    (h : indexOf needle text start = none) : ¬ needle <:+: text.drop start := by
  intro hinside
  rcases infix_drop hinside with ⟨i, hi, hle, hleads⟩
  rw [indexOf, List.find?_range_eq_none] at h
  have hnot := h i (by omega)
  rw [List.isPrefixOf_iff_prefix.mpr hleads] at hnot
  simp [hi] at hnot

theorem not_infix_of_not_includes {needle text : Units} (h : includes text needle = false) :
    ¬ needle <:+: text := by
  have hnone : indexOf needle text 0 = none := by
    simpa [includes] using h
  simpa using indexOf_eq_none (Nat.zero_le _) hnone

theorem includes_of_infix {needle text : Units} (h : needle <:+: text) :
    includes text needle = true := by
  by_contra hnot
  exact not_infix_of_not_includes (by simpa using hnot) h

theorem dropFolded_append {word start rest : Units} (h : start.map lower = word) :
    dropFolded word (start ++ rest) = some rest := by
  have hlen : word.length = start.length := by rw [← h, List.length_map]
  rw [dropFolded, hlen, List.take_left, List.drop_left, if_pos h]

/-! ## Texts in pieces -/

/-- Pieces that satisfy `P`, with `marker` between them. -/
inductive Pieces (marker : Units) (P : Units → Prop) : Units → Prop where
  | last {piece : Units} (hp : P piece) : Pieces marker P piece
  | cons {piece rest : Units} (hp : P piece) (hrest : Pieces marker P rest) :
      Pieces marker P (piece ++ marker ++ rest)

theorem Pieces.imp {marker : Units} {P Q : Units → Prop} (himp : ∀ p, P p → Q p) {text : Units}
    (h : Pieces marker P text) : Pieces marker Q text := by
  induction h with
  | last hp => exact .last (himp _ hp)
  | cons hp _ ih => exact .cons (himp _ hp) ih

/-- What a replacement leaves between the markers comes from the text, and what
it leaves before the first one is where the text begins. -/
theorem replaceFrom_pieces (needle replacement text : Units) :
    (∀ skip, Pieces replacement (· <:+: text) (replaceFrom needle replacement skip text)) ∧
      ∃ piece, piece <+: text ∧ (replaceFrom needle replacement 0 text = piece ∨
        ∃ rest, Pieces replacement (· <:+: text) rest ∧
          replaceFrom needle replacement 0 text = piece ++ replacement ++ rest) := by
  induction text with
  | nil =>
      constructor
      · intro skip
        cases skip <;> exact .last List.nil_infix
      · exact ⟨[], List.nil_prefix, Or.inl rfl⟩
  | cons c rest ih =>
      rcases ih with ⟨hpieces, piece, hleads, hfirst⟩
      have hmore : ∀ skip, Pieces replacement (· <:+: c :: rest)
          (replaceFrom needle replacement skip rest) := fun skip =>
        (hpieces skip).imp fun p hp => hp.trans (List.suffix_cons c rest).isInfix
      by_cases hmatch : needle.isPrefixOf (c :: rest) = true
      · -- the marker comes first
        have hzero : replaceFrom needle replacement 0 (c :: rest) =
            [] ++ replacement ++ replaceFrom needle replacement (needle.length - 1) rest := by
          simp [replaceFrom, hmatch]
        constructor
        · intro skip
          cases skip with
          | zero =>
              rw [hzero]
              exact .cons List.nil_infix (hmore _)
          | succ skip => exact hmore skip
        · exact ⟨[], List.nil_prefix, Or.inr ⟨_, hmore _, hzero⟩⟩
      · -- the unit joins the first piece
        have hzero : replaceFrom needle replacement 0 (c :: rest) =
            c :: replaceFrom needle replacement 0 rest := by
          simp [replaceFrom, hmatch]
        have hleads' : c :: piece <+: c :: rest := (List.prefix_cons_inj c).mpr hleads
        have hsplit : replaceFrom needle replacement 0 (c :: rest) = c :: piece ∨
            ∃ tail, Pieces replacement (· <:+: c :: rest) tail ∧
              replaceFrom needle replacement 0 (c :: rest) = (c :: piece) ++ replacement ++ tail := by
          rcases hfirst with heq | ⟨tail, htail, heq⟩
          · exact Or.inl (by rw [hzero, heq])
          · refine Or.inr ⟨tail, htail.imp fun p hp => hp.trans (List.suffix_cons c rest).isInfix, ?_⟩
            rw [hzero, heq]
            rfl
        refine ⟨?_, c :: piece, hleads', hsplit⟩
        intro skip
        cases skip with
        | zero =>
            rcases hsplit with heq | ⟨tail, htail, heq⟩
            · rw [heq]
              exact .last hleads'.isInfix
            · rw [heq]
              exact .cons hleads'.isInfix htail
        | succ skip => exact hmore skip

theorem replaceAll_pieces (needle replacement text : Units) :
    Pieces replacement (· <:+: text) (replaceAll needle replacement text) :=
  (replaceFrom_pieces needle replacement text).1 0

/-- A needle that is in no piece and not inside the marker is not in the text:
the marker's first and last unit keep it apart. -/
theorem Pieces.not_infix {needle word text : Units} {first last : Nat}
    (hfirst : first ∉ needle) (hlast : last ∉ needle) (hword : ¬ needle <:+: word)
    (h : Pieces (first :: (word ++ [last])) (fun p => ¬ needle <:+: strip p) text)
    (hmarker : strip (first :: (word ++ [last])) = first :: (word ++ [last])) :
    ¬ needle <:+: strip text := by
  induction h with
  | last hp => exact hp
  | @cons piece rest hp _ ih =>
      intro hinside
      rw [strip_append, strip_append, hmarker, List.append_assoc, List.cons_append,
        List.append_assoc] at hinside
      rcases infix_split hfirst hinside with hin | hin
      · exact hp hin
      · rcases infix_split hlast hin with hin | hin
        · exact hword hin
        · exact ih hin

end Units

end Js
