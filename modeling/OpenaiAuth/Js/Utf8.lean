import OpenaiAuth.Js.Text

/-! # UTF-8

`TextEncoder`, and the streaming decoder of `TextDecoder` with `ignoreBOM`: it
takes one byte after another, and a byte that does not fit gives U+FFFD.

Main results:

* `feed_append`: how the bytes are cut does not matter;
* `feed_textBytes`: the decoder reads the bytes of a text as its units;
* `encode_textUnits`: the encoder writes them back;
* `encode_append`: it works piece by piece between the halves of no pair.
-/

namespace Js

abbrev Bytes := List Nat

namespace Utf8

/-! ## Characters -/

/-- The bytes of a scalar value. -/
def encodeScalar (v : Nat) : Bytes :=
  if v < 0x80 then [v]
  else if v < 0x800 then [0xc0 + v / 64, 0x80 + v % 64]
  else if v < 0x10000 then [0xe0 + v / 4096, 0x80 + v / 64 % 64, 0x80 + v % 64]
  else [0xf0 + v / 262144, 0x80 + v / 4096 % 64, 0x80 + v / 64 % 64, 0x80 + v % 64]

/-- The units of a scalar value. -/
def utf16 (v : Nat) : Units :=
  if v < 0x10000 then [v]
  else [0xd800 + (v - 0x10000) / 0x400, 0xdc00 + (v - 0x10000) % 0x400]

/-! ## The encoder -/

def replacement : Nat := 0xfffd

/-- The scalar value of a unit that is not half of a pair. -/
def loneScalar (c : Nat) : Nat :=
  if Units.isHighSurrogate c || Units.isLowSurrogate c then replacement else c

def pairScalar (high low : Nat) : Nat := 0x10000 + (high - 0xd800) * 0x400 + (low - 0xdc00)

/-- `encoder.encode(text)` -/
def encode : Units → Bytes
  | [] => []
  | [c] => encodeScalar (loneScalar c)
  | c :: d :: rest =>
      if Units.isHighSurrogate c && Units.isLowSurrogate d then
        encodeScalar (pairScalar c d) ++ encode rest
      else encodeScalar (loneScalar c) ++ encode (d :: rest)

/-! ## The decoder -/

/-- How many bytes the character still needs, what it is so far, and the bounds
of its next byte. -/
structure Decoder where
  needed : Nat
  codePoint : Nat
  lower : Nat
  upper : Nat
deriving DecidableEq, Repr

def Decoder.start : Decoder := { needed := 0, codePoint := 0, lower := 0x80, upper := 0xbf }

/-- The first byte of a character. -/
def lead (byte : Nat) : Decoder × Units :=
  if byte < 0x80 then (.start, [byte])
  else if 0xc2 ≤ byte ∧ byte ≤ 0xdf then
    ({ needed := 1, codePoint := byte % 32, lower := 0x80, upper := 0xbf }, [])
  else if 0xe0 ≤ byte ∧ byte ≤ 0xef then
    ({ needed := 2, codePoint := byte % 16, lower := if byte = 0xe0 then 0xa0 else 0x80,
        upper := if byte = 0xed then 0x9f else 0xbf }, [])
  else if 0xf0 ≤ byte ∧ byte ≤ 0xf4 then
    ({ needed := 3, codePoint := byte % 8, lower := if byte = 0xf0 then 0x90 else 0x80,
        upper := if byte = 0xf4 then 0x8f else 0xbf }, [])
  else (.start, [replacement])

def Decoder.step (d : Decoder) (byte : Nat) : Decoder × Units :=
  if d.needed = 0 then lead byte
  else if d.lower ≤ byte ∧ byte ≤ d.upper then
    if d.needed = 1 then (.start, utf16 (d.codePoint * 64 + byte % 64))
    else
      ({ needed := d.needed - 1, codePoint := d.codePoint * 64 + byte % 64, lower := 0x80,
          upper := 0xbf }, [])
  else ((lead byte).1, replacement :: (lead byte).2)

/-- `decoder.decode(bytes, { stream: true })` -/
def Decoder.feed : Decoder → Bytes → Decoder × Units
  | d, [] => (d, [])
  | d, byte :: rest =>
      let next := d.step byte
      let last := feed next.1 rest
      (last.1, next.2 ++ last.2)

/-- `decoder.decode()`: a character that is not complete is replaced. -/
def Decoder.flush (d : Decoder) : Units := if d.needed = 0 then [] else [replacement]

/-- `Buffer.toString('utf-8')` -/
def decode (bytes : Bytes) : Units := (Decoder.start.feed bytes).2 ++ (Decoder.start.feed bytes).1.flush

/-! ## Texts -/

def textBytes (text : List Char) : Bytes := text.flatMap fun c => encodeScalar c.toNat

def textUnits (text : List Char) : Units := text.flatMap fun c => utf16 c.toNat

theorem Decoder.feed_append (d : Decoder) (a b : Bytes) :
    d.feed (a ++ b) = (((d.feed a).1.feed b).1, (d.feed a).2 ++ ((d.feed a).1.feed b).2) := by
  induction a generalizing d with
  | nil => rfl
  | cons byte a ih => simp [feed, ih]

theorem Decoder.feed_silent {d next : Decoder} {byte : Nat} (h : d.step byte = (next, []))
    (rest : Bytes) : d.feed (byte :: rest) = next.feed rest := by
  rw [feed, h]
  rfl

theorem Decoder.feed_last {d next : Decoder} {byte : Nat} {units : Units}
    (h : d.step byte = (next, units)) : d.feed [byte] = (next, units) := by
  rw [feed, h]
  simp [feed]

/-- A continuation byte that more bytes follow. -/
theorem Decoder.step_more (needed codePoint lower upper : Nat) {byte : Nat}
    (hlower : lower ≤ byte) (hupper : byte ≤ upper) :
    (Decoder.mk (needed + 2) codePoint lower upper).step byte =
      (Decoder.mk (needed + 1) (codePoint * 64 + byte % 64) 0x80 0xbf, []) := by
  rw [step, if_neg (by simp), if_pos ⟨hlower, hupper⟩, if_neg (by simp)]
  rfl

/-- The last continuation byte. -/
theorem Decoder.step_last (codePoint lower upper : Nat) {byte : Nat}
    (hlower : lower ≤ byte) (hupper : byte ≤ upper) :
    (Decoder.mk 1 codePoint lower upper).step byte =
      (.start, utf16 (codePoint * 64 + byte % 64)) := by
  rw [step, if_neg (by simp), if_pos ⟨hlower, hupper⟩, if_pos rfl]

theorem Decoder.step_start (byte : Nat) : Decoder.start.step byte = lead byte := rfl

/-- A character's lead byte and its continuation bytes, decoded. One case for each length. -/
theorem Decoder.feed_encodeScalar {v : Nat} (hv : v < 0xd800 ∨ (0xdfff < v ∧ v < 0x110000)) :
    Decoder.start.feed (encodeScalar v) = (.start, utf16 v) := by
  unfold encodeScalar
  split
  · rename_i h
    apply feed_last
    rw [step_start, lead, if_pos h, utf16, if_pos (by omega)]
  · split
    · have hvalue : (192 + v / 64) % 32 * 64 + (128 + v % 64) % 64 = v := by omega
      have hlead : lead (192 + v / 64) =
          (Decoder.mk 1 ((192 + v / 64) % 32) 0x80 0xbf, []) := by
        rw [lead, if_neg (by omega), if_pos (by omega)]
      rw [feed_silent (by rw [step_start, hlead])]
      apply feed_last
      rw [step_last _ _ _ (by omega) (by omega), hvalue]
    · split
      · have hvalue : ((224 + v / 4096) % 16 * 64 + (128 + v / 64 % 64) % 64) * 64 +
            (128 + v % 64) % 64 = v := by omega
        have hlead : lead (224 + v / 4096) =
            (Decoder.mk 2 ((224 + v / 4096) % 16) (if 224 + v / 4096 = 0xe0 then 0xa0 else 0x80)
              (if 224 + v / 4096 = 0xed then 0x9f else 0xbf), []) := by
          rw [lead, if_neg (by omega), if_neg (by omega), if_pos (by omega)]
        -- an overlong form or a surrogate would leave the bounds
        have hlower : (if 224 + v / 4096 = 0xe0 then 0xa0 else 0x80) ≤ 128 + v / 64 % 64 := by
          split <;> omega
        have hupper : 128 + v / 64 % 64 ≤ if 224 + v / 4096 = 0xed then 0x9f else 0xbf := by
          split <;> omega
        rw [feed_silent (by rw [step_start, hlead]), feed_silent (step_more 0 _ _ _ hlower hupper)]
        apply feed_last
        rw [step_last _ _ _ (by omega) (by omega), hvalue]
      · have hvalue : (((240 + v / 262144) % 8 * 64 + (128 + v / 4096 % 64) % 64) * 64 +
            (128 + v / 64 % 64) % 64) * 64 + (128 + v % 64) % 64 = v := by omega
        have hlead : lead (240 + v / 262144) =
            (Decoder.mk 3 ((240 + v / 262144) % 8) (if 240 + v / 262144 = 0xf0 then 0x90 else 0x80)
              (if 240 + v / 262144 = 0xf4 then 0x8f else 0xbf), []) := by
          rw [lead, if_neg (by omega), if_neg (by omega), if_neg (by omega), if_pos (by omega)]
        -- an overlong form or a value beyond the last plane would leave the bounds
        have hlower : (if 240 + v / 262144 = 0xf0 then 0x90 else 0x80) ≤ 128 + v / 4096 % 64 := by
          split <;> omega
        have hupper : 128 + v / 4096 % 64 ≤ if 240 + v / 262144 = 0xf4 then 0x8f else 0xbf := by
          split <;> omega
        rw [feed_silent (by rw [step_start, hlead]), feed_silent (step_more 1 _ _ _ hlower hupper),
          feed_silent (step_more 0 _ _ _ (by omega) (by omega))]
        apply feed_last
        rw [step_last _ _ _ (by omega) (by omega), hvalue]

theorem scalar_bounds (c : Char) : c.toNat < 0xd800 ∨ (0xdfff < c.toNat ∧ c.toNat < 0x110000) :=
  c.valid

/-- By induction on the text: after each character the decoder is where it started. -/
theorem Decoder.feed_textBytes (text : List Char) :
    Decoder.start.feed (textBytes text) = (.start, textUnits text) := by
  induction text with
  | nil => rfl
  | cons c rest ih =>
      have hsplit : textBytes (c :: rest) = encodeScalar c.toNat ++ textBytes rest := rfl
      rw [hsplit, feed_append, feed_encodeScalar (scalar_bounds c), ih]
      rfl

theorem decode_textBytes (text : List Char) : decode (textBytes text) = textUnits text := by
  rw [decode, Decoder.feed_textBytes]
  exact List.append_nil _

/-! ## Encoding texts and pieces -/

theorem encode_cons_of_not_high {c : Nat} (h : Units.isHighSurrogate c = false) (rest : Units) :
    encode (c :: rest) = encodeScalar (loneScalar c) ++ encode rest := by
  cases rest with
  | nil => simp [encode]
  | cons d rest => simp [encode, h]

theorem encode_append {a b : Units} (h : ∀ c, a.getLast? = some c → Units.isHighSurrogate c = false) :
    encode (a ++ b) = encode a ++ encode b := by
  induction a using encode.induct with
  | case1 => rfl
  | case2 c =>
      have hc := h c rfl
      rw [List.singleton_append, encode_cons_of_not_high hc]
      rfl
  | case3 c d rest hpair ih =>
      have hrest : ∀ c, rest.getLast? = some c → Units.isHighSurrogate c = false := by
        intro e he
        apply h e
        cases rest with
        | nil => cases he
        | cons f rest => simpa using he
      simp [encode, hpair, ih hrest]
  | case4 c d rest hpair ih =>
      have hrest : ∀ e, (d :: rest).getLast? = some e → Units.isHighSurrogate e = false := by
        intro e he
        apply h e
        rw [← he]
        rfl
      have hmore := ih hrest
      rw [List.cons_append] at hmore
      simp [encode, hpair, hmore]

theorem encode_utf16 {v : Nat} (hv : v < 0xd800 ∨ (0xdfff < v ∧ v < 0x110000)) (rest : Units) :
    encode (utf16 v ++ rest) = encodeScalar v ++ encode rest := by
  unfold utf16
  split
  · have hhigh : Units.isHighSurrogate v = false := by
      simp only [Units.isHighSurrogate, Bool.and_eq_false_iff, decide_eq_false_iff_not]
      omega
    have hlow : Units.isLowSurrogate v = false := by
      simp only [Units.isLowSurrogate, Bool.and_eq_false_iff, decide_eq_false_iff_not]
      omega
    rw [List.singleton_append, encode_cons_of_not_high hhigh, loneScalar, hhigh, hlow]
    rfl
  · have hhigh : Units.isHighSurrogate (0xd800 + (v - 0x10000) / 0x400) = true := by
      simp only [Units.isHighSurrogate, Bool.and_eq_true, decide_eq_true_eq]
      omega
    have hlow : Units.isLowSurrogate (0xdc00 + (v - 0x10000) % 0x400) = true := by
      simp only [Units.isLowSurrogate, Bool.and_eq_true, decide_eq_true_eq]
      omega
    have hpair : pairScalar (0xd800 + (v - 0x10000) / 0x400) (0xdc00 + (v - 0x10000) % 0x400) = v := by
      unfold pairScalar
      omega
    change encode (_ :: _ :: rest) = _
    rw [encode, if_pos (by rw [hhigh, hlow]; rfl), hpair]

theorem encode_textUnits (text : List Char) : encode (textUnits text) = textBytes text := by
  induction text with
  | nil => rfl
  | cons c rest ih =>
      have hsplit : textUnits (c :: rest) = utf16 c.toNat ++ textUnits rest := rfl
      rw [hsplit, encode_utf16 (scalar_bounds c), ih]
      rfl

end Utf8

end Js
