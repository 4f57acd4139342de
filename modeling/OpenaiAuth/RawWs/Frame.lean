import OpenaiAuth.Js.Utf8
import Mathlib.Tactic.Ring

/-! # WebSocket frames

`frameAt` is one round of `drainFrames`, and `writeFrame` makes the bytes of a
masked frame. Beside them stand the frames of the other side: the bytes of a
server's frame, in each form of its length, and what a server reads in a client's.

Main results:

* `frameAt_serverFrame`: the round reads a server's frame and leaves the rest;
* `frameAt_append`: what it reads does not change when more bytes follow, and so
  it reads nothing in a part of a frame (`frameAt_part`);
* `readClientFrame_writeFrame`: a server reads what has been written.
-/

namespace RawWs

open Js

structure Frame where
  fin : Bool
  opcode : Nat
  payload : Bytes
deriving DecidableEq, Repr

/-! ## Reading -/

/-- The payload's length and where the header ends. A buffer's length is an exact
double, so the sum over eight bytes does not round. -/
def lengthAt (buf : Bytes) (short : Nat) : Option (Nat × Nat) :=
  if short = 126 then
    if buf.length < 4 then none else some (buf.getD 2 0 <<< 8 ||| buf.getD 3 0, 4)
  else if short = 127 then
    if buf.length < 10 then none
    else some (((buf.drop 2).take 8).foldl (fun len byte => len * 256 + byte) 0, 10)
  else some (short, 2)

/-- A mask would be passed over. -/
def payloadOffset (b1 header : Nat) : Nat := if b1 &&& 0x80 ≠ 0 then header + 4 else header

/-- The frame that the buffer begins with, and what follows it. -/
def frameAt (buf : Bytes) : Option (Frame × Bytes) :=
  if buf.length < 2 then none
  else
    let b0 := buf.getD 0 0
    let b1 := buf.getD 1 0
    (lengthAt buf (b1 &&& 0x7f)).bind fun (len, header) =>
      let offset := payloadOffset b1 header
      if buf.length < offset + len then none
      else
        let frame : Frame :=
          { fin := b0 &&& 0x80 ≠ 0
            opcode := b0 &&& 0x0f
            payload := (buf.drop offset).take len }
        some (frame, buf.drop (offset + len))

/-! ## Writing -/

/-- The bytes of a length, the most significant one first. -/
def bigEndian (count len : Nat) : Bytes :=
  (List.range count).reverse.map fun i => len / 2 ^ (8 * i) &&& 0xff

/-- The payload and four bytes of a mask, byte by byte. -/
def masked (mask : Nat → Nat) (payload : Bytes) : Bytes :=
  payload.mapIdx fun i byte => byte ^^^ mask (i % 4)

def writeFrame (mask : Nat → Nat) (opcode : Nat) (payload : Bytes) : Bytes :=
  let len := payload.length
  let header :=
    if len < 126 then [0x80 ||| opcode, 0x80 ||| len]
    else if len < 65536 then [0x80 ||| opcode, 0x80 ||| 126, (len >>> 8) &&& 0xff, len &&& 0xff]
    else [0x80 ||| opcode, 0x80 ||| 127] ++ bigEndian 8 len
  header ++ (List.range 4).map mask ++ masked mask payload

/-! ## The other side -/

/-- The three forms of a length. -/
inductive LengthForm where
  | short
  | medium
  | long
deriving DecidableEq, Repr

def LengthForm.Fits : LengthForm → Nat → Prop
  | .short, len => len < 126
  | .medium, len => len < 65536
  | .long, len => len < 2 ^ 63

instance (form : LengthForm) (len : Nat) : Decidable (form.Fits len) := by
  cases form <;> unfold LengthForm.Fits <;> infer_instance

def lengthBytes : LengthForm → Nat → Bytes
  | .short, len => [len]
  | .medium, len => 126 :: bigEndian 2 len
  | .long, len => 127 :: bigEndian 8 len

/-- A server's frame, which has no mask. -/
def serverFrame (form : LengthForm) (frame : Frame) : Bytes :=
  ((if frame.fin then 128 else 0) + frame.opcode) ::
    (lengthBytes form frame.payload.length ++ frame.payload)

/-- What a server reads in the bytes of one masked frame. -/
def readClientFrame (bytes : Bytes) : Option Frame :=
  if bytes.length < 2 ∨ bytes.getD 1 0 &&& 0x80 = 0 then none
  else
    (lengthAt bytes (bytes.getD 1 0 &&& 0x7f)).bind fun (len, header) =>
      let key := (bytes.drop header).take 4
      let body := bytes.drop (header + 4)
      if body.length = len ∧ key.length = 4 then
        some
          { fin := bytes.getD 0 0 &&& 0x80 ≠ 0
            opcode := bytes.getD 0 0 &&& 0x0f
            payload := masked (fun i => key.getD i 0) body }
      else none

/-! ## Lengths -/

theorem and_ff (n : Nat) : n &&& 0xff = n % 256 := Nat.and_two_pow_sub_one_eq_mod n 8

theorem length_bigEndian (count len : Nat) : (bigEndian count len).length = count := by
  simp [bigEndian]

theorem foldl_bigEndian (count len sum : Nat) :
    (bigEndian count len).foldl (fun len byte => len * 256 + byte) sum =
      sum * 256 ^ count + len % 256 ^ count := by
  induction count generalizing sum with
  | zero => simp [bigEndian, Nat.mod_one]
  | succ count ih =>
      have hcons : bigEndian (count + 1) len =
          (len / 2 ^ (8 * count) &&& 0xff) :: bigEndian count len := by
        simp [bigEndian, List.range_succ]
      have hpow : 2 ^ (8 * count) = 256 ^ count := by
        rw [pow_mul]
        rfl
      rw [hcons, List.foldl_cons, ih, and_ff, hpow, Nat.mod_pow_succ, pow_succ]
      ring

theorem bigEndian_two {len : Nat} (h : len < 65536) (rest : Bytes) :
    ∃ high low, bigEndian 2 len ++ rest = high :: low :: rest ∧ high <<< 8 ||| low = len := by
  refine ⟨len / 256 % 256, len % 256, ?_, ?_⟩
  · simp [bigEndian, List.range_succ, and_ff]
  · rw [← Nat.shiftLeft_add_eq_or_of_lt (by omega), Nat.shiftLeft_eq]
    omega

/-- The low bits of a byte with and without its highest one. -/
theorem bits_of_lt : ∀ b < 128, b &&& 0x80 = 0 ∧ b &&& 0x7f = b ∧
    (0x80 ||| b) &&& 0x80 ≠ 0 ∧ (0x80 ||| b) &&& 0x7f = b := by decide

theorem bits_of_opcode : ∀ opcode < 16, (128 + opcode) &&& 0x80 ≠ 0 ∧ opcode &&& 0x80 = 0 ∧
    (128 + opcode) &&& 0x0f = opcode ∧ opcode &&& 0x0f = opcode ∧
    0x80 ||| opcode = 128 + opcode := by decide

/-- Where the payload of a server's frame begins. -/
def LengthForm.header : LengthForm → Nat
  | .short => 2
  | .medium => 4
  | .long => 10

theorem lengthAt_lengthBytes {form : LengthForm} {len : Nat} (h : form.Fits len) (b0 flag : Nat)
    (hflag : ∀ b < 128, (flag ||| b) &&& 0x7f = b) (rest : Bytes) :
    ∃ b1 tail, lengthBytes form len = b1 :: tail ∧ b1 < 128 ∧
      lengthAt (b0 :: (flag ||| b1) :: (tail ++ rest)) ((flag ||| b1) &&& 0x7f) =
        some (len, form.header) ∧ tail.length + 2 = form.header := by
  cases form with
  | short =>
      have hlen : len < 126 := h
      refine ⟨len, [], rfl, by omega, ?_, rfl⟩
      rw [hflag len (by omega), lengthAt, if_neg (by omega), if_neg (by omega)]
      rfl
  | medium =>
      rcases bigEndian_two h rest with ⟨high, low, heq, hvalue⟩
      refine ⟨126, bigEndian 2 len, rfl, by omega, ?_, ?_⟩
      · rw [hflag 126 (by omega), lengthAt, if_pos rfl, heq, if_neg (by simp)]
        simp only [List.getD_cons_succ, List.getD_cons_zero, hvalue]
        rfl
      · rw [length_bigEndian]
        rfl
  | long =>
      have hlen : len < 2 ^ 63 := h
      refine ⟨127, bigEndian 8 len, rfl, by omega, ?_, ?_⟩
      · have hsize := length_bigEndian 8 len
        have htake : (bigEndian 8 len ++ rest).take 8 = bigEndian 8 len := List.take_left' hsize
        rw [hflag 127 (by omega), lengthAt, if_neg (by omega), if_pos rfl, if_neg]
        · simp only [List.drop_succ_cons, List.drop_zero, htake, foldl_bigEndian]
          rw [Nat.zero_mul, Nat.zero_add, Nat.mod_eq_of_lt (by omega)]
          rfl
        · rw [List.length_cons, List.length_cons, List.length_append, hsize]
          omega
      · rw [length_bigEndian]
        rfl

/-! ## Reading what the server wrote -/

theorem frameAt_serverFrame {form : LengthForm} {frame : Frame} (hopcode : frame.opcode < 16)
    (hfits : form.Fits frame.payload.length) (rest : Bytes) :
    frameAt (serverFrame form frame ++ rest) = some (frame, rest) := by
  rcases lengthAt_lengthBytes hfits ((if frame.fin then 128 else 0) + frame.opcode) 0
    (by decide) (frame.payload ++ rest) with ⟨b1, tail, hbytes, hb1, hlength, hheader⟩
  rw [Nat.zero_or] at hlength
  have hbuf : serverFrame form frame ++ rest =
      ((if frame.fin then 128 else 0) + frame.opcode) :: b1 :: (tail ++ (frame.payload ++ rest)) := by
    rw [serverFrame, hbytes]
    simp
  have hdrop : ∀ len, (serverFrame form frame ++ rest).drop (form.header + len) =
      (frame.payload ++ rest).drop len := by
    intro len
    rw [hbuf, ← hheader, show tail.length + 2 + len = tail.length + len + 1 + 1 by omega,
      List.drop_succ_cons, List.drop_succ_cons, List.drop_append]
    simp
  have hlen : form.header + frame.payload.length ≤ (serverFrame form frame ++ rest).length := by
    rw [hbuf, ← hheader]
    simp only [List.length_cons, List.length_append]
    omega
  have hbits := bits_of_lt b1 hb1
  have hoffset : payloadOffset b1 form.header = form.header := by
    rw [payloadOffset, if_neg (by simp [hbits.1])]
  have hshort : ¬ (serverFrame form frame ++ rest).length < 2 := by
    rw [hbuf]
    simp
  rw [frameAt, if_neg hshort]
  simp only [hbuf, List.getD_cons_zero, List.getD_cons_succ, hlength, Option.bind_some, hoffset]
  rw [← hbuf, if_neg (by omega), hdrop, List.drop_left]
  have hpayload := hdrop 0
  rw [Nat.add_zero, List.drop_zero] at hpayload
  rw [hpayload, List.take_left]
  -- the first byte's bits
  have hop := bits_of_opcode frame.opcode hopcode
  rcases frame with ⟨fin, opcode, payload⟩
  cases fin with
  | true => simp [hop.1, hop.2.2.1]
  | false => simp [hop.2.1, hop.2.2.2.1]

theorem getD_append {a b : Bytes} {i : Nat} (h : i < a.length) : (a ++ b).getD i 0 = a.getD i 0 := by
  rw [List.getD_eq_getElem?_getD, List.getD_eq_getElem?_getD, List.getElem?_append_left h]

theorem lengthAt_append {buf : Bytes} {short : Nat} {found : Nat × Nat}
    (h : lengthAt buf short = some found) (more : Bytes) :
    lengthAt (buf ++ more) short = some found := by
  unfold lengthAt at h ⊢
  split
  · rename_i hshort
    rw [if_pos hshort] at h
    split at h
    · cases h
    · rename_i hlen
      rw [if_neg (by rw [List.length_append]; omega), getD_append (by omega),
        getD_append (by omega)]
      exact h
  · rename_i hshort
    rw [if_neg hshort] at h
    split
    · rename_i hlong
      rw [if_pos hlong] at h
      split at h
      · cases h
      · rename_i hlen
        have htake : ((buf ++ more).drop 2).take 8 = (buf.drop 2).take 8 := by
          rw [List.drop_append_of_le_length (by omega), List.take_append_of_le_length]
          rw [List.length_drop]
          omega
        rw [if_neg (by rw [List.length_append]; omega), htake]
        exact h
    · rename_i hlong
      rw [if_neg hlong] at h
      exact h

/-- More bytes do not change what has been read. -/
theorem frameAt_append {buf rest : Bytes} {frame : Frame} (h : frameAt buf = some (frame, rest))
    (more : Bytes) : frameAt (buf ++ more) = some (frame, rest ++ more) := by
  unfold frameAt at h ⊢
  split at h
  · cases h
  · rename_i hlen
    rcases Option.bind_eq_some_iff.mp h with ⟨⟨len, header⟩, hlength, hframe⟩
    rw [if_neg (by rw [List.length_append]; omega), getD_append (by omega), getD_append (by omega)]
    simp only [lengthAt_append hlength, Option.bind_some]
    simp only at hframe
    split at hframe
    · cases hframe
    · rename_i hfull
      rcases Prod.mk.inj (Option.some.inj hframe) with ⟨hpayload, hrest⟩
      rw [if_neg (by rw [List.length_append]; omega), List.drop_append_of_le_length (by omega),
        List.drop_append_of_le_length (by omega), List.take_append_of_le_length, hrest, ← hpayload]
      rw [List.length_drop]
      omega

/-- Nothing is read in a part of a frame. -/
theorem frameAt_part {form : LengthForm} {frame : Frame} (hopcode : frame.opcode < 16)
    (hfits : form.Fits frame.payload.length) {buf more : Bytes}
    (hpart : buf ++ more = serverFrame form frame) (hmore : more ≠ []) : frameAt buf = none := by
  cases hread : frameAt buf with
  | none => rfl
  | some found =>
      rcases found with ⟨frame', rest⟩
      have hwhole := frameAt_append hread more
      have hserver := frameAt_serverFrame hopcode hfits []
      rw [List.append_nil, ← hpart, hwhole, Option.some.injEq, Prod.mk.injEq] at hserver
      exact absurd (List.append_eq_nil_iff.mp hserver.2).2 hmore

/-- A frame takes bytes. -/
theorem length_frameAt {buf rest : Bytes} {frame : Frame} (h : frameAt buf = some (frame, rest)) :
    rest.length < buf.length := by
  unfold frameAt at h
  split at h
  · cases h
  · rcases Option.bind_eq_some_iff.mp h with ⟨⟨len, header⟩, hlength, hframe⟩
    simp only at hframe
    have hheader : 2 ≤ header := by
      unfold lengthAt at hlength
      split at hlength
      · split at hlength
        · cases hlength
        · have heq := (Prod.mk.inj (Option.some.inj hlength)).2
          omega
      · split at hlength
        · split at hlength
          · cases hlength
          · have heq := (Prod.mk.inj (Option.some.inj hlength)).2
            omega
        · have heq := (Prod.mk.inj (Option.some.inj hlength)).2
          omega
    have hoffset : header ≤ payloadOffset (buf.getD 1 0) header := by
      unfold payloadOffset
      split <;> omega
    split at hframe
    · cases hframe
    · rw [← (Prod.mk.inj (Option.some.inj hframe)).2, List.length_drop]
      omega

/-! ## Reading what the client wrote -/

theorem masked_masked (mask : Nat → Nat) (payload : Bytes) :
    masked mask (masked mask payload) = payload := by
  have hxor : ∀ byte i, (byte ^^^ mask (i % 4)) ^^^ mask (i % 4) = byte := by
    intro byte i
    rw [Nat.xor_assoc, Nat.xor_self, Nat.xor_zero]
  apply List.ext_getElem
  · simp [masked]
  · intro i hi hi'
    simp [masked, hxor]

/-- The form of length that `writeFrame` chooses. -/
def formOf (len : Nat) : LengthForm :=
  if len < 126 then .short else if len < 65536 then .medium else .long

theorem formOf_fits {len : Nat} (h : len < 2 ^ 63) : (formOf len).Fits len := by
  unfold formOf
  split
  · assumption
  · split
    · assumption
    · exact h

theorem writeFrame_eq (mask : Nat → Nat) (opcode : Nat) (payload : Bytes) {b1 : Nat} {tail : Bytes}
    (hbytes : lengthBytes (formOf payload.length) payload.length = b1 :: tail) :
    writeFrame mask opcode payload = (0x80 ||| opcode) :: (0x80 ||| b1) ::
      (tail ++ ((List.range 4).map mask ++ masked mask payload)) := by
  unfold formOf at hbytes
  simp only [writeFrame]
  split at hbytes
  · rename_i hshort
    rcases List.cons.inj hbytes with ⟨hb1, htail⟩
    rw [if_pos hshort, ← hb1, ← htail]
    simp
  · rename_i hshort
    split at hbytes
    · rename_i hmedium
      rcases List.cons.inj hbytes with ⟨hb1, htail⟩
      rw [if_neg hshort, if_pos hmedium, ← hb1, ← htail]
      simp [bigEndian, List.range_succ, Nat.shiftRight_eq_div_pow]
    · rename_i hmedium
      rcases List.cons.inj hbytes with ⟨hb1, htail⟩
      rw [if_neg hshort, if_neg hmedium, ← hb1, ← htail]
      simp

/-- A server reads one final frame with the opcode and the payload. -/
theorem readClientFrame_writeFrame (mask : Nat → Nat) {opcode : Nat} (hopcode : opcode < 16)
    {payload : Bytes} (hlen : payload.length < 2 ^ 63) :
    readClientFrame (writeFrame mask opcode payload) =
      some { fin := true, opcode := opcode, payload := payload } := by
  rcases lengthAt_lengthBytes (formOf_fits hlen) (0x80 ||| opcode) 0x80
    (fun b hb => (bits_of_lt b hb).2.2.2) ((List.range 4).map mask ++ masked mask payload) with
    ⟨b1, tail, hbytes, hb1, hlength, hheader⟩
  have hwrite := writeFrame_eq mask opcode payload hbytes
  rw [← hwrite] at hlength
  have hdrop : ∀ n, (writeFrame mask opcode payload).drop ((formOf payload.length).header + n) =
      ((List.range 4).map mask ++ masked mask payload).drop n := by
    intro n
    rw [hwrite, ← hheader, show tail.length + 2 + n = tail.length + n + 1 + 1 by omega,
      List.drop_succ_cons, List.drop_succ_cons, List.drop_append]
    simp
  have hkey : ((writeFrame mask opcode payload).drop (formOf payload.length).header).take 4 =
      (List.range 4).map mask := by
    have hzero := hdrop 0
    rw [Nat.add_zero, List.drop_zero] at hzero
    rw [hzero]
    exact List.take_left' (by simp)
  have hbody : (writeFrame mask opcode payload).drop ((formOf payload.length).header + 4) =
      masked mask payload := by
    rw [hdrop]
    exact List.drop_left' (by simp)
  have hmask : masked (fun i => ((List.range 4).map mask).getD i 0) (masked mask payload) =
      payload := by
    have hsame : ∀ p : Bytes, masked (fun i => ((List.range 4).map mask).getD i 0) p =
        masked mask p := by
      intro p
      apply List.ext_getElem
      · simp [masked]
      · intro i hi hi'
        have hmod : i % 4 < 4 := Nat.mod_lt _ (by omega)
        simp [masked, List.getElem?_range hmod]
    rw [hsame, masked_masked]
  have hzero : (writeFrame mask opcode payload).getD 0 0 = 0x80 ||| opcode := by
    rw [hwrite]
    rfl
  have hone : (writeFrame mask opcode payload).getD 1 0 = 0x80 ||| b1 := by
    rw [hwrite]
    rfl
  have hlong : 2 ≤ (writeFrame mask opcode payload).length := by
    rw [hwrite]
    simp
  have hbits := bits_of_lt b1 hb1
  have hop := bits_of_opcode opcode hopcode
  rw [readClientFrame, hzero, hone, if_neg]
  · simp only [hlength, Option.bind_some, hkey, hbody, hmask]
    rw [if_pos (by simp [masked]), hop.2.2.2.2]
    simp [hop.1, hop.2.2.1]
  · intro hor
    rcases hor with hshort | hnomask
    · omega
    · exact hbits.2.2.1 hnomask

end RawWs
