import OpenaiAuth.RawWs.Frame
import Mathlib.Data.Rat.Floor
import Mathlib.Tactic.Positivity
import Mathlib.Tactic.NormNum

/-! # What a client writes

`writeFrame` with the length's bytes as the source takes them from a quotient of
doubles, a reader of the peer's that keeps to the framing of RFC 6455, and the queue
of `raw-ws-bun`, which takes up again where the socket stopped.

Main results:

* `lengthByte_eq`: the bytes of the quotients are the length's own;
* `readFrame_writeFrame`: the peer reads the frame and what follows it is left;
* `run_conserves`: no byte is lost, repeated or moved by the queue;
* `exists_drains`: a socket that goes on accepting bytes empties the queue.
-/

namespace RawWs.Writing

open Js

/-! ## The length's bytes -/

/-- A double without exponent bits to spare: 53 bits over a power of two. -/
def IsDouble (x : ℚ) : Prop := ∃ m e : Nat, m < 2 ^ 53 ∧ e ≤ 1074 ∧ x = m / 2 ^ e

/-- `ToInt32`: the integer part, in 32 bits. -/
def toInt32 (x : ℚ) : BitVec 32 := BitVec.ofInt 32 (Int.tdiv x.num x.den)

/-- `(len / 2 ** (8 * i)) & 0xff` -/
def lengthByte (len i : Nat) : Nat := (toInt32 ((len : ℚ) / 2 ^ (8 * i)) &&& 0xff#32).toNat

theorem toInt32_natCast_div (len k : Nat) :
    toInt32 ((len : ℚ) / 2 ^ k) = BitVec.ofNat 32 (len / 2 ^ k) := by
  have hnonneg : 0 ≤ ((len : ℚ) / 2 ^ k).num := by
    apply Rat.num_nonneg.mpr
    positivity
  have hfloor : ((len : ℚ) / 2 ^ k).num.tdiv ((len : ℚ) / 2 ^ k).den = ((len / 2 ^ k : Nat) : Int) := by
    rw [Int.tdiv_eq_ediv_of_nonneg hnonneg, ← Rat.floor_def]
    have hcast : ((2 : ℚ) ^ k) = ((2 ^ k : Nat) : ℚ) := by
      push_cast
      rfl
    rw [hcast]
    exact Rat.floor_natCast_div_natCast len (2 ^ k)
  rw [toInt32, hfloor, BitVec.ofInt_natCast]

theorem lengthByte_eq (len i : Nat) : lengthByte len i = len / 2 ^ (8 * i) &&& 0xff := by
  rw [lengthByte, toInt32_natCast_div, BitVec.toNat_and, BitVec.toNat_ofNat]
  have hff : (0xff#32).toNat = 0xff := rfl
  rw [hff, and_ff, and_ff]
  omega

/-! ## Frames -/

def writeFrame (mask : Nat → Nat) (opcode : Nat) (payload : Bytes) : Bytes :=
  let len := payload.length
  let header :=
    if len < 126 then [0x80 ||| opcode, 0x80 ||| len]
    else if len < 65536 then [0x80 ||| opcode, 0x80 ||| 126, (len >>> 8) &&& 0xff, len &&& 0xff]
    else [0x80 ||| opcode, 0x80 ||| 127] ++ [7, 6, 5, 4, 3, 2, 1, 0].map (lengthByte len)
  header ++ (List.range 4).map mask ++ masked mask payload

theorem writeFrame_eq (mask : Nat → Nat) (opcode : Nat) (payload : Bytes) :
    writeFrame mask opcode payload = RawWs.writeFrame mask opcode payload := by
  have hbytes : [7, 6, 5, 4, 3, 2, 1, 0].map (lengthByte payload.length) =
      bigEndian 8 payload.length := by
    have hrange : (List.range 8).reverse = [7, 6, 5, 4, 3, 2, 1, 0] := by decide
    rw [bigEndian, hrange]
    exact List.map_congr_left fun i _ => lengthByte_eq payload.length i
  simp only [writeFrame, RawWs.writeFrame, hbytes]

/-! ## The peer -/

def number (bytes : Bytes) : Nat := bytes.foldl (fun sum byte => sum * 256 + byte) 0

/-- The payload's length, in the fewest bytes that hold it, and what follows. -/
def readLength (short : Nat) (rest : Bytes) : Option (Nat × Bytes) :=
  if short = 126 then
    let len := number (rest.take 2)
    if 2 ≤ rest.length ∧ 126 ≤ len then some (len, rest.drop 2) else none
  else if short = 127 then
    let len := number (rest.take 8)
    if 8 ≤ rest.length ∧ 65536 ≤ len ∧ len < 2 ^ 63 then some (len, rest.drop 8) else none
  else some (short, rest)

/-- The masked frame a stream begins with, and what follows it: no reserved bit is
set, and the mask is there. -/
def readFrame : Bytes → Option (Frame × Bytes)
  | b0 :: b1 :: rest =>
      if b0 / 16 % 8 = 0 ∧ b1 / 128 = 1 then
        (readLength (b1 % 128) rest).bind fun (len, rest) =>
          if 4 + len ≤ rest.length then
            let key := rest.take 4
            let frame : Frame :=
              { fin := b0 / 128 = 1
                opcode := b0 % 16
                payload := masked (fun i => key.getD i 0) ((rest.drop 4).take len) }
            some (frame, rest.drop (4 + len))
          else none
      else none
  | _ => none

theorem bits_of_opcode : ∀ opcode < 16, (0x80 ||| opcode) / 16 % 8 = 0 ∧
    (0x80 ||| opcode) / 128 = 1 ∧ (0x80 ||| opcode) % 16 = opcode := by decide

theorem bits_of_short : ∀ short < 128, (0x80 ||| short) / 128 = 1 ∧
    (0x80 ||| short) % 128 = short := by decide

theorem number_bigEndian {count len : Nat} (h : len < 256 ^ count) :
    number (bigEndian count len) = len := by
  rw [number, foldl_bigEndian, Nat.zero_mul, Nat.zero_add, Nat.mod_eq_of_lt h]

/-- The second byte and the length's bytes, and that the peer takes the length
from them. -/
theorem exists_header (mask : Nat → Nat) (opcode : Nat) {payload : Bytes}
    (hlen : payload.length < 2 ^ 53) :
    ∃ short bytes, short < 128 ∧
      RawWs.writeFrame mask opcode payload = (0x80 ||| opcode) :: (0x80 ||| short) ::
        (bytes ++ ((List.range 4).map mask ++ masked mask payload)) ∧
      ∀ rest, readLength short (bytes ++ rest) = some (payload.length, rest) := by
  have hform : ∀ {b1 tail}, lengthBytes (formOf payload.length) payload.length = b1 :: tail →
      RawWs.writeFrame mask opcode payload = (0x80 ||| opcode) :: (0x80 ||| b1) ::
        (tail ++ ((List.range 4).map mask ++ masked mask payload)) :=
    fun h => RawWs.writeFrame_eq mask opcode payload h
  by_cases hshort : payload.length < 126
  · refine ⟨payload.length, [], by omega, hform ?_, ?_⟩
    · rw [formOf, if_pos hshort]
      rfl
    · intro rest
      rw [readLength, if_neg (by omega), if_neg (by omega), List.nil_append]
  · by_cases hmedium : payload.length < 65536
    · refine ⟨126, bigEndian 2 payload.length, by omega, hform ?_, ?_⟩
      · rw [formOf, if_neg hshort, if_pos hmedium]
        rfl
      · intro rest
        have hsize := length_bigEndian 2 payload.length
        have hnumber : number (bigEndian 2 payload.length) = payload.length :=
          number_bigEndian (by omega)
        rw [readLength, if_pos rfl]
        simp only [List.take_left' hsize, List.drop_left' hsize, hnumber]
        rw [if_pos]
        refine ⟨?_, by omega⟩
        rw [List.length_append, hsize]
        omega
    · refine ⟨127, bigEndian 8 payload.length, by omega, hform ?_, ?_⟩
      · rw [formOf, if_neg hshort, if_neg hmedium]
        rfl
      · intro rest
        have hsize := length_bigEndian 8 payload.length
        have hnumber : number (bigEndian 8 payload.length) = payload.length :=
          number_bigEndian (by omega)
        rw [readLength, if_neg (by omega), if_pos rfl]
        simp only [List.take_left' hsize, List.drop_left' hsize, hnumber]
        rw [if_pos]
        refine ⟨?_, by omega, by omega⟩
        rw [List.length_append, hsize]
        omega

/-- The key that has been written is the mask. -/
theorem masked_key (mask : Nat → Nat) (payload : Bytes) :
    masked (fun i => ((List.range 4).map mask).getD i 0) payload = masked mask payload := by
  apply List.ext_getElem
  · simp [masked]
  · intro i hi hi'
    have hmod : i % 4 < 4 := Nat.mod_lt _ (by omega)
    simp [masked, List.getElem?_range hmod]

/-- The peer reads one final frame, with the opcode and the payload. -/
theorem readFrame_writeFrame (mask : Nat → Nat) {opcode : Nat} (hopcode : opcode < 16)
    {payload : Bytes} (hlen : payload.length < 2 ^ 53) (rest : Bytes) :
    readFrame (writeFrame mask opcode payload ++ rest) =
      some ({ fin := true, opcode := opcode, payload := payload }, rest) := by
  rcases exists_header mask opcode hlen with ⟨short, bytes, hshort, hwrite, hlength⟩
  have hop := bits_of_opcode opcode hopcode
  have hbits := bits_of_short short hshort
  have hkey : ((List.range 4).map mask).length = 4 := by simp
  have hmasked : (masked mask payload).length = payload.length := by simp [masked]
  rw [writeFrame_eq, hwrite]
  simp only [List.cons_append, List.append_assoc, readFrame, hop, hbits, hlength, and_self,
    if_true, Option.bind_some]
  rw [if_pos]
  · have hbody : ((List.range 4).map mask ++ (masked mask payload ++ rest)).drop 4 =
        masked mask payload ++ rest := List.drop_left' hkey
    have htail : ((List.range 4).map mask ++ (masked mask payload ++ rest)).drop
        (4 + payload.length) = rest := by
      rw [← List.drop_drop, hbody]
      exact List.drop_left' hmasked
    rw [htail, hbody, List.take_left' hkey, List.take_left' hmasked, masked_key, masked_masked]
    simp
  · simp only [List.length_append, hkey, hmasked]
    omega

/-! ## The queue of `raw-ws-bun` -/

/-- A client's socket: whether it is set, the bytes it has taken and how often it has
been asked, and the client's queue. -/
structure Writer where
  socket : Bool
  handed : Bytes
  calls : Nat
  writeQueue : List Bytes
deriving DecidableEq, Repr

def Writer.start : Writer := { socket := false, handed := [], calls := 0, writeQueue := [] }

/-- The loop of `flushWrites`. The socket takes at most `accepts n` bytes in its
`n`-th call. -/
def flushLoop (accepts : Nat → Nat) : List Bytes → Bytes → Nat → Writer
  | [], handed, calls => { socket := true, handed := handed, calls := calls, writeQueue := [] }
  | next :: rest, handed, calls =>
      let written := min (accepts calls) next.length
      if written < next.length then
        { socket := true, handed := handed ++ next.take written, calls := calls + 1,
          writeQueue := next.drop written :: rest }
      else flushLoop accepts rest (handed ++ next.take written) (calls + 1)

def flushWrites (accepts : Nat → Nat) (w : Writer) : Writer :=
  if w.socket then flushLoop accepts w.writeQueue w.handed w.calls else w

def enqueueWrite (accepts : Nat → Nat) (w : Writer) (data : Bytes) : Writer :=
  flushWrites accepts { w with writeQueue := w.writeQueue ++ [data] }

/-- What happens at an open socket: a frame is written, or the socket drains. -/
inductive Event where
  | frame (mask : Nat → Nat) (opcode : Nat) (payload : Bytes)
  | drain

def step (accepts : Nat → Nat) (w : Writer) : Event → Writer
  | .frame mask opcode payload => enqueueWrite accepts w (writeFrame mask opcode payload)
  | .drain => flushWrites accepts w

/-- The socket's `open` handler, which queues the request. -/
def opened (accepts : Nat → Nat) (w : Writer) (request : Bytes) : Writer :=
  enqueueWrite accepts { w with socket := true } request

def run (accepts : Nat → Nat) (request : Bytes) (events : List Event) : Writer :=
  events.foldl (step accepts) (opened accepts Writer.start request)

/-- The frames of some events, in the order of the queue. -/
def framesOf : List Event → List Bytes
  | [] => []
  | .frame mask opcode payload :: events => writeFrame mask opcode payload :: framesOf events
  | .drain :: events => framesOf events

theorem framesOf_drains (events : List Event) (drains : Nat) :
    framesOf (events ++ List.replicate drains .drain) = framesOf events := by
  induction events with
  | nil =>
      induction drains with
      | zero => rfl
      | succ drains ih => exact ih
  | cons event events ih =>
      cases event with
      | frame mask opcode payload =>
          rw [List.cons_append, framesOf, framesOf, ih]
      | drain => exact ih

/-! ### No byte is lost -/

/-- The bytes that have been taken, and those that wait. -/
def Writer.bytes (w : Writer) : Bytes := w.handed ++ w.writeQueue.flatten

theorem bytes_flushLoop (accepts : Nat → Nat) (queue : List Bytes) (handed : Bytes) (calls : Nat) :
    (flushLoop accepts queue handed calls).bytes = handed ++ queue.flatten ∧
      (flushLoop accepts queue handed calls).socket = true := by
  induction queue generalizing handed calls with
  | nil => exact ⟨rfl, rfl⟩
  | cons next rest ih =>
      simp only [flushLoop]
      split
      · -- the socket stopped within `next`, whose rest stays in front
        refine ⟨?_, rfl⟩
        rw [Writer.bytes, List.flatten_cons, List.append_assoc, ← List.append_assoc (next.take _),
          List.take_append_drop, List.flatten_cons]
      · rename_i hwhole
        have htake : next.take (min (accepts calls) next.length) = next :=
          List.take_of_length_le (by omega)
        rcases ih (handed ++ next.take (min (accepts calls) next.length)) (calls + 1) with
          ⟨hbytes, hsocket⟩
        refine ⟨?_, hsocket⟩
        rw [hbytes, htake, List.flatten_cons, List.append_assoc]

theorem bytes_flushWrites (accepts : Nat → Nat) {w : Writer} (h : w.socket = true) :
    (flushWrites accepts w).bytes = w.bytes ∧ (flushWrites accepts w).socket = true := by
  rw [flushWrites, if_pos h]
  exact bytes_flushLoop accepts w.writeQueue w.handed w.calls

theorem bytes_enqueueWrite (accepts : Nat → Nat) {w : Writer} (h : w.socket = true)
    (data : Bytes) :
    (enqueueWrite accepts w data).bytes = w.bytes ++ data ∧
      (enqueueWrite accepts w data).socket = true := by
  have hflush := bytes_flushWrites accepts (w := { w with writeQueue := w.writeQueue ++ [data] }) h
  refine ⟨?_, hflush.2⟩
  rw [enqueueWrite, hflush.1]
  simp [Writer.bytes]

theorem foldl_conserves (accepts : Nat → Nat) (events : List Event) {w : Writer}
    (h : w.socket = true) :
    (events.foldl (step accepts) w).bytes = w.bytes ++ (framesOf events).flatten ∧
      (events.foldl (step accepts) w).socket = true := by
  induction events generalizing w with
  | nil => exact ⟨(List.append_nil _).symm, h⟩
  | cons event events ih =>
      cases event with
      | frame mask opcode payload =>
          have hstep := bytes_enqueueWrite accepts h (writeFrame mask opcode payload)
          rcases ih hstep.2 with ⟨hbytes, hsocket⟩
          refine ⟨?_, hsocket⟩
          rw [List.foldl_cons, step, hbytes, hstep.1, framesOf, List.flatten_cons,
            List.append_assoc]
      | drain =>
          have hstep := bytes_flushWrites accepts h
          rcases ih hstep.2 with ⟨hbytes, hsocket⟩
          refine ⟨?_, hsocket⟩
          rw [List.foldl_cons, step, hbytes, hstep.1, framesOf]

/-- Taken or waiting, the bytes are the request's and then the frames'. -/
theorem run_conserves (accepts : Nat → Nat) (request : Bytes) (events : List Event) :
    (run accepts request events).bytes = request ++ (framesOf events).flatten ∧
      (run accepts request events).socket = true := by
  have hopen := bytes_enqueueWrite accepts (w := { Writer.start with socket := true }) rfl request
  rcases foldl_conserves accepts events hopen.2 with ⟨hbytes, hsocket⟩
  refine ⟨?_, hsocket⟩
  rw [run, opened, hbytes, hopen.1]
  rfl

/-! ### The queue is emptied -/

/-- What waits, in bytes and in pieces. -/
def Writer.waiting (w : Writer) : Nat := w.writeQueue.flatten.length + w.writeQueue.length

theorem waiting_flushLoop_le (accepts : Nat → Nat) (queue : List Bytes) (handed : Bytes)
    (calls : Nat) :
    (flushLoop accepts queue handed calls).waiting ≤ queue.flatten.length + queue.length := by
  induction queue generalizing handed calls with
  | nil => exact Nat.le_refl _
  | cons next rest ih =>
      simp only [flushLoop]
      split
      · simp [Writer.waiting]
      · have hrest := ih (handed ++ next.take (min (accepts calls) next.length)) (calls + 1)
        simp only [List.flatten_cons, List.length_append, List.length_cons]
        omega

/-- A flush brings the queue forward unless the socket takes nothing at its first call. -/
theorem flushWrites_cases (accepts : Nat → Nat) {w : Writer} (h : w.socket = true)
    (hqueue : w.writeQueue ≠ []) :
    (flushWrites accepts w).waiting < w.waiting ∨
      accepts w.calls = 0 ∧ (flushWrites accepts w).waiting = w.waiting ∧
        (flushWrites accepts w).calls = w.calls + 1 ∧ (flushWrites accepts w).writeQueue ≠ [] := by
  rcases w with ⟨socket, handed, calls, queue⟩
  cases queue with
  | nil => exact absurd rfl hqueue
  | cons next rest =>
      rw [flushWrites, if_pos h]
      simp only [flushLoop]
      split
      · rename_i hpart
        by_cases hzero : accepts calls = 0
        · right
          simp [Writer.waiting, hzero]
        · left
          simp only [Writer.waiting, List.flatten_cons, List.length_append, List.length_drop,
            List.length_cons]
          omega
      · left
        have hrest := waiting_flushLoop_le accepts rest
          (handed ++ next.take (min (accepts calls) next.length)) (calls + 1)
        refine Nat.lt_of_le_of_lt hrest ?_
        simp only [Writer.waiting, List.flatten_cons, List.length_append, List.length_cons]
        omega

theorem exists_drains (accepts : Nat → Nat) (hfair : ∀ n, ∃ m, n ≤ m ∧ 0 < accepts m)
    {w : Writer} (h : w.socket = true) :
    ∃ drains, ((List.replicate drains Event.drain).foldl (step accepts) w).writeQueue = [] := by
  -- on what waits, and within it on the calls until one that takes something
  generalize hsize : w.waiting = size
  induction size using Nat.strong_induction_on generalizing w with
  | _ size ih =>
      obtain ⟨m, hm, hpos⟩ := hfair w.calls
      generalize hgap : m - w.calls = gap
      induction gap generalizing w with
      | zero =>
          by_cases hqueue : w.writeQueue = []
          · exact ⟨0, hqueue⟩
          · rcases flushWrites_cases accepts h hqueue with hless | ⟨hzero, -⟩
            · rcases ih _ (hsize ▸ hless) (bytes_flushWrites accepts h).2 rfl with ⟨drains, hdone⟩
              exact ⟨drains + 1, hdone⟩
            · have hcalls : w.calls = m := by omega
              rw [hcalls] at hzero
              omega
      | succ gap ihgap =>
          by_cases hqueue : w.writeQueue = []
          · exact ⟨0, hqueue⟩
          · rcases flushWrites_cases accepts h hqueue with hless | ⟨-, hsame, hcalls, -⟩
            · rcases ih _ (hsize ▸ hless) (bytes_flushWrites accepts h).2 rfl with ⟨drains, hdone⟩
              exact ⟨drains + 1, hdone⟩
            · rcases ihgap (bytes_flushWrites accepts h).2 (hsame.trans hsize) (by omega) (by omega)
                with ⟨drains, hdone⟩
              exact ⟨drains + 1, hdone⟩

theorem run_drains (accepts : Nat → Nat) (hfair : ∀ n, ∃ m, n ≤ m ∧ 0 < accepts m)
    (request : Bytes) (events : List Event) :
    ∃ drains, (run accepts request (events ++ List.replicate drains .drain)).handed =
      request ++ (framesOf events).flatten := by
  rcases exists_drains accepts hfair (run_conserves accepts request events).2 with ⟨drains, hdone⟩
  refine ⟨drains, ?_⟩
  have hrun : run accepts request (events ++ List.replicate drains .drain) =
      (List.replicate drains Event.drain).foldl (step accepts) (run accepts request events) :=
    List.foldl_append
  have hbytes := (run_conserves accepts request (events ++ List.replicate drains .drain)).1
  rw [Writer.bytes, hrun, hdone, List.flatten_nil, List.append_nil, framesOf_drains] at hbytes
  rw [hrun, hbytes]

/-! ## Every frame reaches the peer as it was written -/

/-- What a writer has handed over is exact: nothing else than the request and the
frames in order, and all of it once the queue is empty. -/
def Exact (w : Writer) (request : Bytes) (frames : List Bytes) : Prop :=
  w.handed <+: request ++ frames.flatten ∧
    w.handed ++ w.writeQueue.flatten = request ++ frames.flatten ∧
    (w.writeQueue = [] → w.handed = request ++ frames.flatten)

theorem run_exact (accepts : Nat → Nat) (request : Bytes) (events : List Event) :
    Exact (run accepts request events) request (framesOf events) := by
  have hbytes := (run_conserves accepts request events).1
  refine ⟨⟨_, hbytes⟩, hbytes, ?_⟩
  intro hqueue
  rw [Writer.bytes, hqueue, List.flatten_nil, List.append_nil] at hbytes
  exact hbytes

/-- A frame is read as it was meant, and the queue hands over the request and the
frames whatever the socket takes at each call; it hands over all of them where the
socket does not stop for good. -/
theorem frames_written :
    (∀ (mask : Nat → Nat) (opcode : Nat) (payload rest : Bytes), opcode < 16 →
      payload.length < 2 ^ 53 →
      readFrame (writeFrame mask opcode payload ++ rest) =
        some ({ fin := true, opcode := opcode, payload := payload }, rest)) ∧
    ∀ (accepts : Nat → Nat) (request : Bytes) (events : List Event),
      Exact (run accepts request events) request (framesOf events) ∧
        ((∀ n, ∃ m, n ≤ m ∧ 0 < accepts m) →
          ∃ drains, (run accepts request (events ++ List.replicate drains .drain)).handed =
            request ++ (framesOf events).flatten) := by
  constructor
  · intro mask opcode payload rest hopcode hlen
    exact readFrame_writeFrame mask hopcode hlen rest
  · intro accepts request events
    refine ⟨run_exact accepts request events, ?_⟩
    intro hfair
    exact run_drains accepts hfair request events

/-- A text frame, at a socket that takes nothing, one byte and two bytes in turn. -/
theorem frames_written_resumed :
    readFrame (writeFrame (fun i => 7 * i) 1 [104, 105] ++ [129]) =
        some ({ fin := true, opcode := 1, payload := [104, 105] }, [129]) ∧
      ∃ drains, (run (fun n => n % 3) [71, 69, 84]
          ([.drain, .frame (fun i => 7 * i) 1 [104, 105]] ++ List.replicate drains .drain)).handed =
        [71, 69, 84] ++ [writeFrame (fun i => 7 * i) 1 [104, 105]].flatten := by
  constructor
  · exact frames_written.1 (fun i => 7 * i) 1 [104, 105] [129] (by decide) (by decide)
  · apply (frames_written.2 (fun n => n % 3) [71, 69, 84]
      [.drain, .frame (fun i => 7 * i) 1 [104, 105]]).2
    intro n
    refine ⟨3 * n + 1, by omega, ?_⟩
    omega

end RawWs.Writing
