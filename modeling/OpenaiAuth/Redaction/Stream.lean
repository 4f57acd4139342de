import OpenaiAuth.Js.Utf8
import OpenaiAuth.Redaction.Frame

/-! # Credentials in an event stream

`redactCredentialResponse` decodes the chunks of a successful event stream, cuts
the text after each blank line and rewrites the data lines of the events it has
cut. Other responses pass, or are rewritten as one text.

Main results, for every text and every way its bytes are cut into chunks:

* `Stream.done_after`: once the stream is closed, what it has enqueued is the
  text with the payloads of its data lines rewritten;
* `redactCredentialResponse_bytes`: the same of the response, and without an
  error envelope the bytes that came in.

The invariant says that what has been enqueued is the rewritten form of a part of
the text that ends with a line feed: it does not matter where the events are cut.
-/

namespace Redaction

open Js Js.Utf8

/-! ## Data lines -/

/-- What `[^\r\n]` excludes. -/
def isLineEnd (c : Nat) : Bool := c = 10 || c = 13

/-- A line that begins with `data:` and at most one space, and its payload. -/
def dataField (line : Units) : Option (Units × Units) :=
  if (Units.of "data: ").isPrefixOf line then some (Units.of "data: ", line.drop 6)
  else if (Units.of "data:").isPrefixOf line then some (Units.of "data:", line.drop 5)
  else none

section

variable (redactFrame : Units → Units)

/-- Replaces `/^data: ?([^\r\n]*)/gm`: a match begins at the start of the text or
after a line terminator, and ends before the next CR or LF. `skip` units of a match
are still to be passed. -/
def replaceData : (start : Bool) → (skip : Nat) → Units → Units
  | _, _, [] => []
  | _, skip + 1, c :: rest => replaceData (isLineTerminator c) skip rest
  | start, 0, c :: rest =>
      match if start then dataField ((c :: rest).takeWhile fun d => !isLineEnd d) else none with
      | some (head, data) => head ++ redactFrame data ++
          replaceData (isLineTerminator c) (head.length + data.length - 1) rest
      | none => c :: replaceData (isLineTerminator c) 0 rest

/-- A byte order mark at the beginning. -/
def bomOf (text : Units) : Units := if text.head? = some 0xfeff then [0xfeff] else []

def scrub (atStart : Bool) (event : Units) : Units :=
  let bom := if atStart then bomOf event else []
  bom ++ replaceData redactFrame true 0 (event.drop bom.length)

/-! ## The stream -/

/-- How long `/\r?\n\r?\n/` matches at the beginning of the text. -/
def boundaryAt : Units → Option Nat
  | 13 :: 10 :: 13 :: 10 :: _ => some 4
  | 13 :: 10 :: 10 :: _ => some 3
  | 10 :: 13 :: 10 :: _ => some 3
  | 10 :: 10 :: _ => some 2
  | _ => none

/-- Where its first match in the text ends. -/
def boundaryEnd : Units → Option Nat
  | [] => none
  | c :: rest => (boundaryAt (c :: rest)).or ((boundaryEnd rest).map (· + 1))

/-- The chunks that have not been read, what is decoded but not emitted, and what
has been enqueued. -/
structure Stream where
  chunks : List Bytes
  decoder : Decoder
  pending : Units
  atStart : Bool
  enqueued : List Bytes
  closed : Bool
deriving DecidableEq

def Stream.ofChunks (chunks : List Bytes) : Stream :=
  { chunks := chunks, decoder := .start, pending := [], atStart := true, enqueued := [],
    closed := false }

/-- Scrubs and enqueues the first `stop` units. -/
def Stream.emit (s : Stream) (stop : Nat) : Stream :=
  { s with
    pending := s.pending.drop stop, atStart := false,
    enqueued := s.enqueued ++ [encode (scrub redactFrame s.atStart (s.pending.take stop))] }

/-- The inner loop. Each round shortens what is pending. -/
def Stream.emitEvents : Nat → Stream → Stream
  | 0, s => s
  | rounds + 1, s =>
      match boundaryEnd s.pending with
      | none => s
      | some stop => emitEvents rounds (s.emit redactFrame stop)

def Stream.readChunk (s : Stream) (chunk : Bytes) (rest : List Bytes) : Stream :=
  let decoded := s.decoder.feed chunk
  { s with chunks := rest, decoder := decoded.1, pending := s.pending ++ decoded.2 }

/-- What follows the last chunk. -/
def Stream.finish (s : Stream) : Stream :=
  let flushed := { s with pending := s.pending ++ s.decoder.flush, decoder := .start }
  let emitted := flushed.emitEvents redactFrame (flushed.pending.length + 1)
  let last := if emitted.pending = [] then emitted else emitted.emit redactFrame emitted.pending.length
  { last with closed := true }

/-- The outer loop: it reads until an event has been enqueued. -/
def Stream.pullFrom : List Bytes → Stream → Stream
  | [], s => s.finish redactFrame
  | chunk :: rest, s =>
      let read := s.readChunk chunk rest
      let emitted := read.emitEvents redactFrame (read.pending.length + 1)
      if read.enqueued.length < emitted.enqueued.length then emitted else pullFrom rest emitted

def Stream.pull (s : Stream) : Stream := if s.closed then s else pullFrom redactFrame s.chunks s

/-- The stream after the consumer has pulled as often. -/
def Stream.after (s : Stream) : Nat → Stream
  | 0 => s
  | pulls + 1 => (s.pull redactFrame).after pulls

end

/-! ## Responses -/

inductive Mode where
  | eventStream
  | http
deriving DecidableEq, Repr

/-- A response's status, and its body as the transport cuts it. -/
structure Response where
  status : Nat
  body : List Bytes

/-- `response.text()` -/
def responseText (body : List Bytes) : Units :=
  let text := decode body.flatten
  text.drop (bomOf text).length

def redactDiagnosticBody (redactStrings : Units → Units) (body : Units)
    (credential : Option Units) : Units :=
  let lexical := redactCredentialJsonText redactStrings body credential
  if (Parse.parse body).isSome then lexical
  else redactCredentialText redactStrings lexical credential

/-- The body that is handed on; a stream is pulled by its consumer. -/
def redactCredentialResponse (redactStrings : Units → Units) (response : Response)
    (credential : Option Units) (mode : Mode) (pulls : Nat) : Stream :=
  if response.status < 200 ∨ 299 < response.status then
    { Stream.ofChunks [] with
      closed := true
      enqueued := [encode (redactDiagnosticBody redactStrings (responseText response.body)
        credential)] }
  else if mode = .http then
    { Stream.ofChunks [] with closed := true, enqueued := response.body }
  else
    (Stream.ofChunks response.body).after
      (fun frame => redactCredentialFrame redactStrings frame credential) pulls

/-! ## Lines of a text -/

/-- Applies `f` to each line; a CR or LF ends a line. -/
def mapLinesFrom (f : Units → Units) : (line : Units) → Units → Units
  | line, [] => f line
  | line, c :: rest =>
      if isLineEnd c then f line ++ c :: mapLinesFrom f [] rest
      else mapLinesFrom f (line ++ [c]) rest

/-- Applies `f` to each line after the byte order mark. -/
def mapLines (f : Units → Units) (text : Units) : Units :=
  bomOf text ++ mapLinesFrom f [] (text.drop (bomOf text).length)

def linesFrom : (line : Units) → Units → List Units
  | line, [] => [line]
  | line, c :: rest =>
      if isLineEnd c then line :: linesFrom [] rest else linesFrom (line ++ [c]) rest

/-- The lines after the byte order mark. -/
def linesOf (text : Units) : List Units := linesFrom [] (text.drop (bomOf text).length)

/-- A line with its payload replaced. -/
def replaceField (redactFrame : Units → Units) (line : Units) : Option (Units × Units) → Units
  | some (head, data) => head ++ redactFrame data
  | none => line

/-- A line that is rewritten if it is a `data:` line. -/
def redactField (redactFrame : Units → Units) (line : Units) : Units :=
  replaceField redactFrame line (dataField line)

/-- The data field in a line: it begins where the line does, or after U+2028 or U+2029. -/
def fieldIn : (start : Bool) → Units → Option (Units × Units)
  | _, [] => none
  | start, c :: rest =>
      (if start then dataField (c :: rest) else none).or
        ((fieldIn (isLineTerminator c) rest).map fun field => (c :: field.1, field.2))

/-- A line whose data field is rewritten. -/
def redactLine (redactFrame : Units → Units) (line : Units) : Units :=
  replaceField redactFrame line (fieldIn true line)

/-- The payloads of the data fields of a text. -/
def dataPayloads (text : Units) : List Units :=
  (linesOf text).filterMap fun line => (fieldIn true line).map Prod.snd

/-! ## The regular expression works line by line -/

section

variable {redactFrame : Units → Units}

theorem dataField_eq {line head data : Units} (h : dataField line = some (head, data)) :
    line = head ++ data ∧ head ≠ [] := by
  unfold dataField at h
  split at h
  · rename_i hleads
    rcases List.isPrefixOf_iff_prefix.mp hleads with ⟨rest, hrest⟩
    rcases Prod.mk.inj (Option.some.inj h) with ⟨hhead, hdata⟩
    rw [← hhead, ← hdata, ← hrest]
    exact ⟨rfl, by decide⟩
  · split at h
    · rename_i hleads
      rcases List.isPrefixOf_iff_prefix.mp hleads with ⟨rest, hrest⟩
      rcases Prod.mk.inj (Option.some.inj h) with ⟨hhead, hdata⟩
      rw [← hhead, ← hdata, ← hrest]
      exact ⟨rfl, by decide⟩
    · cases h

theorem replaceData_skip (a b : Units) (start : Bool) :
    ∃ next, replaceData redactFrame start a.length (a ++ b) = replaceData redactFrame next 0 b := by
  induction a generalizing start with
  | nil => exact ⟨start, rfl⟩
  | cons c a ih => exact ih (isLineTerminator c)

theorem takeWhile_line {line rest : Units} (hline : ∀ c ∈ line, isLineEnd c = false)
    (hrest : ∀ c, rest.head? = some c → isLineEnd c = true) :
    (line ++ rest).takeWhile (fun d => !isLineEnd d) = line := by
  rw [List.takeWhile_append_of_pos fun c hc => by rw [hline c hc]; rfl]
  cases rest with
  | nil => simp
  | cons c rest => simp [hrest c rfl]

/-- One line, and `out` for what follows it. By induction on the line. -/
theorem replaceData_line {line rest out : Units} (hline : ∀ c ∈ line, isLineEnd c = false)
    (hrest : ∀ c, rest.head? = some c → isLineEnd c = true)
    (hout : ∀ start, replaceData redactFrame start 0 rest = out) (start : Bool) :
    replaceData redactFrame start 0 (line ++ rest) =
      replaceField redactFrame line (fieldIn start line) ++ out := by
  induction line generalizing start with
  | nil => exact hout start
  | cons c line ih =>
      have hmore : ∀ d ∈ line, isLineEnd d = false := fun d hd =>
        hline d (List.mem_cons_of_mem _ hd)
      have htake : (c :: (line ++ rest)).takeWhile (fun d => !isLineEnd d) = c :: line :=
        takeWhile_line hline hrest
      rw [List.cons_append, replaceData, htake, fieldIn]
      cases hfield : (if start then dataField (c :: line) else none) with
      | some field =>
          -- the field takes the rest of the line
          rcases field with ⟨head, data⟩
          have hdata : dataField (c :: line) = some (head, data) := by
            cases start with
            | true => exact hfield
            | false => cases hfield
          rcases dataField_eq hdata with ⟨heq, -⟩
          have hlen : head.length + data.length - 1 = line.length := by
            have hboth := congrArg List.length heq
            rw [List.length_cons, List.length_append] at hboth
            omega
          rcases @replaceData_skip redactFrame line rest (isLineTerminator c) with ⟨next, hskip⟩
          simp only [hlen, hskip, hout, Option.some_or]
          rfl
      | none =>
          have htail := ih hmore (isLineTerminator c)
          simp only [htail, Option.none_or]
          cases fieldIn (isLineTerminator c) line with
          | none => rfl
          | some field => rfl

theorem mapLinesFrom_line (f : Units → Units) {line : Units}
    (hline : ∀ c ∈ line, isLineEnd c = false) (before rest : Units) :
    mapLinesFrom f before (line ++ rest) = mapLinesFrom f (before ++ line) rest := by
  induction line generalizing before with
  | nil => rw [List.nil_append, List.append_nil]
  | cons c line ih =>
      have hc : ¬ isLineEnd c = true := by simp [hline c List.mem_cons_self]
      have hmore : ∀ d ∈ line, isLineEnd d = false := fun d hd =>
        hline d (List.mem_cons_of_mem _ hd)
      rw [List.cons_append, mapLinesFrom, if_neg hc, ih hmore, List.append_assoc]
      rfl

theorem exists_line (text : Units) : ∃ line rest, text = line ++ rest ∧
    (∀ c ∈ line, isLineEnd c = false) ∧ ∀ c, rest.head? = some c → isLineEnd c = true := by
  induction text with
  | nil => exact ⟨[], [], rfl, by simp, by simp⟩
  | cons c text ih =>
      cases hc : isLineEnd c with
      | true =>
          refine ⟨[], c :: text, rfl, by simp, ?_⟩
          intro d hd
          rw [← Option.some.inj hd]
          exact hc
      | false =>
          rcases ih with ⟨line, rest, heq, hline, hrest⟩
          refine ⟨c :: line, rest, by rw [heq]; rfl, ?_, hrest⟩
          intro d hd
          rcases List.mem_cons.mp hd with hd | hd
          · rw [hd]
            exact hc
          · exact hline d hd

/-- By induction on a bound for the length, one line at a time. -/
theorem replaceData_eq {n : Nat} {text : Units} (hn : text.length ≤ n) :
    replaceData redactFrame true 0 text = mapLinesFrom (redactLine redactFrame) [] text := by
  induction n generalizing text with
  | zero =>
      rw [List.eq_nil_of_length_eq_zero (Nat.le_zero.mp hn)]
      rfl
  | succ n ih =>
      rcases exists_line text with ⟨line, rest, heq, hline, hrest⟩
      rw [heq, mapLinesFrom_line _ hline, List.nil_append]
      cases rest with
      | nil =>
          have hnil : ∀ start, replaceData redactFrame start 0 [] = [] := fun _ => rfl
          rw [replaceData_line hline hrest hnil, List.append_nil]
          rfl
      | cons c tail =>
          have hc : isLineEnd c = true := hrest c rfl
          have hshort : tail.length ≤ n := by
            rw [heq, List.length_append, List.length_cons] at hn
            omega
          have hterminator : isLineTerminator c = true := by
            simp only [isLineEnd, Bool.or_eq_true, decide_eq_true_eq] at hc
            rcases hc with hc | hc <;> rw [hc] <;> rfl
          -- the line's end is no field
          have hout : ∀ start, replaceData redactFrame start 0 (c :: tail) =
              c :: mapLinesFrom (redactLine redactFrame) [] tail := by
            intro start
            have htake : (c :: tail).takeWhile (fun d => !isLineEnd d) = [] := by simp [hc]
            have hnone : (if start then dataField [] else none) = none := by cases start <;> rfl
            rw [replaceData, htake, hnone, hterminator, ← ih hshort]
          rw [replaceData_line hline hrest hout, mapLinesFrom, if_pos hc]
          rfl

/-- A line feed separates what is before it from what follows. -/
theorem mapLinesFrom_append (f : Units → Units) (line a b : Units) :
    mapLinesFrom f line (a ++ 10 :: b) = mapLinesFrom f line a ++ 10 :: mapLinesFrom f [] b := by
  induction a generalizing line with
  | nil => rfl
  | cons c a ih =>
      rw [List.cons_append, mapLinesFrom, mapLinesFrom]
      split
      · rw [ih, List.append_assoc]
        rfl
      · exact ih (line ++ [c])

/-- Rewritten, a part that ends with a line feed still does. -/
theorem mapLinesFrom_concat (a b : Units) :
    mapLinesFrom (redactLine redactFrame) [] (a ++ [10] ++ b) =
      mapLinesFrom (redactLine redactFrame) [] a ++ [10] ++
        mapLinesFrom (redactLine redactFrame) [] b := by
  rw [List.append_assoc]
  change mapLinesFrom _ _ (a ++ 10 :: b) = _
  rw [mapLinesFrom_append, List.append_assoc]
  rfl

/-- The first event: the mark is kept before it. -/
theorem scrub_first (event : Units) :
    scrub redactFrame true event = mapLines (redactLine redactFrame) event := by
  rw [mapLines, ← replaceData_eq (Nat.le_refl _)]
  rfl

theorem scrub_next (event : Units) :
    scrub redactFrame false event = mapLinesFrom (redactLine redactFrame) [] event := by
  rw [← replaceData_eq (Nat.le_refl _)]
  rfl

/-- A part that ends with a line feed is rewritten on its own, and still ends with
it: only what comes first can have the mark. -/
theorem mapLines_concat (a : Units) : ∃ front, ∀ b,
    mapLines (redactLine redactFrame) (a ++ [10] ++ b) =
      front ++ [10] ++ mapLinesFrom (redactLine redactFrame) [] b := by
  cases a with
  | nil => exact ⟨[], mapLinesFrom_concat []⟩
  | cons c a =>
      by_cases hbom : c = 0xfeff
      · refine ⟨0xfeff :: mapLinesFrom (redactLine redactFrame) [] a, ?_⟩
        intro b
        rw [hbom]
        change 0xfeff :: mapLinesFrom _ [] (a ++ [10] ++ b) = _
        rw [mapLinesFrom_concat]
        rfl
      · refine ⟨mapLinesFrom (redactLine redactFrame) [] (c :: a), ?_⟩
        intro b
        have hnone : bomOf (c :: (a ++ [10] ++ b)) = [] := by simp [bomOf, hbom]
        rw [mapLines, List.cons_append, List.cons_append, hnone]
        exact mapLinesFrom_concat (c :: a) b

/-! ## What the stream has enqueued -/

/-- What has been enqueued is the rewritten form of `emitted`, which is empty or
ends with a line feed. -/
structure Emitted (redactFrame : Units → Units) (emitted : Units) (s : Stream) : Prop where
  bytes : s.enqueued.flatten = encode (mapLines (redactLine redactFrame) emitted)
  parts : (s.atStart = true ∧ emitted = []) ∨ (s.atStart = false ∧ ∃ a, emitted = a ++ [10])

/-- Scrubbing the next part rewrites it as a part of the whole text. -/
theorem Emitted.bytes_emit {emitted : Units} {s : Stream} (h : Emitted redactFrame emitted s)
    (stop : Nat) : (s.emit redactFrame stop).enqueued.flatten =
      encode (mapLines (redactLine redactFrame) (emitted ++ s.pending.take stop)) := by
  have hflatten : (s.emit redactFrame stop).enqueued.flatten =
      s.enqueued.flatten ++ encode (scrub redactFrame s.atStart (s.pending.take stop)) := by
    simp [Stream.emit]
  rw [hflatten, h.bytes]
  rcases h.parts with ⟨hstart, hempty⟩ | ⟨hstart, a, ha⟩
  · rw [hstart, hempty, scrub_first]
    rfl
  · rcases @mapLines_concat redactFrame a with ⟨front, hfront⟩
    have halone := hfront []
    rw [List.append_nil] at halone
    rw [hstart, ha, scrub_next, hfront, halone]
    change encode (front ++ [10] ++ []) ++ _ = _
    rw [List.append_nil]
    symm
    apply encode_append
    intro c hc
    rw [List.getLast?_concat] at hc
    rw [← Option.some.inj hc]
    rfl

theorem Emitted.emit {emitted : Units} {s : Stream} (h : Emitted redactFrame emitted s) {stop : Nat}
    (hstop : ∃ a, s.pending.take stop = a ++ [10]) :
    Emitted redactFrame (emitted ++ s.pending.take stop) (s.emit redactFrame stop) := by
  refine ⟨h.bytes_emit stop, Or.inr ⟨rfl, ?_⟩⟩
  rcases hstop with ⟨a, ha⟩
  exact ⟨emitted ++ a, by rw [ha, List.append_assoc]⟩

/-- A boundary ends with a line feed. -/
theorem boundaryAt_lf {text : Units} {length : Nat} (h : boundaryAt text = some length) :
    ∃ a, text.take length = a ++ [10] := by
  unfold boundaryAt at h
  split at h
  · rw [← Option.some.inj h]
    exact ⟨[13, 10, 13], rfl⟩
  · rw [← Option.some.inj h]
    exact ⟨[13, 10], rfl⟩
  · rw [← Option.some.inj h]
    exact ⟨[10, 13], rfl⟩
  · rw [← Option.some.inj h]
    exact ⟨[10], rfl⟩
  · cases h

theorem boundaryEnd_lf {text : Units} {stop : Nat} (h : boundaryEnd text = some stop) :
    ∃ a, text.take stop = a ++ [10] := by
  induction text generalizing stop with
  | nil => cases h
  | cons c rest ih =>
      rcases Option.or_eq_some_iff.mp h with hhere | ⟨-, hlater⟩
      · exact boundaryAt_lf hhere
      · rcases Option.map_eq_some_iff.mp hlater with ⟨stop', hstop', heq⟩
        rcases ih hstop' with ⟨a, ha⟩
        exact ⟨c :: a, by rw [← heq, List.take_succ_cons, ha]; rfl⟩

/-- The loops leave what they do not enqueue pending. -/
structure Splits (redactFrame : Units → Units) (decoded : Units) (s : Stream) : Prop where
  parts : ∃ emitted, decoded = emitted ++ s.pending ∧ Emitted redactFrame emitted s

theorem Splits.emitEvents {decoded : Units} {s : Stream} (h : Splits redactFrame decoded s)
    (rounds : Nat) : Splits redactFrame decoded (s.emitEvents redactFrame rounds) := by
  induction rounds generalizing s with
  | zero => exact h
  | succ rounds ih =>
      rw [Stream.emitEvents]
      cases hstop : boundaryEnd s.pending with
      | none => exact h
      | some stop =>
          apply ih
          rcases h.parts with ⟨emitted, heq, hemitted⟩
          refine ⟨emitted ++ s.pending.take stop, ?_, hemitted.emit (boundaryEnd_lf hstop)⟩
          rw [heq, List.append_assoc]
          exact congrArg (emitted ++ ·) (List.take_append_drop stop s.pending).symm

/-- The inner loop reads nothing. -/
theorem Stream.emitEvents_chunks (s : Stream) (rounds : Nat) :
    (s.emitEvents redactFrame rounds).chunks = s.chunks ∧
      (s.emitEvents redactFrame rounds).decoder = s.decoder ∧
      (s.emitEvents redactFrame rounds).closed = s.closed := by
  induction rounds generalizing s with
  | zero => exact ⟨rfl, rfl, rfl⟩
  | succ rounds ih =>
      rw [emitEvents]
      cases boundaryEnd s.pending with
      | none => exact ⟨rfl, rfl, rfl⟩
      | some stop => exact ih (s.emit redactFrame stop)

/-- An open stream has read a part of the bytes of the text. -/
structure Reading (redactFrame : Units → Units) (text : List Char) (s : Stream) : Prop where
  opened : s.closed = false
  bytes : ∃ read decoded, read ++ s.chunks.flatten = textBytes text ∧
    Decoder.start.feed read = (s.decoder, decoded) ∧ Splits redactFrame decoded s

/-- A closed stream has enqueued the whole text, rewritten. -/
structure Done (redactFrame : Units → Units) (text : List Char) (s : Stream) : Prop where
  closed : s.closed = true
  bytes : s.enqueued.flatten = encode (mapLines (redactLine redactFrame) (textUnits text))

theorem Reading.readChunk {text : List Char} {s : Stream} (h : Reading redactFrame text s)
    {chunk : Bytes} {rest : List Bytes} (hchunks : s.chunks = chunk :: rest) :
    Reading redactFrame text (s.readChunk chunk rest) := by
  rcases h.bytes with ⟨read, decoded, hread, hdecoded, ⟨emitted, heq, hemitted⟩⟩
  refine ⟨h.opened, read ++ chunk, decoded ++ (s.decoder.feed chunk).2, ?_, ?_, ?_⟩
  · rw [← hread, hchunks, List.flatten_cons, List.append_assoc]
    rfl
  · rw [Decoder.feed_append, hdecoded]
    rfl
  · refine ⟨emitted, ?_, hemitted.bytes, hemitted.parts⟩
    rw [heq, List.append_assoc]
    rfl

theorem Reading.emitEvents {text : List Char} {s : Stream} (h : Reading redactFrame text s)
    (rounds : Nat) : Reading redactFrame text (s.emitEvents redactFrame rounds) := by
  rcases @Stream.emitEvents_chunks redactFrame s rounds with ⟨hchunks, hdecoder, hclosed⟩
  rcases h.bytes with ⟨read, decoded, hread, hdecoded, hsplits⟩
  refine ⟨hclosed.trans h.opened, read, decoded, ?_, ?_, hsplits.emitEvents rounds⟩
  · rw [hchunks]
    exact hread
  · rw [hdecoder]
    exact hdecoded

/-- At the end of the text no character is incomplete. -/
theorem Reading.finish {text : List Char} {s : Stream} (h : Reading redactFrame text s)
    (hchunks : s.chunks = []) : Done redactFrame text (s.finish redactFrame) := by
  rcases h.bytes with ⟨read, decoded, hread, hdecoded, ⟨emitted, heq, hemitted⟩⟩
  rw [hchunks, List.flatten_nil, List.append_nil] at hread
  rw [hread, Decoder.feed_textBytes] at hdecoded
  rcases Prod.mk.inj hdecoded with ⟨hdecoder, hunits⟩
  have hflush : s.decoder.flush = [] := by
    rw [← hdecoder]
    rfl
  have hsplits : Splits redactFrame (textUnits text)
      { s with pending := s.pending ++ s.decoder.flush, decoder := .start } := by
    refine ⟨emitted, ?_, hemitted.bytes, hemitted.parts⟩
    rw [hunits, heq, hflush, List.append_nil]
  rcases (hsplits.emitEvents ((s.pending ++ s.decoder.flush).length + 1)).parts with
    ⟨emitted', heq', hemitted'⟩
  refine ⟨rfl, ?_⟩
  simp only [Stream.finish]
  split
  · rename_i hempty
    rw [hempty, List.append_nil] at heq'
    rw [heq']
    exact hemitted'.bytes
  · have hlast := hemitted'.bytes_emit (Stream.emitEvents redactFrame
      ((s.pending ++ s.decoder.flush).length + 1)
      { s with pending := s.pending ++ s.decoder.flush, decoder := .start }).pending.length
    rw [List.take_length, ← heq'] at hlast
    exact hlast

/-- One pull closes the stream or reads at least a chunk. By induction on the chunks. -/
theorem Reading.pullFrom {text : List Char} {chunks : List Bytes} {s : Stream}
    (h : Reading redactFrame text s) (hchunks : s.chunks = chunks) :
    Done redactFrame text (Stream.pullFrom redactFrame chunks s) ∨
      (Reading redactFrame text (Stream.pullFrom redactFrame chunks s) ∧
        (Stream.pullFrom redactFrame chunks s).chunks.length < chunks.length) := by
  induction chunks generalizing s with
  | nil => exact Or.inl (h.finish hchunks)
  | cons chunk rest ih =>
      have hread := h.readChunk hchunks
      have hemitted := hread.emitEvents ((s.readChunk chunk rest).pending.length + 1)
      have hrest := (@Stream.emitEvents_chunks redactFrame (s.readChunk chunk rest)
        ((s.readChunk chunk rest).pending.length + 1)).1
      simp only [Stream.pullFrom]
      split
      · right
        refine ⟨hemitted, ?_⟩
        rw [hrest]
        exact Nat.lt_succ_self _
      · rcases ih hemitted hrest with hdone | ⟨hreading, hlen⟩
        · exact Or.inl hdone
        · exact Or.inr ⟨hreading, Nat.lt_succ_of_lt hlen⟩

theorem Done.after {text : List Char} {s : Stream} (h : Done redactFrame text s) (pulls : Nat) :
    Done redactFrame text (s.after redactFrame pulls) := by
  induction pulls with
  | zero => exact h
  | succ pulls ih =>
      rw [Stream.after, Stream.pull, if_pos h.closed]
      exact ih

/-- Enough pulls close the stream. -/
theorem Stream.done_after {text : List Char} {s : Stream} (h : Reading redactFrame text s)
    {pulls : Nat} (hpulls : s.chunks.length < pulls) :
    Done redactFrame text (s.after redactFrame pulls) := by
  induction pulls generalizing s with
  | zero => omega
  | succ pulls ih =>
      have hopen : ¬ s.closed = true := by rw [h.opened]; simp
      rw [after, pull, if_neg hopen]
      rcases h.pullFrom rfl with hdone | ⟨hreading, hlen⟩
      · exact hdone.after pulls
      · exact ih hreading (by omega)

theorem Reading.ofChunks {text : List Char} {chunks : List Bytes}
    (h : chunks.flatten = textBytes text) : Reading redactFrame text (Stream.ofChunks chunks) := by
  refine ⟨rfl, [], [], h, rfl, [], rfl, rfl, Or.inl ⟨rfl, rfl⟩⟩

/-! ## Payloads that stay -/

theorem mapLinesFrom_eq {f : Units → Units} {line text : Units}
    (h : ∀ l ∈ linesFrom line text, f l = l) : mapLinesFrom f line text = line ++ text := by
  induction text generalizing line with
  | nil =>
      rw [List.append_nil]
      exact h line List.mem_cons_self
  | cons c rest ih =>
      rw [linesFrom] at h
      rw [mapLinesFrom]
      split
      · rename_i hc
        rw [if_pos hc] at h
        have hrest := ih fun l hl => h l (List.mem_cons_of_mem _ hl)
        rw [h line List.mem_cons_self, hrest]
        rfl
      · rename_i hc
        rw [if_neg hc] at h
        rw [ih h, List.append_assoc]
        rfl

theorem fieldIn_eq {line head data : Units} {start : Bool}
    (h : fieldIn start line = some (head, data)) : line = head ++ data := by
  induction line generalizing start head data with
  | nil => cases h
  | cons c rest ih =>
      rcases Option.or_eq_some_iff.mp h with hhere | ⟨-, hlater⟩
      · cases start with
        | true => exact (dataField_eq hhere).1
        | false => cases hhere
      · rcases Option.map_eq_some_iff.mp hlater with ⟨field, hfield, heq⟩
        rcases field with ⟨head', data'⟩
        rcases Prod.mk.inj heq with ⟨hhead, hdata⟩
        rw [ih hfield, ← hhead, ← hdata]
        rfl

/-- A text whose payloads all stay. -/
theorem mapLines_eq {text : Units} (h : ∀ data ∈ dataPayloads text, redactFrame data = data) :
    mapLines (redactLine redactFrame) text = text := by
  have hlines : ∀ line ∈ linesOf text, redactLine redactFrame line = line := by
    intro line hline
    unfold redactLine
    cases hfield : fieldIn true line with
    | none => rfl
    | some field =>
        rcases field with ⟨head, data⟩
        have hdata : data ∈ dataPayloads text :=
          List.mem_filterMap.mpr ⟨line, hline, by rw [hfield]; rfl⟩
        change head ++ redactFrame data = line
        rw [h data hdata, fieldIn_eq hfield]
  rw [mapLines, mapLinesFrom_eq hlines, List.nil_append]
  unfold bomOf
  split
  · rename_i hhead
    cases text with
    | nil => cases hhead
    | cons c rest =>
        rw [← Option.some.inj hhead]
        rfl
  · rfl

end

/-- A frame that is no error envelope stays. -/
theorem redactCredentialFrame_of_ordinary {redactStrings : Units → Units} {frame : Units}
    {credential : Option Units} (h : (Parse.parse frame).any isErrorEnvelope = false) :
    redactCredentialFrame redactStrings frame credential = frame := by
  unfold redactCredentialFrame
  split
  · unfold redactParsedFrame
    cases hparse : Parse.parse frame with
    | none => rfl
    | some value =>
        rw [hparse] at h
        have hordinary : ¬ isErrorEnvelope value = true := by simpa using h
        exact if_neg hordinary
  · rfl

/-- However the bytes of a successful event stream are cut into chunks, the output
is the text with the payload of each data field rewritten; without an error envelope
it is the bytes that came in. -/
theorem redactCredentialResponse_bytes (redactStrings : Units → Units) (response : Response)
    (credential : Option Units) (text : List Char) (pulls : Nat)
    (hstatus : 200 ≤ response.status ∧ response.status ≤ 299)
    (hbody : response.body.flatten = textBytes text) (hpulls : response.body.length < pulls) :
    let sent := redactCredentialResponse redactStrings response credential .eventStream pulls
    sent.closed = true ∧
      sent.enqueued.flatten = encode (mapLines (redactLine fun frame =>
        redactCredentialFrame redactStrings frame credential) (textUnits text)) ∧
      ((∀ data ∈ dataPayloads (textUnits text),
          (Parse.parse data).any isErrorEnvelope = false) →
        sent.enqueued.flatten = response.body.flatten) := by
  have hsent : redactCredentialResponse redactStrings response credential .eventStream pulls =
      (Stream.ofChunks response.body).after
        (fun frame => redactCredentialFrame redactStrings frame credential) pulls := by
    rw [redactCredentialResponse, if_neg (by omega), if_neg (by simp)]
  have hreading : Reading (fun frame => redactCredentialFrame redactStrings frame credential) text
      (Stream.ofChunks response.body) := Reading.ofChunks hbody
  have hdone := Stream.done_after hreading hpulls
  simp only [hsent]
  refine ⟨hdone.closed, hdone.bytes, ?_⟩
  intro hordinary
  rw [hdone.bytes, mapLines_eq fun data hdata =>
    redactCredentialFrame_of_ordinary (hordinary data hdata), encode_textUnits, hbody]

/-- A mark, a comment, an error envelope and CRLF, cut inside the envelope. -/
def cutStream : Response :=
  let bytes := textBytes "\ufeff: é\r\n\r\ndata: \x7b\"error\":\"abc\"\x7d\r\n".toList
  { status := 200, body := [bytes.take 5, bytes.drop 5 |>.take 20, bytes.drop 25] }

theorem redactCredentialResponse_bytes_cut :
    (redactCredentialResponse id cutStream (some (Units.of "abc")) .eventStream 4).enqueued.flatten =
      textBytes "\ufeff: é\r\n\r\ndata: \x7b\"error\":\"[credential]\"\x7d\r\n".toList := by
  have h := (redactCredentialResponse_bytes id cutStream (some (Units.of "abc"))
    "\ufeff: é\r\n\r\ndata: \x7b\"error\":\"abc\"\x7d\r\n".toList 4 (by decide)
    (by decide +kernel) (by decide)).2.1
  rw [h]
  decide +kernel

/-- A comment with U+2028 before what looks like a data line. -/
def separatorText : List Char := ": x\u2028data: \x7b\"error\":\"abc\"\x7d\n\n".toList

/-- The comment is rewritten, though it is no `data:` line. -/
theorem redactCredentialResponse_separator :
    ¬ ∀ (redactStrings : Units → Units) (response : Response) (credential : Option Units)
      (text : List Char) (pulls : Nat), 200 ≤ response.status ∧ response.status ≤ 299 →
      response.body.flatten = textBytes text → response.body.length < pulls →
      (redactCredentialResponse redactStrings response credential .eventStream
        pulls).enqueued.flatten = encode (mapLines (redactField fun frame =>
          redactCredentialFrame redactStrings frame credential) (textUnits text)) := by
  intro h
  have hone := h id { status := 200, body := [textBytes separatorText] } (some (Units.of "abc"))
    separatorText 2 (by decide) (by decide +kernel) (by decide)
  revert hone
  decide +kernel

end Redaction
