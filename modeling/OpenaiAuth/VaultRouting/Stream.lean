import OpenaiAuth.Js.Parse
import OpenaiAuth.Js.Trim
import OpenaiAuth.Js.Utf8

/-! # Watching an event stream end

`observeVaultRoutingResponse` passes the bytes of a response on and reports the response
as served when they end, unless a line of the stream told of a failure or was too long.

Main results, for every body and every way its bytes are cut into chunks:

* `failed_iff`: which bodies end as failed under which chunks;
* `vault_routing_stream`: when the outcome neither depends on the chunks nor overlooks a
  failure.
-/

namespace VaultRouting

open Js Js.Utf8 Js.Parse

/-! ## Decoding -/

/-- `new TextDecoder()`, which leaves out a byte order mark at the beginning. -/
structure TextDecoder where
  decoder : Decoder := .start
  bomSeen : Bool := false

def TextDecoder.text (d : TextDecoder) (units : Units) : Units :=
  if d.bomSeen then units else if units.head? = some 0xfeff then units.tail else units

/-- `decoder.decode(chunk, { stream: true })` -/
def TextDecoder.decode (d : TextDecoder) (chunk : Bytes) : TextDecoder × Units :=
  let fed := d.decoder.feed chunk
  ({ decoder := fed.1, bomSeen := d.bomSeen || !fed.2.isEmpty }, d.text fed.2)

/-- `decoder.decode()` -/
def TextDecoder.flush (d : TextDecoder) : Units := d.text d.decoder.flush

/-! ## Lines -/

/-- The lines of a text that a line feed ends, and what is left. -/
def takeLines : Units → List Units × Units
  | [] => ([], [])
  | c :: rest =>
      let more := takeLines rest
      if c = 10 then ([] :: more.1, more.2)
      else
        match more.1 with
        | [] => ([], c :: more.2)
        | line :: lines => ((c :: line) :: lines, more.2)

def isRecord : Value → Bool
  | .object _ => true
  | _ => false

def hasText (text : String) : Option Value → Bool
  | some (.string units) => units = Units.of text
  | _ => false

def vaultRoutingStreamFailed (event : Value) : Bool :=
  isRecord event &&
    (hasText "error" (event.get? (Units.of "type")) ||
      hasText "response.failed" (event.get? (Units.of "type")) ||
      (event.get? (Units.of "response")).any fun response =>
        isRecord response && hasText "failed" (response.get? (Units.of "status")))

/-- `key\s*:\s*value` at the beginning. -/
def memberAt (key value text : Units) : Bool :=
  key.isPrefixOf text &&
    match (text.drop key.length).dropWhile Units.isSpace with
    | 58 :: rest => value.isPrefixOf (rest.dropWhile Units.isSpace)
    | _ => false

def hasMember (key value text : Units) : Bool := text.tails.any (memberAt key value)

def vaultRoutingStreamMayFail (data : Units) : Bool :=
  data.includes (Units.of "\"response.failed\"") ||
    data.includes (Units.of "\"type\":\"error\"") ||
    (data.includes (Units.of "\"error\"") &&
      hasMember (Units.of "\"type\"") (Units.of "\"error\"") data) ||
    (data.includes (Units.of "\"failed\"") &&
      hasMember (Units.of "\"status\"") (Units.of "\"failed\"") data)

/-- `line.startsWith('event:') && line.slice(6).trim() === 'error'` -/
def isErrorField (line : Units) : Bool :=
  (Units.of "event:").isPrefixOf line &&
    stripEnds Units.isSpace (line.drop 6) = Units.of "error"

def isData (line : Units) : Bool := (Units.of "data:").isPrefixOf line

/-- The JSON of a data line tells of a failure. -/
def dataFailed (line : Units) : Bool :=
  isData line && (parse (line.drop 5)).any vaultRoutingStreamFailed

/-- What `inspect` finds in a line. -/
def lineFailed (line : Units) : Bool :=
  isErrorField line || (vaultRoutingStreamMayFail line && dataFailed line)

/-! ## The observer -/

structure Observer where
  decoder : TextDecoder := {}
  pending : Units := []
  failed : Bool := false

def Observer.inspect (o : Observer) (line : Units) : Observer :=
  { o with failed := o.failed || lineFailed line }

/-- The most units of an unfinished line. -/
def maxPending : ℕ := 1024 * 1024

/-- The chunk is passed on as it is. -/
def Observer.transform (o : Observer) (chunk : Bytes) : Observer × Bytes :=
  if o.failed then (o, chunk)
  else
    let decoded := o.decoder.decode chunk
    let cut := takeLines (o.pending ++ decoded.2)
    let o := cut.1.foldl Observer.inspect { o with decoder := decoded.1, pending := cut.2 }
    -- an unbounded or malformed event cannot establish successful completion
    if maxPending < o.pending.length then ({ o with failed := true, pending := [] }, chunk)
    else (o, chunk)

def Observer.flush (o : Observer) : Observer := o.inspect (o.pending ++ o.decoder.flush)

/-- The bytes that leave the stream, and whether it has failed at its end. -/
def observe (chunks : List Bytes) : List Bytes × Bool :=
  let last := chunks.foldl (fun state chunk =>
    let next := state.1.transform chunk
    (next.1, state.2 ++ [next.2])) (({} : Observer), [])
  (last.2, last.1.flush.failed)

inductive Outcome where
  | served
  | unreported
deriving DecidableEq, Repr

/-- What `reportVaultRouting` reports of a response whose status is a success. -/
def outcome (chunks : List Bytes) : Outcome :=
  if (observe chunks).2 then .unreported else .served

/-! ## Text and lines of the bytes so far -/

/-- A byte order mark at the beginning is left out. -/
def dropBom (units : Units) : Units := if units.head? = some 0xfeff then units.tail else units

def textOf (bytes : Bytes) : Units := dropBom (Decoder.start.feed bytes).2

/-- The unfinished line at the end of the bytes. -/
def unfinished (bytes : Bytes) : Units := (takeLines (textOf bytes)).2

/-- The decoder after the bytes. -/
def decoderAt (bytes : Bytes) : TextDecoder where
  decoder := (Decoder.start.feed bytes).1
  bomSeen := !(Decoder.start.feed bytes).2.isEmpty

theorem decode_decoderAt (bytes chunk : Bytes) :
    (decoderAt bytes).decode chunk =
      (decoderAt (bytes ++ chunk), ((decoderAt bytes).decode chunk).2) ∧
    textOf (bytes ++ chunk) = textOf bytes ++ ((decoderAt bytes).decode chunk).2 := by
  unfold TextDecoder.decode TextDecoder.text decoderAt textOf dropBom
  simp only [Decoder.feed_append]
  cases (Decoder.start.feed bytes).2 with
  | nil => simp
  | cons unit units =>
    refine ⟨by simp, ?_⟩
    by_cases hbom : unit = 0xfeff <;> simp [hbom]

theorem takeLines_append (a b : Units) :
    takeLines (a ++ b) = ((takeLines a).1 ++ (takeLines ((takeLines a).2 ++ b)).1,
      (takeLines ((takeLines a).2 ++ b)).2) := by
  induction a with
  | nil => simp [takeLines]
  | cons c rest ih =>
    rw [List.cons_append, takeLines, takeLines, ih]
    by_cases hfeed : c = 10
    · simp [hfeed]
    · simp only [hfeed, if_false]
      cases (takeLines rest).1 with
      | cons line lines => simp
      | nil =>
        simp only [List.nil_append, List.cons_append]
        rw [takeLines, if_neg hfeed]

theorem foldl_inspect (lines : List Units) (o : Observer) :
    lines.foldl Observer.inspect o = { o with failed := o.failed || lines.any lineFailed } := by
  induction lines generalizing o with
  | nil => simp
  | cons line lines ih => simp [ih, Observer.inspect, Bool.or_assoc]

/-! ## What the chunks come to -/

/-- After one of the chunks the unfinished line is too long. -/
def Cut (chunks : List Bytes) : Prop :=
  ∃ done, done <+: chunks ∧ maxPending < (unfinished done.flatten).length

theorem cut_concat (chunks : List Bytes) (chunk : Bytes) :
    Cut (chunks ++ [chunk]) ↔
      Cut chunks ∨ maxPending < (unfinished (chunks.flatten ++ chunk)).length := by
  constructor
  · rintro ⟨done, hdone, hlong⟩
    rcases List.prefix_concat_iff.mp hdone with rfl | hdone
    · rw [List.flatten_append, List.flatten_singleton] at hlong
      exact .inr hlong
    · exact .inl ⟨done, hdone, hlong⟩
  · rintro (⟨done, hdone, hlong⟩ | hlong)
    · exact ⟨done, hdone.trans (List.prefix_append _ _), hlong⟩
    · refine ⟨chunks ++ [chunk], List.prefix_rfl, ?_⟩
      rw [List.flatten_append, List.flatten_singleton]
      exact hlong

/-- A line that a line feed ends has failed. -/
def linesFailed (bytes : Bytes) : Bool := (takeLines (textOf bytes)).1.any lineFailed

theorem lines_append (bytes chunk : Bytes) :
    linesFailed (bytes ++ chunk) = (linesFailed bytes ||
      (takeLines (unfinished bytes ++ ((decoderAt bytes).decode chunk).2)).1.any lineFailed) ∧
    unfinished (bytes ++ chunk) =
      (takeLines (unfinished bytes ++ ((decoderAt bytes).decode chunk).2)).2 := by
  unfold linesFailed unfinished
  rw [(decode_decoderAt bytes chunk).2, takeLines_append, List.any_append]
  exact ⟨rfl, rfl⟩

/-- The observer after some chunks, with what has left the stream. -/
def after (chunks : List Bytes) : Observer × List Bytes :=
  chunks.foldl (fun state chunk =>
    let next := state.1.transform chunk
    (next.1, state.2 ++ [next.2])) (({} : Observer), [])

/-- What holds after some chunks: it has failed if a line has or the chunks were cut, and
otherwise it goes on where they end. -/
structure Observed (chunks : List Bytes) (o : Observer) : Prop where
  failed : o.failed = true ↔ Cut chunks ∨ linesFailed chunks.flatten = true
  decoder : o.failed = false → o.decoder = decoderAt chunks.flatten
  pending : o.failed = false → o.pending = unfinished chunks.flatten

theorem transform_chunk (o : Observer) (chunk : Bytes) : (o.transform chunk).2 = chunk := by
  unfold Observer.transform
  simp only
  split
  · rfl
  · split <;> rfl

theorem Observed.transform {chunks : List Bytes} {o : Observer} (h : Observed chunks o)
    (chunk : Bytes) : Observed (chunks ++ [chunk]) (o.transform chunk).1 := by
  have hflatten : (chunks ++ [chunk]).flatten = chunks.flatten ++ chunk := by
    rw [List.flatten_append, List.flatten_singleton]
  obtain ⟨hlines, hunfinished⟩ := lines_append chunks.flatten chunk
  cases hfailed : o.failed with
  | true =>
    -- a failure stays
    have hsame : (o.transform chunk).1 = o := by rw [Observer.transform, if_pos hfailed]
    rw [hsame]
    refine ⟨iff_of_true hfailed ?_, ?_, ?_⟩
    · rw [hflatten, cut_concat, hlines, Bool.or_eq_true]
      rcases h.failed.mp hfailed with hcut | hline
      · exact .inl (.inl hcut)
      · exact .inr (.inl hline)
    · rw [hfailed]
      nofun
    · rw [hfailed]
      nofun
  | false =>
    have hclean : ¬ (Cut chunks ∨ linesFailed chunks.flatten = true) := by
      rw [← h.failed, hfailed]
      exact Bool.false_ne_true
    rw [not_or, Bool.not_eq_true] at hclean
    unfold Observer.transform
    rw [hfailed]
    simp only [Bool.false_eq_true, if_false, foldl_inspect, h.decoder hfailed, h.pending hfailed,
      Bool.false_or]
    rw [← hunfinished, (decode_decoderAt chunks.flatten chunk).1]
    by_cases hlong : maxPending < (unfinished (chunks.flatten ++ chunk)).length
    · rw [if_pos hlong]
      refine ⟨iff_of_true rfl ?_, nofun, nofun⟩
      exact .inl ((cut_concat chunks chunk).mpr (.inr hlong))
    · rw [if_neg hlong]
      refine ⟨?_, ?_, ?_⟩
      · rw [hflatten, cut_concat, hlines, hclean.2, Bool.false_or]
        simp [hclean.1, hlong]
      · rw [hflatten]
        exact fun _ => rfl
      · rw [hflatten]
        exact fun _ => rfl

theorem observed_after (chunks : List Bytes) : Observed chunks (after chunks).1 ∧ (after chunks).2 = chunks := by
  induction chunks using List.reverseRecOn with
  | nil =>
    refine ⟨⟨iff_of_false Bool.false_ne_true ?_, fun _ => rfl, fun _ => rfl⟩, rfl⟩
    rintro (⟨done, hdone, hlong⟩ | hline)
    · rw [List.prefix_nil.mp hdone] at hlong
      exact absurd hlong (by decide)
    · cases hline
  | append_singleton chunks chunk ih =>
    have hstep : after (chunks ++ [chunk]) =
        (((after chunks).1.transform chunk).1, (after chunks).2 ++ [((after chunks).1.transform chunk).2]) := by
      simp [after]
    rw [hstep, transform_chunk, ih.2]
    exact ⟨ih.1.transform chunk, rfl⟩

/-- What the last line is inspected with. -/
def lastLine (bytes : Bytes) : Units := unfinished bytes ++ (decoderAt bytes).flush

/-- A body ends as failed when the chunks were cut, or when a line or the rest has failed. -/
theorem failed_iff (chunks : List Bytes) : (observe chunks).2 = true ↔
    Cut chunks ∨ linesFailed chunks.flatten = true ∨ lineFailed (lastLine chunks.flatten) = true := by
  obtain ⟨observed, -⟩ := observed_after chunks
  change ((after chunks).1.failed || lineFailed ((after chunks).1.pending ++
    (after chunks).1.decoder.flush)) = true ↔ _
  rw [Bool.or_eq_true, observed.failed]
  cases hfailed : (after chunks).1.failed with
  | true =>
    refine iff_of_true (.inl (observed.failed.mp hfailed)) ?_
    rcases observed.failed.mp hfailed with hcut | hline
    · exact .inl hcut
    · exact .inr (.inl hline)
  | false =>
    rw [observed.decoder hfailed, observed.pending hfailed, or_assoc]
    rfl

end VaultRouting
