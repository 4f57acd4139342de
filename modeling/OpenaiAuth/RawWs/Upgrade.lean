import OpenaiAuth.Js.Numeral
import OpenaiAuth.RawWs.Closing
import OpenaiAuth.RawWs.Connection

/-! # Rejected upgrades

`rejectedUpgradeEvent` of `raw-ws-upgrade.ts` in full, in the two clients of OpenCode,
and the responses of HTTP/1.1 that it is for, in the three framings of a body.

Main results:

* `outcome_outputs`: however a response is cut and however the connection ends, one
  `error` event is emitted, and it has the whole response;
* `parse_chunked`: the bytes of chunked coding are no JSON object;
* `recognised_iff`: the refusal is recognised exactly if its body is not chunked or has
  no error in it.
-/

namespace RawWs.Upgrade

open Js

/-! ## The event -/

/-- `text.split('\r\n')` -/
def splitLines : Units → List Units
  | [] => [[]]
  | 13 :: 10 :: rest => [] :: splitLines rest
  | c :: rest =>
      match splitLines rest with
      | [] => [[c]]
      | line :: lines => (c :: line) :: lines

/-- `toLowerCase`, in Latin-1. -/
def lowerLatin1 (c : Nat) : Nat :=
  if 65 ≤ c ∧ c ≤ 90 ∨ 0xc0 ≤ c ∧ c ≤ 0xde ∧ c ≠ 0xd7 then c + 32 else c

/-- A line with a colon. -/
def headerOf (line : Units) : Option (Units × Units) :=
  (Units.indexOf [58] line 0).map fun separator =>
    ((Units.trim (line.take separator)).map lowerLatin1, Units.trim (line.drop (separator + 1)))

/-- The entries that `headers` is made from. -/
def headersOf (headerText : Units) : List (Units × Units) :=
  (splitLines headerText).tail.filterMap headerOf

/-- A member of an object that is made from entries: of two the later is kept. -/
def headerAt? (name : Units) (entries : List (Units × Units)) : Option Units :=
  (entries.reverse.find? fun entry => entry.1 = name).map Prod.snd

def isRecord : Parse.Value → Bool
  | .object _ => true
  | _ => false

/-- The error of a body, where the body is an object that has one. -/
def errorIn (body : Bytes) : Option Parse.Value :=
  let parsed := (Parse.parse (Utf8.decode body)).filter isRecord
  (parsed.bind fun value => value.get? (Units.of "error")).filter isRecord

/-- The event, with both names of the status. -/
structure UpgradeError where
  message : Units
  status : Nat
  statusCode : Nat
  headers : List (Units × Units)
  body : Units
  error : Option Parse.Value

/-- Whether more of the body is expected before the connection ends. -/
def awaitsBody (headers : List (Units × Units)) (bodyBytes : Bytes) : Bool :=
  match headerAt? (Units.of "content-length") headers with
  | none => true
  | some contentLength =>
      ((Number.ofText contentLength).finite?).any fun length => (bodyBytes.length : ℚ) < length

def rejectedUpgradeEvent (buffer : Bytes) (headerEnd : Nat) (finalizePartial : Bool) :
    Option UpgradeError :=
  let headerText := buffer.take headerEnd
  let statusLine := statusLineOf headerText
  match rejectedUpgradeStatus statusLine with
  | none => none
  | some status =>
      if status = 101 then none
      else
        let headers := headersOf headerText
        let bodyBytes := buffer.drop (headerEnd + 4)
        if ¬ finalizePartial ∧ awaitsBody headers bodyBytes then none
        else
          some
            { message := Units.of "WS upgrade failed: " ++ statusLine
              status := status
              statusCode := status
              headers := headers
              body := Utf8.decode bodyBytes
              error := errorIn bodyBytes }

/-! ## The clients -/

/-- OpenCode's clients, over Node's socket or Bun's. -/
def config (node : Bool) (expectedAccept : Units) (mask : Nat → Nat → Nat) (endCloses : Bool) :
    Config :=
  { client := if node then .node else .bun
    expectedAccept := expectedAccept
    mask := mask
    endCloses := endCloses
    bodyComplete := fun buffer idx => (rejectedUpgradeEvent buffer idx false).isSome }

/-- The event that is emitted of a buffer. -/
def eventOf (buffer : Bytes) : Option UpgradeError :=
  (headerEnd buffer).bind fun idx => rejectedUpgradeEvent buffer idx true

/-- How the connection ends: it is closed, or it fails and may be closed then. -/
inductive Ending where
  | closed
  | failed (message : Units) (closes : Bool)
deriving DecidableEq, Repr

def ended (c : Config) (s : State) : Ending → State
  | .closed => onSocketClose c s
  | .failed message closes =>
      let s := Closing.onSocketError c s message
      if closes then onSocketClose c s else s

/-- What a client emits of a connection. -/
def outcome (c : Config) (chunks : List Bytes) (ending : Ending) : List Output :=
  (ended c (chunks.foldl (receive c) .start) ending).outputs

/-! ## Responses -/

/-- A chunk of chunked coding. -/
structure Chunk where
  size : Units
  extension : Units
  data : Bytes
  hexadecimal : size ≠ [] ∧ ∀ c ∈ size, (Units.hexValue c).isSome
  sized : size.foldl (fun value c => value * 16 + (Units.hexValue c).getD 0) 0 = data.length
  full : data ≠ []
  marked : (∀ c ∈ extension, c ≠ 13 ∧ c ≠ 10) ∧ ∀ c ∈ extension.head?, c = 59

def Chunk.bytes (chunk : Chunk) : Bytes :=
  chunk.size ++ chunk.extension ++ crlf ++ chunk.data ++ crlf

/-- Chunks, the last one that is empty, and trailers. -/
structure Chunked where
  chunks : List Chunk
  last : Units
  extension : Units
  trailers : List HeaderField
  zero : last ≠ [] ∧ ∀ c ∈ last, c = 48
  marked : (∀ c ∈ extension, c ≠ 13 ∧ c ≠ 10) ∧ ∀ c ∈ extension.head?, c = 59

namespace Chunked

def bytes (coded : Chunked) : Bytes :=
  coded.chunks.flatMap Chunk.bytes ++ coded.last ++ coded.extension ++ crlf ++
    (coded.trailers.flatMap fun field => field.line ++ crlf) ++ crlf

def data (coded : Chunked) : Bytes := coded.chunks.flatMap Chunk.data

end Chunked

/-- How a body is framed. -/
inductive Framing where
  | length
  | chunked (coded : Chunked)
  | close

/-- The fields of a name, in any case. -/
def named (name : Units) (fields : List HeaderField) : List HeaderField :=
  fields.filter fun field => field.name.map Units.lower = name

/-- A field's value, with optional white space around it. -/
def Says (field : HeaderField) (value : Units) : Prop :=
  ∃ before after, (∀ c ∈ before ++ after, c = 32 ∨ c = 9) ∧ field.value = before ++ value ++ after

/-- The fields that say how the body is framed. -/
def Framed (fields : List HeaderField) (body : Bytes) : Framing → Prop
  | .length =>
      named (Units.of "transfer-encoding") fields = [] ∧
        named (Units.of "content-length") fields ≠ [] ∧
        ∀ field ∈ named (Units.of "content-length") fields, ∃ digits, Says field digits ∧
          digits ≠ [] ∧ (∀ c ∈ digits, Parse.isDigit c = true) ∧
            Parse.decimal digits = body.length
  | .chunked coded =>
      named (Units.of "content-length") fields = [] ∧
        named (Units.of "transfer-encoding") fields ≠ [] ∧
        (∀ field ∈ named (Units.of "transfer-encoding") fields, ∃ coding, Says field coding ∧
          coding.map Units.lower = Units.of "chunked") ∧
        coded.data = body
  | .close =>
      named (Units.of "content-length") fields = [] ∧
        named (Units.of "transfer-encoding") fields = []

/-- A character of a field's name. -/
def isToken (c : Nat) : Prop := 33 ≤ c ∧ c ≤ 126 ∧ c ≠ 58

/-- A response of HTTP/1.1 that does not switch protocols. A body fits in a buffer. -/
structure Response where
  code : Units
  reason : Units
  fields : List HeaderField
  body : Bytes
  framing : Framing
  numbered : code.length = 3 ∧ ∀ c ∈ code, Parse.isDigit c = true
  rejects : Parse.decimal code ≠ 101
  oneLine : ∀ c ∈ reason, c ≠ 13 ∧ c ≠ 10
  tokens : ∀ field ∈ fields, ∀ c ∈ field.name, isToken c
  framed : Framed fields body framing
  fits : body.length < 2 ^ 53

namespace Response

variable (r : Response)

def status : Nat := Parse.decimal r.code

def statusLine : Units := Units.of "HTTP/1.1 " ++ r.code ++ 32 :: r.reason

def header : Units := r.statusLine ++ UpgradeResponse.lines r.fields

/-- The body as it is sent. -/
def sent : Bytes :=
  match r.framing with
  | .chunked coded => coded.bytes
  | _ => r.body

def bytes : Bytes := r.header ++ (crlf ++ crlf) ++ r.sent

/-- The body is chunked. -/
def Chunks : Prop := ∃ coded, r.framing = .chunked coded

end Response

/-- `error` events. -/
def isError : Output → Bool
  | .error _ | .rejected _ _ => true
  | _ => false

/-- One `error` event has been emitted, with the status, and with the error where the
body has one. -/
def Recognised (r : Response) (outputs : List Output) : Prop :=
  ∃ buffer event, outputs.filter isError = [.rejected r.status buffer] ∧
    eventOf buffer = some event ∧ event.status = r.status ∧
    ∀ error, errorIn r.body = some error → event.error = some error

/-! ## The header -/

theorem splitLines_line {line : Units} (h : ∀ c ∈ line, c ≠ 13) : splitLines line = [line] := by
  induction line with
  | nil => rfl
  | cons c rest ih =>
      have hrest := ih fun d hd => h d (List.mem_cons_of_mem c hd)
      have hc := h c List.mem_cons_self
      rw [splitLines, hrest]
      intro more heq
      exact absurd heq hc

theorem splitLines_append {line : Units} (h : ∀ c ∈ line, c ≠ 13) (rest : Units) :
    splitLines (line ++ crlf ++ rest) = line :: splitLines rest := by
  induction line with
  | nil => rfl
  | cons c line ih =>
      have hrest := ih fun d hd => h d (List.mem_cons_of_mem c hd)
      have hc := h c List.mem_cons_self
      rw [List.cons_append, List.cons_append, splitLines, hrest]
      intro more heq
      exact absurd heq hc

theorem splitLines_lines {line : Units} (h : ∀ c ∈ line, c ≠ 13) (fields : List HeaderField) :
    splitLines (line ++ UpgradeResponse.lines fields) = line :: fields.map HeaderField.line := by
  induction fields generalizing line with
  | nil =>
      rw [UpgradeResponse.lines, List.flatMap_nil, List.append_nil]
      exact splitLines_line h
  | cons field fields ih =>
      have hlines : line ++ UpgradeResponse.lines (field :: fields) =
          line ++ crlf ++ (field.line ++ UpgradeResponse.lines fields) := by
        simp [UpgradeResponse.lines]
      rw [hlines, splitLines_append h, ih field.line_ne]
      rfl

theorem indexOf_colon {name : Units} (h : 58 ∉ name) (value : Units) :
    Units.indexOf [58] (name ++ 58 :: value) 0 = some name.length := by
  apply Units.indexOf_of_least
  · rw [List.length_append]
    omega
  · rw [List.drop_left]
    exact List.prefix_append [58] value
  · intro i hi hleads
    rw [List.drop_append_of_le_length (by omega), List.drop_eq_getElem_cons hi, List.cons_append,
      List.cons_prefix_cons] at hleads
    exact h (hleads.1 ▸ List.getElem_mem hi)

theorem not_isSpace_of_isToken {c : Nat} (h : isToken c) : Units.isSpace c = false := by
  rcases h with ⟨hlow, hhigh, -⟩
  simp only [Units.isSpace, Bool.or_eq_false_iff, Bool.and_eq_false_iff, decide_eq_false_iff_not]
  omega

theorem lowerLatin1_of_isToken {c : Nat} (h : isToken c) : lowerLatin1 c = Units.lower c := by
  rcases h with ⟨hlow, hhigh, -⟩
  unfold lowerLatin1 Units.lower
  split
  · rw [if_pos]
    omega
  · rw [if_neg]
    omega

theorem headerOf_line {field : HeaderField} (h : ∀ c ∈ field.name, isToken c) :
    headerOf field.line = some (field.name.map Units.lower, Units.trim field.value) := by
  have hcolon : 58 ∉ field.name := fun hmem => (h 58 hmem).2.2 rfl
  have htrim : Units.trim field.name = field.name := by
    apply Units.trim_eq_self
    · intro c hc
      exact not_isSpace_of_isToken (h c (List.mem_of_mem_head? hc))
    · intro c hc
      exact not_isSpace_of_isToken (h c (List.mem_of_getLast? hc))
  have hlower : field.name.map lowerLatin1 = field.name.map Units.lower :=
    List.map_congr_left fun c hc => lowerLatin1_of_isToken (h c hc)
  have hvalue : (field.name ++ 58 :: field.value).drop (field.name.length + 1) = field.value := by
    rw [← List.drop_drop, List.drop_left]
    rfl
  rw [headerOf, HeaderField.line, indexOf_colon hcolon, Option.map_some, List.take_left, htrim,
    hlower, hvalue]

section

variable (r : Response)

theorem statusLine_oneLine : ∀ c ∈ r.statusLine, c ≠ 13 := by
  intro c hc
  rw [Response.statusLine, List.mem_append, List.mem_append, List.mem_cons] at hc
  rcases hc with (hc | hc) | hc | hc
  · have hall : ∀ c ∈ Units.of "HTTP/1.1 ", c ≠ 13 := by decide
    exact hall c hc
  · have hdigit := Number.isDigit_bounds (r.numbered.2 c hc)
    omega
  · omega
  · exact (r.oneLine c hc).1

theorem rejectedUpgradeStatus_statusLine : rejectedUpgradeStatus r.statusLine = some r.status := by
  rcases r.numbered with ⟨hlength, hdigits⟩
  rcases List.length_eq_three.mp hlength with ⟨a, b, c, hcode⟩
  have ha : Parse.isDigit a = true := hdigits a (by rw [hcode]; simp)
  have hall : [a, b, c].all Parse.isDigit = true := by
    rw [← hcode, List.all_eq_true]
    exact hdigits
  have hspace := Number.not_isSpace_of_isDigit ha
  have hline : r.statusLine = Units.of "HTTP/" ++ 49 :: 46 :: 49 :: 32 :: a :: b :: c :: 32 ::
      r.reason := by
    rw [Response.statusLine, hcode]
    rfl
  have hstatus : r.status = Parse.decimal [a, b, c] := by rw [Response.status, hcode]
  rw [hline, hstatus]
  have hleads : (Units.of "HTTP/").isPrefixOf (Units.of "HTTP/" ++ 49 :: 46 :: 49 :: 32 :: a :: b ::
      c :: 32 :: r.reason) = true := List.isPrefixOf_iff_prefix.mpr (List.prefix_append _ _)
  have hdrop : (Units.of "HTTP/" ++ 49 :: 46 :: 49 :: 32 :: a :: b :: c :: 32 :: r.reason).drop 5 =
      49 :: 46 :: 49 :: 32 :: a :: b :: c :: 32 :: r.reason := rfl
  have hone : Parse.isDigit 49 = true := rfl
  have hblank : Units.isSpace 32 = true := rfl
  rw [rejectedUpgradeStatus, if_pos hleads, hdrop]
  simp only [hone, if_true, List.dropWhile_cons, hblank, hspace]
  rw [if_pos]
  · rfl
  · exact ⟨trivial, rfl, rfl, hall⟩

theorem header_eq : r.header = r.statusLine ++ UpgradeResponse.lines r.fields := rfl

theorem headersOf_header :
    headersOf r.header =
      r.fields.map fun field => (field.name.map Units.lower, Units.trim field.value) := by
  rw [headersOf, header_eq, splitLines_lines (statusLine_oneLine r), List.tail_cons,
    List.filterMap_map]
  have hall : ∀ field ∈ r.fields, (headerOf ∘ HeaderField.line) field =
      some (field.name.map Units.lower, Units.trim field.value) := by
    intro field hfield
    exact headerOf_line (r.tokens field hfield)
  rw [List.filterMap_congr hall, List.filterMap_eq_map']

/-! ## The framing -/

theorem headerAt?_map (name : Units) (fields : List HeaderField) :
    headerAt? name (fields.map fun field => (field.name.map Units.lower, Units.trim field.value)) =
      (named name fields).getLast?.map fun field => Units.trim field.value := by
  induction fields using List.reverseRecOn with
  | nil => rfl
  | append_singleton fields field ih =>
      by_cases hname : field.name.map Units.lower = name
      · simp [headerAt?, named, hname]
      · have hskip : named name (fields ++ [field]) = named name fields := by
          simp [named, hname]
        rw [hskip, ← ih]
        simp [headerAt?, hname]

theorem trim_value {field : HeaderField} {digits : Units} (hreads : Says field digits)
    (hdigits : ∀ c ∈ digits, Parse.isDigit c = true) : Units.trim field.value = digits := by
  rcases hreads with ⟨before, after, hspaces, hvalue⟩
  have hspace : ∀ c ∈ before ++ after, Units.isSpace c = true := by
    intro c hc
    rcases hspaces c hc with hc | hc
    · rw [hc]
      rfl
    · rw [hc]
      rfl
  rw [hvalue]
  apply Units.trim_surrounded
  · exact fun c hc => hspace c (List.mem_append_left _ hc)
  · exact fun c hc => hspace c (List.mem_append_right _ hc)
  · exact fun c hc => Number.not_isSpace_of_isDigit (hdigits c (List.mem_of_mem_head? hc))
  · exact fun c hc => Number.not_isSpace_of_isDigit (hdigits c (List.mem_of_getLast? hc))

theorem awaitsBody_length (h : r.framing = .length) (bodyBytes : Bytes) :
    awaitsBody (headersOf r.header) bodyBytes = decide (bodyBytes.length < r.body.length) := by
  have hframed := r.framed
  rw [h] at hframed
  rcases hframed with ⟨-, hsome, hlengths⟩
  have hlast := List.getLast?_eq_some_getLast hsome
  rcases hlengths _ (List.getLast_mem hsome) with ⟨digits, hreads, hne, hdigits, hvalue⟩
  have hnumber := Number.ofText_digits hne hdigits (hvalue ▸ r.fits)
  rw [awaitsBody, headersOf_header, headerAt?_map, hlast, Option.map_some, trim_value hreads hdigits]
  simp only [hnumber, hvalue, Number.finite?, Option.any_some, Nat.cast_lt]

theorem awaitsBody_open (h : r.framing ≠ .length) (bodyBytes : Bytes) :
    awaitsBody (headersOf r.header) bodyBytes = true := by
  have hnone : named (Units.of "content-length") r.fields = [] := by
    have hframed := r.framed
    cases hframing : r.framing with
    | length => exact absurd hframing h
    | chunked coded =>
        rw [hframing] at hframed
        exact hframed.1
    | close =>
        rw [hframing] at hframed
        exact hframed.1
  rw [awaitsBody, headersOf_header, headerAt?_map, hnone]
  rfl

/-- The event is emitted before the connection ends only once the body is complete. -/
theorem awaitsBody_part {bodyBytes rest : Bytes} (hpart : bodyBytes ++ rest = r.sent)
    (hrest : rest ≠ []) : awaitsBody (headersOf r.header) bodyBytes = true := by
  by_cases hframing : r.framing = .length
  · have hsent : r.sent = r.body := by rw [Response.sent, hframing]
    have hlen := congrArg List.length hpart
    rw [hsent, List.length_append] at hlen
    have hpos := List.length_pos_iff.mpr hrest
    rw [awaitsBody_length r hframing, decide_eq_true_eq]
    omega
  · exact awaitsBody_open r hframing bodyBytes

/-! ## The run -/

/-- What the event is made from when the header has come. -/
theorem rejectedUpgradeEvent_header {buffer : Bytes} (htake : buffer.take r.header.length = r.header)
    (finalizePartial : Bool) :
    rejectedUpgradeEvent buffer r.header.length finalizePartial =
      if ¬ finalizePartial ∧
          awaitsBody (headersOf r.header) (buffer.drop (r.header.length + 4)) then none
      else
        some
          { message := Units.of "WS upgrade failed: " ++ r.statusLine
            status := r.status
            statusCode := r.status
            headers := headersOf r.header
            body := Utf8.decode (buffer.drop (r.header.length + 4))
            error := errorIn (buffer.drop (r.header.length + 4)) } := by
  have hline : statusLineOf r.header = r.statusLine :=
    statusLineOf_lines (statusLine_oneLine r) r.fields
  have hstatus : r.status ≠ 101 := r.rejects
  simp only [rejectedUpgradeEvent, htake, hline, rejectedUpgradeStatus_statusLine, if_neg hstatus]

theorem header_arrived {got rest : Bytes} (h : got ++ rest = r.bytes) :
    headerEnd got = none ∨
      (headerEnd got = some r.header.length ∧ got.take r.header.length = r.header ∧
        got.drop (r.header.length + 4) ++ rest = r.sent) := by
  rcases headerEnd_cut (statusLine_oneLine r) r.fields h with hnone | hsome
  · exact .inl hnone.1
  · exact .inr hsome

theorem header_bytes : headerEnd r.bytes = some r.header.length ∧
    r.bytes.take r.header.length = r.header ∧ r.bytes.drop (r.header.length + 4) = r.sent := by
  have hall : r.bytes ++ [] = r.bytes := List.append_nil _
  rcases headerEnd_cut (statusLine_oneLine r) r.fields hall with ⟨-, hshort⟩ | hsome
  · have hlen : r.bytes.length = r.header.length + 4 + r.sent.length := by
      rw [Response.bytes, List.length_append, List.length_append]
      rfl
    rw [← header_eq] at hshort
    omega
  · rw [List.append_nil] at hsome
    exact hsome

/-- The event of the whole response. -/
theorem eventOf_bytes :
    eventOf r.bytes =
      some
        { message := Units.of "WS upgrade failed: " ++ r.statusLine
          status := r.status
          statusCode := r.status
          headers := headersOf r.header
          body := Utf8.decode r.sent
          error := errorIn r.sent } := by
  rcases header_bytes r with ⟨hend, htake, hdrop⟩
  rw [eventOf, hend, Option.bind_some, rejectedUpgradeEvent_header r htake, hdrop]
  simp

/-- What has come is kept. -/
def waiting (got : Bytes) : State := { State.start with rxBuffer := got }

/-- The event has been emitted, of the whole response. -/
structure Emitted (s : State) : Prop where
  buffer : s.rxBuffer = r.bytes
  waiting : s.handshakeDone = false
  emitted : s.upgradeFailureEmitted = true
  outputs : s.outputs = [.rejected r.status r.bytes]

variable (node : Bool) (accept : Units) (mask : Nat → Nat → Nat) (endCloses : Bool)

theorem config_client : (config node accept mask endCloses).client ≠ .pi := by
  cases node with
  | true => exact fun h => by cases h
  | false => exact fun h => by cases h

theorem upgrade_rejected :
    (config node accept mask endCloses).client.upgrade r.statusLine = .rejected := by
  have hstatus : r.status ≠ 101 := r.rejects
  have hrejected : ∀ client : Client, client ≠ .pi → client.upgrade r.statusLine = .rejected := by
    intro client hclient
    cases client with
    | pi => exact absurd rfl hclient
    | bun => simp [Client.upgrade, rejectedUpgradeStatus_statusLine, hstatus]
    | node => simp [Client.upgrade, rejectedUpgradeStatus_statusLine, hstatus]
  exact hrejected _ (config_client node accept mask endCloses)

/-- The event of a buffer that has the header. -/
theorem emitRejectedUpgrade_header {got : Bytes} (hend : headerEnd got = some r.header.length)
    (htake : got.take r.header.length = r.header) (finalizePartial : Bool) {s : State}
    (hs : s.rxBuffer = got ∧ s.handshakeDone = false ∧ s.upgradeFailureEmitted = false) :
    emitRejectedUpgrade (config node accept mask endCloses) s finalizePartial =
      if finalizePartial ∨
          awaitsBody (headersOf r.header) (got.drop (r.header.length + 4)) = false then
        ({ s with upgradeFailureEmitted := true, readyState := 3 }.emit (.rejected r.status got), true)
      else (s, false) := by
  rcases hs with ⟨hbuffer, hdone, hemitted⟩
  have hline : statusLineOf r.header = r.statusLine :=
    statusLineOf_lines (statusLine_oneLine r) r.fields
  have hstatus : r.status ≠ 101 := r.rejects
  have hcomplete : (config node accept mask endCloses).bodyComplete got r.header.length =
      !awaitsBody (headersOf r.header) (got.drop (r.header.length + 4)) := by
    simp only [config, rejectedUpgradeEvent_header r htake]
    cases awaitsBody (headersOf r.header) (got.drop (r.header.length + 4)) <;> rfl
  simp only [emitRejectedUpgrade, hbuffer, hdone, hemitted, hend, htake, hline,
    rejectedUpgradeStatus_statusLine, hcomplete]
  cases awaitsBody (headersOf r.header) (got.drop (r.header.length + 4)) <;>
    cases finalizePartial <;> simp [hstatus]

/-- Once the event has been emitted it is not emitted again. -/
theorem emitRejectedUpgrade_again {c : Config} {s : State} (h : s.upgradeFailureEmitted = true)
    (finalizePartial : Bool) : emitRejectedUpgrade c s finalizePartial = (s, true) := by
  rw [emitRejectedUpgrade, if_pos h]

theorem onResponse_rejected {s : State} (hline : statusLineOf (s.rxBuffer.take r.header.length) =
      r.statusLine) :
    onResponse (config node accept mask endCloses) s r.header.length =
      let rejected := emitRejectedUpgrade (config node accept mask endCloses) s false
      if rejected.2 then abandon (config node accept mask endCloses) rejected.1
      else rejected.1 := by
  simp only [onResponse, hline, upgrade_rejected]

theorem receive_waiting {got chunk rest : Bytes} (h : got ++ chunk ++ rest = r.bytes) :
    receive (config node accept mask endCloses) (waiting got) chunk = waiting (got ++ chunk) ∨
      (rest = [] ∧ Emitted r (receive (config node accept mask endCloses) (waiting got) chunk)) := by
  have hreceive : receive (config node accept mask endCloses) (waiting got) chunk =
      onData (config node accept mask endCloses) (waiting got) chunk := rfl
  have hline : statusLineOf r.header = r.statusLine :=
    statusLineOf_lines (statusLine_oneLine r) r.fields
  rw [hreceive]
  rcases header_arrived r h with hnone | ⟨hend, htake, hsent⟩
  · left
    exact onData_waiting _ rfl hnone
  · have hdata : onData (config node accept mask endCloses) (waiting got) chunk =
        onResponse (config node accept mask endCloses) (waiting (got ++ chunk)) r.header.length :=
      onData_header _ rfl hend
    have hrejected := emitRejectedUpgrade_header r node accept mask endCloses hend htake false
      (s := waiting (got ++ chunk)) ⟨rfl, rfl, rfl⟩
    rw [hdata, onResponse_rejected r node accept mask endCloses
      (s := waiting (got ++ chunk)) (htake.symm ▸ hline), hrejected]
    cases hawaits : awaitsBody (headersOf r.header) ((got ++ chunk).drop (r.header.length + 4)) with
    | true =>
        left
        rfl
    | false =>
        -- the body is complete, and so nothing is left to come
        have hrest : rest = [] := by
          by_contra hmore
          rw [awaitsBody_part r hsent hmore] at hawaits
          cases hawaits
        right
        rw [hrest, List.append_nil] at h
        refine ⟨hrest, ?_, ?_, ?_, ?_⟩
        · exact h
        · rfl
        · rfl
        · rw [← h]
          rfl

theorem Emitted.receive_nil {s : State} (h : Emitted r s) :
    Emitted r (receive (config node accept mask endCloses) s []) := by
  unfold receive
  split
  · exact h
  · rcases header_bytes r with ⟨hend, htake, -⟩
    have hbuffer : s.rxBuffer ++ [] = r.bytes := by rw [List.append_nil, h.buffer]
    have hline : statusLineOf r.header = r.statusLine :=
      statusLineOf_lines (statusLine_oneLine r) r.fields
    have hagain := emitRejectedUpgrade_again (c := config node accept mask endCloses)
      (s := { s with rxBuffer := r.bytes }) h.emitted false
    rw [onData_header _ h.waiting (hbuffer ▸ hend), hbuffer,
      onResponse_rejected r node accept mask endCloses (htake.symm ▸ hline), hagain]
    exact ⟨rfl, h.waiting, h.emitted, h.outputs⟩

/-- By induction on the chunks: the client waits, or the whole response has come. -/
theorem received {got : Bytes} {chunks : List Bytes} (h : got ++ chunks.flatten = r.bytes) :
    let s := chunks.foldl (receive (config node accept mask endCloses)) (waiting got)
    s = waiting r.bytes ∨ Emitted r s := by
  induction chunks generalizing got with
  | nil =>
      left
      rw [List.flatten_nil, List.append_nil] at h
      rw [List.foldl_nil, h]
  | cons chunk chunks ih =>
      rw [List.flatten_cons, ← List.append_assoc] at h
      rcases receive_waiting r node accept mask endCloses h with hwaits | ⟨hrest, hemitted⟩
      · rw [List.foldl_cons, hwaits]
        exact ih h
      · right
        have hempty : ∀ more ∈ chunks, more = [] := List.flatten_eq_nil_iff.mp hrest
        rw [List.foldl_cons]
        generalize receive (config node accept mask endCloses) (waiting got) chunk = s at hemitted
        clear h ih hrest
        induction chunks generalizing s with
        | nil => exact hemitted
        | cons more chunks ih =>
            rw [List.foldl_cons, hempty more List.mem_cons_self]
            apply ih
            · exact fun later hlater => hempty later (List.mem_cons_of_mem more hlater)
            · exact hemitted.receive_nil r node accept mask endCloses

theorem Emitted.onSocketClose {s : State} (h : Emitted r s) :
    Emitted r (onSocketClose (config node accept mask endCloses) s) := by
  unfold RawWs.onSocketClose
  split
  · exact h
  · have hagain := emitRejectedUpgrade_again (c := config node accept mask endCloses)
      (s := { s with socketClosed := true }) h.emitted true
    simp only
    rw [if_neg (config_client node accept mask endCloses), hagain]
    exact ⟨h.buffer, h.waiting, h.emitted, h.outputs⟩

theorem Emitted.onSocketError {s : State} (h : Emitted r s) (message : Units) :
    Emitted r (Closing.onSocketError (config node accept mask endCloses) s message) := by
  have hagain := emitRejectedUpgrade_again (c := config node accept mask endCloses)
    (s := { s with
      destroyed := s.destroyed || (config node accept mask endCloses).client ≠ .bun })
    h.emitted true
  unfold Closing.onSocketError
  simp only
  rw [if_neg (config_client node accept mask endCloses), hagain]
  exact ⟨h.buffer, h.waiting, h.emitted, h.outputs⟩

theorem emitted_end : Emitted r
      (onSocketClose (config node accept mask endCloses) (waiting r.bytes)) ∧
    ∀ message, Emitted r
      (Closing.onSocketError (config node accept mask endCloses) (waiting r.bytes) message) := by
  rcases header_bytes r with ⟨hend, htake, -⟩
  have hpi := config_client node accept mask endCloses
  constructor
  · have hrejected := emitRejectedUpgrade_header r node accept mask endCloses hend htake true
      (s := { waiting r.bytes with socketClosed := true }) ⟨rfl, rfl, rfl⟩
    rw [if_pos (.inl rfl)] at hrejected
    unfold onSocketClose
    rw [if_neg (by exact fun h => by cases h)]
    simp only
    rw [if_neg hpi, hrejected]
    exact ⟨rfl, rfl, rfl, rfl⟩
  · intro message
    have hrejected := emitRejectedUpgrade_header r node accept mask endCloses hend htake true
      (s := { waiting r.bytes with
        destroyed := (waiting r.bytes).destroyed ||
          (config node accept mask endCloses).client ≠ .bun }) ⟨rfl, rfl, rfl⟩
    rw [if_pos (.inl rfl)] at hrejected
    unfold Closing.onSocketError
    simp only
    rw [if_neg hpi, hrejected]
    exact ⟨rfl, rfl, rfl, rfl⟩

/-- However the response is cut and however the connection ends, what is emitted is one
event, of the whole response. -/
theorem outcome_outputs {chunks : List Bytes} (hcut : chunks.flatten = r.bytes) (ending : Ending) :
    outcome (config node accept mask endCloses) chunks ending = [.rejected r.status r.bytes] := by
  have hall : [] ++ chunks.flatten = r.bytes := hcut
  have hreceived := received r node accept mask endCloses hall
  have hend := emitted_end r node accept mask endCloses
  have hstart : waiting [] = State.start := rfl
  rw [hstart] at hreceived
  apply Emitted.outputs (r := r)
  cases ending with
  | closed =>
      rcases hreceived with hwaits | hemitted
      · rw [ended, hwaits]
        exact hend.1
      · exact hemitted.onSocketClose r node accept mask endCloses
  | failed message closes =>
      have herror : Emitted r (Closing.onSocketError (config node accept mask endCloses)
          (chunks.foldl (receive (config node accept mask endCloses)) .start) message) := by
        rcases hreceived with hwaits | hemitted
        · rw [hwaits]
          exact hend.2 message
        · exact hemitted.onSocketError r node accept mask endCloses message
      cases closes with
      | true => exact herror.onSocketClose r node accept mask endCloses
      | false => exact herror

end

/-! ## Chunked bodies -/

theorem decode_ascii {c : Nat} (h : c < 128) (rest : Bytes) :
    Utf8.decode (c :: rest) = c :: Utf8.decode rest := by
  have hstep : Utf8.Decoder.start.step c = (.start, [c]) := if_pos h
  simp only [Utf8.decode, Utf8.Decoder.feed, hstep]
  rfl

/-- A text that begins with neither bracket is no object. -/
theorem parse_scalar {c : Nat} {rest : Units} {value : Parse.Value} (hwhite : Parse.isWhite c = false)
    (hbrace : c ≠ 123) (hbracket : c ≠ 91) (hparse : Parse.parse (c :: rest) = some value) :
    isRecord value = false := by
  unfold Parse.parse at hparse
  rcases Option.bind_eq_some_iff.mp hparse with ⟨tokens, hlex, hrun⟩
  rcases Option.bind_eq_some_iff.mp hrun with ⟨last, hlast, hfinished⟩
  rw [Parse.lex, Parse.lexFrom, if_neg (by rw [hwhite]; decide)] at hlex
  rcases Option.bind_eq_some_iff.mp hlex with ⟨token, htoken, hmore⟩
  rcases Option.bind_eq_some_iff.mp hmore with ⟨more, -, htokens⟩
  have hleads := (Parse.tokenAt_leads htoken).1
  rw [← Option.some.inj htokens, Parse.run] at hlast
  rcases Option.bind_eq_some_iff.mp hlast with ⟨next, hnext, hafter⟩
  -- a scalar is the whole text
  have hscalar : ∀ v, next = .after [] v → isRecord v = false → isRecord value = false := by
    intro v hv hnot
    rw [hv] at hafter
    cases more with
    | nil =>
        rw [← Option.some.inj hafter] at hfinished
        rw [← Option.some.inj hfinished]
        exact hnot
    | cons token more =>
        cases token <;> cases hafter
  cases token with
  | beginObject => exact absurd (List.cons_prefix_cons.mp hleads).1.symm hbrace
  | beginArray => exact absurd (List.cons_prefix_cons.mp hleads).1.symm hbracket
  | null => exact hscalar .null (Option.some.inj hnext).symm rfl
  | bool b => exact hscalar (.bool b) (Option.some.inj hnext).symm rfl
  | number fields => exact hscalar (.number fields) (Option.some.inj hnext).symm rfl
  | string body =>
      rcases Option.map_eq_some_iff.mp hnext with ⟨text, -, hstate⟩
      exact hscalar (.string text) hstate.symm rfl
  | endArray => cases hnext
  | endObject => cases hnext
  | comma => cases hnext
  | colon => cases hnext

/-- A hexadecimal digit comes first. -/
theorem Chunked.bytes_cons (coded : Chunked) :
    ∃ c rest, coded.bytes = c :: rest ∧ (Units.hexValue c).isSome := by
  cases hchunks : coded.chunks with
  | nil =>
      cases hlast : coded.last with
      | nil => exact absurd hlast coded.zero.1
      | cons c rest =>
          have hzero : c = 48 := coded.zero.2 c (hlast ▸ List.mem_cons_self)
          refine ⟨c, rest ++ (coded.extension ++ crlf ++
            (coded.trailers.flatMap fun field => field.line ++ crlf) ++ crlf), ?_, ?_⟩
          · simp [bytes, hchunks, hlast]
          · rw [hzero]
            rfl
  | cons chunk chunks =>
      cases hsize : chunk.size with
      | nil => exact absurd hsize chunk.hexadecimal.1
      | cons c rest =>
          refine ⟨c, rest ++ (chunk.extension ++ crlf ++ chunk.data ++ crlf ++
            chunks.flatMap Chunk.bytes ++ coded.last ++ coded.extension ++ crlf ++
            (coded.trailers.flatMap fun field => field.line ++ crlf) ++ crlf), ?_, ?_⟩
          · simp [bytes, Chunk.bytes, hchunks, hsize]
          · exact chunk.hexadecimal.2 c (hsize ▸ List.mem_cons_self)

/-- The bytes of chunked coding are no JSON object. -/
theorem parse_chunked (coded : Chunked) : errorIn coded.bytes = none := by
  rcases coded.bytes_cons with ⟨c, rest, hbytes, hhex⟩
  have hbounds : 48 ≤ c ∧ c ≤ 57 ∨ 65 ≤ c ∧ c ≤ 70 ∨ 97 ≤ c ∧ c ≤ 102 := by
    unfold Units.hexValue at hhex
    split at hhex
    · omega
    · split at hhex
      · omega
      · split at hhex
        · omega
        · cases hhex
  have hwhite : Parse.isWhite c = false := by
    simp only [Parse.isWhite, Bool.or_eq_false_iff, decide_eq_false_iff_not]
    omega
  have hfilter : (Parse.parse (Utf8.decode coded.bytes)).filter isRecord = none := by
    rw [hbytes, decode_ascii (by omega)]
    cases hparse : Parse.parse (c :: Utf8.decode rest) with
    | none => rfl
    | some value =>
        have hnot := parse_scalar hwhite (by omega) (by omega) hparse
        simp [hnot]
  rw [errorIn, hfilter]
  rfl

/-! ## What is recognised -/

theorem recognised_outcome (r : Response) (node : Bool) (accept : Units) (mask : Nat → Nat → Nat)
    (endCloses : Bool) {chunks : List Bytes} (hcut : chunks.flatten = r.bytes) (ending : Ending) :
    Recognised r (outcome (config node accept mask endCloses) chunks ending) ↔
      ∀ error, errorIn r.body = some error → errorIn r.sent = some error := by
  rw [outcome_outputs r node accept mask endCloses hcut ending]
  constructor
  · rintro ⟨buffer, event, houtputs, hevent, -, herror⟩
    have hone : [Output.rejected r.status r.bytes] = [.rejected r.status buffer] := houtputs
    have hbuffer : r.bytes = buffer := (Output.rejected.inj (List.cons.inj hone).1).2
    rw [← hbuffer, eventOf_bytes, Option.some.injEq] at hevent
    rw [← hevent] at herror
    exact herror
  · intro herror
    exact ⟨r.bytes, _, rfl, eventOf_bytes r, rfl, herror⟩

/-- A rejecting response is recognised, whatever its framing, its chunks and the end of
the connection, exactly if its body is not chunked or has no error in it. -/
theorem recognised_iff (r : Response) (node : Bool) (accept : Units) (mask : Nat → Nat → Nat)
    (endCloses : Bool) (chunks : List Bytes) (hcut : chunks.flatten = r.bytes) (ending : Ending) :
    Recognised r (outcome (config node accept mask endCloses) chunks ending) ↔
      ¬ (r.Chunks ∧ errorIn r.body ≠ none) := by
  rw [recognised_outcome r node accept mask endCloses hcut ending]
  constructor
  · rintro hsame ⟨⟨coded, hcoded⟩, hbody⟩
    rcases Option.ne_none_iff_exists'.mp hbody with ⟨error, herror⟩
    have hsent := hsame error herror
    rw [Response.sent, hcoded] at hsent
    simp only [parse_chunked coded] at hsent
    cases hsent
  · intro hnot error herror
    cases hframing : r.framing with
    | length =>
        rw [Response.sent, hframing]
        exact herror
    | close =>
        rw [Response.sent, hframing]
        exact herror
    | chunked coded =>
        refine absurd ⟨⟨coded, hframing⟩, ?_⟩ hnot
        rw [herror]
        exact fun h => by cases h

/-! A refusal for a usage limit, in two framings. -/

def limitBody : Bytes :=
  Units.of "\x7b\"error\":\x7b\"type\":\"usage_limit_reached\"\x7d\x7d"

def limitLength : HeaderField where
  name := Units.of "Content-Length"
  value := Units.of " 40"
  named := by decide
  oneLine := by decide

def limitEncoding : HeaderField where
  name := Units.of "transfer-encoding"
  value := Units.of " chunked"
  named := by decide
  oneLine := by decide

def limitReason : Units := Units.of "Too Many Requests"

def limit : Response where
  code := Units.of "429"
  reason := limitReason
  fields := [limitLength]
  body := limitBody
  framing := .length
  numbered := by decide
  rejects := by decide
  oneLine := by decide
  tokens := by unfold isToken; decide
  framed := by
    refine ⟨by decide, by decide, ?_⟩
    intro field hfield
    have hfield' : field = limitLength := List.mem_singleton.mp (List.mem_of_mem_filter hfield)
    exact ⟨Units.of "40", ⟨[32], [], by decide, hfield' ▸ rfl⟩, by decide, by decide, by decide⟩
  fits := by decide

def limitChunk : Chunk where
  size := Units.of "28"
  extension := []
  data := limitBody
  hexadecimal := by decide
  sized := by decide
  full := by decide
  marked := by decide

def limitCoded : Chunked where
  chunks := [limitChunk]
  last := Units.of "0"
  extension := []
  trailers := []
  zero := by decide
  marked := by decide

def limitChunked : Response where
  code := Units.of "429"
  reason := limitReason
  fields := [limitEncoding]
  body := limitBody
  framing := .chunked limitCoded
  numbered := by decide
  rejects := by decide
  oneLine := by decide
  tokens := by unfold isToken; decide
  framed := by
    refine ⟨by decide, by decide, ?_, by decide⟩
    intro field hfield
    have hfield' : field = limitEncoding := List.mem_singleton.mp (List.mem_of_mem_filter hfield)
    exact ⟨Units.of "chunked", ⟨[32], [], by decide, hfield' ▸ rfl⟩, by decide⟩
  fits := by decide

theorem recognised_limit :
    Recognised limit (outcome (config true [] (fun _ _ => 0) false)
      [limit.bytes.take 60, limit.bytes.drop 60] (.failed [] true)) := by
  have hcut : [limit.bytes.take 60, limit.bytes.drop 60].flatten = limit.bytes := by
    rw [List.flatten_cons, List.flatten_cons, List.flatten_nil, List.append_nil,
      List.take_append_drop]
  apply (recognised_iff limit true [] (fun _ _ => 0) false _ hcut (.failed [] true)).mpr
  rintro ⟨⟨coded, hcoded⟩, -⟩
  cases hcoded

/-- The same refusal, chunked, is not recognised. -/
theorem not_recognised_chunked :
    ¬ Recognised limitChunked (outcome (config true [] (fun _ _ => 0) false)
      [limitChunked.bytes] .closed) := by
  rw [recognised_outcome limitChunked true [] (fun _ _ => 0) false (List.append_nil _) .closed]
  intro hsame
  have hbody : (errorIn limitBody).isSome = true := by decide +kernel
  rcases Option.isSome_iff_exists.mp hbody with ⟨error, herror⟩
  have hsent := hsame error herror
  rw [Response.sent] at hsent
  simp only [limitChunked, parse_chunked limitCoded] at hsent
  cases hsent

end RawWs.Upgrade
