import OpenaiAuth.RawWs.Sequence

/-! # Whole connections

A response that switches protocols, a sequence of frames, and the end of the
socket. The bytes may be cut into chunks anywhere, for each client elsewhere.

Main results:

* `run_events`: what each client emits, where the header's first accept value is
  the expected one;
* `clients_emit_iff`: all three emit what the sequence says exactly if it is and
  the server sends no close: Pi's client reports the end of the socket after a
  close as well.
-/

namespace RawWs

open Js

/-! ## The response -/

/-- A header field; whitespace around the value belongs to it. -/
structure HeaderField where
  name : Units
  value : Units
  named : name ≠ []
  oneLine : ∀ c ∈ name ++ value, c ≠ 13 ∧ c ≠ 10

def HeaderField.line (field : HeaderField) : Units := field.name ++ 58 :: field.value

/-- A response that switches protocols and has the accept value in its field. -/
structure UpgradeResponse (accept : Units) where
  reason : Units
  oneLine : ∀ c ∈ reason, c ≠ 13 ∧ c ≠ 10
  fields : List HeaderField
  accepts : ∃ field ∈ fields, field.name.map Units.lower = Units.of "sec-websocket-accept" ∧
    ∃ before after, (∀ c ∈ before ++ after, c = 32 ∨ c = 9) ∧
      field.value = before ++ accept ++ after

namespace UpgradeResponse

variable {accept : Units}

def statusLine (response : UpgradeResponse accept) : Units :=
  Units.of "HTTP/1.1 101 " ++ response.reason

/-- The lines after the first, each with the line break before it. -/
def lines (fields : List HeaderField) : Units := fields.flatMap fun field => crlf ++ field.line

def header (response : UpgradeResponse accept) : Units :=
  response.statusLine ++ lines response.fields

def bytes (response : UpgradeResponse accept) : Bytes := response.header ++ (crlf ++ crlf)

end UpgradeResponse

/-! ## The header's end -/

theorem HeaderField.line_ne (field : HeaderField) : ∀ c ∈ field.line, c ≠ 13 := by
  intro c hc
  rw [HeaderField.line, List.mem_append, List.mem_cons] at hc
  rcases hc with hc | hc | hc
  · exact (field.oneLine c (List.mem_append_left _ hc)).1
  · rw [hc]
    decide
  · exact (field.oneLine c (List.mem_append_right _ hc)).1

theorem HeaderField.line_cons (field : HeaderField) : ∃ c rest, field.line = c :: rest ∧ c ≠ 13 := by
  have hne := field.line_ne
  rw [HeaderField.line] at hne ⊢
  cases hname : field.name with
  | nil => exact absurd hname field.named
  | cons c rest =>
      rw [hname] at hne
      exact ⟨c, _, rfl, hne c List.mem_cons_self⟩

/-- A line without a carriage return has no line break in it. -/
theorem not_crlf_in {line : Units} (hline : ∀ c ∈ line, c ≠ 13) {i : Nat} (hi : i < line.length)
    (more rest : Units) : ¬ (13 :: more) <+: (line ++ rest).drop i := by
  intro hleads
  rw [List.drop_append_of_le_length (by omega), List.drop_eq_getElem_cons hi, List.cons_append,
    List.cons_prefix_cons] at hleads
  exact hline _ (List.getElem_mem hi) hleads.1.symm

/-- The first empty line is the one that ends the header. By induction on the fields,
over the line before them. -/
theorem not_blank_in {line : Units} (hline : ∀ c ∈ line, c ≠ 13) (fields : List HeaderField)
    (rest : Units) {i : Nat} (hi : i < (line ++ UpgradeResponse.lines fields).length) :
    ¬ crlf ++ crlf <+: (line ++ UpgradeResponse.lines fields ++ (crlf ++ crlf) ++ rest).drop i := by
  induction fields generalizing line i with
  | nil =>
      simp only [UpgradeResponse.lines, List.flatMap_nil, List.append_nil] at hi ⊢
      rw [List.append_assoc]
      exact not_crlf_in hline hi _ _
  | cons field fields ih =>
      have htext : line ++ UpgradeResponse.lines (field :: fields) ++ (crlf ++ crlf) ++ rest =
          line ++ (13 :: 10 :: (field.line ++ UpgradeResponse.lines fields ++ (crlf ++ crlf) ++ rest)) := by
        simp [UpgradeResponse.lines, crlf]
      have hlen : (line ++ UpgradeResponse.lines (field :: fields)).length =
          line.length + 2 + (field.line ++ UpgradeResponse.lines fields).length := by
        simp [UpgradeResponse.lines, crlf]
        omega
      rw [htext]
      by_cases hbefore : i < line.length
      · exact not_crlf_in hline hbefore _ _
      · rw [List.drop_append, List.drop_eq_nil_of_le (by omega), List.nil_append]
        rcases field.line_cons with ⟨c, tail, hcons, hc⟩
        obtain hzero | hone | hmore : i - line.length = 0 ∨ i - line.length = 1 ∨
            2 ≤ i - line.length := by omega
        · -- the line break before the field
          rw [hzero, hcons]
          intro hleads
          simp [crlf] at hleads
          exact hc hleads.1.symm
        · rw [hone]
          intro hleads
          simp [crlf] at hleads
        · have hnext := ih field.line_ne (i := i - line.length - 2) (by omega)
          rw [show i - line.length = i - line.length - 2 + 1 + 1 by omega, List.drop_succ_cons,
            List.drop_succ_cons]
          exact hnext

/-- What has arrived has no header yet, or the whole header. -/
theorem headerEnd_cut {line : Units} (hline : ∀ c ∈ line, c ≠ 13) (fields : List HeaderField)
    {got rest wire : Bytes}
    (h : got ++ rest = line ++ UpgradeResponse.lines fields ++ (crlf ++ crlf) ++ wire) :
    (headerEnd got = none ∧ got.length < (line ++ UpgradeResponse.lines fields).length + 4) ∨
      (headerEnd got = some (line ++ UpgradeResponse.lines fields).length ∧
        got.take (line ++ UpgradeResponse.lines fields).length =
          line ++ UpgradeResponse.lines fields ∧
        got.drop ((line ++ UpgradeResponse.lines fields).length + 4) ++ rest = wire) := by
  have hnot : ∀ i < (line ++ UpgradeResponse.lines fields).length,
      ¬ crlf ++ crlf <+: (got ++ rest).drop i := by
    intro i hi
    rw [h]
    exact not_blank_in hline fields wire hi
  generalize line ++ UpgradeResponse.lines fields = header at h hnot
  have hlater : ∀ i ≤ got.length, crlf ++ crlf <+: got.drop i →
      crlf ++ crlf <+: (got ++ rest).drop i := by
    intro i hi hleads
    rw [List.drop_append_of_le_length hi]
    exact hleads.trans (List.prefix_append _ _)
  have hsize : (header ++ (crlf ++ crlf)).length = header.length + 4 := by
    rw [List.length_append]
    rfl
  by_cases hlen : header.length + 4 ≤ got.length
  · right
    have hwhole : header ++ (crlf ++ crlf) <+: got ++ rest := ⟨wire, h.symm⟩
    rcases List.prefix_of_prefix_length_le hwhole (List.prefix_append got rest)
      (by rw [hsize]; exact hlen) with ⟨more, hgot⟩
    rw [← hgot, List.append_assoc] at h
    have hsplit : got = header ++ (crlf ++ crlf ++ more) := by
      rw [← hgot, List.append_assoc]
    refine ⟨?_, ?_, ?_⟩
    · apply Units.indexOf_of_least
      · omega
      · rw [hsplit, List.drop_left]
        exact List.prefix_append _ _
      · intro i hi hleads
        exact hnot i hi (hlater i (by omega) hleads)
    · rw [hsplit, List.take_left]
    · rw [← hsize, ← hgot, List.drop_left]
      exact List.append_cancel_left h
  · left
    refine ⟨?_, by omega⟩
    cases hfind : headerEnd got with
    | none => rfl
    | some idx =>
        have hleads := (Units.indexOf_eq_some hfind).2.1
        have hfits := hleads.length_le
        rw [List.length_drop] at hfits
        have hfour : (crlf ++ crlf).length = 4 := rfl
        exact absurd (hlater idx (by omega) hleads) (hnot idx (by omega))

theorem statusLineOf_lines {line : Units} (hline : ∀ c ∈ line, c ≠ 13)
    (fields : List HeaderField) :
    statusLineOf (line ++ UpgradeResponse.lines fields) = line := by
  cases fields with
  | nil =>
      have hnone : Units.indexOf crlf line 0 = none := by
        cases hfind : Units.indexOf crlf line 0 with
        | none => rfl
        | some idx =>
            have hleads := (Units.indexOf_eq_some hfind).2.1
            have hmem : 13 ∈ line.drop idx := hleads.subset List.mem_cons_self
            exact absurd rfl (hline 13 (List.mem_of_mem_drop hmem))
      rw [UpgradeResponse.lines, List.flatMap_nil, List.append_nil, statusLineOf, hnone]
      exact List.take_length
  | cons first fields =>
      have hheader : line ++ UpgradeResponse.lines (first :: fields) = line ++
          (13 :: 10 :: (first.line ++ UpgradeResponse.lines fields)) := by
        simp [UpgradeResponse.lines, crlf]
      have hfind : Units.indexOf crlf (line ++ UpgradeResponse.lines (first :: fields)) 0 =
          some line.length := by
        rw [hheader]
        apply Units.indexOf_of_least
        · rw [List.length_append]
          omega
        · rw [List.drop_left]
          exact List.prefix_append [13, 10] _
        · intro i hi
          exact not_crlf_in hline hi _ _
      rw [statusLineOf, hfind, Option.getD_some, List.take_left]

section

variable {accept : Units} (response : UpgradeResponse accept)

theorem statusLine_ne : ∀ c ∈ response.statusLine, c ≠ 13 := by
  intro c hc
  rcases List.mem_append.mp hc with hc | hc
  · have hall : ∀ c ∈ Units.of "HTTP/1.1 101 ", c ≠ 13 := by decide
    exact hall c hc
  · exact (response.oneLine c hc).1

theorem headerEnd_arrived {got rest wire : Bytes} (h : got ++ rest = response.bytes ++ wire) :
    (headerEnd got = none ∧ got.length < response.bytes.length) ∨
      (headerEnd got = some response.header.length ∧
        got.take response.header.length = response.header ∧
        got.drop (response.header.length + 4) ++ rest = wire) := by
  have hsize : response.bytes.length = response.header.length + 4 := by
    rw [UpgradeResponse.bytes, List.length_append]
    rfl
  rw [hsize]
  exact headerEnd_cut (statusLine_ne response) response.fields h

theorem statusLineOf_header : statusLineOf response.header = response.statusLine :=
  statusLineOf_lines (statusLine_ne response) response.fields

/-- Every client takes the status line for a switch of protocols. -/
theorem upgrade_statusLine (client : Client) :
    client.upgrade response.statusLine = .switched := by
  have hstatus : rejectedUpgradeStatus response.statusLine = some 101 := rfl
  have hincludes : Units.includes response.statusLine (Units.of " 101") = true := by
    apply Units.includes_of_infix
    exact ⟨Units.of "HTTP/1.1", 32 :: response.reason, rfl⟩
  cases client with
  | pi => simp [Client.upgrade, hincludes]
  | bun => simp [Client.upgrade, hstatus]
  | node => simp [Client.upgrade, hstatus]

end

/-! ## Connections -/

/-- What the world decides for a client: the masks of its frames, whether `end` runs
Bun's close handler, and what is not part of a switch of protocols. -/
structure Environment where
  mask : Nat → Nat → Nat
  endCloses : Bool
  bodyComplete : Bytes → Nat → Bool

def Client.config (client : Client) (accept : Units) (environment : Environment) : Config :=
  { client := client, expectedAccept := accept, mask := environment.mask,
    endCloses := environment.endCloses, bodyComplete := environment.bodyComplete }

/-- The bytes that the server sends. -/
def streamOf {accept : Units} (response : UpgradeResponse accept) (seq : Sequence) : Bytes :=
  response.bytes ++ seq.wire.flatMap WireFrame.bytes

section

variable {accept : Units} {response : UpgradeResponse accept} {seq : Sequence}
  {client : Client} {environment : Environment}

/-- After the upgrade. -/
def State.opened : State :=
  { State.start with handshakeDone := true, readyState := 1 }.emit .opened

theorem unclosed_opened : Unclosed .opened := ⟨⟨rfl, rfl, rfl⟩, rfl, rfl, rfl⟩

/-- What the client has received is a part of the header: it waits, or opens. By
induction on the chunks. -/
theorem received_stream (haccept : acceptMatch response.header = some accept)
    {chunks : List Bytes} {got : Bytes} (hgot : got.length < response.bytes.length)
    (hbytes : got ++ chunks.flatten = streamOf response seq) :
    chunks.foldl (receive (client.config accept environment)) { State.start with rxBuffer := got } =
      { handled (client.config accept environment) .opened seq.wire with rxBuffer := [] } := by
  induction chunks generalizing got with
  | nil =>
      have hlen := congrArg List.length hbytes
      rw [streamOf, List.flatten_nil, List.append_nil, List.length_append] at hlen
      omega
  | cons chunk chunks ih =>
      rw [List.flatten_cons, ← List.append_assoc] at hbytes
      rw [List.foldl_cons]
      have hreceive : receive (client.config accept environment)
          { State.start with rxBuffer := got } chunk =
            onData (client.config accept environment) { State.start with rxBuffer := got } chunk :=
        rfl
      rw [hreceive]
      rcases headerEnd_arrived response hbytes with ⟨hnone, hlen⟩ | ⟨hsome, htake, hdrop⟩
      · rw [@onData_waiting _ { State.start with rxBuffer := got } _ rfl hnone]
        exact ih hlen hbytes
      · rw [@onData_header _ { State.start with rxBuffer := got } _ _ rfl hsome]
        have hopen : onResponse (client.config accept environment)
            { State.start with rxBuffer := got ++ chunk } response.header.length =
              receive (client.config accept environment) { State.opened with rxBuffer := [] }
                ((got ++ chunk).drop (response.header.length + 4)) := by
          have hclient : (client.config accept environment).client = client := rfl
          have hmatch : ¬ acceptMatch response.header ≠
              some (client.config accept environment).expectedAccept := fun hne => hne haccept
          simp only [onResponse, htake, statusLineOf_header, hclient, upgrade_statusLine]
          rw [if_neg hmatch]
          rfl
        simp only [hopen]
        rw [← List.foldl_cons]
        apply received_frames unclosed_opened.ready rfl
        rw [List.flatten_cons, List.nil_append]
        exact hdrop

/-- What a client emits. -/
theorem run_events (haccept : acceptMatch response.header = some accept) {chunks : List Bytes}
    (hbytes : chunks.flatten = streamOf response seq) :
    (run (client.config accept environment) chunks).events = .opened :: seq.events ++
      if client = .pi ∧ seq.close.isSome then [.close 1006 socketClosedReason] else [] := by
  have hgot : ([] : Bytes).length < response.bytes.length := by
    rw [UpgradeResponse.bytes, List.length_append]
    exact Nat.lt_of_lt_of_le (by decide) (Nat.le_add_left _ _)
  have hreceived := @received_stream accept response seq client environment haccept chunks [] hgot
    hbytes
  have hready := handled_ready (c := client.config accept environment) unclosed_opened.ready seq.wire
  have hclosed := closed_events (c := client.config accept environment) unclosed_opened seq
  rw [run]
  change (onSocketClose _ (chunks.foldl _ { State.start with rxBuffer := [] })).events = _
  rw [hreceived, onSocketClose_rxBuffer hready]
  exact hclosed

/-! ## Another accept value -/

theorem emit_silent {s : State} (h : .opened ∉ s.events) {output : Output}
    (houtput : observe output ≠ .opened) : .opened ∉ (s.emit output).events := by
  rw [events_emit, List.mem_append, List.mem_singleton]
  intro hor
  rcases hor with hin | heq
  · exact h hin
  · exact houtput heq.symm

theorem emitClose_silent {c : Config} {s : State} (h : .opened ∉ s.events) (code : Nat)
    (reason : Units) : .opened ∉ (emitClose c s code reason).events := by
  unfold emitClose
  split
  · exact emit_silent h (by simp [observe])
  · split
    · exact h
    · exact emit_silent (s := { s with closeEmitted := true }) h (by simp [observe])

theorem onSocketClose_silent {c : Config} {s : State} (h : .opened ∉ s.events) :
    .opened ∉ (onSocketClose c s).events := by
  have hrejected : .opened ∉ (emitRejectedUpgrade c { s with socketClosed := true } true).1.events := by
    unfold emitRejectedUpgrade
    split
    · exact h
    · split
      · exact h
      · split
        · exact h
        · split
          · exact h
          · split
            · apply emit_silent _ (by simp [observe])
              exact h
            · exact h
  unfold onSocketClose
  split
  · exact h
  · simp only
    split
    · apply emitClose_silent
      exact h
    · split
      · exact hrejected
      · apply emitClose_silent
        exact h

/-- A client that has not accepted the response. -/
structure Refused (response : UpgradeResponse accept) (seq : Sequence) (s : State) (rest : Bytes) :
    Prop where
  silent : .opened ∉ s.events
  waiting : s.handshakeDone = false
  bytes : s.destroyed = true ∨ s.rxBuffer ++ rest = streamOf response seq

theorem Refused.receive (haccept : acceptMatch response.header ≠ some accept) {s : State}
    {chunk rest : Bytes} (h : Refused response seq s (chunk ++ rest)) :
    Refused response seq (receive (client.config accept environment) s chunk) rest := by
  unfold RawWs.receive
  split
  · rename_i hdestroyed
    exact ⟨h.silent, h.waiting, Or.inl hdestroyed⟩
  · rename_i halive
    have hbytes : s.rxBuffer ++ chunk ++ rest = streamOf response seq := by
      rw [List.append_assoc]
      exact h.bytes.resolve_left halive
    rcases headerEnd_arrived response hbytes with ⟨hnone, -⟩ | ⟨hsome, htake, -⟩
    · rw [onData_waiting _ h.waiting hnone]
      exact ⟨h.silent, h.waiting, Or.inr hbytes⟩
    · rw [onData_header _ h.waiting hsome]
      have hclient : (client.config accept environment).client = client := rfl
      have hmatch : acceptMatch response.header ≠
          some (client.config accept environment).expectedAccept := haccept
      simp only [onResponse, htake, statusLineOf_header, hclient, upgrade_statusLine]
      rw [if_pos hmatch]
      refine ⟨?_, h.waiting, Or.inr hbytes⟩
      apply emit_silent _ (by simp [observe])
      exact h.silent

theorem Refused.receives (haccept : acceptMatch response.header ≠ some accept) {s : State}
    {chunks : List Bytes} (h : Refused response seq s chunks.flatten) :
    Refused response seq (chunks.foldl (RawWs.receive (client.config accept environment)) s) [] := by
  induction chunks generalizing s with
  | nil => exact h
  | cons chunk chunks ih =>
      rw [List.flatten_cons] at h
      exact ih (h.receive haccept)

end

def sampleAccept : Units := Units.of "s3pPLMBiTxaQ9kYGzzhZRbK+xOo="

def sampleResponse : UpgradeResponse sampleAccept where
  reason := Units.of "Switching Protocols"
  oneLine := by decide
  fields :=
    [⟨Units.of "Upgrade", Units.of " websocket", by decide, by decide⟩,
      ⟨Units.of "Connection", Units.of " Upgrade", by decide, by decide⟩,
      ⟨Units.of "Sec-WebSocket-Accept", 32 :: sampleAccept, by decide, by decide⟩]
  accepts := by
    refine ⟨_, List.mem_cons_of_mem _ (List.mem_cons_of_mem _ List.mem_cons_self), by decide, ?_⟩
    exact ⟨[32], [], by decide, by simp⟩

/-- A ping within a text of two fragments, and then perhaps a close with code 1009. -/
def sampleSequence (close : Option CloseFrame) : Sequence where
  parts := [.message
    { fragments :=
        { kind := .text, first := ⟨.short, [104], by decide⟩,
          more := [([.ping [1, 2] (by decide)], ⟨.medium, [105], by decide⟩)] }
      text := ['h', 'i']
      utf8 := by decide }]
  unfinished := none
  close := close

def tooBig : CloseFrame :=
  ⟨some (1009, []), by simp, by simp [Js.Utf8.textBytes]⟩

def sampleEnvironment : Environment :=
  { mask := fun frame i => frame + i, endCloses := true, bodyComplete := fun _ _ => true }

/-- The bytes one by one. -/
def singly (bytes : Bytes) : List Bytes := bytes.map fun byte => [byte]

end RawWs
