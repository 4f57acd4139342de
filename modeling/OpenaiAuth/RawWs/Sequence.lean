import OpenaiAuth.RawWs.Client

/-! # Sequences of frames

What a server may send after the upgrade: messages in any number of fragments,
with control frames between the messages and between the fragments, a message
that stays unfinished, and a close. A sequence also says what a client owes to
its listeners and to the server.

Main result: `closed_events` - after the frames and the end of the socket a
client has emitted what the sequence says, and Pi's client one close more if
the server sent one.
-/

namespace RawWs

open Js Js.Utf8

/-! ## Frames of a server -/

structure Fragment where
  form : LengthForm
  payload : Bytes
  fits : form.Fits payload.length

inductive Control where
  | ping (payload : Bytes) (short : payload.length < 126)
  | pong (payload : Bytes) (short : payload.length < 126)

def Control.wire : Control → WireFrame
  | .ping payload short => ⟨.short, ⟨true, 0x9, payload⟩, by simp, short⟩
  | .pong payload short => ⟨.short, ⟨true, 0xa, payload⟩, by simp, short⟩

inductive Kind where
  | text
  | binary
deriving DecidableEq, Repr

def Kind.opcode : Kind → Nat
  | .text => 0x1
  | .binary => 0x2

theorem Kind.opcode_lt (kind : Kind) : kind.opcode < 16 := by cases kind <;> decide

/-- The fragments of a message; control frames come before each but the first. -/
structure Fragmented where
  kind : Kind
  first : Fragment
  more : List (List Control × Fragment)

def Fragmented.payload (f : Fragmented) : Bytes :=
  f.first.payload ++ f.more.flatMap fun part => part.2.payload

def Fragmented.controls (f : Fragmented) : List Control := f.more.flatMap Prod.fst

/-- The continuation frames; the last one is final if the message is finished. -/
def continued (finished : Bool) : List (List Control × Fragment) → List WireFrame
  | [] => []
  | part :: rest => part.1.map Control.wire ++
      ⟨part.2.form, ⟨finished && rest.isEmpty, 0x0, part.2.payload⟩, Nat.zero_lt_succ 15, part.2.fits⟩ ::
        continued finished rest

def Fragmented.wire (f : Fragmented) (finished : Bool) : List WireFrame :=
  ⟨f.first.form, ⟨finished && f.more.isEmpty, f.kind.opcode, f.first.payload⟩, f.kind.opcode_lt,
    f.first.fits⟩ :: continued finished f.more

/-- A text message is the UTF-8 form of a text. -/
structure Message where
  fragments : Fragmented
  text : List Char
  utf8 : fragments.kind = .text → fragments.payload = textBytes text

inductive Part where
  | control (c : Control)
  | message (m : Message)

/-- A message that is not finished, and control frames after its last fragment. -/
structure Unfinished where
  fragments : Fragmented
  after : List Control

/-- A close frame has a code and a reason, or nothing. -/
structure CloseFrame where
  content : Option (Nat × List Char)
  code : ∀ close, content = some close → close.1 < 65536
  short : ∀ close, content = some close → (textBytes close.2).length + 2 < 126

def CloseFrame.payload (close : CloseFrame) : Bytes :=
  match close.content with
  | some (code, reason) => code / 256 :: code % 256 :: textBytes reason
  | none => []

theorem CloseFrame.payload_short (close : CloseFrame) : close.payload.length < 126 := by
  unfold payload
  split
  · rename_i code reason hcontent
    exact close.short _ hcontent
  · decide

def CloseFrame.wire (close : CloseFrame) : WireFrame :=
  ⟨.short, ⟨true, 0x8, close.payload⟩, by simp, close.payload_short⟩

/-- What a server sends: nothing follows a close. -/
structure Sequence where
  parts : List Part
  unfinished : Option Unfinished
  close : Option CloseFrame

def Part.wire : Part → List WireFrame
  | .control c => [c.wire]
  | .message m => m.fragments.wire true

def Unfinished.wire (u : Unfinished) : List WireFrame :=
  u.fragments.wire false ++ u.after.map Control.wire

def Sequence.wire (seq : Sequence) : List WireFrame :=
  seq.parts.flatMap Part.wire ++ seq.unfinished.elim [] Unfinished.wire ++
    (seq.close.map CloseFrame.wire).toList

/-! ## What a client owes -/

/-- A ping is echoed. -/
def Control.events : Control → List Event
  | .ping payload _ => [.sent (some ⟨true, 0xa, payload⟩)]
  | .pong _ _ => []

def Part.events : Part → List Event
  | .control c => c.events
  | .message m => m.fragments.controls.flatMap Control.events ++
      if m.fragments.kind = .text then [.message (textUnits m.text)] else []

def Unfinished.events (u : Unfinished) : List Event :=
  (u.fragments.controls ++ u.after).flatMap Control.events

def CloseFrame.event (close : CloseFrame) : Event :=
  match close.content with
  | some (code, reason) => .close code (textUnits reason)
  | none => .close 1005 []

/-- One close: the server's, or that of the socket. -/
def Sequence.events (seq : Sequence) : List Event :=
  seq.parts.flatMap Part.events ++ seq.unfinished.elim [] Unfinished.events ++
    [seq.close.elim (.close 1006 socketClosedReason) CloseFrame.event]

/-! ## What handling a frame adds -/

/-- The events are added, and the connection is not closed by it. -/
structure Adds (s s' : State) (events : List Event) : Prop where
  events : s'.events = s.events ++ events
  closing : s'.peerClose = s.peerClose ∧ s'.closeEmitted = s.closeEmitted ∧
    s'.socketClosed = s.socketClosed

theorem Adds.refl (s : State) : Adds s s [] := ⟨(List.append_nil _).symm, rfl, rfl, rfl⟩

theorem Adds.trans {s t u : State} {a b : List Event} (h : Adds s t a) (h' : Adds t u b) :
    Adds s u (a ++ b) := by
  refine ⟨by rw [h'.events, h.events, List.append_assoc], ?_, ?_, ?_⟩
  · exact h'.closing.1.trans h.closing.1
  · exact h'.closing.2.1.trans h.closing.2.1
  · exact h'.closing.2.2.trans h.closing.2.2

theorem handled_append (c : Config) (s : State) (a b : List WireFrame) :
    handled c s (a ++ b) = handled c (handled c s a) b := List.foldl_append

/-- A control frame touches no fragments. -/
theorem control_adds (c : Config) (s : State) (control : Control) :
    Adds s (handleFrame c s control.wire.frame) control.events ∧
      (handleFrame c s control.wire.frame).fragOpcode = s.fragOpcode ∧
      (handleFrame c s control.wire.frame).fragChunks = s.fragChunks := by
  cases control with
  | ping payload short =>
      have hlen : payload.length < 2 ^ 63 := by omega
      have hread := readClientFrame_writeFrame (c.mask s.written) (show 0xa < 16 by decide) hlen
      refine ⟨⟨?_, rfl, rfl, rfl⟩, rfl, rfl⟩
      change ({ s with written := s.written + 1 }.emit
        (.write (writeFrame (c.mask s.written) 0xa payload))).events = _
      rw [events_emit, observe, hread]
      rfl
  | pong payload short => exact ⟨Adds.refl s, rfl, rfl⟩

theorem controls_adds (c : Config) (s : State) (controls : List Control) :
    Adds s (handled c s (controls.map Control.wire)) (controls.flatMap Control.events) ∧
      (handled c s (controls.map Control.wire)).fragOpcode = s.fragOpcode ∧
      (handled c s (controls.map Control.wire)).fragChunks = s.fragChunks := by
  induction controls generalizing s with
  | nil => exact ⟨Adds.refl s, rfl, rfl⟩
  | cons control controls ih =>
      rcases control_adds c s control with ⟨hadds, hopcode, hchunks⟩
      rcases ih (handleFrame c s control.wire.frame) with ⟨hadds', hopcode', hchunks'⟩
      exact ⟨hadds.trans hadds', hopcode'.trans hopcode, hchunks'.trans hchunks⟩

/-- What the last fragment of a message emits. -/
def messageEvents (opcode : Nat) (payload : Bytes) : List Event :=
  if opcode = 0x1 then [.message (decode payload)] else []

/-- A fragment that is not the last is gathered. -/
theorem gathered_adds (c : Config) (s : State) (payload : Bytes) :
    Adds s (handleFrame c s ⟨false, 0x0, payload⟩) [] ∧
      (handleFrame c s ⟨false, 0x0, payload⟩).fragOpcode = s.fragOpcode ∧
      (handleFrame c s ⟨false, 0x0, payload⟩).fragChunks = s.fragChunks ++ [payload] :=
  ⟨⟨(List.append_nil _).symm, rfl, rfl, rfl⟩, rfl, rfl⟩

theorem opened_adds (c : Config) (s : State) (kind : Kind) (payload : Bytes) :
    Adds s (handleFrame c s ⟨false, kind.opcode, payload⟩) [] ∧
      (handleFrame c s ⟨false, kind.opcode, payload⟩).fragOpcode = kind.opcode ∧
      (handleFrame c s ⟨false, kind.opcode, payload⟩).fragChunks = [payload] := by
  cases kind <;> exact ⟨⟨(List.append_nil _).symm, rfl, rfl, rfl⟩, rfl, rfl⟩

theorem first_adds (c : Config) (s : State) (kind : Kind) (payload : Bytes) :
    Adds s (handleFrame c s ⟨true, kind.opcode, payload⟩) (messageEvents kind.opcode payload) := by
  cases kind with
  | text =>
      have hone : [payload].flatten = payload := List.append_nil payload
      refine ⟨?_, rfl, rfl, rfl⟩
      change ({ s with fragOpcode := 1, fragChunks := [] }.emit
        (.message (decode [payload].flatten))).events = _
      rw [events_emit, hone]
      rfl
  | binary => exact ⟨(List.append_nil _).symm, rfl, rfl, rfl⟩

theorem last_adds (c : Config) (s : State) (payload : Bytes) :
    Adds s (handleFrame c s ⟨true, 0x0, payload⟩)
      (messageEvents s.fragOpcode (s.fragChunks.flatten ++ payload)) := by
  have hjoin : (s.fragChunks ++ [payload]).flatten = s.fragChunks.flatten ++ payload := by simp
  unfold messageEvents
  by_cases htext : s.fragOpcode = 0x1
  · have hframe : handleFrame c s ⟨true, 0x0, payload⟩ = { s with fragChunks := [] }.emit
        (.message (decode (s.fragChunks ++ [payload]).flatten)) := by
      simp [handleFrame, handleData, htext]
    rw [hframe, if_pos htext, hjoin]
    exact ⟨events_emit _ _, rfl, rfl, rfl⟩
  · have hframe : handleFrame c s ⟨true, 0x0, payload⟩ = { s with fragChunks := [] } := by
      simp [handleFrame, handleData, htext]
    rw [hframe, if_neg htext]
    exact ⟨(List.append_nil _).symm, rfl, rfl, rfl⟩

/-- The rest of a message that is finished. By induction on its fragments, over the
state that has gathered those before. -/
theorem continued_adds (c : Config) (s : State) {more : List (List Control × Fragment)}
    (hmore : more ≠ []) : Adds s (handled c s (continued true more))
      ((more.flatMap Prod.fst).flatMap Control.events ++ messageEvents s.fragOpcode
        (s.fragChunks.flatten ++ more.flatMap fun part => part.2.payload)) := by
  induction more generalizing s with
  | nil => exact absurd rfl hmore
  | cons part rest ih =>
      rcases controls_adds c s part.1 with ⟨hcontrols, hopcode, hchunks⟩
      rw [continued, handled_append, List.flatMap_cons, List.flatMap_append, List.flatMap_cons]
      cases rest with
      | nil =>
          have hlast := last_adds c (handled c s (part.1.map Control.wire)) part.2.payload
          rw [hopcode, hchunks] at hlast
          have hboth := hcontrols.trans hlast
          simpa [handled, continued] using hboth
      | cons next rest =>
          rcases gathered_adds c (handled c s (part.1.map Control.wire)) part.2.payload with
            ⟨hgathered, hopcode', hchunks'⟩
          have htail := ih (handleFrame c (handled c s (part.1.map Control.wire))
            ⟨false, 0x0, part.2.payload⟩) (by simp)
          rw [hopcode', hopcode, hchunks', hchunks] at htail
          have hall := (hcontrols.trans hgathered).trans htail
          simpa [handled] using hall

/-- A message that stays unfinished emits no message. -/
theorem unfinished_adds (c : Config) (s : State) (more : List (List Control × Fragment)) :
    Adds s (handled c s (continued false more))
      ((more.flatMap Prod.fst).flatMap Control.events) := by
  induction more generalizing s with
  | nil => exact Adds.refl s
  | cons part rest ih =>
      have hcontrols := (controls_adds c s part.1).1
      have hgathered := (gathered_adds c (handled c s (part.1.map Control.wire)) part.2.payload).1
      have htail := ih (handleFrame c (handled c s (part.1.map Control.wire))
        ⟨false, 0x0, part.2.payload⟩)
      have hall := (hcontrols.trans hgathered).trans htail
      rw [continued, handled_append, List.flatMap_cons, List.flatMap_append]
      simpa [handled] using hall

theorem message_adds (c : Config) (s : State) (m : Message) :
    Adds s (handled c s (Part.message m).wire) (Part.message m).events := by
  have hevents : messageEvents m.fragments.kind.opcode m.fragments.payload =
      if m.fragments.kind = .text then [.message (textUnits m.text)] else [] := by
    have hutf8 := m.utf8
    cases hkind : m.fragments.kind with
    | text =>
        rw [hutf8 hkind, if_pos rfl, ← decode_textBytes]
        rfl
    | binary => rfl
  simp only [Part.wire, Part.events, Fragmented.wire, Fragmented.controls, ← hevents,
    Fragmented.payload]
  rcases m.fragments with ⟨kind, first, more⟩
  cases more with
  | nil => simpa [handled, continued] using first_adds c s kind first.payload
  | cons part rest =>
      rcases opened_adds c s kind first.payload with ⟨hopened, hopcode, hchunks⟩
      have htail := continued_adds c (handleFrame c s ⟨false, kind.opcode, first.payload⟩)
        (show part :: rest ≠ [] by simp)
      rw [hopcode, hchunks] at htail
      simpa [handled] using hopened.trans htail

theorem part_adds (c : Config) (s : State) (part : Part) :
    Adds s (handled c s part.wire) part.events := by
  cases part with
  | control control => exact (control_adds c s control).1
  | message m => exact message_adds c s m

theorem parts_adds (c : Config) (s : State) (parts : List Part) :
    Adds s (handled c s (parts.flatMap Part.wire)) (parts.flatMap Part.events) := by
  induction parts generalizing s with
  | nil => exact Adds.refl s
  | cons part parts ih =>
      rw [List.flatMap_cons, handled_append, List.flatMap_cons]
      exact (part_adds c s part).trans (ih (handled c s part.wire))

theorem open_adds (c : Config) (s : State) (unfinished : Option Unfinished) :
    Adds s (handled c s (unfinished.elim [] Unfinished.wire))
      (unfinished.elim [] Unfinished.events) := by
  cases unfinished with
  | none => exact Adds.refl s
  | some u =>
      simp only [Option.elim_some, Unfinished.wire, Unfinished.events, List.flatMap_append,
        handled_append, Fragmented.wire, Fragmented.controls]
      have hopened := (opened_adds c s u.fragments.kind u.fragments.first.payload).1
      have hmore := unfinished_adds c
        (handleFrame c s ⟨false, u.fragments.kind.opcode, u.fragments.first.payload⟩)
        u.fragments.more
      have hafter := (controls_adds c (handled c s (u.fragments.wire false)) u.after).1
      have hall := (hopened.trans hmore).trans hafter
      simpa [handled, Fragmented.wire] using hall

/-! ## Closing -/

/-- No close has been received or emitted. -/
structure Unclosed (s : State) : Prop where
  ready : Ready s
  peer : s.peerClose = none
  emitted : s.closeEmitted = false
  socket : s.socketClosed = false

theorem closeOf_payload (close : CloseFrame) :
    .close (closeOf close.payload).1 (closeOf close.payload).2 = close.event := by
  have hcode := close.code
  unfold CloseFrame.payload CloseFrame.event
  cases hcontent : close.content with
  | none => rfl
  | some content =>
      rcases content with ⟨code, reason⟩
      have hbound := hcode _ hcontent
      have hvalue : (code / 256) <<< 8 ||| code % 256 = code := by
        rw [← Nat.shiftLeft_add_eq_or_of_lt (by omega), Nat.shiftLeft_eq]
        omega
      simp only [closeOf, hvalue, decode_textBytes]

/-- The end of the socket without a close of the server. -/
theorem closed_without {c : Config} {s : State} (h : Unclosed s) :
    (onSocketClose c s).events = s.events ++ [.close 1006 socketClosedReason] := by
  rw [onSocketClose_ready h.ready, if_neg (by simp [h.socket])]
  by_cases hpi : c.client = .pi
  · simp [hpi, emitClose, State.emit, observe, State.events]
  · simp [hpi, emitClose, h.peer, h.emitted, State.emit, observe, State.events]

/-- A close frame is reported at once, whether or not `end` runs the close handler. -/
theorem handleClose_eq {c : Config} {s : State} (h : Unclosed s) (payload : Bytes) :
    handleClose c s payload =
      { s with
        readyState := 3
        peerClose := if c.client = Client.pi then none else some (closeOf payload)
        closeEmitted := c.client ≠ Client.pi
        socketClosed := c.client = Client.bun ∧ c.endCloses }.emit
          (.close (closeOf payload).1 (closeOf payload).2) := by
  have hready : Ready { s with
      readyState := 3
      peerClose := if c.client = .pi then none else some (closeOf payload) } :=
    ⟨h.ready.done, h.ready.accepted, h.ready.alive⟩
  simp only [handleClose]
  rw [onSocketClose_ready hready]
  cases hclient : c.client with
  | pi => simp [emitClose, hclient, State.emit, h.emitted, h.socket]
  | node => simp [emitClose, hclient, State.emit, h.emitted, h.socket]
  | bun =>
      cases hsync : c.endCloses with
      | false => simp [emitClose, hclient, State.emit, h.emitted, h.socket]
      | true => simp [emitClose, hclient, State.emit, h.emitted, h.socket]

/-- The server's close, and then the end of the socket: Pi's client emits both. -/
theorem closed_with {c : Config} {s : State} (h : Unclosed s) (close : CloseFrame) :
    (onSocketClose c (handleFrame c s close.wire.frame)).events =
      s.events ++ [close.event] ++
        if c.client = .pi then [.close 1006 socketClosedReason] else [] := by
  have hframe : handleFrame c s close.wire.frame = handleClose c s close.payload := rfl
  have hready := handleFrame_ready (c := c) h.ready close.wire.frame
  rw [hframe] at hready ⊢
  rw [onSocketClose_ready hready, handleClose_eq h, ← closeOf_payload close]
  cases hclient : c.client with
  | pi => simp [emitClose, hclient, State.emit, observe, State.events]
  | node => simp [emitClose, hclient, State.emit, observe, State.events]
  | bun =>
      cases hsync : c.endCloses with
      | false => simp [emitClose, hclient, State.emit, observe, State.events]
      | true => simp [State.emit, observe, State.events]

/-- What a client has emitted after the frames and the end of the socket. -/
theorem closed_events {c : Config} {s : State} (h : Unclosed s) (seq : Sequence) :
    (onSocketClose c (handled c s seq.wire)).events = s.events ++ seq.events ++
      if c.client = .pi ∧ seq.close.isSome then [.close 1006 socketClosedReason] else [] := by
  have hparts := parts_adds c s seq.parts
  have hopen := open_adds c (handled c s (seq.parts.flatMap Part.wire)) seq.unfinished
  have hall := hparts.trans hopen
  rw [← handled_append] at hall
  have hunclosed : Unclosed (handled c s (seq.parts.flatMap Part.wire ++
      seq.unfinished.elim [] Unfinished.wire)) :=
    ⟨handled_ready h.ready _, hall.closing.1.trans h.peer, hall.closing.2.1.trans h.emitted,
      hall.closing.2.2.trans h.socket⟩
  rw [Sequence.wire, handled_append, Sequence.events]
  cases hclose : seq.close with
  | none =>
      have hend := closed_without (c := c) hunclosed
      rw [hall.events] at hend
      simpa [handled] using hend
  | some close =>
      have hend := closed_with (c := c) hunclosed close
      rw [hall.events] at hend
      simpa [handled] using hend

end RawWs
