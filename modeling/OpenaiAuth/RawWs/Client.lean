import OpenaiAuth.Js.Parse
import OpenaiAuth.RawWs.Frame

/-! # WebSocket clients over raw sockets

The three `RawWebSocket` clients: OpenCode's over Bun's and Node's sockets, and
Pi's over Node's. They differ in how they judge the status line, in what ends a
failed socket, and in how a close is reported. A state holds what a client has
emitted and written, in order.

Main results, for each client:

* `drain_frames`: draining a buffer handles the frames that are complete;
* `received_frames`: however the bytes of some frames are cut into chunks, the
  client handles these frames one after another.
-/

namespace RawWs

open Js Js.Utf8

/-! ## Clients -/

inductive Client where
  | bun
  | node
  | pi
deriving DecidableEq, Repr

/-- What a connection is made with: the accept value, the masks of the frames it
writes, whether `end` runs Bun's close handler at once, and whether the body of a
response that rejects the upgrade is complete. -/
structure Config where
  client : Client
  expectedAccept : Units
  mask : Nat → Nat → Nat
  endCloses : Bool
  bodyComplete : Bytes → Nat → Bool

/-- What is emitted to the listeners, and the bytes that are handed to the socket. -/
inductive Output where
  | opened
  | message (data : Units)
  | error (message : Units)
  | rejected (status : Nat) (response : Bytes)
  | close (code : Nat) (reason : Units)
  | write (bytes : Bytes)
deriving DecidableEq, Repr

structure State where
  readyState : Nat
  rxBuffer : Bytes
  handshakeDone : Bool
  upgradeFailureEmitted : Bool
  fragOpcode : Nat
  fragChunks : List Bytes
  peerClose : Option (Nat × Units)
  closeEmitted : Bool
  /-- The frames that have been written. -/
  written : Nat
  /-- No more data comes from a socket that has been destroyed. -/
  destroyed : Bool
  /-- The socket's close handler has run. -/
  socketClosed : Bool
  outputs : List Output
deriving DecidableEq, Repr

/-- The request has been sent. -/
def State.start : State :=
  { readyState := 0, rxBuffer := [], handshakeDone := false, upgradeFailureEmitted := false,
    fragOpcode := 0, fragChunks := [], peerClose := none, closeEmitted := false, written := 0,
    destroyed := false, socketClosed := false, outputs := [] }

def State.emit (s : State) (output : Output) : State :=
  { s with outputs := s.outputs ++ [output] }

/-! ## The upgrade response -/

def crlf : Units := [13, 10]

/-- The first line of a header. -/
def statusLineOf (headerText : Units) : Units :=
  headerText.take ((Units.indexOf crlf headerText 0).getD headerText.length)

/-- `/sec-websocket-accept:\s*(\S+)/i` -/
def acceptMatch (headerText : Units) : Option Units :=
  headerText.tails.findSome? fun tail =>
    (Units.dropFolded (Units.of "sec-websocket-accept:") tail).bind fun rest =>
      let word := (rest.dropWhile Units.isSpace).takeWhile fun c => !Units.isSpace c
      if word = [] then none else some word

/-- `/^HTTP\/\d(?:\.\d)?\s+(\d{3})/` -/
def rejectedUpgradeStatus (statusLine : Units) : Option Nat :=
  if (Units.of "HTTP/").isPrefixOf statusLine then
    match statusLine.drop 5 with
    | major :: rest =>
        let rest := match rest with
          | 46 :: minor :: tail => if Parse.isDigit minor then tail else rest
          | _ => rest
        let code := (rest.dropWhile Units.isSpace).take 3
        if Parse.isDigit major ∧ rest.head?.any Units.isSpace ∧ code.length = 3 ∧
            code.all Parse.isDigit then
          some (Parse.decimal code)
        else none
    | [] => none
  else none

/-- What a client makes of the status line. -/
inductive Upgrade where
  | switched
  | rejected
  | malformed
deriving DecidableEq, Repr

def Client.upgrade (client : Client) (statusLine : Units) : Upgrade :=
  match client with
  | .pi => if Units.includes statusLine (Units.of " 101") then .switched else .malformed
  | .bun | .node =>
      match rejectedUpgradeStatus statusLine with
      | none => .malformed
      | some status => if status = 101 then .switched else .rejected

/-- Where the header of a response ends. -/
def headerEnd (buffer : Bytes) : Option Nat := Units.indexOf (crlf ++ crlf) buffer 0

/-- Whether the event of a rejected upgrade has been emitted, now or before. -/
def emitRejectedUpgrade (c : Config) (s : State) (finalizePartial : Bool) : State × Bool :=
  if s.upgradeFailureEmitted then (s, true)
  else if s.handshakeDone then (s, false)
  else
    match headerEnd s.rxBuffer with
    | none => (s, false)
    | some idx =>
        match rejectedUpgradeStatus (statusLineOf (s.rxBuffer.take idx)) with
        | none => (s, false)
        | some status =>
            if status ≠ 101 ∧ (finalizePartial ∨ c.bodyComplete s.rxBuffer idx) then
              ({ s with upgradeFailureEmitted := true, readyState := 3 }.emit
                (.rejected status s.rxBuffer), true)
            else (s, false)

/-- Bun's client ends the socket of a failed upgrade, the others destroy it. -/
def abandon (c : Config) (s : State) : State := { s with destroyed := c.client ≠ .bun }

/-! ## Closing -/

/-- Pi's client has no such method: it emits each close. -/
def emitClose (c : Config) (s : State) (code : Nat) (reason : Units) : State :=
  if c.client = .pi then s.emit (.close code reason)
  else if s.closeEmitted then s
  else { s with closeEmitted := true }.emit (.close code reason)

/-- `socket closed` -/
def socketClosedReason : Units := Units.of "socket closed"

/-- The socket's close handler. -/
def onSocketClose (c : Config) (s : State) : State :=
  if s.socketClosed then s
  else
    let s := { s with socketClosed := true }
    if c.client = .pi then emitClose c { s with readyState := 3 } 1006 socketClosedReason
    else
      let rejected := emitRejectedUpgrade c s true
      if rejected.2 then rejected.1
      else
        let close := s.peerClose.getD (1006, socketClosedReason)
        emitClose c { s with readyState := 3 } close.1 close.2

/-! ## Frames -/

def writeTo (c : Config) (s : State) (opcode : Nat) (payload : Bytes) : State :=
  { s with written := s.written + 1 }.emit (.write (writeFrame (c.mask s.written) opcode payload))

/-- The code and the reason in a close frame. -/
def closeOf (payload : Bytes) : Nat × Units :=
  match payload with
  | high :: low :: reason => (high <<< 8 ||| low, decode reason)
  | _ => (1005, [])

def handleClose (c : Config) (s : State) (payload : Bytes) : State :=
  let close := closeOf payload
  let s := { s with readyState := 3, peerClose := if c.client = .pi then none else some close }
  -- Bun may close the socket within `end`
  let s := if c.client = .bun ∧ c.endCloses then onSocketClose c s else s
  emitClose c s close.1 close.2

/-- A data frame: text, binary or a continuation. -/
def handleData (s : State) (frame : Frame) : State :=
  let s :=
    if frame.opcode = 0x1 ∨ frame.opcode = 0x2 then
      { s with fragOpcode := frame.opcode, fragChunks := [frame.payload] }
    else if frame.opcode = 0x0 then { s with fragChunks := s.fragChunks ++ [frame.payload] }
    else s
  if frame.fin then
    let full := s.fragChunks.flatten
    let s := { s with fragChunks := [] }
    if s.fragOpcode = 0x1 then s.emit (.message (decode full)) else s
  else s

def handleFrame (c : Config) (s : State) (frame : Frame) : State :=
  if frame.opcode = 0x9 then writeTo c s 0xa frame.payload
  else if frame.opcode = 0xa then s
  else if frame.opcode = 0x8 then handleClose c s frame.payload
  else handleData s frame

/-- Each round shortens the buffer. -/
def drainFrames (c : Config) : Nat → State → State
  | 0, s => s
  | rounds + 1, s =>
      match frameAt s.rxBuffer with
      | none => s
      | some (frame, rest) => drainFrames c rounds (handleFrame c { s with rxBuffer := rest } frame)

/-! ## Data -/

/-- The response's header is complete and ends at `idx`. -/
def onResponse (c : Config) (s : State) (idx : Nat) : State :=
  let headerText := s.rxBuffer.take idx
  let statusLine := statusLineOf headerText
  match c.client.upgrade statusLine with
  | .malformed =>
      (abandon c { s with readyState := 3 }).emit
        (.error (Units.of "WS upgrade failed: " ++ statusLine))
  | .rejected =>
      let rejected := emitRejectedUpgrade c s false
      if rejected.2 then abandon c rejected.1 else rejected.1
  | .switched =>
      if acceptMatch headerText ≠ some c.expectedAccept then
        (abandon c { s with readyState := 3 }).emit
          (.error (Units.of "WS upgrade Sec-WebSocket-Accept mismatch"))
      else
        let rxBuffer := s.rxBuffer.drop (idx + 4)
        drainFrames c rxBuffer.length
          ({ s with handshakeDone := true, readyState := 1, rxBuffer := rxBuffer }.emit .opened)

def onData (c : Config) (s : State) (data : Bytes) : State :=
  let s := { s with rxBuffer := s.rxBuffer ++ data }
  if s.handshakeDone then drainFrames c s.rxBuffer.length s
  else
    match headerEnd s.rxBuffer with
    | none => s
    | some idx => onResponse c s idx

/-- A response whose header has not ended yet is kept. -/
theorem onData_waiting (c : Config) {s : State} {data : Bytes} (h : s.handshakeDone = false)
    (hend : headerEnd (s.rxBuffer ++ data) = none) :
    onData c s data = { s with rxBuffer := s.rxBuffer ++ data } := by
  simp only [onData, h, hend]
  rfl

theorem onData_header (c : Config) {s : State} {data : Bytes} {idx : Nat}
    (h : s.handshakeDone = false) (hend : headerEnd (s.rxBuffer ++ data) = some idx) :
    onData c s data = onResponse c { s with rxBuffer := s.rxBuffer ++ data } idx := by
  simp only [onData, h, hend]
  rfl

def receive (c : Config) (s : State) (chunk : Bytes) : State :=
  if s.destroyed then s else onData c s chunk

/-- A connection: the chunks that arrive, and the end of the socket. -/
def run (c : Config) (chunks : List Bytes) : State :=
  onSocketClose c (chunks.foldl (receive c) .start)

/-! ## What listeners and the peer see -/

/-- An event of the listeners, or a frame as the peer reads it. -/
inductive Event where
  | opened
  | message (data : Units)
  | failed
  | close (code : Nat) (reason : Units)
  | sent (frame : Option Frame)
deriving DecidableEq, Repr

def observe : Output → Event
  | .opened => .opened
  | .message data => .message data
  | .error _ => .failed
  | .rejected _ _ => .failed
  | .close code reason => .close code reason
  | .write bytes => .sent (readClientFrame bytes)

def State.events (s : State) : List Event := s.outputs.map observe

@[simp] theorem events_emit (s : State) (output : Output) :
    (s.emit output).events = s.events ++ [observe output] := by
  simp [State.events, State.emit]

/-! ## Draining -/

/-- The upgrade has succeeded. -/
structure Ready (s : State) : Prop where
  done : s.handshakeDone = true
  accepted : s.upgradeFailureEmitted = false
  alive : s.destroyed = false

theorem emitRejectedUpgrade_ready {c : Config} {s : State} (h : Ready s) (finalizePartial : Bool) :
    emitRejectedUpgrade c s finalizePartial = (s, false) := by
  simp [emitRejectedUpgrade, h.done, h.accepted]

/-- Closing, once the upgrade has succeeded. -/
theorem onSocketClose_ready {c : Config} {s : State} (h : Ready s) :
    onSocketClose c s =
      if s.socketClosed then s
      else
        let close := if c.client = .pi then (1006, socketClosedReason)
          else s.peerClose.getD (1006, socketClosedReason)
        emitClose c { s with socketClosed := true, readyState := 3 } close.1 close.2 := by
  have hready : Ready { s with socketClosed := true } := ⟨h.done, h.accepted, h.alive⟩
  unfold onSocketClose
  split
  · rfl
  · by_cases hpi : c.client = .pi
    · simp [hpi]
    · simp [hpi, emitRejectedUpgrade_ready hready]

theorem emitClose_ready {c : Config} {s : State} (h : Ready s) (code : Nat) (reason : Units) :
    Ready (emitClose c s code reason) := by
  unfold emitClose
  split
  · exact ⟨h.done, h.accepted, h.alive⟩
  · split
    · exact h
    · exact ⟨h.done, h.accepted, h.alive⟩

theorem onSocketClose_keeps {c : Config} {s : State} (h : Ready s) : Ready (onSocketClose c s) := by
  rw [onSocketClose_ready h]
  split
  · exact h
  · apply emitClose_ready
    exact ⟨h.done, h.accepted, h.alive⟩

theorem handleFrame_ready {c : Config} {s : State} (h : Ready s) (frame : Frame) :
    Ready (handleFrame c s frame) := by
  unfold handleFrame
  split
  · exact ⟨h.done, h.accepted, h.alive⟩
  · split
    · exact h
    · split
      · apply emitClose_ready
        split
        · exact onSocketClose_keeps ⟨h.done, h.accepted, h.alive⟩
        · exact ⟨h.done, h.accepted, h.alive⟩
      · unfold handleData
        simp only
        repeat' split
        all_goals exact ⟨h.done, h.accepted, h.alive⟩

theorem emitClose_rxBuffer (c : Config) (s : State) (code : Nat) (reason : Units) (buf : Bytes) :
    emitClose c { s with rxBuffer := buf } code reason =
      { emitClose c s code reason with rxBuffer := buf } := by
  unfold emitClose
  split
  · rfl
  · split <;> rfl

theorem onSocketClose_rxBuffer {c : Config} {s : State} (h : Ready s) (buf : Bytes) :
    onSocketClose c { s with rxBuffer := buf } = { onSocketClose c s with rxBuffer := buf } := by
  have hready : Ready { s with rxBuffer := buf } := ⟨h.done, h.accepted, h.alive⟩
  rw [onSocketClose_ready hready, onSocketClose_ready h]
  split
  · rfl
  · exact emitClose_rxBuffer c { s with socketClosed := true, readyState := 3 } _ _ buf

/-- Handling a frame neither reads nor changes the buffer. -/
theorem handleFrame_rxBuffer {c : Config} {s : State} (h : Ready s) (frame : Frame) (buf : Bytes) :
    handleFrame c { s with rxBuffer := buf } frame =
      { handleFrame c s frame with rxBuffer := buf } := by
  unfold handleFrame
  split
  · rfl
  · split
    · rfl
    · split
      · have hready : Ready { s with
            readyState := 3
            peerClose := if c.client = .pi then none else some (closeOf frame.payload) } :=
          ⟨h.done, h.accepted, h.alive⟩
        simp only [handleClose]
        split
        · rw [← emitClose_rxBuffer, ← onSocketClose_rxBuffer hready]
        · rw [← emitClose_rxBuffer]
      · simp only [handleData]
        repeat' split
        all_goals rfl

/-- A server's frames on the wire. -/
structure WireFrame where
  form : LengthForm
  frame : Frame
  opcode : frame.opcode < 16
  fits : form.Fits frame.payload.length

def WireFrame.bytes (w : WireFrame) : Bytes := serverFrame w.form w.frame

def handled (c : Config) (s : State) (frames : List WireFrame) : State :=
  frames.foldl (fun s w => handleFrame c s w.frame) s

theorem handled_ready {c : Config} {s : State} (h : Ready s) (frames : List WireFrame) :
    Ready (handled c s frames) := by
  induction frames generalizing s with
  | nil => exact h
  | cons w frames ih => exact ih (handleFrame_ready h w.frame)

/-- The complete frames of a buffer are handled; the part that is left is kept. By
induction on the frames. -/
theorem drain_frames {c : Config} {s : State} (h : Ready s) (frames : List WireFrame)
    {part : Bytes} (hpart : frameAt part = none) {rounds : Nat}
    (hrounds : (frames.flatMap WireFrame.bytes ++ part).length ≤ rounds) :
    drainFrames c rounds { s with rxBuffer := frames.flatMap WireFrame.bytes ++ part } =
      { handled c s frames with rxBuffer := part } := by
  induction frames generalizing s rounds with
  | nil =>
      cases rounds with
      | zero => rfl
      | succ rounds => simp [drainFrames, hpart, handled]
  | cons w frames ih =>
      have hread : frameAt ((w :: frames).flatMap WireFrame.bytes ++ part) =
          some (w.frame, frames.flatMap WireFrame.bytes ++ part) := by
        rw [List.flatMap_cons, List.append_assoc]
        exact frameAt_serverFrame w.opcode w.fits _
      have hshorter := length_frameAt hread
      cases rounds with
      | zero => omega
      | succ rounds =>
          rw [drainFrames]
          simp only [hread]
          have hframe := handleFrame_rxBuffer (c := c) h w.frame
            (frames.flatMap WireFrame.bytes ++ part)
          rw [hframe]
          exact ih (handleFrame_ready h w.frame) (by omega)

/-- A buffer at the beginning of some frames: those that are complete, and a part. -/
theorem exists_part {frames : List WireFrame} {buf rest : Bytes}
    (h : buf ++ rest = frames.flatMap WireFrame.bytes) : ∃ before after part,
      frames = before ++ after ∧ buf = before.flatMap WireFrame.bytes ++ part ∧
        part ++ rest = after.flatMap WireFrame.bytes ∧ frameAt part = none := by
  induction frames generalizing buf with
  | nil =>
      have hnil : buf = [] := (List.append_eq_nil_iff.mp h).1
      exact ⟨[], [], [], rfl, by simp [hnil], by simpa [hnil] using h, rfl⟩
  | cons w frames ih =>
      rw [List.flatMap_cons] at h
      rcases List.append_eq_append_iff.mp h with ⟨more, hw, hrest⟩ | ⟨more, hbuf, hrest⟩
      · by_cases hmore : more = []
        · -- the frame is complete and nothing follows
          rw [hmore, List.append_nil] at hw
          rw [hmore, List.nil_append] at hrest
          refine ⟨[w], frames, [], rfl, by simp [hw], hrest, rfl⟩
        · -- a part of the frame
          refine ⟨[], w :: frames, buf, rfl, rfl, ?_, frameAt_part w.opcode w.fits hw.symm hmore⟩
          rw [List.flatMap_cons]
          exact h
      · rcases ih hrest.symm with ⟨before, after, part, hframes, hsplit, hpart, hnone⟩
        refine ⟨w :: before, after, part, by rw [hframes]; rfl, ?_, hpart, hnone⟩
        rw [hbuf, hsplit, List.flatMap_cons, List.append_assoc]

/-- However the bytes of the frames are cut into chunks, the client handles the
frames. By induction on the chunks; the buffer is a part of the next frame. -/
theorem received_frames {c : Config} {s : State} (h : Ready s)
    {frames : List WireFrame} {chunks : List Bytes} {part : Bytes} (hpart : frameAt part = none)
    (hbytes : part ++ chunks.flatten = frames.flatMap WireFrame.bytes) :
    chunks.foldl (receive c) { s with rxBuffer := part } =
      { handled c s frames with rxBuffer := [] } := by
  induction chunks generalizing s frames part with
  | nil =>
      rw [List.flatten_nil, List.append_nil] at hbytes
      cases frames with
      | nil =>
          rw [hbytes]
          rfl
      | cons w frames =>
          -- a complete frame would be read
          have hread := frameAt_serverFrame w.opcode w.fits (frames.flatMap WireFrame.bytes)
          rw [hbytes] at hpart
          exact absurd (hpart.symm.trans hread) (by simp)
  | cons chunk chunks ih =>
      rw [List.flatten_cons, ← List.append_assoc] at hbytes
      rcases exists_part hbytes with ⟨before, after, part', hframes, hbuf, hafter, hpart'⟩
      have hreceive : receive c { s with rxBuffer := part } chunk =
          { handled c s before with rxBuffer := part' } := by
        rw [receive, if_neg (by simp [h.alive])]
        simp only [onData]
        rw [if_pos h.done, hbuf]
        exact drain_frames h before hpart' (Nat.le_refl _)
      rw [List.foldl_cons, hreceive, ih (handled_ready h before) hpart' hafter, hframes]
      simp [handled]

end RawWs
