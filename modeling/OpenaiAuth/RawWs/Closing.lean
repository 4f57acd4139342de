import OpenaiAuth.RawWs.Client

/-! # Closing

The three clients over every order of TCP events and calls. A chunk's handler is cut
where its listeners run: a call of `close` may come before the first frame of a chunk
and between any two, and the socket may close there too, as Bun's does within `end`.

Main results:

* `round_chunk`: a chunk and as many rounds as it has bytes are the client's `onData`;
* `step_cases`: what one step can do to the state and to what has been emitted;
* `final_iff`: closing is final in every state of a run if and only if no step of the
  run is one of three kinds: an upgrade that completes or a text that is completed once
  the closing has begun, and a second close that Pi's client hears of.
-/

namespace RawWs.Closing

open Js

/-! ## The machine -/

inductive Phase where
  | connecting
  | connected
  | failed
deriving DecidableEq, Repr

/-- A client, whether it has its socket, and whether its frame loop is running. `states`
and `calledAt` are a record: the values `readyState` has had, and how much had been
emitted when `close` was first called. -/
structure Machine where
  client : State
  phase : Phase
  draining : Bool
  states : List Nat
  calledAt : Option Nat
deriving DecidableEq, Repr

def Machine.start : Machine :=
  { client := .start, phase := .connecting, draining := false, states := [0], calledAt := none }

inductive Event where
  | connected
  | connectFailed (message : Units)
  | data (chunk : Bytes)
  /-- One round of the frame loop. -/
  | round
  | send (text : Units)
  | close
  | socketError (message : Units)
  | socketClosed
deriving DecidableEq, Repr

/-- The handler of a complete response, up to the frame loop. -/
def onHeader (c : Config) (s : State) (idx : Nat) : State × Bool :=
  let headerText := s.rxBuffer.take idx
  let statusLine := statusLineOf headerText
  match c.client.upgrade statusLine with
  | .malformed =>
      ((abandon c { s with readyState := 3 }).emit
        (.error (Units.of "WS upgrade failed: " ++ statusLine)), false)
  | .rejected =>
      let rejected := emitRejectedUpgrade c s false
      (if rejected.2 then abandon c rejected.1 else rejected.1, false)
  | .switched =>
      if acceptMatch headerText ≠ some c.expectedAccept then
        ((abandon c { s with readyState := 3 }).emit
          (.error (Units.of "WS upgrade Sec-WebSocket-Accept mismatch")), false)
      else
        ({ s with handshakeDone := true, readyState := 1, rxBuffer := s.rxBuffer.drop (idx + 4) }.emit
          .opened, true)

/-- `onData` up to the frame loop, and whether the loop follows. -/
def onChunk (c : Config) (s : State) (chunk : Bytes) : State × Bool :=
  let s := { s with rxBuffer := s.rxBuffer ++ chunk }
  if s.handshakeDone then (s, true)
  else
    match headerEnd s.rxBuffer with
    | none => (s, false)
    | some idx => onHeader c s idx

/-- A round of `drainFrames`, and whether another follows. -/
def drainRound (c : Config) (s : State) : State × Bool :=
  match frameAt s.rxBuffer with
  | none => (s, false)
  | some (frame, rest) => (handleFrame c { s with rxBuffer := rest } frame, true)

/-- A frame that the caller writes. Node's clients have nowhere to write it to before
there is a socket; Bun's queues it. -/
def writeCalled (c : Config) (m : Machine) (opcode : Nat) (payload : Bytes) : State :=
  if m.phase = .connected ∨ c.client = .bun then writeTo c m.client opcode payload else m.client

/-- The caller's `close`. `end` leaves the socket open for what the peer still sends. -/
def callClose (c : Config) (m : Machine) : Machine :=
  let m := { m with calledAt := m.calledAt.or (some m.client.outputs.length) }
  if m.client.readyState = 3 then m
  else
    { m with
      client := { writeCalled c m 0x8 [0x03, 0xe8] with readyState := 3 }
      states := m.states ++ [2, 3] }

/-- The socket's error handler. Node destroys a socket that has failed. -/
def onSocketError (c : Config) (s : State) (message : Units) : State :=
  let s := { s with destroyed := s.destroyed || c.client ≠ .bun }
  if c.client = .pi then { s with readyState := 3 }.emit (.error message)
  else
    let rejected := emitRejectedUpgrade c s true
    if rejected.2 then rejected.1 else { s with readyState := 3 }.emit (.error message)

/-- The next state of the client, with whether its frame loop is running then. -/
def Machine.turn (m : Machine) (next : State × Bool) : Machine :=
  { m with
    client := next.1
    draining := next.2
    states := m.states ++ [next.1.readyState] }

/-- Whether the socket still has something to say. -/
def Machine.live (m : Machine) : Bool := m.phase = .connected && !m.client.socketClosed

def step (c : Config) (m : Machine) : Event → Machine
  | .connected => if m.phase = .connecting then { m with phase := .connected } else m
  | .connectFailed message =>
      if m.phase = .connecting then
        { m with phase := .failed }.turn
          ({ m.client with readyState := 3 }.emit (.error message), m.draining)
      else m
  | .data chunk =>
      if m.live ∧ ¬ m.draining ∧ ¬ m.client.destroyed then m.turn (onChunk c m.client chunk) else m
  | .round => if m.draining then m.turn (drainRound c m.client) else m
  | .send text =>
      if m.client.readyState ≠ 1 then m
      else m.turn (writeCalled c m 0x1 (Utf8.encode text), m.draining)
  | .close => callClose c m
  | .socketError message =>
      if m.live then m.turn (onSocketError c m.client message, m.draining) else m
  | .socketClosed => if m.live then m.turn (onSocketClose c m.client, m.draining) else m

def run (c : Config) (events : List Event) : Machine := events.foldl (step c) .start

/-! ### A chunk and its rounds -/

theorem rxBuffer_emitClose (c : Config) (s : State) (code : Nat) (reason : Units) :
    (emitClose c s code reason).rxBuffer = s.rxBuffer := by
  unfold emitClose
  split
  · rfl
  · split <;> rfl

theorem rxBuffer_onSocketClose (c : Config) (s : State) :
    (onSocketClose c s).rxBuffer = s.rxBuffer := by
  have hrejected : ∀ t : State, (emitRejectedUpgrade c t true).1.rxBuffer = t.rxBuffer := by
    intro t
    unfold emitRejectedUpgrade
    repeat' split
    all_goals rfl
  unfold onSocketClose
  split
  · rfl
  · simp only
    split
    · rw [rxBuffer_emitClose]
    · split
      · rw [hrejected]
      · rw [rxBuffer_emitClose]

theorem rxBuffer_handleFrame (c : Config) (s : State) (frame : Frame) :
    (handleFrame c s frame).rxBuffer = s.rxBuffer := by
  unfold handleFrame
  split
  · rfl
  · split
    · rfl
    · split
      · unfold handleClose
        simp only
        rw [rxBuffer_emitClose]
        split
        · rw [rxBuffer_onSocketClose]
        · rfl
      · unfold handleData
        simp only
        repeat' split
        all_goals rfl

/-- Once the loop has ended its rounds do nothing. -/
theorem rounds_ended (c : Config) (rounds : Nat) {m : Machine} (h : m.draining = false) :
    (List.replicate rounds Event.round).foldl (step c) m = m := by
  induction rounds with
  | zero => rfl
  | succ rounds ih =>
      rw [List.replicate_succ, List.foldl_cons]
      have hidle : step c m .round = m := by simp [step, h]
      rw [hidle, ih]

theorem rounds_drain (c : Config) (rounds : Nat) {m : Machine} (h : m.draining = true)
    (hlen : m.client.rxBuffer.length ≤ rounds) :
    ((List.replicate (rounds + 1) Event.round).foldl (step c) m).client =
        drainFrames c rounds m.client ∧
      ((List.replicate (rounds + 1) Event.round).foldl (step c) m).draining = false := by
  induction rounds generalizing m with
  | zero =>
      have hnone : frameAt m.client.rxBuffer = none := by
        rw [frameAt, if_pos (by omega)]
      simp [List.replicate_succ, step, h, drainRound, hnone, Machine.turn, drainFrames]
  | succ rounds ih =>
      rw [List.replicate_succ, List.foldl_cons]
      cases hread : frameAt m.client.rxBuffer with
      | none =>
          have hstep : step c m .round = m.turn (m.client, false) := by
            simp [step, h, drainRound, hread]
          rw [hstep, rounds_ended c _ rfl]
          simp [drainFrames, hread, Machine.turn]
      | some found =>
          rcases found with ⟨frame, rest⟩
          have hstep : step c m .round =
              m.turn (handleFrame c { m.client with rxBuffer := rest } frame, true) := by
            simp [step, h, drainRound, hread]
          have hless := length_frameAt hread
          have hnext := ih (m := m.turn (handleFrame c { m.client with rxBuffer := rest } frame, true))
            rfl (by simp only [Machine.turn, rxBuffer_handleFrame]; omega)
          rw [hstep, hnext.1, hnext.2]
          refine ⟨?_, rfl⟩
          simp only [drainFrames, hread]
          rfl

theorem onResponse_eq (c : Config) (s : State) (idx : Nat) :
    onResponse c s idx =
      if (onHeader c s idx).2 then
        drainFrames c (onHeader c s idx).1.rxBuffer.length (onHeader c s idx).1
      else (onHeader c s idx).1 := by
  cases hupgrade : c.client.upgrade (statusLineOf (s.rxBuffer.take idx)) with
  | malformed => simp [onResponse, onHeader, hupgrade]
  | rejected => simp [onResponse, onHeader, hupgrade]
  | switched =>
      by_cases haccept : acceptMatch (s.rxBuffer.take idx) = some c.expectedAccept
      · simp [onResponse, onHeader, hupgrade, haccept, State.emit]
      · simp [onResponse, onHeader, hupgrade, haccept]

/-- A chunk and its rounds are the client's handler. -/
theorem round_chunk (c : Config) {m : Machine} (hlive : m.live) (hidle : m.draining = false)
    (hdestroyed : m.client.destroyed = false) (chunk : Bytes) :
    ∃ rounds, ((Event.data chunk :: List.replicate rounds .round).foldl (step c) m).client =
        receive c m.client chunk ∧
      ((Event.data chunk :: List.replicate rounds .round).foldl (step c) m).draining = false := by
  have hstep : step c m (.data chunk) = m.turn (onChunk c m.client chunk) := by
    simp [step, hlive, hidle, hdestroyed]
  have hreceive : receive c m.client chunk = onData c m.client chunk := by
    simp [receive, hdestroyed]
  simp only [List.foldl_cons, hstep, hreceive]
  -- the loop follows a chunk for an open connection and one that opens it
  have hloop : ∀ next : State, onChunk c m.client chunk = (next, true) →
      onData c m.client chunk = drainFrames c next.rxBuffer.length next →
      ∃ rounds, ((List.replicate rounds Event.round).foldl (step c)
          (m.turn (onChunk c m.client chunk))).client = onData c m.client chunk ∧
        ((List.replicate rounds Event.round).foldl (step c)
          (m.turn (onChunk c m.client chunk))).draining = false := by
    intro next hchunk hdata
    refine ⟨next.rxBuffer.length + 1, ?_⟩
    rw [hchunk, hdata]
    exact rounds_drain c next.rxBuffer.length rfl (le_refl _)
  have hwait : ∀ next : State, onChunk c m.client chunk = (next, false) →
      onData c m.client chunk = next →
      ∃ rounds, ((List.replicate rounds Event.round).foldl (step c)
          (m.turn (onChunk c m.client chunk))).client = onData c m.client chunk ∧
        ((List.replicate rounds Event.round).foldl (step c)
          (m.turn (onChunk c m.client chunk))).draining = false := by
    intro next hchunk hdata
    refine ⟨0, ?_⟩
    rw [hchunk, hdata]
    exact ⟨rfl, rfl⟩
  cases hdone : m.client.handshakeDone with
  | true =>
      apply hloop { m.client with rxBuffer := m.client.rxBuffer ++ chunk }
      · simp [onChunk, hdone]
      · simp [onData, hdone]
  | false =>
      cases hend : headerEnd (m.client.rxBuffer ++ chunk) with
      | none =>
          apply hwait { m.client with rxBuffer := m.client.rxBuffer ++ chunk }
          · simp [onChunk, hdone, hend]
          · simp [onData, hdone, hend]
      | some idx =>
          have hchunk : onChunk c m.client chunk =
              onHeader c { m.client with rxBuffer := m.client.rxBuffer ++ chunk } idx := by
            simp [onChunk, hdone, hend]
          have hdata := (onData_header c hdone hend).trans (onResponse_eq c _ idx)
          rw [← hchunk] at hdata
          cases hnext : onChunk c m.client chunk with
          | mk next loops =>
              rw [hnext] at hdata
              cases loops with
              | true =>
                  rw [← hnext]
                  exact hloop next hnext hdata
              | false =>
                  rw [← hnext]
                  exact hwait next hnext hdata

/-! ## Closing is final -/

/-- An event after which nothing opens: `error` or `close`. -/
def closing : Output → Bool
  | .error _ | .rejected _ _ | .close _ _ => true
  | _ => false

/-- `open` or `message` -/
def opening : Output → Bool
  | .opened | .message _ => true
  | _ => false

def isClose : Output → Bool
  | .close _ _ => true
  | _ => false

def closes (s : State) : Nat := s.outputs.countP isClose

/-- What has happened so far respects the closing. -/
structure Final (m : Machine) : Prop where
  ordered : m.states.Pairwise (· ≤ ·)
  silent : m.client.outputs.Pairwise fun first later => closing first → ¬ opening later
  obeyed : ∀ called, m.calledAt = some called →
    ∀ output ∈ m.client.outputs.drop called, ¬ opening output
  once : closes m.client ≤ 1

/-- The closing has begun. -/
def Begun (m : Machine) : Prop :=
  m.calledAt ≠ none ∨ ∃ output ∈ m.client.outputs, closing output

/-- The buffer with the chunk is a response that completes the upgrade. -/
def Completes (c : Config) (s : State) (chunk : Bytes) : Prop :=
  s.handshakeDone = false ∧ ∃ idx, headerEnd (s.rxBuffer ++ chunk) = some idx ∧
    c.client.upgrade (statusLineOf ((s.rxBuffer ++ chunk).take idx)) = .switched ∧
    acceptMatch ((s.rxBuffer ++ chunk).take idx) = some c.expectedAccept

/-- A frame that ends a text. -/
def EndsText (s : State) (frame : Frame) : Prop :=
  frame.fin ∧ (frame.opcode = 0x1 ∨
    frame.opcode ≠ 0x2 ∧ frame.opcode ≠ 0x8 ∧ frame.opcode ≠ 0x9 ∧ frame.opcode ≠ 0xa ∧
      s.fragOpcode = 0x1)

/-- The steps that the source does not guard. -/
inductive Lapses (c : Config) (m : Machine) : Event → Prop where
  | upgrade {chunk : Bytes} (begun : Begun m) (live : m.live ∧ ¬ m.draining ∧ ¬ m.client.destroyed)
      (completes : Completes c m.client chunk) : Lapses c m (.data chunk)
  | text {frame : Frame} {rest : Bytes} (begun : Begun m) (draining : m.draining)
      (read : frameAt m.client.rxBuffer = some (frame, rest)) (ends : EndsText m.client frame) :
      Lapses c m .round
  | closeFrame {frame : Frame} {rest : Bytes} (pi : c.client = .pi) (closed : 0 < closes m.client)
      (draining : m.draining) (read : frameAt m.client.rxBuffer = some (frame, rest))
      (close : frame.opcode = 0x8) : Lapses c m .round
  | socketClose (pi : c.client = .pi) (closed : 0 < closes m.client) (live : m.live) :
      Lapses c m .socketClosed

/-! ## What a step does -/

/-- What the client does where nothing opens and no text is completed, in the fields that
the closing is about. A close is reported only where it `may` be. -/
inductive Does (c : Config) (may : Prop) (s s' : State) : Prop where
  | quiet (written : List Bytes) (outputs : s'.outputs = s.outputs ++ written.map .write)
      (state : s'.readyState = s.readyState) (done : s'.handshakeDone = s.handshakeDone)
      (closed : s'.closeEmitted = s.closeEmitted)
  | fails (output : Output) (outputs : s'.outputs = s.outputs ++ [output])
      (closes : closing output = true) (error : isClose output = false)
      (state : s'.readyState = 3) (done : s'.handshakeDone = s.handshakeDone)
      (closed : s'.closeEmitted = s.closeEmitted)
  | closes (code : Nat) (reason : Units) (outputs : s'.outputs = s.outputs ++ [.close code reason])
      (state : s'.readyState = 3) (done : s'.handshakeDone = s.handshakeDone) (allowed : may)
      (closed : c.client ≠ .pi → s.closeEmitted = false ∧ s'.closeEmitted = true)
  | stays (outputs : s'.outputs = s.outputs) (state : s'.readyState = 3)
      (done : s'.handshakeDone = s.handshakeDone) (other : c.client ≠ .pi)
      (before : s.closeEmitted = true) (closed : s'.closeEmitted = true)

theorem Does.refl (c : Config) (may : Prop) (s : State) : Does c may s s :=
  .quiet [] (List.append_nil _).symm rfl rfl rfl

/-- The fields that `Does` reads in the two states. -/
theorem Does.congr {c : Config} {may may' : Prop} {s t s' t' : State} (h : Does c may t t')
    (hmay : may → may')
    (hbefore : t.outputs = s.outputs ∧ t.readyState = s.readyState ∧
      t.handshakeDone = s.handshakeDone ∧ t.closeEmitted = s.closeEmitted)
    (hafter : s'.outputs = t'.outputs ∧ s'.readyState = t'.readyState ∧
      s'.handshakeDone = t'.handshakeDone ∧ s'.closeEmitted = t'.closeEmitted) :
    Does c may' s s' := by
  rcases hbefore with ⟨houtputs, hstate, hdone, hclosed⟩
  rcases hafter with ⟨houtputs', hstate', hdone', hclosed'⟩
  cases h with
  | quiet written outputs state done closed =>
      refine .quiet written ?_ (hstate'.trans (state.trans hstate)) (hdone'.trans (done.trans hdone))
        (hclosed'.trans (closed.trans hclosed))
      rw [houtputs', outputs, houtputs]
  | fails output outputs closes error state done closed =>
      refine .fails output ?_ closes error (hstate'.trans state) (hdone'.trans (done.trans hdone))
        (hclosed'.trans (closed.trans hclosed))
      rw [houtputs', outputs, houtputs]
  | closes code reason outputs state done allowed closed =>
      refine .closes code reason ?_ (hstate'.trans state) (hdone'.trans (done.trans hdone))
        (hmay allowed) ?_
      · rw [houtputs', outputs, houtputs]
      · intro hother
        exact ⟨hclosed ▸ (closed hother).1, hclosed'.trans (closed hother).2⟩
  | stays outputs state done other before closed =>
      exact .stays (houtputs'.trans (outputs.trans houtputs)) (hstate'.trans state)
        (hdone'.trans (done.trans hdone)) other (hclosed ▸ before) (hclosed'.trans closed)

theorem does_emitClose (c : Config) {s t : State} (hstate : t.readyState = 3)
    (hfields : t.outputs = s.outputs ∧ t.handshakeDone = s.handshakeDone ∧
      t.closeEmitted = s.closeEmitted) (code : Nat) (reason : Units) :
    Does c True s (emitClose c t code reason) := by
  rcases hfields with ⟨houtputs, hdone, hclosed⟩
  unfold emitClose
  split
  · rename_i hpi
    refine .closes code reason ?_ hstate hdone trivial ?_
    · rw [← houtputs]
      rfl
    · intro hother
      exact absurd hpi hother
  · rename_i hother
    split
    · rename_i hemitted
      exact .stays houtputs hstate hdone hother (hclosed ▸ hemitted) hemitted
    · rename_i hfirst
      refine .closes code reason ?_ hstate hdone trivial ?_
      · rw [← houtputs]
        rfl
      · intro _
        exact ⟨hclosed ▸ Bool.eq_false_iff.mpr hfirst, rfl⟩

theorem emitClose_twice {c : Config} (h : c.client ≠ .pi) (s : State) (code code' : Nat)
    (reason reason' : Units) :
    emitClose c (emitClose c s code reason) code' reason' = emitClose c s code reason := by
  have hemitted : (emitClose c s code reason).closeEmitted = true := by
    unfold emitClose
    rw [if_neg h]
    split
    · assumption
    · rfl
  generalize emitClose c s code reason = t at hemitted
  rw [emitClose, if_neg h, if_pos hemitted]

theorem does_emitRejectedUpgrade (c : Config) (s : State) (finalizePartial : Bool) :
    Does c False s (emitRejectedUpgrade c s finalizePartial).1 := by
  unfold emitRejectedUpgrade
  split
  · exact .refl c False s
  · split
    · exact .refl c False s
    · split
      · exact .refl c False s
      · split
        · exact .refl c False s
        · split
          · exact .fails _ rfl rfl rfl rfl rfl rfl
          · exact .refl c False s

theorem does_onSocketClose (c : Config) (s : State) : Does c True s (onSocketClose c s) := by
  unfold onSocketClose
  split
  · exact .refl c True s
  · simp only
    split
    · apply does_emitClose c
      · rfl
      · exact ⟨rfl, rfl, rfl⟩
    · split
      · exact (does_emitRejectedUpgrade c { s with socketClosed := true } true).congr False.elim
          ⟨rfl, rfl, rfl, rfl⟩ ⟨rfl, rfl, rfl, rfl⟩
      · apply does_emitClose c
        · rfl
        · exact ⟨rfl, rfl, rfl⟩

theorem does_onSocketError (c : Config) (s : State) (message : Units) :
    Does c False s (onSocketError c s message) := by
  unfold onSocketError
  simp only
  split
  · exact .fails _ rfl rfl rfl rfl rfl rfl
  · split
    · exact (does_emitRejectedUpgrade c { s with destroyed := s.destroyed || c.client ≠ .bun }
        true).congr False.elim ⟨rfl, rfl, rfl, rfl⟩ ⟨rfl, rfl, rfl, rfl⟩
    · exact .fails _ rfl rfl rfl rfl rfl rfl

/-! ### A chunk -/

/-- A chunk that completes the upgrade opens the connection. -/
theorem onChunk_completes {c : Config} {s : State} {chunk : Bytes} (h : Completes c s chunk) :
    ∃ rxBuffer, onChunk c s chunk =
      ({ s with handshakeDone := true, readyState := 1, rxBuffer := rxBuffer }.emit .opened,
        true) := by
  rcases h with ⟨hwaiting, idx, hend, hswitched, haccept⟩
  refine ⟨(s.rxBuffer ++ chunk).drop (idx + 4), ?_⟩
  simp [onChunk, onHeader, hwaiting, hend, hswitched, haccept]

theorem does_onChunk {c : Config} {s : State} {chunk : Bytes} (h : ¬ Completes c s chunk) :
    Does c False s (onChunk c s chunk).1 ∧
      ((onChunk c s chunk).2 = true → s.handshakeDone = true) := by
  by_cases hdone : s.handshakeDone = true
  · have hchunk : onChunk c s chunk = ({ s with rxBuffer := s.rxBuffer ++ chunk }, true) :=
      if_pos hdone
    rw [hchunk]
    exact ⟨.quiet [] (List.append_nil _).symm rfl rfl rfl, fun _ => hdone⟩
  · have hwaiting := Bool.eq_false_iff.mpr hdone
    cases hend : headerEnd (s.rxBuffer ++ chunk) with
    | none =>
        have hchunk : onChunk c s chunk = ({ s with rxBuffer := s.rxBuffer ++ chunk }, false) := by
          simp [onChunk, hdone, hend]
        rw [hchunk]
        exact ⟨.quiet [] (List.append_nil _).symm rfl rfl rfl, fun h => by cases h⟩
    | some idx =>
        have hchunk : onChunk c s chunk =
            onHeader c { s with rxBuffer := s.rxBuffer ++ chunk } idx := by
          simp [onChunk, hdone, hend]
        rw [hchunk]
        unfold onHeader
        simp only
        split
        · exact ⟨.fails _ rfl rfl rfl rfl rfl rfl, fun h => by cases h⟩
        · refine ⟨?_, fun h => by cases h⟩
          have hrejected :=
            does_emitRejectedUpgrade c { s with rxBuffer := s.rxBuffer ++ chunk } false
          simp only
          split
          · exact hrejected.congr False.elim ⟨rfl, rfl, rfl, rfl⟩ ⟨rfl, rfl, rfl, rfl⟩
          · exact hrejected.congr False.elim ⟨rfl, rfl, rfl, rfl⟩ ⟨rfl, rfl, rfl, rfl⟩
        · rename_i hswitched
          split
          · exact ⟨.fails _ rfl rfl rfl rfl rfl rfl, fun h => by cases h⟩
          · rename_i haccept
            exact absurd ⟨hwaiting, idx, hend, hswitched, not_not.mp haccept⟩ h

/-! ### A frame -/

theorem handleFrame_endsText (c : Config) {s : State} {frame : Frame} (h : EndsText s frame) :
    ∃ text, handleFrame c s frame =
      { s with fragOpcode := 0x1, fragChunks := [] }.emit (.message text) := by
  rcases h with ⟨hfin, hfirst | ⟨h2, h8, h9, ha, hfrag⟩⟩
  · refine ⟨Utf8.decode frame.payload, ?_⟩
    simp [handleFrame, handleData, hfirst, hfin, State.emit]
  · by_cases hfirst : frame.opcode = 0x1
    · refine ⟨Utf8.decode frame.payload, ?_⟩
      simp [handleFrame, handleData, hfirst, hfin, State.emit]
    · by_cases hmore : frame.opcode = 0x0
      · refine ⟨Utf8.decode (s.fragChunks ++ [frame.payload]).flatten, ?_⟩
        simp [handleFrame, handleData, hmore, hfin, hfrag, State.emit]
      · refine ⟨Utf8.decode s.fragChunks.flatten, ?_⟩
        simp [handleFrame, handleData, hfirst, h2, h8, h9, ha, hmore, hfin, hfrag, State.emit]

theorem does_handleClose {c : Config} {s : State} (hdone : s.handshakeDone = true)
    (payload : Bytes) : Does c True s (handleClose c s payload) := by
  unfold handleClose
  simp only
  split
  · rename_i hends
    have hbun : c.client ≠ .pi := by
      rw [hends.1]
      decide
    rw [if_neg hbun]
    unfold onSocketClose
    split
    · apply does_emitClose c
      · rfl
      · exact ⟨rfl, rfl, rfl⟩
    · simp only
      split
      · -- no such event is emitted for a connection that has been opened
        have hsame : (emitRejectedUpgrade c { s with
            readyState := 3, peerClose := some (closeOf payload), socketClosed := true } true).1 =
            { s with
              readyState := 3, peerClose := some (closeOf payload), socketClosed := true } := by
          simp [emitRejectedUpgrade, hdone]
          split <;> rfl
        rw [hsame]
        apply does_emitClose c
        · rfl
        · exact ⟨rfl, rfl, rfl⟩
      · -- the close has been reported within `end`
        rw [emitClose_twice hbun]
        apply does_emitClose c
        · rfl
        · exact ⟨rfl, rfl, rfl⟩
  · apply does_emitClose c
    · rfl
    · exact ⟨rfl, rfl, rfl⟩

/-- A frame that ends no text. -/
theorem does_handleFrame {c : Config} {s : State} (hdone : s.handshakeDone = true) {frame : Frame}
    (h : ¬ EndsText s frame) : Does c (frame.opcode = 0x8) s (handleFrame c s frame) := by
  unfold handleFrame
  split
  · exact .quiet [_] rfl rfl rfl rfl
  · rename_i h9
    split
    · exact .refl c _ s
    · rename_i ha
      split
      · rename_i h8
        exact (does_handleClose hdone frame.payload).congr (fun _ => h8)
          ⟨rfl, rfl, rfl, rfl⟩ ⟨rfl, rfl, rfl, rfl⟩
      · rename_i h8
        have hquiet : ∀ (opcode : Nat) (chunks : List Bytes),
            Does c (frame.opcode = 0x8) s { s with fragOpcode := opcode, fragChunks := chunks } :=
          fun opcode chunks => .quiet [] (List.append_nil _).symm rfl rfl rfl
        by_cases hfin : frame.fin = true
        · have h1 : frame.opcode ≠ 0x1 := fun h1 => h ⟨hfin, .inl h1⟩
          by_cases h2 : frame.opcode = 0x2
          · have hdata : handleData s frame = { s with fragOpcode := 0x2, fragChunks := [] } := by
              simp [handleData, h2, hfin]
            rw [hdata]
            exact hquiet 0x2 []
          · have hfrag : s.fragOpcode ≠ 0x1 :=
              fun hfrag => h ⟨hfin, .inr ⟨h2, h8, h9, ha, hfrag⟩⟩
            have hdata : handleData s frame = { s with fragChunks := [] } := by
              by_cases h0 : frame.opcode = 0x0
              · simp [handleData, h0, hfin, hfrag]
              · simp [handleData, h0, h1, h2, hfin, hfrag]
            rw [hdata]
            exact hquiet s.fragOpcode []
        · have hdata : ∃ opcode chunks,
              handleData s frame = { s with fragOpcode := opcode, fragChunks := chunks } := by
            by_cases h12 : frame.opcode = 0x1 ∨ frame.opcode = 0x2
            · refine ⟨frame.opcode, [frame.payload], ?_⟩
              simp [handleData, h12, hfin]
            · by_cases h0 : frame.opcode = 0x0
              · refine ⟨s.fragOpcode, s.fragChunks ++ [frame.payload], ?_⟩
                simp [handleData, h0, hfin]
              · refine ⟨s.fragOpcode, s.fragChunks, ?_⟩
                simp [handleData, h12, h0, hfin]
          rcases hdata with ⟨opcode, chunks, hdata⟩
          rw [hdata]
          exact hquiet opcode chunks

/-! ### A call -/

theorem writeCalled_eq (c : Config) (m : Machine) (opcode : Nat) (payload : Bytes) :
    ∃ written bytes, writeCalled c m opcode payload =
      { m.client with
        written := written, outputs := m.client.outputs ++ List.map Output.write bytes } := by
  unfold writeCalled
  split
  · exact ⟨m.client.written + 1, [_], rfl⟩
  · refine ⟨m.client.written, [], ?_⟩
    simp

/-! ### The machine -/

/-- What a step does. -/
inductive Step (c : Config) (m : Machine) (e : Event) (m' : Machine) : Prop where
  /-- Nothing of what the closing is about changes. -/
  | idle (client : m'.client = m.client) (draining : m'.draining = m.draining)
      (states : m'.states = m.states) (called : m'.calledAt = m.calledAt)
  | opens (chunk : Bytes) (event : e = .data chunk)
      (live : m.live ∧ ¬ m.draining ∧ ¬ m.client.destroyed) (completes : Completes c m.client chunk)
      (outputs : m'.client.outputs = m.client.outputs ++ [.opened])
      (state : m'.client.readyState = 1) (done : m'.client.handshakeDone = true)
      (closed : m'.client.closeEmitted = m.client.closeEmitted)
      (states : m'.states = m.states ++ [1]) (called : m'.calledAt = m.calledAt)
  | speaks (frame : Frame) (rest : Bytes) (text : Units) (event : e = .round)
      (draining : m.draining) (read : frameAt m.client.rxBuffer = some (frame, rest))
      (ends : EndsText m.client frame)
      (outputs : m'.client.outputs = m.client.outputs ++ [.message text])
      (state : m'.client.readyState = m.client.readyState)
      (done : m'.client.handshakeDone = m.client.handshakeDone)
      (closed : m'.client.closeEmitted = m.client.closeEmitted)
      (states : m'.states = m.states ++ [m.client.readyState]) (called : m'.calledAt = m.calledAt)
  | does (may : Prop) (does : Does c may m.client m'.client)
      (closes : may → (∃ frame rest, e = .round ∧ m.draining ∧
        frameAt m.client.rxBuffer = some (frame, rest) ∧ frame.opcode = 0x8) ∨
        e = .socketClosed ∧ m.live)
      (draining : m'.draining → m.client.handshakeDone)
      (states : m'.states = m.states ++ [m'.client.readyState]) (called : m'.calledAt = m.calledAt)
  /-- The caller closes. -/
  | called (event : e = .close) (bytes : List Bytes)
      (outputs : m'.client.outputs = m.client.outputs ++ bytes.map .write)
      (state : m'.client.readyState = 3)
      (done : m'.client.handshakeDone = m.client.handshakeDone)
      (closed : m'.client.closeEmitted = m.client.closeEmitted)
      (draining : m'.draining = m.draining)
      (states : ∃ more, m'.states = m.states ++ more ∧ more.Pairwise (· ≤ ·) ∧
        ∀ n ∈ more, m.client.readyState ≤ n ∧ n ≤ 3)
      (called : m'.calledAt = m.calledAt.or (some m.client.outputs.length))

theorem step_cases (c : Config) (m : Machine) (hdrain : m.draining → m.client.handshakeDone)
    (hrange : m.client.readyState = 0 ∨ m.client.readyState = 1 ∨ m.client.readyState = 3)
    (e : Event) : Step c m e (step c m e) := by
  have hidle : Step c m e m := .idle rfl rfl rfl rfl
  cases e with
  | connected =>
      simp only [step]
      split
      · exact .idle rfl rfl rfl rfl
      · exact hidle
  | connectFailed message =>
      simp only [step]
      split
      · exact .does False (.fails _ rfl rfl rfl rfl rfl rfl) False.elim hdrain rfl rfl
      · exact hidle
  | data chunk =>
      simp only [step]
      split
      · rename_i hlive
        by_cases hcompletes : Completes c m.client chunk
        · rcases onChunk_completes hcompletes with ⟨rxBuffer, hchunk⟩
          rw [hchunk]
          exact .opens chunk rfl hlive hcompletes rfl rfl rfl rfl rfl rfl
        · have hdoes := does_onChunk hcompletes
          exact .does False hdoes.1 False.elim hdoes.2 rfl rfl
      · exact hidle
  | round =>
      simp only [step]
      split
      · rename_i hrunning
        unfold drainRound
        split
        · refine .does False (.refl c False m.client) False.elim ?_ rfl rfl
          intro h
          cases h
        · rename_i frame rest hread
          have hends : EndsText { m.client with rxBuffer := rest } frame ↔
            EndsText m.client frame := Iff.rfl
          by_cases htext : EndsText m.client frame
          · rcases handleFrame_endsText c (hends.mpr htext) with ⟨text, hframe⟩
            rw [hframe]
            exact .speaks frame rest text rfl hrunning hread htext rfl rfl rfl rfl rfl rfl
          · have hdoes := does_handleFrame (c := c) (s := { m.client with rxBuffer := rest })
              (hdrain hrunning) htext
            refine .does (frame.opcode = 0x8)
              (hdoes.congr id ⟨rfl, rfl, rfl, rfl⟩ ⟨rfl, rfl, rfl, rfl⟩) ?_ ?_ rfl rfl
            · intro h8
              exact .inl ⟨frame, rest, rfl, hrunning, hread, h8⟩
            · intro _
              exact hdrain hrunning
      · exact hidle
  | send text =>
      simp only [step]
      split
      · exact hidle
      · rcases writeCalled_eq c m 0x1 (Utf8.encode text) with ⟨written, bytes, hwrite⟩
        rw [hwrite]
        exact .does False (.quiet bytes rfl rfl rfl rfl) False.elim hdrain rfl rfl
  | close =>
      simp only [step, callClose]
      split
      · rename_i hclosed
        refine .called rfl [] (List.append_nil _).symm hclosed rfl rfl rfl ⟨[], ?_, ?_, ?_⟩ rfl
        · exact (List.append_nil _).symm
        · exact List.Pairwise.nil
        · intro n hn
          cases hn
      · rename_i hopen
        rcases writeCalled_eq c { m with
          calledAt := m.calledAt.or (some m.client.outputs.length) } 0x8 [0x03, 0xe8] with
          ⟨written, bytes, hwrite⟩
        rw [hwrite]
        refine .called rfl bytes rfl rfl rfl rfl rfl ⟨[2, 3], rfl, ?_, ?_⟩ rfl
        · decide
        · intro n hn
          simp only [List.mem_cons, List.not_mem_nil, or_false] at hn
          have hopen' : m.client.readyState ≠ 3 := hopen
          omega
  | socketError message =>
      simp only [step]
      split
      · exact .does False (does_onSocketError c m.client message) False.elim hdrain rfl rfl
      · exact hidle
  | socketClosed =>
      simp only [step]
      split
      · rename_i hlive
        exact .does True (does_onSocketClose c m.client) (fun _ => .inr ⟨rfl, hlive⟩) hdrain rfl rfl
      · exact hidle

/-! ## What holds in every run -/

/-- What the closing leaves behind, whether or not it is final. -/
structure Base (c : Config) (m : Machine) : Prop where
  draining : m.draining → m.client.handshakeDone
  range : m.client.readyState = 0 ∨ m.client.readyState = 1 ∨ m.client.readyState = 3
  called : ∀ n, m.calledAt = some n → n ≤ m.client.outputs.length
  begun : m.client.readyState = 3 → Begun m
  counted : c.client ≠ .pi → m.client.closeEmitted = false → closes m.client = 0
  emitted : m.client.closeEmitted = true → ∃ output ∈ m.client.outputs, closing output

theorem base_start (c : Config) : Base c .start := by
  constructor
  · intro h
    cases h
  · exact .inl rfl
  · intro n h
    cases h
  · intro h
    cases h
  · intro _ _
    rfl
  · intro h
    cases h

theorem not_closing_write {bytes : List Bytes} {output : Output}
    (h : output ∈ bytes.map Output.write) : closing output = false ∧ opening output = false ∧
      isClose output = false := by
  rcases List.mem_map.mp h with ⟨frame, -, heq⟩
  rw [← heq]
  exact ⟨rfl, rfl, rfl⟩

theorem countP_writes (bytes : List Bytes) : (bytes.map Output.write).countP isClose = 0 := by
  apply List.countP_eq_zero.mpr
  intro output houtput
  rw [(not_closing_write houtput).2.2]
  decide

/-- Nothing is taken back. -/
theorem Step.grows {c : Config} {m m' : Machine} {e : Event} (h : Step c m e m') :
    (∃ added, m'.client.outputs = m.client.outputs ++ added) ∧
      (m'.calledAt = m.calledAt ∨
        m'.calledAt = m.calledAt.or (some m.client.outputs.length)) := by
  cases h with
  | idle client draining states called => exact ⟨⟨[], by rw [client, List.append_nil]⟩, .inl called⟩
  | opens chunk event live completes outputs state done closed states called =>
      exact ⟨⟨_, outputs⟩, .inl called⟩
  | speaks frame rest text event draining read ends outputs state done closed states called =>
      exact ⟨⟨_, outputs⟩, .inl called⟩
  | does may does closes draining states called =>
      refine ⟨?_, .inl called⟩
      cases does with
      | quiet written outputs state done closed => exact ⟨_, outputs⟩
      | fails output outputs closes error state done closed => exact ⟨_, outputs⟩
      | closes code reason outputs state done allowed closed => exact ⟨_, outputs⟩
      | stays outputs state done other before closed => exact ⟨[], by rw [outputs, List.append_nil]⟩
  | called event bytes outputs state done closed draining states called =>
      exact ⟨⟨_, outputs⟩, .inr called⟩

theorem Step.begun {c : Config} {m m' : Machine} {e : Event} (h : Step c m e m') (hm : Begun m) :
    Begun m' := by
  rcases h.grows with ⟨⟨added, houtputs⟩, hcalled⟩
  rcases hm with hm | ⟨output, hmem, hclosing⟩
  · left
    rcases hcalled with hcalled | hcalled
    · rw [hcalled]
      exact hm
    · rw [hcalled]
      cases hat : m.calledAt with
      | none => exact absurd hat hm
      | some n => simp
  · right
    refine ⟨output, ?_, hclosing⟩
    rw [houtputs]
    exact List.mem_append_left _ hmem

theorem closes_append {s s' : State} {added : List Output} (h : s'.outputs = s.outputs ++ added) :
    closes s' = closes s + added.countP isClose := by
  rw [closes, h, List.countP_append, closes]

theorem Base.step {c : Config} {m m' : Machine} {e : Event} (h : Base c m) (hstep : Step c m e m') :
    Base c m' := by
  have hcalled : ∀ n, m'.calledAt = some n → n ≤ m'.client.outputs.length := by
    rcases hstep.grows with ⟨⟨added, houtputs⟩, hat⟩
    intro n hn
    rw [houtputs, List.length_append]
    have hold : n ≤ m.client.outputs.length := by
      rcases hat with hat | hat
      · exact h.called n (hat ▸ hn)
      · cases hbefore : m.calledAt with
        | none =>
            rw [hat, hbefore, Option.none_or, Option.some.injEq] at hn
            omega
        | some k =>
            rw [hat, hbefore, Option.some_or] at hn
            exact h.called n (hbefore.trans hn)
    omega
  have hbegun := fun hm => hstep.begun hm
  cases hstep with
  | idle client draining states called =>
      refine ⟨?_, ?_, hcalled, ?_, ?_, ?_⟩
      · rw [draining, client]
        exact h.draining
      · rw [client]
        exact h.range
      · rw [client]
        intro h3
        exact hbegun (h.begun h3)
      · rw [client]
        exact h.counted
      · rw [client]
        exact h.emitted
  | opens chunk event live completes outputs state done closed states called =>
      refine ⟨fun _ => done, .inr (.inl state), hcalled, ?_, ?_, ?_⟩
      · intro h3
        omega
      · intro hother hclosed
        rw [closes_append outputs, h.counted hother (closed ▸ hclosed)]
        rfl
      · intro hclosed
        rcases h.emitted (closed ▸ hclosed) with ⟨output, hmem, hclosing⟩
        exact ⟨output, outputs ▸ List.mem_append_left _ hmem, hclosing⟩
  | speaks frame rest text event draining read ends outputs state done closed states called =>
      refine ⟨fun _ => done ▸ h.draining draining, state ▸ h.range, hcalled, ?_, ?_, ?_⟩
      · intro h3
        exact hbegun (h.begun (state ▸ h3))
      · intro hother hclosed
        rw [closes_append outputs, h.counted hother (closed ▸ hclosed)]
        rfl
      · intro hclosed
        rcases h.emitted (closed ▸ hclosed) with ⟨output, hmem, hclosing⟩
        exact ⟨output, outputs ▸ List.mem_append_left _ hmem, hclosing⟩
  | called event bytes outputs state done closed draining states called =>
      refine ⟨?_, .inr (.inr state), hcalled, ?_, ?_, ?_⟩
      · rw [draining, done]
        exact h.draining
      · intro _
        left
        rw [called]
        cases m.calledAt with
        | none => simp
        | some n => simp
      · intro hother hclosed
        rw [closes_append outputs, h.counted hother (closed ▸ hclosed), countP_writes]
      · intro hclosed
        rcases h.emitted (closed ▸ hclosed) with ⟨output, hmem, hclosing⟩
        exact ⟨output, outputs ▸ List.mem_append_left _ hmem, hclosing⟩
  | does may does closes draining states called =>
      cases does with
      | quiet written outputs state done closed =>
          refine ⟨fun hrun => done ▸ draining hrun, state ▸ h.range, hcalled, ?_, ?_, ?_⟩
          · intro h3
            exact hbegun (h.begun (state ▸ h3))
          · intro hother hclosed
            rw [closes_append outputs, h.counted hother (closed ▸ hclosed), countP_writes]
          · intro hclosed
            rcases h.emitted (closed ▸ hclosed) with ⟨output, hmem, hclosing⟩
            exact ⟨output, outputs ▸ List.mem_append_left _ hmem, hclosing⟩
      | fails output outputs hcloses error state done closed =>
          have hlast : output ∈ m'.client.outputs := by
            rw [outputs]
            simp
          refine ⟨fun hrun => done ▸ draining hrun, .inr (.inr state), hcalled, ?_, ?_, ?_⟩
          · intro _
            exact .inr ⟨output, hlast, hcloses⟩
          · intro hother hclosed
            rw [closes_append outputs, h.counted hother (closed ▸ hclosed)]
            simp [error]
          · intro _
            exact ⟨output, hlast, hcloses⟩
      | closes code reason outputs state done allowed closed =>
          have hlast : .close code reason ∈ m'.client.outputs := by
            rw [outputs]
            simp
          refine ⟨fun hrun => done ▸ draining hrun, .inr (.inr state), hcalled, ?_, ?_, ?_⟩
          · intro _
            exact .inr ⟨_, hlast, rfl⟩
          · intro hother hclosed
            rw [(closed hother).2] at hclosed
            cases hclosed
          · intro _
            exact ⟨_, hlast, rfl⟩
      | stays outputs state done other before closed =>
          rcases h.emitted before with ⟨output, hmem, hclosing⟩
          refine ⟨fun hrun => done ▸ draining hrun, .inr (.inr state), hcalled, ?_, ?_, ?_⟩
          · intro _
            exact .inr ⟨output, outputs ▸ hmem, hclosing⟩
          · intro _ hclosed
            rw [closed] at hclosed
            cases hclosed
          · intro _
            exact ⟨output, outputs ▸ hmem, hclosing⟩

theorem run_append (c : Config) (before : List Event) (e : Event) :
    run c (before ++ [e]) = step c (run c before) e := by
  rw [run, List.foldl_append]
  rfl

theorem base_run (c : Config) (events : List Event) : Base c (run c events) := by
  induction events using List.reverseRecOn with
  | nil => exact base_start c
  | append_singleton events e ih =>
      rw [run_append]
      exact ih.step (step_cases c _ ih.draining ih.range e)

/-! ## Runs without a lapse -/

/-- Closing has been final so far, and the record ends with the value there is. -/
structure Settled (c : Config) (m : Machine) : Prop where
  base : Base c m
  final : Final m
  latest : ∀ n ∈ m.states, n ≤ m.client.readyState

/-- Outputs that do not open anything may follow at any time. -/
theorem Final.hushed {m : Machine} (h : Final m) {s' : State} {added : List Output}
    {states : List Nat} {called : Option Nat} {phase : Phase} {draining : Bool}
    (houtputs : s'.outputs = m.client.outputs ++ added) (hadded : ∀ o ∈ added, opening o = false)
    (hordered : states.Pairwise (· ≤ ·))
    (hbound : ∀ n, m.calledAt = some n → n ≤ m.client.outputs.length)
    (hcalled : called = m.calledAt ∨ called = m.calledAt.or (some m.client.outputs.length))
    (honce : closes s' ≤ 1) :
    Final { client := s', phase := phase, draining := draining, states := states,
            calledAt := called } := by
  refine ⟨hordered, ?_, ?_, honce⟩
  · rw [houtputs, List.pairwise_append]
    refine ⟨h.silent, List.pairwise_of_forall_mem_list ?_, ?_⟩
    · intro _ _ later hlater _
      rw [hadded later hlater]
      decide
    · intro _ _ later hlater _
      rw [hadded later hlater]
      decide
  · intro n hn output hmem
    have hlen : n ≤ m.client.outputs.length := by
      rcases hcalled with hsame | hor
      · exact hbound n (hsame ▸ hn)
      · cases hat : m.calledAt with
        | none =>
            simp only [hor, hat, Option.none_or, Option.some.injEq] at hn
            omega
        | some k =>
            simp only [hor, hat, Option.some_or] at hn
            exact hbound n (hat.trans hn)
    rw [houtputs, List.drop_append_of_le_length hlen, List.mem_append] at hmem
    rcases hmem with hold | hnew
    · -- an output after the first call of `close`
      cases hat : m.calledAt with
      | none =>
          rcases hcalled with hsame | hor
          · rw [hsame, hat] at hn
            cases hn
          · simp only [hor, hat, Option.none_or, Option.some.injEq] at hn
            rw [← hn, List.drop_length] at hold
            cases hold
      | some k =>
          have hk : k = n := by
            rcases hcalled with hsame | hor
            · exact Option.some.inj ((hsame.trans hat).symm.trans hn)
            · simp only [hor, hat, Option.some_or, Option.some.injEq] at hn
              exact hn
          exact h.obeyed n (hk ▸ hat) output hold
    · rw [hadded output hnew]
      decide

/-- Before the closing has begun, anything but a close may follow. -/
theorem Final.before {m : Machine} (h : Final m) (hbegun : ¬ Begun m) {s' : State}
    {output : Output} {states : List Nat} {called : Option Nat} {phase : Phase} {draining : Bool}
    (houtputs : s'.outputs = m.client.outputs ++ [output]) (hordered : states.Pairwise (· ≤ ·))
    (hcalled : called = m.calledAt) (honce : closes s' ≤ 1) :
    Final { client := s', phase := phase, draining := draining, states := states,
            calledAt := called } := by
  refine ⟨hordered, ?_, ?_, honce⟩
  · rw [houtputs, List.pairwise_append]
    refine ⟨h.silent, List.pairwise_singleton _ _, ?_⟩
    intro first hfirst later _ hclosing
    exact absurd (.inr ⟨first, hfirst, hclosing⟩) hbegun
  · intro n hn
    refine absurd (.inl ?_) hbegun
    change called = some n at hn
    rw [← hcalled, hn]
    simp

theorem pairwise_le_append {states : List Nat} (h : states.Pairwise (· ≤ ·)) {top : Nat}
    (htop : ∀ n ∈ states, n ≤ top) {more : List Nat} (hmore : more.Pairwise (· ≤ ·))
    (hle : ∀ n ∈ more, top ≤ n) : (states ++ more).Pairwise (· ≤ ·) := by
  rw [List.pairwise_append]
  refine ⟨h, hmore, ?_⟩
  intro n hn k hk
  exact le_trans (htop n hn) (hle k hk)

theorem Settled.step {c : Config} {m m' : Machine} {e : Event} (h : Settled c m)
    (hstep : Step c m e m') (hlapse : ¬ Lapses c m e) : Settled c m' := by
  have hbase := h.base.step hstep
  rcases m' with ⟨s', phase, draining', states', called'⟩
  have hrange := h.base.range
  -- the values of `readyState` where one more is added to the record
  have hone : ∀ {n}, m.client.readyState ≤ n → states' = m.states ++ [n] → s'.readyState = n →
      states'.Pairwise (· ≤ ·) ∧ ∀ k ∈ states', k ≤ s'.readyState := by
    intro n hn hstates hstate
    rw [hstates]
    refine ⟨pairwise_le_append h.final.ordered h.latest (List.pairwise_singleton _ _) ?_, ?_⟩
    · intro k hk
      rw [List.mem_singleton.mp hk]
      exact hn
    · intro k hk
      rw [hstate]
      rcases List.mem_append.mp hk with hold | hnew
      · exact le_trans (h.latest k hold) hn
      · rw [List.mem_singleton.mp hnew]
  cases hstep with
  | idle client draining states called =>
      simp only at client states called
      refine ⟨hbase, ?_, ?_⟩
      · have hsame : s'.outputs = m.client.outputs ++ [] := by rw [client, List.append_nil]
        refine h.final.hushed hsame ?_ ?_ h.base.called (.inl called) ?_
        · intro o ho
          cases ho
        · exact states ▸ h.final.ordered
        · exact client ▸ h.final.once
      · rw [client, states]
        exact h.latest
  | opens chunk event live completes outputs state done closed states called =>
      simp only at outputs state closed states called
      have hbegun : ¬ Begun m := by
        intro hbegun
        rw [event] at hlapse
        exact hlapse (.upgrade hbegun live completes)
      have hready : m.client.readyState ≤ 1 := by
        have h3 : m.client.readyState ≠ 3 := fun h3 => hbegun (h.base.begun h3)
        omega
      rcases hone hready states state with ⟨hordered, hlatest⟩
      refine ⟨hbase, h.final.before hbegun outputs hordered called ?_, hlatest⟩
      rw [closes_append outputs]
      exact h.final.once
  | speaks frame rest text event draining read ends outputs state done closed states called =>
      simp only at outputs state closed states called
      have hbegun : ¬ Begun m := by
        intro hbegun
        rw [event] at hlapse
        exact hlapse (.text hbegun draining read ends)
      rcases hone (le_refl _) states state with ⟨hordered, hlatest⟩
      refine ⟨hbase, h.final.before hbegun outputs hordered called ?_, hlatest⟩
      rw [closes_append outputs]
      exact h.final.once
  | called event bytes outputs state done closed draining states called =>
      simp only at outputs state closed states called
      rcases states with ⟨more, hstates, hmore, hvalues⟩
      refine ⟨hbase, ?_, ?_⟩
      · refine h.final.hushed outputs ?_ ?_ h.base.called (.inr called) ?_
        · intro o ho
          exact (not_closing_write ho).2.1
        · rw [hstates]
          exact pairwise_le_append h.final.ordered h.latest hmore fun n hn => (hvalues n hn).1
        · rw [closes_append outputs, countP_writes]
          exact h.final.once
      · intro n hn
        rw [state]
        rw [hstates, List.mem_append] at hn
        rcases hn with hold | hnew
        · have hle := h.latest n hold
          omega
        · exact (hvalues n hnew).2
  | does may does closes draining states called =>
      simp only at does states called
      cases does with
      | quiet written outputs state done closed =>
          rcases hone (le_refl _) (state ▸ states) state with ⟨hordered, hlatest⟩
          refine ⟨hbase, h.final.hushed outputs ?_ hordered h.base.called (.inl called) ?_, hlatest⟩
          · intro o ho
            exact (not_closing_write ho).2.1
          · rw [closes_append outputs, countP_writes]
            exact h.final.once
      | fails output outputs hcloses error state done closed =>
          rcases hone (by omega) (state ▸ states) state with ⟨hordered, hlatest⟩
          refine ⟨hbase, h.final.hushed outputs ?_ hordered h.base.called (.inl called) ?_, hlatest⟩
          · intro o ho
            rw [List.mem_singleton.mp ho]
            cases output <;> first | rfl | cases hcloses
          · rw [closes_append outputs]
            have hzero : [output].countP isClose = 0 := by simp [error]
            rw [hzero]
            exact h.final.once
      | closes code reason outputs state done allowed closed =>
          rcases hone (by omega) (state ▸ states) state with ⟨hordered, hlatest⟩
          -- no close has been reported before this one
          have hfirst : Closing.closes m.client = 0 := by
            by_cases hpi : c.client = .pi
            · by_contra hclosed
              rcases closes allowed with ⟨frame, rest, hevent, hrun, hread, h8⟩ | ⟨hevent, hlive⟩
              · rw [hevent] at hlapse
                exact hlapse (.closeFrame hpi (Nat.pos_of_ne_zero hclosed) hrun hread h8)
              · rw [hevent] at hlapse
                exact hlapse (.socketClose hpi (Nat.pos_of_ne_zero hclosed) hlive)
            · exact h.base.counted hpi (closed hpi).1
          refine ⟨hbase, h.final.hushed outputs ?_ hordered h.base.called (.inl called) ?_, hlatest⟩
          · intro o ho
            rw [List.mem_singleton.mp ho]
            rfl
          · rw [closes_append outputs, hfirst]
            exact le_refl 1
      | stays outputs state done other before closed =>
          rcases hone (by omega) (state ▸ states) state with ⟨hordered, hlatest⟩
          have hnone : s'.outputs = m.client.outputs ++ [] := by rw [outputs, List.append_nil]
          refine ⟨hbase, h.final.hushed hnone ?_ hordered h.base.called (.inl called) ?_, hlatest⟩
          · intro o ho
            cases ho
          · have hsame : Closing.closes s' = Closing.closes m.client := by
              unfold Closing.closes
              rw [outputs]
            rw [hsame]
            exact h.final.once

theorem settled_start (c : Config) : Settled c .start := by
  refine ⟨base_start c, ⟨List.pairwise_singleton _ _, List.Pairwise.nil, ?_, ?_⟩, ?_⟩
  · intro called hcalled
    cases hcalled
  · exact Nat.zero_le 1
  · intro n hn
    rw [List.mem_singleton.mp hn]
    exact Nat.le_refl 0

/-- No step of the run is one that the source leaves without a guard. -/
def Clear (c : Config) (events : List Event) : Prop :=
  ∀ before e, before ++ [e] <+: events → ¬ Lapses c (run c before) e

theorem settled_run {c : Config} {events : List Event} (h : Clear c events) :
    Settled c (run c events) := by
  induction events using List.reverseRecOn with
  | nil => exact settled_start c
  | append_singleton events e ih =>
      have hbefore : Settled c (run c events) := by
        apply ih
        intro before e' hleads
        exact h before e' (hleads.trans (List.prefix_append events [e]))
      rw [run_append]
      exact hbefore.step (step_cases c _ hbefore.base.draining hbefore.base.range e)
        (h events e (List.prefix_refl _))

/-! ## A lapse shows -/

/-- What opens after the closing has begun is heard. -/
theorem not_final_of_opening {m : Machine} (hbegun : Begun m)
    (hbound : ∀ n, m.calledAt = some n → n ≤ m.client.outputs.length) {m' : Machine}
    {output : Output} (houtputs : m'.client.outputs = m.client.outputs ++ [output])
    (hcalled : m'.calledAt = m.calledAt) (hopening : opening output) : ¬ Final m' := by
  intro hfinal
  rcases hbegun with hat | ⟨first, hmem, hclosing⟩
  · rcases Option.ne_none_iff_exists'.mp hat with ⟨n, hn⟩
    have hlast : output ∈ m'.client.outputs.drop n := by
      rw [houtputs, List.drop_append_of_le_length (hbound n hn)]
      simp
    exact hfinal.obeyed n (hcalled.trans hn) output hlast hopening
  · have hsilent := hfinal.silent
    rw [houtputs, List.pairwise_append] at hsilent
    exact hsilent.2.2 first hmem output List.mem_cons_self hclosing hopening

theorem not_final_of_close {m m' : Machine} (hclosed : 0 < closes m.client) {code : Nat}
    {reason : Units} (houtputs : m'.client.outputs = m.client.outputs ++ [.close code reason]) :
    ¬ Final m' := by
  intro hfinal
  have honce := hfinal.once
  rw [closes_append houtputs] at honce
  have hone : [Output.close code reason].countP isClose = 1 := rfl
  omega

theorem not_final_of_lapse {c : Config} {m : Machine} {e : Event}
    (hbound : ∀ n, m.calledAt = some n → n ≤ m.client.outputs.length) (h : Lapses c m e) :
    ¬ Final (step c m e) := by
  cases h with
  | upgrade begun live completes =>
      rcases onChunk_completes completes with ⟨rxBuffer, hchunk⟩
      simp only [step, if_pos live, hchunk]
      exact not_final_of_opening begun hbound rfl rfl rfl
  | text begun draining read ends =>
      rename_i frame rest
      rcases handleFrame_endsText c (s := { m.client with rxBuffer := rest }) ends with
        ⟨text, hframe⟩
      simp only [step, if_pos draining, drainRound, read, hframe]
      exact not_final_of_opening begun hbound rfl rfl rfl
  | closeFrame pi closed draining read close =>
      simp only [step, if_pos draining, drainRound, read]
      apply not_final_of_close (m := m) closed
      simp only [Machine.turn, handleFrame, close, handleClose, emitClose, pi]
      rfl
  | socketClose pi closed live =>
      simp only [step, if_pos live]
      have hopen : m.client.socketClosed = false := by
        simp [Machine.live] at live
        exact live.2
      apply not_final_of_close (m := m) closed
      simp only [Machine.turn, onSocketClose, hopen, emitClose, pi]
      rfl

/-- A peer that accepts. -/
def acceptedBytes : Bytes := Units.of "HTTP/1.1 101 OK\r\nSec-WebSocket-Accept: key\r\n\r\n"

def plainConfig (client : Client) : Config :=
  { client := client, expectedAccept := Units.of "key", mask := fun _ _ => 0, endCloses := false,
    bodyComplete := fun _ _ => true }

theorem states_early (client : Client) :
    (run (plainConfig client) [.close, .connected, .data acceptedBytes]).states = [0, 2, 3, 1] := by
  cases client <;> decide +kernel

end RawWs.Closing
