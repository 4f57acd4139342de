import Mathlib.Data.List.Induction
import OpenaiAuth.WebSocket.Stream

/-! # Settling

`streamResponsesWebSocket` with all that may happen to it: the socket's listeners, the
idle timer, the caller's signal, a reader that cancels, and the `await` of
`onRetryableTerminal`. `log` has, in order, what the stream does to its body, its owner
and its socket. The owner's functions return, and do not call back.

Main results:

* `stream_message`, `stream_answered`: the frames are handled as in `onMessage`;
* `step_open`, `step_settled`: what one event does to a stream that goes on, and to one that
  has settled;
* `settles_once`: in every run the stream settles once, for its body and its owner, and
  nothing that comes later, or while the owner is asked, has an effect.
-/

namespace WebSocket.Settling

open Js

/-! ## The machine -/

inductive Effect where
  | call (callback : Callback)
  | onAbort (message : String)
  | enqueue (chunk : Chunk)
  | close
  | error (error : BodyError)
  /-- The reader cancels the body. -/
  | cancel
  /-- `terminateSocket` -/
  | terminate
deriving Repr, DecidableEq

/-- What a stream is started with: whether its owner has an `onRetryableTerminal`, and
whether there is an idle timeout. -/
structure Setup where
  js : Builtins
  retries : Bool
  idleTimeout : Bool

structure Machine where
  stream : State
  log : List Effect
  /-- The socket has the stream's listeners. -/
  listening : Bool
  /-- What the idle timer will say. -/
  timer : Option String
  /-- The signal has the stream's listener. -/
  signal : Bool
  /-- The frame that the owner has been asked about. -/
  awaiting : Option (String × Json)

namespace Machine

def call (callback : Callback) (m : Machine) : Machine :=
  { m with stream := m.stream.call callback, log := m.log ++ [.call callback] }

def enqueue (chunk : Chunk) (m : Machine) : Machine :=
  { m with stream := m.stream.enqueue chunk, log := m.log ++ [.enqueue chunk] }

/-- `controller.close()` -/
def close (m : Machine) : Machine :=
  { m with stream := { m.stream with ending := some .closed }, log := m.log ++ [.close] }

/-- `controller.error(error)` -/
def error (error : BodyError) (m : Machine) : Machine :=
  { m with stream := m.stream.error error, log := m.log ++ [.error error] }

def note (effect : Effect) (m : Machine) : Machine := { m with log := m.log ++ [effect] }

def cleanup (m : Machine) : Machine :=
  { m with listening := false, timer := none, signal := false }

/-- `completed = true` -/
def complete (m : Machine) : Machine := { m with stream := m.stream.complete }

def closeCompleted (m : Machine) : Machine := (m.cleanup.enqueue .done).close

def closeWithSyntheticCompletion (m : Machine) : Machine :=
  (m.enqueue .syntheticCompleted).closeCompleted

def fail (error : BodyError) (connectionError : ResponseStreamError) (m : Machine) : Machine :=
  if m.stream.completed then m
  else (m.complete.cleanup.call (.onConnectionInvalid connectionError)).error error

def invalidate (error : ResponseStreamError) (m : Machine) : Machine := m.fail (.stream error) error

def invalidateTransport (error : ResponseStreamError) (m : Machine) : Machine :=
  match m.stream.outputShape with
  | .finishedCalls =>
      if m.stream.completed then m
      else (m.complete.cleanup.call (.onConnectionInvalid error)).closeWithSyntheticCompletion
  | .other => m.fail noReplay { message := terminalAfterOutputMessage }
  | .none | .unfinishedCalls => m.invalidate error

def resetIdleTimeout (o : Setup) (message : String) (m : Machine) : Machine :=
  if m.stream.completed ∨ o.idleTimeout = false then m else { m with timer := some message }

def waitingMessage : String := "idle timeout waiting for websocket"

def attach (o : Setup) (next : Replacement) (m : Machine) : Machine :=
  let m := { m with listening := true }.resetIdleTimeout o "idle timeout sending websocket request"
  match next.sendError with
  | none => m.resetIdleTimeout o waitingMessage
  | some message => if m.stream.completed then m else m.invalidate { message }

def firstEvent (error : Option WrappedError) (m : Machine) : Machine :=
  if m.stream.emitted then m else m.call (.onFirstEvent error)

/-! ### Frames -/

def refuseAdmission (signal : RateLimitSignal) (event : Json) (m : Machine) : Machine :=
  (((m.complete.cleanup.call (.onRateLimitReached signal.window signal.resetAt)).call
    (.onTerminal event)).call (.onFirstEvent none)).error
      (.stream { message := "OpenAI account rate limit reached at admission (" ++ signal.window ++ ")" })

def failWrapped (wrapped : WrappedError) (event : Json) (m : Machine) : Machine :=
  let m := (m.firstEvent (some wrapped)).complete.cleanup.call (.onTerminal event)
  match m.stream.outputShape with
  | .none | .unfinishedCalls => m.error (.apiCall wrapped)
  | .finishedCalls => m.closeWithSyntheticCompletion
  | .other => m.error noReplay

def failRateLimited (label : String) (event : Json) (m : Machine) : Machine :=
  let m := (m.complete.cleanup.call (.onRateLimitReached label none)).call (.onTerminal event)
  match m.stream.outputShape with
  | .none | .unfinishedCalls =>
      (m.call (.onFirstEvent none)).error
        (.stream { message := "OpenAI account rate limit reached mid-stream (" ++ label ++ ")" })
  | .finishedCalls => m.closeWithSyntheticCompletion
  | .other => m.closeCompleted

def settle (event : Json) (m : Machine) : Machine :=
  if event.type? = some "response.completed" ∨ event.type? = some "response.done" then
    let ids := collectFinalizedFromResponse event m.stream.finalizedFunctionCallIds
    let m := { m with stream := { m.stream.complete with finalizedFunctionCallIds := ids } }
    ((m.call (.onComplete event ids)).call (.onTerminal event)).closeCompleted
  else if event.type? = some "response.failed" ∨ event.type? = some "response.incomplete" ∨
      event.type? = some "error" then
    (m.complete.call (.onTerminal event)).closeCompleted
  else m

def enqueueFrame (text : String) (event : Json) (m : Machine) : Machine :=
  let ids := recordFinalizedFunctionCall event m.stream.finalizedFunctionCallIds
  let m := { m with stream := { m.stream with finalizedFunctionCallIds := ids } }
  let m := (m.firstEvent none).enqueue (.frame text event)
  { m with stream := { m.stream with emitted := true } }

def forward (o : Setup) (text : String) (event : Json) (m : Machine) : Machine :=
  let m := m.enqueueFrame text event
  match m.stream.recordFrame event with
  -- the call of `onMessage` rejects here
  | none => m
  | some stream => ({ m with stream := stream }.resetIdleTimeout o waitingMessage).settle event

/-- What follows the owner's answer, or the frame that it is not asked about. -/
def afterAsking (o : Setup) (text : String) (event : Json) (m : Machine) : Machine :=
  match parseWrappedError o.js event text with
  | some wrapped => m.failWrapped wrapped event
  | none =>
    match rateLimitReachedType event with
    | some label => m.failRateLimited label event
    | none => m.forward o text event

def asOptions (o : Setup) : Options := { js := o.js }

def onEvent (o : Setup) (at_ : Rat) (text : String) (event : Json) (m : Machine) : Machine :=
  if event.type? = some "codex.rate_limits" then
    (m.resetIdleTimeout o waitingMessage).call (.onQuota event)
  else
    match admissionRateLimit (asOptions o) m.stream at_ event with
    | some signal => m.refuseAdmission signal event
    | none =>
      if o.retries ∧ event.type? = some "error" then
        { m with listening := false, timer := none, awaiting := some (text, event) }
      else m.afterAsking o text event

def onMessage (o : Setup) (at_ : Rat) (data : Data) (m : Machine) : Machine :=
  if m.stream.completed then m
  else
    match data with
    | .binary => m.invalidateTransport { message := "Unexpected binary WebSocket frame" }
    | .text text =>
      match eventOf o.js text with
      | none => (m.firstEvent none).resetIdleTimeout o waitingMessage
      | some event => m.onEvent o at_ text event

/-- The owner's answer. -/
def onAnswer (o : Setup) (answer : Except String (Option Replacement)) (m : Machine) : Machine :=
  match m.awaiting with
  | none => m
  | some (text, event) =>
      let m := { m with awaiting := none }
      match answer with
      | .ok none => if m.stream.completed then m else m.afterAsking o text event
      | .ok (some next) => if m.stream.completed then m.note .terminate else m.attach o next
      | .error message => m.invalidateTransport { message }

/-! ### The socket, the caller and the reader -/

def onError (message : String) (m : Machine) : Machine := m.invalidateTransport { message }

def onClose (code : Nat) (reason : String) (m : Machine) : Machine :=
  if m.stream.completed then m
  else
    let oversized := code == 1009
    m.invalidateTransport
      { message :=
          if oversized then oversizedFrameMessage
          else closeMessage "WebSocket closed before response.completed" code reason
        retryable := !oversized
        oversized }

def onAbort (message : String) (m : Machine) : Machine :=
  if m.stream.completed then m
  else ((m.complete.cleanup.note .terminate).note (.onAbort message)).error (.plain message)

/-- The body is cancelled before its source hears of it. -/
def onCancel (message : String) (m : Machine) : Machine :=
  if m.stream.completed then m
  else (((m.note .cancel).complete.cleanup).note .terminate).note (.onAbort message)

end Machine

inductive Event where
  | message (data : Data) (at_ : Rat)
  | error (message : String)
  | close (code : Nat) (reason : String)
  | idle
  | abort (message : String)
  | cancel (message : String)
  | answered (answer : Except String (Option Replacement))

def step (o : Setup) (m : Machine) : Event → Machine
  | .message data at_ => if m.listening then m.onMessage o at_ data else m
  | .error message => if m.listening then m.onError message else m
  | .close code reason => if m.listening then m.onClose code reason else m
  | .idle =>
      match m.timer with
      | none => m
      | some message => { m with timer := none }.invalidateTransport { message }
  | .abort message => if m.signal then m.onAbort message else m
  | .cancel message => m.onCancel message
  | .answered answer => m.onAnswer o answer

/-- The caller's signal: none, one that may be aborted, or one that has been. -/
inductive Signal where
  | absent
  | pending
  | aborted (message : String)
deriving Repr, DecidableEq

def start (o : Setup) (socket : Replacement) (signal : Signal) : Machine :=
  let m : Machine :=
    { stream := {}, log := [], listening := false, timer := none, signal := signal ≠ .absent,
      awaiting := none }
  match signal with
  | .aborted message => m.onAbort message
  | _ => m.attach o socket

def run (o : Setup) (socket : Replacement) (signal : Signal) (events : List Event) : Machine :=
  events.foldl (step o) (start o socket signal)

/-! ## The frames are handled as before -/

namespace Machine

section

variable (m : Machine)

@[simp] theorem stream_call (callback : Callback) :
    (m.call callback).stream = m.stream.call callback := rfl

@[simp] theorem stream_enqueue (chunk : Chunk) : (m.enqueue chunk).stream = m.stream.enqueue chunk :=
  rfl

@[simp] theorem stream_error (error : BodyError) : (m.error error).stream = m.stream.error error :=
  rfl

@[simp] theorem stream_cleanup : m.cleanup.stream = m.stream := rfl

@[simp] theorem stream_complete : m.complete.stream = m.stream.complete := rfl

@[simp] theorem stream_note (effect : Effect) : (m.note effect).stream = m.stream := rfl

@[simp] theorem stream_closeCompleted : m.closeCompleted.stream = m.stream.closeCompleted := rfl

@[simp] theorem stream_closeWithSyntheticCompletion :
    m.closeWithSyntheticCompletion.stream = m.stream.closeWithSyntheticCompletion := rfl

@[simp] theorem stream_fail (error : BodyError) (connectionError : ResponseStreamError) :
    (m.fail error connectionError).stream = m.stream.fail error connectionError := by
  unfold fail State.fail
  split
  · rfl
  · rfl

@[simp] theorem stream_invalidate (error : ResponseStreamError) :
    (m.invalidate error).stream = m.stream.invalidate error := m.stream_fail (.stream error) error

@[simp] theorem stream_invalidateTransport (error : ResponseStreamError) :
    (m.invalidateTransport error).stream = m.stream.invalidateTransport error := by
  unfold invalidateTransport State.invalidateTransport
  cases m.stream.outputShape with
  | finishedCalls =>
      simp only
      split
      · rfl
      · rfl
  | other => exact m.stream_fail _ _
  | none => exact m.stream_invalidate error
  | unfinishedCalls => exact m.stream_invalidate error

@[simp] theorem stream_resetIdleTimeout (o : Setup) (message : String) :
    (m.resetIdleTimeout o message).stream = m.stream := by
  unfold resetIdleTimeout
  split
  · rfl
  · rfl

@[simp] theorem stream_attach (o : Setup) (next : Replacement) :
    (m.attach o next).stream = m.stream.attach next := by
  unfold attach State.attach
  cases next.sendError with
  | none => simp
  | some message =>
      simp only [stream_resetIdleTimeout]
      split
      · simp
      · simp

@[simp] theorem stream_firstEvent (error : Option WrappedError) :
    (m.firstEvent error).stream = m.stream.firstEvent error := by
  unfold firstEvent State.firstEvent
  split
  · rfl
  · rfl

theorem stream_failWrapped (wrapped : WrappedError) (event : Json) :
    (m.failWrapped wrapped event).stream = m.stream.failWrapped wrapped event := by
  unfold failWrapped State.failWrapped
  simp only [stream_call, stream_cleanup, stream_complete, stream_firstEvent]
  split
  all_goals simp_all

theorem stream_failRateLimited (label : String) (event : Json) :
    (m.failRateLimited label event).stream = m.stream.failRateLimited label event := by
  unfold failRateLimited State.failRateLimited
  simp only [stream_call, stream_cleanup, stream_complete]
  split
  all_goals simp_all

theorem stream_settle (event : Json) : (m.settle event).stream = m.stream.settle event := by
  unfold settle State.settle
  split
  · rfl
  · split
    · rfl
    · rfl

theorem stream_enqueueFrame (text : String) (event : Json) :
    (m.enqueueFrame text event).stream = m.stream.enqueueFrame text event := by
  unfold enqueueFrame State.enqueueFrame
  simp

theorem stream_forward (o : Setup) (text : String) (event : Json) :
    (m.forward o text event).stream = m.stream.forward text event := by
  unfold forward State.forward
  simp only [stream_enqueueFrame]
  cases hrecord : (m.stream.enqueueFrame text event).recordFrame event with
  | none => exact m.stream_enqueueFrame text event
  | some stream =>
      simp only [stream_settle, stream_resetIdleTimeout]

theorem stream_afterAsking (o : Setup) (text : String) (event : Json) :
    (m.afterAsking o text event).stream =
      match parseWrappedError o.js event text with
      | some wrapped => m.stream.failWrapped wrapped event
      | none =>
        match rateLimitReachedType event with
        | some label => m.stream.failRateLimited label event
        | none => m.stream.forward text event := by
  unfold afterAsking
  split
  · exact m.stream_failWrapped _ event
  · split
    · exact m.stream_failRateLimited _ event
    · exact m.stream_forward o text event

theorem stream_onEvent (o : Setup) (at_ : Rat) (text : String) (event : Json)
    (hasked : ¬(o.retries = true ∧ event.type? = some "error")) :
    (m.onEvent o at_ text event).stream =
      WebSocket.onEvent (asOptions o) at_ text event m.stream := by
  unfold onEvent WebSocket.onEvent
  by_cases hquota : event.type? = some "codex.rate_limits"
  · rw [if_pos hquota, if_pos hquota]
    simp
  · rw [if_neg hquota, if_neg hquota]
    cases hsignal : admissionRateLimit (asOptions o) m.stream at_ event with
    | some signal => rfl
    | none =>
        simp only [if_neg hasked]
        exact m.stream_afterAsking o text event

/-- Where the owner has no `onRetryableTerminal`, a message is handled as in `onMessage`. -/
theorem stream_message (o : Setup) (hretries : o.retries = false) (at_ : Rat) (data : Data) :
    (m.onMessage o at_ data).stream = WebSocket.onMessage (asOptions o) at_ data m.stream := by
  unfold onMessage WebSocket.onMessage
  by_cases hdone : m.stream.completed = true
  · rw [if_pos hdone, if_pos hdone]
  · rw [if_neg hdone, if_neg hdone]
    cases data with
    | binary => exact m.stream_invalidateTransport _
    | text text =>
        cases hevent : eventOf o.js text with
        | none =>
            simp only [asOptions, hevent]
            simp
        | some event =>
            simp only [asOptions, hevent]
            apply m.stream_onEvent o at_ text event
            simp [hretries]

end

end Machine

/-! ## What is logged -/

namespace Effect

/-- `onTerminal`, `onConnectionInvalid` or `onAbort` -/
def isTerminal : Effect → Bool
  | .call (.onTerminal _) | .call (.onConnectionInvalid _) | .onAbort _ => true
  | _ => false

/-- The body is closed, errored or cancelled. -/
def isEnding : Effect → Bool
  | .close | .error _ | .cancel => true
  | _ => false

def isEnqueue : Effect → Bool
  | .enqueue _ => true
  | _ => false

def isComplete : Effect → Bool
  | .call (.onComplete _ _) => true
  | _ => false

/-- What an open stream may do. -/
def isQuiet (e : Effect) : Bool := !e.isTerminal && !e.isEnding && !e.isComplete

theorem isQuiet_iff {e : Effect} :
    e.isQuiet = true ↔ e.isTerminal = false ∧ e.isEnding = false ∧ e.isComplete = false := by
  simp [isQuiet, and_assoc]

end Effect

/-- A body that has ended does not end again, and nothing is enqueued on it. -/
def Silent (a b : Effect) : Prop :=
  a.isEnding = true → b.isEnding = false ∧ b.isEnqueue = false

/-- Every `onComplete` is for a `response.completed` or `response.done` that was sent,
and the next thing is `onTerminal`. -/
def Completes (sent : Json → Prop) (log : List Effect) : Prop :=
  ∀ i event ids, log[i]? = some (.call (.onComplete event ids)) →
    sent event ∧
      (event.type? = some "response.completed" ∨ event.type? = some "response.done") ∧
      log[i + 1]? = some (.call (.onTerminal event))

/-- The log of a stream that has settled. -/
structure Settles (sent : Json → Prop) (log : List Effect) : Prop where
  terminal : log.countP Effect.isTerminal = 1
  ending : log.countP Effect.isEnding = 1
  silent : log.Pairwise Silent
  completes : Completes sent log

theorem Completes.of_plain {sent : Json → Prop} {log : List Effect}
    (hplain : ∀ e ∈ log, e.isComplete = false) : Completes sent log := by
  intro i event ids hi
  have hcomplete := hplain _ (List.mem_of_getElem? hi)
  simp [Effect.isComplete] at hcomplete

theorem Completes.prepend {sent : Json → Prop} {quiet log : List Effect}
    (hquiet : ∀ e ∈ quiet, e.isComplete = false) (h : Completes sent log) :
    Completes sent (quiet ++ log) := by
  intro i event ids hi
  by_cases hlt : i < quiet.length
  · rw [List.getElem?_append_left hlt] at hi
    have hcomplete := hquiet _ (List.mem_of_getElem? hi)
    simp [Effect.isComplete] at hcomplete
  · rw [List.getElem?_append_right (by omega)] at hi
    obtain ⟨hsent, htype, hnext⟩ := h _ event ids hi
    refine ⟨hsent, htype, ?_⟩
    rw [List.getElem?_append_right (by omega)]
    rwa [show i + 1 - quiet.length = i - quiet.length + 1 by omega]

namespace Settles

variable {sent : Json → Prop} {log : List Effect}

theorem mono {sent' : Json → Prop} (hsent : ∀ event, sent event → sent' event)
    (h : Settles sent log) : Settles sent' log := by
  refine ⟨h.terminal, h.ending, h.silent, ?_⟩
  intro i event ids hi
  obtain ⟨hs, htype, hnext⟩ := h.completes i event ids hi
  exact ⟨hsent event hs, htype, hnext⟩

/-- What the stream did before it settled. -/
theorem prepend {quiet : List Effect} (hquiet : ∀ e ∈ quiet, e.isQuiet = true)
    (h : Settles sent log) : Settles sent (quiet ++ log) := by
  have hterminal : quiet.countP Effect.isTerminal = 0 := by
    rw [List.countP_eq_zero]
    intro e he
    simp [(Effect.isQuiet_iff.mp (hquiet e he)).1]
  have hending : ∀ e ∈ quiet, e.isEnding = false := by
    intro e he
    exact (Effect.isQuiet_iff.mp (hquiet e he)).2.1
  refine ⟨?_, ?_, ?_, ?_⟩
  · rw [List.countP_append, hterminal, h.terminal]
  · rw [List.countP_append, h.ending, List.countP_eq_zero.mpr]
    intro e he
    simp [hending e he]
  · rw [List.pairwise_append]
    refine ⟨?_, h.silent, ?_⟩
    · apply List.pairwise_of_forall_mem_list
      intro a ha b _ hend
      rw [hending a ha] at hend
      cases hend
    · intro a ha b _ hend
      rw [hending a ha] at hend
      cases hend
  · apply Completes.prepend _ h.completes
    intro e he
    exact (Effect.isQuiet_iff.mp (hquiet e he)).2.2

/-- The socket of a late answer is closed: this says nothing to anyone. -/
theorem terminate (h : Settles sent log) : Settles sent (log ++ [.terminate]) := by
  refine ⟨?_, ?_, ?_, ?_⟩
  · rw [List.countP_append, h.terminal]
    rfl
  · rw [List.countP_append, h.ending]
    rfl
  · rw [List.pairwise_append]
    refine ⟨h.silent, List.pairwise_singleton _ _, ?_⟩
    intro a _ b hb _
    rw [List.mem_singleton.mp hb]
    exact ⟨rfl, rfl⟩
  · intro i event ids hi
    have hlt : i < log.length := by
      by_contra hge
      rw [List.getElem?_append_right (by omega)] at hi
      have hmem := List.mem_singleton.mp (List.mem_of_getElem? hi)
      cases hmem
    rw [List.getElem?_append_left hlt] at hi
    obtain ⟨hsent, htype, hnext⟩ := h.completes i event ids hi
    refine ⟨hsent, htype, ?_⟩
    rw [List.getElem?_append_left (List.getElem?_eq_some_iff.mp hnext).1]
    exact hnext

end Settles

/-! ## How a handler leaves an open stream -/

/-- The stream goes on: what is added to the log is quiet. -/
structure Quietly (m m' : Machine) : Prop where
  completed : m'.stream.completed = m.stream.completed
  listening : m'.listening = m.listening
  awaiting : m'.awaiting = m.awaiting
  log : ∃ added, m'.log = m.log ++ added ∧ ∀ e ∈ added, e.isQuiet = true

theorem Quietly.refl (m : Machine) : Quietly m m :=
  ⟨rfl, rfl, rfl, [], (List.append_nil _).symm, by simp⟩

theorem Quietly.trans {m₁ m₂ m₃ : Machine} (h₁ : Quietly m₁ m₂) (h₂ : Quietly m₂ m₃) :
    Quietly m₁ m₃ := by
  obtain ⟨added₁, hlog₁, hquiet₁⟩ := h₁.log
  obtain ⟨added₂, hlog₂, hquiet₂⟩ := h₂.log
  refine ⟨h₂.completed.trans h₁.completed, h₂.listening.trans h₁.listening,
    h₂.awaiting.trans h₁.awaiting, added₁ ++ added₂, ?_, ?_⟩
  · rw [hlog₂, hlog₁, List.append_assoc]
  · intro e he
    rcases List.mem_append.mp he with he | he
    · exact hquiet₁ e he
    · exact hquiet₂ e he

/-- The stream settles: all its listeners are gone, and so is the timer. -/
structure Ends (sent : Json → Prop) (m m' : Machine) : Prop where
  completed : m'.stream.completed = true
  stopped : m'.listening = false ∧ m'.timer = none ∧ m'.signal = false
  awaiting : m'.awaiting = m.awaiting
  log : ∃ added, m'.log = m.log ++ added ∧ Settles sent added

theorem Ends.after {sent : Json → Prop} {m₁ m₂ m₃ : Machine} (h₁ : Quietly m₁ m₂)
    (h₂ : Ends sent m₂ m₃) : Ends sent m₁ m₃ := by
  obtain ⟨added₁, hlog₁, hquiet⟩ := h₁.log
  obtain ⟨added₂, hlog₂, hsettles⟩ := h₂.log
  refine ⟨h₂.completed, h₂.stopped, h₂.awaiting.trans h₁.awaiting, added₁ ++ added₂, ?_,
    hsettles.prepend hquiet⟩
  rw [hlog₂, hlog₁, List.append_assoc]

namespace Machine

variable (m : Machine)

theorem quietly_call (callback : Callback) (hquiet : (Effect.call callback).isQuiet = true) :
    Quietly m (m.call callback) := by
  refine ⟨rfl, rfl, rfl, [.call callback], rfl, ?_⟩
  intro e he
  rwa [List.mem_singleton.mp he]

theorem quietly_firstEvent (error : Option WrappedError) : Quietly m (m.firstEvent error) := by
  unfold firstEvent
  split
  · exact Quietly.refl m
  · exact m.quietly_call _ rfl

theorem quietly_resetIdleTimeout (o : Setup) (message : String) :
    Quietly m (m.resetIdleTimeout o message) := by
  unfold resetIdleTimeout
  split
  · exact Quietly.refl m
  · exact ⟨rfl, rfl, rfl, [], (List.append_nil _).symm, by simp⟩

theorem quietly_enqueueFrame (text : String) (event : Json) :
    Quietly m (m.enqueueFrame text event) := by
  unfold enqueueFrame
  simp only
  generalize hids : recordFinalizedFunctionCall event m.stream.finalizedFunctionCallIds = ids
  have hfirst := quietly_firstEvent
    { m with stream := { m.stream with finalizedFunctionCallIds := ids } } none
  obtain ⟨added, hlog, hquiet⟩ := hfirst.log
  refine ⟨hfirst.completed, hfirst.listening, hfirst.awaiting,
    added ++ [.enqueue (.frame text event)], ?_, ?_⟩
  · simp only [enqueue, hlog, List.append_assoc]
  · intro e he
    rcases List.mem_append.mp he with he | he
    · exact hquiet e he
    · rw [List.mem_singleton.mp he]
      rfl

end Machine

/-! ### What ends the body -/

/-- What a settling stream does once its owner has been told. -/
structure BodyEnds (log : List Effect) : Prop where
  terminal : log.countP Effect.isTerminal = 0
  ending : log.countP Effect.isEnding = 1
  silent : log.Pairwise Silent
  plain : log.countP Effect.isComplete = 0

theorem bodyEnds_error (error : BodyError) : BodyEnds [.error error] :=
  ⟨rfl, rfl, List.pairwise_singleton _ _, rfl⟩

theorem bodyEnds_completed : BodyEnds [.enqueue .done, .close] := by
  refine ⟨rfl, rfl, ?_, rfl⟩
  simp [Silent, Effect.isEnding]

/-- What neither tells of the end nor ends the body may come before. -/
theorem BodyEnds.cons {log : List Effect} (h : BodyEnds log) {first : Effect}
    (hterminal : first.isTerminal = false) (hending : first.isEnding = false)
    (hplain : first.isComplete = false) : BodyEnds (first :: log) := by
  refine ⟨?_, ?_, ?_, ?_⟩
  · rw [List.countP_cons, h.terminal, hterminal]
    rfl
  · rw [List.countP_cons, h.ending, hending]
    rfl
  · refine List.pairwise_cons.mpr ⟨?_, h.silent⟩
    intro b _ hend
    rw [hending] at hend
    cases hend
  · rw [List.countP_cons, h.plain, hplain]
    rfl

theorem BodyEnds.enqueue {log : List Effect} (h : BodyEnds log) (chunk : Chunk) :
    BodyEnds (.enqueue chunk :: log) :=
  h.cons rfl rfl rfl

theorem bodyEnds_synthetic :
    BodyEnds [.enqueue .syntheticCompleted, .enqueue .done, .close] :=
  bodyEnds_completed.enqueue _

/-- The owner is told of the response first. -/
theorem BodyEnds.firstEvent {log : List Effect} (h : BodyEnds log) (error : Option WrappedError) :
    BodyEnds (.call (.onFirstEvent error) :: log) :=
  h.cons rfl rfl rfl

theorem BodyEnds.settles {log : List Effect} (h : BodyEnds log) (sent : Json → Prop)
    (told : Effect) (hterminal : told.isTerminal = true) (hending : told.isEnding = false)
    (hplain : told.isComplete = false) : Settles sent (told :: log) := by
  refine ⟨?_, ?_, ?_, Completes.of_plain ?_⟩
  · rw [List.countP_cons, h.terminal, hterminal]
    rfl
  · rw [List.countP_cons, h.ending, hending]
    rfl
  · refine List.pairwise_cons.mpr ⟨?_, h.silent⟩
    intro b _ hend
    rw [hending] at hend
    cases hend
  · intro e he
    rcases List.mem_cons.mp he with rfl | he
    · exact hplain
    · have hcount := List.countP_eq_zero.mp h.plain e he
      simpa using hcount

/-- `onComplete`, then `onTerminal`. -/
theorem settles_completed {sent : Json → Prop} {event : Json} (ids : List String)
    (hsent : sent event)
    (htype : event.type? = some "response.completed" ∨ event.type? = some "response.done") :
    Settles sent [.call (.onComplete event ids), .call (.onTerminal event), .enqueue .done, .close] := by
  have h := bodyEnds_completed.settles sent (.call (.onTerminal event)) rfl rfl rfl
  refine ⟨rfl, rfl, ?_, ?_⟩
  · refine List.pairwise_cons.mpr ⟨?_, h.silent⟩
    intro b _ hend
    cases hend
  · intro i event' ids' hi
    cases i with
    | zero =>
        cases hi
        exact ⟨hsent, htype, rfl⟩
    | succ i =>
        -- nothing after the first one is an `onComplete`
        obtain ⟨hs, ht, hnext⟩ := h.completes i event' ids' hi
        exact ⟨hs, ht, hnext⟩

namespace Machine

variable (m : Machine) (sent : Json → Prop)

section

variable (callback : Callback) (hterminal : (Effect.call callback).isTerminal = true)
  (hending : (Effect.call callback).isEnding = false)
  (hplain : (Effect.call callback).isComplete = false)

include hterminal hending hplain

theorem ends_error (e : BodyError) :
    Ends sent m ((m.complete.cleanup.call callback).error e) := by
  refine ⟨rfl, ⟨rfl, rfl, rfl⟩, rfl, [.call callback, .error e], ?_,
    (bodyEnds_error e).settles sent _ hterminal hending hplain⟩
  simp [call, error, complete, cleanup]

theorem ends_firstEvent_error (e : BodyError) :
    Ends sent m (((m.complete.cleanup.call callback).call (.onFirstEvent none)).error e) := by
  refine ⟨rfl, ⟨rfl, rfl, rfl⟩, rfl, [.call callback, .call (.onFirstEvent none), .error e], ?_,
    ((bodyEnds_error e).firstEvent none).settles sent _ hterminal hending hplain⟩
  simp [call, error, complete, cleanup]

theorem ends_closeCompleted :
    Ends sent m (m.complete.cleanup.call callback).closeCompleted := by
  refine ⟨rfl, ⟨rfl, rfl, rfl⟩, rfl, [.call callback, .enqueue .done, .close], ?_,
    bodyEnds_completed.settles sent _ hterminal hending hplain⟩
  simp [closeCompleted, call, enqueue, close, complete, cleanup]

theorem ends_closeWithSyntheticCompletion :
    Ends sent m (m.complete.cleanup.call callback).closeWithSyntheticCompletion := by
  refine ⟨rfl, ⟨rfl, rfl, rfl⟩, rfl,
    [.call callback, .enqueue .syntheticCompleted, .enqueue .done, .close], ?_,
    bodyEnds_synthetic.settles sent _ hterminal hending hplain⟩
  simp [closeWithSyntheticCompletion, closeCompleted, call, enqueue, close, complete, cleanup]

end

theorem ends_fail (hopen : m.stream.completed = false) (e : BodyError)
    (connectionError : ResponseStreamError) : Ends sent m (m.fail e connectionError) := by
  unfold fail
  rw [hopen, if_neg Bool.false_ne_true]
  exact m.ends_error sent _ rfl rfl rfl e

theorem ends_invalidateTransport (hopen : m.stream.completed = false) (e : ResponseStreamError) :
    Ends sent m (m.invalidateTransport e) := by
  unfold invalidateTransport
  cases m.stream.outputShape with
  | finishedCalls =>
      simp only [hopen, Bool.false_eq_true, if_false]
      exact m.ends_closeWithSyntheticCompletion sent _ rfl rfl rfl
  | other => exact m.ends_fail sent hopen _ _
  | none => exact m.ends_fail sent hopen _ _
  | unfinishedCalls => exact m.ends_fail sent hopen _ _

theorem invalidateTransport_completed (hdone : m.stream.completed = true) (e : ResponseStreamError) :
    m.invalidateTransport e = m := by
  unfold invalidateTransport invalidate fail
  cases m.stream.outputShape with
  | none => exact if_pos hdone
  | unfinishedCalls => exact if_pos hdone
  | finishedCalls => exact if_pos hdone
  | other => exact if_pos hdone

theorem ends_refuseAdmission (signal : RateLimitSignal) (event : Json) :
    Ends sent m (m.refuseAdmission signal event) := by
  have hquiet := m.quietly_call (.onRateLimitReached signal.window signal.resetAt) rfl
  apply Ends.after hquiet
  exact (m.call _).ends_firstEvent_error sent (.onTerminal event) rfl rfl rfl _

theorem ends_failWrapped (wrapped : WrappedError) (event : Json) :
    Ends sent m (m.failWrapped wrapped event) := by
  apply Ends.after (m.quietly_firstEvent (some wrapped))
  unfold failWrapped
  generalize m.firstEvent (some wrapped) = m₁
  simp only
  cases (m₁.complete.cleanup.call (.onTerminal event)).stream.outputShape with
  | none => exact m₁.ends_error sent _ rfl rfl rfl _
  | unfinishedCalls => exact m₁.ends_error sent _ rfl rfl rfl _
  | finishedCalls => exact m₁.ends_closeWithSyntheticCompletion sent _ rfl rfl rfl
  | other => exact m₁.ends_error sent _ rfl rfl rfl _

theorem ends_failRateLimited (label : String) (event : Json) :
    Ends sent m (m.failRateLimited label event) := by
  have hquiet := m.quietly_call (.onRateLimitReached label none) rfl
  apply Ends.after hquiet
  -- the account is marked after the flag is set and the listeners are gone: the order does not show
  have horder : (m.complete.cleanup.call (.onRateLimitReached label none)) =
      (m.call (.onRateLimitReached label none)).complete.cleanup := rfl
  unfold failRateLimited
  simp only [horder]
  generalize m.call (.onRateLimitReached label none) = m₁
  cases (m₁.complete.cleanup.call (.onTerminal event)).stream.outputShape with
  | none => exact m₁.ends_firstEvent_error sent _ rfl rfl rfl _
  | unfinishedCalls => exact m₁.ends_firstEvent_error sent _ rfl rfl rfl _
  | finishedCalls => exact m₁.ends_closeWithSyntheticCompletion sent _ rfl rfl rfl
  | other => exact m₁.ends_closeCompleted sent _ rfl rfl rfl

theorem recordFrame_completed {s s' : State} {event : Json} (h : s.recordFrame event = some s') :
    s'.completed = s.completed := by
  unfold State.recordFrame at h
  simp only at h
  split at h
  · cases h
  · split at h
    · cases h
    · rename_i type _
      split at h
      · cases h
        split
        · rfl
        · rfl
      · cases h
        show (if _ then _ else s : State).completed = _
        split
        · rfl
        · rfl

/-- The bookkeeping for an `error` frame does not throw. -/
theorem recordFrame_isSome (s : State) {event : Json} (herror : event.type? = some "error") :
    (s.recordFrame event).isSome = true := by
  unfold State.recordFrame
  simp only [herror]
  split
  · rename_i hopens
    exact absurd hopens.1.1 (by decide)
  · split
    · rfl
    · rfl

/-- A forwarded frame that ends the response. -/
theorem settle_cases (event : Json)
    (hsent : event.type? = some "response.completed" ∨ event.type? = some "response.done" → sent event) :
    Ends sent m (m.settle event) ∨ (m.settle event = m ∧ event.type? ≠ some "error") := by
  unfold settle
  by_cases hcompleted : event.type? = some "response.completed" ∨ event.type? = some "response.done"
  · rw [if_pos hcompleted]
    left
    refine ⟨rfl, ⟨rfl, rfl, rfl⟩, rfl, _, ?_, settles_completed
      (collectFinalizedFromResponse event m.stream.finalizedFunctionCallIds) (hsent hcompleted) hcompleted⟩
    simp [closeCompleted, call, enqueue, close, cleanup]
  · rw [if_neg hcompleted]
    split
    · left
      exact m.ends_closeCompleted sent (.onTerminal event) rfl rfl rfl
    · rename_i hother
      right
      refine ⟨rfl, fun herror => hother (Or.inr (Or.inr herror))⟩

/-- A frame is forwarded, and the stream settles if it was a terminal one. -/
theorem forward_cases (o : Setup) (text : String) (event : Json)
    (hsent : event.type? = some "response.completed" ∨ event.type? = some "response.done" → sent event) :
    Ends sent m (m.forward o text event) ∨
      (Quietly m (m.forward o text event) ∧ event.type? ≠ some "error") := by
  have hframe := m.quietly_enqueueFrame text event
  unfold forward
  simp only
  generalize m.enqueueFrame text event = m₁ at hframe ⊢
  cases hrecord : m₁.stream.recordFrame event with
  | none =>
      right
      refine ⟨hframe, fun herror => ?_⟩
      have hsome := recordFrame_isSome m₁.stream herror
      rw [hrecord] at hsome
      cases hsome
  | some stream =>
      simp only
      have hrecorded : Quietly m₁ { m₁ with stream } :=
        ⟨recordFrame_completed hrecord, rfl, rfl, [], (List.append_nil _).symm, by simp⟩
      have hquiet :=
        (hframe.trans hrecorded).trans (quietly_resetIdleTimeout { m₁ with stream } o waitingMessage)
      generalize { m₁ with stream }.resetIdleTimeout o waitingMessage = m₂ at hquiet ⊢
      rcases m₂.settle_cases sent event hsent with hends | ⟨heq, htype⟩
      · exact Or.inl (Ends.after hquiet hends)
      · rw [heq]
        exact Or.inr ⟨hquiet, htype⟩

theorem afterAsking_cases (o : Setup) (text : String) (event : Json)
    (hsent : event.type? = some "response.completed" ∨ event.type? = some "response.done" → sent event) :
    Ends sent m (m.afterAsking o text event) ∨
      (Quietly m (m.afterAsking o text event) ∧ event.type? ≠ some "error") := by
  unfold afterAsking
  cases parseWrappedError o.js event text with
  | some wrapped => exact Or.inl (m.ends_failWrapped sent wrapped event)
  | none =>
      cases rateLimitReachedType event with
      | some label => exact Or.inl (m.ends_failRateLimited sent label event)
      | none => exact m.forward_cases sent o text event hsent

/-- The stream asks its owner about the event. -/
def ask (text : String) (event : Json) : Machine :=
  { m with listening := false, timer := none, awaiting := some (text, event) }

theorem onEvent_cases (o : Setup) (at_ : Rat) (text : String) (event : Json) (hsent : sent event) :
    Ends sent m (m.onEvent o at_ text event) ∨ Quietly m (m.onEvent o at_ text event) ∨
      (m.onEvent o at_ text event = m.ask text event ∧ event.type? = some "error") := by
  unfold onEvent
  by_cases hquota : event.type? = some "codex.rate_limits"
  · rw [if_pos hquota]
    right; left
    exact (m.quietly_resetIdleTimeout o waitingMessage).trans (quietly_call _ _ rfl)
  · rw [if_neg hquota]
    cases admissionRateLimit (asOptions o) m.stream at_ event with
    | some signal => exact Or.inl (m.ends_refuseAdmission sent signal event)
    | none =>
        simp only
        by_cases hasked : o.retries = true ∧ event.type? = some "error"
        · rw [if_pos hasked]
          exact Or.inr (Or.inr ⟨rfl, hasked.2⟩)
        · rw [if_neg hasked]
          rcases m.afterAsking_cases sent o text event (fun _ => hsent) with hends | ⟨hquiet, _⟩
          · exact Or.inl hends
          · exact Or.inr (Or.inl hquiet)

theorem onMessage_cases (o : Setup) (hopen : m.stream.completed = false) (at_ : Rat) (data : Data)
    (hsent : ∀ text event, data = .text text → eventOf o.js text = some event → sent event) :
    Ends sent m (m.onMessage o at_ data) ∨ Quietly m (m.onMessage o at_ data) ∨
      ∃ text event, m.onMessage o at_ data = m.ask text event ∧ event.type? = some "error" := by
  unfold onMessage
  rw [hopen, if_neg Bool.false_ne_true]
  cases data with
  | binary => exact Or.inl (m.ends_invalidateTransport sent hopen _)
  | text text =>
      cases hevent : eventOf o.js text with
      | none =>
          simp only [hevent]
          right; left
          exact (m.quietly_firstEvent none).trans (quietly_resetIdleTimeout _ o waitingMessage)
      | some event =>
          simp only [hevent]
          rcases m.onEvent_cases sent o at_ text event (hsent text event rfl hevent) with
            hends | hquiet | hasked
          · exact Or.inl hends
          · exact Or.inr (Or.inl hquiet)
          · exact Or.inr (Or.inr ⟨text, event, hasked⟩)

theorem attach_cases (o : Setup) (hopen : m.stream.completed = false) (next : Replacement) :
    Ends sent m (m.attach o next) ∨ Quietly { m with listening := true } (m.attach o next) := by
  have hsending := quietly_resetIdleTimeout { m with listening := true } o
    "idle timeout sending websocket request"
  unfold attach
  simp only
  generalize { m with listening := true }.resetIdleTimeout o
    "idle timeout sending websocket request" = m₁ at hsending ⊢
  cases next.sendError with
  | none =>
      right
      exact hsending.trans (m₁.quietly_resetIdleTimeout o waitingMessage)
  | some message =>
      have hopen₁ : m₁.stream.completed = false := hsending.completed.trans hopen
      left
      simp only [hopen₁, Bool.false_eq_true, if_false]
      have hends := Ends.after hsending (m₁.ends_fail sent hopen₁ (.stream { message }) { message })
      exact ⟨hends.completed, hends.stopped, hends.awaiting, hends.log⟩

theorem ends_onAbort (hopen : m.stream.completed = false) (message : String) :
    Ends sent m (m.onAbort message) := by
  unfold onAbort
  rw [hopen, if_neg Bool.false_ne_true]
  have hquiet : Quietly m (m.note .terminate) := by
    refine ⟨rfl, rfl, rfl, [.terminate], rfl, ?_⟩
    intro e he
    rw [List.mem_singleton.mp he]
    rfl
  apply Ends.after hquiet
  refine ⟨rfl, ⟨rfl, rfl, rfl⟩, rfl, [.onAbort message, .error (.plain message)], ?_,
    (bodyEnds_error _).settles sent (.onAbort message) rfl rfl rfl⟩
  simp [note, error, complete, cleanup]

theorem ends_onCancel (hopen : m.stream.completed = false) (message : String) :
    Ends sent m (m.onCancel message) := by
  unfold onCancel
  rw [hopen, if_neg Bool.false_ne_true]
  refine ⟨rfl, ⟨rfl, rfl, rfl⟩, rfl, [.cancel, .terminate, .onAbort message], ?_, ?_⟩
  · simp [note, complete, cleanup]
  · refine ⟨rfl, rfl, ?_, Completes.of_plain ?_⟩
    · simp [Silent, Effect.isEnding, Effect.isEnqueue]
    · simp [Effect.isComplete]

/-- Where the owner is asked, its answer is what `onRetryableTerminal` returns in `onMessage`. -/
theorem stream_answered (o : Setup) (hretries : o.retries = true) (hnone : m.awaiting = none)
    (at_ : Rat) (data : Data) (answer : Except String (Option Replacement)) :
    ((m.onMessage o at_ data).onAnswer o answer).stream =
      WebSocket.onMessage { js := o.js, onRetryableTerminal := some fun _ => answer } at_ data
        m.stream := by
  -- where the owner is not asked, the answer finds nothing to do
  have hunasked : ∀ m' : Machine, m'.awaiting = m.awaiting → (m'.onAnswer o answer).stream = m'.stream := by
    intro m' hawaiting
    unfold onAnswer
    rw [hawaiting, hnone]
  unfold onMessage WebSocket.onMessage
  by_cases hdone : m.stream.completed = true
  · rw [if_pos hdone, if_pos hdone]
    exact hunasked m rfl
  · have hopen : m.stream.completed = false := by simpa using hdone
    rw [if_neg hdone, if_neg hdone]
    cases data with
    | binary =>
        have hends := m.ends_invalidateTransport (fun _ => True) hopen
          { message := "Unexpected binary WebSocket frame" }
        exact (hunasked _ hends.awaiting).trans (m.stream_invalidateTransport _)
    | text text =>
        cases hevent : eventOf o.js text with
        | none =>
            simp only [hevent]
            have hquiet := (m.quietly_firstEvent none).trans
              (quietly_resetIdleTimeout _ o waitingMessage)
            rw [hunasked _ hquiet.awaiting]
            simp
        | some event =>
            simp only [hevent]
            unfold onEvent WebSocket.onEvent
            by_cases hquota : event.type? = some "codex.rate_limits"
            · rw [if_pos hquota, if_pos hquota]
              have hquiet := (m.quietly_resetIdleTimeout o waitingMessage).trans
                (quietly_call _ (.onQuota event) rfl)
              rw [hunasked _ hquiet.awaiting]
              simp
            · rw [if_neg hquota, if_neg hquota]
              have hadmission : admissionRateLimit
                  { js := o.js, onRetryableTerminal := some fun _ => answer } m.stream at_ event =
                  admissionRateLimit (asOptions o) m.stream at_ event := rfl
              rw [hadmission]
              cases hsignal : admissionRateLimit (asOptions o) m.stream at_ event with
              | some signal =>
                  have hends := m.ends_refuseAdmission (fun _ => True) signal event
                  exact hunasked _ hends.awaiting
              | none =>
                  by_cases herror : event.type? = some "error"
                  · have hasked : o.retries = true ∧ event.type? = some "error" := ⟨hretries, herror⟩
                    simp only [if_pos hasked, onAnswer, retryableTerminal, if_pos herror]
                    cases answer with
                    | error message => exact stream_invalidateTransport _ _
                    | ok next =>
                        cases next with
                        | none =>
                            simp only [hopen, Bool.false_eq_true, if_false]
                            exact stream_afterAsking _ o text event
                        | some next =>
                            simp only [hopen, Bool.false_eq_true, if_false]
                            exact stream_attach _ o next
                  · have hasked : ¬(o.retries = true ∧ event.type? = some "error") :=
                      fun h => herror h.2
                    simp only [if_neg hasked, retryableTerminal, if_neg herror]
                    have hawaiting : (m.afterAsking o text event).awaiting = m.awaiting := by
                      rcases m.afterAsking_cases (fun _ => True) o text event (fun _ => trivial) with
                        hends | ⟨hquiet, _⟩
                      · exact hends.awaiting
                      · exact hquiet.awaiting
                    rw [hunasked _ hawaiting]
                    exact m.stream_afterAsking o text event

end Machine

/-! ## Every run -/

/-- A stream that goes on: it listens to its socket, unless it has asked its owner. -/
structure IsOpen (m : Machine) : Prop where
  completed : m.stream.completed = false
  quiet : ∀ e ∈ m.log, e.isQuiet = true
  listening : m.listening = m.awaiting.isNone
  asked : ∀ text event, m.awaiting = some (text, event) →
    m.timer = none ∧ event.type? = some "error"

/-- A stream that has settled: nothing can reach it. -/
structure HasSettled (sent : Json → Prop) (m : Machine) : Prop where
  completed : m.stream.completed = true
  stopped : m.listening = false ∧ m.timer = none ∧ m.signal = false
  log : Settles sent m.log

section

variable {sent : Json → Prop} {m m' : Machine}

theorem IsOpen.quietly (h : IsOpen m) (hnone : m.awaiting = none) (hquiet : Quietly m m') :
    IsOpen m' := by
  obtain ⟨added, hlog, hadded⟩ := hquiet.log
  refine ⟨hquiet.completed.trans h.completed, ?_, ?_, ?_⟩
  · intro e he
    rw [hlog] at he
    rcases List.mem_append.mp he with he | he
    · exact h.quiet e he
    · exact hadded e he
  · rw [hquiet.listening, hquiet.awaiting]
    exact h.listening
  · intro text event hasked
    rw [hquiet.awaiting, hnone] at hasked
    cases hasked

theorem Ends.hasSettled (hquiet : ∀ e ∈ m.log, e.isQuiet = true) (h : Ends sent m m') :
    HasSettled sent m' := by
  obtain ⟨added, hlog, hsettles⟩ := h.log
  refine ⟨h.completed, h.stopped, ?_⟩
  rw [hlog]
  exact hsettles.prepend hquiet

theorem HasSettled.mono {sent' : Json → Prop} (hsent : ∀ event, sent event → sent' event)
    (h : HasSettled sent m) : HasSettled sent' m :=
  ⟨h.completed, h.stopped, h.log.mono hsent⟩

/-- A stream without a socket is given one. -/
theorem attach_open (o : Setup) (hopen : m.stream.completed = false)
    (hquiet : ∀ e ∈ m.log, e.isQuiet = true) (hnone : m.awaiting = none) (next : Replacement) :
    IsOpen (m.attach o next) ∨ HasSettled sent (m.attach o next) := by
  rcases m.attach_cases sent o hopen next with hends | hattached
  · exact Or.inr (hends.hasSettled hquiet)
  · left
    refine IsOpen.quietly (m := { m with listening := true }) ⟨hopen, hquiet, ?_, ?_⟩ hnone hattached
    · show true = m.awaiting.isNone
      rw [hnone]
      rfl
    · intro text event hasked
      rw [show m.awaiting = some (text, event) from hasked] at hnone
      cases hnone

/-- An `error` event that stands always ends the stream. -/
theorem ends_standing (h : IsOpen m) (o : Setup) {text : String} {event : Json}
    (hasked : m.awaiting = some (text, event)) :
    Ends sent { m with awaiting := none } (m.onAnswer o (.ok none)) := by
  obtain ⟨_, herror⟩ := h.asked text event hasked
  unfold Machine.onAnswer
  simp only [hasked, h.completed, Bool.false_eq_true, if_false]
  have hsent : event.type? = some "response.completed" ∨ event.type? = some "response.done" →
      sent event := by
    intro hcompleted
    rw [herror] at hcompleted
    exact absurd hcompleted (by decide)
  rcases Machine.afterAsking_cases { m with awaiting := none } sent o text event hsent with
    hends | ⟨_, hother⟩
  · exact hends
  · exact absurd herror hother

theorem ends_refused (h : IsOpen m) (o : Setup) {text : String} {event : Json}
    (hasked : m.awaiting = some (text, event)) (message : String) :
    Ends sent { m with awaiting := none } (m.onAnswer o (.error message)) := by
  unfold Machine.onAnswer
  simp only [hasked]
  exact Machine.ends_invalidateTransport { m with awaiting := none } sent h.completed { message }

/-- The owner hands over a socket, refuses, or lets the event stand. -/
theorem onAnswer_open (h : IsOpen m) (o : Setup) (answer : Except String (Option Replacement)) :
    IsOpen (m.onAnswer o answer) ∨ HasSettled sent (m.onAnswer o answer) := by
  cases hasked : m.awaiting with
  | none =>
      unfold Machine.onAnswer
      rw [hasked]
      exact Or.inl h
  | some asked =>
      obtain ⟨text, event⟩ := asked
      cases answer with
      | error message =>
          right
          exact Ends.hasSettled (m := { m with awaiting := none }) h.quiet
            (ends_refused h o hasked message)
      | ok next =>
          cases next with
          | none =>
              right
              exact Ends.hasSettled (m := { m with awaiting := none }) h.quiet
                (ends_standing h o hasked)
          | some next =>
              unfold Machine.onAnswer
              simp only [hasked, h.completed, Bool.false_eq_true, if_false]
              exact attach_open (m := { m with awaiting := none }) o h.completed h.quiet rfl next

/-- The `message` event that carries an event of the server. -/
def Sent (o : Setup) (events : List Event) (event : Json) : Prop :=
  ∃ text at_, Event.message (.text text) at_ ∈ events ∧ eventOf o.js text = some event

/-- What one event does to a stream that goes on. -/
theorem step_open (h : IsOpen m) (o : Setup) (e : Event) :
    IsOpen (step o m e) ∨ HasSettled (Sent o [e]) (step o m e) := by
  cases e with
  | message data at_ =>
      simp only [step]
      by_cases hlistening : m.listening = true
      · rw [if_pos hlistening]
        have hnone : m.awaiting = none := by
          rw [h.listening] at hlistening
          exact Option.isNone_iff_eq_none.mp hlistening
        have hsent : ∀ text event, data = .text text → eventOf o.js text = some event →
            Sent o [.message data at_] event := by
          intro text event hdata hevent
          refine ⟨text, at_, ?_, hevent⟩
          rw [hdata]
          exact List.mem_singleton_self _
        rcases m.onMessage_cases _ o h.completed at_ data hsent with
          hends | hquiet | ⟨text, event, hask, herror⟩
        · exact Or.inr (hends.hasSettled h.quiet)
        · exact Or.inl (h.quietly hnone hquiet)
        · left
          rw [hask]
          refine ⟨h.completed, h.quiet, rfl, ?_⟩
          intro text' event' hasked
          cases hasked
          exact ⟨rfl, herror⟩
      · rw [if_neg hlistening]
        exact Or.inl h
  | error message =>
      simp only [step]
      split
      · exact Or.inr ((m.ends_invalidateTransport _ h.completed _).hasSettled h.quiet)
      · exact Or.inl h
  | close code reason =>
      simp only [step]
      split
      · right
        unfold Machine.onClose
        rw [h.completed, if_neg Bool.false_ne_true]
        exact (m.ends_invalidateTransport _ h.completed _).hasSettled h.quiet
      · exact Or.inl h
  | idle =>
      simp only [step]
      cases htimer : m.timer with
      | none => exact Or.inl h
      | some message =>
          right
          simp only
          have hends := Machine.ends_invalidateTransport { m with timer := none } (Sent o [.idle])
            h.completed { message }
          exact Ends.hasSettled (m := { m with timer := none }) h.quiet hends
  | abort message =>
      simp only [step]
      split
      · exact Or.inr ((m.ends_onAbort _ h.completed message).hasSettled h.quiet)
      · exact Or.inl h
  | cancel message => exact Or.inr ((m.ends_onCancel _ h.completed message).hasSettled h.quiet)
  | answered answer => exact onAnswer_open h o answer

/-- What one event does to a stream that has settled: it may close the socket of a late answer. -/
theorem step_settled (h : HasSettled sent m) (o : Setup) (e : Event) :
    HasSettled sent (step o m e) ∧ (step o m e).stream = m.stream ∧
      ((step o m e).log = m.log ∨ (step o m e).log = m.log ++ [.terminate]) := by
  obtain ⟨hlistening, htimer, hsignal⟩ := h.stopped
  have hsame : ∀ m' : Machine, m' = m → HasSettled sent m' ∧ m'.stream = m.stream ∧
      (m'.log = m.log ∨ m'.log = m.log ++ [.terminate]) := by
    intro m' heq
    rw [heq]
    exact ⟨h, rfl, Or.inl rfl⟩
  cases e with
  | message data at_ => exact hsame _ (by simp [step, hlistening])
  | error message => exact hsame _ (by simp [step, hlistening])
  | close code reason => exact hsame _ (by simp [step, hlistening])
  | idle => exact hsame _ (by simp [step, htimer])
  | abort message => exact hsame _ (by simp [step, hsignal])
  | cancel message => exact hsame _ (by simp [step, Machine.onCancel, h.completed])
  | answered answer =>
      simp only [step, Machine.onAnswer]
      cases m.awaiting with
      | none => exact ⟨h, rfl, Or.inl rfl⟩
      | some asked =>
          have hleft : HasSettled sent { m with awaiting := none } :=
            ⟨h.completed, h.stopped, h.log⟩
          simp only [h.completed, if_true]
          cases answer with
          | error message =>
              have hsame := Machine.invalidateTransport_completed { m with awaiting := none }
                h.completed { message }
              simp only [hsame]
              exact ⟨hleft, trivial, Or.inl trivial⟩
          | ok next =>
              cases next with
              | none => exact ⟨hleft, rfl, Or.inl rfl⟩
              | some next =>
                  exact ⟨⟨h.completed, h.stopped, h.log.terminate⟩, rfl, Or.inr rfl⟩

end

theorem Sent.mono {o : Setup} {events events' : List Event} (hsub : ∀ e ∈ events, e ∈ events')
    {event : Json} (h : Sent o events event) : Sent o events' event := by
  obtain ⟨text, at_, hmem, hevent⟩ := h
  exact ⟨text, at_, hsub _ hmem, hevent⟩

theorem start_open (o : Setup) (socket : Replacement) (signal : Signal) :
    IsOpen (start o socket signal) ∨ HasSettled (Sent o []) (start o socket signal) := by
  cases signal with
  | absent => exact attach_open o rfl (by simp) rfl socket
  | pending => exact attach_open o rfl (by simp) rfl socket
  | aborted message =>
      right
      exact (Machine.ends_onAbort _ _ rfl message).hasSettled (by simp)

/-- The invariant of a run. -/
theorem run_open (o : Setup) (socket : Replacement) (signal : Signal) (events : List Event) :
    IsOpen (run o socket signal events) ∨
      HasSettled (Sent o events) (run o socket signal events) := by
  induction events using List.reverseRecOn with
  | nil => exact start_open o socket signal
  | append_singleton events e ih =>
      unfold run at ih ⊢
      rw [List.foldl_append, List.foldl_cons, List.foldl_nil]
      rcases ih with hopen | hsettled
      · rcases step_open hopen o e with hopen' | hsettled'
        · exact Or.inl hopen'
        · right
          apply hsettled'.mono
          intro event hsent
          exact hsent.mono (fun _ he => List.mem_append_right events he)
      · right
        apply (step_settled hsettled o e).1.mono
        intro event hsent
        exact hsent.mono (fun _ he => List.mem_append_left [e] he)

/-- What comes later finds nothing to do, but for a socket that is handed over too late. -/
theorem later_settled {sent : Json → Prop} (o : Setup) (later : List Event) :
    ∀ {m : Machine}, HasSettled sent m → (later.foldl (step o) m).stream = m.stream ∧
      ∃ n, (later.foldl (step o) m).log = m.log ++ List.replicate n .terminate := by
  induction later with
  | nil =>
      intro m _
      exact ⟨rfl, 0, (List.append_nil _).symm⟩
  | cons e later ih =>
      intro m h
      rw [List.foldl_cons]
      obtain ⟨hstep, hstream, hlog⟩ := step_settled h o e
      obtain ⟨hlater, n, hadded⟩ := ih hstep
      refine ⟨hlater.trans hstream, ?_⟩
      rcases hlog with hlog | hlog
      · exact ⟨n, by rw [hadded, hlog]⟩
      · refine ⟨n + 1, ?_⟩
        rw [hadded, hlog, List.append_assoc, List.replicate_succ, List.singleton_append]

/-- What the socket and the idle timer deliver. -/
def Event.isDelivery : Event → Bool
  | .message _ _ | .error _ | .close _ _ | .idle => true
  | .abort _ | .cancel _ | .answered _ => false

/-- While nothing listens and no timer runs, nothing is delivered. -/
theorem step_delivery (o : Setup) {m : Machine} (hlistening : m.listening = false)
    (htimer : m.timer = none) {e : Event} (hdelivery : e.isDelivery = true) : step o m e = m := by
  cases e with
  | message data at_ => simp [step, hlistening]
  | error message => simp [step, hlistening]
  | close code reason => simp [step, hlistening]
  | idle => simp [step, htimer]
  | abort message => cases hdelivery
  | cancel message => cases hdelivery
  | answered answer => cases hdelivery

/-- A stream, after the events: it has settled once, or not yet. -/
structure SettlesOnce (o : Setup) (events : List Event) (m : Machine) : Prop where
  terminal : m.log.countP Effect.isTerminal = if m.stream.completed then 1 else 0
  ending : m.log.countP Effect.isEnding = if m.stream.completed then 1 else 0
  silent : m.log.Pairwise Silent
  completes : Completes (Sent o events) m.log
  /-- Nothing comes from a socket that is not listened to, or from a timer that is not set. -/
  deaf : m.stream.completed = true ∨ m.awaiting ≠ none →
    ∀ e : Event, e.isDelivery = true → step o m e = m
  later : m.stream.completed = true → ∀ later : List Event,
    (later.foldl (step o) m).stream = m.stream ∧
      ∃ n, (later.foldl (step o) m).log = m.log ++ List.replicate n .terminate
  /-- The reader, the socket and the owner can each end a stream that goes on. -/
  cancels : m.stream.completed = false →
    ∀ message, (step o m (.cancel message)).stream.completed = true
  closes : m.stream.completed = false → m.awaiting = none →
    ∀ code reason, (step o m (.close code reason)).stream.completed = true
  stands : m.stream.completed = false → m.awaiting ≠ none → ∀ message,
    (step o m (.answered (.ok none))).stream.completed = true ∧
      (step o m (.answered (.error message))).stream.completed = true

theorem IsOpen.settlesOnce {m : Machine} (h : IsOpen m) (o : Setup) (events : List Event) :
    SettlesOnce o events m where
  terminal := by
    rw [h.completed, if_neg Bool.false_ne_true, List.countP_eq_zero]
    intro e he
    simp [(Effect.isQuiet_iff.mp (h.quiet e he)).1]
  ending := by
    rw [h.completed, if_neg Bool.false_ne_true, List.countP_eq_zero]
    intro e he
    simp [(Effect.isQuiet_iff.mp (h.quiet e he)).2.1]
  silent := by
    apply List.pairwise_of_forall_mem_list
    intro a ha b _ hend
    rw [(Effect.isQuiet_iff.mp (h.quiet a ha)).2.1] at hend
    cases hend
  completes := by
    apply Completes.of_plain
    intro e he
    exact (Effect.isQuiet_iff.mp (h.quiet e he)).2.2
  deaf := by
    intro hstill e hdelivery
    rcases hstill with hdone | hawaiting
    · rw [h.completed] at hdone
      cases hdone
    · -- the owner has been asked: the listeners and the timer are gone
      obtain ⟨⟨text, event⟩, hasked⟩ := Option.ne_none_iff_exists'.mp hawaiting
      apply step_delivery o _ (h.asked text event hasked).1 hdelivery
      rw [h.listening, hasked]
      rfl
  later := by
    intro hdone
    rw [h.completed] at hdone
    cases hdone
  cancels := by
    intro _ message
    exact (m.ends_onCancel (fun _ => True) h.completed message).completed
  closes := by
    intro _ hnone code reason
    have hlistening : m.listening = true := by
      rw [h.listening, hnone]
      rfl
    simp only [step, if_pos hlistening, Machine.onClose, h.completed, Bool.false_eq_true, if_false]
    exact (m.ends_invalidateTransport (fun _ => True) h.completed _).completed
  stands := by
    intro _ hawaiting message
    obtain ⟨⟨text, event⟩, hasked⟩ := Option.ne_none_iff_exists'.mp hawaiting
    have hstanding : Ends (fun _ => True) _ _ := ends_standing h o hasked
    have hrefused : Ends (fun _ => True) _ _ := ends_refused h o hasked message
    exact ⟨hstanding.completed, hrefused.completed⟩

theorem HasSettled.settlesOnce {m : Machine} {o : Setup} {events : List Event}
    (h : HasSettled (Sent o events) m) : SettlesOnce o events m where
  terminal := by
    rw [h.completed, if_pos rfl]
    exact h.log.terminal
  ending := by
    rw [h.completed, if_pos rfl]
    exact h.log.ending
  silent := h.log.silent
  completes := h.log.completes
  deaf := by
    intro _ e hdelivery
    exact step_delivery o h.stopped.1 h.stopped.2.1 hdelivery
  later := by
    intro _ later
    exact later_settled o later h
  cancels := by
    intro hopen
    rw [h.completed] at hopen
    cases hopen
  closes := by
    intro hopen
    rw [h.completed] at hopen
    cases hopen
  stands := by
    intro hopen
    rw [h.completed] at hopen
    cases hopen

end WebSocket.Settling
