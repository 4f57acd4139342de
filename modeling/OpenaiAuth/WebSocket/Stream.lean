import OpenaiAuth.Js.Json

/-! # The response stream of one WebSocket request

`streamResponsesWebSocket`: what the socket delivers, frame by frame, and what
the reader of the response body is handed for it. A call of `onMessage` runs to
its end before the next event: the one `await` in it is made with the socket's
listeners removed and the idle timer cleared. Aborts by the caller and a
cancelling reader are left out, and so is what only the log reads.
-/

namespace WebSocket

open Js

/-! ## Errors -/

/-- An `APICallError` raised by the stream itself. -/
structure ResponseStreamError where
  message : String
  retryable : Bool := true
  oversized : Bool := false
deriving Repr, DecidableEq

/-- What `parseWrappedError` returns. -/
structure WrappedError where
  status : Rat
  headers : Option (List (String × String))
  body : String
  message : String
deriving Repr, DecidableEq

/-- The error a response body may end with. -/
inductive BodyError where
  | stream (error : ResponseStreamError)
  | apiCall (error : WrappedError)
  | plain (message : String)
deriving Repr, DecidableEq

/-- `TERMINAL_AFTER_OUTPUT_MESSAGE` -/
def terminalAfterOutputMessage : String :=
  "The response ended early after part of it had already been shown. " ++
  "It was not sent again, because repeating it would duplicate that output " ++
  "and re-run any tools it had started. The transport log records what ended it."

/-- `OVERSIZED_FRAME_MESSAGE` -/
def oversizedFrameMessage : String :=
  "The request was larger than the websocket would carry, so it was sent over HTTP instead. " ++
  "Resending it unchanged over the same socket cannot succeed. " ++
  "The transport log records the size."

/-- The error of a turn that ends with no retry. -/
def noReplay : BodyError := .plain terminalAfterOutputMessage

/-! ## State -/

/-- `OutputShape`: what the reader has been handed beyond lifecycle frames. -/
inductive OutputShape where
  | none
  | unfinishedCalls
  | finishedCalls
  | other
deriving Repr, DecidableEq

structure EmittedCallState where
  addedItemIds : List String := []
  reasoningItemIds : List String := []
  finished : Bool := false
  other : Bool := false
deriving Repr, DecidableEq

/-- What is enqueued to the reader. -/
inductive Chunk where
  /-- A frame of the server, with the event it parsed to. -/
  | frame (text : String) (event : Json)
  /-- `SYNTHETIC_COMPLETED_EVENT` -/
  | syntheticCompleted
  | done
deriving Repr, DecidableEq

/-- The bytes of a chunk, as server-sent events. -/
def Chunk.encode : Chunk → String
  | .frame text _ =>
      "\n".intercalate (((text.replace "\r\n" "\n").splitOn "\n").map ("data: " ++ ·)) ++ "\n\n"
  | .syntheticCompleted =>
      "data: \x7b\"type\":\"response.completed\",\"response\":\x7b\"status\":\"completed\"," ++
      "\"incomplete_details\":null,\"usage\":\x7b\"input_tokens\":0,\"output_tokens\":0," ++
      "\"total_tokens\":0\x7d\x7d\x7d\n\n"
  | .done => "data: [DONE]\n\n"

/-- How the body ended. -/
inductive Ending where
  | closed
  | errored (error : BodyError)
deriving Repr, DecidableEq

/-- A call the stream makes into its owner. -/
inductive Callback where
  | onFirstEvent (error : Option WrappedError)
  | onComplete (event : Json) (finalizedFunctionCallIds : List String)
  | onTerminal (event : Json)
  | onConnectionInvalid (error : ResponseStreamError)
  | onQuota (frame : Json)
  | onRateLimitReached (window : String) (resetAt : Option Rat)
deriving Repr, DecidableEq

structure State where
  completed : Bool := false
  emitted : Bool := false
  emittedOutput : Bool := false
  /-- How many entries `openingItemTypes` has. -/
  openingItemTypes : Nat := 0
  finalizedFunctionCallIds : List String := []
  emittedCalls : EmittedCallState := {}
  /-- What was enqueued, oldest first. -/
  body : List Chunk := []
  ending : Option Ending := none
  callbacks : List Callback := []
deriving Repr, DecidableEq

/-- A socket the owner hands over to resend the request on. -/
structure Replacement where
  /-- What `send` throws on it, if it throws. -/
  sendError : Option String := none

/-- The options the stream is started with. -/
structure Options where
  js : Builtins
  /-- May throw, hand over another socket, or do nothing. -/
  onRetryableTerminal : Option (Json → Except String (Option Replacement)) := none

/-- `OPENING_FRAME_LIMIT` -/
def openingFrameLimit : Nat := 12

/-! ## Reading events -/

/-- `event`: what `onMessage` makes of the text of a frame. -/
def eventOf (js : Builtins) (text : String) : Option Json :=
  (js.parse text).filter fun v =>
    match v with
    | .arr _ | .obj _ => true
    | _ => false

/-- The call id of a finished function or custom tool call. -/
def callIdOf (item : Json) : Option String :=
  (item.stringAt? "call_id").or (item.stringAt? "id")

def addFinalizedCallId (item : Json) (into : List String) : List String :=
  if item.type? = some "function_call" ∨ item.type? = some "custom_tool_call" then
    match callIdOf item with
    | some callId => if callId = "" then into else into.insert callId
    | none => into
  else into

def recordFinalizedFunctionCall (event : Json) (into : List String) : List String :=
  if event.type? = some "response.output_item.done" then
    match event.recordAt? "item" with
    | some item => addFinalizedCallId item into
    | none => into
  else into

def collectFinalizedFromResponse (event : Json) (into : List String) : List String :=
  match (event.recordAt? "response").bind fun response => (response.get? "output").bind Json.array? with
  | some output => (output.filter Json.isRecord).foldl (fun into item => addFinalizedCallId item into) into
  | none => into

/-- `event.status ?? event.status_code` -/
def statusOf (event : Json) : Option Json :=
  Json.orElse (event.get? "status") (event.get? "status_code")

/-- A header value that `parseWrappedError` keeps. -/
def headerText (js : Builtins) : Json → Option String
  | .str s => some s
  | .num q => some (js.numberText q)
  | .bool b => some (if b then "true" else "false")
  | _ => none

def parseWrappedError (js : Builtins) (event : Json) (body : String) : Option WrappedError :=
  if event.type? = some "error" then
    match (statusOf event).bind Json.number? with
    | some status =>
        if 200 ≤ status ∧ status < 300 then none
        else some
          { status
            headers :=
              match event.get? "headers" with
              | some (.obj members) =>
                  some (members.filterMap fun (key, value) =>
                    (headerText js value).map fun text => (key, text))
              | _ => none
            body
            message :=
              ((event.recordAt? "error").bind (Json.stringAt? "message")).getD
                (js.numberText status) }
    | none => none
  else none

/-- What `parseRateLimitSignal` returns. -/
structure RateLimitSignal where
  window : String
  resetAt : Option Rat
deriving Repr, DecidableEq

/-- `RATE_LIMIT_WINDOW` -/
def rateLimitWindow : String := "rate_limit"

/-- The signal a record carries itself, its cause and body aside. -/
def ownRateLimitSignal (value : Json) (at_ : Rat) : Option RateLimitSignal :=
  let detail := (value.recordAt? "error").getD value
  if detail.type? = some "usage_limit_reached" ∨ statusOf value = some (.num 429) then
    some
      { window := (detail.type?.or (detail.stringAt? "code")).getD rateLimitWindow
        resetAt :=
          match (detail.numberAt? "resets_at").filter (0 < ·),
              (detail.numberAt? "resets_in_seconds").filter (0 < ·) with
          | some resetsAt, _ => some (resetsAt * 1000)
          | none, some resetsIn => some (at_ + resetsIn * 1000)
          | none, none => none }
  else none

/-- `parseRateLimitSignal`, at most `depth` calls deep. -/
def rateLimitSignalWithin (js : Builtins) (at_ : Rat) : Nat → Json → Option RateLimitSignal
  | 0, _ => none
  | depth + 1, .str s => (js.parse s).bind (rateLimitSignalWithin js at_ depth)
  | depth + 1, .obj members =>
      let value := Json.obj members
      ((value.get? "cause").bind (rateLimitSignalWithin js at_ depth)).or
        (((value.get? "body").bind (rateLimitSignalWithin js at_ depth)).or
          (ownRateLimitSignal value at_))
  | _ + 1, _ => none

def parseRateLimitSignal (js : Builtins) (value : Json) (at_ : Rat) : Option RateLimitSignal :=
  rateLimitSignalWithin js at_ (value.weight + 1) value

/-- The depth never runs out: a called value is lighter than its caller. -/
theorem rateLimitSignalWithin_stable (js : Builtins) (at_ : Rat) {v : Json} {m n : Nat}
    (hm : v.weight < m) (hn : v.weight < n) :
    rateLimitSignalWithin js at_ m v = rateLimitSignalWithin js at_ n v := by
  induction m generalizing v n with
  | zero => omega
  | succ m ih =>
      rcases n with _ | n
      · omega
      have key : ∀ w : Json, w.weight < v.weight →
          rateLimitSignalWithin js at_ m w = rateLimitSignalWithin js at_ n w :=
        fun w hw => ih (by omega) (by omega)
      cases v with
      | str s =>
          simp only [rateLimitSignalWithin]
          rcases hp : js.parse s with _ | w
          · rfl
          · have := js.parse_weight s w hp
            exact key w (by simp only [Json.weight]; omega)
      | obj members =>
          -- both recursive calls are made on members of the object
          have member : ∀ k, ((Json.obj members).get? k).bind (rateLimitSignalWithin js at_ m) =
              ((Json.obj members).get? k).bind (rateLimitSignalWithin js at_ n) := by
            intro k
            rcases hk : (Json.obj members).get? k with _ | w
            · rfl
            · exact key w (Json.weight_get? hk)
          simp only [rateLimitSignalWithin, member]
      | _ => rfl

@[simp] theorem parseRateLimitSignal_str (js : Builtins) (at_ : Rat) (s : String) :
    parseRateLimitSignal js (.str s) at_ =
      (js.parse s).bind fun v => parseRateLimitSignal js v at_ := by
  unfold parseRateLimitSignal
  rcases hp : js.parse s with _ | v
  · simp [rateLimitSignalWithin, hp]
  · have := js.parse_weight s v hp
    simp only [rateLimitSignalWithin, hp, Option.bind_some]
    exact rateLimitSignalWithin_stable js at_ (by simp only [Json.weight]; omega) (by omega)

/-- On a record: the cause's signal, else the body's, else its own. -/
theorem parseRateLimitSignal_obj (js : Builtins) (at_ : Rat) (members : List (String × Json)) :
    parseRateLimitSignal js (.obj members) at_ =
      (((Json.obj members).get? "cause").bind fun v => parseRateLimitSignal js v at_).or
        ((((Json.obj members).get? "body").bind fun v => parseRateLimitSignal js v at_).or
          (ownRateLimitSignal (.obj members) at_)) := by
  have member : ∀ k, ((Json.obj members).get? k).bind
        (rateLimitSignalWithin js at_ (Json.obj members).weight) =
      ((Json.obj members).get? k).bind fun v => parseRateLimitSignal js v at_ := by
    intro k
    rcases hk : (Json.obj members).get? k with _ | w
    · rfl
    · exact rateLimitSignalWithin_stable js at_ (Json.weight_get? hk) (Nat.lt_succ_self _)
  rw [← member, ← member]
  rfl

/-- The label of a `response.failed` that reports the account's quota. -/
def rateLimitReachedType (event : Json) : Option String :=
  if event.type? = some "response.failed" then
    ((event.recordAt? "response").bind (Json.recordAt? "failed")).bind
      (Json.stringAt? "rate_limit_reached_type")
  else none

/-- True for frames the host cannot turn into anything the reader sees. -/
def isNonEmittingFrame (type : String) : Bool :=
  type == "response.created" || type == "response.in_progress" || "codex.".toList.isPrefixOf type.toList

/-- `undefined`, null or an empty array. -/
def isEmptyList : Option Json → Bool
  | none | some .null | some (.arr []) => true
  | _ => false

/-- A reasoning item whose own summary and content lists are empty. -/
def isEmptyReasoningItem (item : Json) : Bool :=
  item.type? = some "reasoning" && isEmptyList (item.get? "summary") && isEmptyList (item.get? "content")

/-- Folds one emitted non-lifecycle frame into the call state. -/
def recordEmittedCallFrame (event : Json) (state : EmittedCallState) : EmittedCallState :=
  let item := event.recordAt? "item"
  let other := { state with other := true }
  match event.type? with
  | some "response.output_item.added" =>
      match item, item.bind (Json.stringAt? "id") with
      | some item, some id =>
          if item.type? = some "function_call" then
            { state with addedItemIds := state.addedItemIds.insert id }
          else if isEmptyReasoningItem item then
            { state with reasoningItemIds := state.reasoningItemIds.insert id }
          else other
      | _, _ => other
  | some "response.function_call_arguments.delta" | some "response.function_call_arguments.done" =>
      match event.stringAt? "item_id" with
      | some id => if id ∈ state.addedItemIds then state else other
      | none => other
  | some "response.output_item.done" =>
      match item, item.bind (Json.stringAt? "id") with
      | some item, some id =>
          if item.type? = some "function_call" ∧ item.stringAt? "status" = some "completed" ∧
              (item.stringAt? "call_id").isSome ∧ (item.stringAt? "name").isSome ∧
              (item.stringAt? "arguments").isSome then
            { state with finished := true }
          else if isEmptyReasoningItem item ∧ id ∈ state.reasoningItemIds then state
          else other
      | _, _ => other
  | _ => other

/-! ## The stream -/

namespace State

def outputShape (s : State) : OutputShape :=
  if !s.emittedOutput then .none
  else if s.emittedCalls.other then .other
  else if s.emittedCalls.finished then
    if s.emittedCalls.reasoningItemIds ≠ [] then .other else .finishedCalls
  else if s.emittedCalls.addedItemIds ≠ [] then .unfinishedCalls
  else .none

/-- The owner is told. -/
def call (c : Callback) (s : State) : State :=
  { s with callbacks := s.callbacks ++ [c] }

def enqueue (c : Chunk) (s : State) : State :=
  { s with body := s.body ++ [c] }

/-- `completed = true; cleanup()` -/
def complete (s : State) : State :=
  { s with completed := true }

/-- `controller.error(error)` -/
def error (e : BodyError) (s : State) : State :=
  { s with ending := some (.errored e) }

def closeCompleted (s : State) : State :=
  { s.enqueue .done with ending := some .closed }

def closeWithSyntheticCompletion (s : State) : State :=
  (s.enqueue .syntheticCompleted).closeCompleted

def fail (error : BodyError) (connectionError : ResponseStreamError) (s : State) : State :=
  if s.completed then s
  else (s.complete.call (.onConnectionInvalid connectionError)).error error

/-- `invalidate`: the connection's error is the body's. -/
def invalidate (error : ResponseStreamError) (s : State) : State :=
  s.fail (.stream error) error

def invalidateTransport (error : ResponseStreamError) (s : State) : State :=
  match s.outputShape with
  | .finishedCalls =>
      if s.completed then s
      else (s.complete.call (.onConnectionInvalid error)).closeWithSyntheticCompletion
  | .other => s.fail noReplay { message := terminalAfterOutputMessage }
  | .none | .unfinishedCalls => s.invalidate error

/-- `attach`: the request is sent on the socket. -/
def attach (next : Replacement) (s : State) : State :=
  match next.sendError with
  | none => s
  | some message => if s.completed then s else s.invalidate { message }

/-- Tell the owner that something arrived, unless a frame was forwarded before. -/
def firstEvent (error : Option WrappedError) (s : State) : State :=
  if s.emitted then s else s.call (.onFirstEvent error)

/-- A rate limit before any durable output refuses the whole response. -/
def refuseAdmission (signal : RateLimitSignal) (event : Json) (s : State) : State :=
  ((((s.complete.call (.onRateLimitReached signal.window signal.resetAt)).call
    (.onTerminal event)).call (.onFirstEvent none)).error
      (.stream { message := "OpenAI account rate limit reached at admission (" ++ signal.window ++ ")" }))

/-- A protocol error, routed by what the reader already has. -/
def failWrapped (wrapped : WrappedError) (event : Json) (s : State) : State :=
  let s := ((s.firstEvent (some wrapped)).complete).call (.onTerminal event)
  match s.outputShape with
  | .none | .unfinishedCalls => s.error (.apiCall wrapped)
  | .finishedCalls => s.closeWithSyntheticCompletion
  | .other => s.error noReplay

/-- The account ran out of quota mid-stream. -/
def failRateLimited (label : String) (event : Json) (s : State) : State :=
  let s := (s.complete.call (.onRateLimitReached label none)).call (.onTerminal event)
  match s.outputShape with
  | .none | .unfinishedCalls =>
      (s.call (.onFirstEvent none)).error
        (.stream { message := "OpenAI account rate limit reached mid-stream (" ++ label ++ ")" })
  | .finishedCalls => s.closeWithSyntheticCompletion
  | .other => s.closeCompleted

/-- Whether `String(event.item.type)` returns for an item that was opened. -/
def itemTypePrints (event : Json) : Bool :=
  match event.recordAt? "item" with
  | some item => ((item.get? "type").map Json.hasString).getD true
  | none => true

/-- The bookkeeping for an enqueued frame; `none` when a step of it throws. -/
def recordFrame (event : Json) (s : State) : Option State :=
  let opens := event.type? = some "response.output_item.added" ∧ s.openingItemTypes < openingFrameLimit
  if opens ∧ itemTypePrints event = false then none
  else
    let s := if opens then { s with openingItemTypes := s.openingItemTypes + 1 } else s
    match event.type? with
    -- `type.startsWith` is no function
    | none => none
    | some type =>
        if isNonEmittingFrame type then some s
        else some
          { s with
            emittedOutput := true
            emittedCalls := recordEmittedCallFrame event s.emittedCalls }

/-- What a forwarded frame ends. -/
def settle (event : Json) (s : State) : State :=
  if event.type? = some "response.completed" ∨ event.type? = some "response.done" then
    let ids := collectFinalizedFromResponse event s.finalizedFunctionCallIds
    ((({ s.complete with finalizedFunctionCallIds := ids }).call (.onComplete event ids)).call
      (.onTerminal event)).closeCompleted
  else if event.type? = some "response.failed" ∨ event.type? = some "response.incomplete" ∨
      event.type? = some "error" then
    (s.complete.call (.onTerminal event)).closeCompleted
  else s

/-- The frame goes to the reader. -/
def enqueueFrame (text : String) (event : Json) (s : State) : State :=
  let ids := recordFinalizedFunctionCall event s.finalizedFunctionCallIds
  { (({ s with finalizedFunctionCallIds := ids }).firstEvent none).enqueue (.frame text event) with
    emitted := true }

def forward (text : String) (event : Json) (s : State) : State :=
  let s := s.enqueueFrame text event
  match s.recordFrame event with
  -- the call of `onMessage` rejects here, and what it has done stands
  | none => s
  | some s => s.settle event

end State

/-- The rate limit an event signals while a retry repeats nothing. -/
def admissionRateLimit (o : Options) (s : State) (at_ : Rat) (event : Json) : Option RateLimitSignal :=
  if s.outputShape = .none ∨ s.outputShape = .unfinishedCalls then
    parseRateLimitSignal o.js event at_
  else none

/-- What the owner's handler answers to a terminal event; `ok none` also
where it is not asked. -/
def retryableTerminal (o : Options) (event : Json) : Except String (Option Replacement) :=
  match o.onRetryableTerminal with
  | some handler => if event.type? = some "error" then handler event else .ok none
  | none => .ok none

def onEvent (o : Options) (at_ : Rat) (text : String) (event : Json) (s : State) : State :=
  if event.type? = some "codex.rate_limits" then s.call (.onQuota event)
  else
    match admissionRateLimit o s at_ event with
    | some signal => s.refuseAdmission signal event
    | none =>
      match retryableTerminal o event with
      | .error message => s.invalidateTransport { message }
      | .ok (some next) => s.attach next
      | .ok none =>
        match parseWrappedError o.js event text with
        | some wrapped => s.failWrapped wrapped event
        | none =>
          match rateLimitReachedType event with
          | some label => s.failRateLimited label event
          | none => s.forward text event

/-- The data of a `MessageEvent`. -/
inductive Data where
  | text (data : String)
  | binary

def onMessage (o : Options) (at_ : Rat) (data : Data) (s : State) : State :=
  if s.completed then s
  else
    match data with
    | .binary => s.invalidateTransport { message := "Unexpected binary WebSocket frame" }
    | .text text =>
      match eventOf o.js text with
      -- none of the tests above the forwarding holds of `undefined`
      | none => s.firstEvent none
      | some event => onEvent o at_ text event s

def onError (message : String) (s : State) : State :=
  s.invalidateTransport { message }

def closeMessage (message : String) (code : Nat) (reason : String) : String :=
  let details := ("code " ++ toString code) :: (if reason = "" then [] else [reason])
  message ++ " (" ++ ": ".intercalate details ++ ")"

def onClose (code : Nat) (reason : String) (s : State) : State :=
  if s.completed then s
  else
    -- 1009 is the peer refusing this request's size
    let oversized := code == 1009
    s.invalidateTransport
      { message :=
          if oversized then oversizedFrameMessage
          else closeMessage "WebSocket closed before response.completed" code reason
        retryable := !oversized
        oversized }

def onIdle (s : State) : State :=
  s.invalidateTransport { message := "idle timeout waiting for websocket" }

/-- What the socket and the idle timer deliver. -/
inductive SocketEvent where
  /-- A message, received at the time `at_`. -/
  | message (data : Data) (at_ : Rat)
  | error (message : String)
  | close (code : Nat) (reason : String)
  | idleTimeout

def receive (o : Options) (s : State) : SocketEvent → State
  | .message data at_ => onMessage o at_ data s
  | .error message => onError message s
  | .close code reason => onClose code reason s
  | .idleTimeout => onIdle s

/-- The stream after the socket it was started on sent the request. -/
def start (socket : Replacement) : State :=
  ({} : State).attach socket

def run (o : Options) (socket : Replacement) (events : List SocketEvent) : State :=
  events.foldl (receive o) (start socket)

end WebSocket
