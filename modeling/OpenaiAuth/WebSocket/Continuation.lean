import OpenaiAuth.Js.Record
import OpenaiAuth.WebSocket.Shown

/-! # Continuations of a pool entry

One entry of the WebSocket pool, request after request: what of the host's
input is sent, the response it is chained to, and what is saved for the next
request. A step is one task of the event loop with the promise jobs it queues.

Left out are the turn metadata, the order of the keys in a sent body, the cache
of canonical texts, and the counters that decide which requests go over HTTP:
a request on HTTP carries the host's body, touches none of the state here, and
may be made at any time. Beside the entry stands the server, with the context
of each response it completed on the socket.
-/

namespace WebSocket

open Js

/-! ## Bodies -/

namespace Body

def input? (body : Members) : Option (List Json) :=
  (body.lookup "input").bind Json.array?

def previousResponseID? (body : Members) : Option String :=
  (body.lookup "previous_response_id").bind Json.string?

def input (body : Members) : List Json :=
  (input? body).getD []

end Body

def normalizeResponseInputItem : Json → Json
  | .obj members =>
      let item := Json.obj members
      if item.type?.isNone && (item.stringAt? "role").isSome && (item.get? "content").isSome then
        .obj (Members.set "type" (.str "message") members)
      else item
  | item => item

def normalizeResponseBody (body : Members) : Members :=
  match Body.input? body with
  | some input => body.set "input" (.arr (input.map normalizeResponseInputItem))
  | none => body

/-- The keys of a body that its signature leaves out. -/
def unsignedKeys : List String :=
  ["input", "stream", "background", "previous_response_id", "generate"]

def normalizeSignatureBody (body : Members) : Members :=
  match body.lookup "client_metadata" with
  | some (.obj metadata) =>
      body.set "client_metadata"
        (.obj (Members.erase "x-codex-ws-stream-request-start-ms"
          (Members.erase "x-codex-turn-metadata" metadata)))
  | _ => body

def bodySignature (body : Members) : Json :=
  (Json.obj (normalizeSignatureBody (body.filter fun member => member.1 ∉ unsignedKeys))).stable

/-- The body of a prewarm; the turn metadata in it is left out. -/
def prewarmBody (body : Members) : Members :=
  ((body.set "generate" (.bool false)).set "input" (.arr [])).erase "previous_response_id"

/-! ## Items -/

def isCall (item : Json) : Bool :=
  item.type? = some "function_call" || item.type? = some "custom_tool_call"

def isCallOutput (item : Json) : Bool :=
  item.type? = some "function_call_output" || item.type? = some "custom_tool_call_output"

def isUserTurnMessage (item : Json) : Bool :=
  item.isRecord && (item.type? = some "message" || (item.get? "role").isSome) &&
    (item.stringAt? "role" = some "user" || item.stringAt? "role" = some "developer")

/-- Whether `continuationInput` keeps an item of the suffix. -/
def keepsItem (finalizedCallIds : List String) (item : Json) : Bool :=
  if !item.isRecord then true
  else if (item.type?.any fun type => "_output".toList.isSuffixOf type.toList) then true
  else if isCallOutput item then true
  else if isCall item then
    match callIdOf item with
    | some callId => if callId = "" then true else callId ∉ finalizedCallIds
    | none => true
  else if item.type? = some "message" then item.stringAt? "role" ≠ some "assistant"
  else if (item.stringAt? "role").isSome then item.stringAt? "role" ≠ some "assistant"
  else false

def continuationInput (input : List Json) (finalizedCallIds : List String) : List Json :=
  input.filter (keepsItem finalizedCallIds)

/-! ## Continuations -/

/-- `ContinuationState` -/
structure Continuation where
  responseID : String
  input : List Json
  signature : Json
  finalizedCallIds : List String
deriving DecidableEq

def hasContinuationPrefix (prior : Continuation) (body : Members) : Bool :=
  prior.input.length < (Body.input body).length &&
    (prior.input.map Json.stable).isPrefixOf ((Body.input body).map Json.stable)

def shouldPrewarm (continuation : Option Continuation) (body : Members) : Bool :=
  match continuation with
  | none => true
  | some prior =>
      match Body.input? body with
      | none => false
      | some input =>
          !hasContinuationPrefix prior body ||
            (input.drop prior.input.length).any isUserTurnMessage

/-- What is sent for a body, and the continuation that is kept. -/
def withContinuation (continuation : Option Continuation) (body : Members) :
    Members × Option Continuation :=
  match Body.input? body, continuation with
  | some input, some prior =>
      if prior.signature ≠ bodySignature body then (body, none)
      else if !hasContinuationPrefix prior body then (body, none)
      else if prior.input = [] then
        (body.set "previous_response_id" (.str prior.responseID), continuation)
      else
        let nextInput := continuationInput (input.drop prior.input.length) prior.finalizedCallIds
        if nextInput = [] then (body, continuation)
        else
          ((body.set "previous_response_id" (.str prior.responseID)).set "input" (.arr nextInput),
            continuation)
  | _, _ => (body, continuation)

def responseID? (event : Json) : Option String :=
  (event.recordAt? "response").bind (Json.stringAt? "id")

/-- What a completed response leaves to chain to. -/
def updateContinuation (continuation : Option Continuation) (fullBody : Members) (event : Json)
    (finalizedCallIds : List String) (chainedToPrior : Bool) : Option Continuation :=
  match responseID? event, Body.input? fullBody with
  | some id, some input =>
      if id = "" then none
      else
        let chainFinalized :=
          if chainedToPrior then (continuation.map (·.finalizedCallIds)).getD [] else []
        some
          { responseID := id
            input
            signature := bodySignature fullBody
            finalizedCallIds := chainFinalized ∪ finalizedCallIds }
  | _, _ => none

def connectionLimitReachedCode : String := "websocket_connection_limit_reached"

def connectionLimitError (event : Json) : Option String :=
  match event.recordAt? "error" with
  | some error =>
      if event.type? = some "error" ∧ error.stringAt? "code" = some connectionLimitReachedCode then
        some ((error.stringAt? "message").getD connectionLimitReachedCode)
      else none
  | none => none

/-- The options both streams of an entry are started with. -/
def streamOptions (js : Builtins) : Options where
  js
  onRetryableTerminal := some fun event =>
    match connectionLimitError event with
    | some message => .error message
    | none => .ok none

/-! ## The server -/

/-- The item that a frame reports as finalized. -/
def doneItem (frame : Json) : Option Json :=
  if frame.type? = some "response.output_item.done" then frame.recordAt? "item" else none

/-- The items that the last frame of a response lists. -/
def outputItems (event : Json) : List Json :=
  ((((event.recordAt? "response").bind fun response => response.get? "output").bind Json.array?).getD
    []).filter Json.isRecord

/-- The context a request names. -/
def contextOf (contexts : String → List Json) (request : Members) : List Json :=
  ((Body.previousResponseID? request).map contexts).getD []

/-- A response is completed: its context is the one the request named, then the
request's input, then the items the response finalized. -/
def completeContext (contexts : String → List Json) (request : Members) (frames : List Json)
    (event : Json) : String → List Json :=
  match responseID? event with
  | some id =>
      Function.update contexts id
        (contextOf contexts request ++ Body.input request ++
          (frames.filterMap doneItem ++ outputItems event))
  | none => contexts

/-! ## The entry -/

/-- Where the request that keeps the entry busy stands. -/
inductive Phase where
  | idle
  /-- Waiting for a socket. -/
  | connecting (body : Members)
  /-- The prewarm is composed, not yet sent. -/
  | prewarmComposed (body request : Members)
  | prewarming (body request : Members) (stream : State)
  /-- The prewarm was read to its end. -/
  | prewarmed (body : Members)
  /-- The main request is composed, not yet sent. -/
  | composed (body request : Members)
  | streaming (body request : Members) (stream : State)

/-- A request as it was sent, and the context of the response it named then. -/
structure Sent where
  request : Members
  context : List Json
deriving DecidableEq

structure Entry where
  continuation : Option Continuation := none
  phase : Phase := .idle
  /-- The server's context of each response it completed. -/
  contexts : String → List Json := fun _ => []
  /-- The requests sent, newest first. -/
  sent : List Sent := []

namespace Entry

/-- `invalidate`, as far as the continuation goes. -/
def invalidate (w : Entry) : Entry :=
  { w with continuation := none }

/-- The `catch` around a request. -/
def caught (w : Entry) : Entry :=
  { w.invalidate with phase := .idle }

/-- The continuation is applied to the body. -/
def compose (body : Members) (w : Entry) : Entry :=
  let (request, continuation) := withContinuation w.continuation body
  { w with continuation, phase := .composed body request }

/-- The socket is ready. -/
def connected (body : Members) (w : Entry) : Entry :=
  if shouldPrewarm w.continuation body && Body.input body ≠ [] then
    { w with phase := .prewarmComposed body (prewarmBody body) }
  else w.compose body

def send (request : Members) (w : Entry) : Entry :=
  { w with sent := { request, context := contextOf w.contexts request } :: w.sent }

/-- One callback of a stream; `body` is saved with the response and `chained`
says whether the request named an earlier one. -/
def report (body request : Members) (chained : Bool) (frames : List Json) (w : Entry) :
    Callback → Entry
  | .onComplete event ids =>
      { w with
        continuation := updateContinuation w.continuation body event ids chained
        contexts := completeContext w.contexts request frames event }
  | .onTerminal event =>
      if event.type? = some "response.completed" ∨ event.type? = some "response.done" then w
      else w.invalidate
  | .onConnectionInvalid _ => w.invalidate
  | _ => w

/-- The callbacks of the stream's last step. -/
def reports (body request : Members) (chained : Bool) (before after : State) (w : Entry) : Entry :=
  (after.callbacks.drop before.callbacks.length).foldl
    (report body request chained after.frames) w

/-- A step of the prewarm's stream. -/
def prewarmStep (body request : Members) (before after : State) (w : Entry) : Entry :=
  let w := w.reports request request false before after
  if after.completed then
    if after.ending = some .closed then { w with phase := .prewarmed body } else w.caught
  else { w with phase := .prewarming body request after }

/-- A step of the main stream. -/
def mainStep (body request : Members) (before after : State) (w : Entry) : Entry :=
  let chainedToPrior := (Body.previousResponseID? request).isSome
  let w := w.reports body request chainedToPrior before after
  if after.completed then { w with phase := .idle }
  else { w with phase := .streaming body request after }

end Entry

/-- What happens next to the entry. -/
inductive Choice where
  /-- A request asks for the socket; a busy entry hands it to HTTP. -/
  | fetch (body : Members)
  /-- A request goes over HTTP, at once or as a fallback. -/
  | sendHttp (body : Members)
  /-- A socket is there: the open one, or a new one in its place. -/
  | connect (reused : Bool)
  /-- No socket could be opened. -/
  | connectFails
  /-- The composed request is sent; `send` may throw. -/
  | send (socket : Replacement)
  | receive (e : SocketEvent)
  /-- After the prewarm, the main request is composed. -/
  | compose
  /-- The caller aborts, or cancels the reader. -/
  | abort
  /-- The entry is removed, closed or pruned. -/
  | drop

def step (js : Builtins) (w : Entry) : Choice → Entry
  | .fetch body =>
      match w.phase with
      | .idle => { w with phase := .connecting (normalizeResponseBody body) }
      | _ => w.send body
  | .sendHttp body => w.send body
  | .connect reused =>
      match w.phase with
      | .connecting body => (if reused then w else w.invalidate).connected body
      | _ => w
  | .connectFails =>
      match w.phase with
      | .connecting _ => w.caught
      | _ => w
  | .send socket =>
      let sent := fun request => if socket.sendError.isNone then w.send request else w
      match w.phase with
      | .prewarmComposed body request =>
          (sent request).prewarmStep body request {} (start socket)
      | .composed body request => (sent request).mainStep body request {} (start socket)
      | _ => w
  | .receive e =>
      match w.phase with
      | .prewarming body request stream =>
          w.prewarmStep body request stream (receive (streamOptions js) stream e)
      | .streaming body request stream =>
          w.mainStep body request stream (receive (streamOptions js) stream e)
      | _ => w
  | .compose =>
      match w.phase with
      | .prewarmed body => w.compose body
      | _ => w
  | .abort =>
      match w.phase with
      | .idle => w
      | _ => w.caught
  | .drop => w.invalidate

/-- A run of the entry. -/
def runEntry (js : Builtins) (choices : List Choice) : Entry :=
  choices.foldl (step js) {}

end WebSocket
