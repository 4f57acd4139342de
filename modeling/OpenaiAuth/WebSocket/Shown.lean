import OpenaiAuth.WebSocket.Stream

/-! # What the reader was shown

The allow-list of frames that a retry may repeat, stated over the frames
enqueued, and the flags of the stream as a record of it. One event leaves the
reader alone, ends the body by the shape of what was shown, or forwards a
frame.
-/

namespace WebSocket

open Js

/-! ## The allow-list -/

/-- What a frame is, by its own content. -/
inductive FrameKind where
  | lifecycle
  | callAdded (id : String)
  | callArguments (id : String)
  | callFinished
  | reasoningAdded (id : String)
  | reasoningDone (id : String)
  | unlisted
deriving Repr, DecidableEq

/-- An item that names a finished call: the host has run it. -/
def finishesCall (item : Json) : Bool :=
  item.type? = some "function_call" && item.stringAt? "status" = some "completed" &&
    (item.stringAt? "call_id").isSome && (item.stringAt? "name").isSome &&
    (item.stringAt? "arguments").isSome

theorem finishesCall_iff (item : Json) :
    finishesCall item = true ↔
      item.type? = some "function_call" ∧ item.stringAt? "status" = some "completed" ∧
        (item.stringAt? "call_id").isSome ∧ (item.stringAt? "name").isSome ∧
        (item.stringAt? "arguments").isSome := by
  simp only [finishesCall, Bool.and_eq_true, decide_eq_true_eq, and_assoc]

def itemAdded (item : Json) (id : String) : FrameKind :=
  if item.type? = some "function_call" then .callAdded id
  else if isEmptyReasoningItem item then .reasoningAdded id
  else .unlisted

def itemDone (item : Json) (id : String) : FrameKind :=
  if finishesCall item then .callFinished
  else if isEmptyReasoningItem item then .reasoningDone id
  else .unlisted

/-- The kind of a frame about the output item it carries. -/
def ofItem (f : Json) (kind : Json → String → FrameKind) : FrameKind :=
  match f.recordAt? "item", (f.recordAt? "item").bind (Json.stringAt? "id") with
  | some item, some id => kind item id
  | _, _ => .unlisted

def kindOf (f : Json) : FrameKind :=
  match f.type? with
  | none => .unlisted
  | some type =>
      if isNonEmittingFrame type then .lifecycle
      else if type = "response.output_item.added" then ofItem f itemAdded
      else if type = "response.function_call_arguments.delta" ∨
          type = "response.function_call_arguments.done" then
        match f.stringAt? "item_id" with
        | some id => .callArguments id
        | none => .unlisted
      else if type = "response.output_item.done" then ofItem f itemDone
      else .unlisted

/-- The frame is one of a function call, a reasoning item without text or the
lifecycle, given the frames before it. -/
def Allowed (before : List Json) (f : Json) : Prop :=
  match kindOf f with
  | .callArguments id => ∃ g ∈ before, kindOf g = .callAdded id
  | .reasoningDone id => ∃ g ∈ before, kindOf g = .reasoningAdded id
  | .unlisted => False
  | _ => True

/-- Some frame is outside the allow-list. -/
def Outside (frames : List Json) : Prop :=
  ∃ before f after, frames = before ++ f :: after ∧ ¬Allowed before f

/-- Some function call finished. -/
def Finished (frames : List Json) : Prop :=
  ∃ f ∈ frames, kindOf f = .callFinished

/-- Some reasoning item without text was opened. -/
def Reasoned (frames : List Json) : Prop :=
  ∃ f ∈ frames, ∃ id, kindOf f = .reasoningAdded id

theorem outside_append_singleton (frames : List Json) (f : Json) :
    Outside (frames ++ [f]) ↔ Outside frames ∨ ¬Allowed frames f := by
  constructor
  · rintro ⟨before, g, after, h, hg⟩
    rcases List.eq_nil_or_concat after with rfl | ⟨after', last, rfl⟩
    · obtain ⟨rfl, hgf⟩ := List.append_inj' h rfl
      simp only [List.cons.injEq, and_true] at hgf
      exact .inr (hgf ▸ hg)
    · rw [List.concat_eq_append, ← List.cons_append, ← List.append_assoc] at h
      have := List.append_inj' h rfl
      exact .inl ⟨before, g, after', this.1, hg⟩
  · rintro (⟨before, g, after, h, hg⟩ | hf)
    · exact ⟨before, g, after ++ [f], by rw [h]; simp, hg⟩
    · exact ⟨frames, f, [], rfl, hf⟩

/-! ## One event -/

namespace State

/-- The frames handed to the reader, oldest first. -/
def frames (s : State) : List Json :=
  s.body.filterMap fun
    | .frame _ event => some event
    | _ => none

section Updates

variable (s : State)

@[simp] theorem frames_call (c : Callback) : (s.call c).frames = s.frames := rfl

@[simp] theorem frames_complete : s.complete.frames = s.frames := rfl

@[simp] theorem frames_error (e : BodyError) : (s.error e).frames = s.frames := rfl

@[simp] theorem frames_closeCompleted : s.closeCompleted.frames = s.frames := by
  simp [frames, closeCompleted, enqueue]

@[simp] theorem frames_closeWithSyntheticCompletion :
    s.closeWithSyntheticCompletion.frames = s.frames := by
  simp [frames, closeWithSyntheticCompletion, closeCompleted, enqueue]

@[simp] theorem frames_firstEvent (e : Option WrappedError) :
    (s.firstEvent e).frames = s.frames := by
  unfold firstEvent
  split <;> rfl

theorem body_firstEvent (e : Option WrappedError) : (s.firstEvent e).body = s.body := by
  unfold firstEvent
  split <;> rfl

@[simp] theorem frames_enqueueFrame (text : String) (event : Json) :
    (s.enqueueFrame text event).frames = s.frames ++ [event] := by
  simp [enqueueFrame, frames, enqueue, body_firstEvent]

theorem frames_recordFrame {event : Json} {s s' : State} (h : s.recordFrame event = some s') :
    s'.frames = s.frames := by
  revert h
  unfold recordFrame
  dsimp only
  split
  · simp
  · split
    · simp
    · split <;> rintro ⟨rfl⟩ <;> split <;> rfl

@[simp] theorem frames_settle (event : Json) : (s.settle event).frames = s.frames := by
  unfold settle
  split
  · simp only [frames_closeCompleted, frames_call]
    rfl
  · split <;> simp

/-- A forwarded frame reaches the reader whatever the bookkeeping does. -/
theorem frames_forward (text : String) (event : Json) :
    (s.forward text event).frames = s.frames ++ [event] := by
  unfold forward
  dsimp only
  split
  · exact s.frames_enqueueFrame text event
  case _ s' h =>
    rw [frames_settle, frames_recordFrame h, frames_enqueueFrame]

@[simp] theorem outputShape_call (c : Callback) : (s.call c).outputShape = s.outputShape := rfl

@[simp] theorem outputShape_complete : s.complete.outputShape = s.outputShape := rfl

@[simp] theorem outputShape_firstEvent (e : Option WrappedError) :
    (s.firstEvent e).outputShape = s.outputShape := by
  unfold firstEvent
  split <;> rfl

end Updates

/-- Nothing changes for the reader, nor in what the stream knows of it. -/
structure Quiet (s s' : State) : Prop where
  completed : s'.completed = s.completed
  emittedOutput : s'.emittedOutput = s.emittedOutput
  emittedCalls : s'.emittedCalls = s.emittedCalls
  body : s'.body = s.body
  ending : s'.ending = s.ending

/-- The body ended as the shape of what was shown asks. -/
structure EndsByShape (s s' : State) : Prop where
  completed : s'.completed = true
  frames : s'.frames = s.frames
  retried : s.outputShape = .none ∨ s.outputShape = .unfinishedCalls →
    ∃ e, s'.ending = some (.errored e)
  finished : s.outputShape = .finishedCalls →
    s'.body = s.body ++ [.syntheticCompleted, .done] ∧ s'.ending = some .closed
  other : s.outputShape = .other →
    s'.ending = some .closed ∨ s'.ending = some (.errored noReplay)

theorem quiet_call (s : State) (c : Callback) : Quiet s (s.call c) :=
  ⟨rfl, rfl, rfl, rfl, rfl⟩

theorem quiet_firstEvent (s : State) (e : Option WrappedError) : Quiet s (s.firstEvent e) := by
  unfold firstEvent
  split
  · exact ⟨rfl, rfl, rfl, rfl, rfl⟩
  · exact quiet_call s _

theorem invalidateTransport_endsByShape {s : State} (hopen : s.completed = false)
    (error : ResponseStreamError) : EndsByShape s (s.invalidateTransport error) := by
  unfold invalidateTransport invalidate fail
  rcases hshape : s.outputShape with _ | _ | _ | _ <;> simp only [hopen]
  · exact ⟨rfl, rfl, fun _ => ⟨_, rfl⟩, by simp [hshape], by simp [hshape]⟩
  · exact ⟨rfl, rfl, fun _ => ⟨_, rfl⟩, by simp [hshape], by simp [hshape]⟩
  · refine ⟨rfl, by simp, by simp [hshape], fun _ => ⟨?_, rfl⟩, by simp [hshape]⟩
    simp [closeWithSyntheticCompletion, closeCompleted, enqueue, call, complete]
  · exact ⟨rfl, rfl, by simp [hshape], by simp [hshape], fun _ => .inr rfl⟩

theorem refuseAdmission_endsByShape {s : State}
    (hshape : s.outputShape = .none ∨ s.outputShape = .unfinishedCalls)
    (signal : RateLimitSignal) (event : Json) : EndsByShape s (s.refuseAdmission signal event) := by
  refine ⟨rfl, rfl, fun _ => ⟨_, rfl⟩, fun h => ?_, fun h => ?_⟩ <;> simp [h] at hshape

theorem failWrapped_endsByShape (s : State) (wrapped : WrappedError) (event : Json) :
    EndsByShape s (s.failWrapped wrapped event) := by
  unfold failWrapped
  simp only [outputShape_call, outputShape_complete, outputShape_firstEvent]
  rcases hshape : s.outputShape with _ | _ | _ | _
  · exact ⟨rfl, by simp, fun _ => ⟨_, rfl⟩, by simp [hshape], by simp [hshape]⟩
  · exact ⟨rfl, by simp, fun _ => ⟨_, rfl⟩, by simp [hshape], by simp [hshape]⟩
  · refine ⟨rfl, by simp, by simp [hshape], fun _ => ⟨?_, rfl⟩, by simp [hshape]⟩
    simp [closeWithSyntheticCompletion, closeCompleted, enqueue, call, complete, body_firstEvent]
  · exact ⟨rfl, by simp, by simp [hshape], by simp [hshape], fun _ => .inr rfl⟩

theorem failRateLimited_endsByShape (s : State) (label : String) (event : Json) :
    EndsByShape s (s.failRateLimited label event) := by
  unfold failRateLimited
  simp only [outputShape_call, outputShape_complete]
  rcases hshape : s.outputShape with _ | _ | _ | _
  · exact ⟨rfl, rfl, fun _ => ⟨_, rfl⟩, by simp [hshape], by simp [hshape]⟩
  · exact ⟨rfl, rfl, fun _ => ⟨_, rfl⟩, by simp [hshape], by simp [hshape]⟩
  · refine ⟨rfl, by simp, by simp [hshape], fun _ => ⟨?_, rfl⟩, by simp [hshape]⟩
    simp [closeWithSyntheticCompletion, closeCompleted, enqueue, call, complete]
  · exact ⟨rfl, by simp, by simp [hshape], by simp [hshape], fun _ => .inl rfl⟩

end State

/-- No test above the forwarding takes the event. -/
structure Passes (o : Options) (s : State) (at_ : Rat) (text : String) (event : Json) : Prop where
  quota : event.type? ≠ some "codex.rate_limits"
  admission : admissionRateLimit o s at_ event = none
  retryable : retryableTerminal o event = .ok none
  wrapped : parseWrappedError o.js event text = none
  rateLimited : rateLimitReachedType event = none

/-- The event is the text of a frame that the open stream forwards. -/
structure Forwards (o : Options) (s : State) (e : SocketEvent) (text : String) (event : Json) :
    Prop where
  isOpen : s.completed = false
  arrival : ∃ at_, e = .message (.text text) at_ ∧ Passes o s at_ text event
  parsed : eventOf o.js text = some event

/-- The handler answered the event with another socket. -/
def Replaces (o : Options) (next : Replacement) : Prop :=
  ∃ event, retryableTerminal o event = .ok (some next)

theorem onEvent_cases (o : Options) {s : State} (hopen : s.completed = false) (at_ : Rat)
    (text : String) (event : Json) :
    s.Quiet (onEvent o at_ text event s) ∨ s.EndsByShape (onEvent o at_ text event s) ∨
    (∃ next, Replaces o next ∧ onEvent o at_ text event s = s.attach next) ∨
    (Passes o s at_ text event ∧ onEvent o at_ text event s = s.forward text event) := by
  unfold onEvent
  split
  · exact .inl (s.quiet_call _)
  case _ hquota =>
    split
    case _ signal hsignal =>
      have hshape : s.outputShape = .none ∨ s.outputShape = .unfinishedCalls := by
        by_contra hshape
        simp [admissionRateLimit, hshape] at hsignal
      exact .inr (.inl (State.refuseAdmission_endsByShape hshape signal event))
    case _ hsignal =>
      split
      · exact .inr (.inl (State.invalidateTransport_endsByShape hopen _))
      case _ next hnext => exact .inr (.inr (.inl ⟨next, ⟨event, hnext⟩, rfl⟩))
      case _ hnext =>
        split
        · exact .inr (.inl (s.failWrapped_endsByShape _ _))
        case _ hwrapped =>
          split
          · exact .inr (.inl (s.failRateLimited_endsByShape _ _))
          case _ hlabel =>
            exact .inr (.inr (.inr ⟨⟨hquota, hsignal, hnext, hwrapped, hlabel⟩, rfl⟩))

theorem receive_completed (o : Options) {s : State} (h : s.completed = true) (e : SocketEvent) :
    receive o s e = s := by
  rcases e with ⟨data, at_⟩ | message | ⟨code, reason⟩ | _
  · simp [receive, onMessage, h]
  · simp only [receive, onError, State.invalidateTransport, State.invalidate, State.fail, h]
    split <;> rfl
  · simp [receive, onClose, h]
  · simp only [receive, onIdle, State.invalidateTransport, State.invalidate, State.fail, h]
    split <;> rfl

/-- What one event does to an open stream. -/
theorem receive_cases (o : Options) {s : State} (hopen : s.completed = false) (e : SocketEvent) :
    s.Quiet (receive o s e) ∨ s.EndsByShape (receive o s e) ∨
    (∃ next, Replaces o next ∧ receive o s e = s.attach next) ∨
    (∃ text event, Forwards o s e text event ∧ receive o s e = s.forward text event) := by
  rcases e with ⟨_ | _, at_⟩ | message | ⟨code, reason⟩ | _
  case message.text text =>
    simp only [receive, onMessage, hopen]
    rcases hevent : eventOf o.js text with _ | event
    · exact .inl (s.quiet_firstEvent none)
    · rcases onEvent_cases o hopen at_ text event with h | h | h | ⟨hpass, h⟩
      · exact .inl h
      · exact .inr (.inl h)
      · exact .inr (.inr (.inl h))
      · exact .inr (.inr (.inr ⟨text, event, ⟨hopen, ⟨at_, rfl, hpass⟩, hevent⟩, h⟩))
  case message.binary =>
    simp only [receive, onMessage, hopen]
    exact .inr (.inl (State.invalidateTransport_endsByShape hopen _))
  case error => exact .inr (.inl (State.invalidateTransport_endsByShape hopen _))
  case close =>
    simp only [receive, onClose, hopen]
    exact .inr (.inl (State.invalidateTransport_endsByShape hopen _))
  case idleTimeout => exact .inr (.inl (State.invalidateTransport_endsByShape hopen _))

end WebSocket
