import Mathlib.Data.List.Induction
import OpenaiAuth.WebSocket.Shown

/-! # How a response may end

The flags of the stream record the frames enqueued, as long as the bookkeeping
for a forwarded frame returns. Then every ending fits what the reader was
shown: a retry repeats nothing, finished calls end as completed, and anything
else ends closed or with the one fixed error.
-/

namespace WebSocket

open Js

/-! ## The flags record the frames -/

/-- The fold of a frame into the call state, by the kind of the frame. -/
def EmittedCallState.record (state : EmittedCallState) : FrameKind → EmittedCallState
  | .lifecycle => state
  | .callAdded id => { state with addedItemIds := state.addedItemIds.insert id }
  | .callArguments id => if id ∈ state.addedItemIds then state else { state with other := true }
  | .callFinished => { state with finished := true }
  | .reasoningAdded id => { state with reasoningItemIds := state.reasoningItemIds.insert id }
  | .reasoningDone id => if id ∈ state.reasoningItemIds then state else { state with other := true }
  | .unlisted => { state with other := true }

theorem recordEmittedCallFrame_eq {event : Json} (h : kindOf event ≠ .lifecycle)
    (state : EmittedCallState) :
    recordEmittedCallFrame event state = state.record (kindOf event) := by
  revert h
  unfold recordEmittedCallFrame kindOf ofItem
  simp only [← finishesCall_iff]
  rcases event.type? with _ | type
  · intro _
    rfl
  · dsimp only
    by_cases hlife : isNonEmittingFrame type = true
    · simp [hlife]
    intro _
    simp only [hlife]
    by_cases hadded : type = "response.output_item.added"
    · subst hadded
      rcases event.recordAt? "item" with _ | item
      · rfl
      · rcases hid : item.stringAt? "id" with _ | id
        · simp [hid, EmittedCallState.record]
        · simp only [Option.bind_some, hid, itemAdded]
          by_cases hcall : item.type? = some "function_call"
          · simp [hcall, EmittedCallState.record]
          · by_cases hempty : isEmptyReasoningItem item = true <;>
              simp [hcall, hempty, EmittedCallState.record]
    by_cases hdelta : type = "response.function_call_arguments.delta"
    · subst hdelta
      rcases event.stringAt? "item_id" with _ | id <;> simp [EmittedCallState.record]
    by_cases hargs : type = "response.function_call_arguments.done"
    · subst hargs
      rcases event.stringAt? "item_id" with _ | id <;> simp [EmittedCallState.record]
    by_cases hdone : type = "response.output_item.done"
    · subst hdone
      rcases event.recordAt? "item" with _ | item
      · rfl
      · rcases hid : item.stringAt? "id" with _ | id
        · simp [hid, EmittedCallState.record]
        · simp only [Option.bind_some, hid, itemDone]
          by_cases hcall : finishesCall item = true
          · simp [hcall, EmittedCallState.record]
          · by_cases hempty : isEmptyReasoningItem item = true <;>
              simp [hcall, hempty, EmittedCallState.record]
    · simp [hadded, hdelta, hargs, hdone, EmittedCallState.record]

/-- The flags of the stream say what its frames are. -/
structure Tracks (s : State) : Prop where
  output : s.emittedOutput = true ↔ ∃ f ∈ s.frames, kindOf f ≠ .lifecycle
  added : ∀ id, id ∈ s.emittedCalls.addedItemIds ↔ ∃ f ∈ s.frames, kindOf f = .callAdded id
  reasoning : ∀ id,
    id ∈ s.emittedCalls.reasoningItemIds ↔ ∃ f ∈ s.frames, kindOf f = .reasoningAdded id
  finished : s.emittedCalls.finished = true ↔ Finished s.frames
  other : s.emittedCalls.other = true ↔ Outside s.frames

/-- The bookkeeping for the frame returns: the frame has a type, and so does
any item it opens among the first twelve. -/
def Recordable (s : State) (event : Json) : Prop :=
  (∃ type, event.type? = some type) ∧
    (event.type? = some "response.output_item.added" → s.openingItemTypes < openingFrameLimit →
      State.itemTypePrints event = true)

section Record

variable (state : EmittedCallState) (kind : FrameKind) (id : String)

@[simp] theorem EmittedCallState.mem_added_record :
    id ∈ (state.record kind).addedItemIds ↔ id ∈ state.addedItemIds ∨ kind = .callAdded id := by
  cases kind <;> simp only [EmittedCallState.record]
  case callAdded i => simp [List.mem_insert_iff, or_comm, eq_comm]
  case callArguments i => by_cases hi : i ∈ state.addedItemIds <;> simp [hi]
  case reasoningDone i => by_cases hi : i ∈ state.reasoningItemIds <;> simp [hi]
  all_goals simp

@[simp] theorem EmittedCallState.mem_reasoning_record :
    id ∈ (state.record kind).reasoningItemIds ↔
      id ∈ state.reasoningItemIds ∨ kind = .reasoningAdded id := by
  cases kind <;> simp only [EmittedCallState.record]
  case reasoningAdded i => simp [List.mem_insert_iff, or_comm, eq_comm]
  case callArguments i => by_cases hi : i ∈ state.addedItemIds <;> simp [hi]
  case reasoningDone i => by_cases hi : i ∈ state.reasoningItemIds <;> simp [hi]
  all_goals simp

@[simp] theorem EmittedCallState.finished_record :
    (state.record kind).finished = true ↔ state.finished = true ∨ kind = .callFinished := by
  cases kind <;> simp only [EmittedCallState.record]
  case callArguments i => by_cases hi : i ∈ state.addedItemIds <;> simp [hi]
  case reasoningDone i => by_cases hi : i ∈ state.reasoningItemIds <;> simp [hi]
  all_goals simp

end Record

theorem ofItem_ne_lifecycle {f : Json} {kind : Json → String → FrameKind}
    (h : ∀ item id, kind item id ≠ .lifecycle) : ofItem f kind ≠ .lifecycle := by
  unfold ofItem
  split
  · exact h _ _
  · simp

/-- Only the lifecycle frames are left out of the call state. -/
theorem isNonEmittingFrame_iff {event : Json} {type : String} (h : event.type? = some type) :
    isNonEmittingFrame type = true ↔ kindOf event = .lifecycle := by
  constructor
  · intro hlife
    simp [kindOf, h, hlife]
  · intro hkind
    by_contra hlife
    have hadded : ofItem event itemAdded ≠ .lifecycle := by
      refine ofItem_ne_lifecycle fun item id => ?_
      unfold itemAdded
      split
      · simp
      · split <;> simp
    have hdone : ofItem event itemDone ≠ .lifecycle := by
      refine ofItem_ne_lifecycle fun item id => ?_
      unfold itemDone
      split
      · simp
      · split <;> simp
    unfold kindOf at hkind
    simp only [h, hlife, if_false] at hkind
    revert hkind
    split
    · exact hadded
    · split
      · split <;> simp
      · split
        · exact hdone
        · simp

theorem recordFrame_of_recordable {s : State} {event : Json} (h : Recordable s event) :
    ∃ s', s.recordFrame event = some s' ∧ s'.completed = s.completed ∧ s'.ending = s.ending ∧
      s'.emittedOutput = (s.emittedOutput || decide (kindOf event ≠ .lifecycle)) ∧
      s'.emittedCalls = s.emittedCalls.record (kindOf event) := by
  obtain ⟨⟨type, htype⟩, hprints⟩ := h
  have hreturns : ¬((event.type? = some "response.output_item.added" ∧
      s.openingItemTypes < openingFrameLimit) ∧ State.itemTypePrints event = false) := by
    rintro ⟨⟨hadded, hlimit⟩, hfails⟩
    simp [hprints hadded hlimit] at hfails
  unfold State.recordFrame
  simp only [hreturns, if_false]
  simp only [htype]
  have hkind := isNonEmittingFrame_iff htype
  by_cases hlife : isNonEmittingFrame type = true
  · refine ⟨_, if_pos hlife, ?_⟩
    have hlifecycle := hkind.mp hlife
    split <;> simp [hlifecycle, EmittedCallState.record]
  · refine ⟨_, if_neg hlife, ?_⟩
    have hne : kindOf event ≠ .lifecycle := fun hk => hlife (hkind.mpr hk)
    split <;> simp [hne, recordEmittedCallFrame_eq hne]

/-- A frame keeps the flags true to the frames. -/
theorem tracks_append {s s' : State} {event : Json} (h : Tracks s)
    (hframes : s'.frames = s.frames ++ [event])
    (houtput : s'.emittedOutput = (s.emittedOutput || decide (kindOf event ≠ .lifecycle)))
    (hcalls : s'.emittedCalls = s.emittedCalls.record (kindOf event)) :
    Tracks s' := by
  have hmem : ∀ p : Json → Prop, (∃ f ∈ s'.frames, p f) ↔ (∃ f ∈ s.frames, p f) ∨ p event := by
    intro p
    simp only [hframes, List.mem_append, List.mem_singleton, or_and_right, exists_or,
      exists_eq_left]
  have hout : Outside s'.frames ↔ Outside s.frames ∨ ¬Allowed s.frames event := by
    rw [hframes, outside_append_singleton]
  constructor
  · rw [houtput, hmem]
    simp [h.output]
  · intro id
    rw [hmem, ← h.added, hcalls, EmittedCallState.mem_added_record]
  · intro id
    rw [hmem, ← h.reasoning, hcalls, EmittedCallState.mem_reasoning_record]
  · rw [Finished, hmem, ← Finished, ← h.finished, hcalls, EmittedCallState.finished_record]
  · rw [hout, ← h.other, hcalls]
    rcases hk : kindOf event with _ | i | i | _ | i | i | _ <;>
      simp only [EmittedCallState.record, Allowed, hk]
    case callArguments => by_cases hi : i ∈ s.emittedCalls.addedItemIds <;> simp [hi, ← h.added]
    case reasoningDone =>
      by_cases hi : i ∈ s.emittedCalls.reasoningItemIds <;> simp [hi, ← h.reasoning]
    all_goals simp

/-! ## The shape of what was shown -/

theorem outputShape_other {s : State} (h : Tracks s)
    (hshown : Outside s.frames ∨ (Finished s.frames ∧ Reasoned s.frames)) :
    s.outputShape = .other := by
  have hemitted : s.emittedOutput = true := by
    rw [h.output]
    rcases hshown with ⟨before, f, after, hf, hnot⟩ | ⟨⟨f, hf, hkind⟩, -⟩
    · refine ⟨f, by simp [hf], fun hlife => hnot ?_⟩
      simp [Allowed, hlife]
    · exact ⟨f, hf, by simp [hkind]⟩
  unfold State.outputShape
  simp only [hemitted, Bool.not_true, Bool.false_eq_true, if_false]
  by_cases hother : s.emittedCalls.other = true
  · simp [hother]
  · have hnot : ¬Outside s.frames := fun hout => hother (h.other.mpr hout)
    obtain ⟨hfin, f, hf, id, hkind⟩ := hshown.resolve_left hnot
    have hreason : s.emittedCalls.reasoningItemIds ≠ [] :=
      List.ne_nil_of_mem ((h.reasoning id).mpr ⟨f, hf, hkind⟩)
    simp [hother, h.finished.mpr hfin, hreason]

theorem outputShape_finishedCalls {s : State} (h : Tracks s) (hfin : Finished s.frames)
    (hout : ¬Outside s.frames) (hreason : ¬Reasoned s.frames) :
    s.outputShape = .finishedCalls := by
  have hemitted : s.emittedOutput = true := by
    obtain ⟨f, hf, hkind⟩ := hfin
    exact h.output.mpr ⟨f, hf, by simp [hkind]⟩
  have hother : s.emittedCalls.other = false := by
    rw [← Bool.not_eq_true]
    exact fun ho => hout (h.other.mp ho)
  have hempty : s.emittedCalls.reasoningItemIds = [] := by
    rw [List.eq_nil_iff_forall_not_mem]
    intro id hid
    obtain ⟨f, hf, hkind⟩ := (h.reasoning id).mp hid
    exact hreason ⟨f, hf, id, hkind⟩
  simp [State.outputShape, hemitted, hother, h.finished.mpr hfin, hempty]

/-! ## Endings -/

/-- The body of the stream has not ended, or it ended as what it was shown asks:
- with any error but the fixed one only if no function call finished and
  nothing outside the allow-list was enqueued;
- as a completed response if a function call finished and nothing else was
  enqueued;
- closed, or with the fixed error, in every other case. -/
structure EndsSafely (s : State) : Prop where
  errors : ∀ e, s.ending = some (.errored e) → e ≠ noReplay →
    ¬Finished s.frames ∧ ¬Outside s.frames
  completes : s.ending ≠ none → Finished s.frames → ¬Outside s.frames → ¬Reasoned s.frames →
    ∃ shown, s.body = shown ++ [.syntheticCompleted, .done] ∧ s.ending = some .closed
  otherwise : s.ending ≠ none → Outside s.frames ∨ (Finished s.frames ∧ Reasoned s.frames) →
    s.ending = some .closed ∨ s.ending = some (.errored noReplay)

theorem endsSafely_of_open {s : State} (h : s.ending = none) : EndsSafely s := by
  constructor <;> simp [h]

theorem endsSafely_of_shape {s s' : State} (h : Tracks s) (hends : s.EndsByShape s') :
    EndsSafely s' := by
  have hother := outputShape_other h
  rw [← hends.frames] at hother
  constructor
  · intro e he hne
    -- an error other than the fixed one is given to a retry only
    have hnot : s.outputShape ≠ .other := by
      intro hshape
      rcases hends.other hshape with hc | hc <;> rw [he] at hc <;> simp_all
    have hnotfin : s.outputShape ≠ .finishedCalls := by
      intro hshape
      have hc := (hends.finished hshape).2
      simp [he] at hc
    have hout : ¬Outside s'.frames := fun hout => hnot (hother (.inl hout))
    refine ⟨fun hfin => ?_, hout⟩
    by_cases hreason : Reasoned s'.frames
    · exact hnot (hother (.inr ⟨hfin, hreason⟩))
    · rw [hends.frames] at hfin hout hreason
      exact hnotfin (outputShape_finishedCalls h hfin hout hreason)
  · intro _ hfin hout hreason
    rw [hends.frames] at hfin hout hreason
    exact ⟨_, hends.finished (outputShape_finishedCalls h hfin hout hreason)⟩
  · intro _ hshown
    exact hends.other (hother hshown)

theorem endsSafely_of_closed {s : State} (hends : s.ending = some .closed)
    (hout : Outside s.frames) : EndsSafely s := by
  constructor
  · simp [hends]
  · intro _ _ hnot
    exact absurd hout hnot
  · intro _ _
    exact .inl hends

/-- While it is open the flags track the frames; once it ended it ended safely. -/
def Sound (s : State) : Prop :=
  (s.completed = false → s.ending = none ∧ Tracks s) ∧ (s.completed = true → EndsSafely s)

theorem sound_start (socket : Replacement) : Sound (start socket) := by
  unfold start State.attach
  rcases socket with ⟨_ | message⟩
  · refine ⟨fun _ => ⟨rfl, ?_⟩, by simp⟩
    constructor <;> simp [State.frames, Finished, Outside]
  · refine ⟨by simp [State.invalidate, State.fail, State.error, State.call, State.complete], ?_⟩
    intro _
    constructor <;>
      simp [State.invalidate, State.fail, State.error, State.call, State.complete, State.frames,
        Finished, Outside]

/-- A frame that ends the response is outside the allow-list. -/
theorem not_allowed_of_terminal {before : List Json} {event : Json}
    (h : event.type? = some "response.completed" ∨ event.type? = some "response.done" ∨
      event.type? = some "response.failed" ∨ event.type? = some "response.incomplete" ∨
      event.type? = some "error") :
    ¬Allowed before event := by
  have hkind : kindOf event = .unlisted := by
    unfold kindOf
    rcases h with h | h | h | h | h <;> simp [h, isNonEmittingFrame]
  simp [Allowed, hkind]

theorem sound_forward {s : State} (hopen : s.completed = false) (h : Sound s) (text : String)
    {event : Json} (hrec : Recordable s event) : Sound (s.forward text event) := by
  obtain ⟨hend, htracks⟩ := h.1 hopen
  have hrec' : Recordable (s.enqueueFrame text event) event := by
    have : (s.enqueueFrame text event).openingItemTypes = s.openingItemTypes := by
      unfold State.enqueueFrame State.firstEvent
      dsimp only
      split <;> rfl
    exact ⟨hrec.1, by rw [this]; exact hrec.2⟩
  obtain ⟨s', hs', hcompleted, hending, houtput, hcalls⟩ := recordFrame_of_recordable hrec'
  have hquiet : s.Quiet { s.enqueueFrame text event with body := s.body } := by
    unfold State.enqueueFrame State.firstEvent
    dsimp only
    split <;> exact ⟨rfl, rfl, rfl, rfl, rfl⟩
  have hframes : s'.frames = s.frames ++ [event] := by
    rw [State.frames_recordFrame hs', State.frames_enqueueFrame]
  have hopen' : s'.completed = false := by rw [hcompleted, hquiet.completed, hopen]
  have hend' : s'.ending = none := by rw [hending, hquiet.ending, hend]
  have htracks' : Tracks s' := by
    refine tracks_append htracks hframes ?_ ?_
    · rw [houtput, hquiet.emittedOutput]
    · rw [hcalls, hquiet.emittedCalls]
  have hforward : s.forward text event = s'.settle event := by
    simp [State.forward, hs']
  have hterminal : ∀ s'' : State, s'' = s'.settle event → s''.completed = true →
      s''.ending = some .closed → ¬Allowed s.frames event → Sound s'' := by
    intro s'' hs'' hc he hnot
    refine ⟨by simp [hc], fun _ => endsSafely_of_closed he ?_⟩
    rw [hs'', State.frames_settle, hframes, outside_append_singleton]
    exact .inr hnot
  rw [hforward]
  unfold State.settle
  split
  case _ hdone =>
    refine hterminal _ ?_ rfl rfl (not_allowed_of_terminal (by tauto))
    rw [State.settle, if_pos hdone]
  case _ hnotdone =>
    split
    case _ hfailed =>
      refine hterminal _ ?_ rfl rfl (not_allowed_of_terminal (by tauto))
      rw [State.settle, if_neg hnotdone, if_pos hfailed]
    case _ =>
      exact ⟨fun _ => ⟨hend', htracks'⟩, by simp [hopen']⟩

theorem sound_receive (o : Options) (hsend : ∀ next, Replaces o next → next.sendError = none)
    {s : State} (h : Sound s) (e : SocketEvent)
    (hrec : ∀ text event, Forwards o s e text event → Recordable s event) :
    Sound (receive o s e) := by
  by_cases hcompleted : s.completed = true
  · rw [receive_completed o hcompleted]
    exact h
  have hopen : s.completed = false := by simpa using hcompleted
  obtain ⟨hend, htracks⟩ := h.1 hopen
  rcases receive_cases o hopen e with hquiet | hends | ⟨next, hnext, heq⟩ | ⟨text, event, hfwd, heq⟩
  · refine ⟨fun _ => ⟨by rw [hquiet.ending, hend], ?_⟩, by simp [hquiet.completed, hopen]⟩
    have hframes : (receive o s e).frames = s.frames := by
      simp only [State.frames, hquiet.body]
    constructor
    · rw [hframes, hquiet.emittedOutput]
      exact htracks.output
    · rw [hframes, hquiet.emittedCalls]
      exact htracks.added
    · rw [hframes, hquiet.emittedCalls]
      exact htracks.reasoning
    · rw [hframes, hquiet.emittedCalls]
      exact htracks.finished
    · rw [hframes, hquiet.emittedCalls]
      exact htracks.other
  · refine ⟨by simp [hends.completed], fun _ => endsSafely_of_shape htracks hends⟩
  · rw [heq, State.attach, hsend next hnext]
    exact h
  · rw [heq]
    exact sound_forward hopen h text (hrec text event hfwd)

/-- In every run in which the bookkeeping returns for each forwarded frame, the
body ends safely. -/
theorem endsSafely_run (o : Options) (socket : Replacement)
    (hsend : ∀ next, Replaces o next → next.sendError = none) (events : List SocketEvent)
    (hrec : ∀ before e after, events = before ++ e :: after → ∀ text event,
      Forwards o (run o socket before) e text event → Recordable (run o socket before) event) :
    EndsSafely (run o socket events) := by
  have hsound : Sound (run o socket events) := by
    induction events using List.reverseRecOn with
    | nil => exact sound_start socket
    | append_singleton before e ih =>
        have hbefore := ih fun b e' after h => hrec b e' (after ++ [e]) (by simp [h])
        have hstep := sound_receive o hsend hbefore e (hrec before e [] rfl)
        simpa [run] using hstep
  by_cases hcompleted : (run o socket events).completed = true
  · exact hsound.2 hcompleted
  · exact endsSafely_of_open (hsound.1 (by simpa using hcompleted)).1

/-! ### A call that finished before the socket closed -/

/-- `{"type":"response.output_item.added","item":{"type":"function_call","id":"fc"}}` -/
def callAdded : String × Json :=
  ("\x7b\"type\":\"response.output_item.added\",\"item\":\x7b\"type\":\"function_call\",\"id\":\"fc\"\x7d\x7d",
    .obj
      [("type", .str "response.output_item.added"),
        ("item", .obj [("type", .str "function_call"), ("id", .str "fc")])])

/-- `{"type":"response.output_item.done","item":{"type":"function_call","id":"fc",
"call_id":"call","name":"shell","arguments":"","status":"completed"}}` -/
def callDone : String × Json :=
  ("\x7b\"type\":\"response.output_item.done\",\"item\":\x7b\"type\":\"function_call\",\"id\":\"fc\"," ++
    "\"call_id\":\"call\",\"name\":\"shell\",\"arguments\":\"\",\"status\":\"completed\"\x7d\x7d",
    .obj
      [("type", .str "response.output_item.done"),
        ("item", .obj
          [("type", .str "function_call"), ("id", .str "fc"), ("call_id", .str "call"),
            ("name", .str "shell"), ("arguments", .str ""), ("status", .str "completed")])])

/-- A frame without a type: `{"error":{"message":"upstream failed"}}`. -/
def untyped : String × Json :=
  ("\x7b\"error\":\x7b\"message\":\"upstream failed\"\x7d\x7d",
    .obj [("error", .obj [("message", .str "upstream failed")])])

def exampleOptions : Options where
  js := .ofTable [callAdded, callDone, untyped] (by decide +kernel)

/-- The text of a frame arrives. -/
def arrives (frame : String × Json) : SocketEvent :=
  .message (.text frame.1) 0

theorem endsSafely_run_finished_call :
    EndsSafely (run exampleOptions {} [arrives callAdded, arrives callDone, .close 1006 ""]) ∧
    (run exampleOptions {} [arrives callAdded, arrives callDone, .close 1006 ""]).body =
      [.frame callAdded.1 callAdded.2, .frame callDone.1 callDone.2, .syntheticCompleted, .done] := by
  refine ⟨endsSafely_run exampleOptions {} ?_ _ ?_, by decide +kernel⟩
  · rintro next ⟨event, h⟩
    simp [retryableTerminal, exampleOptions] at h
  · intro before e after hsplit text event hfwd
    obtain ⟨at_, rfl, -⟩ := hfwd.arrival
    have hmem : SocketEvent.message (.text text) at_ ∈
        [arrives callAdded, arrives callDone, .close 1006 ""] := by simp [hsplit]
    have htext : text = callAdded.1 ∨ text = callDone.1 := by
      simp only [arrives, List.mem_cons, SocketEvent.message.injEq, Data.text.injEq,
        reduceCtorEq, List.not_mem_nil, or_false] at hmem
      exact hmem.imp And.left And.left
    have hparsed := hfwd.parsed
    rcases htext with rfl | rfl
    · have : event = callAdded.2 := by
        have hcomputed : eventOf exampleOptions.js callAdded.1 = some callAdded.2 := by
          decide +kernel
        rw [hcomputed] at hparsed
        exact (Option.some.inj hparsed).symm
      subst this
      exact ⟨⟨_, rfl⟩, fun _ _ => rfl⟩
    · have : event = callDone.2 := by
        have hcomputed : eventOf exampleOptions.js callDone.1 = some callDone.2 := by
          decide +kernel
        rw [hcomputed] at hparsed
        exact (Option.some.inj hparsed).symm
      subst this
      exact ⟨⟨_, rfl⟩, fun _ _ => rfl⟩

/-- The type of a frame without one is no string: the handler throws after the
frame was enqueued, and the close that follows is retried. -/
theorem untyped_frame_retried :
    (run exampleOptions {} [arrives untyped, .close 1006 ""]).frames = [untyped.2] ∧
    ¬Allowed [] untyped.2 ∧
    (run exampleOptions {} [arrives untyped, .close 1006 ""]).ending =
      some (.errored (.stream
        { message := "WebSocket closed before response.completed (code 1006)" })) ∧
    ¬EndsSafely (run exampleOptions {} [arrives untyped, .close 1006 ""]) := by
  have hframes : (run exampleOptions {} [arrives untyped, .close 1006 ""]).frames = [untyped.2] := by
    decide +kernel
  have hnot : ¬Allowed [] untyped.2 := by
    have hkind : kindOf untyped.2 = .unlisted := by decide +kernel
    simp [Allowed, hkind]
  have hends : (run exampleOptions {} [arrives untyped, .close 1006 ""]).ending =
      some (.errored (.stream
        { message := "WebSocket closed before response.completed (code 1006)" })) := by
    decide +kernel
  refine ⟨hframes, hnot, hends, fun hsafe => ?_⟩
  have := (hsafe.errors _ hends (by decide)).2
  exact this ⟨[], untyped.2, [], hframes, hnot⟩

end WebSocket
