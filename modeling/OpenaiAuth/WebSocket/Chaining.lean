import OpenaiAuth.WebSocket.Continuation
import OpenaiAuth.WebSocket.Wording

/-! # Chained requests

Every request that names an earlier response finds the calls of its outputs in
its own input or in the server's context of that response. The invariant ties
the saved input and the finalized calls of a continuation to the context of the
response it names.
-/

namespace WebSocket

open Js

/-! ## Calls and their outputs -/

/-- Some call among the items has this id. -/
def Supplies (items : List Json) (id : String) : Prop :=
  ∃ c ∈ items, isCall c = true ∧ callIdOf c = some id

/-- The output's call has an id that is supplied. -/
def AnsweredBy (output : Json) (supplied : String → Prop) : Prop :=
  ∃ id, output.stringAt? "call_id" = some id ∧ supplied id

/-- Every output follows its call. -/
def WellFormed (input : List Json) : Prop :=
  ∀ before output after, input = before ++ output :: after → isCallOutput output = true →
    AnsweredBy output (Supplies before)

/-- Every output of a chained request has its call earlier in the same input or
in the context of the response it names. -/
def Answered (s : Sent) : Prop :=
  ∀ id, Body.previousResponseID? s.request = some id →
    ∀ before output after, Body.input s.request = before ++ output :: after →
      isCallOutput output = true →
      AnsweredBy output fun callId => Supplies before callId ∨ Supplies s.context callId

theorem AnsweredBy.mono {output : Json} {p q : String → Prop} (h : AnsweredBy output p)
    (hpq : ∀ id, p id → q id) : AnsweredBy output q := by
  obtain ⟨id, hid, hp⟩ := h
  exact ⟨id, hid, hpq id hp⟩

theorem Supplies.mono {items items' : List Json} {id : String} (h : Supplies items id)
    (hsub : items ⊆ items') : Supplies items' id := by
  obtain ⟨c, hc, hrest⟩ := h
  exact ⟨c, hsub hc, hrest⟩

@[simp] theorem supplies_append {items items' : List Json} {id : String} :
    Supplies (items ++ items') id ↔ Supplies items id ∨ Supplies items' id := by
  simp only [Supplies, List.mem_append, or_and_right, exists_or]

@[simp] theorem not_supplies_nil {id : String} : ¬Supplies [] id := by
  simp [Supplies]

@[simp] theorem isCall_stable (item : Json) : isCall item.stable = isCall item := by
  simp [isCall, Json.type?]

@[simp] theorem callIdOf_stable (item : Json) : callIdOf item.stable = callIdOf item := by
  simp [callIdOf]

theorem supplies_map_stable {items : List Json} {id : String} :
    Supplies (items.map Json.stable) id ↔ Supplies items id := by
  simp [Supplies]

/-- A call that is not kept in the suffix was finalized. -/
theorem mem_finalized_of_not_keepsItem {finalized : List String} {c : Json} {id : String}
    (hcall : isCall c = true) (hid : callIdOf c = some id)
    (hkeeps : keepsItem finalized c = false) : id ∈ finalized := by
  have htype : c.type? = some "function_call" ∨ c.type? = some "custom_tool_call" := by
    simpa [isCall] using hcall
  have hrecord : c.isRecord = true := by
    rcases htype with h | h <;> cases c <;> simp_all [Json.type?, Json.get?, Json.isRecord]
  have houtput : isCallOutput c = false := by
    rcases htype with h | h <;> simp [isCallOutput, h]
  have hsuffix : (c.type?.any fun type => "_output".toList.isSuffixOf type.toList) = false := by
    rcases htype with h | h <;> rw [h] <;> decide +kernel
  by_contra hnot
  have hkept : keepsItem finalized c = true := by
    unfold keepsItem
    simp only [hrecord, hsuffix, houtput, hcall, hid, hnot]
    simp
  simp [hkept] at hkeeps

/-- What a suffix supplies is kept in it or was finalized. -/
theorem supplies_continuationInput {suffix : List Json} {finalized : List String} {id : String}
    (h : Supplies suffix id) :
    Supplies (continuationInput suffix finalized) id ∨ id ∈ finalized := by
  obtain ⟨c, hc, hcall, hid⟩ := h
  by_cases hkeeps : keepsItem finalized c = true
  · exact .inl ⟨c, List.mem_filter.mpr ⟨hc, hkeeps⟩, hcall, hid⟩
  · exact .inr (mem_finalized_of_not_keepsItem hcall hid (by simpa using hkeeps))

/-! ## The normalised body -/

theorem normalizeResponseInputItem_type? (item : Json) :
    normalizeResponseInputItem item = item ∨
      item.type? = none ∧ (normalizeResponseInputItem item).type? = some "message" := by
  cases item with
  | obj members =>
      unfold normalizeResponseInputItem
      dsimp only
      split
      case _ h =>
        right
        simp only [Bool.and_eq_true, Option.isNone_iff_eq_none] at h
        refine ⟨h.1.1, ?_⟩
        simp [Json.type?, Json.stringAt?, Json.get?, Json.string?]
      case _ => exact .inl rfl
  | _ => exact .inl rfl

theorem normalizeResponseInputItem_eq_self {item : Json}
    (h : isCall item = true ∨ isCall (normalizeResponseInputItem item) = true ∨
      isCallOutput (normalizeResponseInputItem item) = true) :
    normalizeResponseInputItem item = item := by
  rcases normalizeResponseInputItem_type? item with heq | ⟨hnone, hmessage⟩
  · exact heq
  · simp [isCall, isCallOutput, hnone, hmessage] at h

theorem wellFormed_normalizeResponseBody {body : Members} (h : WellFormed (Body.input body)) :
    WellFormed (Body.input (normalizeResponseBody body)) := by
  unfold normalizeResponseBody
  rcases hinput : Body.input? body with _ | input
  · exact h
  have hbody : Body.input body = input := by simp [Body.input, hinput]
  rw [hbody] at h
  have hnew : Body.input (body.set "input" (.arr (input.map normalizeResponseInputItem))) =
      input.map normalizeResponseInputItem := by
    simp [Body.input, Body.input?, Json.array?]
  dsimp only
  rw [hnew]
  intro before output after hsplit hout
  obtain ⟨before', rest, hinput', rfl, hrest⟩ := List.map_eq_append_iff.mp hsplit
  obtain ⟨output', after', rfl, rfl, rfl⟩ := List.map_eq_cons_iff.mp hrest
  have hsame : normalizeResponseInputItem output' = output' :=
    normalizeResponseInputItem_eq_self (.inr (.inr hout))
  rw [hsame] at hout ⊢
  refine (h before' output' after' hinput' hout).mono fun id => ?_
  rintro ⟨c, hc, hcall, hid⟩
  refine ⟨c, List.mem_map.mpr ⟨c, hc, ?_⟩, hcall, hid⟩
  exact normalizeResponseInputItem_eq_self (.inl hcall)

/-! ## What a stream reports -/

/-- The items that the frames report as finalized. -/
def finalizedItems (frames : List Json) : List Json :=
  frames.filterMap doneItem

theorem mem_addFinalizedCallId {item : Json} {into : List String} {id : String}
    (h : id ∈ addFinalizedCallId item into) : id ∈ into ∨ Supplies [item] id := by
  unfold addFinalizedCallId at h
  split at h
  case isTrue hcall =>
    rcases hid : callIdOf item with _ | callId
    · simp only [hid] at h
      exact .inl h
    · simp only [hid] at h
      split at h
      · exact .inl h
      · rcases List.mem_insert_iff.mp h with rfl | h
        · exact .inr ⟨item, by simp, by simpa [isCall] using hcall, hid⟩
        · exact .inl h
  case isFalse => exact .inl h

theorem mem_recordFinalizedFunctionCall {event : Json} {into : List String} {id : String}
    (h : id ∈ recordFinalizedFunctionCall event into) :
    id ∈ into ∨ Supplies (finalizedItems [event]) id := by
  unfold recordFinalizedFunctionCall at h
  split at h
  case isTrue hdone =>
    rcases hitem : event.recordAt? "item" with _ | item
    · simp only [hitem] at h
      exact .inl h
    · simp only [hitem] at h
      have hitems : finalizedItems [event] = [item] := by
        simp [finalizedItems, doneItem, hdone, hitem]
      rw [hitems]
      exact mem_addFinalizedCallId h
  case isFalse => exact .inl h

theorem mem_foldl_addFinalizedCallId {items : List Json} {into : List String} {id : String}
    (h : id ∈ items.foldl (fun into item => addFinalizedCallId item into) into) :
    id ∈ into ∨ Supplies items id := by
  induction items generalizing into with
  | nil => exact .inl h
  | cons item rest ih =>
      rcases ih h with h | h
      · rcases mem_addFinalizedCallId h with h | h
        · exact .inl h
        · exact .inr (h.mono (by simp))
      · exact .inr (h.mono (by simp))

theorem mem_collectFinalizedFromResponse {event : Json} {into : List String} {id : String}
    (h : id ∈ collectFinalizedFromResponse event into) :
    id ∈ into ∨ Supplies (outputItems event) id := by
  unfold collectFinalizedFromResponse at h
  unfold outputItems
  rcases hresponse : event.recordAt? "response" with _ | response
  · simp only [hresponse] at h
    exact .inl h
  · rcases houtput : (response.get? "output").bind Json.array? with _ | output
    · simp only [hresponse, Option.bind_some, houtput] at h
      exact .inl h
    · simp only [hresponse, Option.bind_some, houtput] at h ⊢
      exact mem_foldl_addFinalizedCallId h

/-- The ids the stream collected are calls its frames finalized. -/
def CollectsFinalized (s : State) : Prop :=
  ∀ id ∈ s.finalizedFunctionCallIds, Supplies (finalizedItems s.frames) id

/-- The stream told its owner nothing of a completion, and collected nothing. -/
structure Silent (s s' : State) : Prop where
  callbacks : ∃ news, s'.callbacks = s.callbacks ++ news ∧
    ∀ event ids, Callback.onComplete event ids ∉ news
  finalized : s'.finalizedFunctionCallIds = s.finalizedFunctionCallIds

namespace State

theorem silent_of_news {s s' : State} (news : List Callback)
    (hcallbacks : s'.callbacks = s.callbacks ++ news)
    (hnone : ∀ event ids, Callback.onComplete event ids ∉ news)
    (hfinalized : s'.finalizedFunctionCallIds = s.finalizedFunctionCallIds) : Silent s s' :=
  ⟨⟨news, hcallbacks, hnone⟩, hfinalized⟩

theorem silent_refl (s : State) : Silent s s :=
  silent_of_news [] (by simp) (by simp) rfl

theorem silent_firstEvent (s : State) (e : Option WrappedError) : Silent s (s.firstEvent e) := by
  unfold firstEvent
  split
  · exact silent_refl s
  · exact silent_of_news [.onFirstEvent e] rfl (by simp) rfl

theorem silent_fail (s : State) (error : BodyError) (connectionError : ResponseStreamError) :
    Silent s (s.fail error connectionError) := by
  unfold fail
  split
  · exact silent_refl s
  · exact silent_of_news [.onConnectionInvalid connectionError] rfl (by simp) rfl

theorem silent_invalidateTransport (s : State) (error : ResponseStreamError) :
    Silent s (s.invalidateTransport error) := by
  unfold invalidateTransport invalidate
  split
  · split
    · exact silent_refl s
    · exact silent_of_news [.onConnectionInvalid error] rfl (by simp) rfl
  all_goals exact silent_fail s _ _

theorem silent_attach (next : Replacement) (s : State) : Silent s (s.attach next) := by
  unfold attach
  split
  · exact silent_refl s
  · split
    · exact silent_refl s
    · exact silent_fail s _ _

theorem silent_refuseAdmission (s : State) (signal : RateLimitSignal) (event : Json) :
    Silent s (s.refuseAdmission signal event) := by
  refine silent_of_news [.onRateLimitReached signal.window signal.resetAt, .onTerminal event,
    .onFirstEvent none] ?_ (by simp) rfl
  simp [refuseAdmission, error, call, complete]

theorem silent_failWrapped (s : State) (wrapped : WrappedError) (event : Json) :
    Silent s (s.failWrapped wrapped event) := by
  obtain ⟨⟨news, hnews, hnone⟩, hfinalized⟩ := silent_firstEvent s (some wrapped)
  unfold failWrapped
  dsimp only
  split <;>
    exact silent_of_news (news ++ [.onTerminal event])
      (by rw [← List.append_assoc, ← hnews]; rfl) (by simp [hnone]) hfinalized

theorem silent_failRateLimited (s : State) (label : String) (event : Json) :
    Silent s (s.failRateLimited label event) := by
  unfold failRateLimited
  dsimp only
  split
  case h_3 =>
    refine silent_of_news [.onRateLimitReached label none, .onTerminal event] ?_ (by simp) rfl
    simp [closeWithSyntheticCompletion, closeCompleted, enqueue, call, complete]
  case h_4 =>
    refine silent_of_news [.onRateLimitReached label none, .onTerminal event] ?_ (by simp) rfl
    simp [closeCompleted, enqueue, call, complete]
  all_goals
    refine silent_of_news [.onRateLimitReached label none, .onTerminal event, .onFirstEvent none]
      ?_ (by simp) rfl
    simp [error, call, complete]

/-- The step told the owner of a completion, last but for `onTerminal`, with
calls that the frames or the last event finalized. -/
structure Completes (s s' : State) : Prop where
  completed : s'.completed = true
  callbacks : ∃ news event ids,
    s'.callbacks = s.callbacks ++ (news ++ [.onComplete event ids, .onTerminal event]) ∧
    (∀ event ids, Callback.onComplete event ids ∉ news) ∧
    (event.type? = some "response.completed" ∨ event.type? = some "response.done") ∧
    ∀ id ∈ ids, Supplies (finalizedItems s'.frames ++ outputItems event) id

theorem collectsFinalized_enqueueFrame {s : State} (h : CollectsFinalized s) (text : String)
    (event : Json) : CollectsFinalized (s.enqueueFrame text event) := by
  intro id hid
  have hid' : id ∈ recordFinalizedFunctionCall event s.finalizedFunctionCallIds := by
    revert hid
    unfold enqueueFrame firstEvent
    dsimp only
    split <;> exact fun h => h
  rw [frames_enqueueFrame, finalizedItems, List.filterMap_append, supplies_append]
  exact (mem_recordFinalizedFunctionCall hid').imp_left (h id)

theorem recordFrame_callbacks {s s' : State} {event : Json} (h : s.recordFrame event = some s') :
    s'.callbacks = s.callbacks ∧ s'.finalizedFunctionCallIds = s.finalizedFunctionCallIds := by
  revert h
  unfold recordFrame
  dsimp only
  split
  · simp
  · split
    · simp
    · split <;> rintro ⟨rfl⟩ <;> split <;> exact ⟨rfl, rfl⟩

theorem enqueueFrame_callbacks (s : State) (text : String) (event : Json) :
    ∃ news, (s.enqueueFrame text event).callbacks = s.callbacks ++ news ∧
      ∀ event ids, Callback.onComplete event ids ∉ news := by
  unfold enqueueFrame firstEvent
  dsimp only
  split
  · exact ⟨[], by simp [enqueue], by simp⟩
  · exact ⟨[.onFirstEvent none], by simp [enqueue, call], by simp⟩

theorem forward_reports {s : State} (h : CollectsFinalized s) (text : String) (event : Json) :
    ((∃ news, (s.forward text event).callbacks = s.callbacks ++ news ∧
        ∀ event ids, Callback.onComplete event ids ∉ news) ∧
      CollectsFinalized (s.forward text event)) ∨
    Completes s (s.forward text event) := by
  have hcollects := collectsFinalized_enqueueFrame h text event
  obtain ⟨news, hnews, hnone⟩ := enqueueFrame_callbacks s text event
  unfold forward
  dsimp only
  split
  · exact .inl ⟨⟨news, hnews, hnone⟩, hcollects⟩
  case _ s' hs' =>
    obtain ⟨hcallbacks, hfinalized⟩ := recordFrame_callbacks hs'
    have hframes : s'.frames = (s.enqueueFrame text event).frames := frames_recordFrame hs'
    have hcollects' : CollectsFinalized s' := by
      intro id hid
      rw [hframes]
      exact hcollects id (hfinalized ▸ hid)
    have hnews' : s'.callbacks = s.callbacks ++ news := by rw [hcallbacks, hnews]
    unfold settle
    split
    case isTrue hdone =>
      right
      refine ⟨rfl, news, event, collectFinalizedFromResponse event s'.finalizedFunctionCallIds,
        ?_, hnone, hdone, ?_⟩
      · simp [closeCompleted, enqueue, call, complete, hnews']
      · intro id hid
        have hcollected : Supplies (finalizedItems s'.frames) id ∨
            Supplies (outputItems event) id :=
          (mem_collectFinalizedFromResponse hid).imp_left (hcollects' id)
        rw [supplies_append]
        simp only [frames_closeCompleted, frames_call]
        exact hcollected
    case isFalse =>
      left
      split
      · refine ⟨⟨news ++ [.onTerminal event], ?_, by simp [hnone]⟩, ?_⟩
        · simp [closeCompleted, enqueue, call, complete, hnews']
        · intro id hid
          simpa [frames_closeCompleted] using hcollects' id hid
      · exact ⟨⟨news, hnews', hnone⟩, hcollects'⟩

theorem collectsFinalized_of_silent {s s' : State} (h : CollectsFinalized s) (hsilent : Silent s s')
    (hframes : s'.frames = s.frames) :
    (∃ news, s'.callbacks = s.callbacks ++ news ∧ ∀ event ids, Callback.onComplete event ids ∉ news) ∧
      CollectsFinalized s' := by
  refine ⟨hsilent.callbacks, fun id hid => ?_⟩
  rw [hframes]
  exact h id (hsilent.finalized ▸ hid)

end State

theorem onEvent_silent (o : Options) (s : State) (at_ : Rat) (text : String) (event : Json) :
    Silent s (onEvent o at_ text event s) ∨ onEvent o at_ text event s = s.forward text event := by
  unfold onEvent
  split
  · exact .inl (State.silent_of_news [.onQuota event] rfl (by simp) rfl)
  · split
    · exact .inl (State.silent_refuseAdmission s _ _)
    · split
      · exact .inl (State.silent_invalidateTransport s _)
      · exact .inl (State.silent_attach _ s)
      · split
        · exact .inl (State.silent_failWrapped s _ _)
        · split
          · exact .inl (State.silent_failRateLimited s _ _)
          · exact .inr rfl

theorem receive_silent (o : Options) (s : State) (e : SocketEvent) :
    Silent s (receive o s e) ∨ ∃ text event, receive o s e = s.forward text event := by
  rcases e with ⟨data, at_⟩ | message | ⟨code, reason⟩ | _
  case message =>
    simp only [receive, onMessage]
    split
    · exact .inl (State.silent_refl s)
    · split
      · exact .inl (State.silent_invalidateTransport s _)
      · split
        · exact .inl (State.silent_firstEvent s _)
        · exact (onEvent_silent o s at_ _ _).imp_right fun h => ⟨_, _, h⟩
  case error => exact .inl (State.silent_invalidateTransport s _)
  case close =>
    simp only [receive, onClose]
    split
    · exact .inl (State.silent_refl s)
    · exact .inl (State.silent_invalidateTransport s _)
  case idleTimeout => exact .inl (State.silent_invalidateTransport s _)

/-- One step of a stream reports no completion and collects what its frames
finalized, or it reports the one completion there is. -/
theorem receive_reports (o : Options) {s : State} (h : CollectsFinalized s) (e : SocketEvent) :
    ((∃ news, (receive o s e).callbacks = s.callbacks ++ news ∧
        ∀ event ids, Callback.onComplete event ids ∉ news) ∧
      CollectsFinalized (receive o s e)) ∨
    State.Completes s (receive o s e) := by
  rcases receive_silent o s e with hsilent | ⟨text, event, heq⟩
  · rcases frames_receive o s e with hframes | ⟨text, event, hfwd, -⟩
    · exact .inl (State.collectsFinalized_of_silent h hsilent hframes)
    · rw [receive_of_forwards hfwd]
      exact State.forward_reports h text event
  · rw [heq]
    exact State.forward_reports h text event

/-- The callback makes the owner drop what it may chain to. -/
def Callback.drops : Callback → Bool
  | .onConnectionInvalid _ => true
  | .onTerminal event =>
      event.type? ≠ some "response.completed" && event.type? ≠ some "response.done"
  | _ => false

/-- The stream ended without a completion, and its owner drops the chain. -/
structure Drops (s s' : State) : Prop where
  completed : s'.completed = true
  callbacks : ∃ news, s'.callbacks = s.callbacks ++ news ∧
    (∀ event ids, Callback.onComplete event ids ∉ news) ∧ ∃ c ∈ news, c.drops = true

section

variable {s : State}

theorem drops_invalidateTransport (hopen : s.ending ≠ some .closed) (error : ResponseStreamError)
    (hclosed : (s.invalidateTransport error).ending = some .closed) :
    Drops s (s.invalidateTransport error) := by
  unfold State.invalidateTransport State.invalidate State.fail at *
  split at hclosed
  case h_1 =>
    split at hclosed
    case isTrue => exact absurd hclosed hopen
    case isFalse hrunning =>
      rw [if_neg hrunning]
      exact ⟨rfl, [.onConnectionInvalid error], rfl, by simp, by simp [Callback.drops]⟩
  all_goals
    split at hclosed
    case isTrue => exact absurd hclosed hopen
    case isFalse => cases hclosed

theorem drops_failWrapped (o : Options) {text : String} {wrapped : WrappedError} {event : Json}
    (hwrapped : parseWrappedError o.js event text = some wrapped)
    (hclosed : (s.failWrapped wrapped event).ending = some .closed) :
    Drops s (s.failWrapped wrapped event) := by
  have htype : event.type? = some "error" := by
    unfold parseWrappedError at hwrapped
    split at hwrapped
    case isTrue htype => exact htype
    case isFalse => cases hwrapped
  obtain ⟨⟨news, hnews, hnone⟩, -⟩ := State.silent_firstEvent s (some wrapped)
  unfold State.failWrapped at *
  dsimp only at *
  split at hclosed
  case h_3 =>
    refine ⟨rfl, news ++ [.onTerminal event], ?_, by simp [hnone], .onTerminal event, by simp,
      by simp [Callback.drops, htype]⟩
    rw [← List.append_assoc, ← hnews]
    rfl
  all_goals cases hclosed

theorem drops_failRateLimited {label : String} {event : Json}
    (hlabel : rateLimitReachedType event = some label) :
    (s.failRateLimited label event).ending = some .closed →
    Drops s (s.failRateLimited label event) := by
  have htype : event.type? = some "response.failed" := by
    unfold rateLimitReachedType at hlabel
    split at hlabel
    case isTrue htype => exact htype
    case isFalse => cases hlabel
  unfold State.failRateLimited
  dsimp only
  intro hclosed
  split at hclosed
  case h_3 =>
    refine ⟨rfl, [.onRateLimitReached label none, .onTerminal event], ?_, by simp,
      .onTerminal event, by simp, by simp [Callback.drops, htype]⟩
    simp [State.closeWithSyntheticCompletion, State.closeCompleted, State.enqueue, State.call,
      State.complete]
  case h_4 =>
    refine ⟨rfl, [.onRateLimitReached label none, .onTerminal event], ?_, by simp,
      .onTerminal event, by simp, by simp [Callback.drops, htype]⟩
    simp [State.closeCompleted, State.enqueue, State.call, State.complete]
  all_goals cases hclosed

theorem ending_recordFrame {s' : State} {event : Json} (h : s.recordFrame event = some s') :
    s'.ending = s.ending := by
  revert h
  unfold State.recordFrame
  dsimp only
  split
  · simp
  · split
    · simp
    · split <;> rintro ⟨rfl⟩ <;> split <;> rfl

theorem ending_enqueueFrame (text : String) (event : Json) :
    (s.enqueueFrame text event).ending = s.ending := by
  unfold State.enqueueFrame State.firstEvent
  dsimp only
  split <;> rfl

theorem forward_closes (h : CollectsFinalized s) (hopen : s.ending ≠ some .closed) (text : String)
    (event : Json) (hclosed : (s.forward text event).ending = some .closed) :
    Drops s (s.forward text event) ∨ State.Completes s (s.forward text event) := by
  rcases State.forward_reports h text event with ⟨⟨news, hnews, hnone⟩, -⟩ | hcompletes
  case inr => exact .inr hcompletes
  left
  have hcallbacks := State.enqueueFrame_callbacks s text event
  unfold State.forward at *
  dsimp only at *
  split at hclosed
  case h_1 hrecord =>
    rw [ending_enqueueFrame] at hclosed
    exact absurd hclosed hopen
  case h_2 s' hrecord =>
    simp only [hrecord] at hnews ⊢
    obtain ⟨first, hfirst, -⟩ := hcallbacks
    have hsame : s'.callbacks = s.callbacks ++ first := by
      rw [(State.recordFrame_callbacks hrecord).1, hfirst]
    unfold State.settle at *
    split at hclosed
    case isTrue hdone =>
      -- a completion was reported
      rw [if_pos hdone] at hnews
      have hmem : Callback.onComplete event
          (collectFinalizedFromResponse event s'.finalizedFunctionCallIds) ∈ news := by
        have happend : s.callbacks ++ news = s.callbacks ++ (first ++
            [.onComplete event (collectFinalizedFromResponse event s'.finalizedFunctionCallIds),
              .onTerminal event]) := by
          rw [← hnews]
          simp [State.closeCompleted, State.enqueue, State.call, State.complete, hsame]
        rw [List.append_cancel_left happend]
        simp
      exact absurd hmem (hnone _ _)
    case isFalse hdone =>
      rw [if_neg hdone] at hnews ⊢
      split at hclosed
      case isTrue hterminal =>
        rw [if_pos hterminal] at hnews ⊢
        have hlast : s.callbacks ++ news = s.callbacks ++ (first ++ [.onTerminal event]) := by
          rw [← hnews]
          simp [State.closeCompleted, State.enqueue, State.call, State.complete, hsame]
        refine ⟨rfl, news, hnews, hnone, .onTerminal event, ?_, ?_⟩
        · rw [List.append_cancel_left hlast]
          simp
        · simpa [Callback.drops, not_or] using hdone
      case isFalse =>
        rw [ending_recordFrame hrecord, ending_enqueueFrame] at hclosed
        exact absurd hclosed hopen

/-- A socket that cannot send errors the body. -/
theorem ending_attach (hopen : s.ending ≠ some .closed) (next : Replacement) :
    (s.attach next).ending ≠ some .closed := by
  unfold State.attach
  split
  · exact hopen
  · split
    · exact hopen
    · unfold State.invalidate State.fail
      split
      · exact hopen
      · intro hclosed
        cases hclosed

/-- A body that is closed was completed, or its owner drops the chain. -/
theorem receive_closes (o : Options) (h : CollectsFinalized s) (hopen : s.ending ≠ some .closed)
    (e : SocketEvent) (hclosed : (receive o s e).ending = some .closed) :
    Drops s (receive o s e) ∨ State.Completes s (receive o s e) := by
  rcases e with ⟨data, at_⟩ | message | ⟨code, reason⟩ | _
  case message =>
    simp only [receive, onMessage] at hclosed ⊢
    split at hclosed
    case isTrue => exact absurd hclosed hopen
    case isFalse hrunning =>
      rw [if_neg hrunning]
      rcases data with text | _
      case binary => exact .inl (drops_invalidateTransport hopen _ hclosed)
      case text =>
        dsimp only at hclosed ⊢
        rcases hevent : eventOf o.js text with _ | event
        · simp only [hevent, State.firstEvent] at hclosed
          split at hclosed <;> exact absurd hclosed hopen
        · simp only [hevent] at hclosed ⊢
          unfold onEvent at hclosed ⊢
          split at hclosed
          case isTrue => exact absurd hclosed hopen
          case isFalse hquota =>
            rw [if_neg hquota]
            rcases hadmission : admissionRateLimit o s at_ event with _ | signal
            case some =>
              simp only [hadmission] at hclosed
              cases hclosed
            simp only [hadmission] at hclosed ⊢
            rcases hretry : retryableTerminal o event with message | _ | next
            case error =>
              simp only [hretry] at hclosed ⊢
              exact .inl (drops_invalidateTransport hopen _ hclosed)
            case ok.some =>
              simp only [hretry] at hclosed
              exact absurd hclosed (ending_attach hopen next)
            simp only [hretry] at hclosed ⊢
            rcases hwrapped : parseWrappedError o.js event text with _ | wrapped
            case some =>
              simp only [hwrapped] at hclosed ⊢
              exact .inl (drops_failWrapped o hwrapped hclosed)
            simp only [hwrapped] at hclosed ⊢
            rcases hlabel : rateLimitReachedType event with _ | label
            case some =>
              simp only [hlabel] at hclosed ⊢
              exact .inl (drops_failRateLimited hlabel hclosed)
            simp only [hlabel] at hclosed ⊢
            exact forward_closes h hopen text event hclosed
  case error => exact .inl (drops_invalidateTransport hopen _ hclosed)
  case close =>
    simp only [receive, onClose] at hclosed ⊢
    split at hclosed
    case isTrue => exact absurd hclosed hopen
    case isFalse hrunning =>
      rw [if_neg hrunning]
      exact .inl (drops_invalidateTransport hopen _ hclosed)
  case idleTimeout => exact .inl (drops_invalidateTransport hopen _ hclosed)

end

/-! ## The invariant of an entry -/

/-- The calls of the saved input, and the finalized ones, are in the server's
context of the response the continuation names. -/
structure Continuation.Known (prior : Continuation) (contexts : String → List Json) : Prop where
  calls : ∀ id, Supplies prior.input id → Supplies (contexts prior.responseID) id
  finalized : ∀ id ∈ prior.finalizedCallIds, Supplies (contexts prior.responseID) id

/-- A request that carries a body: nothing in it is orphaned, its response's
context will hold the calls of the whole input, and what the response would
inherit is in the context it names. -/
structure Carries (w : Entry) (body request : Members) : Prop where
  answered : Answered { request, context := contextOf w.contexts request }
  covers : ∀ id, Supplies (Body.input body) id →
    Supplies (contextOf w.contexts request ++ Body.input request) id
  inherits : (Body.previousResponseID? request).isSome → (Body.input? body).isSome →
    ∀ prior, w.continuation = some prior →
      ∀ id ∈ prior.finalizedCallIds, Supplies (contextOf w.contexts request) id

/-- A body is sent in full over a chain that is kept, and names a response of
its own. -/
def strays (continuation : Option Continuation) (body : Members) : Bool :=
  match continuation, Body.previousResponseID? body with
  | some prior, some id =>
      id ≠ prior.responseID && (Body.input? body).isSome &&
        withContinuation (some prior) body = (body, some prior)
  | _, _ => false

/-- What holds of the request in flight. -/
def PhaseSound (w : Entry) : Prop :=
  match w.phase with
  | .idle => True
  | .connecting body | .prewarmed body => WellFormed (Body.input body)
  | .prewarmComposed body request => WellFormed (Body.input body) ∧ request = prewarmBody body
  | .prewarming body request stream =>
      WellFormed (Body.input body) ∧ request = prewarmBody body ∧ CollectsFinalized stream
  | .composed body request => Carries w body request
  | .streaming body request stream => Carries w body request ∧ CollectsFinalized stream

structure EntrySound (w : Entry) : Prop where
  continuation : ∀ prior, w.continuation = some prior → prior.Known w.contexts
  phase : PhaseSound w
  sent : ∀ s ∈ w.sent, Answered s

@[simp] theorem input_prewarmBody (body : Members) : Body.input? (prewarmBody body) = some [] := by
  have hlookup : (prewarmBody body).lookup "input" = some (.arr []) := by
    unfold prewarmBody
    rw [Members.lookup_erase_of_ne (by decide)]
    exact Members.lookup_set_self _ _ _
  simp [Body.input?, hlookup, Json.array?]

@[simp] theorem previousResponseID_prewarmBody (body : Members) :
    Body.previousResponseID? (prewarmBody body) = none := by
  simp [Body.previousResponseID?, prewarmBody]

/-- An input sent in full answers its outputs. -/
theorem answered_full {body : Members} (hwf : WellFormed (Body.input body)) (context : List Json) :
    Answered { request := body, context } := by
  intro id _ before output after hsplit hout
  exact (hwf before output after hsplit hout).mono fun _ h => .inl h

theorem carries_full {w : Entry} {body : Members} (hwf : WellFormed (Body.input body))
    (hinherits : (Body.previousResponseID? body).isSome → (Body.input? body).isSome →
      ∀ prior, w.continuation = some prior →
        ∀ id ∈ prior.finalizedCallIds, Supplies (contextOf w.contexts body) id) :
    Carries w body body := by
  constructor
  · exact answered_full hwf _
  · intro id hid
    exact supplies_append.mpr (.inr hid)
  · exact hinherits

/-- The prefix that is left out of the sent input is the saved one. -/
theorem supplies_take {prior : Continuation} {body : Members} {id : String}
    (hextends : hasContinuationPrefix prior body = true) :
    Supplies ((Body.input body).take prior.input.length) id → Supplies prior.input id := by
  intro h
  simp only [hasContinuationPrefix, Bool.and_eq_true, List.isPrefixOf_iff_prefix] at hextends
  have hsame : prior.input.map Json.stable =
      ((Body.input body).take prior.input.length).map Json.stable := by
    have := List.prefix_iff_eq_take.mp hextends.2
    rw [List.length_map] at this
    rw [this, List.map_take]
  rw [← supplies_map_stable, hsame, supplies_map_stable]
  exact h

theorem answered_trimmed {prior : Continuation} {body : Members} {contexts : String → List Json}
    (hknown : prior.Known contexts) (hextends : hasContinuationPrefix prior body = true)
    (hwf : WellFormed (Body.input body)) {before after : List Json} {output : Json}
    (hsplit : continuationInput ((Body.input body).drop prior.input.length) prior.finalizedCallIds =
      before ++ output :: after)
    (hout : isCallOutput output = true) :
    AnsweredBy output fun id =>
      Supplies before id ∨ Supplies (contexts prior.responseID) id := by
  -- the items of the whole input that come before the output
  obtain ⟨suffix, rest, hdrop, hbefore, hrest⟩ := List.filter_eq_append_iff.mp hsplit
  obtain ⟨skipped, tail, hrest', hskipped, -, -⟩ := List.filter_eq_cons_iff.mp hrest
  have hinput : Body.input body =
      ((Body.input body).take prior.input.length ++ (suffix ++ skipped)) ++ output :: tail := by
    rw [List.append_assoc, List.append_assoc, ← hrest', ← hdrop, List.take_append_drop]
  have hkept : continuationInput (suffix ++ skipped) prior.finalizedCallIds = before := by
    unfold continuationInput
    rw [List.filter_append, hbefore, List.filter_eq_nil_iff.mpr hskipped, List.append_nil]
  refine (hwf _ output tail hinput hout).mono fun id hid => ?_
  rcases supplies_append.mp hid with htaken | hsuffix
  · exact .inr (hknown.calls id (supplies_take hextends htaken))
  · rcases supplies_continuationInput hsuffix with h | h
    · exact .inl (hkept ▸ h)
    · exact .inr (hknown.finalized id h)

theorem covers_trimmed {prior : Continuation} {body : Members} {contexts : String → List Json}
    (hknown : prior.Known contexts) (hextends : hasContinuationPrefix prior body = true)
    {id : String} (h : Supplies (Body.input body) id) :
    Supplies (contexts prior.responseID) id ∨
      Supplies (continuationInput ((Body.input body).drop prior.input.length)
        prior.finalizedCallIds) id := by
  rw [← List.take_append_drop prior.input.length (Body.input body), supplies_append] at h
  rcases h with htaken | hsuffix
  · exact .inl (hknown.calls id (supplies_take hextends htaken))
  · rcases supplies_continuationInput hsuffix with h | h
    · exact .inr h
    · exact .inl (hknown.finalized id h)

/-! ## Steps -/

theorem entrySound_invalidate {w : Entry} (h : EntrySound w) : EntrySound w.invalidate := by
  constructor
  · intro prior hprior
    cases hprior
  · have hcarries : ∀ {body request}, Carries w body request → Carries w.invalidate body request :=
      fun hc => ⟨hc.answered, hc.covers, fun _ _ prior hprior => by cases hprior⟩
    have hphase := h.phase
    unfold PhaseSound at *
    have hsame : w.invalidate.phase = w.phase := rfl
    rw [hsame]
    rcases hp : w.phase <;> simp only [hp] at hphase ⊢
    case composed => exact hcarries hphase
    case streaming => exact ⟨hcarries hphase.1, hphase.2⟩
    all_goals exact hphase
  · exact h.sent

theorem entrySound_caught {w : Entry} (h : EntrySound w) : EntrySound w.caught :=
  ⟨(fun _ hprior => by cases hprior), trivial, h.sent⟩

/-- A send changes nothing but the log of what was sent. -/
theorem entrySound_send {w : Entry} (h : EntrySound w) {request : Members}
    (hanswered : Answered { request, context := contextOf w.contexts request }) :
    EntrySound (w.send request) := by
  constructor
  · exact h.continuation
  · have hcarries : ∀ {body other}, Carries w body other → Carries (w.send request) body other :=
      fun hc => ⟨hc.answered, hc.covers, hc.inherits⟩
    have hphase := h.phase
    unfold PhaseSound at *
    have hsame : (w.send request).phase = w.phase := rfl
    rw [hsame]
    rcases hp : w.phase <;> simp only [hp] at hphase ⊢
    case composed => exact hcarries hphase
    case streaming => exact ⟨hcarries hphase.1, hphase.2⟩
    all_goals exact hphase
  · exact List.forall_mem_cons.mpr ⟨hanswered, h.sent⟩

/-- The composed request carries its body. -/
theorem carries_compose {w : Entry} (h : ∀ prior, w.continuation = some prior →
      prior.Known w.contexts) {body : Members} (hwf : WellFormed (Body.input body))
    (hstays : strays w.continuation body = false) :
    Carries { w with continuation := (withContinuation w.continuation body).2 } body
      (withContinuation w.continuation body).1 := by
  -- sent in full: the chain was dropped, is the named one, or leaves nothing to inherit
  have hfull : ∀ continuation, withContinuation w.continuation body = (body, continuation) →
      (continuation = w.continuation ∨ continuation = none) →
      Carries { w with continuation } body body := by
    intro continuation hwith hcases
    refine carries_full hwf fun hnames hinput prior hprior id hid => ?_
    have hprior' : continuation = some prior := hprior
    rcases hcases with rfl | rfl
    · obtain ⟨named, hnamed⟩ := Option.isSome_iff_exists.mp hnames
      have hsame : named = prior.responseID := by
        by_contra hne
        rw [hprior'] at hwith hstays
        simp [strays, hnamed, hne, hinput, hwith] at hstays
      have hcontext : contextOf w.contexts body = w.contexts prior.responseID := by
        simp [contextOf, hnamed, hsame]
      show Supplies (contextOf w.contexts body) id
      rw [hcontext]
      exact (h prior hprior').finalized id hid
    · cases hprior'
  rcases hinput : Body.input? body with _ | input
  · have hwith : withContinuation w.continuation body = (body, w.continuation) := by
      simp [withContinuation, hinput]
    rw [hwith]
    exact hfull _ hwith (.inl rfl)
  have hbody : Body.input body = input := by simp [Body.input, hinput]
  rcases hcont : w.continuation with _ | prior
  · have hwith : withContinuation w.continuation body = (body, none) := by
      simp [withContinuation, hinput, hcont]
    rw [← hcont, hwith]
    exact hfull _ hwith (.inr rfl)
  have hknown := h prior hcont
  rw [← hcont]
  by_cases hsign : prior.signature ≠ bodySignature body
  · have hwith : withContinuation w.continuation body = (body, none) := by
      simp [withContinuation, hinput, hcont, hsign]
    rw [hwith]
    exact hfull _ hwith (.inr rfl)
  by_cases hextends : hasContinuationPrefix prior body = true
  case neg =>
    have hwith : withContinuation w.continuation body = (body, none) := by
      simp [withContinuation, hinput, hcont, hsign, hextends]
    rw [hwith]
    exact hfull _ hwith (.inr rfl)
  by_cases hempty : prior.input = []
  · -- after a prewarm the whole input is sent under its response
    have hwith : withContinuation w.continuation body =
        (body.set "previous_response_id" (.str prior.responseID), w.continuation) := by
      simp [withContinuation, hinput, hcont, hsign, hextends, hempty]
    have hnames : Body.previousResponseID? (body.set "previous_response_id" (.str prior.responseID)) =
        some prior.responseID := by
      simp [Body.previousResponseID?, Json.string?]
    have hsame : Body.input (body.set "previous_response_id" (.str prior.responseID)) =
        Body.input body := by
      simp only [Body.input, Body.input?]
      rw [Members.lookup_set_of_ne (by decide)]
    rw [hwith]
    constructor
    · intro id _ before output after hsplit hout
      have hsplit' : Body.input body = before ++ output :: after := hsame ▸ hsplit
      exact (hwf before output after hsplit' hout).mono fun _ h => .inl h
    · intro id hid
      exact supplies_append.mpr (.inr (by rw [hsame]; exact hid))
    · intro _ _ prior' hprior' id hid
      obtain rfl : prior = prior' := Option.some.inj (hcont ▸ hprior')
      simpa [contextOf, hnames] using hknown.finalized id hid
  set nextInput := continuationInput (input.drop prior.input.length) prior.finalizedCallIds
    with hnext
  by_cases hnil : nextInput = []
  · have hwith : withContinuation w.continuation body = (body, w.continuation) := by
      simp [withContinuation, hinput, hcont, hsign, hextends, hempty, ← hnext, hnil]
    rw [hwith]
    exact hfull _ hwith (.inl rfl)
  · -- chained: only the suffix is sent
    have hwith : withContinuation w.continuation body =
        ((body.set "previous_response_id" (.str prior.responseID)).set "input" (.arr nextInput),
          w.continuation) := by
      simp [withContinuation, hinput, hcont, hsign, hextends, hempty, ← hnext, hnil]
    have hnames : Body.previousResponseID?
        ((body.set "previous_response_id" (.str prior.responseID)).set "input" (.arr nextInput)) =
          some prior.responseID := by
      simp only [Body.previousResponseID?]
      rw [Members.lookup_set_of_ne (by decide), Members.lookup_set_self]
      rfl
    have hsent : Body.input
        ((body.set "previous_response_id" (.str prior.responseID)).set "input" (.arr nextInput)) =
          nextInput := by
      simp [Body.input, Body.input?, Json.array?]
    rw [hwith]
    constructor
    · intro id hid before output after hsplit hout
      have hsplit' : nextInput = before ++ output :: after := hsent ▸ hsplit
      have hanswered := answered_trimmed hknown hextends hwf
        (by rw [hbody, ← hnext]; exact hsplit') hout
      simpa [contextOf, hnames] using hanswered
    · intro id hid
      have hcovers := covers_trimmed hknown hextends hid
      rw [hbody, ← hnext] at hcovers
      rw [supplies_append, hsent]
      simpa [contextOf, hnames] using hcovers
    · intro _ _ prior' hprior' id hid
      obtain rfl : prior = prior' := Option.some.inj (hcont ▸ hprior')
      simpa [contextOf, hnames] using hknown.finalized id hid

theorem withContinuation_kept (continuation : Option Continuation) (body : Members) :
    (withContinuation continuation body).2 = continuation ∨
      (withContinuation continuation body).2 = none := by
  unfold withContinuation
  split
  · split
    · exact .inr rfl
    · split
      · exact .inr rfl
      · split
        · exact .inl rfl
        · dsimp only
          split
          · exact .inl rfl
          · exact .inl rfl
  · exact .inl rfl

theorem entrySound_compose {w : Entry} (h : EntrySound w) {body : Members}
    (hwf : WellFormed (Body.input body)) (hstays : strays w.continuation body = false) :
    EntrySound (w.compose body) := by
  constructor
  · intro prior hprior
    have hprior' : (withContinuation w.continuation body).2 = some prior := hprior
    rcases withContinuation_kept w.continuation body with hkept | hkept
    · exact h.continuation prior (hkept ▸ hprior')
    · rw [hkept] at hprior'
      cases hprior'
  · have hcarries := carries_compose h.continuation hwf hstays
    exact ⟨hcarries.answered, hcarries.covers, hcarries.inherits⟩
  · exact h.sent

/-- A completed response is known to the server as what is saved of it. -/
theorem known_updateContinuation {contexts : String → List Json}
    {continuation : Option Continuation} {body request : Members} {event : Json}
    {ids : List String} {chained : Bool} {frames : List Json} {saved : Continuation}
    (hcovers : ∀ id, Supplies (Body.input body) id →
      Supplies (contextOf contexts request ++ Body.input request) id)
    (hinherits : chained = true → (Body.input? body).isSome →
      ∀ prior, continuation = some prior →
        ∀ id ∈ prior.finalizedCallIds, Supplies (contextOf contexts request) id)
    (hids : ∀ id ∈ ids, Supplies (finalizedItems frames ++ outputItems event) id)
    (h : updateContinuation continuation body event ids chained = some saved) :
    saved.Known (completeContext contexts request frames event) := by
  unfold updateContinuation at h
  rcases hresponse : responseID? event with _ | responseID
  · simp [hresponse] at h
  rcases hinput : Body.input? body with _ | input
  · simp [hresponse, hinput] at h
  simp only [hresponse, hinput] at h
  split at h
  case isTrue => cases h
  case isFalse =>
    obtain rfl := Option.some.inj h
    have hcontext : completeContext contexts request frames event responseID =
        contextOf contexts request ++ Body.input request ++
          (finalizedItems frames ++ outputItems event) := by
      simp [completeContext, hresponse, finalizedItems]
    constructor
    · intro id hid
      show Supplies (completeContext contexts request frames event responseID) id
      rw [hcontext, supplies_append]
      exact .inl (hcovers id (by simpa [Body.input, hinput] using hid))
    · intro id hid
      show Supplies (completeContext contexts request frames event responseID) id
      rw [hcontext, supplies_append]
      rcases List.mem_union_iff.mp hid with hprior | hnew
      · -- inherited from the continuation the request was chained to
        left
        rw [supplies_append]
        left
        split at hprior
        case isTrue hchained =>
          rcases hcont : continuation with _ | prior
          · simp [hcont] at hprior
          · simp only [hcont, Option.map_some, Option.getD_some] at hprior
            exact hinherits hchained (by simp [hinput]) prior hcont id hprior
        case isFalse => cases hprior
      · exact .inr (hids id hnew)

namespace Entry

theorem report_of_not_complete (body request : Members) (chained : Bool) (frames : List Json)
    (w : Entry) {c : Callback} (h : ∀ event ids, c ≠ .onComplete event ids) :
    w.report body request chained frames c = w ∨
      w.report body request chained frames c = w.invalidate := by
  cases c with
  | onComplete event ids => exact absurd rfl (h event ids)
  | onTerminal event =>
      by_cases hdone : event.type? = some "response.completed" ∨ event.type? = some "response.done"
      · exact .inl (if_pos hdone)
      · exact .inr (if_neg hdone)
  | onConnectionInvalid error => exact .inr rfl
  | _ => exact .inl rfl

theorem foldl_report (body request : Members) (chained : Bool) (frames : List Json)
    (w : Entry) {news : List Callback}
    (h : ∀ event ids, Callback.onComplete event ids ∉ news) :
    news.foldl (report body request chained frames) w = w ∨
      news.foldl (report body request chained frames) w = w.invalidate := by
  induction news generalizing w with
  | nil => exact .inl rfl
  | cons c rest ih =>
      have hrest : ∀ event ids, Callback.onComplete event ids ∉ rest :=
        fun event ids hmem => h event ids (List.mem_cons_of_mem _ hmem)
      have hc : ∀ event ids, c ≠ .onComplete event ids :=
        fun event ids heq => h event ids (by simp [heq])
      rw [List.foldl_cons]
      rcases report_of_not_complete body request chained frames w hc with heq | heq <;> rw [heq]
      · exact ih w hrest
      · exact .inr ((ih w.invalidate hrest).elim id id)

end Entry

/-- A callback that drops the chain leaves none, whatever else is told. -/
theorem Entry.foldl_report_drops (body request : Members) (chained : Bool) (frames : List Json)
    (w : Entry) {news : List Callback} (hnone : ∀ event ids, Callback.onComplete event ids ∉ news)
    (hdrops : ∃ c ∈ news, c.drops = true) :
    (news.foldl (Entry.report body request chained frames) w).continuation = none := by
  induction news generalizing w with
  | nil => simp at hdrops
  | cons c rest ih =>
      have hrest : ∀ event ids, Callback.onComplete event ids ∉ rest :=
        fun event ids hmem => hnone event ids (List.mem_cons_of_mem _ hmem)
      rw [List.foldl_cons]
      by_cases hc : c.drops = true
      · have hreport : w.report body request chained frames c = w.invalidate := by
          cases c with
          | onTerminal event =>
              have hdone : ¬(event.type? = some "response.completed" ∨
                  event.type? = some "response.done") := by
                simpa [Callback.drops, not_or] using hc
              exact if_neg hdone
          | onConnectionInvalid error => rfl
          | _ => cases hc
        rw [hreport]
        rcases Entry.foldl_report body request chained frames w.invalidate hrest with heq | heq <;>
          rw [heq] <;> rfl
      · obtain ⟨d, hd, hdrop⟩ := hdrops
        rcases List.mem_cons.mp hd with rfl | hd
        · exact absurd hdrop hc
        · exact ih _ hrest ⟨d, hd, hdrop⟩

/-- The response that a stream completed is reported last. -/
theorem reports_of_completes {w : Entry} {body request : Members} {chained : Bool}
    {stream stream' : State} (h : State.Completes stream stream') :
    ∃ w', (w' = w ∨ w' = w.invalidate) ∧
      ∃ event ids, (∀ id ∈ ids, Supplies (finalizedItems stream'.frames ++ outputItems event) id) ∧
        w.reports body request chained stream stream' =
          w'.report body request chained stream'.frames (.onComplete event ids) := by
  obtain ⟨news, event, ids, hnews, hnone, hdone, hids⟩ := h.callbacks
  -- callbacks before the completion can only drop the chain
  have hbefore := Entry.foldl_report body request chained stream'.frames w hnone
  refine ⟨_, hbefore, event, ids, hids, ?_⟩
  unfold Entry.reports
  rw [hnews, List.drop_left, List.foldl_append]
  simp only [List.foldl_cons, List.foldl_nil]
  exact if_pos hdone

/-- What a step of a stream leaves of the entry: nothing new but perhaps a
dropped chain, or the response it completed. -/
theorem reports_shape {w : Entry} {body request : Members} {chained : Bool}
    {stream stream' : State}
    (hstream : ((∃ news, stream'.callbacks = stream.callbacks ++ news ∧
        ∀ event ids, Callback.onComplete event ids ∉ news) ∧ CollectsFinalized stream') ∨
      State.Completes stream stream') :
    ((w.reports body request chained stream stream' = w ∨
        w.reports body request chained stream stream' = w.invalidate) ∧
      CollectsFinalized stream') ∨
    (stream'.completed = true ∧ ∃ w', (w' = w ∨ w' = w.invalidate) ∧
      ∃ event ids, (∀ id ∈ ids, Supplies (finalizedItems stream'.frames ++ outputItems event) id) ∧
        w.reports body request chained stream stream' =
          w'.report body request chained stream'.frames (.onComplete event ids)) := by
  rcases hstream with ⟨⟨news, hnews, hnone⟩, hcollects⟩ | hcompletes
  · left
    refine ⟨?_, hcollects⟩
    unfold Entry.reports
    rw [hnews, List.drop_left]
    exact Entry.foldl_report body request chained stream'.frames w hnone
  · exact .inr ⟨hcompletes.completed, reports_of_completes hcompletes⟩

theorem reports_cases {w : Entry} {body request : Members} {chained : Bool} {stream stream' : State}
    (hcovers : ∀ id, Supplies (Body.input body) id →
      Supplies (contextOf w.contexts request ++ Body.input request) id)
    (hinherits : chained = true → (Body.input? body).isSome →
      ∀ prior, w.continuation = some prior →
        ∀ id ∈ prior.finalizedCallIds, Supplies (contextOf w.contexts request) id)
    (hstream : ((∃ news, stream'.callbacks = stream.callbacks ++ news ∧
        ∀ event ids, Callback.onComplete event ids ∉ news) ∧ CollectsFinalized stream') ∨
      State.Completes stream stream') :
    ((w.reports body request chained stream stream' = w ∨
        w.reports body request chained stream stream' = w.invalidate) ∧
      CollectsFinalized stream') ∨
    (stream'.completed = true ∧
      (w.reports body request chained stream stream').sent = w.sent ∧
      ∀ prior, (w.reports body request chained stream stream').continuation = some prior →
        prior.Known (w.reports body request chained stream stream').contexts) := by
  rcases reports_shape hstream with
    hsilent | ⟨hcompleted, w', hw', event, ids, hids, hreports⟩
  · exact .inl hsilent
  · right
    refine ⟨hcompleted, ?_⟩
    rw [hreports]
    rcases hw' with rfl | rfl
    · exact ⟨rfl, fun prior hprior => known_updateContinuation hcovers hinherits hids hprior⟩
    · refine ⟨rfl, fun prior hprior => ?_⟩
      exact known_updateContinuation hcovers (fun _ _ _ hprior => by cases hprior) hids hprior

theorem entrySound_mainStep {w : Entry} {body request : Members} {stream stream' : State}
    (hknown : ∀ prior, w.continuation = some prior → prior.Known w.contexts)
    (hsent : ∀ s ∈ w.sent, Answered s) (hcarries : Carries w body request)
    (hstream : ((∃ news, stream'.callbacks = stream.callbacks ++ news ∧
        ∀ event ids, Callback.onComplete event ids ∉ news) ∧ CollectsFinalized stream') ∨
      State.Completes stream stream') :
    EntrySound (w.mainStep body request stream stream') := by
  unfold Entry.mainStep
  dsimp only
  rcases reports_cases hcarries.covers hcarries.inherits hstream with ⟨hsame, hcollects⟩ | ⟨hcompleted, hs, hk⟩
  · split
    · rcases hsame with heq | heq <;> rw [heq]
      · exact ⟨hknown, trivial, hsent⟩
      · exact ⟨(fun _ hprior => by cases hprior), trivial, hsent⟩
    · rcases hsame with heq | heq <;> rw [heq]
      · exact ⟨hknown, ⟨⟨hcarries.answered, hcarries.covers, hcarries.inherits⟩, hcollects⟩, hsent⟩
      · exact ⟨(fun _ hprior => by cases hprior),
          ⟨⟨hcarries.answered, hcarries.covers, (fun _ _ _ hprior => by cases hprior)⟩, hcollects⟩,
          hsent⟩
  · rw [if_pos hcompleted]
    exact ⟨hk, trivial, by rw [hs]; exact hsent⟩

theorem entrySound_prewarmStep {w : Entry} {body request : Members} {stream stream' : State}
    (hknown : ∀ prior, w.continuation = some prior → prior.Known w.contexts)
    (hsent : ∀ s ∈ w.sent, Answered s) (hwf : WellFormed (Body.input body))
    (hrequest : request = prewarmBody body)
    (hstream : ((∃ news, stream'.callbacks = stream.callbacks ++ news ∧
        ∀ event ids, Callback.onComplete event ids ∉ news) ∧ CollectsFinalized stream') ∨
      State.Completes stream stream') :
    EntrySound (w.prewarmStep body request stream stream') := by
  have hcovers : ∀ id, Supplies (Body.input request) id →
      Supplies (contextOf w.contexts request ++ Body.input request) id :=
    fun id hid => supplies_append.mpr (.inr hid)
  unfold Entry.prewarmStep
  dsimp only
  have hunchained : false = true → (Body.input? request).isSome →
      ∀ prior, w.continuation = some prior →
        ∀ id ∈ prior.finalizedCallIds, Supplies (contextOf w.contexts request) id :=
    fun hchained => by cases hchained
  rcases reports_cases hcovers hunchained hstream with
    ⟨hsame, hcollects⟩ | ⟨hcompleted, hs, hk⟩
  · have hw : ∀ w', w' = w ∨ w' = w.invalidate →
        (∀ prior, w'.continuation = some prior → prior.Known w'.contexts) ∧
          ∀ s ∈ w'.sent, Answered s := by
      rintro w' (rfl | rfl)
      · exact ⟨hknown, hsent⟩
      · exact ⟨(fun _ hprior => by cases hprior), hsent⟩
    obtain ⟨hk, hs⟩ := hw _ hsame
    split
    · split
      · exact ⟨hk, hwf, hs⟩
      · exact ⟨(fun _ hprior => by cases hprior), trivial, hs⟩
    · exact ⟨hk, ⟨hwf, hrequest, hcollects⟩, hs⟩
  · have hs' : ∀ s ∈ (w.reports request request false stream stream').sent, Answered s := by
      rw [hs]
      exact hsent
    rw [if_pos hcompleted]
    split
    · exact ⟨hk, hwf, hs'⟩
    · exact ⟨(fun _ hprior => by cases hprior), trivial, hs'⟩

/-- The step composes a request that strays from the chain it keeps. -/
def composesAstray (w : Entry) (c : Choice) : Bool :=
  match w.phase, c with
  | .connecting body, .connect true | .prewarmed body, .compose => strays w.continuation body
  | _, _ => false

theorem entrySound_connected {w : Entry} (h : EntrySound w) {body : Members}
    (hwf : WellFormed (Body.input body)) (hstays : strays w.continuation body = false) :
    EntrySound (w.connected body) := by
  unfold Entry.connected
  by_cases hprewarm : (shouldPrewarm w.continuation body && Body.input body ≠ []) = true
  · rw [if_pos hprewarm]
    exact ⟨h.continuation, ⟨hwf, rfl⟩, h.sent⟩
  · rw [if_neg hprewarm]
    exact entrySound_compose h hwf hstays

theorem start_reports (socket : Replacement) :
    ((∃ news, (start socket).callbacks = ({} : State).callbacks ++ news ∧
        ∀ event ids, Callback.onComplete event ids ∉ news) ∧ CollectsFinalized (start socket)) ∨
      State.Completes {} (start socket) := by
  have hsilent := State.silent_attach socket {}
  have hframes : (start socket).frames = ({} : State).frames := by
    rcases socket with ⟨_ | message⟩ <;> rfl
  exact .inl (State.collectsFinalized_of_silent (by simp [CollectsFinalized]) hsilent hframes)

theorem entrySound_step (js : Builtins) {w : Entry} (h : EntrySound w) (c : Choice)
    (hwf : ∀ body, c = .fetch body ∨ c = .sendHttp body → WellFormed (Body.input body))
    (hstays : composesAstray w c = false) : EntrySound (step js w c) := by
  have hphase := h.phase
  unfold PhaseSound at hphase
  rcases c with body | body | reused | _ | socket | e | _ | _ | _
  case fetch =>
    have hbody := hwf body (.inl rfl)
    rcases hp : w.phase <;> simp only [step, hp]
    case idle => exact ⟨h.continuation, wellFormed_normalizeResponseBody hbody, h.sent⟩
    all_goals exact entrySound_send h (answered_full hbody _)
  case sendHttp => exact entrySound_send h (answered_full (hwf body (.inr rfl)) _)
  case connect =>
    rcases hp : w.phase with _ | body | _ | _ | _ | _ | _ <;> simp only [step, hp]
    case connecting =>
      simp only [hp] at hphase
      rcases reused with _ | _
      · exact entrySound_connected (entrySound_invalidate h) hphase rfl
      · exact entrySound_connected h hphase (by simpa [composesAstray, hp] using hstays)
    all_goals exact h
  case connectFails =>
    rcases hp : w.phase <;> simp only [step, hp]
    case connecting => exact entrySound_caught h
    all_goals exact h
  case send =>
    rcases hp : w.phase with _ | _ | ⟨body, request⟩ | _ | _ | ⟨body, request⟩ | _ <;>
      simp only [step, hp]
    case prewarmComposed =>
      simp only [hp] at hphase
      obtain ⟨hbody, hrequest⟩ := hphase
      have hanswered : Answered { request, context := contextOf w.contexts request } := by
        intro id hid
        simp [hrequest] at hid
      split
      · exact entrySound_prewarmStep h.continuation
          (List.forall_mem_cons.mpr ⟨hanswered, h.sent⟩) hbody hrequest (start_reports socket)
      · exact entrySound_prewarmStep h.continuation h.sent hbody hrequest (start_reports socket)
    case composed =>
      simp only [hp] at hphase
      split
      · exact entrySound_mainStep h.continuation
          (List.forall_mem_cons.mpr ⟨hphase.answered, h.sent⟩)
          ⟨hphase.answered, hphase.covers, hphase.inherits⟩ (start_reports socket)
      · exact entrySound_mainStep h.continuation h.sent hphase (start_reports socket)
    all_goals exact h
  case receive =>
    rcases hp : w.phase with _ | _ | _ | ⟨body, request, stream⟩ | _ | _ | ⟨body, request, stream⟩ <;>
      simp only [step, hp]
    case prewarming =>
      simp only [hp] at hphase
      exact entrySound_prewarmStep h.continuation h.sent hphase.1 hphase.2.1
        (receive_reports _ hphase.2.2 e)
    case streaming =>
      simp only [hp] at hphase
      exact entrySound_mainStep h.continuation h.sent hphase.1 (receive_reports _ hphase.2 e)
    all_goals exact h
  case compose =>
    rcases hp : w.phase with _ | _ | _ | _ | body | _ | _ <;> simp only [step, hp]
    case prewarmed =>
      simp only [hp] at hphase
      exact entrySound_compose h hphase (by simpa [composesAstray, hp] using hstays)
    all_goals exact h
  case abort =>
    rcases hp : w.phase <;> simp only [step, hp]
    case idle => exact h
    all_goals exact entrySound_caught h
  case drop => exact entrySound_invalidate h

/-- In every run in which no request strays from a chain that is kept, each
request that names an earlier response has its outputs answered. -/
theorem sent_answered (js : Builtins) (choices : List Choice)
    (hwf : ∀ body, .fetch body ∈ choices ∨ .sendHttp body ∈ choices →
      WellFormed (Body.input body))
    (hstays : ∀ before c after, choices = before ++ c :: after →
      composesAstray (runEntry js before) c = false) :
    ∀ s ∈ (runEntry js choices).sent, Answered s := by
  have hsound : EntrySound (runEntry js choices) := by
    induction choices using List.reverseRecOn with
    | nil => exact ⟨(fun _ hprior => by cases hprior), trivial, (fun _ hs => by cases hs)⟩
    | append_singleton before c ih =>
        have hbefore : EntrySound (runEntry js before) :=
          ih (fun body hmem => hwf body (hmem.imp (List.mem_append_left _) (List.mem_append_left _)))
            fun b c' after hsplit => hstays b c' (after ++ [c]) (by simp [hsplit])
        have hstep := entrySound_step js hbefore c
          (fun body hc => hwf body (hc.imp (by simp [·]) (by simp [·]))) (hstays before c [] rfl)
        simpa [runEntry] using hstep
  exact hsound.sent

/-! ### A call, its output, and a replay in between -/

/-- `{"type":"response.completed","response":{"id":"…"}}` -/
def completedAs (id : String) : String × Json :=
  ("\x7b\"type\":\"response.completed\",\"response\":\x7b\"id\":\"" ++ id ++ "\"\x7d\x7d",
    .obj [("type", .str "response.completed"), ("response", .obj [("id", .str id)])])

/-- `{"type":"response.output_item.done","item":{"type":"function_call","call_id":"call"}}` -/
def callFinalized : String × Json :=
  ("\x7b\"type\":\"response.output_item.done\",\"item\":\x7b\"type\":\"function_call\"," ++
    "\"call_id\":\"call\"\x7d\x7d",
    .obj
      [("type", .str "response.output_item.done"),
        ("item", .obj [("type", .str "function_call"), ("call_id", .str "call")])])

def chainTexts : Builtins :=
  .ofTable [completedAs "p", completedAs "r1", completedAs "r2", callFinalized] (by decide +kernel)

def userItem : Json :=
  .obj [("type", .str "message"), ("role", .str "user")]

def assistantItem : Json :=
  .obj [("type", .str "message"), ("role", .str "assistant")]

def callItem : Json :=
  .obj [("type", .str "function_call"), ("call_id", .str "call")]

def callOutput : Json :=
  .obj [("type", .str "function_call_output"), ("call_id", .str "call")]

def bodyWith (input : List Json) : Members :=
  [("input", .arr input)]

/-- The first request of an entry: a prewarm, then a response that calls a tool. -/
def firstTurn : List Choice :=
  [.fetch (bodyWith [userItem]), .connect false, .send {}, .receive (arrives (completedAs "p")),
    .compose, .send {}, .receive (arrives callFinalized), .receive (arrives (completedAs "r1"))]

theorem wellFormed_append_singleton {input : List Json} {item : Json} (h : WellFormed input)
    (hitem : isCallOutput item = true → AnsweredBy item (Supplies input)) :
    WellFormed (input ++ [item]) := by
  intro before output after hsplit hout
  rcases List.eq_nil_or_concat after with rfl | ⟨after', last, rfl⟩
  · obtain ⟨rfl, hlast⟩ := List.append_inj' hsplit rfl
    obtain rfl : item = output := by simpa using hlast
    exact hitem hout
  · rw [List.concat_eq_append, ← List.cons_append, ← List.append_assoc] at hsplit
    exact h before output after' (List.append_inj' hsplit rfl).1 hout

theorem wellFormed_of_no_output {input : List Json}
    (h : ∀ item ∈ input, isCallOutput item = false) : WellFormed input := by
  intro before output after hsplit hout
  have hnone := h output (by simp [hsplit])
  simp [hnone] at hout

theorem wellFormed_callOutput {input : List Json} (h : ∀ item ∈ input, isCallOutput item = false)
    (hcall : callItem ∈ input) : WellFormed (input ++ [callOutput]) :=
  wellFormed_append_singleton (wellFormed_of_no_output h)
    fun _ => ⟨"call", rfl, callItem, hcall, rfl, rfl⟩

/-- No step of a run composes a request that strays. -/
def staysOnChain (js : Builtins) : Entry → List Choice → Bool
  | _, [] => true
  | w, c :: rest => !composesAstray w c && staysOnChain js (step js w c) rest

theorem composesAstray_of_staysOnChain {js : Builtins} {w : Entry} {choices : List Choice}
    (h : staysOnChain js w choices = true) {before : List Choice} {c : Choice}
    {after : List Choice} (hsplit : choices = before ++ c :: after) :
    composesAstray (before.foldl (step js) w) c = false := by
  induction before generalizing w choices with
  | nil =>
      subst hsplit
      simp only [List.nil_append, staysOnChain, Bool.and_eq_true, Bool.not_eq_true'] at h
      exact h.1
  | cons first before ih =>
      subst hsplit
      simp only [List.cons_append, staysOnChain, Bool.and_eq_true] at h
      exact ih h.2 rfl

/-- The output of the tool is sent alone, chained to the response that called it. -/
def toolTurn : List Choice :=
  firstTurn ++
    [.fetch (bodyWith [userItem, callItem, callOutput]), .connect true, .send {}]

theorem sent_answered_tool_turn :
    (∀ s ∈ (runEntry chainTexts toolTurn).sent, Answered s) ∧
    (runEntry chainTexts toolTurn).sent.head? =
      some
        { request := [("input", .arr [callOutput]), ("previous_response_id", .str "r1")]
          context := [userItem, callItem] } := by
  refine ⟨sent_answered chainTexts toolTurn ?_ ?_, by decide +kernel⟩
  · intro body hbody
    have hcases : body = bodyWith [userItem] ∨ body = bodyWith ([userItem, callItem] ++ [callOutput]) := by
      simpa [toolTurn, firstTurn] using hbody
    rcases hcases with rfl | rfl
    · have hnone : ∀ item ∈ [userItem], isCallOutput item = false := by decide +kernel
      exact wellFormed_of_no_output hnone
    · have hnone : ∀ item ∈ [userItem, callItem], isCallOutput item = false := by decide +kernel
      exact wellFormed_callOutput hnone (by simp)
  · intro before c after hsplit
    exact composesAstray_of_staysOnChain (w := {}) (by decide +kernel) hsplit

/-- Before it sends the output, the host replays its input under a response of
its own, with nothing new but what the assistant said. -/
def strayingTurn : List Choice :=
  firstTurn ++
    [.fetch (("previous_response_id", .str "x") :: bodyWith [userItem, assistantItem]),
      .connect true, .send {}, .receive (arrives (completedAs "r2")),
      .fetch (bodyWith [userItem, assistantItem, callItem, callOutput]), .connect true, .send {}]

theorem replay_orphans_output :
    (∀ body, .fetch body ∈ strayingTurn ∨ .sendHttp body ∈ strayingTurn →
      WellFormed (Body.input body)) ∧
    (runEntry chainTexts strayingTurn).sent.head? =
      some
        { request := [("input", .arr [callOutput]), ("previous_response_id", .str "r2")]
          context := [userItem, assistantItem] } ∧
    ¬∀ s ∈ (runEntry chainTexts strayingTurn).sent, Answered s := by
  have hhead : (runEntry chainTexts strayingTurn).sent.head? =
      some
        { request := [("input", .arr [callOutput]), ("previous_response_id", .str "r2")]
          context := [userItem, assistantItem] } := by
    decide +kernel
  refine ⟨?_, hhead, fun hall => ?_⟩
  · intro body hbody
    have hcases : body = bodyWith [userItem] ∨
        body = ("previous_response_id", .str "x") :: bodyWith [userItem, assistantItem] ∨
        body = bodyWith ([userItem, assistantItem, callItem] ++ [callOutput]) := by
      simpa [strayingTurn, firstTurn] using hbody
    rcases hcases with rfl | rfl | rfl
    · have hnone : ∀ item ∈ [userItem], isCallOutput item = false := by decide +kernel
      exact wellFormed_of_no_output hnone
    · have hnone : ∀ item ∈ [userItem, assistantItem], isCallOutput item = false := by
        decide +kernel
      exact wellFormed_of_no_output hnone
    · have hnone : ∀ item ∈ [userItem, assistantItem, callItem], isCallOutput item = false := by
        decide +kernel
      exact wellFormed_callOutput hnone (by simp)
  · have hanswered := hall _ (List.mem_of_mem_head? hhead)
    obtain ⟨id, hid, hsupplied⟩ := hanswered "r2" rfl [] callOutput [] rfl rfl
    rcases hsupplied with h | ⟨c, hc, hcall, -⟩
    · exact not_supplies_nil h
    · -- the context holds messages only
      have hnone : ∀ item ∈ [userItem, assistantItem], isCall item = false := by decide +kernel
      simp [hnone c hc] at hcall

end WebSocket
