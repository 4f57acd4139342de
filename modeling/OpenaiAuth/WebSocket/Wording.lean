import OpenaiAuth.WebSocket.Endings

/-! # The provider's wording after output

Which frames of type `error` reach the reader once something durable was
enqueued: exactly those that no test above the forwarding recognises.
-/

namespace WebSocket

open Js

/-- A function call finished, or something outside the allow-list was shown. -/
def Durable (frames : List Json) : Prop :=
  Finished frames ∨ Outside frames

/-- Some test above the forwarding takes an event of type `error`: a rate limit
that may still be retried, the owner's handler, or a status that is no success. -/
def Recognised (o : Options) (s : State) (at_ : Rat) (text : String) (event : Json) : Prop :=
  (∃ signal, admissionRateLimit o s at_ event = some signal) ∨
  (∃ message, retryableTerminal o event = .error message) ∨
  (∃ next, retryableTerminal o event = .ok (some next)) ∨
  (∃ wrapped, parseWrappedError o.js event text = some wrapped)

theorem passes_of_not_recognised {o : Options} {s : State} {at_ : Rat} {text : String}
    {event : Json} (herror : event.type? = some "error")
    (h : ¬Recognised o s at_ text event) : Passes o s at_ text event := by
  simp only [Recognised, not_or, not_exists] at h
  obtain ⟨hsignal, hthrows, hnext, hwrapped⟩ := h
  constructor
  · simp [herror]
  · exact Option.eq_none_iff_forall_ne_some.mpr hsignal
  · rcases hanswer : retryableTerminal o event with message | _ | next
    · exact absurd hanswer (hthrows message)
    · rfl
    · exact absurd hanswer (hnext next)
  · exact Option.eq_none_iff_forall_ne_some.mpr hwrapped
  · simp [rateLimitReachedType, herror]

theorem Passes.not_recognised {o : Options} {s : State} {at_ : Rat} {text : String}
    {event : Json} (h : Passes o s at_ text event) : ¬Recognised o s at_ text event := by
  simp [Recognised, h.admission, h.retryable, h.wrapped]

/-! ## Where a frame came from -/

theorem receive_of_forwards {o : Options} {s : State} {e : SocketEvent} {text : String}
    {event : Json} (h : Forwards o s e text event) : receive o s e = s.forward text event := by
  obtain ⟨at_, rfl, hpass⟩ := h.arrival
  simp only [receive, onMessage, h.isOpen, h.parsed, onEvent, hpass.quota, hpass.admission,
    hpass.retryable, hpass.wrapped, hpass.rateLimited]
  rfl

/-- An event adds at most one frame, the one it is forwarded as. -/
theorem frames_receive (o : Options) (s : State) (e : SocketEvent) :
    (receive o s e).frames = s.frames ∨
    ∃ text event, Forwards o s e text event ∧ (receive o s e).frames = s.frames ++ [event] := by
  by_cases hcompleted : s.completed = true
  · rw [receive_completed o hcompleted]
    exact .inl rfl
  have hopen : s.completed = false := by simpa using hcompleted
  rcases receive_cases o hopen e with hquiet | hends | ⟨next, -, heq⟩ | ⟨text, event, hfwd, heq⟩
  · left
    simp only [State.frames, hquiet.body]
  · exact .inl hends.frames
  · left
    rw [heq, State.attach]
    split
    · rfl
    · simp only [hopen, State.invalidate, State.fail]
      rfl
  · right
    exact ⟨text, event, hfwd, by rw [heq, State.frames_forward]⟩

theorem frames_run_append (o : Options) (socket : Replacement) (before after : List SocketEvent) :
    ∃ later, (run o socket (before ++ after)).frames = (run o socket before).frames ++ later := by
  induction after using List.reverseRecOn with
  | nil => exact ⟨[], by simp⟩
  | append_singleton after e ih =>
      obtain ⟨later, ih⟩ := ih
      have hstep : run o socket (before ++ (after ++ [e])) =
          receive o (run o socket (before ++ after)) e := by
        simp [run, List.foldl_append]
      rw [hstep]
      rcases frames_receive o (run o socket (before ++ after)) e with h | ⟨text, event, -, h⟩
      · exact ⟨later, by rw [h, ih]⟩
      · exact ⟨later ++ [event], by rw [h, ih, List.append_assoc]⟩

/-- Every frame was forwarded at the arrival of an event, after the frames before it. -/
theorem forwarded_at (o : Options) (socket : Replacement) (events : List SocketEvent)
    {shown later : List Json} {f : Json}
    (h : (run o socket events).frames = shown ++ f :: later) :
    ∃ before e after text, events = before ++ e :: after ∧
      Forwards o (run o socket before) e text f ∧ (run o socket before).frames = shown := by
  induction events using List.reverseRecOn generalizing later with
  | nil =>
      have hnil : (run o socket []).frames = [] := by
        unfold run
        rcases socket with ⟨_ | message⟩ <;> rfl
      simp [hnil] at h
  | append_singleton before e ih =>
      have hstep : run o socket (before ++ [e]) = receive o (run o socket before) e := by
        simp [run, List.foldl_append]
      -- the frame was there before the last event, or it is the one that event forwards
      have hearlier : ∀ later', (run o socket before).frames = shown ++ f :: later' →
          ∃ before' e' after text, before ++ [e] = before' ++ e' :: after ∧
            Forwards o (run o socket before') e' text f ∧ (run o socket before').frames = shown := by
        intro later' hl
        obtain ⟨before', e', after, text, rfl, hrest⟩ := ih hl
        exact ⟨before', e', after ++ [e], text, by simp, hrest⟩
      rw [hstep] at h
      rcases frames_receive o (run o socket before) e with hsame | ⟨text, event, hfwd, hadds⟩
      · exact hearlier later (hsame ▸ h)
      · rw [hadds] at h
        rcases List.eq_nil_or_concat later with rfl | ⟨later', last, rfl⟩
        · obtain ⟨hshown, hlast⟩ := List.append_inj' h rfl
          obtain rfl : event = f := by simpa using hlast
          exact ⟨before, e, [], text, rfl, hfwd, hshown⟩
        · rw [List.concat_eq_append, ← List.cons_append, ← List.append_assoc] at h
          exact hearlier later' (List.append_inj' h rfl).1

/-! ## Error frames after durable output -/

/-- No frame of type `error` was forwarded after durable output. -/
def NoErrorAfterOutput (frames : List Json) : Prop :=
  ∀ shown f later, frames = shown ++ f :: later → f.type? = some "error" → ¬Durable shown

/-- The reader is spared every such frame exactly when each one that arrives
at the open stream is recognised. -/
theorem noErrorAfterOutput_iff (o : Options) (socket : Replacement) (events : List SocketEvent) :
    NoErrorAfterOutput (run o socket events).frames ↔
    ∀ before at_ text after event,
      events = before ++ .message (.text text) at_ :: after →
      (run o socket before).completed = false →
      eventOf o.js text = some event → event.type? = some "error" →
      Durable (run o socket before).frames →
      Recognised o (run o socket before) at_ text event := by
  constructor
  · rintro hnone before at_ text after event rfl hopen hparsed herror hdurable
    by_contra hnot
    -- unrecognised, the frame is forwarded, and later events leave it in place
    have hfwd : Forwards o (run o socket before) (.message (.text text) at_) text event :=
      ⟨hopen, ⟨at_, rfl, passes_of_not_recognised herror hnot⟩, hparsed⟩
    have hstep : (run o socket (before ++ [.message (.text text) at_])).frames =
        (run o socket before).frames ++ [event] := by
      have : run o socket (before ++ [.message (.text text) at_]) =
          receive o (run o socket before) (.message (.text text) at_) := by
        simp [run, List.foldl_append]
      rw [this, receive_of_forwards hfwd, State.frames_forward]
    obtain ⟨later, hlater⟩ :=
      frames_run_append o socket (before ++ [.message (.text text) at_]) after
    rw [hstep, List.append_assoc, List.append_assoc] at hlater
    exact hnone _ event later (by simpa using hlater) herror hdurable
  · intro hall shown f later hsplit herror hdurable
    obtain ⟨before, e, after, text, hevents, hfwd, rfl⟩ := forwarded_at o socket events hsplit
    obtain ⟨at_, rfl, hpass⟩ := hfwd.arrival
    exact hpass.not_recognised
      (hall before at_ text after f hevents hfwd.isOpen hfwd.parsed herror hdurable)

/-- `{"type":"response.output_text.delta"}` -/
def textDelta : String × Json :=
  ("\x7b\"type\":\"response.output_text.delta\"\x7d", .obj [("type", .str "response.output_text.delta")])

/-- `{"type":"error","error":{"message":"Service Unavailable"}}` -/
def plainError : String × Json :=
  ("\x7b\"type\":\"error\",\"error\":\x7b\"message\":\"Service Unavailable\"\x7d\x7d",
    .obj [("type", .str "error"), ("error", .obj [("message", .str "Service Unavailable")])])

def plainErrorOptions : Options where
  js := .ofTable [textDelta, plainError] (by decide +kernel)

/-- An error without a status is forwarded after text, wording and all. -/
theorem error_forwarded_after_text :
    (run plainErrorOptions {} [arrives textDelta, arrives plainError]).frames =
      [textDelta.2, plainError.2] ∧
    ¬NoErrorAfterOutput (run plainErrorOptions {} [arrives textDelta, arrives plainError]).frames := by
  have hframes : (run plainErrorOptions {} [arrives textDelta, arrives plainError]).frames =
      [textDelta.2, plainError.2] := by
    decide +kernel
  refine ⟨hframes, fun hnone => ?_⟩
  have hkind : kindOf textDelta.2 = .unlisted := by decide +kernel
  have hdurable : Durable [textDelta.2] :=
    .inr ⟨[], textDelta.2, [], rfl, by simp [Allowed, hkind]⟩
  exact hnone [textDelta.2] plainError.2 [] hframes rfl hdurable

end WebSocket
