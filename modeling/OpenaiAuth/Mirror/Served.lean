import OpenaiAuth.Mirror.FrameMirror

/-! # What the server holds

The conversation that the server holds at each response id of a session, kept next to
the mirror: every send is given the response that answers it, and the frames received
until the next send are of that response. Bodies of the mirror carry exactly what is
held there.
-/

namespace Mirror

open Js

/-! ## The server -/

structure Response where
  id : String
  output : List Json
  /-- An output item is an object. -/
  objects : ∀ item ∈ output, item.isRecord = true

/-- The response that answers the last send, and the items of it announced so far. -/
structure Turn where
  response : Response
  announced : List Json := []

/-- What the server holds of a session: under each response id the conversation with the
response's output, `none` where the session's frames do not say it. -/
structure Session where
  turn : Option Turn := none
  held : List (String × Option (List Json)) := []

inductive Call
  | setEnabled (enabled : Bool)
  | send (sessionID frame : String) (response : Response)
  | receive (sessionID frame : String)
  | replay (sessionID : String)
  | forget (sessionID : String)

namespace Session

/-- The input of a full frame, or what is held at the previous response with the input of
the delta. -/
def conversation (session : Session) (body : Members) : Option (List Json) :=
  ((body.lookup "input").bind Json.array?).bind fun input =>
    let previous := body.lookup "previous_response_id"
    if truthy previous then
      ((previous.bind Json.string?).bind fun id => (session.held.lookup id).join).map (· ++ input)
    else some input

def answer (session : Session) (body : Members) (response : Response) : Session where
  turn := some { response }
  held := (response.id, (session.conversation body).map (· ++ response.output)) :: session.held

def holds (session : Session) (responseID : String) (conversation : List Json) : Prop :=
  session.held.lookup responseID = some (some conversation)

end Session

section

variable (numberText : Rat → String) (parse : String → Option Json)

/-- The item that a frame announces, if its text names the event. -/
def announced (frame : String) : Option Json :=
  if FrameMirror.named frame then
    (object parse frame).bind fun event => (FrameMirror.eventOf event).item?
  else none

/-- The body of a frame that starts a response. -/
def created (frame : String) : Option Members :=
  (object parse frame).filter fun body => body.lookup "type" = some (.str "response.create")

def sessionAfter (sessionID : String) : List Call → Session
  | [] => {}
  | .send id frame response :: earlier =>
      let session := sessionAfter sessionID earlier
      if id = sessionID then
        match created parse frame with
        | some body => session.answer body response
        | none => session
      else session
  | .receive id frame :: earlier =>
      let session := sessionAfter sessionID earlier
      if id = sessionID then
        { session with turn := session.turn.map fun turn =>
          { turn with announced := turn.announced ++ (announced parse frame).toList } }
      else session
  | _ :: earlier => sessionAfter sessionID earlier

/-- A frame of the response: it names no other, it announces the next item of the output,
and the response is completed once all of it was announced. -/
def OfTurn (turn : Turn) (frame : String) : FrameMirror.Event → Prop
  | .created responseID => responseID = turn.response.id
  | .item responseID _ =>
      (∀ id ∈ responseID, id = turn.response.id) ∧
        turn.announced ++ (announced parse frame).toList <+: turn.response.output
  | .completed responseID =>
      responseID = turn.response.id ∧ turn.announced = turn.response.output
  | .other => True

/-- How the server answers after earlier calls: a response has an id of its own, and the
frames received are of the response to the last send. -/
def Answers (earlier : List Call) : Call → Prop
  | .send sessionID frame response =>
      (created parse frame).isSome →
        response.id ∉ (sessionAfter parse sessionID earlier).held.map Prod.fst
  | .receive sessionID frame =>
      ∀ turn ∈ (sessionAfter parse sessionID earlier).turn, ∀ event ∈ object parse frame,
        OfTurn parse turn frame (FrameMirror.eventOf event)
  | _ => True

def Served (calls : List Call) : Prop :=
  ∀ later call earlier, calls = later ++ call :: earlier → Answers parse earlier call

/-! ## Runs of the mirror -/

def FrameMirror.call (mirror : FrameMirror) : Call → FrameMirror × Option FrameMirrorCapture
  | .setEnabled enabled => (mirror.setEnabled enabled, none)
  | .send sessionID frame _ => (mirror.send numberText parse sessionID frame, none)
  | .receive sessionID frame => mirror.receive numberText parse sessionID frame
  | .replay sessionID => ((mirror.replay numberText sessionID).1, none)
  | .forget sessionID => (mirror.forget sessionID, none)

/-- The mirror after calls, the latest one first. -/
def mirrorAfter (enabled : Bool) : List Call → FrameMirror
  | [] => { enabled }
  | call :: earlier => ((mirrorAfter enabled earlier).call numberText parse call).1

/-- The captures of the calls. -/
def captures (enabled : Bool) : List Call → List FrameMirrorCapture
  | [] => []
  | call :: earlier =>
      (((mirrorAfter numberText parse enabled earlier).call numberText parse call).2).toList ++
        captures enabled earlier

/-- The responses of a session that have been captured. -/
def capturedOf (enabled : Bool) (sessionID : String) (calls : List Call) : List String :=
  ((captures numberText parse enabled calls).filter fun capture => capture.sessionID = sessionID).map (·.responseID)

/-- A body whose input is the conversation. -/
def Carries (bodyText : String) (conversation : List Json) : Prop :=
  ∃ members : Members, bodyText = stringify numberText (.obj members) ∧
    members.lookup "input" = some (.arr conversation)

/-- What the mirror guarantees after calls: its counters are exact and within the caps,
every body carries the conversation the server holds at its response, and no response
is captured twice. -/
structure MirrorGuarantees (enabled : Bool) (calls : List Call) : Prop where
  counter : (mirrorAfter numberText parse enabled calls).bytes =
    (mirrorAfter numberText parse enabled calls).entries.total fun entry => entry.bytes
  exact : ∀ sessionID entry,
    (mirrorAfter numberText parse enabled calls).entries.get sessionID = some entry →
      entry.bytes = jsonBytes numberText (payload entry)
  targets : (mirrorAfter numberText parse enabled calls).entries.size ≤ maxTargets
  budget : (mirrorAfter numberText parse enabled calls).bytes ≤ maxBytes
  replayed : ∀ sessionID bodyText,
    ((mirrorAfter numberText parse enabled calls).replay numberText sessionID).2 = some bodyText →
      ∃ entry head conversation,
        (mirrorAfter numberText parse enabled calls).entries.get sessionID = some entry ∧
          entry.head = some head ∧
          (sessionAfter parse sessionID calls).holds head.responseID conversation ∧
          Carries numberText bodyText conversation
  captured : ∀ later call earlier capture, calls = later ++ call :: earlier →
    ((mirrorAfter numberText parse enabled earlier).call numberText parse call).2 = some capture →
      ∃ conversation,
        (sessionAfter parse capture.sessionID (call :: earlier)).holds capture.responseID
            conversation ∧
          Carries numberText capture.bodyText conversation
  once : ((captures numberText parse enabled calls).map fun capture =>
    (capture.sessionID, capture.responseID)).Nodup

end

/-! ## The entries follow the server -/

section

variable {numberText : Rat → String} {parse : String → Option Json} {session : Session}
  {mirror : FrameMirror} {entry : Entry} {captured : List String}

/-- A head is held at its response, and a pending send is the turn that runs, which has
not been captured. -/
structure Faithful (session : Session) (captured : List String) (entry : Entry) : Prop where
  head : ∀ head ∈ entry.head, session.holds head.responseID head.input
  pending : ∀ pending ∈ entry.pending, ∃ turn ∈ session.turn,
    pending.output = turn.announced ∧ (∀ id ∈ pending.responseID, id = turn.response.id) ∧
      session.holds turn.response.id
        ((entry.head.map (·.input)).getD [] ++ pending.input ++ turn.response.output) ∧
      turn.response.id ∉ captured

theorem Session.held_of_holds {responseID : String} {conversation : List Json}
    (h : session.holds responseID conversation) : responseID ∈ session.held.map Prod.fst := by
  obtain ⟨l, r, heq, -⟩ := List.lookup_eq_some_iff.mp h
  rw [heq]
  simp

/-- A new response leaves what is held at the others. -/
theorem Session.holds_answer {body : Members} {response : Response} {responseID : String}
    {conversation : List Json} (hnew : response.id ∉ session.held.map Prod.fst)
    (h : session.holds responseID conversation) :
    (session.answer body response).holds responseID conversation := by
  have hne : responseID ≠ response.id := fun heq => hnew (heq ▸ Session.held_of_holds h)
  have hbeq : (responseID == response.id) = false := by simpa using hne
  rw [Session.holds, Session.answer, List.lookup_cons, hbeq]
  exact h

theorem Session.holds_answer_self {body : Members} {response : Response} {conversation : List Json}
    (h : session.conversation body = some conversation) :
    (session.answer body response).holds response.id (conversation ++ response.output) := by
  rw [Session.holds, Session.answer, h, List.lookup_cons, beq_self_eq_true]
  rfl

theorem carries_body (fields : Members) (head : Head) :
    Carries numberText (FrameMirror.body numberText fields head) head.input := by
  refine ⟨(fields.set "input" (.arr head.input)).set "stream" (.bool true), rfl, ?_⟩
  rw [Members.lookup_set_of_ne (by decide), Members.lookup_set_self]

theorem faithful_sized (h : Faithful session captured entry) :
    Faithful session captured (FrameMirror.sized entry) :=
  ⟨h.head, h.pending⟩

/-- A send is kept with the turn it starts. -/
theorem faithful_sendBody {sessionID : String} {body : Members} {response : Response}
    (hnew : response.id ∉ session.held.map Prod.fst)
    (hcaptured : ∀ r ∈ captured, r ∈ session.held.map Prod.fst)
    (hprior : ∀ e, mirror.entries.get sessionID = some e → Faithful session captured e)
    (hget : (mirror.sendBody numberText sessionID body).entries.get sessionID = some entry) :
    Faithful (session.answer body response) captured entry := by
  have hfresh : response.id ∉ captured := fun hmem => hnew (hcaptured _ hmem)
  unfold FrameMirror.sendBody at hget
  cases hinput : (body.lookup "input").bind Json.array? with
  | none =>
      rw [hinput] at hget
      simp only [FrameMirror.get_forget_self] at hget
      cases hget
  | some input =>
      rw [hinput] at hget
      simp only at hget
      split_ifs at hget with hbroken hprevious
      · rw [FrameMirror.get_forget_self] at hget
        cases hget
      · -- the delta continues the head of the prior entry
        obtain ⟨-, rfl⟩ | ⟨hne, -⟩ := FrameMirror.get_keep hget
        · simp only [hprevious, Bool.true_and, decide_eq_true_eq, not_not] at hbroken
          cases hp : mirror.entries.get sessionID with
          | none =>
              rw [hp] at hbroken
              rw [hbroken] at hprevious
              cases hprevious
          | some prior =>
              cases hh : prior.head with
              | none =>
                  rw [hp, Option.bind_some, hh] at hbroken
                  rw [hbroken] at hprevious
                  cases hprevious
              | some head =>
                  rw [hp, Option.bind_some, hh] at hbroken
                  have hheld := (hprior prior hp).head head hh
                  have hconversation : session.conversation body = some (head.input ++ input) := by
                    rw [Session.conversation, hinput, Option.bind_some]
                    simp only
                    rw [if_pos hprevious, hbroken]
                    simp only [Option.map_some, Option.bind_some, Json.string?]
                    rw [hheld]
                    rfl
                  refine faithful_sized ⟨fun h hmem => ?_, fun pending hmem => ?_⟩
                  · simp only [Option.bind_some, hh, Option.mem_some_iff] at hmem
                    rw [← hmem]
                    exact Session.holds_answer hnew hheld
                  · obtain rfl := Option.some.inj hmem
                    refine ⟨{ response }, rfl, rfl, by simp, ?_, hfresh⟩
                    simp only [Option.bind_some, hh, Option.map_some, Option.getD_some]
                    exact Session.holds_answer_self hconversation
        · exact absurd rfl hne
      · obtain ⟨-, rfl⟩ | ⟨hne, -⟩ := FrameMirror.get_keep hget
        · have hconversation : session.conversation body = some input := by
            rw [Session.conversation, hinput, Option.bind_some]
            simp only
            rw [if_neg hprevious]
          refine faithful_sized ⟨by simp, ?_⟩
          rintro pending ⟨rfl⟩
          exact ⟨{ response }, rfl, rfl, by simp, Session.holds_answer_self hconversation, hfresh⟩
        · exact absurd rfl hne

/-- The turn once the items of a frame have been announced. -/
def Turn.announce (turn : Turn) (items : List Json) : Turn :=
  { turn with announced := turn.announced ++ items }

theorem faithful_other {turn : Turn} (hturn : session.turn = some turn)
    (h : Faithful session captured entry) :
    Faithful { session with turn := some (turn.announce []) } captured entry := by
  refine ⟨h.head, fun pending hp => ?_⟩
  obtain ⟨t, ht, houtput, hid, hholds, hfresh⟩ := h.pending pending hp
  obtain rfl : turn = t := Option.some.inj (hturn ▸ ht)
  exact ⟨_, rfl, by simpa [Turn.announce] using houtput, hid, hholds, hfresh⟩

variable (numberText) in
/-- What an event of the turn leaves of its entry, and what it captures. -/
theorem faithful_receiveEvent {sessionID frame : String} {pending : Pending} {turn : Turn}
    {event : FrameMirror.Event} (h : Faithful session captured entry)
    (hentry : mirror.entries.get sessionID = some entry) (hpending : entry.pending = some pending)
    (hturn : session.turn = some turn) (hof : OfTurn parse turn frame event)
    (hitem : announced parse frame = event.item?) :
    (∀ e, (mirror.receiveEvent numberText sessionID entry pending event).1.entries.get sessionID =
        some e →
      Faithful { session with turn := some (turn.announce (announced parse frame).toList) }
        (((mirror.receiveEvent numberText sessionID entry pending event).2.map
          (·.responseID)).toList ++ captured) e) ∧
      ∀ capture ∈ (mirror.receiveEvent numberText sessionID entry pending event).2,
        capture.sessionID = sessionID ∧ capture.responseID = turn.response.id ∧
          capture.responseID ∉ captured ∧
          ∃ conversation, session.holds capture.responseID conversation ∧
            Carries numberText capture.bodyText conversation := by
  obtain ⟨t, ht, houtput, hid, hholds, hfresh⟩ := h.pending pending hpending
  obtain rfl : turn = t := Option.some.inj (hturn ▸ ht)
  have hsame : ∀ e, mirror.entries.get sessionID = some e → Faithful session captured e := by
    intro e he
    rw [hentry] at he
    exact Option.some.inj he ▸ h
  rw [hitem]
  cases event with
  | created responseID =>
      refine ⟨fun e he => ?_, fun _ hmem => by cases hmem⟩
      rcases FrameMirror.get_keep he with ⟨-, rfl⟩ | ⟨hne, -⟩
      · refine faithful_sized ⟨h.head, fun p hp => ?_⟩
        obtain rfl := Option.some.inj hp
        refine ⟨_, rfl, by simpa [Turn.announce, FrameMirror.Event.item?] using houtput, ?_, hholds,
          hfresh⟩
        intro id hmem
        rw [← Option.some.inj hmem]
        exact hof
      · exact absurd rfl hne
  | item responseID item =>
      -- neither the frame nor the pending send names another response
      have haccepted : ¬((responseID.isSome && pending.responseID.isSome &&
          responseID ≠ pending.responseID) = true) := by
        intro hrefused
        cases hr : responseID with
        | none => simp [hr] at hrefused
        | some r =>
            cases hp : pending.responseID with
            | none => simp [hp] at hrefused
            | some q =>
                rw [hr, hp, hof.1 r hr, hid q hp] at hrefused
                simp at hrefused
      rw [FrameMirror.receiveEvent, if_neg haccepted]
      refine ⟨fun e he => ?_, fun _ hmem => by cases hmem⟩
      rcases FrameMirror.get_keep he with ⟨-, rfl⟩ | ⟨hne, -⟩
      · refine faithful_sized ⟨h.head, fun p hp => ?_⟩
        obtain rfl := Option.some.inj hp
        refine ⟨_, rfl, ?_, hid, hholds, hfresh⟩
        simp [Turn.announce, FrameMirror.Event.item?, houtput]
      · exact absurd rfl hne
  | completed responseID =>
      obtain ⟨hresponse, hall⟩ := hof
      rw [FrameMirror.receiveEvent]
      split_ifs with hrefused
      · exact ⟨fun e he => faithful_other hturn (hsame e he), fun _ hmem => by cases hmem⟩
      · have hhead : (FrameMirror.complete numberText entry pending responseID).input =
            (entry.head.map (·.input)).getD [] ++ pending.input ++ turn.response.output := by
          rw [FrameMirror.complete, houtput, hall]
        have hcompleted : Faithful
            { session with turn := some (turn.announce []) }
            (responseID :: captured)
            (FrameMirror.sized { entry with
              head := some (FrameMirror.complete numberText entry pending responseID)
              pending := none }) := by
          refine faithful_sized ⟨fun head hmem => ?_, by simp⟩
          rw [← Option.some.inj hmem, hhead]
          exact hresponse ▸ hholds
        have hless : ∀ {s : Session} {e : Entry}, Faithful s (responseID :: captured) e →
            Faithful s captured e := fun hf => ⟨hf.head, fun p hp => by
          obtain ⟨t, ht, ho, hi, hh, hf⟩ := hf.pending p hp
          exact ⟨t, ht, ho, hi, hh, fun hmem => hf (List.mem_cons_of_mem _ hmem)⟩⟩
        simp only
        split_ifs
        · refine ⟨fun e he => ?_, fun capture hmem => ?_⟩
          · rcases FrameMirror.get_keep he with ⟨-, rfl⟩ | ⟨hne, -⟩
            · exact hcompleted
            · exact absurd rfl hne
          · rw [← Option.some.inj hmem]
            refine ⟨rfl, hresponse, hresponse ▸ hfresh, _, ?_, carries_body ..⟩
            rw [hhead, hresponse]
            exact hholds
        · refine ⟨fun e he => ?_, fun _ hmem => by cases hmem⟩
          rcases FrameMirror.get_keep he with ⟨-, rfl⟩ | ⟨hne, -⟩
          · exact hless hcompleted
          · exact absurd rfl hne
  | other => exact ⟨fun e he => faithful_other hturn (hsame e he), fun _ hmem => by cases hmem⟩

/-! ## Every run -/

variable {enabled : Bool} {earlier calls : List Call} {call : Call}

theorem Served.tail (h : Served parse (call :: earlier)) : Served parse earlier :=
  fun later c rest hsplit => h (call :: later) c rest (by rw [hsplit, List.cons_append])

theorem Served.nil : Served parse [] := by
  intro later call earlier hsplit
  cases later <;> cases hsplit

theorem Served.cons (h : Served parse earlier) (hanswers : Answers parse earlier call) :
    Served parse (call :: earlier) := by
  intro later c rest hsplit
  cases later with
  | nil =>
      obtain ⟨rfl, rfl⟩ := List.cons.inj hsplit
      exact hanswers
  | cons d later => exact h later c rest (List.cons.inj hsplit).2

theorem Served.head (h : Served parse (call :: earlier)) : Answers parse earlier call :=
  h [] call earlier rfl

variable (numberText parse enabled) in
/-- The invariant of every run. -/
structure RunInv (calls : List Call) : Prop where
  bounded : FrameMirror.Bounded numberText (mirrorAfter numberText parse enabled calls)
  idle : (mirrorAfter numberText parse enabled calls).enabled = false → ∀ sessionID,
    (mirrorAfter numberText parse enabled calls).entries.get sessionID = none
  faithful : ∀ sessionID entry,
    (mirrorAfter numberText parse enabled calls).entries.get sessionID = some entry →
      Faithful (sessionAfter parse sessionID calls)
        (capturedOf numberText parse enabled sessionID calls) entry
  held : ∀ capture ∈ captures numberText parse enabled calls,
    capture.responseID ∈ (sessionAfter parse capture.sessionID calls).held.map Prod.fst
  once : ((captures numberText parse enabled calls).map fun capture =>
    (capture.sessionID, capture.responseID)).Nodup

theorem bounded_call (h : FrameMirror.Bounded numberText mirror) (call : Call) :
    FrameMirror.Bounded numberText (mirror.call numberText parse call).1 := by
  cases call with
  | setEnabled enabled => exact h.setEnabled enabled
  | send sessionID frame response => exact h.send sessionID frame
  | receive sessionID frame => exact h.receive sessionID frame
  | replay sessionID => exact h.replay sessionID
  | forget sessionID => exact h.forget sessionID

/-- Nothing is captured but by a frame that is received. -/
theorem captures_of_silent (h : ((mirrorAfter numberText parse enabled earlier).call numberText parse
    call).2 = none) :
    captures numberText parse enabled (call :: earlier) = captures numberText parse enabled earlier := by
  rw [captures, h, Option.toList_none, List.nil_append]

theorem mem_capturedOf {sessionID responseID : String} :
    responseID ∈ capturedOf numberText parse enabled sessionID calls ↔
      ∃ capture ∈ captures numberText parse enabled calls, capture.sessionID = sessionID ∧
        capture.responseID = responseID := by
  simp [capturedOf, and_assoc]

theorem get_sendBody {sessionID id : String} {body : Members} (hne : id ≠ sessionID)
    (h : (mirror.sendBody numberText sessionID body).entries.get id = some entry) :
    mirror.entries.get id = some entry := by
  unfold FrameMirror.sendBody at h
  split at h
  · exact FrameMirror.within_forget mirror sessionID id entry h
  · simp only at h
    split_ifs at h
    · exact FrameMirror.within_forget mirror sessionID id entry h
    all_goals
      rcases FrameMirror.get_keep h with ⟨heq, -⟩ | ⟨-, hget⟩
      · exact absurd heq hne
      · exact hget

theorem get_receiveEvent {sessionID id : String} {e : Entry} {pending : Pending}
    {event : FrameMirror.Event} (hne : id ≠ sessionID)
    (h : (mirror.receiveEvent numberText sessionID entry pending event).1.entries.get id = some e) :
    mirror.entries.get id = some e := by
  have hkeep : ∀ kept : Entry, (mirror.keep sessionID kept).1.entries.get id = some e →
      mirror.entries.get id = some e := by
    intro kept hget
    rcases FrameMirror.get_keep hget with ⟨heq, -⟩ | ⟨-, hget⟩
    · exact absurd heq hne
    · exact hget
  cases event with
  | created responseID => exact hkeep _ h
  | item responseID item =>
      rw [FrameMirror.receiveEvent] at h
      split_ifs at h
      · exact h
      · exact hkeep _ h
  | completed responseID =>
      rw [FrameMirror.receiveEvent] at h
      simp only at h
      split_ifs at h
      · exact h
      · exact hkeep _ h
      · exact hkeep _ h
  | other => exact h

theorem sendBody_enabled (sessionID : String) (body : Members) :
    (mirror.sendBody numberText sessionID body).enabled = mirror.enabled := by
  unfold FrameMirror.sendBody
  split
  · rfl
  · simp only
    split_ifs
    · rfl
    · exact FrameMirror.keep_enabled ..
    · exact FrameMirror.keep_enabled ..

theorem receiveEvent_enabled (sessionID : String) (entry : Entry) (pending : Pending)
    (event : FrameMirror.Event) :
    (mirror.receiveEvent numberText sessionID entry pending event).1.enabled = mirror.enabled := by
  cases event with
  | created responseID => exact FrameMirror.keep_enabled ..
  | item responseID item =>
      rw [FrameMirror.receiveEvent]
      split_ifs
      · rfl
      · exact FrameMirror.keep_enabled ..
  | completed responseID =>
      rw [FrameMirror.receiveEvent]
      simp only
      split_ifs
      · rfl
      · exact FrameMirror.keep_enabled ..
      · exact FrameMirror.keep_enabled ..
  | other => rfl

variable (numberText parse) in
/-- A send to an enabled mirror, and to one that is not. -/
theorem send_cases (mirror : FrameMirror) (sessionID frame : String) :
    (mirror.send numberText parse sessionID frame = mirror ∧
        (mirror.enabled = true → created parse frame = none)) ∨
      (mirror.enabled = true ∧ ∃ body, created parse frame = some body ∧
        mirror.send numberText parse sessionID frame = mirror.sendBody numberText sessionID body) := by
  unfold FrameMirror.send created
  cases henabled : mirror.enabled with
  | false => exact .inl ⟨rfl, fun h => by cases h⟩
  | true =>
      cases object parse frame with
      | none => exact .inl ⟨rfl, fun _ => rfl⟩
      | some body =>
          by_cases htype : body.lookup "type" = some (.str "response.create")
          · refine .inr ⟨rfl, body, ?_, ?_⟩
            · simp [Option.filter, htype]
            · simp [htype]
          · refine .inl ⟨?_, fun _ => ?_⟩
            · simp [htype]
            · simp [Option.filter, htype]

variable (numberText parse) in
/-- A frame that is received changes nothing and announces nothing to a pending send, or is
an event of a session with a pending send. -/
theorem receive_cases (mirror : FrameMirror) (sessionID frame : String) :
    (mirror.receive numberText parse sessionID frame = (mirror, none) ∧
        (mirror.enabled = true → ∀ entry pending, mirror.entries.get sessionID = some entry →
          entry.pending = some pending → announced parse frame = none)) ∨
      ∃ entry pending event, mirror.enabled = true ∧ FrameMirror.named frame = true ∧
        mirror.entries.get sessionID = some entry ∧ entry.pending = some pending ∧
        object parse frame = some event ∧
        mirror.receive numberText parse sessionID frame =
          mirror.receiveEvent numberText sessionID entry pending (FrameMirror.eventOf event) := by
  unfold FrameMirror.receive
  split_ifs with hclosed
  · refine .inl ⟨rfl, fun henabled entry pending _ _ => ?_⟩
    rw [henabled] at hclosed
    have hunnamed : FrameMirror.named frame = false := by simpa using hclosed
    rw [announced, if_neg (by simp [hunnamed])]
  · rw [Bool.or_eq_true, not_or, Bool.not_eq_true', Bool.not_eq_true', Bool.not_eq_false,
      Bool.not_eq_false] at hclosed
    cases hentry : mirror.entries.get sessionID with
    | none => exact .inl ⟨rfl, fun _ _ _ h => by cases h⟩
    | some entry =>
        cases hpending : entry.pending with
        | none =>
            refine .inl ⟨by simp only [hpending], fun _ e pending he hp => ?_⟩
            rw [← Option.some.inj he, hpending] at hp
            cases hp
        | some pending =>
            cases hevent : object parse frame with
            | none =>
                refine .inl ⟨by simp only [hpending], fun _ _ _ _ _ => ?_⟩
                rw [announced, hevent, Option.bind_none, ite_self]
            | some event =>
                exact .inr ⟨entry, pending, event, hclosed.1, hclosed.2, rfl, hpending, rfl,
                  by simp only [hpending]⟩

theorem capturedOf_of_silent {sessionID : String}
    (h : ((mirrorAfter numberText parse enabled earlier).call numberText parse call).2 = none) :
    capturedOf numberText parse enabled sessionID (call :: earlier) =
      capturedOf numberText parse enabled sessionID earlier := by
  rw [capturedOf, captures_of_silent h, capturedOf]

/-- A call that captures nothing and starts no response. -/
theorem RunInv.silent (h : RunInv numberText parse enabled earlier)
    (hsilent : ((mirrorAfter numberText parse enabled earlier).call numberText parse call).2 = none)
    (hsession : ∀ sessionID,
      sessionAfter parse sessionID (call :: earlier) = sessionAfter parse sessionID earlier)
    (hidle : ((mirrorAfter numberText parse enabled earlier).call numberText parse call).1.enabled =
        false →
      ∀ sessionID, ((mirrorAfter numberText parse enabled earlier).call numberText parse
        call).1.entries.get sessionID = none)
    (hwithin : FrameMirror.Within
      ((mirrorAfter numberText parse enabled earlier).call numberText parse call).1
      (mirrorAfter numberText parse enabled earlier)) :
    RunInv numberText parse enabled (call :: earlier) where
  bounded := bounded_call h.bounded call
  idle := hidle
  faithful := by
    intro sessionID entry hget
    rw [hsession, capturedOf_of_silent hsilent]
    exact h.faithful sessionID entry (hwithin sessionID entry hget)
  held := by
    intro capture hmem
    rw [captures_of_silent hsilent] at hmem
    rw [hsession]
    exact h.held capture hmem
  once := by
    rw [captures_of_silent hsilent]
    exact h.once

theorem RunInv.send (h : RunInv numberText parse enabled earlier) {sessionID frame : String}
    {response : Response} (hanswers : Answers parse earlier (.send sessionID frame response)) :
    RunInv numberText parse enabled (.send sessionID frame response :: earlier) := by
  have hsilent : ((mirrorAfter numberText parse enabled earlier).call numberText parse
      (.send sessionID frame response)).2 = none := rfl
  have hother : ∀ id, id ≠ sessionID →
      sessionAfter parse id (.send sessionID frame response :: earlier) =
        sessionAfter parse id earlier := fun id hne => if_neg fun heq => hne heq.symm
  have hself : sessionAfter parse sessionID (.send sessionID frame response :: earlier) =
      match created parse frame with
      | some body => (sessionAfter parse sessionID earlier).answer body response
      | none => sessionAfter parse sessionID earlier := if_pos rfl
  have hafter : ((mirrorAfter numberText parse enabled earlier).call numberText parse
      (.send sessionID frame response)).1 =
        (mirrorAfter numberText parse enabled earlier).send numberText parse sessionID frame := rfl
  refine ⟨bounded_call h.bounded _, ?_, ?_, ?_, ?_⟩
  · -- a mirror that is not enabled has kept nothing
    intro hdisabled id
    rcases send_cases numberText parse
      (mirrorAfter numberText parse enabled earlier) sessionID frame with
        ⟨hsame, -⟩ | ⟨henabled, body, -, hsend⟩
    · rw [mirrorAfter, hafter, hsame] at hdisabled ⊢
      exact h.idle hdisabled id
    · rw [mirrorAfter, hafter, hsend, sendBody_enabled, henabled] at hdisabled
      cases hdisabled
  · intro id entry hget
    rw [capturedOf_of_silent hsilent]
    rw [mirrorAfter, hafter] at hget
    rcases send_cases numberText parse
      (mirrorAfter numberText parse enabled earlier) sessionID frame with
        ⟨hsame, hnone⟩ | ⟨-, body, hbody, hsend⟩
    · rw [hsame] at hget
      have hopen : (mirrorAfter numberText parse enabled earlier).enabled = true := by
        by_contra hdisabled
        rw [h.idle (by simpa using hdisabled) id] at hget
        cases hget
      have hsession : sessionAfter parse id (.send sessionID frame response :: earlier) =
          sessionAfter parse id earlier := by
        by_cases hid : id = sessionID
        · rw [hid, hself, hnone hopen]
        · exact hother id hid
      rw [hsession]
      exact h.faithful id entry hget
    · rw [hsend] at hget
      by_cases hid : id = sessionID
      · rw [hid] at hget ⊢
        rw [hself, hbody]
        refine faithful_sendBody (hanswers (by rw [hbody]; rfl)) ?_
          (fun e he => h.faithful sessionID e he) hget
        intro r hr
        obtain ⟨capture, hmem, hsessionID, hresponseID⟩ := mem_capturedOf.mp hr
        exact hsessionID ▸ hresponseID ▸ h.held capture hmem
      · rw [hother id hid]
        exact h.faithful id entry (get_sendBody hid hget)
  · intro capture hmem
    rw [captures_of_silent hsilent] at hmem
    have hheld := h.held capture hmem
    by_cases hid : capture.sessionID = sessionID
    · rw [hid] at hheld ⊢
      rw [hself]
      cases created parse frame with
      | none => exact hheld
      | some body => exact List.mem_cons_of_mem _ hheld
    · rw [hother _ hid]
      exact hheld
  · rw [captures_of_silent hsilent]
    exact h.once

/-- What one capture adds to those before it. -/
theorem capturedOf_cons {capture : FrameMirrorCapture} {sessionID : String}
    (h : ((mirrorAfter numberText parse enabled earlier).call numberText parse call).2 =
      some capture) :
    capturedOf numberText parse enabled sessionID (call :: earlier) =
      (if capture.sessionID = sessionID then [capture.responseID] else []) ++
        capturedOf numberText parse enabled sessionID earlier := by
  rw [capturedOf, captures, h, Option.toList_some, List.cons_append, List.nil_append,
    List.filter_cons]
  split_ifs with h₁ h₂ h₂
  · rw [List.map_cons, capturedOf]
    rfl
  · exact absurd (by simpa using h₁) h₂
  · exact absurd (by simpa using h₂) h₁
  · rw [capturedOf]
    rfl

theorem RunInv.receive (h : RunInv numberText parse enabled earlier) {sessionID frame : String}
    (hanswers : Answers parse earlier (.receive sessionID frame)) :
    RunInv numberText parse enabled (.receive sessionID frame :: earlier) ∧
      ∀ capture ∈ ((mirrorAfter numberText parse enabled earlier).receive numberText parse sessionID
        frame).2,
        ∃ conversation, (sessionAfter parse capture.sessionID
            (.receive sessionID frame :: earlier)).holds capture.responseID conversation ∧
          Carries numberText capture.bodyText conversation := by
  have hother : ∀ id, id ≠ sessionID →
      sessionAfter parse id (.receive sessionID frame :: earlier) =
        sessionAfter parse id earlier := fun id hne => if_neg fun heq => hne heq.symm
  have hself : sessionAfter parse sessionID (.receive sessionID frame :: earlier) =
      { sessionAfter parse sessionID earlier with
        turn := (sessionAfter parse sessionID earlier).turn.map fun turn =>
          turn.announce (announced parse frame).toList } := if_pos rfl
  have hheld : ∀ id, (sessionAfter parse id (.receive sessionID frame :: earlier)).held =
      (sessionAfter parse id earlier).held := by
    intro id
    by_cases hid : id = sessionID
    · rw [hid, hself]
    · rw [hother id hid]
  have hafter : (mirrorAfter numberText parse enabled earlier).call numberText parse
      (.receive sessionID frame) =
        (mirrorAfter numberText parse enabled earlier).receive numberText parse sessionID frame := rfl
  have hholds : ∀ {id responseID conversation},
      (sessionAfter parse id earlier).holds responseID conversation →
        (sessionAfter parse id (.receive sessionID frame :: earlier)).holds responseID
          conversation := by
    intro id responseID conversation hold
    rw [Session.holds, hheld]
    exact hold
  rcases receive_cases numberText parse
    (mirrorAfter numberText parse enabled earlier) sessionID frame with
      ⟨hsame, hnone⟩ | ⟨entry, pending, event, henabled, hnamed, hentry, hpending, hevent, hreceive⟩
  · have hsilent : ((mirrorAfter numberText parse enabled earlier).call numberText parse
        (.receive sessionID frame)).2 = none := by rw [hafter, hsame]
    refine ⟨⟨bounded_call h.bounded _, ?_, ?_, ?_, ?_⟩, ?_⟩
    · rw [mirrorAfter, hafter, hsame]
      exact h.idle
    · intro id e hget
      rw [mirrorAfter, hafter, hsame] at hget
      rw [capturedOf_of_silent hsilent]
      have hold := h.faithful id e hget
      by_cases hid : id = sessionID
      · subst hid
        rw [hself]
        cases hp : e.pending with
        | none => exact ⟨hold.head, by simp [hp]⟩
        | some p =>
            obtain ⟨turn, hturn, -⟩ := hold.pending p hp
            have hopen : (mirrorAfter numberText parse enabled earlier).enabled = true := by
              by_contra hdisabled
              rw [h.idle (by simpa using hdisabled) id] at hget
              cases hget
            rw [hturn, hnone hopen e p hget hp]
            exact faithful_other hturn hold
      · rw [hother id hid]
        exact hold
    · intro capture hmem
      rw [captures_of_silent hsilent] at hmem
      rw [hheld]
      exact h.held capture hmem
    · rw [captures_of_silent hsilent]
      exact h.once
    · rw [hsame]
      intro capture hmem
      cases hmem
  · obtain ⟨turn, hturn, -⟩ := (h.faithful sessionID entry hentry).pending pending hpending
    have hitem : announced parse frame = (FrameMirror.eventOf event).item? := by
      rw [announced, if_pos hnamed, hevent, Option.bind_some]
    obtain ⟨hfaithful, hcapture⟩ := faithful_receiveEvent numberText
      (h.faithful sessionID entry hentry) hentry hpending hturn (hanswers turn hturn event hevent)
      hitem
    rw [← hreceive] at hfaithful hcapture
    refine ⟨⟨bounded_call h.bounded _, ?_, ?_, ?_, ?_⟩, ?_⟩
    · intro hdisabled
      rw [mirrorAfter, hafter, hreceive, receiveEvent_enabled, henabled] at hdisabled
      cases hdisabled
    · intro id e hget
      rw [mirrorAfter, hafter] at hget
      by_cases hid : id = sessionID
      · subst hid
        rw [hself, hturn]
        have hold := hfaithful e hget
        cases hc : ((mirrorAfter numberText parse enabled earlier).receive numberText parse id
            frame).2 with
        | none =>
            rw [hc] at hold
            rw [capturedOf_of_silent (by rw [hafter, hc])]
            exact hold
        | some capture =>
            rw [hc] at hold
            rw [capturedOf_cons (by rw [hafter, hc]), if_pos (hcapture capture hc).1]
            exact hold
      · rw [hother id hid]
        have hget' : (mirrorAfter numberText parse enabled earlier).entries.get id = some e := by
          rw [hreceive] at hget
          exact get_receiveEvent hid hget
        cases hc : ((mirrorAfter numberText parse enabled earlier).receive numberText parse sessionID
            frame).2 with
        | none =>
            rw [capturedOf_of_silent (by rw [hafter, hc])]
            exact h.faithful id e hget'
        | some capture =>
            rw [capturedOf_cons (by rw [hafter, hc]),
              if_neg fun heq : capture.sessionID = id => hid (heq.symm.trans (hcapture capture hc).1)]
            exact h.faithful id e hget'
    · intro capture hmem
      rw [hheld]
      rcases List.mem_append.mp hmem with hnew | hold
      · obtain ⟨hid, -, -, conversation, hheldAt, -⟩ :=
          hcapture capture (Option.mem_toList.mp hnew)
        rw [hid]
        exact Session.held_of_holds hheldAt
      · exact h.held capture hold
    · rw [captures, hafter]
      cases hc : ((mirrorAfter numberText parse enabled earlier).receive numberText parse sessionID
          frame).2 with
      | none => exact h.once
      | some capture =>
          obtain ⟨hid, -, hfresh, -⟩ := hcapture capture hc
          rw [Option.toList_some, List.cons_append, List.nil_append, List.map_cons, List.nodup_cons]
          refine ⟨fun hmem => ?_, h.once⟩
          obtain ⟨old, hold, heq⟩ := List.mem_map.mp hmem
          rw [Prod.mk.injEq] at heq
          exact hfresh (mem_capturedOf.mpr ⟨old, hold, heq.1.trans hid, heq.2⟩)
    · intro capture hmem
      obtain ⟨hid, -, -, conversation, hheldAt, hcarries⟩ := hcapture capture hmem
      exact ⟨conversation, hholds (hid ▸ hheldAt), hcarries⟩

theorem runInv (h : Served parse calls) : RunInv numberText parse enabled calls := by
  induction calls with
  | nil =>
      refine ⟨.empty enabled, fun _ _ => rfl, ?_, ?_, List.nodup_nil⟩
      · intro _ _ hget
        cases hget
      · intro _ hmem
        cases hmem
  | cons call earlier ih =>
      have hinv := ih h.tail
      cases call with
      | send sessionID frame response => exact hinv.send h.head
      | receive sessionID frame => exact (hinv.receive h.head).1
      | setEnabled on =>
          refine hinv.silent rfl (fun _ => rfl) ?_ ?_
          · cases on with
            | true => exact fun h => by cases h
            | false => exact fun _ _ => rfl
          · cases on with
            | true => exact fun _ _ hget => hget
            | false => exact fun _ _ hget => by cases hget
      | replay sessionID =>
          have hget : ∀ id, ((mirrorAfter numberText parse enabled earlier).replay numberText
              sessionID).1.entries.get id =
                (mirrorAfter numberText parse enabled earlier).entries.get id :=
            fun id => FrameMirror.get_replay numberText _ sessionID id
          refine hinv.silent rfl (fun _ => rfl) (fun hdisabled id => ?_) fun id e he => ?_
          · exact (hget id).trans (hinv.idle (FrameMirror.replay_enabled sessionID ▸ hdisabled) id)
          · exact (hget id).symm.trans he
      | forget sessionID =>
          refine hinv.silent rfl (fun _ => rfl) (fun hdisabled id => ?_)
            (FrameMirror.within_forget _ sessionID)
          change ((mirrorAfter numberText parse enabled earlier).entries.delete sessionID).get id = none
          rw [Table.get_delete, hinv.idle hdisabled id, ite_self]

/-! ## The guarantees -/

/-- With a server that answers as one does, the mirror keeps its guarantees after any calls. -/
theorem mirror_guarantees (enabled : Bool) (calls : List Call) (h : Served parse calls) :
    MirrorGuarantees numberText parse enabled calls where
  counter := (runInv h).bounded.bytes
  exact := by
    intro sessionID entry hget
    rw [(runInv h).bounded.exact sessionID entry hget,
      entryBytes_eq ((runInv h).bounded.counted sessionID entry hget)]
  targets := (runInv h).bounded.targets
  budget := (runInv h).bounded.budget
  replayed := by
    intro sessionID bodyText hreplay
    unfold FrameMirror.replay at hreplay
    cases hentry : (mirrorAfter numberText parse enabled calls).entries.get sessionID with
    | none =>
        rw [hentry] at hreplay
        cases hreplay
    | some entry =>
        rw [hentry] at hreplay
        cases hhead : entry.head with
        | none =>
            simp only [hhead] at hreplay
            cases hreplay
        | some head =>
            simp only [hhead] at hreplay
            have hheld := ((runInv h).faithful sessionID entry hentry).head head hhead
            exact ⟨entry, head, head.input, rfl, hhead, hheld,
              Option.some.inj hreplay ▸ carries_body ..⟩
  captured := by
    rintro later call earlier capture rfl hcapture
    have hserved : Served parse (call :: earlier) := fun more c rest hsplit =>
      h (later ++ more) c rest (by rw [hsplit, List.append_assoc])
    cases call with
    | receive sessionID frame =>
        exact ((runInv hserved.tail).receive hserved.head).2 capture hcapture
    | setEnabled on => cases hcapture
    | send sessionID frame response => cases hcapture
    | replay sessionID => cases hcapture
    | forget sessionID => cases hcapture
  once := (runInv h).once

end

section Greeting

def greetingItem : Json := .obj [("type", .str "message"), ("role", .str "assistant")]

def greeting : Response where
  id := "r1"
  output := [greetingItem]
  objects := by simp [greetingItem, Json.isRecord]

def createFrame : String := "\x7b\"type\":\"response.create\",\"input\":[]\x7d"

def itemFrame : String :=
  "\x7b\"type\":\"response.output_item.done\",\"item\":\x7b\"type\":\"message\",\"role\":\"assistant\"\x7d\x7d"

def completedFrame : String :=
  "\x7b\"type\":\"response.completed\",\"response\":\x7b\"id\":\"r1\"\x7d\x7d"

/-- `JSON.parse` on the three frames. -/
def parseGreeting (text : String) : Option Json :=
  if text = createFrame then
    some (.obj [("type", .str "response.create"), ("input", .arr [])])
  else if text = itemFrame then
    some (.obj [("type", .str "response.output_item.done"), ("item", greetingItem)])
  else if text = completedFrame then
    some (.obj [("type", .str "response.completed"), ("response", .obj [("id", .str "r1")])])
  else none

/-- A full frame that is answered with one item. -/
def greetingCalls : List Call :=
  [.receive "s" completedFrame, .receive "s" itemFrame, .send "s" createFrame greeting]

theorem mirror_guarantees_greeting :
    MirrorGuarantees (fun q => toString q.num) parseGreeting true greetingCalls := by
  refine mirror_guarantees true greetingCalls (.cons (.cons (.cons .nil ?_) ?_) ?_)
  · exact fun _ => List.not_mem_nil
  · rintro _ ⟨rfl⟩ _ ⟨rfl⟩
    exact ⟨fun _ hmem => (Option.not_mem_none _ hmem).elim, [], rfl⟩
  · rintro _ ⟨rfl⟩ _ ⟨rfl⟩
    exact ⟨rfl, rfl⟩

end Greeting

end Mirror
