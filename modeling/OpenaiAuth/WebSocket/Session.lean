import Mathlib.Data.List.Count
import OpenaiAuth.WebSocket.Chaining

/-! # A session over several entries

The requests of one session, each over some entry of the pool (an account) or
over HTTP. Every host body carries the whole history of the session so far.
What a request leaves out of its body has to be in the context of the response
it names, whichever entry or transport served it.

The host renders the items of a response as items of its own; how it does so is
a parameter of this development.
-/

namespace WebSocket

open Js

/-! ## The session -/

/-- An item of the history. `served` is the entry that keeps the chain the item
was rendered from, `none` for what the host wrote itself and for all that
another transport, or a chain that is gone, served. -/
structure Recorded (Key : Type) where
  item : Json
  served : Option Key

/-- A main request as it was sent for a body, and the context of the response
it named then. -/
structure Turn where
  body : Members
  request : Members
  context : List Json
deriving DecidableEq

/-- What the request leaves out of its body. -/
def Turn.leftOut (t : Turn) : List Json :=
  (Body.input t.body).diff (Body.input t.request)

structure Session (Key : Type) where
  history : List (Recorded Key) := []
  entries : Key → Entry := fun _ => {}
  /-- The main requests sent, newest first. -/
  turns : List Turn := []

inductive SessionStep (Key : Type) where
  /-- The host's history grows. -/
  | record (items : List Json) (served : Option Key)
  /-- A step of one entry, or a request of its session over HTTP. -/
  | entry (key : Key) (c : Choice)

/-- The main request that a step of an entry sends. -/
def turn? (w : Entry) (c : Choice) : Option Turn :=
  match w.phase, c with
  | .composed body request, .send socket =>
      if socket.sendError.isNone then
        some { body, request, context := contextOf w.contexts request }
      else none
  | _, _ => none

/-- The response is chained to, and not sent in full: the tests of
`withContinuation`. -/
def chains (prior : Continuation) (body : Members) : Bool :=
  prior.signature = bodySignature body && hasContinuationPrefix prior body &&
    prior.input ≠ [] &&
    continuationInput ((Body.input body).drop prior.input.length) prior.finalizedCallIds ≠ []

def Phase.isIdle : Phase → Bool
  | .idle => true
  | _ => false

namespace Session

variable {Key : Type} [DecidableEq Key]

def step (js : Builtins) (s : Session Key) : SessionStep Key → Session Key
  | .record items served =>
      { s with history := s.history ++ items.map fun item => { item, served } }
  | .entry key c =>
      { s with
        entries := Function.update s.entries key (WebSocket.step js (s.entries key) c)
        turns := (turn? (s.entries key) c).toList ++ s.turns }

/-- A run of the session whose steps are all allowed. -/
inductive Reaches (js : Builtins) (allowed : Session Key → SessionStep Key → Prop) :
    Session Key → Prop where
  | start : Reaches js allowed {}
  | step {s : Session Key} {c : SessionStep Key} :
      Reaches js allowed s → allowed s c → Reaches js allowed (s.step js c)

/-- The items that were recorded after those the entry's response is saved with,
and that the body carries. -/
def since (s : Session Key) (prior : Continuation) (body : Members) : List (Recorded Key) :=
  (s.history.take (Body.input body).length).drop prior.input.length

/-- The entry chains to its response over an item that came from elsewhere and
is not kept. -/
def strands (s : Session Key) (key : Key) (body : Members) : Bool :=
  match (s.entries key).continuation with
  | some prior =>
      chains prior body &&
        (s.since prior body).any fun r =>
          r.served ≠ some key &&
            !keepsItem prior.finalizedCallIds (normalizeResponseInputItem r.item)
  | none => false

/-- A main request is composed that strands an item. -/
def stepStrands (s : Session Key) : SessionStep Key → Bool
  | .entry key c =>
      match (s.entries key).phase, c with
      | .connecting body, .connect true =>
          !(shouldPrewarm (s.entries key).continuation body && Body.input body ≠ []) &&
            s.strands key body
      | .prewarmed body, .compose => s.strands key body
      | _, _ => false
  | .record .. => false

end Session

section

variable (renders : Json → Json → Prop)

/-- The context holds the item, or one that the host renders as the item. -/
def Held (context : List Json) (item : Json) : Prop :=
  ∃ c ∈ context, c.stable = item.stable ∨
    ∃ raw, renders c raw ∧ (normalizeResponseInputItem raw).stable = item.stable

/-- The request leaves out of its body what the response it names holds. -/
def Turn.Keeps (t : Turn) : Prop :=
  ∀ item ∈ t.leftOut, Held renders t.context item

variable {Key : Type} [DecidableEq Key]

/-- The host's part of a step: a body carries the history, and what is recorded
as an entry's own was rendered from the context of the response it chains to. -/
def HostStep (s : Session Key) : SessionStep Key → Prop
  | .record items (some key) =>
      (s.entries key).phase.isIdle = true ∧
        ∃ prior, (s.entries key).continuation = some prior ∧
          ∀ item ∈ items, Held renders ((s.entries key).contexts prior.responseID)
            (normalizeResponseInputItem item)
  | .entry _ (.fetch body) | .entry _ (.sendHttp body) =>
      Body.input body = s.history.map Recorded.item
  | _ => True

end

/-! ## What a context holds -/

section

variable {renders : Json → Json → Prop}

theorem Held.of_mem {context : List Json} {item : Json} (h : item ∈ context) :
    Held renders context item :=
  ⟨item, h, .inl rfl⟩

theorem Held.mono {context context' : List Json} {item : Json} (h : Held renders context item)
    (hsub : context ⊆ context') : Held renders context' item := by
  rcases h with ⟨c, hc, hitem⟩
  exact ⟨c, hsub hc, hitem⟩

theorem Held.of_stable {context : List Json} {item item' : Json} (h : Held renders context item)
    (hstable : item.stable = item'.stable) : Held renders context item' := by
  rcases h with ⟨c, hc, hsame | ⟨raw, hrenders, hraw⟩⟩
  · exact ⟨c, hc, .inl (hsame.trans hstable)⟩
  · exact ⟨c, hc, .inr ⟨raw, hrenders, hraw.trans hstable⟩⟩

/-- What is left out was ahead of the suffix, or is not kept in it. -/
theorem mem_diff_filter {input : List Json} {n : Nat} {keeps : Json → Bool} {item : Json}
    (h : item ∈ input.diff ((input.drop n).filter keeps)) :
    item ∈ input.take n ∨ item ∈ input.drop n ∧ keeps item = false := by
  have hcount := List.count_pos_iff.mpr h
  rw [List.count_diff] at hcount
  have hsplit : input.count item = (input.take n).count item + (input.drop n).count item := by
    rw [← List.count_append, List.take_append_drop]
  by_cases hkeeps : keeps item = true
  · -- all of the suffix's occurrences are sent
    left
    rw [List.count_filter hkeeps] at hcount
    exact List.count_pos_iff.mp (by omega)
  · by_cases htaken : item ∈ input.take n
    · exact .inl htaken
    · have hnone : (input.take n).count item = 0 := List.count_eq_zero.mpr htaken
      right
      exact ⟨List.count_pos_iff.mp (by omega), by simpa using hkeeps⟩

theorem input_normalizeResponseBody (body : Members) :
    Body.input (normalizeResponseBody body) =
      (Body.input body).map normalizeResponseInputItem := by
  unfold normalizeResponseBody
  rcases hinput : Body.input? body with _ | input
  · simp [Body.input, hinput]
  · have hbody : Body.input body = input := by simp [Body.input, hinput]
    rw [hbody]
    simp [Body.input, Body.input?, Json.array?]

end

/-! ## The invariant -/

section

variable (renders : Json → Json → Prop) {Key : Type} (key : Key) (history : List (Recorded Key))

/-- The saved input and what the entry served since are in the context of the
response the continuation names. -/
structure Continuation.Holds (prior : Continuation) (contexts : String → List Json) : Prop where
  input : ∀ item ∈ prior.input, Held renders (contexts prior.responseID) item
  own : ∀ r ∈ history.drop prior.input.length, r.served = some key →
    Held renders (contexts prior.responseID) (normalizeResponseInputItem r.item)

/-- The body carries the history up to some point, and the entry served nothing
after it. -/
structure CarriesHistory (body : Members) : Prop where
  input : Body.input body = (history.take (Body.input body).length).map fun r =>
    normalizeResponseInputItem r.item
  own : ∀ r ∈ history.drop (Body.input body).length, r.served ≠ some key

/-- What the request leaves out is in the context it names. -/
def LeavesHeld (contexts : String → List Json) (body request : Members) : Prop :=
  ∀ item ∈ (Body.input body).diff (Body.input request),
    Held renders (contextOf contexts request) item

/-- What holds of the request in flight. -/
def PhaseHolds (w : Entry) : Prop :=
  match w.phase with
  | .idle => True
  | .connecting body | .prewarmed body => CarriesHistory key history body
  | .prewarmComposed body request =>
      CarriesHistory key history body ∧ request = prewarmBody body
  | .prewarming body request stream =>
      CarriesHistory key history body ∧ request = prewarmBody body ∧ CollectsFinalized stream
  | .composed body request =>
      CarriesHistory key history body ∧ LeavesHeld renders w.contexts body request
  | .streaming body request stream =>
      CarriesHistory key history body ∧ LeavesHeld renders w.contexts body request ∧
        CollectsFinalized stream

structure EntryHolds (w : Entry) : Prop where
  continuation : ∀ prior, w.continuation = some prior → prior.input ≠ [] →
    prior.Holds renders key history w.contexts
  phase : PhaseHolds renders key history w

end

structure Session.Holds (renders : Json → Json → Prop) {Key : Type} (s : Session Key) : Prop where
  entries : ∀ key, EntryHolds renders key s.history (s.entries key)
  turns : ∀ t ∈ s.turns, t.Keeps renders

/-! ## Steps of an entry -/

section

variable {renders : Json → Json → Prop} {Key : Type} {key : Key} {history : List (Recorded Key)}

theorem CarriesHistory.record {body : Members} (h : CarriesHistory key history body)
    {more : List (Recorded Key)} (hmore : ∀ r ∈ more, r.served ≠ some key) :
    CarriesHistory key (history ++ more) body := by
  have hle : (Body.input body).length ≤ history.length := by
    have hlength := congrArg List.length h.input
    rw [List.length_map, List.length_take] at hlength
    omega
  constructor
  · rw [List.take_append_of_le_length hle]
    exact h.input
  · intro r hr
    rw [List.drop_append_of_le_length hle, List.mem_append] at hr
    rcases hr with hr | hr
    · exact h.own r hr
    · exact hmore r hr

/-- The history grows; an entry's own items come only while it is idle. -/
theorem EntryHolds.record {w : Entry} (h : EntryHolds renders key history w)
    {more : List (Recorded Key)}
    (hmore : ∀ r ∈ more, r.served = some key → w.phase.isIdle = true ∧
      ∀ prior, w.continuation = some prior →
        Held renders (w.contexts prior.responseID) (normalizeResponseInputItem r.item)) :
    EntryHolds renders key (history ++ more) w := by
  constructor
  · intro prior hprior hinput
    have hholds := h.continuation prior hprior hinput
    constructor
    · exact hholds.input
    · intro r hr hown
      rw [List.drop_append, List.mem_append] at hr
      rcases hr with hr | hr
      · exact hholds.own r hr hown
      · exact (hmore r (List.mem_of_mem_drop hr) hown).2 prior hprior
  · have hphase := h.phase
    have hbusy : w.phase.isIdle = false → ∀ r ∈ more, r.served ≠ some key := by
      intro hidle r hr hown
      rw [(hmore r hr hown).1] at hidle
      cases hidle
    unfold PhaseHolds at *
    rcases hp : w.phase <;> simp only [hp] at hphase ⊢ <;> simp only [hp] at hbusy
    case connecting => exact hphase.record (hbusy rfl)
    case prewarmComposed => exact ⟨hphase.1.record (hbusy rfl), hphase.2⟩
    case prewarming => exact ⟨hphase.1.record (hbusy rfl), hphase.2⟩
    case prewarmed => exact hphase.record (hbusy rfl)
    case composed => exact ⟨hphase.1.record (hbusy rfl), hphase.2⟩
    case streaming => exact ⟨hphase.1.record (hbusy rfl), hphase.2⟩

/-- A chain that is kept or dropped, and nothing else. -/
theorem EntryHolds.of_same {w w' : Entry} (h : EntryHolds renders key history w)
    (hcontinuation : w'.continuation = w.continuation ∨ w'.continuation = none)
    (hphase : w'.phase = w.phase) (hcontexts : w'.contexts = w.contexts) :
    EntryHolds renders key history w' := by
  constructor
  · intro prior hprior hinput
    rw [hcontexts]
    rcases hcontinuation with hsame | hnone
    · exact h.continuation prior (hsame ▸ hprior) hinput
    · rw [hnone] at hprior
      cases hprior
  · have := h.phase
    unfold PhaseHolds at *
    rw [hphase, hcontexts]
    exact this

theorem EntryHolds.caught {w : Entry} : EntryHolds renders key history w.caught :=
  ⟨(fun _ hprior => by cases hprior), trivial⟩

theorem carriesHistory_normalize {body : Members}
    (h : Body.input body = history.map Recorded.item) :
    CarriesHistory key history (normalizeResponseBody body) := by
  have hinput : Body.input (normalizeResponseBody body) =
      history.map fun r => normalizeResponseInputItem r.item := by
    rw [input_normalizeResponseBody, h, List.map_map]
    rfl
  have hlength : (Body.input (normalizeResponseBody body)).length = history.length := by
    rw [hinput, List.length_map]
  constructor
  · rw [hlength, List.take_length]
    exact hinput
  · rw [hlength, List.drop_length]
    simp

/-! ### The composed request -/

theorem withContinuation_request (continuation : Option Continuation) (body : Members) :
    (withContinuation continuation body).1 = body ∨
    (∃ prior : Continuation, (withContinuation continuation body).1 =
      body.set "previous_response_id" (.str prior.responseID)) ∨
    ∃ prior, continuation = some prior ∧ chains prior body = true ∧
      (withContinuation continuation body).1 =
        (body.set "previous_response_id" (.str prior.responseID)).set "input"
          (.arr (continuationInput ((Body.input body).drop prior.input.length)
            prior.finalizedCallIds)) := by
  rcases hinput : Body.input? body with _ | input
  · left
    simp [withContinuation, hinput]
  rcases continuation with _ | prior
  · left
    simp [withContinuation, hinput]
  have hbody : Body.input body = input := by simp [Body.input, hinput]
  by_cases hsign : prior.signature ≠ bodySignature body
  · left
    simp [withContinuation, hinput, hsign]
  by_cases hextends : hasContinuationPrefix prior body = true
  case neg =>
    left
    simp [withContinuation, hinput, hsign, hextends]
  by_cases hempty : prior.input = []
  · right
    left
    exact ⟨prior, by simp [withContinuation, hinput, hsign, hextends, hempty]⟩
  by_cases hnil : continuationInput (input.drop prior.input.length) prior.finalizedCallIds = []
  · left
    simp [withContinuation, hinput, hsign, hextends, hempty, hnil]
  · right
    right
    refine ⟨prior, rfl, ?_, ?_⟩
    · simp only [not_not] at hsign
      simp [chains, hsign, hextends, hempty, hbody, hnil]
    · simp [withContinuation, hinput, hsign, hextends, hempty, hnil, hbody]

theorem leavesHeld_of_input {contexts : String → List Json} {body request : Members}
    (h : Body.input request = Body.input body) : LeavesHeld renders contexts body request := by
  intro item hitem
  have hcount := List.count_pos_iff.mpr hitem
  rw [h, List.count_diff] at hcount
  omega

/-- An item ahead of the suffix is in the saved input, up to its text. -/
theorem exists_stable_of_mem_take {prior : Continuation} {body : Members} {item : Json}
    (hextends : hasContinuationPrefix prior body = true)
    (h : item ∈ (Body.input body).take prior.input.length) :
    ∃ saved ∈ prior.input, saved.stable = item.stable := by
  simp only [hasContinuationPrefix, Bool.and_eq_true, List.isPrefixOf_iff_prefix] at hextends
  have hsame := List.prefix_iff_eq_take.mp hextends.2
  rw [List.length_map, ← List.map_take] at hsame
  have hmem : item.stable ∈ prior.input.map Json.stable := by
    rw [hsame]
    exact List.mem_map_of_mem h
  exact List.mem_map.mp hmem

theorem leavesHeld_compose [DecidableEq Key] {s : Session Key}
    (h : EntryHolds renders key s.history (s.entries key)) {body : Members}
    (hcarries : CarriesHistory key s.history body) (hstays : s.strands key body = false) :
    LeavesHeld renders (s.entries key).contexts body
      (withContinuation (s.entries key).continuation body).1 := by
  rcases withContinuation_request (s.entries key).continuation body with
    hfull | ⟨prior, hnamed⟩ | ⟨prior, hprior, hchains, hrequest⟩
  · rw [hfull]
    exact leavesHeld_of_input rfl
  · refine leavesHeld_of_input ?_
    rw [hnamed]
    simp only [Body.input, Body.input?]
    rw [Members.lookup_set_of_ne (by decide)]
  have hnames : contextOf (s.entries key).contexts
      (withContinuation (s.entries key).continuation body).1 =
        (s.entries key).contexts prior.responseID := by
    rw [hrequest]
    simp only [contextOf, Body.previousResponseID?]
    rw [Members.lookup_set_of_ne (by decide), Members.lookup_set_self]
    rfl
  have hsent : Body.input (withContinuation (s.entries key).continuation body).1 =
      continuationInput ((Body.input body).drop prior.input.length) prior.finalizedCallIds := by
    rw [hrequest]
    simp [Body.input, Body.input?, Json.array?]
  have hextends : hasContinuationPrefix prior body = true ∧ prior.input ≠ [] := by
    simp only [chains, Bool.and_eq_true, decide_eq_true_eq] at hchains
    exact ⟨hchains.1.1.2, hchains.1.2⟩
  have hholds := h.continuation prior hprior hextends.2
  intro item hitem
  rw [hnames]
  rw [hsent] at hitem
  rcases mem_diff_filter hitem with htaken | ⟨hsuffix, hdropped⟩
  · obtain ⟨saved, hsaved, hstable⟩ := exists_stable_of_mem_take hextends.1 htaken
    exact (hholds.input saved hsaved).of_stable hstable
  · -- an item that is not kept was served by the entry itself
    rw [hcarries.input, ← List.map_drop] at hsuffix
    obtain ⟨r, hr, rfl⟩ := List.mem_map.mp hsuffix
    have hown : r.served = some key := by
      by_contra hother
      have hstrands : s.strands key body = true := by
        unfold Session.strands
        simp only [hprior, hchains, Bool.true_and, List.any_eq_true]
        exact ⟨r, hr, by simp [hother, hdropped]⟩
      rw [hstrands] at hstays
      cases hstays
    refine hholds.own r ?_ hown
    rw [List.drop_take] at hr
    exact List.mem_of_mem_take hr

/-! ### The stream -/

theorem updateContinuation_saved {continuation : Option Continuation} {body : Members}
    {event : Json} {ids : List String} {chained : Bool} {saved : Continuation}
    (h : updateContinuation continuation body event ids chained = some saved) :
    responseID? event = some saved.responseID ∧ Body.input? body = some saved.input ∧
      saved.signature = bodySignature body := by
  unfold updateContinuation at h
  rcases hresponse : responseID? event with _ | responseID
  · simp [hresponse] at h
  rcases hinput : Body.input? body with _ | input
  · simp [hresponse, hinput] at h
  simp only [hresponse, hinput] at h
  split at h
  case isTrue => cases h
  case isFalse =>
    obtain rfl := Option.some.inj h
    exact ⟨rfl, rfl, rfl⟩

/-- A completed response holds the body it was asked with. -/
theorem holds_updateContinuation {contexts : String → List Json}
    {continuation : Option Continuation} {body request : Members} {event : Json}
    {ids : List String} {chained : Bool} {frames : List Json} {saved : Continuation}
    (hcarries : CarriesHistory key history body)
    (hleaves : LeavesHeld renders contexts body request)
    (h : updateContinuation continuation body event ids chained = some saved) :
    saved.Holds renders key history (completeContext contexts request frames event) := by
  obtain ⟨hresponse, hinput, -⟩ := updateContinuation_saved h
  have hbody : Body.input body = saved.input := by simp [Body.input, hinput]
  have hcontext : completeContext contexts request frames event saved.responseID =
      contextOf contexts request ++ Body.input request ++
        (frames.filterMap doneItem ++ outputItems event) := by
    simp [completeContext, hresponse]
  constructor
  · intro item hitem
    rw [hcontext]
    by_cases hsent : item ∈ Body.input request
    · exact Held.of_mem (by simp [hsent])
    · have hleft := List.mem_diff_of_mem (hbody ▸ hitem) hsent
      exact (hleaves item hleft).mono fun c hc => by simp [hc]
  · intro r hr hown
    rw [← hbody] at hr
    exact absurd hown (hcarries.own r hr)

theorem EntryHolds.mainStep {w : Entry} {body request : Members} {stream stream' : State}
    (hcontinuation : ∀ prior, w.continuation = some prior → prior.input ≠ [] →
      prior.Holds renders key history w.contexts)
    (hcarries : CarriesHistory key history body)
    (hleaves : LeavesHeld renders w.contexts body request)
    (hstream : ((∃ news, stream'.callbacks = stream.callbacks ++ news ∧
        ∀ event ids, Callback.onComplete event ids ∉ news) ∧ CollectsFinalized stream') ∨
      State.Completes stream stream') :
    EntryHolds renders key history (w.mainStep body request stream stream') := by
  have hnone : ∀ prior, w.invalidate.continuation = some prior → prior.input ≠ [] →
      prior.Holds renders key history w.contexts := fun _ hprior => by cases hprior
  unfold Entry.mainStep
  dsimp only
  rcases reports_shape hstream with
    ⟨hsame, hcollects⟩ | ⟨hcompleted, w', hw', event, ids, -, hreports⟩
  · split
    · rcases hsame with heq | heq <;> rw [heq]
      · exact ⟨hcontinuation, trivial⟩
      · exact ⟨hnone, trivial⟩
    · rcases hsame with heq | heq <;> rw [heq]
      · exact ⟨hcontinuation, hcarries, hleaves, hcollects⟩
      · exact ⟨hnone, hcarries, hleaves, hcollects⟩
  · rw [if_pos hcompleted, hreports]
    refine ⟨fun prior hprior _ => ?_, trivial⟩
    rcases hw' with rfl | rfl
    · exact holds_updateContinuation hcarries hleaves hprior
    · exact holds_updateContinuation hcarries hleaves hprior

theorem EntryHolds.prewarmStep {w : Entry} {body request : Members} {stream stream' : State}
    (hcontinuation : ∀ prior, w.continuation = some prior → prior.input ≠ [] →
      prior.Holds renders key history w.contexts)
    (hcarries : CarriesHistory key history body) (hrequest : request = prewarmBody body)
    (hstream : ((∃ news, stream'.callbacks = stream.callbacks ++ news ∧
        ∀ event ids, Callback.onComplete event ids ∉ news) ∧ CollectsFinalized stream') ∨
      State.Completes stream stream') :
    EntryHolds renders key history (w.prewarmStep body request stream stream') := by
  have hnone : ∀ prior, w.invalidate.continuation = some prior → prior.input ≠ [] →
      prior.Holds renders key history w.contexts := fun _ hprior => by cases hprior
  unfold Entry.prewarmStep
  dsimp only
  rcases reports_shape hstream with
    ⟨hsame, hcollects⟩ | ⟨hcompleted, w', hw', event, ids, -, hreports⟩
  · split
    · split
      · rcases hsame with heq | heq <;> rw [heq]
        · exact ⟨hcontinuation, hcarries⟩
        · exact ⟨hnone, hcarries⟩
      · exact EntryHolds.caught
    · rcases hsame with heq | heq <;> rw [heq]
      · exact ⟨hcontinuation, hcarries, hrequest, hcollects⟩
      · exact ⟨hnone, hcarries, hrequest, hcollects⟩
  · -- a prewarm saves an empty input
    rw [if_pos hcompleted, hreports]
    have hempty : ∀ prior, updateContinuation w'.continuation request event ids false =
        some prior → prior.input = [] := by
      intro prior hprior
      have hinput := (updateContinuation_saved hprior).2.1
      rw [hrequest, input_prewarmBody] at hinput
      exact (Option.some.inj hinput).symm
    split
    · exact ⟨fun prior hprior hne => absurd (hempty prior hprior) hne, hcarries⟩
    · exact EntryHolds.caught

theorem EntryHolds.compose {w : Entry} (h : EntryHolds renders key history w) {body : Members}
    (hcarries : CarriesHistory key history body)
    (hleaves : LeavesHeld renders w.contexts body (withContinuation w.continuation body).1) :
    EntryHolds renders key history (w.compose body) := by
  constructor
  · intro prior hprior hinput
    have hprior' : (withContinuation w.continuation body).2 = some prior := hprior
    rcases withContinuation_kept w.continuation body with hkept | hkept
    · exact h.continuation prior (hkept ▸ hprior') hinput
    · rw [hkept] at hprior'
      cases hprior'
  · exact ⟨hcarries, hleaves⟩

theorem EntryHolds.connected {w : Entry} (h : EntryHolds renders key history w) {body : Members}
    (hcarries : CarriesHistory key history body)
    (hleaves : (shouldPrewarm w.continuation body && Body.input body ≠ []) = false →
      LeavesHeld renders w.contexts body (withContinuation w.continuation body).1) :
    EntryHolds renders key history (w.connected body) := by
  unfold Entry.connected
  by_cases hprewarm : (shouldPrewarm w.continuation body && Body.input body ≠ []) = true
  · rw [if_pos hprewarm]
    exact ⟨h.continuation, hcarries, rfl⟩
  · rw [if_neg hprewarm]
    exact h.compose hcarries (hleaves (by simpa using hprewarm))

theorem EntryHolds.step [DecidableEq Key] (js : Builtins) {s : Session Key}
    (h : EntryHolds renders key s.history (s.entries key)) (c : Choice)
    (hhost : HostStep renders s (.entry key c)) (hstays : s.stepStrands (.entry key c) = false) :
    EntryHolds renders key s.history (step js (s.entries key) c) := by
  have hphase := h.phase
  unfold PhaseHolds at hphase
  have hsend : ∀ request, EntryHolds renders key s.history ((s.entries key).send request) :=
    fun request => h.of_same (.inl rfl) rfl rfl
  rcases c with body | body | reused | _ | socket | e | _ | _ | _
  case fetch =>
    rcases hp : (s.entries key).phase <;> simp only [WebSocket.step, hp]
    case idle => exact ⟨h.continuation, carriesHistory_normalize hhost⟩
    all_goals exact hsend body
  case sendHttp => exact hsend body
  case connect =>
    rcases hp : (s.entries key).phase with _ | body | _ | _ | _ | _ | _ <;>
      simp only [WebSocket.step, hp]
    case connecting =>
      simp only [hp] at hphase
      rcases reused with _ | _
      · -- a new socket: nothing to chain to
        have hclosed : EntryHolds renders key s.history (s.entries key).invalidate :=
          h.of_same (.inr rfl) rfl rfl
        exact hclosed.connected hphase
          fun _ => leavesHeld_of_input (by simp [Entry.invalidate, withContinuation])
      · refine h.connected hphase fun hprewarm => leavesHeld_compose h hphase ?_
        simpa only [Session.stepStrands, hp, hprewarm, Bool.not_false, Bool.true_and] using hstays
    all_goals exact h
  case connectFails =>
    rcases hp : (s.entries key).phase <;> simp only [WebSocket.step, hp]
    case connecting => exact EntryHolds.caught
    all_goals exact h
  case send =>
    rcases hp : (s.entries key).phase with _ | _ | ⟨body, request⟩ | _ | _ | ⟨body, request⟩ | _ <;>
      simp only [WebSocket.step, hp]
    case prewarmComposed =>
      simp only [hp] at hphase
      split
      · exact EntryHolds.prewarmStep h.continuation hphase.1 hphase.2 (start_reports socket)
      · exact EntryHolds.prewarmStep h.continuation hphase.1 hphase.2 (start_reports socket)
    case composed =>
      simp only [hp] at hphase
      split
      · exact EntryHolds.mainStep h.continuation hphase.1 hphase.2 (start_reports socket)
      · exact EntryHolds.mainStep h.continuation hphase.1 hphase.2 (start_reports socket)
    all_goals exact h
  case receive =>
    rcases hp : (s.entries key).phase with
      _ | _ | _ | ⟨body, request, stream⟩ | _ | _ | ⟨body, request, stream⟩ <;>
      simp only [WebSocket.step, hp]
    case prewarming =>
      simp only [hp] at hphase
      exact EntryHolds.prewarmStep h.continuation hphase.1 hphase.2.1
        (receive_reports _ hphase.2.2 e)
    case streaming =>
      simp only [hp] at hphase
      exact EntryHolds.mainStep h.continuation hphase.1 hphase.2.1 (receive_reports _ hphase.2.2 e)
    all_goals exact h
  case compose =>
    rcases hp : (s.entries key).phase with _ | _ | _ | _ | body | _ | _ <;>
      simp only [WebSocket.step, hp]
    case prewarmed =>
      simp only [hp] at hphase
      exact h.compose hphase
        (leavesHeld_compose h hphase (by simpa [Session.stepStrands, hp] using hstays))
    all_goals exact h
  case abort =>
    rcases hp : (s.entries key).phase <;> simp only [WebSocket.step, hp]
    case idle => exact h
    all_goals exact EntryHolds.caught
  case drop => exact h.of_same (.inr rfl) rfl rfl

theorem turn_keeps {w : Entry} (h : EntryHolds renders key history w) {c : Choice} {t : Turn}
    (ht : turn? w c = some t) : t.Keeps renders := by
  have hphase := h.phase
  unfold PhaseHolds at hphase
  unfold turn? at ht
  split at ht
  case h_1 body request socket hp =>
    simp only [hp] at hphase
    split at ht
    case isTrue =>
      obtain rfl := Option.some.inj ht
      exact hphase.2
    case isFalse => cases ht
  case h_2 => cases ht

/-! ## Runs of a session -/

theorem Session.Holds.step [DecidableEq Key] (js : Builtins) {s : Session Key}
    (h : s.Holds renders) {c : SessionStep Key} (hhost : HostStep renders s c)
    (hstays : s.stepStrands c = false) : (s.step js c).Holds renders := by
  cases c with
  | record items served =>
      constructor
      · intro key
        refine (h.entries key).record fun r hr hown => ?_
        obtain ⟨item, hitem, rfl⟩ := List.mem_map.mp hr
        obtain rfl : served = some key := hown
        obtain ⟨hidle, prior, hprior, hrendered⟩ := hhost
        refine ⟨hidle, fun prior' hprior' => ?_⟩
        obtain rfl : prior = prior' := Option.some.inj (hprior.symm.trans hprior')
        exact hrendered item hitem
      · exact h.turns
  | entry key c =>
      constructor
      · intro key'
        simp only [Session.step]
        by_cases hkey : key' = key
        · subst hkey
          rw [Function.update_self]
          exact (h.entries key').step js c hhost hstays
        · rw [Function.update_of_ne hkey]
          exact h.entries key'
      · intro t ht
        rcases List.mem_append.mp ht with hnew | hold
        · exact turn_keeps (h.entries key) (Option.mem_toList.mp hnew)
        · exact h.turns t hold

theorem Session.holds_start : ({} : Session Key).Holds renders := by
  constructor
  · intro key
    exact ⟨(fun _ hprior => by cases hprior), trivial⟩
  · intro t ht
    cases ht

/-- In every run in which no entry chains over an item that came from elsewhere
and is not kept, each request leaves out of its body only what the response it
names holds. -/
theorem turns_keep [DecidableEq Key] (js : Builtins) (renders : Json → Json → Prop)
    (s : Session Key)
    (h : Session.Reaches js (fun s c => HostStep renders s c ∧ s.stepStrands c = false) s) :
    ∀ t ∈ s.turns, t.Keeps renders := by
  have hholds : s.Holds renders := by
    induction h with
    | start => exact Session.holds_start
    | step _ hallowed ih => exact ih.step js hallowed.1 hallowed.2
  exact hholds.turns

end

/-! ### A tool loop that HTTP serves in between -/

section

variable {Key : Type} [DecidableEq Key]

/-- The host carries the history and records a response as the server holds it. -/
def hostVerbatim (s : Session Key) : SessionStep Key → Bool
  | .record items (some key) =>
      (s.entries key).phase.isIdle &&
        match (s.entries key).continuation with
        | some prior =>
            items.all fun item => ((s.entries key).contexts prior.responseID).any fun c =>
              c.stable = (normalizeResponseInputItem item).stable
        | none => false
  | .entry _ (.fetch body) | .entry _ (.sendHttp body) =>
      Body.input body = s.history.map Recorded.item
  | _ => true

omit [DecidableEq Key] in
theorem hostStep_of_verbatim {renders : Json → Json → Prop} {s : Session Key}
    {c : SessionStep Key} (h : hostVerbatim s c = true) : HostStep renders s c := by
  rcases c with ⟨items, _ | key⟩ | ⟨key, c⟩
  · trivial
  · simp only [hostVerbatim, Bool.and_eq_true] at h
    rcases hcont : (s.entries key).continuation with _ | prior
    · simp [hcont] at h
    · simp only [hcont, List.all_eq_true, List.any_eq_true, decide_eq_true_eq] at h
      refine ⟨h.1, prior, hcont, fun item hitem => ?_⟩
      obtain ⟨c, hc, hstable⟩ := h.2 item hitem
      exact ⟨c, hc, .inl hstable⟩
  · cases c
    case fetch body => simpa [hostVerbatim, HostStep] using h
    case sendHttp body => simpa [hostVerbatim, HostStep] using h
    all_goals trivial

/-- Every step passes the test where it is made. -/
def passes (js : Builtins) (test : Session Key → SessionStep Key → Bool) :
    Session Key → List (SessionStep Key) → Bool
  | _, [] => true
  | s, c :: rest => test s c && passes js test (s.step js c) rest

theorem Session.Reaches.of_passes {js : Builtins} {test : Session Key → SessionStep Key → Bool}
    {allowed : Session Key → SessionStep Key → Prop}
    (htest : ∀ s c, test s c = true → allowed s c) {s : Session Key}
    (hs : Session.Reaches js allowed s) {steps : List (SessionStep Key)}
    (h : passes js test s steps = true) :
    Session.Reaches js allowed (steps.foldl (Session.step js) s) := by
  induction steps generalizing s with
  | nil => exact hs
  | cons c rest ih =>
      simp only [passes, Bool.and_eq_true] at h
      exact ih (hs.step (htest s c h.1)) h.2

end

def secondCall : Json :=
  .obj [("type", .str "function_call"), ("call_id", .str "other")]

def secondOutput : Json :=
  .obj [("type", .str "function_call_output"), ("call_id", .str "other")]

/-- The first tool output goes over HTTP, for another account. The answer says
something and calls the second tool, whose output goes over the entry again. -/
def servedByHttp (said : List Json) : List (SessionStep String) :=
  [.record [userItem] none] ++ firstTurn.map (.entry "a") ++
    [.record [callItem] (some "a"), .record [callOutput] none,
      .entry "b" (.sendHttp (bodyWith [userItem, callItem, callOutput])),
      .record (said ++ [secondCall]) none, .record [secondOutput] none,
      .entry "a" (.fetch (bodyWith
        ([userItem, callItem, callOutput] ++ said ++ [secondCall, secondOutput]))),
      .entry "a" (.connect true), .entry "a" (.send {})]

theorem turns_keep_silent_call :
    (∀ t ∈ ((servedByHttp []).foldl (Session.step chainTexts) {}).turns, t.Keeps (· = ·)) ∧
    ((servedByHttp []).foldl (Session.step chainTexts) {}).turns.head? =
      some
        { body := bodyWith [userItem, callItem, callOutput, secondCall, secondOutput]
          request :=
            [("input", .arr [callOutput, secondCall, secondOutput]),
              ("previous_response_id", .str "r1")]
          context := [userItem, callItem] } := by
  refine ⟨?_, by decide +kernel⟩
  have hpasses : passes chainTexts (fun s c => hostVerbatim s c && !s.stepStrands c) {}
      (servedByHttp []) = true := by
    decide +kernel
  refine turns_keep chainTexts (· = ·) _
    (Session.Reaches.of_passes (fun s c h => ?_) .start hpasses)
  simp only [Bool.and_eq_true, Bool.not_eq_true'] at h
  exact ⟨hostStep_of_verbatim h.1, h.2⟩

/-- What the assistant said in between is lost. -/
theorem http_turn_lost :
    ¬∀ s : Session String, Session.Reaches chainTexts (HostStep (· = ·)) s →
      ∀ t ∈ s.turns, ∀ id, Body.previousResponseID? t.request = some id → t.Keeps (· = ·) := by
  intro hall
  have hhead : ((servedByHttp [assistantItem]).foldl (Session.step chainTexts) {}).turns.head? =
      some
        { body := bodyWith
            [userItem, callItem, callOutput, assistantItem, secondCall, secondOutput]
          request :=
            [("input", .arr [callOutput, secondCall, secondOutput]),
              ("previous_response_id", .str "r1")]
          context := [userItem, callItem] } := by
    decide +kernel
  have hpasses : passes chainTexts hostVerbatim {} (servedByHttp [assistantItem]) = true := by
    decide +kernel
  have hreaches : Session.Reaches chainTexts (HostStep (· = ·))
      ((servedByHttp [assistantItem]).foldl (Session.step chainTexts) {}) :=
    Session.Reaches.of_passes (fun s c h => hostStep_of_verbatim h) .start hpasses
  have hkeeps := hall _ hreaches _ (List.mem_of_mem_head? hhead) "r1" rfl
  obtain ⟨c, hc, hheld⟩ := hkeeps assistantItem (by decide +kernel)
  -- the context holds the user's message and the first call only
  have hother : ∀ c ∈ [userItem, callItem], c.stable ≠ assistantItem.stable ∧
      (normalizeResponseInputItem c).stable ≠ assistantItem.stable := by
    decide +kernel
  rcases hheld with hsame | ⟨raw, rfl, hraw⟩
  · exact (hother c hc).1 hsame
  · exact (hother c hc).2 hraw

end WebSocket
