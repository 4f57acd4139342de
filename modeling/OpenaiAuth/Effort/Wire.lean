import OpenaiAuth.Effort.Updates
import OpenaiAuth.Js.Table

/-! # OpenCode 2's effort rule

`MidConversationEffort` keeps a session's first effort in memory. Over HTTP each request
carries the whole conversation; a WebSocket frame carries what is new, and the server keeps
the rest. Requests are shaped by `prepareCodexRequest` in both forms, with the Responses Lite
shape for HTTP where it is on.

Main result: `effort_wire`, over every run of a session's requests.
-/

namespace Effort

open Js

/-! ## Shaping a body -/

/-- What the shape of a body takes from the process and the session. -/
structure CodexRequest where
  threadID : String
  windowID : String
  installationID : String
  turnMetadata : String
  requestStartMs : String
  websocket : Bool
  responsesLite : Bool

def responsesLiteModels : List String :=
  ["gpt-5.6-sol", "gpt-5.6-terra", "gpt-5.6-luna", "gpt-6-astra", "gpt-6-sol", "gpt-6-luna",
    "gpt-6.1-sol", "gpt-6.1-terra"]

def CodexRequest.useResponsesLite (request : CodexRequest) (body : Members) : Bool :=
  request.responsesLite && ((body.lookup "model").bind Json.string?).any (· ∈ responsesLiteModels)

def normalizeCodexTool (tool : Json) : Json :=
  if tool.isRecord && tool.type? = some "function" then
    let parameters := (tool.get? "parameters").map fun parameters =>
      if parameters.isRecord then .obj (parameters.members.erase "$schema") else parameters
    .obj ((Members.literal [("type", tool.get? "type"), ("name", tool.get? "name"),
      ("description", tool.get? "description"),
      ("strict", Json.orElse (tool.get? "strict") (some (.bool false))),
      ("parameters", parameters)]).spread
        (tool.members.filter fun member =>
          member.1 ∉ ["type", "name", "description", "strict", "parameters"]))
  else tool

mutual

/-- Lite takes no image details. -/
def stripResponsesLiteImageDetails : Json → Json
  | .arr items => .arr (stripItems items)
  | .obj members =>
      .obj (stripMembers (members.lookup "type" = some (.str "input_image")) members)
  | value => value

def stripItems : List Json → List Json
  | [] => []
  | item :: items => stripResponsesLiteImageDetails item :: stripItems items

def stripMembers (image : Bool) : Members → Members
  | [] => []
  | (key, value) :: rest =>
      if image && key = "detail" then stripMembers image rest
      else (key, stripResponsesLiteImageDetails value) :: stripMembers image rest

end

/-- The tools and the instructions, as input items. -/
def litePrefix (body : Members) : List Json :=
  let tools := (((body.lookup "tools").bind Json.array?).getD []).filter fun tool =>
    !(tool.isRecord && tool.type? = some "web_search")
  let instructions := ((body.lookup "instructions").bind Json.string?).filter (· ≠ "")
  .obj [("type", .str "additional_tools"), ("role", .str "developer"), ("tools", .arr tools)] ::
    (instructions.map fun text =>
      .obj [("type", .str "message"), ("role", .str "developer"),
        ("content", .arr [.obj [("type", .str "input_text"), ("text", .str text)]])]).toList

def rewriteResponsesLiteBody (body : Members) : Members :=
  let reasoning := (reasoningOf body).map Json.members
  ((((body.set "reasoning" (.obj ((reasoning.getD []).set "context" (.str "all_turns")))).set
    "parallel_tool_calls" (.bool false)).set
      "input" (.arr (litePrefix body ++ stripItems ((inputOf body).getD [])))).erase
        "tools").erase "instructions"

def codexBodyKeyOrder : List String :=
  ["type", "model", "instructions", "previous_response_id", "input", "tools", "tool_choice",
    "parallel_tool_calls", "reasoning", "store", "stream", "include", "prompt_cache_key", "text",
    "generate", "client_metadata"]

def orderCodexBody (body : Members) : Members :=
  (codexBodyKeyOrder.filterMap fun key => (body.lookup key).map fun value => (key, value)) ++
    body.filter fun member => member.1 ∉ codexBodyKeyOrder

/-- The members that spreading a value brings. -/
def spreadable : Json → Members
  | .obj members => members
  | .arr items => items.zipIdx.map fun item => (toString item.2, item.1)
  | _ => []

/-- The body before the effort rule. -/
def shapeBody (request : CodexRequest) (body : Members) : Members :=
  let body := body.set "prompt_cache_key" (.str request.threadID)
  let body := match body.lookup "parallel_tool_calls" with
    | none | some .null => body.set "parallel_tool_calls" (.bool true)
    | some _ => body
  match (body.lookup "tools").bind Json.array? with
  | some tools => body.set "tools" (.arr (tools.map normalizeCodexTool))
  | none => body

def clientMetadata (request : CodexRequest) (lite : Bool) (body : Members) : Members :=
  let socket := if request.websocket then
      [("x-codex-turn-metadata", some (.str request.turnMetadata)),
        ("x-codex-ws-stream-request-start-ms", some (.str request.requestStartMs)),
        ("ws_request_header_x_openai_internal_codex_responses_lite",
          if lite then some (.str "true") else none)]
    else []
  (((body.lookup "client_metadata").map spreadable).getD []).spread
    (Members.literal (("x-codex-installation-id", some (.str request.installationID)) ::
      ("x-codex-window-id", some (.str request.windowID)) :: socket))

/-- `prepareCodexRequest`, as far as the body goes; `applyEffort` may change what it keeps. -/
def prepareCodexRequest {σ : Type} (request : CodexRequest) (applyEffort : Members → Members × σ)
    (body : Members) : Members × σ :=
  let lite := request.useResponsesLite body
  let applied := applyEffort (shapeBody request body)
  let body := if lite then rewriteResponsesLiteBody applied.1 else applied.1
  (orderCodexBody (body.set "client_metadata" (.obj (clientMetadata request lite body))), applied.2)

/-! ## The rule -/

inductive WireForm where
  | http
  | ws
deriving DecidableEq, Repr

/-- The models that the host carries an effort change for. -/
def hostEffortUpdateModel (model : String) : Bool :=
  ["gpt-6-astra", "gpt-6-sol", "gpt-6-luna"].any fun name =>
    name.toList <:+ model.toLower.toList &&
      (model.length = name.length || ("/" ++ name).toList <:+ model.toLower.toList)

/-- Whether the rule takes part in a request. -/
def takesPart (kind : String) (body : Members) : Bool :=
  kind = "primary" && modelOf body ∈ midConversationEffortModels &&
    !hostEffortUpdateModel (modelOf body)

/-- One body with the session's pinned effort; the effort that is pinned then is the second
component. -/
def applyEffort (kind : String) (form : WireForm) (pinned : Option String) (body : Members) :
    Members × Option String :=
  if !takesPart kind body then (body, pinned)
  else
    match (requestEffort body).filter (· ≠ ""), pinned with
    | none, _ => (body, pinned)
    | some effort, none => (body, some effort)
    | some effort, some first =>
        if effort = first then (body, pinned)
        else
          let input := (inputOf body).getD []
          if input = [] then (body, pinned)
          else
            let kept := setEffort ((reasoningOf body).getD .null) first body
            match findLastIndex isUserMessage input with
            | none => if form = .http then (body, pinned) else (kept, pinned)
            | some anchor =>
                if (if anchor = 0 then none else input[anchor - 1]?).any isConfigurationUpdate then
                  (kept, pinned)
                else (kept.set "input" (.arr (splice anchor (configurationUpdate effort) input)), pinned)

/-- Whether a frame's input as sent is the host's, or that with one update before a user
message. -/
def frameInputKept (host sent : Option Json) : Bool :=
  if host = sent then true
  else
    match host.bind Json.array?, sent.bind Json.array? with
    | some host, some sent =>
        sent.length = host.length + 1 &&
          (((List.range sent.length).find? fun i => sent[i]? ≠ host[i]?).any fun anchor =>
            sent[anchor]?.any isConfigurationUpdate && sent[anchor + 1]?.any isUserMessage &&
              sent.drop (anchor + 1) = host.drop anchor)
    | _, _ => false

/-- The frame that is sent, and the pinned effort; `none` where the frame is no request. -/
def rewriteCodexFrame (request : CodexRequest) (kind : String) (pinned : Option String)
    (frame : Members) : Option (Members × Option String) :=
  if frame.lookup "type" ≠ some (.str "response.create") then none
  else
    let body := frame.erase "max_output_tokens"
    let prepared := prepareCodexRequest { request with websocket := true, responsesLite := false }
      (applyEffort kind .ws pinned) body
    if frameInputKept (body.lookup "input") (prepared.1.lookup "input") then some prepared
    else some (prepared.1.put "input" (body.lookup "input"), prepared.2)

def rewriteCodexHttpRequest (request : CodexRequest) (kind : String) (pinned : Option String)
    (body : Members) : Members × Option String :=
  prepareCodexRequest { request with websocket := false } (applyEffort kind .http pinned)
    (body.erase "max_output_tokens")

/-! ## The server and the host -/

/-- What the server keeps of a request, and the effort the host asked for in it. -/
structure Response where
  context : List Json
  asked : Option String

structure Session where
  pinned : Option String := none
  responses : Table Response := .empty

def previousResponse (body : Members) : Option String :=
  (body.lookup "previous_response_id").bind Json.string?

/-- The conversation that a request continues. -/
def Session.chained (s : Session) (body : Members) : List Json :=
  (((previousResponse body).bind s.responses.get).map (·.context)).getD []

/-- What the model is given. -/
def Session.context (s : Session) (sent : Members) : List Json :=
  s.chained sent ++ (inputOf sent).getD []

def send (request : CodexRequest) (kind : String) (form : WireForm) (pinned : Option String)
    (body : Members) : Option (Members × Option String) :=
  match form with
  | .http => some (rewriteCodexHttpRequest request kind pinned body)
  | .ws => rewriteCodexFrame request kind pinned body

/-- The pin is evicted, or a request is sent and answered by `response`, if it is. -/
inductive Event where
  | evict
  | request (request : CodexRequest) (kind : String) (form : WireForm) (body : Members)
      (response : Option String)

def Session.step (s : Session) : Event → Option Session
  | .evict => some { s with pinned := none }
  | .request request kind form body response =>
      (send request kind form s.pinned body).map fun sent =>
        { pinned := sent.2
          responses := match response with
            | some id => s.responses.set id ⟨s.context sent.1, requestEffort body⟩
            | none => s.responses }

/-- The host brings no configuration update of its own, and continues a conversation only
with the effort of the request that it continues. -/
structure Continues (s : Session) (body : Members) : Prop where
  plain : Plain ((inputOf body).getD [])
  asked : ∀ id response, previousResponse body = some id → s.responses.get id = some response →
    response.asked = requestEffort body

inductive Reached : Session → Prop
  | start : Reached {}
  | step {s s' : Session} {e : Event} (h : Reached s)
      (hhost : ∀ request kind form body response, e = .request request kind form body response →
        Continues s body) (hstep : s.step e = some s') : Reached s'

/-! ## What shaping keeps -/

theorem lookup_filterMap_keys (keys : List String) (body : Members) (key : String) :
    (keys.filterMap fun k => (body.lookup k).map fun value => (k, value)).lookup key =
      if key ∈ keys then body.lookup key else none := by
  induction keys with
  | nil => simp
  | cons k rest ih =>
      cases hk : body.lookup k with
      | none =>
          rw [List.filterMap_cons_none (by rw [hk]; rfl), ih]
          by_cases heq : key = k
          · subst heq
            simp [hk]
          · simp [heq]
      | some value =>
          rw [List.filterMap_cons_some (by rw [hk]; rfl), List.lookup_cons]
          by_cases heq : key = k
          · subst heq
            simp [hk]
          · have hne : (key == k) = false := by simpa using heq
            rw [hne, ih]
            simp [heq]

@[simp] theorem lookup_orderCodexBody (body : Members) (key : String) :
    (orderCodexBody body).lookup key = body.lookup key := by
  rw [orderCodexBody, List.lookup_append, lookup_filterMap_keys]
  by_cases hknown : key ∈ codexBodyKeyOrder
  · have hrest : (body.filter fun member => member.1 ∉ codexBodyKeyOrder).lookup key = none := by
      rw [List.lookup_eq_none_iff]
      intro member hmem
      have hnot := of_decide_eq_true (List.mem_filter.mp hmem).2
      rw [bne_iff_ne]
      rintro rfl
      exact hnot hknown
    rw [if_pos hknown, hrest, Option.or_none]
  · rw [if_neg hknown, Option.none_or]
    induction body with
    | nil => rfl
    | cons member rest ih =>
        obtain ⟨k, value⟩ := member
        by_cases hk : k ∈ codexBodyKeyOrder
        · have hne : (key == k) = false := by
            rw [beq_eq_false_iff_ne]
            rintro rfl
            exact hknown hk
          rw [List.filter_cons_of_neg (by simpa using hk), List.lookup_cons, hne, ih]
        · rw [List.filter_cons_of_pos (by simpa using hk), List.lookup_cons, List.lookup_cons, ih]

theorem lookup_shapeBody {request : CodexRequest} {body : Members} {key : String}
    (h : key ∉ ["prompt_cache_key", "parallel_tool_calls", "tools"]) :
    (shapeBody request body).lookup key = body.lookup key := by
  simp only [List.mem_cons, List.not_mem_nil, or_false, not_or] at h
  obtain ⟨hcache, hparallel, htools⟩ := h
  unfold shapeBody
  dsimp only
  split
  · split <;> simp [Members.lookup_set_of_ne, hcache, hparallel, htools]
  · split <;> simp [Members.lookup_set_of_ne, hcache, hparallel]

/-- What the rule and the server read of a body. -/
structure SameTalk (body body' : Members) : Prop where
  model : body'.lookup "model" = body.lookup "model"
  reasoning : body'.lookup "reasoning" = body.lookup "reasoning"
  input : body'.lookup "input" = body.lookup "input"
  previous : body'.lookup "previous_response_id" = body.lookup "previous_response_id"

theorem sameTalk_shape (request : CodexRequest) (body : Members) :
    SameTalk body (shapeBody request (body.erase "max_output_tokens")) := by
  have hkey : ∀ key, key ∉ ["prompt_cache_key", "parallel_tool_calls", "tools"] →
      key ≠ "max_output_tokens" →
        (shapeBody request (body.erase "max_output_tokens")).lookup key = body.lookup key :=
    fun key hshape hcap => (lookup_shapeBody hshape).trans (Members.lookup_erase_of_ne hcap body)
  exact ⟨hkey _ (by decide) (by decide), hkey _ (by decide) (by decide),
    hkey _ (by decide) (by decide), hkey _ (by decide) (by decide)⟩

section SameTalk

variable {body body' : Members} (h : SameTalk body body')

include h

theorem SameTalk.requestEffort : requestEffort body' = requestEffort body := by
  rw [Effort.requestEffort, reasoningOf, h.reasoning]
  rfl

theorem SameTalk.inputOf : inputOf body' = inputOf body := by
  rw [Effort.inputOf, h.input]
  rfl

theorem SameTalk.takesPart (kind : String) : takesPart kind body' = takesPart kind body := by
  rw [Effort.takesPart, modelOf, h.model]
  rfl

end SameTalk

/-! ## What the rule does -/

/-- The input is the host's, or that with one update right before a user message. -/
def KeptInput (host sent : Option Json) : Prop :=
  sent = host ∨ ∃ before item after effort, host = some (.arr (before ++ item :: after)) ∧
    isUserMessage item = true ∧
      sent = some (.arr (before ++ configurationUpdate effort :: item :: after))

/-- The rule has its way: the request stays as it is; a frame without a user message gets the
pinned effort; or the update goes in front of a user message. -/
inductive Ruled (kind : String) (form : WireForm) (pinned : Option String) (body : Members) :
    Members → Prop
  | same : Ruled kind form pinned body body
  | kept {first : String} {reasoning : Json} (hform : form = .ws)
      (htakes : takesPart kind body = true) (hpinned : pinned = some first)
      (heffort : ∃ effort, requestEffort body = some effort ∧ effort ≠ "" ∧ effort ≠ first)
      (hinput : (inputOf body).getD [] ≠ [])
      (hnone : findLastIndex isUserMessage ((inputOf body).getD []) = none) :
      Ruled kind form pinned body (setEffort reasoning first body)
  | inserted {first effort : String} {reasoning item : Json} {before after : List Json}
      (heffort : requestEffort body = some effort)
      (hinput : inputOf body = some (before ++ item :: after)) (huser : isUserMessage item = true) :
      Ruled kind form pinned body ((setEffort reasoning first body).set "input"
        (.arr (before ++ configurationUpdate effort :: item :: after)))

theorem splice_at {anchor : ℕ} {input : List Json} {item : Json} (update : Json)
    (h : input[anchor]? = some item) : ∃ before after, input = before ++ item :: after ∧
      splice anchor update input = before ++ update :: item :: after := by
  obtain ⟨hlt, rfl⟩ := List.getElem?_eq_some_iff.mp h
  refine ⟨input.take anchor, input.drop (anchor + 1), ?_, ?_⟩
  · rw [← List.drop_eq_getElem_cons hlt, List.take_append_drop]
  · rw [splice, List.drop_eq_getElem_cons hlt]

theorem applyEffort_ruled {kind : String} {form : WireForm} {pinned : Option String}
    {body : Members} (hplain : Plain ((inputOf body).getD [])) :
    Ruled kind form pinned body (applyEffort kind form pinned body).1 := by
  unfold applyEffort
  split
  · exact .same
  · rename_i htakes
    have htakes : takesPart kind body = true := by simpa using htakes
    split
    · exact .same
    · exact .same
    · rename_i effort first heffort
      obtain ⟨heffort, hne⟩ := Option.filter_eq_some_iff.mp heffort
      split
      · exact .same
      · rename_i hfirst
        dsimp only
        split
        · exact .same
        · rename_i hinput
          split
          · rename_i hnone
            split
            · exact .same
            · rename_i hform
              refine .kept ?_ htakes rfl ⟨effort, heffort, of_decide_eq_true hne, hfirst⟩ hinput hnone
              cases form with
              | http => exact (hform rfl).elim
              | ws => rfl
          · rename_i anchor hlast
            obtain ⟨item, hget, huser⟩ := findLastIndex_get hlast
            have hbefore : ((if anchor = 0 then none else ((inputOf body).getD [])[anchor - 1]?).any
                isConfigurationUpdate) = false := by
              split
              · rfl
              · cases hother : ((inputOf body).getD [])[anchor - 1]? with
                | none => rfl
                | some other => exact hplain other (List.mem_of_getElem? hother)
            rw [hbefore, if_neg Bool.false_ne_true]
            obtain ⟨before, after, hsplit, hsplice⟩ := splice_at
              (configurationUpdate effort) hget
            rw [hsplice]
            refine .inserted heffort ?_ huser
            cases hbody : inputOf body with
            | none =>
                rw [hbody] at hinput
                exact (hinput rfl).elim
            | some input =>
                rw [hbody, Option.getD_some] at hsplit
                rw [hsplit]

/-! ### Lite -/

theorem lookup_stripMembers {image : Bool} {members : Members} {key : String} (h : key ≠ "detail") :
    (stripMembers image members).lookup key =
      (members.lookup key).map stripResponsesLiteImageDetails := by
  induction members with
  | nil => rfl
  | cons member rest ih =>
      obtain ⟨k, value⟩ := member
      rw [stripMembers]
      split_ifs with hdetail
      · have hk : k = "detail" := by
          rw [Bool.and_eq_true, decide_eq_true_eq] at hdetail
          exact hdetail.2
        have hne : (key == k) = false := by
          rw [hk]
          simpa using h
        rw [ih, List.lookup_cons, hne]
      · by_cases heq : key = k
        · subst heq
          simp
        · have hne : (key == k) = false := by simpa using heq
          rw [List.lookup_cons, List.lookup_cons, hne, ih]

@[simp] theorem isRecord_strip (value : Json) :
    (stripResponsesLiteImageDetails value).isRecord = value.isRecord := by
  cases value <;> simp [stripResponsesLiteImageDetails, Json.isRecord]

theorem get?_strip {value : Json} {key : String} (h : key ≠ "detail") :
    (stripResponsesLiteImageDetails value).get? key =
      (value.get? key).map stripResponsesLiteImageDetails := by
  cases value with
  | obj members => exact lookup_stripMembers h
  | _ => simp [stripResponsesLiteImageDetails, Json.get?]

theorem stringAt?_strip {value : Json} {key : String} (h : key ≠ "detail") :
    (stripResponsesLiteImageDetails value).stringAt? key = value.stringAt? key := by
  rw [Json.stringAt?, Json.stringAt?, get?_strip h]
  cases value.get? key with
  | none => rfl
  | some member => cases member <;> simp [stripResponsesLiteImageDetails, Json.string?]

/-- Lite leaves the updates as they are. -/
theorem updateEffort_strip (item : Json) :
    updateEffort (stripResponsesLiteImageDetails item) = updateEffort item := by
  have htype : (stripResponsesLiteImageDetails item).type? = item.type? := stringAt?_strip (by decide)
  have hreasoning : ((stripResponsesLiteImageDetails item).recordAt? "reasoning").bind
      (·.stringAt? "effort") = (item.recordAt? "reasoning").bind (·.stringAt? "effort") := by
    rw [Json.recordAt?, Json.recordAt?, get?_strip (by decide)]
    cases item.get? "reasoning" with
    | none => rfl
    | some reasoning =>
        cases hrecord : reasoning.isRecord with
        | false => simp [Option.filter, hrecord]
        | true => simp [Option.filter, hrecord, stringAt?_strip]
  rw [updateEffort, updateEffort, isConfigurationUpdate, isConfigurationUpdate, isRecord_strip, htype,
    hreasoning]

theorem updateEffort_stripItems (items : List Json) :
    (stripItems items).filterMap updateEffort = items.filterMap updateEffort := by
  induction items with
  | nil => rfl
  | cons item rest ih => rw [stripItems, List.filterMap_cons, List.filterMap_cons, updateEffort_strip, ih]

theorem updateEffort_litePrefix (body : Members) : (litePrefix body).filterMap updateEffort = [] := by
  have hplain : Plain (litePrefix body) := by
    intro item hmem
    rw [litePrefix, List.mem_cons, Option.mem_toList, Option.map_eq_some_iff] at hmem
    rcases hmem with rfl | ⟨text, -, rfl⟩
    · rfl
    · rfl
  exact updateEffort_plain hplain

/-! ### A request as it is sent -/

theorem frameInputKept_of_kept {host sent : Option Json} (h : KeptInput host sent) :
    frameInputKept host sent = true := by
  unfold frameInputKept
  rcases h with rfl | ⟨before, item, after, effort, rfl, huser, rfl⟩
  · rw [if_pos rfl]
  · split
    · rfl
    · have hne : configurationUpdate effort ≠ item := by
        rintro rfl
        cases huser
      -- the first item that differs is the update
      have hfirst : ((List.range (before ++ configurationUpdate effort :: item :: after).length).find?
          fun i => (before ++ configurationUpdate effort :: item :: after)[i]? ≠
            (before ++ item :: after)[i]?) = some before.length := by
        rw [List.find?_range_eq_some]
        refine ⟨?_, ?_, ?_⟩
        · simpa using hne
        · simp
        · intro j hj
          simp [List.getElem?_append_left hj]
      dsimp only [Option.bind_some, Json.array?]
      rw [hfirst]
      simp [huser]
      omega

/-- The shape that a request takes over HTTP or in a frame. -/
def CodexRequest.on (request : CodexRequest) : WireForm → CodexRequest
  | .http => { request with websocket := false }
  | .ws => { request with websocket := true, responsesLite := false }

/-- The host's body in its shape, before the rule. -/
def shaped (request : CodexRequest) (form : WireForm) (body : Members) : Members :=
  shapeBody (request.on form) (body.erase "max_output_tokens")

theorem sameTalk_shaped (request : CodexRequest) (form : WireForm) (body : Members) :
    SameTalk body (shaped request form body) :=
  sameTalk_shape _ _

/-- Whether a request goes out in the Lite shape. -/
def goesLite (request : CodexRequest) (form : WireForm) (body : Members) : Bool :=
  form = .http && request.useResponsesLite (body.erase "max_output_tokens")

/-- The request that is sent, next to what the rule made of the shaped body. -/
structure Shaped (request : CodexRequest) (form : WireForm) (body applied sent : Members) :
    Prop where
  effort : requestEffort sent = requestEffort applied
  previous : sent.lookup "previous_response_id" = applied.lookup "previous_response_id"
  input : sent.lookup "input" =
    if goesLite request form body then
      some (.arr (litePrefix applied ++ stripItems ((inputOf applied).getD [])))
    else applied.lookup "input"

theorem requestEffort_lite (body : Members) :
    requestEffort (rewriteResponsesLiteBody body) = requestEffort body := by
  have hreasoning : reasoningOf (rewriteResponsesLiteBody body) =
      some (.obj ((((reasoningOf body).map Json.members).getD []).set "context" (.str "all_turns"))) := by
    rw [reasoningOf, rewriteResponsesLiteBody, Members.lookup_erase_of_ne (by decide),
      Members.lookup_erase_of_ne (by decide), Members.lookup_set_of_ne (by decide),
      Members.lookup_set_of_ne (by decide), Members.lookup_set_self]
    rfl
  rw [requestEffort, requestEffort, hreasoning, Option.bind_some, Json.stringAt?, Json.get?_obj,
    Members.lookup_set_of_ne (by decide)]
  cases hbody : reasoningOf body with
  | none => rfl
  | some reasoning =>
      rw [Option.map_some, Option.getD_some, Json.lookup_members]
      rfl

theorem prepare_shaped {request : CodexRequest} {form : WireForm} {body : Members} {σ : Type}
    (rule : Members → Members × σ) (hlite : request.useResponsesLite
      (body.erase "max_output_tokens") = goesLite request form body) :
    Shaped request form body
      (rule (shapeBody request (body.erase "max_output_tokens"))).1
      (prepareCodexRequest request rule (body.erase "max_output_tokens")).1 := by
  have hlookup : ∀ key, key ≠ "client_metadata" →
      (prepareCodexRequest request rule (body.erase "max_output_tokens")).1.lookup key =
        (if goesLite request form body then
          rewriteResponsesLiteBody (rule (shapeBody request (body.erase "max_output_tokens"))).1
        else (rule (shapeBody request (body.erase "max_output_tokens"))).1).lookup key := by
    intro key hkey
    rw [prepareCodexRequest, hlite]
    dsimp only
    rw [lookup_orderCodexBody, Members.lookup_set_of_ne hkey]
  generalize (rule (shapeBody request (body.erase "max_output_tokens"))).1 = applied at hlookup ⊢
  refine ⟨?_, ?_, ?_⟩
  · rw [requestEffort, reasoningOf, hlookup _ (by decide)]
    split_ifs
    · exact requestEffort_lite applied
    · rfl
  · rw [hlookup _ (by decide)]
    split_ifs
    · rw [rewriteResponsesLiteBody, Members.lookup_erase_of_ne (by decide),
        Members.lookup_erase_of_ne (by decide), Members.lookup_set_of_ne (by decide),
        Members.lookup_set_of_ne (by decide), Members.lookup_set_of_ne (by decide)]
    · rfl
  · rw [hlookup _ (by decide)]
    split_ifs
    · rw [rewriteResponsesLiteBody, Members.lookup_erase_of_ne (by decide),
        Members.lookup_erase_of_ne (by decide), Members.lookup_set_self]
    · rfl

theorem Ruled.keptInput {kind : String} {form : WireForm} {pinned : Option String}
    {body applied : Members} (h : Ruled kind form pinned body applied) :
    KeptInput (body.lookup "input") (applied.lookup "input") := by
  cases h with
  | same => exact .inl rfl
  | kept => exact .inl (Members.lookup_set_of_ne (by decide) _ _)
  | @inserted _ effort _ item before after heffort hinput huser =>
      refine .inr ⟨before, item, after, effort, ?_, huser, Members.lookup_set_self _ _ _⟩
      obtain ⟨value, hvalue, harray⟩ := Option.bind_eq_some_iff.mp hinput
      cases value with
      | arr items =>
          cases harray
          exact hvalue
      | _ => cases harray

theorem Ruled.previous {kind : String} {form : WireForm} {pinned : Option String}
    {body applied : Members} (h : Ruled kind form pinned body applied) :
    applied.lookup "previous_response_id" = body.lookup "previous_response_id" := by
  cases h with
  | same => rfl
  | kept => exact Members.lookup_set_of_ne (by decide) _ _
  | inserted => rw [Members.lookup_set_of_ne (by decide), setEffort, Members.lookup_set_of_ne (by decide)]

theorem Ruled.litePrefix {kind : String} {form : WireForm} {pinned : Option String}
    {body applied : Members} (h : Ruled kind form pinned body applied) :
    litePrefix applied = litePrefix body := by
  have hkey : ∀ key, key ≠ "reasoning" → key ≠ "input" → applied.lookup key = body.lookup key := by
    intro key hreasoning hinput
    cases h with
    | same => rfl
    | kept => exact Members.lookup_set_of_ne hreasoning _ _
    | inserted =>
        rw [Members.lookup_set_of_ne hinput, setEffort, Members.lookup_set_of_ne hreasoning]
  rw [Effort.litePrefix, Effort.litePrefix, hkey _ (by decide) (by decide),
    hkey _ (by decide) (by decide)]

/-- What is sent is what the rule made of the shaped body; the frame's input is never put
back. -/
theorem send_shaped {request : CodexRequest} {kind : String} {form : WireForm}
    {pinned pinned' : Option String} {body sent : Members}
    (hplain : Plain ((inputOf body).getD []))
    (h : send request kind form pinned body = some (sent, pinned')) :
    ∃ applied, Ruled kind form pinned (shaped request form body) applied ∧
      Shaped request form body applied sent := by
  have htalk := sameTalk_shaped request form body
  have hruled : Ruled kind form pinned (shaped request form body)
      (applyEffort kind form pinned (shaped request form body)).1 :=
    applyEffort_ruled (htalk.inputOf ▸ hplain)
  refine ⟨_, hruled, ?_⟩
  cases form with
  | http =>
      obtain ⟨rfl, -⟩ := Prod.mk.inj (Option.some.inj h)
      have hshaped : Shaped (request.on .http) .http body _ _ :=
        prepare_shaped (applyEffort kind .http pinned) rfl
      exact ⟨hshaped.effort, hshaped.previous, hshaped.input⟩
  | ws =>
      have hshaped : Shaped (request.on .ws) .ws body _ _ :=
        prepare_shaped (applyEffort kind .ws pinned) rfl
      have hinput : frameInputKept ((body.erase "max_output_tokens").lookup "input")
          ((prepareCodexRequest (request.on .ws) (applyEffort kind .ws pinned)
            (body.erase "max_output_tokens")).1.lookup "input") = true := by
        refine frameInputKept_of_kept ?_
        rw [hshaped.input, Members.lookup_erase_of_ne (by decide), ← htalk.input]
        exact hruled.keptInput
      rw [send, rewriteCodexFrame] at h
      split at h
      · cases h
      · dsimp only at h
        rw [CodexRequest.on] at hinput
        rw [if_pos hinput] at h
        obtain ⟨rfl, -⟩ := Prod.mk.inj (Option.some.inj h)
        exact ⟨hshaped.effort, hshaped.previous, hshaped.input⟩

/-! ## What the server holds -/

/-- The last update of each conversation is the effort that its request asked for. -/
def UpdatesAsked (s : Session) : Prop :=
  ∀ id response, s.responses.get id = some response →
    ∀ effort ∈ (response.context.filterMap updateEffort).getLast?, response.asked = some effort

/-- A frame with another effort than the pinned one has no user message to put the update
before, and what it continues holds none. -/
structure Unannounced (s : Session) (kind : String) (form : WireForm) (body : Members) : Prop where
  socket : form = .ws
  takes : takesPart kind body = true
  pinned : ∃ first effort, s.pinned = some first ∧ requestEffort body = some effort ∧
    effort ≠ "" ∧ effort ≠ first
  input : (inputOf body).getD [] ≠ []
  user : ∀ item ∈ (inputOf body).getD [], isUserMessage item = false
  chained : (s.chained body).filterMap updateEffort = []

/-- The updates of the input that is sent are those of the rule's. -/
theorem Shaped.updates {request : CodexRequest} {form : WireForm} {body applied sent : Members}
    (h : Shaped request form body applied sent) :
    ((inputOf sent).getD []).filterMap updateEffort =
      ((inputOf applied).getD []).filterMap updateEffort := by
  rw [inputOf, h.input]
  split_ifs
  · rw [Option.bind_some, Json.array?, Option.getD_some, List.filterMap_append,
      updateEffort_litePrefix, updateEffort_stripItems, List.nil_append]
  · rfl

theorem Session.chained_congr {s : Session} {body sent : Members}
    (h : sent.lookup "previous_response_id" = body.lookup "previous_response_id") :
    s.chained sent = s.chained body := by
  rw [Session.chained, previousResponse, h]
  rfl

/-- What a request continues asked for its own effort last, if for any. -/
theorem Continues.chained {s : Session} {body : Members} (h : Continues s body)
    (hs : UpdatesAsked s) : ∀ effort ∈ ((s.chained body).filterMap updateEffort).getLast?,
      requestEffort body = some effort := by
  intro effort hlast
  rw [Session.chained] at hlast
  cases hid : previousResponse body with
  | none =>
      rw [hid] at hlast
      cases hlast
  | some id =>
      cases hget : s.responses.get id with
      | none =>
          rw [hid, Option.bind_some, hget] at hlast
          cases hlast
      | some response =>
          rw [hid, Option.bind_some, hget] at hlast
          rw [← h.asked id response hid hget]
          exact hs id response hget effort hlast

section Send

variable {s : Session} {request : CodexRequest} {kind : String} {form : WireForm}
  {body sent : Members} {pinned' : Option String}

/-- The updates in a request's conversation end in the effort it asks for; without any, the
request itself asks for it, unless the frame is unannounced. -/
theorem send_updates (hs : UpdatesAsked s) (hhost : Continues s body)
    (hsend : send request kind form s.pinned body = some (sent, pinned')) :
    (∀ effort ∈ ((s.context sent).filterMap updateEffort).getLast?,
      requestEffort body = some effort) ∧
    (((s.context sent).filterMap updateEffort) = [] → ¬ Unannounced s kind form body →
      requestEffort sent = requestEffort body) := by
  obtain ⟨applied, hruled, hshaped⟩ := send_shaped hhost.plain hsend
  have htalk := sameTalk_shaped request form body
  have hcontext : (s.context sent).filterMap updateEffort =
      (s.chained body).filterMap updateEffort ++
        ((inputOf applied).getD []).filterMap updateEffort := by
    rw [Session.context, List.filterMap_append, hshaped.updates,
      Session.chained_congr ((hshaped.previous.trans hruled.previous).trans htalk.previous)]
  have hplain : ((inputOf (shaped request form body)).getD []).filterMap updateEffort = [] := by
    rw [htalk.inputOf]
    exact updateEffort_plain hhost.plain
  rw [hcontext, hshaped.effort]
  cases hruled with
  | same =>
      rw [hplain, List.append_nil, htalk.requestEffort]
      exact ⟨hhost.chained hs, fun _ _ => rfl⟩
  | kept hform htakes hpinned heffort hinput hnone =>
      rw [inputOf_setEffort, hplain, List.append_nil]
      refine ⟨hhost.chained hs, fun hnil hannounced => (hannounced ?_).elim⟩
      rw [htalk.inputOf] at hinput hnone
      rw [htalk.takesPart] at htakes
      rw [htalk.requestEffort] at heffort
      obtain ⟨effort, heffort, hne, hfirst⟩ := heffort
      exact ⟨hform, htakes, ⟨_, effort, hpinned, heffort, hne, hfirst⟩, hinput,
        findLastIndex_eq_none.mp hnone, hnil⟩
  | @inserted _ effort _ item before after heffort hinput huser =>
      -- the update comes last, as the host's own items are none
      have hsplit : (before ++ item :: after).filterMap updateEffort = [] := by
        rw [hinput] at hplain
        exact hplain
      rw [List.filterMap_append, List.append_eq_nil_iff] at hsplit
      have hlast : (before ++ configurationUpdate effort :: item :: after).filterMap updateEffort =
          [effort] := by
        rw [List.filterMap_append, hsplit.1, List.nil_append,
          List.filterMap_cons_some (updateEffort_configurationUpdate _), hsplit.2]
      rw [inputOf_set, Option.getD_some, hlast]
      refine ⟨?_, ?_⟩
      · intro other hother
        rw [List.getLast?_concat, Option.mem_some_iff] at hother
        rw [← hother, ← htalk.requestEffort]
        exact heffort
      · intro hnil
        simp at hnil

theorem send_inForce (hs : UpdatesAsked s) (hhost : Continues s body)
    (hsend : send request kind form s.pinned body = some (sent, pinned'))
    (hannounced : ¬ Unannounced s kind form body) :
    effortInForce (s.context sent) (requestEffort sent) = requestEffort body := by
  obtain ⟨hupdates, hnone⟩ := send_updates hs hhost hsend
  rw [effortInForce]
  cases hlast : ((s.context sent).filterMap updateEffort).getLast? with
  | none => exact hnone (List.getLast?_eq_none_iff.mp hlast) hannounced
  | some effort => exact (hupdates effort hlast).symm

/-- The input and what it continues are the host's, but for the update and the Lite shape. -/
theorem send_input (hplain : Plain ((inputOf body).getD []))
    (hsend : send request kind form s.pinned body = some (sent, pinned')) :
    sent.lookup "previous_response_id" = body.lookup "previous_response_id" ∧
    ∃ kept, KeptInput (body.lookup "input") kept ∧
      sent.lookup "input" =
        if goesLite request form body then
          some (.arr (litePrefix (shaped request form body) ++
            stripItems ((kept.bind Json.array?).getD [])))
        else kept := by
  obtain ⟨applied, hruled, hshaped⟩ := send_shaped hplain hsend
  have htalk := sameTalk_shaped request form body
  refine ⟨(hshaped.previous.trans hruled.previous).trans htalk.previous,
    applied.lookup "input", htalk.input ▸ hruled.keptInput, ?_⟩
  rw [hshaped.input, hruled.litePrefix]
  rfl

end Send

/-! ## Runs -/

theorem step_updatesAsked {s s' : Session} {e : Event} (hs : UpdatesAsked s)
    (hhost : ∀ request kind form body response, e = .request request kind form body response →
      Continues s body) (hstep : s.step e = some s') : UpdatesAsked s' := by
  cases e with
  | evict =>
      cases hstep
      exact hs
  | request request kind form body response =>
      obtain ⟨⟨sent, pinned'⟩, hsend, rfl⟩ := Option.map_eq_some_iff.mp hstep
      cases response with
      | none => exact hs
      | some id =>
          intro id' response hget
          dsimp only at hget
          rw [Table.get_set] at hget
          split_ifs at hget with heq
          · cases hget
            exact (send_updates hs (hhost _ _ _ _ _ rfl) hsend).1
          · exact hs id' response hget

theorem Reached.updatesAsked {s : Session} (h : Reached s) : UpdatesAsked s := by
  induction h with
  | start =>
      intro id response hget
      cases hget
  | step _ hhost hstep ih => exact step_updatesAsked ih hhost hstep

/-- In every run of a session's requests over HTTP and WebSocket, with the pin evicted at any
time: the effort in force is the one asked for, unless the frame is unannounced; the input is
the host's but for one update before a user message, in the Lite shape where that is on; and
the request continues the same response. -/
theorem effort_wire {s : Session} {request : CodexRequest} {kind : String} {form : WireForm}
    {body sent : Members} {pinned' : Option String} (h : Reached s) (hhost : Continues s body)
    (hsend : send request kind form s.pinned body = some (sent, pinned')) :
    (¬ Unannounced s kind form body →
      effortInForce (s.context sent) (requestEffort sent) = requestEffort body) ∧
    (∃ kept, KeptInput (body.lookup "input") kept ∧
      sent.lookup "input" =
        if goesLite request form body then
          some (.arr (litePrefix (shaped request form body) ++
            stripItems ((kept.bind Json.array?).getD [])))
        else kept) ∧
    sent.lookup "previous_response_id" = body.lookup "previous_response_id" := by
  obtain ⟨hprevious, hinput⟩ := send_input hhost.plain hsend
  exact ⟨send_inForce h.updatesAsked hhost hsend, hinput, hprevious⟩

def wireRequest (lite : Bool) : CodexRequest :=
  { threadID := "thread", windowID := "window", installationID := "installation"
    turnMetadata := "metadata", requestStartMs := "0", websocket := false, responsesLite := lite }

def wireBody (effort : String) (input : List Json) (rest : Members) : Members :=
  ("type", .str "response.create") :: ("model", .str "gpt-6.1-sol") ::
    ("reasoning", .obj [("effort", .str effort)]) :: ("input", .arr input) :: rest

def userText (text : String) : Json := .obj [("role", .str "user"), ("content", .str text)]

def toolOutput : Json := .obj [("type", .str "function_call_output"), ("output", .str "done")]

def firstFrame : Members := wireBody "low" [userText "a"] []

def secondFrame : Members := wireBody "high" [userText "a", userText "b"] []

def sendFrame (frame : Members) (response : String) : Event :=
  .request (wireRequest false) "primary" .ws frame (some response)

theorem Reached.frame {s : Session} {frame : Members} (h : Reached s) (hhost : Continues s frame)
    (response : String) : Reached ((s.step (sendFrame frame response)).getD s) := by
  cases hstep : s.step (sendFrame frame response) with
  | none => exact h
  | some s' =>
      refine .step h ?_ hstep
      intro request kind form body _ heq
      cases heq
      exact hhost

/-- The second message asks for a higher effort. -/
def raisedSession : Session :=
  let s := (Session.step {} (sendFrame firstFrame "r1")).getD {}
  (s.step (sendFrame secondFrame "r2")).getD s

theorem plain_wireBody {effort : String} {input : List Json} {rest : Members} (h : Plain input) :
    Plain ((inputOf (wireBody effort input rest)).getD []) := h

theorem plain_userText (text : String) : isConfigurationUpdate (userText text) = false := rfl

theorem plain_toolOutput : isConfigurationUpdate toolOutput = false := rfl

theorem raisedSession_reached : Reached raisedSession := by
  have hfull : ∀ s effort input, Plain input → Continues s (wireBody effort input []) :=
    fun s effort input hplain => ⟨plain_wireBody hplain, fun _ _ hid => by cases hid⟩
  have hfirst : Continues {} firstFrame := hfull _ _ _ (by simp [Plain, plain_userText])
  have hsecond : ∀ s, Continues s secondFrame :=
    fun s => hfull s _ _ (by simp [Plain, plain_userText])
  exact (Reached.start.frame hfirst "r1").frame (hsecond _) "r2"

/-- A tool result in a frame of its own: the update is in what the frame continues. -/
def toolFrame : Members := wireBody "high" [toolOutput] [("previous_response_id", .str "r2")]

theorem effort_wire_toolFrame :
    ∃ sent, send (wireRequest false) "primary" .ws raisedSession.pinned toolFrame = some sent ∧
      requestEffort sent.1 = some "low" ∧
      effortInForce (raisedSession.context sent.1) (requestEffort sent.1) = some "high" := by
  have hsent : (send (wireRequest false) "primary" .ws raisedSession.pinned toolFrame).isSome := by
    decide +kernel
  obtain ⟨sent, hsend⟩ := Option.isSome_iff_exists.mp hsent
  have hlevel : (send (wireRequest false) "primary" .ws raisedSession.pinned toolFrame).map
      (fun sent => requestEffort sent.1) = some (some "low") := by decide +kernel
  have hasked : (raisedSession.responses.get "r2").map (·.asked) = some (some "high") := by
    decide +kernel
  have hupdate : (raisedSession.chained toolFrame).filterMap updateEffort ≠ [] := by decide +kernel
  have hhost : Continues raisedSession toolFrame := by
    refine ⟨plain_wireBody (by simp [Plain, plain_toolOutput]), ?_⟩
    intro id response hid hget
    cases hid
    rw [hget] at hasked
    exact Option.some.inj hasked
  obtain ⟨hforce, -, -⟩ := effort_wire raisedSession_reached hhost hsend
  refine ⟨sent, hsend, ?_, hforce fun hannounced => hupdate hannounced.chained⟩
  rw [hsend] at hlevel
  exact Option.some.inj hlevel

/-- Over HTTP in the Lite shape the tools come first in the input. -/
theorem lite_input : Continues {} firstFrame ∧ takesPart "primary" firstFrame = true ∧
    ∃ sent, send (wireRequest true) "primary" .http none firstFrame = some sent ∧
      ¬ KeptInput (firstFrame.lookup "input") (sent.1.lookup "input") := by
  have hinput : (send (wireRequest true) "primary" .http none firstFrame).map
      (fun sent => sent.1.lookup "input") =
        some (some (.arr [.obj [("type", .str "additional_tools"), ("role", .str "developer"),
          ("tools", .arr [])], userText "a"])) := by decide +kernel
  obtain ⟨sent, hsend, hsent⟩ := Option.map_eq_some_iff.mp hinput
  refine ⟨⟨plain_wireBody (by simp [Plain, plain_userText]), fun _ _ hid => by cases hid⟩,
    by decide +kernel, sent, hsend, ?_⟩
  rw [hsent]
  rintro (heq | ⟨before, item, after, effort, hhost, -, heq⟩)
  · have hfirst : firstFrame.lookup "input" = some (.arr [userText "a"]) := rfl
    rw [hfirst] at heq
    simp at heq
  · have hlength := congrArg List.length (Json.arr.inj (Option.some.inj hhost))
    simp only [List.length_append, List.length_cons, List.length_nil] at hlength
    obtain rfl : before = [] := List.length_eq_zero_iff.mp (by omega)
    simp [configurationUpdate] at heq

end Effort
