import OpenaiAuth.Js.Fields
import OpenaiAuth.Js.Trim
import OpenaiAuth.Sidebar.State
import OpenaiAuth.WebSocket.Stream

/-! # Two classifiers of one refusal

A socket frame or a rejected upgrade is read by `parseRateLimitSignal`, and its
signal becomes windows in `openAiSignalWindows`; the body of an HTTP response is
read by `classifyOpenAiLimitBody`. Both answer whether the account is at a limit,
which window names it, whether its quota is thereby known to be exhausted, and
when it resets. Here they are compared on one value.
-/

namespace Limits

open Js Sidebar WebSocket

/-- The built-ins on dates and numbers. -/
structure Runtime extends Builtins where
  /-- `Date.parse`; `none` for `NaN`. -/
  dateParse : String → Option ℚ
  /-- `Number(text)`; `none` where it is not finite. -/
  number : String → Option ℚ

variable (rt : Runtime)

/-! ## Windows -/

/-- `QUOTA_STALENESS_MS` -/
def quotaStalenessMs : ℚ := 15 * 60000

def freshQuotaEvidence (checkedAt : Option ℚ) (now : ℚ) : Bool :=
  checkedAt.any fun checkedAt => checkedAt ≤ now && now - checkedAt ≤ quotaStalenessMs

def quotaResetAt (value : Option String) : Option ℚ :=
  (value.filter fun value => value ≠ "").bind rt.dateParse

inductive Provenance where
  | reading
  | provider
  | unproven
deriving DecidableEq, Repr

structure LimitWindow where
  window : String
  confirmed : Bool
  confirmedByReading : Bool := false
  resetAt : Option ℚ := none
  observedAt : Option ℚ
  provenance : Provenance
deriving DecidableEq, Repr

/-- The window of a reading that a signal names. -/
def namedWindow (name : String) (reading : Option AccountQuota) : Option QuotaWindow :=
  if name = "primary" then reading.bind fun reading => reading.primary
  else if name = "secondary" then reading.bind fun reading => reading.secondary
  else none

def isNamed (name : String) : Bool := name = "primary" || name = "secondary"

def openAiSignalWindows (parsed : RateLimitSignal) (observedAt : ℚ) (reading : Option AccountQuota)
    (now : ℚ) : List LimitWindow :=
  let named := isNamed parsed.window
  let window := namedWindow parsed.window reading
  let fresh := window.filter fun window => freshQuotaEvidence window.checkedAt now
  let usage := parsed.window = "usage_limit_reached"
  let providerReset := if usage then parsed.resetAt.filter fun resetAt => 0 < resetAt else none
  [{
    window := if named then parsed.window else if usage then "usage" else parsed.window
    confirmed := named || usage
    resetAt := if named then fresh.bind fun window => quotaResetAt rt window.resetsAt else providerReset
    observedAt := if named && fresh.isSome then fresh.bind fun window => window.checkedAt
      else some observedAt
    provenance := if named && fresh.isSome then .reading
      else if providerReset.isSome then .provider else .unproven }]

/-! ## The body of a response -/

inductive LimitKind where
  | quotaExhausted
  | rateLimit
deriving DecidableEq, Repr

/-- The signal of a body; its scope is always the pool. -/
structure LimitSignal where
  account : String
  kind : LimitKind
  reason : String
  status : Option ℚ
  windows : List LimitWindow
  observedAt : ℚ
  retryAfterMs : Option ℚ
deriving DecidableEq, Repr

structure BodyInput where
  account : String
  status : Option ℚ := none
  /-- The `retry-after` header. -/
  retryAfter : Option String := none
  body : Json
  now : ℚ
  reading : Option AccountQuota := none

/-- A text is parsed, and one that cannot be counts as no value. -/
def parsedBody (js : Builtins) : Json → Json
  | .str text => (js.parse text).getD .null
  | value => value

/-- The response of a `response.failed` envelope. -/
def failedResponse (root : Json) : Option Json :=
  if root.type? = some "response.failed" then root.recordAt? "response" else none

/-- The object that names the error. -/
def errorDetail (root : Json) : Json :=
  ((failedResponse root).bind fun failed => failed.recordAt? "error").getD
    ((root.recordAt? "error").getD root)

def limitReason (root : Json) : Option String :=
  let detail := errorDetail root
  let label := ((failedResponse root).bind fun failed => failed.recordAt? "failed").bind fun failed =>
    failed.stringAt? "rate_limit_reached_type"
  let code := detail.stringAt? "code"
  label.or (if (failedResponse root).isSome then code.or detail.type? else detail.type?.or code)

/-- The status given with the body, else one the body carries. -/
def bodyStatus (status : Option ℚ) (root : Json) : Option ℚ :=
  status.or ((root.numberAt? "status").or (root.numberAt? "status_code"))

/-- The reset a refusal names, absolute before relative. -/
def resetOf (detail : Json) (now : ℚ) : Option ℚ :=
  match (detail.numberAt? "resets_at").filter (0 < ·),
      (detail.numberAt? "resets_in_seconds").filter (0 < ·) with
  | some absolute, _ => some (absolute * 1000)
  | none, some relative => some (now + relative * 1000)
  | none, none => none

/-- The reasons of a failed response that are limits. -/
def failedReasons : List String :=
  ["primary", "secondary", "usage_limit_reached", "rate_limit_exceeded"]

def retryAfterMs (header : Option String) : Option ℚ :=
  (((header.filter fun hint => !isBlank hint).bind rt.number).filter fun seconds => 0 ≤ seconds).map
    fun seconds => seconds * 1000

def limitWindows (input : BodyInput) (root : Json) : List LimitWindow :=
  let detail := errorDetail root
  let failed := (failedResponse root).isSome
  let reason := (limitReason root).getD rateLimitWindow
  if failed || detail.type? = some "usage_limit_reached" then
    openAiSignalWindows rt
      { window := reason, resetAt := if failed then none else resetOf detail input.now }
      input.now input.reading input.now
  else [{ window := reason, confirmed := false, observedAt := some input.now, provenance := .unproven }]

def classifyOpenAiLimitBody (input : BodyInput) : Option LimitSignal :=
  let root := parsedBody rt.toBuiltins input.body
  let failed := (failedResponse root).isSome
  let reason := limitReason root
  let status := bodyStatus input.status root
  if reason ≠ some "usage_limit_reached" ∧ failed = false ∧ status ≠ some 429 then none
  else if failed && !reason.any fun reason => failedReasons.contains reason then none
  else
    let windows := limitWindows rt input root
    some {
      account := input.account
      kind := if windows.any fun window => window.confirmed then .quotaExhausted else .rateLimit
      reason := reason.getD rateLimitWindow
      status := status
      windows := windows
      observedAt := input.now
      retryAfterMs := retryAfterMs rt input.retryAfter }

/-! ## Comparing the two -/

/-- What the rest of the program reads of a window. -/
structure LimitAnswer where
  window : String
  confirmed : Bool
  resetAt : Option ℚ
deriving DecidableEq, Repr

def LimitWindow.answer (window : LimitWindow) : LimitAnswer where
  window := window.window
  confirmed := window.confirmed
  resetAt := window.resetAt

/-- `{ ...(isRecord(value) ? value : {}), status }`, or the value as it came. -/
def framed (value : Json) : Option ℚ → Json
  | none => value
  | some status => .obj (value.members.set "status" (.num status))

/-- The answer over a socket, where the frame carries the status. -/
def signalAnswer (value : Json) (reading : Option AccountQuota) (now : ℚ) : Option (List LimitAnswer) :=
  (parseRateLimitSignal rt.toBuiltins value now).map fun signal =>
    (openAiSignalWindows rt signal now reading now).map LimitWindow.answer

/-- The answer to an HTTP response. -/
def bodyAnswer (input : BodyInput) : Option (List LimitAnswer) :=
  (classifyOpenAiLimitBody rt input).map fun signal => signal.windows.map LimitWindow.answer

/-- The signal of a value nested in `cause` or `body`, or spelled in a text. -/
def nestedSignal (js : Builtins) (value : Json) (now : ℚ) : Option RateLimitSignal :=
  match value with
  | .str text => (js.parse text).bind fun inner => parseRateLimitSignal js inner now
  | value =>
      ((value.get? "cause").bind fun cause => parseRateLimitSignal js cause now).or
        ((value.get? "body").bind fun body => parseRateLimitSignal js body now)

/-- The object that names the error outside a failed envelope. -/
def ownDetail (value : Json) : Json := (value.recordAt? "error").getD value

/-- The name a refusal goes by. -/
def ownReason (value : Json) : Option String :=
  (ownDetail value).type?.or ((ownDetail value).stringAt? "code")

theorem parseRateLimitSignal_eq (js : Builtins) (value : Json) (now : ℚ) :
    parseRateLimitSignal js value now =
      (nestedSignal js value now).or (ownRateLimitSignal value now) := by
  cases value with
  | str text =>
      have hown : ownRateLimitSignal (.str text) now = none := rfl
      rw [parseRateLimitSignal_str, hown, Option.or_none]
      rfl
  | obj members =>
      rw [parseRateLimitSignal_obj, ← Option.or_assoc]
      rfl
  | _ => rfl

/-! ### A value with its status -/

theorem get?_framed (value : Json) (status : Option ℚ) {key : String} (h : key ≠ "status") :
    (framed value status).get? key = value.get? key := by
  cases status with
  | none => rfl
  | some status =>
      rw [framed, Json.get?_obj, Members.lookup_set_of_ne h, Json.lookup_members]

theorem recordAt?_framed (value : Json) (status : Option ℚ) {key : String} (h : key ≠ "status") :
    (framed value status).recordAt? key = value.recordAt? key := by
  rw [Json.recordAt?, get?_framed value status h]
  rfl

/-- The error is named by the same members with and without the status. -/
theorem get?_ownDetail_framed (value : Json) (status : Option ℚ) {key : String} (h : key ≠ "status") :
    (ownDetail (framed value status)).get? key = (ownDetail value).get? key := by
  have hne : "error" ≠ "status" := by decide
  rw [ownDetail, ownDetail, recordAt?_framed value status hne]
  cases value.recordAt? "error" with
  | none => exact get?_framed value status h
  | some error => rfl

theorem type?_ownDetail_framed (value : Json) (status : Option ℚ) :
    (ownDetail (framed value status)).type? = (ownDetail value).type? := by
  have hne : "type" ≠ "status" := by decide
  rw [Json.type?, Json.stringAt?, get?_ownDetail_framed value status hne]
  rfl

theorem ownReason_framed (value : Json) (status : Option ℚ) :
    ownReason (framed value status) = ownReason value := by
  have hne : "code" ≠ "status" := by decide
  rw [ownReason, type?_ownDetail_framed, Json.stringAt?, get?_ownDetail_framed value status hne]
  rfl

theorem resetOf_framed (value : Json) (status : Option ℚ) (now : ℚ) :
    resetOf (ownDetail (framed value status)) now = resetOf (ownDetail value) now := by
  have hat : "resets_at" ≠ "status" := by decide
  have hin : "resets_in_seconds" ≠ "status" := by decide
  rw [resetOf, Json.numberAt?, get?_ownDetail_framed value status hat, Json.numberAt?,
    get?_ownDetail_framed value status hin]
  rfl

/-- The status of a frame that carries none of its own can be told. -/
def ReadableStatus (value : Json) : Prop :=
  ∀ status, value.get? "status" = some status → status ≠ .null → status.number? = none →
    value.numberAt? "status_code" ≠ some 429

/-- The two readings of a status agree on 429. -/
theorem statusOf_framed_eq {value : Json} {status : Option ℚ}
    (h : status = none → ReadableStatus value) :
    statusOf (framed value status) = some (.num 429) ↔ bodyStatus status value = some 429 := by
  cases status with
  | some q =>
      have hstatus : (framed value (some q)).get? "status" = some (.num q) :=
        Members.lookup_set_self ..
      simp [statusOf, hstatus, Json.orElse, bodyStatus]
  | none =>
      have hreadable := h rfl
      rw [statusOf, framed, bodyStatus, Option.none_or]
      cases hstatus : value.get? "status" with
      | none =>
          simp only [Json.orElse, Json.numberAt?, hstatus, Option.bind_none, Option.none_or]
          cases value.get? "status_code" with
          | none => simp
          | some code => cases code <;> simp [Json.number?]
      | some v =>
          have hother := hreadable v hstatus
          cases v with
          | null =>
              simp only [Json.orElse, Json.numberAt?, hstatus, Option.bind_some, Json.number?,
                Option.none_or]
              cases value.get? "status_code" with
              | none => simp
              | some code => cases code <;> simp [Json.number?]
          | num q => simp [Json.orElse, Json.numberAt?, hstatus, Json.number?]
          | _ =>
              have hcode := hother (by simp) rfl
              simp only [Json.orElse, Json.numberAt?, hstatus, Option.bind_some, Json.number?,
                Option.none_or, Option.some.injEq, reduceCtorEq, false_iff]
              exact hcode

/-! ### Agreement -/

/-- A refusal that says what it says in one place only. -/
structure Plain (input : BodyInput) : Prop where
  /-- It is no `response.failed` frame. -/
  notFailed : (parsedBody rt.toBuiltins input.body).type? ≠ some "response.failed"
  /-- No value nested in it is a limit of its own. -/
  flat : nestedSignal rt.toBuiltins (framed (parsedBody rt.toBuiltins input.body) input.status)
    input.now = none
  /-- `usage_limit_reached` is given as a type, never as a code alone. -/
  typed : (ownDetail (parsedBody rt.toBuiltins input.body)).type? = none →
    (ownDetail (parsedBody rt.toBuiltins input.body)).stringAt? "code" ≠ some "usage_limit_reached"
  /-- A 429 is not named after a quota window. -/
  unnamed : bodyStatus input.status (parsedBody rt.toBuiltins input.body) = some 429 →
    ¬(ownReason (parsedBody rt.toBuiltins input.body)).any isNamed
  readable : input.status = none → ReadableStatus (parsedBody rt.toBuiltins input.body)

section Agreement

variable {rt} {input : BodyInput} {root : Json}

theorem failedResponse_eq_none (h : root.type? ≠ some "response.failed") : failedResponse root = none :=
  if_neg h

theorem errorDetail_eq (h : root.type? ≠ some "response.failed") : errorDetail root = ownDetail root := by
  rw [errorDetail, failedResponse_eq_none h]
  rfl

theorem limitReason_eq (h : root.type? ≠ some "response.failed") : limitReason root = ownReason root := by
  rw [limitReason, failedResponse_eq_none h, errorDetail_eq h]
  rfl

/-- Off a failed frame the body's reason and status alone decide. -/
theorem classifyOpenAiLimitBody_eq
    (h : (parsedBody rt.toBuiltins input.body).type? ≠ some "response.failed") :
    bodyAnswer rt input =
      if ownReason (parsedBody rt.toBuiltins input.body) ≠ some "usage_limit_reached" ∧
          bodyStatus input.status (parsedBody rt.toBuiltins input.body) ≠ some 429 then none
      else some ((limitWindows rt input (parsedBody rt.toBuiltins input.body)).map
        LimitWindow.answer) := by
  simp only [bodyAnswer, classifyOpenAiLimitBody, failedResponse_eq_none h, limitReason_eq h,
    Option.isSome_none, true_and, Bool.false_and, Bool.false_eq_true, if_false]
  split_ifs <;> rfl

/-- A name that is neither a quota window's nor the usage limit's confirms nothing. -/
theorem openAiSignalWindows_other {parsed : RateLimitSignal} (hnamed : isNamed parsed.window = false)
    (husage : parsed.window ≠ "usage_limit_reached") (at_ now : ℚ) (reading : Option AccountQuota) :
    (openAiSignalWindows rt parsed at_ reading now).map LimitWindow.answer =
      [{ window := parsed.window, confirmed := false, resetAt := none }] := by
  simp [openAiSignalWindows, LimitWindow.answer, hnamed, husage]

theorem limitWindows_other (h : root.type? ≠ some "response.failed")
    (husage : (ownDetail root).type? ≠ some "usage_limit_reached") :
    (limitWindows rt input root).map LimitWindow.answer =
      [{ window := (ownReason root).getD rateLimitWindow, confirmed := false, resetAt := none }] := by
  simp [limitWindows, failedResponse_eq_none h, errorDetail_eq h, limitReason_eq h, husage,
    LimitWindow.answer]

theorem limitWindows_usage (h : root.type? ≠ some "response.failed")
    (husage : (ownDetail root).type? = some "usage_limit_reached") :
    limitWindows rt input root =
      openAiSignalWindows rt
        { window := "usage_limit_reached", resetAt := resetOf (ownDetail root) input.now }
        input.now input.reading input.now := by
  simp [limitWindows, failedResponse_eq_none h, errorDetail_eq h, limitReason_eq h, ownReason, husage]

/-- What the socket reads of a frame that nests no other limit. -/
theorem parseRateLimitSignal_framed (h : Plain rt input) :
    parseRateLimitSignal rt.toBuiltins (framed (parsedBody rt.toBuiltins input.body) input.status)
        input.now =
      if (ownDetail (parsedBody rt.toBuiltins input.body)).type? = some "usage_limit_reached" ∨
          bodyStatus input.status (parsedBody rt.toBuiltins input.body) = some 429 then
        some {
          window := (ownReason (parsedBody rt.toBuiltins input.body)).getD rateLimitWindow
          resetAt := resetOf (ownDetail (parsedBody rt.toBuiltins input.body)) input.now }
      else none := by
  have hown (value : Json) : ownRateLimitSignal value input.now =
      if (ownDetail value).type? = some "usage_limit_reached" ∨ statusOf value = some (.num 429) then
        some {
          window := (ownReason value).getD rateLimitWindow
          resetAt := resetOf (ownDetail value) input.now }
      else none := rfl
  rw [parseRateLimitSignal_eq, h.flat, Option.none_or, hown, type?_ownDetail_framed,
    ownReason_framed, resetOf_framed]
  simp only [statusOf_framed_eq h.readable]

/-- Without the type of the usage limit the reason is no name that confirms. -/
theorem ownReason_other (h : Plain rt input)
    (husage : (ownDetail (parsedBody rt.toBuiltins input.body)).type? ≠ some "usage_limit_reached") :
    ownReason (parsedBody rt.toBuiltins input.body) ≠ some "usage_limit_reached" := by
  have htyped := h.typed
  cases htype : (ownDetail (parsedBody rt.toBuiltins input.body)).type? with
  | none =>
      rw [ownReason, htype, Option.none_or]
      exact htyped htype
  | some type =>
      rw [htype] at husage
      rwa [ownReason, htype, Option.some_or]

theorem isNamed_reason (h : Plain rt input)
    (hstatus : bodyStatus input.status (parsedBody rt.toBuiltins input.body) = some 429) :
    isNamed ((ownReason (parsedBody rt.toBuiltins input.body)).getD rateLimitWindow) = false := by
  have hunnamed := h.unnamed hstatus
  cases hreason : ownReason (parsedBody rt.toBuiltins input.body) with
  | none => rfl
  | some reason =>
      rw [hreason] at hunnamed
      simpa using hunnamed

theorem answers_agree (h : Plain rt input) :
    signalAnswer rt (framed (parsedBody rt.toBuiltins input.body) input.status) input.reading
      input.now = bodyAnswer rt input := by
  rw [signalAnswer, parseRateLimitSignal_framed h, classifyOpenAiLimitBody_eq h.notFailed]
  by_cases husage :
      (ownDetail (parsedBody rt.toBuiltins input.body)).type? = some "usage_limit_reached"
  · have hreason : ownReason (parsedBody rt.toBuiltins input.body) = some "usage_limit_reached" := by
      rw [ownReason, husage, Option.some_or]
    rw [if_pos (.inl husage), if_neg fun hnot => hnot.1 hreason, Option.map_some, hreason,
      limitWindows_usage h.notFailed husage]
    rfl
  · have hreason := ownReason_other h husage
    by_cases hstatus : bodyStatus input.status (parsedBody rt.toBuiltins input.body) = some 429
    · -- a 429 under another name: its window carries no reset on either side
      have hwindow : (ownReason (parsedBody rt.toBuiltins input.body)).getD rateLimitWindow ≠
          "usage_limit_reached" := by
        cases hname : ownReason (parsedBody rt.toBuiltins input.body) with
        | none => decide
        | some name =>
            rw [hname] at hreason
            simpa using hreason
      rw [if_pos (.inr hstatus), if_neg fun hnot => hnot.2 hstatus, Option.map_some,
        openAiSignalWindows_other (isNamed_reason h hstatus) hwindow,
        limitWindows_other h.notFailed husage]
    · rw [if_neg (not_or.mpr ⟨husage, hstatus⟩), if_pos ⟨hreason, hstatus⟩]
      rfl

theorem kind_of_classified (h : Plain rt input) {signal : LimitSignal}
    (hsignal : classifyOpenAiLimitBody rt input = some signal) :
    signal.kind = .quotaExhausted ↔
      (ownDetail (parsedBody rt.toBuiltins input.body)).type? = some "usage_limit_reached" := by
  have hkind : signal.kind =
      if (limitWindows rt input (parsedBody rt.toBuiltins input.body)).any
          fun window => window.confirmed then .quotaExhausted else .rateLimit := by
    simp only [classifyOpenAiLimitBody] at hsignal
    split_ifs at hsignal <;> cases hsignal <;> simp [*]
  have hconfirmed : ((limitWindows rt input (parsedBody rt.toBuiltins input.body)).any
      fun window => window.confirmed) = true ↔
        (ownDetail (parsedBody rt.toBuiltins input.body)).type? = some "usage_limit_reached" := by
    by_cases husage :
        (ownDetail (parsedBody rt.toBuiltins input.body)).type? = some "usage_limit_reached"
    · rw [limitWindows_usage h.notFailed husage]
      simp [openAiSignalWindows, husage]
    · simp [limitWindows, failedResponse_eq_none h.notFailed, errorDetail_eq h.notFailed, husage]
  rw [hkind, ← hconfirmed]
  split_ifs with hany <;> simp [hany]

/-- The two answers are the same, and what they confirm as exhausted is the usage
limit alone. -/
theorem classifiers_agree (rt : Runtime) (input : BodyInput) (h : Plain rt input) :
    signalAnswer rt (framed (parsedBody rt.toBuiltins input.body) input.status) input.reading input.now =
      bodyAnswer rt input ∧
    ∀ signal, classifyOpenAiLimitBody rt input = some signal →
      (signal.kind = .quotaExhausted ↔
        (ownDetail (parsedBody rt.toBuiltins input.body)).type? = some "usage_limit_reached") :=
  ⟨answers_agree h, fun _ hsignal => kind_of_classified h hsignal⟩

/-! ### Refusals on which they differ -/

/-- Runs without texts to parse. -/
def plainRuntime : Runtime where
  toBuiltins := Builtins.ofTable [] (by simp)
  dateParse _ := none
  number _ := none

def refusal (members : Members) (status : Option ℚ) : BodyInput where
  account := "a"
  status := status
  body := .obj members
  now := 1000

def usageBody : Members := [("error", .obj [("type", .str "usage_limit_reached"), ("resets_in_seconds", .num 60)])]

/-- A usage limit with its reset, in a response with status 429. -/
theorem classifiers_agree_usage :
    signalAnswer plainRuntime (framed (.obj usageBody) (some 429)) none 1000 =
      bodyAnswer plainRuntime (refusal usageBody (some 429)) ∧
    ∀ signal, classifyOpenAiLimitBody plainRuntime (refusal usageBody (some 429)) = some signal →
      (signal.kind = .quotaExhausted ↔
        (ownDetail (parsedBody plainRuntime.toBuiltins (refusal usageBody (some 429)).body)).type? =
          some "usage_limit_reached") := by
  refine classifiers_agree plainRuntime (refusal usageBody (some 429)) ⟨?_, ?_, ?_, ?_, ?_⟩
  · decide
  · decide
  · intro h
    exact absurd h (by decide)
  · intro _
    decide
  · rintro ⟨⟩

def namedBody : Members := [("error", .obj [("type", .str "primary")])]

def codedBody : Members := [("error", .obj [("code", .str "usage_limit_reached")])]

def nestedBody : Members := [("body", .obj usageBody)]

def textStatus : Members := [("status", .str "429"), ("status_code", .num 429)]

/-- A 429 named after a window and one with the usage limit as its code are
confirmed over the socket only; a nested limit is found there only; and a status
that is a text is passed over in the body only. -/
theorem classifiers_differ :
    (signalAnswer plainRuntime (framed (.obj namedBody) (some 429)) none 1000 =
        some [{ window := "primary", confirmed := true, resetAt := none }] ∧
      bodyAnswer plainRuntime (refusal namedBody (some 429)) =
        some [{ window := "primary", confirmed := false, resetAt := none }]) ∧
    (signalAnswer plainRuntime (framed (.obj codedBody) (some 429)) none 1000 =
        some [{ window := "usage", confirmed := true, resetAt := none }] ∧
      bodyAnswer plainRuntime (refusal codedBody (some 429)) =
        some [{ window := "usage_limit_reached", confirmed := false, resetAt := none }]) ∧
    (signalAnswer plainRuntime (framed (.obj nestedBody) (some 500)) none 1000 =
        some [{ window := "usage", confirmed := true, resetAt := some 61000 }] ∧
      bodyAnswer plainRuntime (refusal nestedBody (some 500)) = none) ∧
    signalAnswer plainRuntime (.obj textStatus) none 1000 = none ∧
      bodyAnswer plainRuntime (refusal textStatus none) =
        some [{ window := "rate_limit", confirmed := false, resetAt := none }] := by
  decide +kernel

end Agreement

end Limits
