import OpenaiAuth.Effort.Updates
import OpenaiAuth.Js.Table
import OpenaiAuth.Js.Text

/-! # The turn of a WebSocket frame

`FrameTurnState` keeps for each session the turn of its last frame, whether that frame
got `response.completed`, a fingerprint of the conversation's last user message and the
number of its user messages; the sessions used last are kept. `fingerprint` stands for
the hash of a message's JSON text, `parseObject` for the parser of a received frame,
and a frame is sent with the turn that would be minted for it.
-/

namespace FrameTurns

open Js Effort

structure FrameTurn where
  turnID : String
  turnStartedAt : ℚ
deriving DecidableEq, Repr

structure FrameTurnRecord (F : Type) extends FrameTurn where
  completed : Bool
  fingerprint : Option F
  userCount : Option ℕ
deriving DecidableEq, Repr

/-- An item the model produced or a tool returned. -/
def isModelOrToolItem (item : Json) : Bool :=
  item.isRecord && (item.stringAt? "role" = some "assistant" ||
    item.type?.any fun type => type ≠ "message" && type ≠ "configuration_update")

/-! ## Frames -/

def inputOf (frame : Json) : List Json := ((frame.get? "input").bind Json.array?).getD []

def isChained (frame : Json) : Bool :=
  (frame.stringAt? "previous_response_id").any (· ≠ "")

/-- The last user message stands after every model and tool item. -/
def opensTurn (input : List Json) : Bool :=
  match findLastIndex isUserMessage input, findLastIndex isModelOrToolItem input with
  | some lastUser, some lastItem => lastItem < lastUser
  | some _, none => true
  | none, _ => false

/-! ## The state -/

section State

variable {F : Type} [DecidableEq F] (fingerprint : Json → F)

/-- `#set`: the session becomes the one used last, and the oldest ones go. -/
def setRecord (maxSessions : ℕ) (sessions : Table (FrameTurnRecord F)) (sessionID : String)
    (record : FrameTurnRecord F) : Table (FrameTurnRecord F) :=
  let sessions := (sessions.delete sessionID).set sessionID record
  sessions.drop (sessions.size - maxSessions)

def lastFingerprint (input : List Json) : Option F :=
  (findLastIndex isUserMessage input).map fun last => fingerprint (input[last]?.getD .null)

/-- The record of a frame, and whether it starts a turn, by the one before. -/
def frameRule (prior : Option (FrameTurnRecord F)) (frame : Json) :
    Bool × Option F × Option ℕ :=
  let input := inputOf frame
  let users := input.filter isUserMessage
  let last := lastFingerprint fingerprint input
  if isChained frame then
    (users ≠ [], last.or (prior.bind (·.fingerprint)),
      (prior.bind (·.userCount)).map (· + users.length))
  else
    let resend := prior.any fun prior =>
      !prior.completed && prior.fingerprint = last && prior.userCount = some users.length
    (opensTurn input && !resend, last, some users.length)

/-- `fresh` is the turn that is minted where one starts. -/
def advance (maxSessions : ℕ) (sessions : Table (FrameTurnRecord F)) (sessionID : String)
    (frame : Json) (fresh : FrameTurn) : FrameTurn × Table (FrameTurnRecord F) :=
  let prior := sessions.get sessionID
  let rule := frameRule fingerprint prior frame
  let turn := match prior with
    | some prior => if rule.1 then fresh else prior.toFrameTurn
    | none => fresh
  (turn, setRecord maxSessions sessions sessionID
    { toFrameTurn := turn, completed := false, fingerprint := rule.2.1, userCount := rule.2.2 })

def completed (maxSessions : ℕ) (sessions : Table (FrameTurnRecord F)) (sessionID : String) :
    Table (FrameTurnRecord F) :=
  match sessions.get sessionID with
  | some record => setRecord maxSessions sessions sessionID { record with completed := true }
  | none => sessions

/-- The text is that of a `response.completed`. -/
def isCompletedFrame (parseObject : Units → Option Json) (text : Units) : Bool :=
  text.includes (Units.of "response.completed") &&
    (parseObject text).bind Json.type? = some "response.completed"

def frameReceived (parseObject : Units → Option Json) (maxSessions : ℕ)
    (sessions : Table (FrameTurnRecord F)) (sessionID : String) (text : Units) :
    Table (FrameTurnRecord F) :=
  if isCompletedFrame parseObject text then completed maxSessions sessions sessionID else sessions

def forget (sessions : Table (FrameTurnRecord F)) (sessionID : String) :
    Table (FrameTurnRecord F) :=
  sessions.delete sessionID

end State

/-! ## A session among others -/

/-- What another session does. -/
inductive Call where
  | advance (frame : Json) (fresh : FrameTurn)
  | received (text : Units)
  | forget

/-- One session's conversation, how much of it the last frame stood for, that frame's
turn, whether it was completed, and whether a full frame has been sent; `others` are the
sessions used since this one. -/
structure System (F : Type) where
  sessions : Table (FrameTurnRecord F) := .empty
  history : List Json := []
  framed : ℕ := 0
  turn : Option FrameTurn := none
  completed : Bool := false
  counted : Bool := false
  others : List String := []

namespace System

variable {F : Type} (s : System F)

/-- What the conversation has gained since the last frame. -/
def appended : List Json := s.history.drop s.framed

end System

/-- A full frame holds the whole conversation; a delta holds some of what was appended
since the last frame, with all of its user messages. -/
def Frames {F : Type} (s : System F) (frame : Json) : Prop :=
  if isChained frame then
    (inputOf frame).Sublist s.appended ∧
      (s.turn.isSome → (inputOf frame).filter isUserMessage = s.appended.filter isUserMessage)
  else inputOf frame = s.history

section Steps

variable {F : Type} [DecidableEq F] (fingerprint : Json → F) (parseObject : Units → Option Json)
  (maxSessions : ℕ) (sessionID : String)

def sent (s : System F) (frame : Json) (fresh : FrameTurn) : System F :=
  let next := advance fingerprint maxSessions s.sessions sessionID frame fresh
  { s with
    sessions := next.2
    framed := s.history.length
    turn := some next.1
    completed := false
    counted := s.counted || !isChained frame
    others := [] }

def received (s : System F) (text : Units) : System F :=
  { s with
    sessions := frameReceived parseObject maxSessions s.sessions sessionID text
    completed := s.completed || (s.turn.isSome && isCompletedFrame parseObject text)
    others := if s.turn.isSome && isCompletedFrame parseObject text then [] else s.others }

def called (s : System F) (other : String) : Call → System F
  | .advance frame fresh =>
      { s with
        sessions := (advance fingerprint maxSessions s.sessions other frame fresh).2
        others := s.others.insert other }
  | .received text =>
      { s with
        sessions := frameReceived parseObject maxSessions s.sessions other text
        others := s.others.insert other }
  | .forget => { s with sessions := forget s.sessions other }

/-- One step of the process, as this session sees it. -/
inductive Step (s : System F) : System F → Prop
  | grown (items : List Json) : Step s { s with history := s.history ++ items }
  | framed (frame : Json) (fresh : FrameTurn) (frames : Frames s frame) :
      Step s (sent fingerprint maxSessions sessionID s frame fresh)
  | received (text : Units) : Step s (received parseObject maxSessions sessionID s text)
  | called (other : String) (call : Call) (differs : other ≠ sessionID) :
      Step s (called fingerprint parseObject maxSessions s other call)

/-- The runs in which fewer than `maxSessions` other sessions come in between. -/
inductive Reached : System F → Prop
  | start : 0 < maxSessions → Reached {}
  | step {s t : System F} : Reached s →
      Step fingerprint parseObject maxSessions sessionID s t →
      t.others.length < maxSessions → Reached t

end Steps

end FrameTurns
