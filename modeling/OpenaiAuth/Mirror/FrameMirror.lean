import OpenaiAuth.Js.Fields
import OpenaiAuth.Js.Stringify
import OpenaiAuth.Js.Table
import OpenaiAuth.Js.Text

/-! # The frame mirror

`FrameMirror` keeps a bounded view of what the server holds on each session: a head
with the conversation of the last completed response, and the send that is pending
on it. `parse` stands for `JSON.parse`, `none` when it throws, and `numberText` for
`String(number)`.
-/

namespace Mirror

open Js

/-! ## Entries -/

/-- `CACHE_KEEP_CAPS.maxTargets` -/
def maxTargets : ℕ := 32

/-- `CACHE_KEEP_CAPS.maxBytes` -/
def maxBytes : ℕ := 8 * 1024 * 1024

structure FrameMirrorCapture where
  sessionID : String
  responseID : String
  bodyText : String
deriving DecidableEq, Repr

structure Head where
  responseID : String
  responseIDBytes : ℕ
  input : List Json
  inputBytes : ℕ
deriving DecidableEq, Repr

structure Pending where
  input : List Json
  inputBytes : ℕ
  output : List Json
  outputBytes : ℕ
  responseID : Option String
  responseIDBytes : ℕ
deriving DecidableEq, Repr

structure Entry where
  fields : Members
  fieldsBytes : ℕ
  head : Option Head
  pending : Option Pending
  bytes : ℕ
deriving DecidableEq, Repr

section Sizes

variable (numberText : Rat → String)

/-- Item sums exclude array punctuation, which is derived from the item count. -/
def inputBytes (items : List Json) : ℕ :=
  items.foldl (fun bytes item => bytes + jsonBytes numberText item) 0

def arrayBytes (bytes count : ℕ) : ℕ := 2 + bytes + max 0 (count - 1)

/-- Exact JSON size of the retained payload, excluding cached byte counters. -/
def entryBytes (entry : Entry) : ℕ :=
  byteLength "\x7b\"fields\":" + entry.fieldsBytes + byteLength "\x7d" +
    (match entry.head with
    | some head =>
        byteLength ",\"head\":\x7b\"responseID\":" + head.responseIDBytes +
          byteLength ",\"input\":" + arrayBytes head.inputBytes head.input.length + byteLength "\x7d"
    | none => 0) +
    match entry.pending with
    | some pending =>
        byteLength ",\"pending\":\x7b\"input\":" +
          arrayBytes pending.inputBytes pending.input.length + byteLength ",\"output\":" +
          arrayBytes pending.outputBytes pending.output.length +
          (if pending.responseID = none then 0
            else byteLength ",\"responseID\":" + pending.responseIDBytes) +
          byteLength "\x7d"
    | none => 0

end Sizes

/-- A value that is neither absent nor one of the false ones. -/
def truthy : Option Json → Bool
  | none | some .null | some (.bool false) | some (.str "") => false
  | some (.num q) => q ≠ 0
  | some _ => true

/-- A parsed object, no array. -/
def object (parse : String → Option Json) (text : String) : Option Members :=
  (parse text).bind fun
    | .obj members => some members
    | _ => none

/-! ## The mirror -/

/-- The entries are in the order of their last use. -/
structure FrameMirror where
  enabled : Bool := false
  entries : Table Entry := .empty
  bytes : ℤ := 0

namespace FrameMirror

def setEnabled (mirror : FrameMirror) (enabled : Bool) : FrameMirror :=
  if enabled then { mirror with enabled := true } else { enabled := false }

def forget (mirror : FrameMirror) (sessionID : String) : FrameMirror :=
  { mirror with
    bytes := match mirror.entries.get sessionID with
      | some entry => mirror.bytes - entry.bytes
      | none => mirror.bytes
    entries := mirror.entries.delete sessionID }

def isFull (mirror : FrameMirror) : Bool :=
  maxTargets < mirror.entries.size || (maxBytes : ℤ) < mirror.bytes

/-- The loop that forgets the oldest entry, for as many turns as there are entries. -/
def evict : ℕ → FrameMirror → FrameMirror
  | 0, mirror => mirror
  | turns + 1, mirror =>
      if mirror.isFull then
        match mirror.entries.entries with
        | [] => mirror
        | (oldest, _) :: _ => evict turns (mirror.forget oldest)
      else mirror

section

variable (numberText : Rat → String)

/-- A single session cannot retain more bytes than the entire store's byte budget. -/
def keep (mirror : FrameMirror) (sessionID : String) (entry : Entry) : FrameMirror × Bool :=
  let bytes := entryBytes entry
  let without := mirror.forget sessionID
  if maxBytes < bytes then (without, false)
  else
    let stored := { without with
      entries := without.entries.set sessionID { entry with bytes }
      bytes := without.bytes + bytes }
    let evicted := stored.evict stored.entries.size
    (evicted, (evicted.entries.get sessionID).isSome)

/-- `JSON.stringify({ ...fields, input: head.input, stream: true })` -/
def body (fields : Members) (head : Head) : String :=
  stringify numberText
    (.obj ((fields.set "input" (.arr head.input)).set "stream" (.bool true)))

/-- A full frame starts anew; a delta is kept on the head it continues. -/
def sendBody (mirror : FrameMirror) (sessionID : String) (body : Members) : FrameMirror :=
  match (body.lookup "input").bind Json.array? with
  | none => mirror.forget sessionID
  | some input =>
      let previous := body.lookup "previous_response_id"
      let prior := mirror.entries.get sessionID
      let head := prior.bind (·.head)
      if truthy previous && previous ≠ head.map fun head => Json.str head.responseID then
        -- Retaining this delta would turn a partial prompt into a full replay.
        mirror.forget sessionID
      else
        let fields := ((body.erase "type").erase "previous_response_id").erase "input"
        let chained := if truthy previous then prior else none
        (mirror.keep sessionID {
          fields := match chained with
            | some prior => prior.fields
            | none => fields
          fieldsBytes := match chained with
            | some prior => prior.fieldsBytes
            | none => jsonBytes numberText (.obj fields)
          head := if truthy previous then head else none
          pending := some {
            input
            inputBytes := inputBytes numberText input
            output := []
            outputBytes := 0
            responseID := none
            responseIDBytes := 0 }
          bytes := 0 }).1

variable (parse : String → Option Json)

def send (mirror : FrameMirror) (sessionID frame : String) : FrameMirror :=
  if !mirror.enabled then mirror
  else
    match object parse frame with
    | none => mirror
    | some body =>
        if body.lookup "type" = some (.str "response.create") then
          mirror.sendBody numberText sessionID body
        else mirror

/-- What a frame says of the response it belongs to. -/
inductive Event
  | created (responseID : String)
  | item (responseID : Option String) (item : Json)
  | completed (responseID : String)
  | other
deriving DecidableEq, Repr

/-- The output item that an event announces. -/
def Event.item? : Event → Option Json
  | .item _ announced => some announced
  | _ => none

def eventOf (event : Members) : Event :=
  let responseID := ((event.lookup "response").bind (·.get? "id")).bind Json.string?
  if event.lookup "type" = some (.str "response.created") && responseID.isSome then
    .created (responseID.getD "")
  else if event.lookup "type" = some (.str "response.output_item.done") &&
      truthy (event.lookup "item") then
    .item ((event.lookup "response_id").bind Json.string?) ((event.lookup "item").getD .null)
  else if event.lookup "type" = some (.str "response.completed") && responseID.isSome then
    .completed (responseID.getD "")
  else .other

/-- The text of the frame names one of the three events. -/
def named (frame : String) : Bool :=
  Units.includes (Units.of frame) (Units.of "response.created") ||
    Units.includes (Units.of frame) (Units.of "response.output_item.done") ||
    Units.includes (Units.of frame) (Units.of "response.completed")

def complete (entry : Entry) (pending : Pending) (responseID : String) : Head where
  responseID := responseID
  responseIDBytes :=
    if pending.responseID = some responseID then pending.responseIDBytes
    else jsonBytes numberText (.str responseID)
  input := ((entry.head.map (·.input)).getD []) ++ pending.input ++ pending.output
  inputBytes := ((entry.head.map (·.inputBytes)).getD 0) + pending.inputBytes + pending.outputBytes

/-- An event of a session that has a pending send. -/
def receiveEvent (mirror : FrameMirror) (sessionID : String) (entry : Entry) (pending : Pending)
    (event : Event) : FrameMirror × Option FrameMirrorCapture :=
  match event with
  | .created responseID =>
      ((mirror.keep sessionID { entry with pending := some { pending with
        responseID := some responseID
        responseIDBytes := jsonBytes numberText (.str responseID) } }).1, none)
  | .item responseID item =>
      if responseID.isSome && pending.responseID.isSome && responseID ≠ pending.responseID then
        (mirror, none)
      else
        ((mirror.keep sessionID { entry with pending := some { pending with
          output := pending.output ++ [item]
          outputBytes := pending.outputBytes + jsonBytes numberText item } }).1, none)
  | .completed responseID =>
      if some responseID = entry.head.map (·.responseID) ||
          (pending.responseID.isSome && some responseID ≠ pending.responseID) then (mirror, none)
      else
        let head := complete numberText entry pending responseID
        let (kept, done) :=
          mirror.keep sessionID { entry with head := some head, pending := none }
        if done then
          (kept, some {
            sessionID
            responseID
            bodyText := body numberText entry.fields head })
        else (kept, none)
  | .other => (mirror, none)

/-- Completion consumes the pending send, so that a completed event that comes twice
captures once. -/
def receive (mirror : FrameMirror) (sessionID frame : String) :
    FrameMirror × Option FrameMirrorCapture :=
  if !mirror.enabled || !named frame then (mirror, none)
  else
    match mirror.entries.get sessionID with
    | none => (mirror, none)
    | some entry =>
        match entry.pending, object parse frame with
        | some pending, some event =>
            mirror.receiveEvent numberText sessionID entry pending (eventOf event)
        | _, _ => (mirror, none)

/-- Builds only from a completed head, and marks that session used. -/
def replay (mirror : FrameMirror) (sessionID : String) : FrameMirror × Option String :=
  match mirror.entries.get sessionID with
  | none => (mirror, none)
  | some entry =>
      match entry.head with
      | none => (mirror, none)
      | some head =>
          ({ mirror with entries := (mirror.entries.delete sessionID).set sessionID entry },
            some (body numberText entry.fields head))

end

end FrameMirror

/-! ## Sizes -/

section

variable {numberText : Rat → String} {entry : Entry}

def headJson (head : Head) : Json :=
  .obj [("responseID", .str head.responseID), ("input", .arr head.input)]

def pendingJson (pending : Pending) : Json :=
  .obj ([("input", .arr pending.input), ("output", .arr pending.output)] ++
    (pending.responseID.map fun responseID => ("responseID", Json.str responseID)).toList)

/-- What an entry retains. -/
def payload (entry : Entry) : Json :=
  .obj (("fields", .obj entry.fields) ::
    ((entry.head.map fun head => ("head", headJson head)).toList ++
      (entry.pending.map fun pending => ("pending", pendingJson pending)).toList))

/-- The counters of an entry are the bytes of what they count. -/
structure Counted (numberText : Rat → String) (entry : Entry) : Prop where
  fields : entry.fieldsBytes = jsonBytes numberText (.obj entry.fields)
  head : ∀ head ∈ entry.head, head.responseIDBytes = jsonBytes numberText (.str head.responseID) ∧
    head.inputBytes = inputBytes numberText head.input
  pending : ∀ pending ∈ entry.pending,
    pending.inputBytes = inputBytes numberText pending.input ∧
      pending.outputBytes = inputBytes numberText pending.output ∧
      ∀ responseID ∈ pending.responseID,
        pending.responseIDBytes = jsonBytes numberText (.str responseID)

theorem inputBytes_eq_sum (items : List Json) :
    inputBytes numberText items = (items.map (jsonBytes numberText)).sum := by
  have hfold : ∀ (items : List Json) (start : ℕ),
      items.foldl (fun bytes item => bytes + jsonBytes numberText item) start =
        start + (items.map (jsonBytes numberText)).sum := by
    intro items
    induction items with
    | nil => simp
    | cons item rest ih =>
        intro start
        rw [List.foldl_cons, ih, List.map_cons, List.sum_cons, Nat.add_assoc]
  rw [inputBytes, hfold, Nat.zero_add]

theorem inputBytes_append (items more : List Json) :
    inputBytes numberText (items ++ more) = inputBytes numberText items + inputBytes numberText more := by
  rw [inputBytes_eq_sum, inputBytes_eq_sum, inputBytes_eq_sum, List.map_append, List.sum_append]

theorem arrayBytes_inputBytes (items : List Json) :
    arrayBytes (inputBytes numberText items) items.length = jsonBytes numberText (.arr items) := by
  rw [arrayBytes, inputBytes_eq_sum, jsonBytes_arr, Nat.zero_max]

theorem byteLength_keys :
    byteLength (quotedText "fields") = 8 ∧ byteLength (quotedText "head") = 6 ∧
      byteLength (quotedText "responseID") = 12 ∧ byteLength (quotedText "input") = 7 ∧
      byteLength (quotedText "pending") = 9 ∧ byteLength (quotedText "output") = 8 :=
  ⟨rfl, rfl, rfl, rfl, rfl, rfl⟩

theorem jsonBytes_headJson {head : Head}
    (h : head.responseIDBytes = jsonBytes numberText (.str head.responseID) ∧
      head.inputBytes = inputBytes numberText head.input) :
    jsonBytes numberText (headJson head) =
      24 + head.responseIDBytes + arrayBytes head.inputBytes head.input.length := by
  rw [headJson, jsonBytes_obj, byteLength_members_cons, byteLength_member, h.1, h.2,
    arrayBytes_inputBytes, byteLength_keys.2.2.1, byteLength_keys.2.2.2.1]
  omega

theorem jsonBytes_pendingJson {pending : Pending}
    (h : pending.inputBytes = inputBytes numberText pending.input ∧
      pending.outputBytes = inputBytes numberText pending.output ∧
      ∀ responseID ∈ pending.responseID,
        pending.responseIDBytes = jsonBytes numberText (.str responseID)) :
    jsonBytes numberText (pendingJson pending) =
      20 + arrayBytes pending.inputBytes pending.input.length +
        arrayBytes pending.outputBytes pending.output.length +
        (if pending.responseID = none then 0 else 14 + pending.responseIDBytes) := by
  obtain ⟨hinput, houtput, hid⟩ := h
  rw [pendingJson, hinput, houtput, arrayBytes_inputBytes, arrayBytes_inputBytes]
  cases hresponse : pending.responseID with
  | none =>
      rw [if_pos rfl, Option.map_none, Option.toList_none, List.append_nil, jsonBytes_obj,
        byteLength_members_cons, byteLength_member, byteLength_keys.2.2.2.1,
        byteLength_keys.2.2.2.2.2]
      omega
  | some responseID =>
      rw [if_neg (by simp), hid responseID hresponse, Option.map_some, Option.toList_some,
        List.cons_append, List.cons_append, List.nil_append, jsonBytes_obj, byteLength_members_cons,
        byteLength_members_cons, byteLength_member, byteLength_keys.2.2.1,
        byteLength_keys.2.2.2.1, byteLength_keys.2.2.2.2.2]
      omega

/-- The size of an entry is that of its JSON text. -/
theorem entryBytes_eq (h : Counted numberText entry) :
    entryBytes entry = jsonBytes numberText (payload entry) := by
  have hliterals : byteLength "\x7b\"fields\":" = 10 ∧ byteLength "\x7d" = 1 ∧
      byteLength ",\"head\":\x7b\"responseID\":" = 22 ∧ byteLength ",\"input\":" = 9 ∧
      byteLength ",\"pending\":\x7b\"input\":" = 20 ∧ byteLength ",\"output\":" = 10 ∧
      byteLength ",\"responseID\":" = 14 :=
    ⟨rfl, rfl, rfl, rfl, rfl, rfl, rfl⟩
  obtain ⟨hfields, hhead, hpending⟩ := h
  cases hh : entry.head with
  | none =>
      cases hp : entry.pending with
      | none =>
          simp only [entryBytes, payload, hh, hp, Option.map_none, Option.toList_none,
            List.append_nil, jsonBytes_obj, byteLength_member, byteLength_keys, hliterals, hfields]
          omega
      | some pending =>
          have hbytes := jsonBytes_pendingJson (hpending pending hp)
          simp only [entryBytes, payload, hh, hp, Option.map_none, Option.toList_none,
            Option.map_some, Option.toList_some, List.nil_append, jsonBytes_obj entry.fields,
            jsonBytes_obj (_ :: _), byteLength_members_cons, byteLength_member, byteLength_keys,
            hliterals, hfields, hbytes]
          omega
  | some head =>
      have hheadBytes := jsonBytes_headJson (hhead head hh)
      cases hp : entry.pending with
      | none =>
          simp only [entryBytes, payload, hh, hp, Option.map_none, Option.toList_none,
            Option.map_some, Option.toList_some, List.append_nil, jsonBytes_obj entry.fields,
            jsonBytes_obj (_ :: _), byteLength_members_cons, byteLength_member, byteLength_keys,
            hliterals, hfields, hheadBytes]
          omega
      | some pending =>
          have hbytes := jsonBytes_pendingJson (hpending pending hp)
          simp only [entryBytes, payload, hh, hp, Option.map_some, Option.toList_some,
            List.cons_append, List.nil_append, jsonBytes_obj entry.fields,
            jsonBytes_obj (_ :: _), byteLength_members_cons, byteLength_member, byteLength_keys,
            hliterals, hfields, hbytes, hheadBytes]
          omega

/-! ## The store -/

namespace FrameMirror

variable {mirror : FrameMirror}

/-- The byte counter is the sum of the sizes of the entries, and each size is exact. -/
structure Summed (numberText : Rat → String) (mirror : FrameMirror) : Prop where
  counted : ∀ sessionID entry, mirror.entries.get sessionID = some entry → Counted numberText entry
  exact : ∀ sessionID entry, mirror.entries.get sessionID = some entry →
    entry.bytes = entryBytes entry
  bytes : mirror.bytes = mirror.entries.total fun entry => entry.bytes

/-- The entries of the one are entries of the other. -/
def Within (fewer more : FrameMirror) : Prop :=
  ∀ sessionID entry, fewer.entries.get sessionID = some entry →
    more.entries.get sessionID = some entry

theorem within_forget (mirror : FrameMirror) (sessionID : String) :
    Within (mirror.forget sessionID) mirror := by
  intro id entry h
  rw [forget, Table.get_delete] at h
  split_ifs at h
  exact h

theorem get_forget_self (mirror : FrameMirror) (sessionID : String) :
    (mirror.forget sessionID).entries.get sessionID = none := by
  rw [forget, Table.get_delete, if_pos rfl]

theorem Summed.forget (h : Summed numberText mirror) (sessionID : String) :
    Summed numberText (mirror.forget sessionID) := by
  refine ⟨fun id entry hget => h.counted id entry (within_forget mirror sessionID id entry hget),
    fun id entry hget => h.exact id entry (within_forget mirror sessionID id entry hget), ?_⟩
  unfold FrameMirror.forget
  cases hget : mirror.entries.get sessionID with
  | none =>
      simp only
      rw [Table.delete_of_absent hget]
      exact h.bytes
  | some entry =>
      simp only
      rw [Table.total_delete hget, h.bytes]

theorem forget_bytes_le (mirror : FrameMirror) (sessionID : String) :
    (mirror.forget sessionID).bytes ≤ mirror.bytes := by
  unfold FrameMirror.forget
  cases mirror.entries.get sessionID with
  | none => exact le_refl _
  | some entry =>
      simp only
      omega

theorem Summed.evict (h : Summed numberText mirror) (turns : ℕ) :
    Summed numberText (evict turns mirror) := by
  induction turns generalizing mirror with
  | zero => exact h
  | succ turns ih =>
      rw [FrameMirror.evict]
      split_ifs
      · split
        · exact h
        · exact ih (h.forget _)
      · exact h

theorem within_evict (turns : ℕ) (mirror : FrameMirror) : Within (evict turns mirror) mirror := by
  induction turns generalizing mirror with
  | zero => exact fun _ _ h => h
  | succ turns ih =>
      rw [FrameMirror.evict]
      split_ifs
      · split
        · exact fun _ _ h => h
        · rename_i oldest _ _ _
          exact fun id entry h => within_forget mirror oldest id entry (ih _ id entry h)
      · exact fun _ _ h => h

/-- Once every entry could have been forgotten the mirror is not full. -/
theorem Summed.not_isFull_evict (h : Summed numberText mirror) {turns : ℕ}
    (hturns : mirror.entries.size ≤ turns) : (FrameMirror.evict turns mirror).isFull = false := by
  have hempty : ∀ m : FrameMirror, Summed numberText m → m.entries.entries = [] →
      m.isFull = false := by
    intro m hm hnil
    have hbytes : m.bytes = 0 := by
      rw [hm.bytes, Table.total, hnil]
      rfl
    have hsize : m.entries.size = 0 := by
      rw [Table.size, hnil]
      rfl
    simp [isFull, hbytes, hsize, maxBytes]
  induction turns generalizing mirror with
  | zero =>
      exact hempty mirror h (List.eq_nil_of_length_eq_zero (Nat.le_zero.mp hturns))
  | succ turns ih =>
      rw [FrameMirror.evict]
      split_ifs with hfull
      · split
        · rename_i hnil
          exact hempty mirror h hnil
        · rename_i oldest entry rest hentries
          have hget : mirror.entries.get oldest = some entry :=
            Table.get_eq_some.mpr (hentries ▸ List.mem_cons_self)
          have hsmaller : (mirror.forget oldest).entries.size < mirror.entries.size :=
            Table.size_delete_lt hget
          exact ih (h.forget oldest) (by omega)
      · simpa using hfull

structure Bounded (numberText : Rat → String) (mirror : FrameMirror) : Prop
    extends Summed numberText mirror where
  targets : mirror.entries.size ≤ maxTargets
  budget : mirror.bytes ≤ maxBytes

theorem Bounded.forget (h : Bounded numberText mirror) (sessionID : String) :
    Bounded numberText (mirror.forget sessionID) where
  toSummed := h.toSummed.forget sessionID
  targets := (Table.size_delete_le ..).trans h.targets
  budget := (forget_bytes_le mirror sessionID).trans h.budget

/-- An entry as `keep` stores it. -/
def sized (entry : Entry) : Entry := { entry with bytes := entryBytes entry }

theorem Counted.sized (h : Counted numberText entry) : Counted numberText (sized entry) :=
  ⟨h.fields, h.head, h.pending⟩

theorem Bounded.keep (h : Bounded numberText mirror) (sessionID : String)
    (hentry : Counted numberText entry) : Bounded numberText (mirror.keep sessionID entry).1 := by
  unfold FrameMirror.keep
  simp only
  split_ifs
  · exact h.forget sessionID
  · have habsent := get_forget_self mirror sessionID
    have hstored : Summed numberText { mirror.forget sessionID with
        entries := (mirror.forget sessionID).entries.set sessionID (FrameMirror.sized entry)
        bytes := (mirror.forget sessionID).bytes + entryBytes entry } := by
      refine ⟨fun id e hget => ?_, fun id e hget => ?_, ?_⟩
      · rw [Table.get_set] at hget
        split_ifs at hget
        · rw [← Option.some.inj hget]
          exact Counted.sized hentry
        · exact (h.forget sessionID).counted id e hget
      · rw [Table.get_set] at hget
        split_ifs at hget
        · rw [← Option.some.inj hget]
          rfl
        · exact (h.forget sessionID).exact id e hget
      · rw [Table.total_set_of_absent habsent, ← (h.forget sessionID).bytes]
        rfl
    have hnot := hstored.not_isFull_evict (le_refl _)
    rw [isFull, Bool.or_eq_false_iff, decide_eq_false_iff_not, decide_eq_false_iff_not, not_lt,
      not_lt] at hnot
    exact ⟨hstored.evict _, hnot.1, hnot.2⟩

/-- What is there after `keep` was there before, or is what is kept. -/
theorem get_keep {sessionID id : String} {e : Entry}
    (h : (mirror.keep sessionID entry).1.entries.get id = some e) :
    (id = sessionID ∧ e = sized entry) ∨ (id ≠ sessionID ∧ mirror.entries.get id = some e) := by
  have hother : (mirror.forget sessionID).entries.get id = some e →
      id ≠ sessionID ∧ mirror.entries.get id = some e := by
    intro hget
    refine ⟨?_, within_forget mirror sessionID id e hget⟩
    rintro rfl
    rw [get_forget_self] at hget
    cases hget
  unfold FrameMirror.keep at h
  simp only at h
  split_ifs at h
  · exact .inr (hother h)
  · have hstored := within_evict _ _ id e h
    rw [Table.get_set] at hstored
    split_ifs at hstored with heq
    · exact .inl ⟨heq, (Option.some.inj hstored).symm⟩
    · exact .inr (hother hstored)

theorem evict_enabled (turns : ℕ) (mirror : FrameMirror) :
    (evict turns mirror).enabled = mirror.enabled := by
  induction turns generalizing mirror with
  | zero => rfl
  | succ turns ih =>
      rw [FrameMirror.evict]
      split_ifs
      · split
        · rfl
        · exact ih _
      · rfl

theorem keep_enabled (mirror : FrameMirror) (sessionID : String) (entry : Entry) :
    (mirror.keep sessionID entry).1.enabled = mirror.enabled := by
  unfold FrameMirror.keep
  simp only
  split_ifs
  · rfl
  · exact evict_enabled ..

/-! ### Every call keeps the bounds -/

variable {parse : String → Option Json}

theorem Bounded.empty (enabled : Bool) : Bounded numberText { enabled } where
  counted := by
    intro _ _ hget
    cases hget
  exact := by
    intro _ _ hget
    cases hget
  bytes := rfl
  targets := Nat.zero_le _
  budget := by simp [maxBytes]

theorem Bounded.setEnabled (h : Bounded numberText mirror) (enabled : Bool) :
    Bounded numberText (mirror.setEnabled enabled) := by
  unfold FrameMirror.setEnabled
  split_ifs
  · exact ⟨⟨h.counted, h.exact, h.bytes⟩, h.targets, h.budget⟩
  · exact .empty false

variable (numberText mirror) in
/-- A replay moves an entry to the end, and changes none. -/
theorem get_replay (sessionID id : String) :
    (mirror.replay numberText sessionID).1.entries.get id = mirror.entries.get id := by
  unfold FrameMirror.replay
  split
  · rfl
  · rename_i entry hget
    split
    · rfl
    · simp only
      rw [Table.get_set, Table.get_delete]
      split_ifs with heq
      · rw [heq, hget]
      · rfl

theorem replay_enabled (sessionID : String) :
    (mirror.replay numberText sessionID).1.enabled = mirror.enabled := by
  unfold FrameMirror.replay
  split
  · rfl
  · split <;> rfl

theorem Bounded.replay (h : Bounded numberText mirror) (sessionID : String) :
    Bounded numberText (mirror.replay numberText sessionID).1 := by
  have hget := fun id => get_replay numberText mirror sessionID id
  have hcounted : ∀ id e, (mirror.replay numberText sessionID).1.entries.get id = some e →
      mirror.entries.get id = some e := fun id e he => (hget id).symm.trans he
  suffices hsizes : (mirror.replay numberText sessionID).1.bytes = mirror.bytes ∧
      (mirror.replay numberText sessionID).1.entries.total (fun entry => entry.bytes) =
        mirror.entries.total (fun entry => entry.bytes) ∧
      (mirror.replay numberText sessionID).1.entries.size ≤ mirror.entries.size by
    refine ⟨⟨fun id e he => h.counted id e (hcounted id e he),
      fun id e he => h.exact id e (hcounted id e he), ?_⟩, hsizes.2.2.trans h.targets, ?_⟩
    · rw [hsizes.1, hsizes.2.1]
      exact h.bytes
    · rw [hsizes.1]
      exact h.budget
  unfold FrameMirror.replay
  split
  · exact ⟨rfl, rfl, le_refl _⟩
  · rename_i entry hentry
    split
    · exact ⟨rfl, rfl, le_refl _⟩
    · have habsent : (mirror.entries.delete sessionID).get sessionID = none := by
        rw [Table.get_delete, if_pos rfl]
      have hsmaller := Table.size_delete_lt hentry
      have hsize : ((mirror.entries.delete sessionID).set sessionID entry).size =
          (mirror.entries.delete sessionID).size + 1 := by
        rw [Table.size, Table.entries_set_of_absent habsent, List.length_append]
        rfl
      refine ⟨rfl, ?_, ?_⟩
      · rw [Table.total_set_of_absent habsent, Table.total_delete hentry, Int.sub_add_cancel]
      · simp only
        omega

/-- A send counts what it is kept with: a delta takes the fields and head of its prior entry. -/
theorem Bounded.sendBody (h : Bounded numberText mirror) (sessionID : String) (body : Members) :
    Bounded numberText (mirror.sendBody numberText sessionID body) := by
  unfold FrameMirror.sendBody
  cases hinput : (body.lookup "input").bind Json.array? with
  | none => exact h.forget sessionID
  | some input =>
      simp only
      split_ifs with hbroken hprevious
      · exact h.forget sessionID
      · cases hprior : mirror.entries.get sessionID with
        | none => exact h.keep sessionID ⟨rfl, by simp, by simp [inputBytes]⟩
        | some prior =>
            have hcounted := h.counted sessionID prior hprior
            exact h.keep sessionID ⟨hcounted.fields, hcounted.head, by simp [inputBytes]⟩
      · exact h.keep sessionID ⟨rfl, by simp, by simp [inputBytes]⟩

theorem Bounded.send (h : Bounded numberText mirror) (sessionID frame : String) :
    Bounded numberText (mirror.send numberText parse sessionID frame) := by
  unfold FrameMirror.send
  split_ifs
  · exact h
  · split
    · exact h
    · split_ifs
      · exact h.sendBody sessionID _
      · exact h

theorem Bounded.receiveEvent (h : Bounded numberText mirror) {sessionID : String} {entry : Entry}
    {pending : Pending} (hentry : mirror.entries.get sessionID = some entry)
    (hpending : entry.pending = some pending) (event : Event) :
    Bounded numberText (mirror.receiveEvent numberText sessionID entry pending event).1 := by
  have hcounted := h.counted sessionID entry hentry
  obtain ⟨hinput, houtput, hid⟩ := hcounted.pending pending hpending
  cases event with
  | created responseID =>
      rw [FrameMirror.receiveEvent]
      refine h.keep sessionID ⟨hcounted.fields, hcounted.head, ?_⟩
      rintro _ ⟨rfl⟩
      exact ⟨hinput, houtput, fun _ hmem => by cases hmem; rfl⟩
  | item responseID item =>
      rw [FrameMirror.receiveEvent]
      split_ifs
      · exact h
      · refine h.keep sessionID ⟨hcounted.fields, hcounted.head, ?_⟩
        rintro _ ⟨rfl⟩
        refine ⟨hinput, ?_, hid⟩
        rw [inputBytes_append, ← houtput]
        simp [inputBytes]
  | completed responseID =>
      have hhead : Counted numberText
          { entry with head := some (complete numberText entry pending responseID), pending := none } := by
        refine ⟨hcounted.fields, ?_, by simp⟩
        rintro _ ⟨rfl⟩
        refine ⟨?_, ?_⟩
        · simp only [complete]
          split_ifs with hsame
          · exact hid responseID hsame
          · rfl
        · simp only [complete]
          rw [inputBytes_append, inputBytes_append, hinput, houtput]
          cases hh : entry.head with
          | none => simp [inputBytes]
          | some head => simp [(hcounted.head head hh).2]
      rw [FrameMirror.receiveEvent]
      split_ifs
      · exact h
      · simp only
        split_ifs <;> exact h.keep sessionID hhead
  | other => exact h

theorem Bounded.receive (h : Bounded numberText mirror) (sessionID frame : String) :
    Bounded numberText (mirror.receive numberText parse sessionID frame).1 := by
  unfold FrameMirror.receive
  split_ifs
  · exact h
  · split
    · exact h
    · rename_i entry hentry
      split
      · rename_i pending event hpending _
        exact h.receiveEvent hentry hpending _
      · exact h

end FrameMirror

end

end Mirror
