import Mathlib.Data.List.Perm.Subperm
import OpenaiAuth.FrameTurns.State

/-! # When a frame starts a turn

The record of a session stands for its conversation as the last frame had it: it is
kept while fewer than `maxSessions` others come in between, and once a full frame has
been sent it counts the user messages. So what a frame does can be told from the
conversation alone.

Main result: `frame_turns`.
-/

namespace FrameTurns

open Js Effort

/-! ## The last messages of an input -/

theorem findLastIndex_bind {α : Type} (p : α → Bool) (items : List α) :
    ((findLastIndex p items).bind fun last => items[last]?) = (items.filter p).getLast? := by
  induction items with
  | nil => rfl
  | cons item rest ih =>
    rw [findLastIndex, List.filter_cons]
    cases h : findLastIndex p rest with
    | some last =>
      rw [h] at ih
      obtain ⟨found, hfound, hp⟩ := findLastIndex_get h
      have hlast : (rest.filter p).getLast? = some found := by rw [← ih]; simpa using hfound
      simp only [Option.bind_some, List.getElem?_cons_succ, hfound]
      cases p item with
      | true => simp [List.getLast?_cons, hlast]
      | false => simp [hlast]
    | none =>
      rw [h] at ih
      have hnil : rest.filter p = [] := List.getLast?_eq_none_iff.mp ih.symm
      rw [hnil]
      cases hp : p item <;> simp

theorem opensTurn_cons (item : Json) (rest : List Json) :
    opensTurn (item :: rest) = true ↔ opensTurn rest = true ∨
      (isUserMessage item = true ∧ ∀ later ∈ item :: rest, isModelOrToolItem later = false) := by
  unfold opensTurn
  rw [findLastIndex, findLastIndex, List.forall_mem_cons]
  cases husers : findLastIndex isUserMessage rest with
  | some lastUser =>
    cases hitems : findLastIndex isModelOrToolItem rest with
    | some lastItem =>
      obtain ⟨found, hfound, hp⟩ := findLastIndex_get hitems
      have hmem := List.mem_of_getElem? hfound
      simp only [Nat.add_lt_add_iff_right, iff_self_or]
      rintro ⟨-, -, hnone⟩
      rw [hnone found hmem] at hp
      cases hp
    | none =>
      cases isModelOrToolItem item <;> simp
  | none =>
    cases hitems : findLastIndex isModelOrToolItem rest with
    | some lastItem =>
      obtain ⟨found, hfound, hp⟩ := findLastIndex_get hitems
      have hmem := List.mem_of_getElem? hfound
      have hsome : ¬ ∀ later ∈ rest, isModelOrToolItem later = false := by
        intro hnone
        rw [hnone found hmem] at hp
        cases hp
      cases isUserMessage item <;> simp [hsome]
    | none =>
      have hnone := findLastIndex_eq_none.mp hitems
      cases isUserMessage item with
      | false => simp
      | true =>
        cases isModelOrToolItem item with
        | true => simp
        | false => simpa using hnone

/-- A user message with no model or tool item at it or after it. -/
def EndsOnUser (input : List Json) : Prop :=
  ∃ before item after, input = before ++ item :: after ∧ isUserMessage item = true ∧
    ∀ later ∈ item :: after, isModelOrToolItem later = false

theorem opensTurn_iff (input : List Json) : opensTurn input = true ↔ EndsOnUser input := by
  induction input with
  | nil => simp [opensTurn, EndsOnUser, findLastIndex]
  | cons first rest ih =>
    rw [opensTurn_cons, ih]
    constructor
    · rintro (⟨before, item, after, rfl, hends⟩ | hends)
      · exact ⟨first :: before, item, after, rfl, hends⟩
      · exact ⟨[], first, rest, rfl, hends⟩
    · rintro ⟨before, item, after, heq, hends⟩
      cases before with
      | nil =>
        cases heq
        exact .inr hends
      | cons other before =>
        cases heq
        exact .inl ⟨before, item, after, rfl, hends⟩

/-! ## The record is kept -/

section Kept

variable {F : Type} {maxSessions : ℕ} {sessions : Table (FrameTurnRecord F)}
  {sessionID other : String} {record given : FrameTurnRecord F} {others : List String}

/-- Only these sessions have been used since the session that has this record. -/
def Recent (sessions : Table (FrameTurnRecord F)) (sessionID : String)
    (record : FrameTurnRecord F) (others : List String) : Prop :=
  ∃ before after, sessions.entries = before ++ (sessionID, record) :: after ∧
    ∀ entry ∈ after, entry.1 ∈ others

theorem Recent.get (h : Recent sessions sessionID record others) :
    sessions.get sessionID = some record := by
  obtain ⟨before, after, heq, -⟩ := h
  rw [Table.get_eq_some, heq]
  simp

theorem Recent.mono {more : List String} (h : Recent sessions sessionID record others)
    (hmore : others ⊆ more) : Recent sessions sessionID record more := by
  obtain ⟨before, after, heq, hafter⟩ := h
  exact ⟨before, after, heq, fun entry hentry => hmore (hafter entry hentry)⟩

theorem entries_setRecord (sessions : Table (FrameTurnRecord F)) (sessionID : String)
    (record : FrameTurnRecord F) :
    (setRecord maxSessions sessions sessionID record).entries =
      ((sessions.delete sessionID).entries ++ [(sessionID, record)]).drop
        ((sessions.delete sessionID).entries.length + 1 - maxSessions) := by
  have habsent : (sessions.delete sessionID).get sessionID = none := by simp [Table.get_delete]
  have hset := Table.entries_set_of_absent habsent record
  simp [setRecord, Table.drop, Table.size, hset]

theorem recent_setRecord (hmax : 0 < maxSessions) (record : FrameTurnRecord F) :
    Recent (setRecord maxSessions sessions sessionID record) sessionID record [] := by
  refine ⟨(sessions.delete sessionID).entries.drop
    ((sessions.delete sessionID).entries.length + 1 - maxSessions), [], ?_, by simp⟩
  rw [entries_setRecord, List.drop_append_of_le_length (by omega)]

theorem Recent.delete (h : Recent sessions sessionID record others) (differs : other ≠ sessionID) :
    Recent (sessions.delete other) sessionID record others := by
  obtain ⟨before, after, heq, hafter⟩ := h
  refine ⟨before.filter fun entry => entry.1 ≠ other, after.filter fun entry => entry.1 ≠ other,
    ?_, fun entry hentry => hafter entry (List.mem_of_mem_filter hentry)⟩
  simp only [Table.delete, Table.filter, heq, List.filter_append, List.filter_cons]
  simp [differs.symm]

/-- The session stays as long as it and those used since are no more than the bound. -/
theorem Recent.setRecord (h : Recent sessions sessionID record others)
    (differs : other ≠ sessionID) (few : (others.insert other).length < maxSessions) :
    Recent (setRecord maxSessions sessions other given) sessionID record
      (others.insert other) := by
  have hdelete : (sessions.delete other).get other = none := by simp [Table.get_delete]
  obtain ⟨before, after, heq, hafter⟩ := h.delete differs
  have hkeys : ((after ++ [(other, given)]).map Prod.fst).Nodup := by
    have hnodup := ((sessions.delete other).set other given).nodup
    rw [Table.entries_set_of_absent hdelete, heq, List.append_assoc, List.cons_append,
      List.map_append, List.map_cons] at hnodup
    exact (List.nodup_cons.mp hnodup.of_append_right).2
  have hsubset : (after ++ [(other, given)]).map Prod.fst ⊆ others.insert other := by
    intro key hkey
    obtain ⟨entry, hentry, rfl⟩ := List.mem_map.mp hkey
    rcases List.mem_append.mp hentry with hentry | hentry
    · exact List.mem_insert_of_mem (hafter entry hentry)
    · rw [List.mem_singleton.mp hentry]
      exact List.mem_insert_self
  have hlength := (List.subperm_of_subset hkeys hsubset).length_le
  rw [List.length_map, List.length_append, List.length_singleton] at hlength
  refine ⟨before.drop ((sessions.delete other).entries.length + 1 - maxSessions),
    after ++ [(other, given)], ?_, ?_⟩
  · rw [entries_setRecord, heq, List.append_assoc, List.cons_append, List.drop_append_of_le_length]
    rw [List.length_append, List.length_cons]
    omega
  · intro entry hentry
    exact hsubset (List.mem_map_of_mem hentry)

theorem get_setRecord_none (h : sessions.get sessionID = none) (differs : other ≠ sessionID) :
    (setRecord maxSessions sessions other given).get sessionID = none := by
  rw [FrameTurns.setRecord, Table.get_drop]
  split
  · rfl
  · rw [Table.get_set_of_ne differs.symm, Table.get_delete, if_neg differs.symm]
    exact h

end Kept

/-! ## What the record stands for -/

section Tracks

variable {F : Type} [DecidableEq F] {fingerprint : Json → F} {parseObject : Units → Option Json}
  {maxSessions : ℕ} {sessionID : String} {s t : System F} {frame : Json} {fresh : FrameTurn}
  {record : FrameTurnRecord F}

omit [DecidableEq F] in
theorem lastFingerprint_eq (input : List Json) :
    lastFingerprint fingerprint input = (input.filter isUserMessage).getLast?.map fingerprint := by
  rw [← findLastIndex_bind, lastFingerprint]
  cases h : findLastIndex isUserMessage input with
  | none => rfl
  | some last =>
    obtain ⟨found, hfound, -⟩ := findLastIndex_get h
    simp [hfound]

/-- The conversation as the last frame had it. -/
def System.seen (s : System F) : List Json := s.history.take s.framed

omit [DecidableEq F] in
theorem System.users (s : System F) : s.history.filter isUserMessage =
    s.seen.filter isUserMessage ++ s.appended.filter isUserMessage := by
  rw [← List.filter_append, System.seen, System.appended, List.take_append_drop]

/-- A record says whether its frame was completed; it counts the user messages once a
full frame has been sent, and then has the fingerprint of the last one. -/
structure Tracks (fingerprint : Json → F) (s : System F) (record : FrameTurnRecord F) : Prop where
  completed : record.completed = s.completed
  userCount : record.userCount =
    if s.counted then some (s.seen.filter isUserMessage).length else none
  fingerprint : s.counted = true → record.fingerprint = lastFingerprint fingerprint s.seen

structure Inv (fingerprint : Json → F) (sessionID : String) (s : System F) : Prop where
  framed_le : s.framed ≤ s.history.length
  absent : s.turn = none → s.sessions.get sessionID = none ∧ s.counted = false
  kept : ∀ turn, s.turn = some turn → ∃ record, record.toFrameTurn = turn ∧
    Recent s.sessions sessionID record s.others ∧ Tracks fingerprint s record

/-- A full frame is a resend when nothing has been completed and no user message was
appended, as far as the count can tell. -/
theorem frameRule_full (tracks : Tracks fingerprint s record) (full : isChained frame = false)
    (input : inputOf frame = s.history) :
    (frameRule fingerprint (some record) frame).1 = true ↔
      opensTurn s.history = true ∧ (s.completed = true ∨ s.counted = false ∨
        s.appended.filter isUserMessage ≠ []) := by
  have resend : (!record.completed &&
      decide (record.fingerprint = lastFingerprint fingerprint s.history) &&
      decide (record.userCount = some (s.history.filter isUserMessage).length)) = true ↔
      s.completed = false ∧ s.counted = true ∧ s.appended.filter isUserMessage = [] := by
    rw [Bool.and_eq_true, Bool.and_eq_true, tracks.completed, tracks.userCount, Bool.not_eq_true',
      decide_eq_true_eq, decide_eq_true_eq, and_assoc]
    refine and_congr_right fun _ => ?_
    cases counted : s.counted with
    | false => simp
    | true =>
      rw [tracks.fingerprint counted, lastFingerprint_eq, lastFingerprint_eq, s.users]
      constructor
      · rintro ⟨-, hcount⟩
        refine ⟨rfl, ?_⟩
        simpa using hcount
      · rintro ⟨-, hnone⟩
        simp [hnone]
  unfold frameRule
  simp only [full, Bool.false_eq_true, if_false, input, Option.any_some, Bool.and_eq_true,
    Bool.not_eq_true']
  refine and_congr_right fun _ => ?_
  rw [← Bool.not_eq_true, resend]
  cases s.completed <;> cases s.counted <;> simp

theorem frameRule_chained (prior : Option (FrameTurnRecord F)) (chained : isChained frame = true) :
    (frameRule fingerprint prior frame).1 = true ↔
      (inputOf frame).filter isUserMessage ≠ [] := by
  unfold frameRule
  simp [chained]

/-- What starts a turn: the first frame, a delta with a user message, and a full frame
that ends on a user message, unless the one before was not completed, a full frame has
been sent, and no user message was appended. -/
def StartsTurn (s : System F) (frame : Json) : Prop :=
  s.turn = none ∨
    if isChained frame then ∃ item ∈ s.appended, isUserMessage item = true
    else EndsOnUser s.history ∧ (s.completed = true ∨ s.counted = false ∨
      ∃ item ∈ s.appended, isUserMessage item = true)

omit [DecidableEq F] in
theorem users_appended :
    s.appended.filter isUserMessage ≠ [] ↔ ∃ item ∈ s.appended, isUserMessage item = true := by
  rw [ne_eq, List.filter_eq_nil_iff]
  simp

theorem Inv.turn (inv : Inv fingerprint sessionID s) (frames : Frames s frame)
    (fresh : FrameTurn) :
    (StartsTurn s frame →
      (advance fingerprint maxSessions s.sessions sessionID frame fresh).1 = fresh) ∧
    (¬ StartsTurn s frame →
      some (advance fingerprint maxSessions s.sessions sessionID frame fresh).1 = s.turn) := by
  unfold advance
  cases hturn : s.turn with
  | none =>
    rw [(inv.absent hturn).1]
    exact ⟨fun _ => rfl, fun h => absurd (.inl hturn) h⟩
  | some turn =>
    obtain ⟨record, rfl, recent, tracks⟩ := inv.kept turn hturn
    have rule : (frameRule fingerprint (some record) frame).1 = true ↔ StartsTurn s frame := by
      unfold StartsTurn
      unfold Frames at frames
      rw [hturn]
      cases chained : isChained frame with
      | true =>
        rw [chained] at frames
        rw [frameRule_chained _ chained, frames.2 (by rw [hturn]; rfl), users_appended]
        simp
      | false =>
        rw [chained] at frames
        rw [frameRule_full tracks chained frames, opensTurn_iff, users_appended]
        simp
    rw [← rule, recent.get]
    simp only
    constructor
    · intro starts
      rw [if_pos starts]
    · intro stays
      rw [if_neg stays]

/-- A frame's own record stands for the whole conversation. -/
theorem Inv.tracks_sent (inv : Inv fingerprint sessionID s) (frames : Frames s frame) :
    let rule := frameRule fingerprint (s.sessions.get sessionID) frame
    let counted := s.counted || !isChained frame
    (rule.2.2 = if counted then some (s.history.filter isUserMessage).length else none) ∧
      (counted = true → rule.2.1 = lastFingerprint fingerprint s.history) := by
  unfold Frames at frames
  unfold frameRule
  cases chained : isChained frame with
  | false =>
    rw [chained] at frames
    have input : inputOf frame = s.history := frames
    simp [input]
  | true =>
    rw [chained] at frames
    simp only [Bool.not_true, Bool.or_false, if_true]
    cases hturn : s.turn with
    | none =>
      obtain ⟨absent, uncounted⟩ := inv.absent hturn
      simp [absent, uncounted]
    | some turn =>
      -- the delta has the user messages that were appended
      obtain ⟨record, -, recent, tracks⟩ := inv.kept turn hturn
      have delta := frames.2 (by rw [hturn]; rfl)
      rw [recent.get]
      cases counted : s.counted with
      | false =>
        have count := tracks.userCount
        rw [counted] at count
        simp only [Bool.false_eq_true, if_false] at count
        simp [count]
      | true =>
        have count := tracks.userCount
        rw [counted, if_pos rfl] at count
        simp only [Option.bind_some, count, Option.map_some, tracks.fingerprint counted,
          lastFingerprint_eq, delta, s.users, List.length_append, List.getLast?_append, if_true,
          true_and, forall_const]
        rw [Option.map_or]

omit [DecidableEq F] in
theorem inv_start : Inv fingerprint sessionID ({} : System F) where
  framed_le := le_rfl
  absent _ := ⟨rfl, rfl⟩
  kept _ h := by cases h

omit [DecidableEq F] in
theorem Inv.grown (inv : Inv fingerprint sessionID s) (items : List Json) :
    Inv fingerprint sessionID { s with history := s.history ++ items } := by
  have seen : System.seen { s with history := s.history ++ items } = s.seen :=
    List.take_append_of_le_length inv.framed_le
  refine ⟨inv.framed_le.trans (by simp), inv.absent, ?_⟩
  intro turn hturn
  obtain ⟨record, hrecord, recent, tracks⟩ := inv.kept turn hturn
  refine ⟨record, hrecord, recent, tracks.completed, ?_, ?_⟩
  · rw [seen]
    exact tracks.userCount
  · rw [seen]
    exact tracks.fingerprint

theorem Inv.sent (inv : Inv fingerprint sessionID s) (hmax : 0 < maxSessions)
    (frames : Frames s frame) :
    Inv fingerprint sessionID (sent fingerprint maxSessions sessionID s frame fresh) := by
  obtain ⟨count, last⟩ := inv.tracks_sent frames
  have seen : System.seen (FrameTurns.sent fingerprint maxSessions sessionID s frame fresh) =
      s.history := List.take_length
  refine ⟨le_rfl, fun h => ?_, ?_⟩
  · cases h
  · intro turn hturn
    cases hturn
    refine ⟨_, rfl, recent_setRecord hmax _, rfl, ?_, ?_⟩
    · rw [seen]
      exact count
    · rw [seen]
      exact last

omit [DecidableEq F] in
theorem Inv.received (inv : Inv fingerprint sessionID s) (hmax : 0 < maxSessions) (text : Units) :
    Inv fingerprint sessionID (received parseObject maxSessions sessionID s text) := by
  unfold FrameTurns.received frameReceived
  cases hcompleted : isCompletedFrame parseObject text with
  | false =>
    -- nothing changes
    simpa using inv
  | true =>
    simp only [if_true, Bool.and_true]
    refine ⟨inv.framed_le, ?_, ?_⟩
    · intro hturn
      obtain ⟨absent, uncounted⟩ := inv.absent hturn
      refine ⟨?_, uncounted⟩
      unfold completed
      rw [absent]
      exact absent
    · intro turn hturn
      obtain ⟨record, hrecord, recent, tracks⟩ := inv.kept turn hturn
      have some : s.turn.isSome = true := by rw [show s.turn = .some turn from hturn]; rfl
      refine ⟨{ record with completed := true }, hrecord, ?_, ?_, tracks.userCount,
        tracks.fingerprint⟩
      · unfold completed
        rw [recent.get, some, if_pos rfl]
        exact recent_setRecord hmax _
      · simp [some]

/-- Another session's call leaves this one's record where fewer than the bound have come
in between. -/
theorem Inv.called {other : String} {call : Call} (inv : Inv fingerprint sessionID s)
    (differs : other ≠ sessionID)
    (few : (called fingerprint parseObject maxSessions s other call).others.length < maxSessions) :
    Inv fingerprint sessionID (called fingerprint parseObject maxSessions s other call) := by
  cases call with
  | advance frame fresh =>
    refine ⟨inv.framed_le, ?_, ?_⟩
    · intro hturn
      exact ⟨get_setRecord_none (inv.absent hturn).1 differs, (inv.absent hturn).2⟩
    · intro turn hturn
      obtain ⟨record, hrecord, recent, tracks⟩ := inv.kept turn hturn
      exact ⟨record, hrecord, recent.setRecord differs few, ⟨tracks.1, tracks.2, tracks.3⟩⟩
  | received text =>
    -- the other's record is set again, or nothing changes
    have sessions : (FrameTurns.called fingerprint parseObject maxSessions s other
        (.received text)).sessions = s.sessions ∨ ∃ given,
        (FrameTurns.called fingerprint parseObject maxSessions s other (.received text)).sessions =
          setRecord maxSessions s.sessions other given := by
      simp only [FrameTurns.called, frameReceived, completed]
      split
      · split
        · exact .inr ⟨_, rfl⟩
        · exact .inl rfl
      · exact .inl rfl
    refine ⟨inv.framed_le, ?_, ?_⟩
    · intro hturn
      obtain ⟨absent, uncounted⟩ := inv.absent hturn
      refine ⟨?_, uncounted⟩
      rcases sessions with same | ⟨given, changed⟩
      · rw [same]
        exact absent
      · rw [changed]
        exact get_setRecord_none absent differs
    · intro turn hturn
      obtain ⟨record, hrecord, recent, tracks⟩ := inv.kept turn hturn
      refine ⟨record, hrecord, ?_, ⟨tracks.1, tracks.2, tracks.3⟩⟩
      rcases sessions with same | ⟨given, changed⟩
      · rw [same]
        exact recent.mono (List.subset_insert ..)
      · rw [changed]
        exact recent.setRecord differs few
  | forget =>
    refine ⟨inv.framed_le, ?_, ?_⟩
    · intro hturn
      obtain ⟨absent, uncounted⟩ := inv.absent hturn
      refine ⟨?_, uncounted⟩
      rw [FrameTurns.called, forget, Table.get_delete, if_neg differs.symm]
      exact absent
    · intro turn hturn
      obtain ⟨record, hrecord, recent, tracks⟩ := inv.kept turn hturn
      exact ⟨record, hrecord, recent.delete differs, ⟨tracks.1, tracks.2, tracks.3⟩⟩

theorem Reached.inv (h : Reached fingerprint parseObject maxSessions sessionID s) :
    0 < maxSessions ∧ Inv fingerprint sessionID s := by
  induction h with
  | start hmax => exact ⟨hmax, inv_start⟩
  | step _ step few ih =>
    obtain ⟨hmax, inv⟩ := ih
    refine ⟨hmax, ?_⟩
    cases step with
    | grown items => exact inv.grown items
    | framed frame fresh frames => exact inv.sent hmax frames
    | received text => exact inv.received hmax text
    | called other call differs => exact inv.called differs few

/-! ## Every frame of a run -/

theorem EndsOnUser.prepend {input : List Json} (h : EndsOnUser input) (items : List Json) :
    EndsOnUser (items ++ input) := by
  obtain ⟨before, item, after, rfl, hends⟩ := h
  exact ⟨items ++ before, item, after, by simp, hends⟩

/-- A message of the second part is one to end on when the whole ends on one. -/
theorem EndsOnUser.of_append {seen input : List Json} (h : EndsOnUser (seen ++ input))
    (user : ∃ item ∈ input, isUserMessage item = true) : EndsOnUser input := by
  obtain ⟨before, item, after, heq, huser, hlater⟩ := h
  rcases List.append_eq_append_iff.mp heq with ⟨rest, rfl, rfl⟩ | ⟨rest, rfl, hrest⟩
  · exact ⟨rest, item, after, rfl, huser, hlater⟩
  · -- the message stands before the second part, so no item of it is the model's
    obtain ⟨own, hown, howner⟩ := user
    obtain ⟨first, last, rfl⟩ := List.append_of_mem hown
    refine ⟨first, own, last, rfl, howner, ?_⟩
    intro later hmem
    cases rest with
    | nil =>
      rw [List.nil_append] at hrest
      exact hlater later (by rw [hrest]; exact List.mem_append_right _ hmem)
    | cons head rest =>
      cases hrest
      refine hlater later (List.mem_cons_of_mem _ (List.mem_append_right _ ?_))
      exact List.mem_append_right _ hmem

/-- A delta with a user message ends on one, and a full frame that follows a completed
one, or the deltas of a session that has sent no full one, ends on a user message only
where one was appended. -/
def Plain (s : System F) (frame : Json) : Prop :=
  if isChained frame then (∃ item ∈ s.appended, isUserMessage item = true) → EndsOnUser s.appended
  else EndsOnUser s.history → (s.completed = true ∨ s.counted = false) →
    ∃ item ∈ s.appended, isUserMessage item = true

omit [DecidableEq F] in
theorem startsTurn_iff (plain : Plain s frame) :
    StartsTurn s frame ↔ s.turn = none ∨ EndsOnUser s.appended := by
  have whole : s.history = s.seen ++ s.appended := (List.take_append_drop ..).symm
  have user : EndsOnUser s.appended → ∃ item ∈ s.appended, isUserMessage item = true := by
    rintro ⟨before, item, after, heq, huser, -⟩
    exact ⟨item, by rw [heq]; simp, huser⟩
  unfold StartsTurn
  unfold Plain at plain
  refine or_congr_right ?_
  split
  · rename_i chained
    rw [if_pos chained] at plain
    exact ⟨plain, user⟩
  · rename_i full
    rw [if_neg full] at plain
    constructor
    · rintro ⟨ends, completed | uncounted | appended⟩
      · exact (whole ▸ ends).of_append (plain ends (.inl completed))
      · exact (whole ▸ ends).of_append (plain ends (.inr uncounted))
      · exact (whole ▸ ends).of_append appended
    · intro ends
      exact ⟨whole ▸ ends.prepend s.seen, .inr (.inr (user ends))⟩

/-- In every run with fewer than `maxSessions` other sessions in between: a frame is
sent in the turn minted for it when it starts one, and in the turn of the frame before
when it does not; and in plain sessions it starts one exactly when it is the first or
carries a user message, appended since, after all model and tool items. -/
theorem frame_turns (reached : Reached fingerprint parseObject maxSessions sessionID s)
    (frames : Frames s frame) (fresh : FrameTurn) :
    (StartsTurn s frame →
      (sent fingerprint maxSessions sessionID s frame fresh).turn = some fresh) ∧
    (¬ StartsTurn s frame →
      (sent fingerprint maxSessions sessionID s frame fresh).turn = s.turn) ∧
    (Plain s frame → (StartsTurn s frame ↔ s.turn = none ∨ EndsOnUser s.appended)) := by
  obtain ⟨starts, stays⟩ := reached.inv.2.turn frames fresh
  exact ⟨fun h => congrArg some (starts h), fun h => stays h, startsTurn_iff⟩

end Tracks

/-! ## Two sessions -/

def userItem (text : String) : Json :=
  .obj [("type", .str "message"), ("role", .str "user"), ("content", .str text)]

def outputItem : Json := .obj [("type", .str "function_call_output")]

def fullFrame (input : List Json) : Json :=
  .obj [("type", .str "response.create"), ("input", .arr input)]

def deltaFrame (input : List Json) : Json :=
  .obj [("type", .str "response.create"), ("input", .arr input),
    ("previous_response_id", .str "resp")]

/-- The text of a completed response, for a parser that knows just this text. -/
def completedText : Units := Units.of "response.completed"

def parseCompleted (text : Units) : Option Json :=
  if text = completedText then some (.obj [("type", .str "response.completed")]) else none

theorem not_chained_fullFrame (input : List Json) : ¬ isChained (fullFrame input) = true :=
  Bool.false_ne_true

theorem frames_fullFrame {F : Type} (s : System F) : Frames s (fullFrame s.history) := by
  unfold Frames
  rw [if_neg (not_chained_fullFrame _)]
  rfl

/-- A resend after a frame that was not completed. -/
theorem frame_turns_resend : ∃ s : System Json,
    Reached id parseCompleted 1 "session" s ∧ s.turn = some ⟨"first", 0⟩ ∧
    (sent id 1 "session" s (fullFrame s.history) ⟨"second", 1⟩).turn = s.turn := by
  have start : Reached (id : Json → Json) parseCompleted 1 "session" {} := .start (by decide)
  have grown := Reached.step start (.grown [userItem "one"]) (by decide)
  have framed := Reached.step grown
    (.framed (fullFrame [userItem "one"]) ⟨"first", 0⟩ rfl) (by decide)
  refine ⟨_, framed, rfl, (frame_turns framed (frames_fullFrame _) _).2.1 ?_⟩
  rintro (first | starts)
  · cases first
  · rw [if_neg (not_chained_fullFrame _)] at starts
    obtain ⟨-, completed | uncounted | ⟨item, hmem, -⟩⟩ := starts
    · cases completed
    · cases uncounted
    · cases hmem

/-- Three frames that start a turn though nothing appended since the frame before is a
user message after all items: a delta whose user message comes before tool output, a
full frame sent again after a completed one, and a resend in a session of deltas. -/
theorem frame_turns_wrong :
    (∃ s : System Json, Reached id parseCompleted 1 "session" s ∧ s.turn = some ⟨"first", 0⟩ ∧
      ¬ EndsOnUser s.appended ∧ ∃ frame, Frames s frame ∧
      (sent id 1 "session" s frame ⟨"second", 1⟩).turn = some ⟨"second", 1⟩) ∧
    (∃ s : System Json, Reached id parseCompleted 1 "session" s ∧ s.turn = some ⟨"first", 0⟩ ∧
      s.appended = [] ∧ s.completed = true ∧ Frames s (fullFrame s.history) ∧
      (sent id 1 "session" s (fullFrame s.history) ⟨"second", 1⟩).turn = some ⟨"second", 1⟩) ∧
    ∃ s : System Json, Reached id parseCompleted 1 "session" s ∧ s.turn = some ⟨"first", 0⟩ ∧
      s.appended = [] ∧ s.completed = false ∧ Frames s (fullFrame s.history) ∧
      (sent id 1 "session" s (fullFrame s.history) ⟨"second", 1⟩).turn = some ⟨"second", 1⟩ := by
  have start : Reached (id : Json → Json) parseCompleted 1 "session" {} := .start (by decide)
  have grown := Reached.step start (.grown [userItem "one"]) (by decide)
  have framed := Reached.step grown
    (.framed (fullFrame [userItem "one"]) ⟨"first", 0⟩ rfl) (by decide)
  have done := Reached.step framed (.received completedText) (by decide)
  refine ⟨?_, ⟨_, done, by decide +kernel, rfl, by decide +kernel, rfl, by decide +kernel⟩, ?_⟩
  · have more := Reached.step done (.grown [userItem "two", outputItem]) (by decide)
    refine ⟨_, more, by decide +kernel, ?_, deltaFrame [userItem "two", outputItem], ?_,
      by decide +kernel⟩
    · rw [← opensTurn_iff]
      decide +kernel
    · exact ⟨List.Sublist.refl _, fun _ => rfl⟩
  · have delta := Reached.step grown
      (.framed (deltaFrame [userItem "one"]) ⟨"first", 0⟩ ⟨List.Sublist.refl _, fun h => by cases h⟩)
      (by decide)
    exact ⟨_, delta, by decide +kernel, rfl, rfl, rfl, by decide +kernel⟩

end FrameTurns
