import OpenaiAuth.Sidebar.Placement

/-! # Session pins of an OpenCode 2 server process

`SessionPins` keeps the account each session is pinned to, at most `limit` sessions,
and the reservations of choices that have not been committed or given up. What the
pins are published to is left out.

Main results: `get_placementSnapshot`, `get_set`, `mem_oldest`, and `finish_cases`, which
says what a finished reservation changes.
-/

namespace OpenCode2

open Js Sidebar.Placement

/-- `ref` tells two objects apart. -/
structure StickyPin where
  accountId : String
  inputBytes : ℚ
  quotaCheckedAt : Option ℚ
  wireIdentity : Option String
  ref : ℕ
deriving DecidableEq, Repr

structure PinReservation where
  sessionId : String
  previous : Option StickyPin
  pin : StickyPin
  ref : ℕ
deriving DecidableEq, Repr

/-- A reservation as its holder has it. -/
structure Lease where
  sessionId : String
  ref : ℕ
deriving DecidableEq, Repr

/-- `limit` is the constructor's, at least one. A reservation stands under its session. -/
structure SessionPins where
  limit : ℕ
  pins : Table StickyPin
  reservations : Table PinReservation
  positive : 0 < limit
  bounded : pins.size ≤ limit
  keyed : ∀ id reservation, reservations.get id = some reservation → reservation.sessionId = id

namespace SessionPins

def empty (limit : ℕ) : SessionPins where
  limit := max 1 limit
  pins := .empty
  reservations := .empty
  positive := lt_of_lt_of_le Nat.one_pos (Nat.le_max_left 1 limit)
  bounded := Nat.zero_le _
  keyed _ _ h := by cases h

variable (sessions : SessionPins)

theorem keyed_delete (reservations : Table PinReservation)
    (h : ∀ id reservation, reservations.get id = some reservation → reservation.sessionId = id)
    (gone : List String) :
    ∀ id reservation, (reservations.filter fun id _ => id ∉ gone).get id = some reservation →
      reservation.sessionId = id := by
  intro id reservation hget
  rw [Table.get_filter] at hget
  exact h id reservation (Option.filter_eq_some_iff.mp hget).1

def forget (sessionId : String) : SessionPins :=
  { sessions with
    reservations := sessions.reservations.filter fun id _ => id ∉ [sessionId]
    pins := sessions.pins.delete sessionId
    bounded := (Table.size_delete_le _ _).trans sessions.bounded
    keyed := keyed_delete _ sessions.keyed [sessionId] }

/-- Live pending-byte accounting includes choices waiting for authorization or retry. -/
def placementSnapshot (excludeReservationFor : Option String) : Table StickyPin :=
  sessions.reservations.entries.foldl (fun view entry =>
    if some entry.2.sessionId ≠ excludeReservationFor then
      view.set entry.2.sessionId entry.2.pin
    else view) sessions.pins

def reserve (sessionId : String) (pin : StickyPin) (ref : ℕ) : SessionPins :=
  { sessions with
    reservations := sessions.reservations.set sessionId
      { sessionId, previous := sessions.pins.get sessionId, pin, ref }
    keyed := by
      intro id reservation hget
      rw [Table.get_set] at hget
      split_ifs at hget with hid
      · cases hget
        exact hid.symm
      · exact sessions.keyed id reservation hget }

/-- The reservation is the live one of its session. -/
def holds (lease : Lease) : Bool :=
  (sessions.reservations.get lease.sessionId).any fun reservation => reservation.ref = lease.ref

def rollback (lease : Lease) : SessionPins :=
  if sessions.holds lease then
    { sessions with
      reservations := sessions.reservations.filter fun id _ => id ∉ [lease.sessionId]
      keyed := keyed_delete _ sessions.keyed [lease.sessionId] }
  else sessions

/-- The pins with this one placed last, and the oldest ones past the limit. -/
def placed (sessionId : String) (pin : StickyPin) : Table StickyPin :=
  (sessions.pins.delete sessionId).set sessionId pin

def oldest (sessionId : String) (pin : StickyPin) : List String :=
  ((sessions.placed sessionId pin).entries.map Prod.fst).take
    ((sessions.placed sessionId pin).size - sessions.limit)

/-- Re-inserting keeps the map in least-recently-placed order, so the oldest session is
the one dropped when the bound is reached. -/
def set (sessionId : String) (pin : StickyPin) : SessionPins :=
  { sessions with
    pins := (sessions.placed sessionId pin).drop
      ((sessions.placed sessionId pin).size - sessions.limit)
    reservations := sessions.reservations.filter fun id _ =>
      id ∉ sessionId :: sessions.oldest sessionId pin
    bounded := by
      have hlength : ((sessions.placed sessionId pin).drop
          ((sessions.placed sessionId pin).size - sessions.limit)).size =
            (sessions.placed sessionId pin).size -
              ((sessions.placed sessionId pin).size - sessions.limit) := List.length_drop
      omega
    keyed := keyed_delete _ sessions.keyed _ }

/-- Only the current reservation may turn its planned pin into committed state. -/
def finish (lease : Lease) (pin : Option StickyPin) : SessionPins :=
  match sessions.reservations.get lease.sessionId with
  | none => sessions
  | some reservation =>
      if reservation.ref ≠ lease.ref then sessions
      else
        match pin with
        | some pin =>
            if (sessions.pins.get lease.sessionId).map (·.ref) =
                reservation.previous.map (·.ref) then
              (sessions.rollback lease).set lease.sessionId pin
            else sessions.rollback lease
        | none => sessions.rollback lease

/-- Whether `finish` sets the pin. -/
def sets (lease : Lease) (pin : Option StickyPin) : Bool :=
  pin.isSome && (sessions.reservations.get lease.sessionId).any fun reservation =>
    reservation.ref = lease.ref &&
      (sessions.pins.get lease.sessionId).map (·.ref) = reservation.previous.map (·.ref)

/-! ## What the operations change -/

variable {sessions}

theorem get_foldl_view {exclude : Option String} {entries : List (String × PinReservation)}
    (hnodup : (entries.map Prod.fst).Nodup) (hkeyed : ∀ entry ∈ entries, entry.2.sessionId = entry.1)
    (view : Table StickyPin) (id : String) :
    (entries.foldl (fun view entry =>
      if some entry.2.sessionId ≠ exclude then view.set entry.2.sessionId entry.2.pin
      else view) view).get id =
        if some id = exclude then view.get id
        else ((entries.lookup id).map (·.pin)).or (view.get id) := by
  induction entries generalizing view with
  | nil => simp
  | cons entry rest ih =>
      obtain ⟨key, reservation⟩ := entry
      have hkey : reservation.sessionId = key := hkeyed _ List.mem_cons_self
      simp only [List.map_cons, List.nodup_cons] at hnodup
      rw [List.foldl_cons, ih hnodup.2 fun entry hmem => hkeyed entry (List.mem_cons_of_mem _ hmem)]
      simp only [hkey]
      by_cases hid : id = key
      · -- the reservation is this one, so none further down is the session's
        subst hid
        by_cases hexclude : some id = exclude
        · simp [hexclude]
        · simp [hexclude, Table.lookup_eq_none hnodup.1]
      · have hne : (id == key) = false := by simpa using hid
        have hview : (if some key ≠ exclude then view.set key reservation.pin else view).get id =
            view.get id := by
          split_ifs
          · exact Table.get_set_of_ne hid _ _
          · rfl
        rw [hview, List.lookup_cons, hne]

/-- The committed pins with the live reservations over them, but for one session's own. -/
theorem get_placementSnapshot (exclude : Option String) (id : String) :
    (sessions.placementSnapshot exclude).get id =
      if some id = exclude then sessions.pins.get id
      else ((sessions.reservations.get id).map (·.pin)).or (sessions.pins.get id) := by
  refine get_foldl_view sessions.reservations.nodup ?_ sessions.pins id
  intro entry hmem
  exact sessions.keyed entry.1 entry.2 (Table.get_eq_some.mpr hmem)

/-- Reservations go and none comes. -/
def Fewer (after before : SessionPins) : Prop :=
  ∀ id reservation, after.reservations.get id = some reservation →
    before.reservations.get id = some reservation

theorem Fewer.refl : Fewer sessions sessions := fun _ _ h => h

theorem fewer_of_filter {after : SessionPins} {gone : List String}
    (h : after.reservations = sessions.reservations.filter fun id _ => id ∉ gone) :
    Fewer after sessions := by
  intro id reservation hget
  rw [h, Table.get_filter] at hget
  exact (Option.filter_eq_some_iff.mp hget).1

theorem forget_fewer (id : String) : Fewer (sessions.forget id) sessions := fewer_of_filter rfl

theorem set_fewer (id : String) (pin : StickyPin) : Fewer (sessions.set id pin) sessions :=
  fewer_of_filter rfl

theorem rollback_fewer (lease : Lease) : Fewer (sessions.rollback lease) sessions := by
  unfold rollback
  split_ifs
  · exact fewer_of_filter rfl
  · exact Fewer.refl

@[simp] theorem pins_rollback (lease : Lease) : (sessions.rollback lease).pins = sessions.pins := by
  unfold rollback
  split_ifs <;> rfl

@[simp] theorem limit_rollback (lease : Lease) :
    (sessions.rollback lease).limit = sessions.limit := by
  unfold rollback
  split_ifs <;> rfl

/-- A reservation that was given up is not live. -/
theorem rollback_gone {lease : Lease} {reservation : PinReservation}
    (h : (sessions.rollback lease).reservations.get lease.sessionId = some reservation) :
    reservation.ref ≠ lease.ref := by
  intro href
  have hlive : sessions.holds lease = true := by
    rw [holds, rollback_fewer lease _ _ h]
    simpa using href
  rw [rollback, if_pos hlive, Table.get_filter] at h
  have hkept := (Option.filter_eq_some_iff.mp h).2
  simp at hkept

/-- What `finish` comes to: the reservation is given up, and its pin is set where it is the
live one and the session's pin is the one it saw. -/
theorem finish_cases (lease : Lease) (pin : Option StickyPin) :
    (sessions.sets lease pin = false ∧ sessions.finish lease pin = sessions.rollback lease) ∨
      ∃ planned reservation, sessions.sets lease pin = true ∧ pin = some planned ∧
        sessions.reservations.get lease.sessionId = some reservation ∧
        reservation.ref = lease.ref ∧
        (sessions.pins.get lease.sessionId).map (·.ref) = reservation.previous.map (·.ref) ∧
        sessions.finish lease pin = (sessions.rollback lease).set lease.sessionId planned := by
  unfold finish sets
  cases hlive : sessions.reservations.get lease.sessionId with
  | none =>
      have hnot : sessions.holds lease = false := by rw [holds, hlive, Option.any_none]
      simp [rollback, hnot]
  | some reservation =>
      dsimp only
      by_cases href : reservation.ref = lease.ref
      · cases pin with
        | none => simp [href]
        | some planned =>
            by_cases hprevious : (sessions.pins.get lease.sessionId).map (·.ref) =
                reservation.previous.map (·.ref)
            · refine .inr ⟨planned, reservation, ?_, rfl, rfl, href, hprevious, ?_⟩
              · simp [href, hprevious]
              · simp [href, hprevious]
            · simp [href, hprevious]
      · have hnot : sessions.holds lease = false := by
          rw [holds, hlive, Option.any_some, decide_eq_false href]
        simp [rollback, hnot, href]

theorem finish_fewer (lease : Lease) (pin : Option StickyPin) :
    Fewer (sessions.finish lease pin) sessions := by
  rcases finish_cases lease pin with ⟨-, heq⟩ | ⟨planned, -, -, -, -, -, -, heq⟩
  · rw [heq]
    exact rollback_fewer lease
  · rw [heq]
    exact fun id reservation h => rollback_fewer lease _ _ (set_fewer _ planned _ _ h)

theorem entries_placed (id : String) (pin : StickyPin) :
    (sessions.placed id pin).entries = (sessions.pins.delete id).entries ++ [(id, pin)] :=
  Table.entries_set_of_absent (by simp [Table.get_delete]) pin

theorem entries_set (id : String) (pin : StickyPin) :
    (sessions.set id pin).pins.entries.Sublist
      ((sessions.pins.delete id).entries ++ [(id, pin)]) := by
  rw [← sessions.entries_placed]
  exact List.drop_sublist _ _

/-- At most one session is evicted: the one placed longest ago, when the pins are at the
limit and the session is new. -/
theorem mem_oldest {id other : String} {pin : StickyPin} (h : other ∈ sessions.oldest id pin) :
    sessions.pins.get id = none ∧ sessions.pins.size = sessions.limit ∧
      sessions.oldest id pin = [other] ∧
      ∃ first rest, sessions.pins.entries = (other, first) :: rest := by
  have hbounded := sessions.bounded
  have hpositive := sessions.positive
  have hplaced := sessions.entries_placed id pin
  have hsize : (sessions.placed id pin).size = (sessions.pins.delete id).size + 1 := by
    rw [Table.size, hplaced, List.length_append, List.length_singleton]
    rfl
  have hle := Table.size_delete_le sessions.pins id
  have hover : 0 < (sessions.placed id pin).size - sessions.limit := by
    by_contra hnone
    have hzero : (sessions.placed id pin).size - sessions.limit = 0 := by omega
    rw [oldest, hzero, List.take_zero] at h
    cases h
  have habsent : sessions.pins.get id = none := by
    cases hget : sessions.pins.get id with
    | none => rfl
    | some found =>
        have := Table.size_delete_lt hget
        omega
  have hone : (sessions.placed id pin).size - sessions.limit = 1 := by omega
  rw [Table.delete_of_absent habsent] at hplaced hsize
  cases hentries : sessions.pins.entries with
  | nil =>
      have : sessions.pins.size = 0 := by rw [Table.size, hentries, List.length_nil]
      omega
  | cons entry rest =>
      obtain ⟨first, value⟩ := entry
      have holdest : sessions.oldest id pin = [first] := by
        rw [oldest, hone, hplaced, hentries]
        rfl
      rw [holdest, List.mem_singleton] at h
      subst h
      exact ⟨habsent, by omega, holdest, value, rest, rfl⟩

/-- The pins after one is set. -/
theorem get_set (id other : String) (pin : StickyPin) :
    (sessions.set id pin).pins.get other =
      if other ∈ sessions.oldest id pin then none
      else if other = id then some pin else sessions.pins.get other := by
  have hplaced : (sessions.placed id pin).get other =
      if other = id then some pin else sessions.pins.get other := by
    rw [placed, Table.get_set, Table.get_delete]
    split_ifs <;> rfl
  rw [← hplaced]
  exact Table.get_drop _ _ _

end SessionPins

/-! ## Placement -/

/-- What `@cortexkit/common-auth` decides about pins. -/
structure PinLibrary where
  isPinValid : StickyPin → List String → Option String → Bool
  pendingBytesForPins : Table StickyPin → (String → Option ℚ) → String → String → ℚ

/-- One sticky placement decision for a session. -/
structure StickyPinPlacement where
  sessionId : String
  requestBytes : ℚ
  validPinnedAccountIds : List String
  excludeAccountIds : List String
  quotaCheckedAtByAccount : String → Option ℚ
  wireAccountIdByAccount : String → Option String
  select : (String → ℚ) → Option Choice
  persist : Bool

variable (P : PinLibrary)

/-- The pin the session may stay on. -/
def StickyPinPlacement.keeps (placement : StickyPinPlacement) (pins : Table StickyPin) :
    Option StickyPin :=
  (pins.get placement.sessionId).filter fun pin =>
    pin.accountId ∉ placement.excludeAccountIds &&
      P.isPinValid pin placement.validPinnedAccountIds
        (placement.wireAccountIdByAccount pin.accountId)

/-- Returns the valid pin or a new selection, persisting only when requested. A pin that
is set is the object `ref`. -/
def placeStickyPin (pins : Table StickyPin) (placement : StickyPinPlacement) (ref : ℕ) :
    Option String × Table StickyPin :=
  match placement.keeps P pins with
  | some pin =>
      (some pin.accountId,
        if placement.persist then
          pins.set placement.sessionId {
            accountId := pin.accountId
            inputBytes := placement.requestBytes
            wireIdentity := pin.wireIdentity
            quotaCheckedAt := placement.quotaCheckedAtByAccount pin.accountId
            ref }
        else pins)
  | none =>
      match placement.select (P.pendingBytesForPins pins placement.quotaCheckedAtByAccount
          placement.sessionId) with
      | none => (none, pins)
      | some selection =>
          (some selection.accountId,
            if placement.persist then
              pins.set placement.sessionId {
                accountId := selection.accountId
                inputBytes := placement.requestBytes
                wireIdentity := placement.wireAccountIdByAccount selection.accountId
                quotaCheckedAt := selection.quotaCheckedAt
                ref }
            else pins)

end OpenCode2
