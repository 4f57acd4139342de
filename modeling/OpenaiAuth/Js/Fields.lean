import OpenaiAuth.Js.Record

/-! # Object literals

An object literal whose entries may be `undefined`, one object spread over
another, and single members put or deleted. A member that is `undefined` is one
that is absent, since that is how it is written to a file and read again. What
an operation does is told by `lookup`; the order of the members is not observed.
-/

namespace Js

namespace Members

/-- `{ ...members, [key]: value }`, where no value deletes the member. -/
def put (key : String) (value : Option Json) (members : Members) : Members :=
  match value with
  | none => members.erase key
  | some v => members.set key v

/-- `{ ...members, ...source }` -/
def spread (members source : Members) : Members :=
  source.foldr (fun member built => built.set member.1 member.2) members

/-- An object literal without the entries that are `undefined`. -/
def literal (entries : List (String × Option Json)) : Members :=
  entries.foldr (fun entry built => built.put entry.1 entry.2) []

/-- `{ ...members, ...literal }`, where `undefined` entries of the literal
delete what the members held. -/
def putAll (entries : List (String × Option Json)) (members : Members) : Members :=
  entries.foldr (fun entry built => built.put entry.1 entry.2) members

theorem lookup_set (key key' : String) (value : Json) (members : Members) :
    (members.set key value).lookup key' = if key' = key then some value else members.lookup key' := by
  by_cases h : key' = key
  · rw [h, lookup_set_self, if_pos rfl]
  · rw [lookup_set_of_ne h, if_neg h]

theorem lookup_put (key key' : String) (value : Option Json) (members : Members) :
    (members.put key value).lookup key' = if key' = key then value else members.lookup key' := by
  cases value with
  | some v => exact lookup_set key key' v members
  | none =>
      by_cases h : key' = key
      · rw [put, h, lookup_erase_self, if_pos rfl]
      · rw [put, lookup_erase_of_ne h, if_neg h]

/-- The members spread over the others win. -/
theorem lookup_spread (members source : Members) (key : String) :
    (members.spread source).lookup key = (source.lookup key).or (members.lookup key) := by
  induction source with
  | nil => rfl
  | cons member rest ih =>
      rcases member with ⟨k, v⟩
      have hstep : members.spread ((k, v) :: rest) = (members.spread rest).set k v := rfl
      rw [hstep, lookup_set]
      by_cases h : key = k
      · simp [h]
      · have hne : (key == k) = false := by simpa using h
        rw [if_neg h, ih, List.lookup_cons, hne]

@[simp] theorem spread_nil (members : Members) : members.spread [] = members := rfl

@[simp] theorem lookup_literal_nil (key : String) : (literal []).lookup key = none := rfl

@[simp] theorem lookup_literal_cons (key key' : String) (value : Option Json)
    (entries : List (String × Option Json)) :
    (literal ((key', value) :: entries)).lookup key =
      if key = key' then value else (literal entries).lookup key :=
  lookup_put key' key value (literal entries)

@[simp] theorem lookup_putAll_nil (members : Members) (key : String) :
    (members.putAll []).lookup key = members.lookup key := rfl

@[simp] theorem lookup_putAll_cons (members : Members) (key key' : String) (value : Option Json)
    (entries : List (String × Option Json)) :
    (members.putAll ((key', value) :: entries)).lookup key =
      if key = key' then value else (members.putAll entries).lookup key :=
  lookup_put key' key value (members.putAll entries)

end Members

namespace Json

/-- The members of a record; no other value has any to spread. -/
def members : Json → Members
  | .obj members => members
  | _ => []

@[simp] theorem members_obj (m : Members) : (Json.obj m).members = m := rfl

@[simp] theorem get?_obj (m : Members) (key : String) : (Json.obj m).get? key = m.lookup key := rfl

theorem lookup_members (v : Json) (key : String) : v.members.lookup key = v.get? key := by
  cases v <;> rfl

theorem eq_obj_of_isRecord {v : Json} (h : v.isRecord = true) : v = .obj v.members := by
  cases v <;> simp_all [isRecord, members]

@[simp] theorem isRecord_obj (m : Members) : (Json.obj m).isRecord = true := rfl

end Json

end Js
