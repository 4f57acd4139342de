import Mathlib.Data.List.Lex
import Mathlib.Data.List.Perm.Subperm
import Mathlib.Data.List.Sort
import OpenaiAuth.Js.Lexing

/-! # Values up to the order of their keys

Values as `JSON.parse` returns them, and `stable`, which builds every object anew with its
keys sorted. An object lists its members in the order in which its keys are enumerated:
array indices first, by their number, then the other keys as they were added. The finite
numbers are a parameter, `0` and `-0` one of them.

Main results: the entries `stable` builds do not depend on the order they come in
(`arrange_eq_of_perm`), and a value is the same as its stable form (`same_stable`).
-/

namespace Js.Canonical

open Js.Parse

/-! ## The order of keys -/

section Keys

variable {α β : Type}

/-- The array index that a key spells. -/
def arrayIndex (key : Units) : Option Nat :=
  if key ≠ [] ∧ key.all isDigit ∧ (key = [48] ∨ key.head? ≠ some 48) ∧
      decimal key < 2 ^ 32 - 1 then some (decimal key) else none

/-- `members[key] = value`: a key that is there keeps its place. -/
def setMember (key : Units) (value : α) : List (Units × α) → List (Units × α)
  | [] => [(key, value)]
  | (k, v) :: rest =>
      if k = key then (k, value) :: rest else (k, v) :: setMember key value rest

def indexBefore (left right : Units × α) : Prop :=
  (arrayIndex left.1).getD 0 ≤ (arrayIndex right.1).getD 0

instance : DecidableRel (indexBefore (α := α)) := fun _ _ => inferInstanceAs (Decidable (_ ≤ _))

/-- The order in which the keys are enumerated. -/
def ownOrder (members : List (Units × α)) : List (Units × α) :=
  (members.filter fun m => (arrayIndex m.1).isSome).insertionSort indexBefore ++
    members.filter fun m => !(arrayIndex m.1).isSome

/-- `Object.fromEntries(entries)` -/
def fromEntries (entries : List (Units × α)) : List (Units × α) :=
  ownOrder (entries.foldl (fun members m => setMember m.1 m.2 members) [])

def keyBefore (left right : Units × α) : Prop := left.1 ≤ right.1

instance : DecidableRel (keyBefore (α := α)) := fun _ _ => inferInstanceAs (Decidable (_ ≤ _))

/-- `Object.keys(members).sort().map((key) => [key, members[key]])` -/
def sortKeys (members : List (Units × α)) : List (Units × α) := members.insertionSort keyBefore

/-- Each key once. -/
def KeysOnce (members : List (Units × α)) : Prop := (members.map Prod.fst).Nodup

instance (members : List (Units × α)) : Decidable (KeysOnce members) :=
  inferInstanceAs (Decidable (List.Nodup _))

theorem setMember_absent {key : Units} {value : α} {members : List (Units × α)}
    (h : key ∉ members.map Prod.fst) : setMember key value members = members ++ [(key, value)] := by
  induction members with
  | nil => rfl
  | cons m rest ih =>
    obtain ⟨k, v⟩ := m
    rw [List.map_cons, List.mem_cons, not_or] at h
    rw [setMember, if_neg (fun heq => h.1 heq.symm), ih h.2]
    rfl

theorem foldl_setMember {before entries : List (Units × α)} (h : KeysOnce (before ++ entries)) :
    entries.foldl (fun members m => setMember m.1 m.2 members) before = before ++ entries := by
  induction entries generalizing before with
  | nil => simp
  | cons m rest ih =>
    have habsent : m.1 ∉ before.map Prod.fst := by
      unfold KeysOnce at h
      rw [List.map_append, List.map_cons] at h
      intro hmem
      exact (List.nodup_append.mp h).2.2 _ hmem _ (List.mem_cons_self ..) rfl
    have happend : before ++ m :: rest = before ++ [m] ++ rest := by simp
    rw [happend] at h
    rw [List.foldl_cons, setMember_absent habsent, ih h, happend]

theorem perm_ownOrder (members : List (Units × α)) : (ownOrder members).Perm members :=
  ((List.perm_insertionSort _ _).append_right _).trans
    (List.filter_append_perm (fun m => (arrayIndex m.1).isSome) members)

theorem fromEntries_eq {entries : List (Units × α)} (h : KeysOnce entries) :
    fromEntries entries = ownOrder entries :=
  congrArg ownOrder (foldl_setMember (List.nil_append entries ▸ h))

/-- Entries with each key once only change their order. -/
theorem perm_fromEntries {entries : List (Units × α)} (h : KeysOnce entries) :
    (fromEntries entries).Perm entries := by
  rw [fromEntries_eq h]
  exact perm_ownOrder entries

theorem perm_sortKeys (members : List (Units × α)) : (sortKeys members).Perm members :=
  List.perm_insertionSort keyBefore members

theorem KeysOnce.perm {members others : List (Units × α)} (h : KeysOnce members)
    (hperm : members.Perm others) : KeysOnce others := ((hperm.map Prod.fst).nodup_iff).mp h

/-- The sorted list does not depend on the order of the members. -/
theorem sortKeys_eq_of_perm {left right : List (Units × α)} (h : KeysOnce left)
    (hperm : left.Perm right) : sortKeys left = sortKeys right := by
  have htotal : Std.Total (keyBefore (α := α)) := ⟨fun l r => le_total l.1 r.1⟩
  have htrans : IsTrans (Units × α) keyBefore := ⟨fun _ _ _ h h' => le_trans h h'⟩
  have hboth := (perm_sortKeys left).trans (hperm.trans (perm_sortKeys right).symm)
  refine hboth.eq_of_pairwise (fun l r hl hr hle hge => ?_) (List.pairwise_insertionSort _ left)
    (List.pairwise_insertionSort _ right)
  -- of two members with one key there is only one
  have hleft := (perm_sortKeys left).mem_iff.mp hl
  have hright := (perm_sortKeys left).mem_iff.mp (hboth.mem_iff.mpr hr)
  exact List.inj_on_of_nodup_map h hleft hright (le_antisymm hle hge)

/-! ### Keys and values apart -/

/-- The members with another value under each key. -/
def mapValues (f : α → β) (members : List (Units × α)) : List (Units × β) :=
  members.map fun m => (m.1, f m.2)

@[simp] theorem keys_mapValues (f : α → β) (members : List (Units × α)) :
    (mapValues f members).map Prod.fst = members.map Prod.fst := by
  unfold mapValues
  rw [List.map_map]
  rfl

theorem KeysOnce.mapValues {members : List (Units × α)} (h : KeysOnce members) (f : α → β) :
    KeysOnce (mapValues f members) := by
  unfold KeysOnce
  rw [keys_mapValues]
  exact h

theorem sortKeys_mapValues (f : α → β) (members : List (Units × α)) :
    mapValues f (sortKeys members) = sortKeys (mapValues f members) :=
  List.map_insertionSort keyBefore keyBefore _ _ fun _ _ _ _ => Iff.rfl

theorem ownOrder_mapValues (f : α → β) (members : List (Units × α)) :
    mapValues f (ownOrder members) = ownOrder (mapValues f members) := by
  have hsort (indexed : List (Units × α)) :
      mapValues f (indexed.insertionSort indexBefore) =
        (mapValues f indexed).insertionSort indexBefore :=
    List.map_insertionSort indexBefore indexBefore _ _ fun _ _ _ _ => Iff.rfl
  have hfilter (keep : Units → Bool) :
      mapValues f (members.filter fun m => keep m.1) =
        (mapValues f members).filter fun m => keep m.1 := by
    unfold mapValues
    rw [List.filter_map]
    rfl
  have happend (left right : List (Units × α)) :
      mapValues f (left ++ right) = mapValues f left ++ mapValues f right := List.map_append
  unfold ownOrder
  rw [happend, hsort, hfilter fun key => (arrayIndex key).isSome,
    hfilter fun key => !(arrayIndex key).isSome]

theorem fromEntries_mapValues (f : α → β) {entries : List (Units × α)} (h : KeysOnce entries) :
    mapValues f (fromEntries entries) = fromEntries (mapValues f entries) := by
  rw [fromEntries_eq h, fromEntries_eq (h.mapValues f), ownOrder_mapValues]

/-- The entries of the object that `stable` builds. -/
def arrange (members : List (Units × α)) : List (Units × α) := fromEntries (sortKeys members)

theorem perm_arrange {members : List (Units × α)} (h : KeysOnce members) :
    (arrange members).Perm members :=
  (perm_fromEntries (h.perm (perm_sortKeys members).symm)).trans (perm_sortKeys members)

theorem arrange_mapValues (f : α → β) {members : List (Units × α)} (h : KeysOnce members) :
    mapValues f (arrange members) = arrange (mapValues f members) := by
  unfold arrange
  rw [fromEntries_mapValues f (h.perm (perm_sortKeys members).symm), sortKeys_mapValues]

theorem arrange_eq_of_perm {left right : List (Units × α)} (h : KeysOnce left)
    (hperm : left.Perm right) : arrange left = arrange right :=
  congrArg fromEntries (sortKeys_eq_of_perm h hperm)

/-! ### Looking up a key -/

theorem lookup_eq_some_iff {members : List (Units × α)} (h : KeysOnce members) {key : Units}
    {value : α} : members.lookup key = some value ↔ (key, value) ∈ members := by
  constructor
  · intro hlookup
    obtain ⟨before, after, rfl, -⟩ := List.lookup_eq_some_iff.mp hlookup
    simp
  · intro hmem
    induction members with
    | nil => cases hmem
    | cons m rest ih =>
      obtain ⟨k, v⟩ := m
      unfold KeysOnce at h
      rw [List.map_cons, List.nodup_cons] at h
      rcases List.mem_cons.mp hmem with heq | hrest
      · cases heq
        rw [List.lookup_cons_self]
      · have hne : (key == k) = false :=
          beq_eq_false_iff_ne.mpr fun heq => h.1 (List.mem_map.mpr ⟨_, hrest, heq⟩)
        rw [List.lookup_cons, hne]
        exact ih h.2 hrest

theorem lookup_perm {members others : List (Units × α)} (h : KeysOnce members)
    (hperm : members.Perm others) (key : Units) : members.lookup key = others.lookup key := by
  refine Option.ext fun value => ?_
  rw [lookup_eq_some_iff h, lookup_eq_some_iff (h.perm hperm), hperm.mem_iff]

theorem lookup_mapValues (f : α → β) (members : List (Units × α)) (key : Units) :
    (mapValues f members).lookup key = (members.lookup key).map f := by
  induction members with
  | nil => rfl
  | cons m rest ih =>
    obtain ⟨k, v⟩ := m
    unfold mapValues at ih ⊢
    rw [List.map_cons, List.lookup_cons, List.lookup_cons]
    cases key == k with
    | true => rfl
    | false => exact ih

/-- Members that are looked up alike are the same members. -/
theorem perm_of_lookup {left right : List (Units × α)} (hleft : KeysOnce left)
    (hright : KeysOnce right) (h : ∀ key, left.lookup key = right.lookup key) :
    left.Perm right := by
  refine (List.perm_ext_iff_of_nodup (List.Nodup.of_map _ hleft) (List.Nodup.of_map _ hright)).mpr ?_
  rintro ⟨key, value⟩
  rw [← lookup_eq_some_iff hleft, ← lookup_eq_some_iff hright, h]

theorem mem_of_lookup {members : List (Units × α)} {key : Units} {value : α}
    (h : members.lookup key = some value) : (key, value) ∈ members := by
  obtain ⟨before, after, rfl, -⟩ := List.lookup_eq_some_iff.mp h
  simp

theorem isSome_lookup {members : List (Units × α)} {key : Units} :
    (members.lookup key).isSome = true ↔ key ∈ members.map Prod.fst := by
  induction members with
  | nil => simp
  | cons m rest ih =>
    obtain ⟨k, v⟩ := m
    rw [List.lookup_cons, List.map_cons, List.mem_cons]
    by_cases h : key = k
    · simp [h]
    · have hne : (key == k) = false := beq_eq_false_iff_ne.mpr h
      rw [hne]
      simp only [h, false_or]
      exact ih

end Keys

/-! ## Values -/

/-- A value `JSON.parse` may return: `overflow` is a number beyond the finite ones. -/
inductive Value (ν : Type) where
  | null
  | bool (b : Bool)
  | num (n : ν)
  | overflow (negative : Bool)
  | str (s : Units)
  | arr (items : List (Value ν))
  | obj (members : List (Units × Value ν))

variable {ν : Type}

namespace Value

mutual

/-- Induction with a hypothesis for each item and each member. -/
@[elab_as_elim]
theorem inductMem {P : Value ν → Prop} (null : P .null) (bool : ∀ b, P (.bool b))
    (num : ∀ n, P (.num n)) (overflow : ∀ negative, P (.overflow negative))
    (str : ∀ s, P (.str s)) (arr : ∀ items, (∀ v ∈ items, P v) → P (.arr items))
    (obj : ∀ members, (∀ m ∈ members, P m.2) → P (.obj members)) : (v : Value ν) → P v
  | .null => null
  | .bool b => bool b
  | .num n => num n
  | .overflow negative => overflow negative
  | .str s => str s
  | .arr items => arr items (inductItems null bool num overflow str arr obj items)
  | .obj members => obj members (inductMembers null bool num overflow str arr obj members)

theorem inductItems {P : Value ν → Prop} (null : P .null) (bool : ∀ b, P (.bool b))
    (num : ∀ n, P (.num n)) (overflow : ∀ negative, P (.overflow negative))
    (str : ∀ s, P (.str s)) (arr : ∀ items, (∀ v ∈ items, P v) → P (.arr items))
    (obj : ∀ members, (∀ m ∈ members, P m.2) → P (.obj members)) :
    (items : List (Value ν)) → ∀ v ∈ items, P v
  | [], _, h => absurd h List.not_mem_nil
  | x :: xs, v, h => by
      rcases List.mem_cons.mp h with heq | h
      · rw [heq]
        exact inductMem null bool num overflow str arr obj x
      · exact inductItems null bool num overflow str arr obj xs v h

theorem inductMembers {P : Value ν → Prop} (null : P .null) (bool : ∀ b, P (.bool b))
    (num : ∀ n, P (.num n)) (overflow : ∀ negative, P (.overflow negative))
    (str : ∀ s, P (.str s)) (arr : ∀ items, (∀ v ∈ items, P v) → P (.arr items))
    (obj : ∀ members, (∀ m ∈ members, P m.2) → P (.obj members)) :
    (members : List (Units × Value ν)) → ∀ m ∈ members, P m.2
  | [], _, h => absurd h List.not_mem_nil
  | (key, x) :: xs, m, h => by
      rcases List.mem_cons.mp h with heq | h
      · rw [heq]
        exact inductMem null bool num overflow str arr obj x
      · exact inductMembers null bool num overflow str arr obj xs m h

end

mutual

/-- `stable(value)`: every object built anew with its keys sorted. -/
def stable : Value ν → Value ν
  | .arr items => .arr (stableItems items)
  | .obj members => .obj (arrange (stableMembers members))
  | v => v

def stableItems : List (Value ν) → List (Value ν)
  | [] => []
  | v :: vs => stable v :: stableItems vs

def stableMembers : List (Units × Value ν) → List (Units × Value ν)
  | [] => []
  | (key, v) :: rest => (key, stable v) :: stableMembers rest

end

theorem stableItems_eq (items : List (Value ν)) : stableItems items = items.map stable := by
  induction items with
  | nil => rfl
  | cons v vs ih => rw [stableItems, ih, List.map_cons]

theorem stableMembers_eq (members : List (Units × Value ν)) :
    stableMembers members = mapValues stable members := by
  induction members with
  | nil => rfl
  | cons m rest ih =>
    rw [stableMembers, ih]
    rfl

mutual

/-- Every object in the value has each key once. -/
def WellFormed : Value ν → Prop
  | .arr items => WellFormedItems items
  | .obj members => KeysOnce members ∧ WellFormedMembers members
  | _ => True

def WellFormedItems : List (Value ν) → Prop
  | [] => True
  | v :: vs => WellFormed v ∧ WellFormedItems vs

def WellFormedMembers : List (Units × Value ν) → Prop
  | [] => True
  | (_, v) :: rest => WellFormed v ∧ WellFormedMembers rest

end

theorem wellFormed_arr {items : List (Value ν)} :
    (Value.arr items).WellFormed ↔ ∀ v ∈ items, v.WellFormed := by
  rw [WellFormed]
  induction items with
  | nil => simp [WellFormedItems]
  | cons v vs ih => simp [WellFormedItems, ih]

theorem wellFormed_obj {members : List (Units × Value ν)} :
    (Value.obj members).WellFormed ↔ KeysOnce members ∧ ∀ m ∈ members, m.2.WellFormed := by
  have hmembers : WellFormedMembers members ↔ ∀ m ∈ members, m.2.WellFormed := by
    induction members with
    | nil => simp [WellFormedMembers]
    | cons m rest ih => rw [WellFormedMembers, ih, List.forall_mem_cons]
  rw [WellFormed, hmembers]

/-- Values under keys, rebuilt in another order, stay well formed. -/
theorem wellFormed_rebuilt {members : List (Units × Value ν)} (f : Value ν → Value ν)
    (h : (Value.obj members).WellFormed) (hf : ∀ m ∈ members, (f m.2).WellFormed)
    {others : List (Units × Value ν)} (hperm : others.Perm (mapValues f members)) :
    (Value.obj others).WellFormed := by
  obtain ⟨hkeys, -⟩ := wellFormed_obj.mp h
  refine wellFormed_obj.mpr ⟨(hkeys.mapValues f).perm hperm.symm, fun m hm => ?_⟩
  obtain ⟨m', hm', rfl⟩ := List.mem_map.mp (hperm.mem_iff.mp hm)
  exact hf m' hm'

theorem WellFormed.stable {v : Value ν} (h : v.WellFormed) : v.stable.WellFormed := by
  induction v using inductMem with
  | arr items ih =>
    rw [Value.stable, stableItems_eq]
    refine wellFormed_arr.mpr fun w hw => ?_
    obtain ⟨x, hx, rfl⟩ := List.mem_map.mp hw
    exact ih x hx (wellFormed_arr.mp h x hx)
  | obj members ih =>
    obtain ⟨hkeys, hvalues⟩ := wellFormed_obj.mp h
    rw [Value.stable, stableMembers_eq]
    exact wellFormed_rebuilt Value.stable h (fun m hm => ih m hm (hvalues m hm))
      (perm_arrange (hkeys.mapValues _))
  | _ => trivial

/-! ## The same value -/

/-- What JSON has no form for but `null`. -/
def isNull : Value ν → Bool
  | .null | .overflow _ => true
  | _ => false

/-- The same JSON value, whatever the order of the keys. -/
inductive Same : Value ν → Value ν → Prop where
  | isNull {a b : Value ν} (ha : a.isNull = true) (hb : b.isNull = true) : Same a b
  | bool (b : Bool) : Same (.bool b) (.bool b)
  | num (n : ν) : Same (.num n) (.num n)
  | str (s : Units) : Same (.str s) (.str s)
  | arr {items items' : List (Value ν)} (hlength : items.length = items'.length)
      (h : ∀ (i : Nat) x y, items[i]? = some x → items'[i]? = some y → Same x y) :
      Same (.arr items) (.arr items')
  | obj {members members' : List (Units × Value ν)}
      (hkeys : ∀ key, (members.lookup key).isSome = (members'.lookup key).isSome)
      (h : ∀ key x y, members.lookup key = some x → members'.lookup key = some y → Same x y) :
      Same (.obj members) (.obj members')

theorem Same.symm {a b : Value ν} (h : Same a b) : Same b a := by
  induction h with
  | isNull ha hb => exact .isNull hb ha
  | bool b => exact .bool b
  | num n => exact .num n
  | str s => exact .str s
  | arr hlength _ ih => exact .arr hlength.symm fun i x y hx hy => ih i y x hy hx
  | obj hkeys _ ih => exact .obj (fun key => (hkeys key).symm) fun key x y hx hy => ih key y x hy hx

theorem Same.trans {a b c : Value ν} (hab : Same a b) (hbc : Same b c) : Same a c := by
  induction hab generalizing c with
  | isNull ha hb =>
    cases hbc with
    | isNull _ hc => exact .isNull ha hc
    | _ => cases hb
  | bool b => exact hbc
  | num n => exact hbc
  | str s => exact hbc
  | @arr items items' hlength _ ih =>
    cases hbc with
    | isNull hb => cases hb
    | @arr _ items'' hlength' h' =>
      refine .arr (hlength.trans hlength') fun i x z hx hz => ?_
      have hi : i < items'.length := by
        rw [hlength']
        exact (List.getElem?_eq_some_iff.mp hz).1
      exact ih i x items'[i] hx (List.getElem?_eq_getElem hi)
        (h' i items'[i] z (List.getElem?_eq_getElem hi) hz)
  | @obj members members' hkeys _ ih =>
    cases hbc with
    | isNull hb => cases hb
    | @obj _ members'' hkeys' h' =>
      refine .obj (fun key => (hkeys key).trans (hkeys' key)) fun key x z hx hz => ?_
      have hmiddle : (members'.lookup key).isSome = true := by
        rw [← hkeys key, hx]
        rfl
      obtain ⟨y, hy⟩ := Option.isSome_iff_exists.mp hmiddle
      exact ih key x y hx hy (h' key y z hy hz)

/-- Items one by one, members under their keys: a value is the same as one that is built
from parts that are the same. -/
theorem same_arr_map {items : List (Value ν)} (f : Value ν → Value ν)
    (h : ∀ v ∈ items, Same v (f v)) : Same (.arr items) (.arr (items.map f)) := by
  refine .arr (by simp) fun i x y hx hy => ?_
  rw [List.getElem?_map, hx, Option.map_some, Option.some.injEq] at hy
  rw [← hy]
  exact h x (List.mem_of_getElem? hx)

theorem same_obj_rebuilt {members others : List (Units × Value ν)} (hkeys : KeysOnce members)
    (f : Value ν → Value ν) (h : ∀ m ∈ members, Same m.2 (f m.2))
    (hperm : others.Perm (mapValues f members)) : Same (.obj members) (.obj others) := by
  have hlookup (key : Units) : others.lookup key = (members.lookup key).map f := by
    rw [← lookup_perm (hkeys.mapValues f) hperm.symm key, lookup_mapValues]
  refine .obj (fun key => ?_) fun key x y hx hy => ?_
  · rw [hlookup, Option.isSome_map]
  · rw [hlookup, hx, Option.map_some, Option.some.injEq] at hy
    rw [← hy]
    exact h (key, x) (mem_of_lookup hx)

theorem Same.refl (v : Value ν) : Same v v := by
  induction v using inductMem with
  | null => exact .isNull rfl rfl
  | bool b => exact .bool b
  | num n => exact .num n
  | overflow negative => exact .isNull rfl rfl
  | str s => exact .str s
  | arr items ih =>
    refine .arr rfl fun i x y hx hy => ?_
    rw [hx, Option.some.injEq] at hy
    rw [← hy]
    exact ih x (List.mem_of_getElem? hx)
  | obj members ih =>
    refine .obj (fun _ => rfl) fun key x y hx hy => ?_
    rw [hx, Option.some.injEq] at hy
    rw [← hy]
    exact ih (key, x) (mem_of_lookup hx)

theorem same_stable {v : Value ν} (h : v.WellFormed) : Same v v.stable := by
  induction v using inductMem with
  | arr items ih =>
    rw [stable, stableItems_eq]
    exact same_arr_map stable fun v hv => ih v hv (wellFormed_arr.mp h v hv)
  | obj members ih =>
    obtain ⟨hkeys, hvalues⟩ := wellFormed_obj.mp h
    rw [stable, stableMembers_eq]
    exact same_obj_rebuilt hkeys stable (fun m hm => ih m hm (hvalues m hm))
      (perm_arrange (hkeys.mapValues _))
  | _ => exact .refl _

end Value

end Js.Canonical
