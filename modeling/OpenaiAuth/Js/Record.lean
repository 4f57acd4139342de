import Mathlib.Data.List.Nodup
import Mathlib.Data.String.Basic
import OpenaiAuth.Js.Json

/-! # Records and their canonical form

Spreading a record with a member set, and `stable`, which sorts the members of
every object in a value. `JSON.stringify` tells two values apart, so the texts
that the code compares are equal when the sorted values are.
-/

namespace Js

/-! ## Members -/

/-- The members of an object, as an object literal or `JSON.parse` leaves them. -/
abbrev Members := List (String × Json)

namespace Members

/-- `{ ...members, [key]: value }` -/
def set (key : String) (value : Json) : Members → Members
  | [] => [(key, value)]
  | (k, v) :: rest => if k = key then (k, value) :: rest else (k, v) :: set key value rest

/-- `{ ...members, [key]: undefined }`, as `JSON.stringify` sees it. -/
def erase (key : String) (members : Members) : Members :=
  members.filter fun member => member.1 ≠ key

@[simp] theorem lookup_set_self (key : String) (value : Json) (members : Members) :
    (members.set key value).lookup key = some value := by
  induction members with
  | nil => simp [set]
  | cons member rest ih =>
      rcases member with ⟨k, v⟩
      simp only [set]
      by_cases hk : k = key
      · simp [hk]
      · have hne : (key == k) = false := by simpa using fun h => hk h.symm
        simp [hk, List.lookup_cons, hne, ih]

@[simp] theorem lookup_set_of_ne {key key' : String} (h : key' ≠ key) (value : Json)
    (members : Members) : (members.set key value).lookup key' = members.lookup key' := by
  induction members with
  | nil =>
      have hne : (key' == key) = false := by simpa using h
      simp [set, List.lookup_cons, hne]
  | cons member rest ih =>
      rcases member with ⟨k, v⟩
      simp only [set]
      by_cases hk : k = key
      · have hne : (key' == k) = false := by simpa [hk] using h
        simp [hk, List.lookup_cons, hk ▸ hne]
      · simp [hk, List.lookup_cons, ih]

@[simp] theorem lookup_erase_self (key : String) (members : Members) :
    (members.erase key).lookup key = none := by
  induction members with
  | nil => rfl
  | cons member rest ih =>
      rcases member with ⟨k, v⟩
      by_cases hk : k = key
      · simpa [erase, hk] using ih
      · have hne : (key == k) = false := by simpa using fun h => hk h.symm
        have : erase key ((k, v) :: rest) = (k, v) :: erase key rest := by simp [erase, hk]
        rw [this, List.lookup_cons, hne]
        exact ih

theorem lookup_erase_of_ne {key key' : String} (h : key' ≠ key) (members : Members) :
    (members.erase key).lookup key' = members.lookup key' := by
  induction members with
  | nil => rfl
  | cons member rest ih =>
      rcases member with ⟨k, v⟩
      by_cases hk : k = key
      · have hne : (key' == k) = false := by simpa [hk] using h
        have : erase key ((k, v) :: rest) = erase key rest := by simp [erase, hk]
        rw [this, List.lookup_cons, hne]
        exact ih
      · have : erase key ((k, v) :: rest) = (k, v) :: erase key rest := by simp [erase, hk]
        rw [this, List.lookup_cons, List.lookup_cons, ih]

theorem keys_set (key : String) (value : Json) (members : Members) :
    (members.set key value).map Prod.fst =
      if key ∈ members.map Prod.fst then members.map Prod.fst
      else members.map Prod.fst ++ [key] := by
  induction members with
  | nil => rfl
  | cons member rest ih =>
      rcases member with ⟨k, v⟩
      simp only [set]
      by_cases hk : k = key
      · simp [hk]
      · simp only [hk, if_false, List.map_cons, ih, List.mem_cons, Ne.symm hk, false_or]
        split <;> simp

theorem mem_set {key : String} {value : Json} {members : Members} {m : String × Json}
    (h : m ∈ members.set key value) : m.2 = value ∨ m ∈ members := by
  induction members with
  | nil =>
      left
      rw [List.mem_singleton.mp h]
  | cons member rest ih =>
      rcases member with ⟨k, v⟩
      simp only [set] at h
      split at h
      · rcases List.mem_cons.mp h with rfl | h
        · exact .inl rfl
        · exact .inr (List.mem_cons_of_mem _ h)
      · rcases List.mem_cons.mp h with rfl | h
        · exact .inr (List.mem_cons_self ..)
        · exact (ih h).imp_right (List.mem_cons_of_mem _)

/-- A member put before the first key that is not smaller. -/
def insertSorted (key : String) (value : Json) : Members → Members
  | [] => [(key, value)]
  | (k, v) :: rest =>
      if key ≤ k then (key, value) :: (k, v) :: rest else (k, v) :: insertSorted key value rest

theorem lookup_insertSorted (key key' : String) (value : Json) (members : Members) :
    (insertSorted key value members).lookup key' =
      if key' = key then some value else members.lookup key' := by
  induction members with
  | nil =>
      by_cases h : key' = key
      · simp [insertSorted, h]
      · have hne : (key' == key) = false := by simpa using h
        simp [insertSorted, List.lookup_cons, h, hne]
  | cons member rest ih =>
      rcases member with ⟨k, v⟩
      simp only [insertSorted]
      by_cases hle : key ≤ k
      · by_cases h : key' = key
        · simp [hle, h]
        · have hne : (key' == key) = false := by simpa using h
          simp [hle, h, List.lookup_cons, hne]
      · -- the key goes further down, so it is not this one
        have hkey : key ≠ k := fun h => hle (h ▸ le_refl _)
        simp only [hle, if_false, List.lookup_cons, ih]
        by_cases h : key' = k
        · simp [h, Ne.symm hkey]
        · have hne : (key' == k) = false := by simpa using h
          simp [hne]

theorem perm_insertSorted (key : String) (value : Json) (members : Members) :
    (insertSorted key value members).Perm ((key, value) :: members) := by
  induction members with
  | nil => exact .refl _
  | cons member rest ih =>
      rcases member with ⟨k, v⟩
      simp only [insertSorted]
      split
      · exact .refl _
      · exact (ih.cons (k, v)).trans (List.Perm.swap _ _ _)

/-- Members in the order of their keys. -/
def Sorted (members : Members) : Prop :=
  members.Pairwise fun m m' => m.1 ≤ m'.1

theorem Sorted.insertSorted {members : Members} (h : members.Sorted) (key : String) (value : Json) :
    (members.insertSorted key value).Sorted := by
  induction members with
  | nil => exact List.pairwise_singleton _ _
  | cons member rest ih =>
      rcases member with ⟨k, v⟩
      have hrest := List.pairwise_cons.mp h
      simp only [Members.insertSorted]
      split
      case isTrue hle =>
        refine List.pairwise_cons.mpr ⟨fun m hm => ?_, h⟩
        rcases List.mem_cons.mp hm with rfl | hm
        · exact hle
        · exact hle.trans (hrest.1 m hm)
      case isFalse hnot =>
        refine List.pairwise_cons.mpr ⟨fun m hm => ?_, ih hrest.2⟩
        rcases List.mem_cons.mp ((perm_insertSorted key value rest).mem_iff.mp hm) with rfl | hm
        · exact (le_total k key).resolve_right hnot
        · exact hrest.1 m hm

end Members

/-! ## The canonical form -/

namespace Json

mutual

/-- `stable`: every object with its keys sorted. -/
def stable : Json → Json
  | .arr items => .arr (stableItems items)
  | .obj members => .obj (stableMembers members)
  | v => v

def stableItems : List Json → List Json
  | [] => []
  | v :: vs => stable v :: stableItems vs

def stableMembers : Members → Members
  | [] => []
  | (key, v) :: rest => Members.insertSorted key (stable v) (stableMembers rest)

end

theorem lookup_stableMembers (key : String) (members : Members) :
    (stableMembers members).lookup key = (members.lookup key).map stable := by
  induction members with
  | nil => rfl
  | cons member rest ih =>
      rcases member with ⟨k, v⟩
      simp only [stableMembers, Members.lookup_insertSorted, ih, List.lookup_cons]
      by_cases h : key = k
      · simp [h]
      · have hne : (key == k) = false := by simpa using h
        simp [h, hne]

theorem get?_stable (key : String) (v : Json) : (stable v).get? key = (v.get? key).map stable := by
  cases v with
  | obj members => exact lookup_stableMembers key members
  | _ => simp [stable, get?]

theorem string?_stable (v : Json) : (stable v).string? = v.string? := by
  cases v <;> simp [stable, string?]

@[simp] theorem stringAt?_stable (key : String) (v : Json) :
    (stable v).stringAt? key = v.stringAt? key := by
  simp only [stringAt?, get?_stable]
  rcases v.get? key with _ | w
  · rfl
  · exact string?_stable w

theorem perm_stableMembers (members : Members) :
    (stableMembers members).Perm (members.map fun m => (m.1, m.2.stable)) := by
  induction members with
  | nil => exact .refl _
  | cons member rest ih => exact (Members.perm_insertSorted _ _ _).trans (ih.cons _)

theorem sorted_stableMembers (members : Members) : (stableMembers members).Sorted := by
  induction members with
  | nil => exact List.Pairwise.nil
  | cons member rest ih => exact ih.insertSorted _ _

/-- Sorted members with sorted values are left as they are. -/
theorem stableMembers_eq_self {members : Members} (h : members.Sorted)
    (hvalues : ∀ m ∈ members, m.2.stable = m.2) : stableMembers members = members := by
  induction members with
  | nil => rfl
  | cons member rest ih =>
      rcases member with ⟨k, v⟩
      have hrest := List.pairwise_cons.mp h
      have hv : v.stable = v := hvalues (k, v) (by simp)
      simp only [stableMembers, hv, ih hrest.2 fun m hm => hvalues m (by simp [hm])]
      cases rest with
      | nil => rfl
      | cons m rest => exact if_pos (hrest.1 m (by simp))

mutual

@[simp] theorem stable_stable : (v : Json) → v.stable.stable = v.stable
  | .null | .bool _ | .num _ | .str _ => rfl
  | .arr items => by rw [stable, stable, stableItems_stable items]
  | .obj members => by
      rw [stable, stable, stableMembers_eq_self (sorted_stableMembers members)]
      intro m hm
      obtain ⟨m', hm', rfl⟩ := List.mem_map.mp ((perm_stableMembers members).mem_iff.mp hm)
      exact stable_stable_of_mem members m' hm'

theorem stableItems_stable : (items : List Json) →
    stableItems (stableItems items) = stableItems items
  | [] => rfl
  | v :: vs => by rw [stableItems, stableItems, stable_stable v, stableItems_stable vs]

theorem stable_stable_of_mem : (members : Members) → ∀ m ∈ members, m.2.stable.stable = m.2.stable
  | (key, v) :: rest, m, hm => by
      rcases List.mem_cons.mp hm with rfl | hm
      · exact stable_stable v
      · exact stable_stable_of_mem rest m hm

end

/-! ## Values with each key once -/

mutual

/-- Every object in the value has each key once, as `JSON.parse` leaves it. -/
def keysOnce : Json → Bool
  | .arr items => keysOnceItems items
  | .obj members => (members.map Prod.fst).Nodup && keysOnceMembers members
  | _ => true

def keysOnceItems : List Json → Bool
  | [] => true
  | v :: vs => keysOnce v && keysOnceItems vs

def keysOnceMembers : Members → Bool
  | [] => true
  | (_, v) :: rest => keysOnce v && keysOnceMembers rest

end

theorem keysOnceMembers_iff {members : Members} :
    keysOnceMembers members = true ↔ ∀ m ∈ members, m.2.keysOnce = true := by
  induction members with
  | nil => simp [keysOnceMembers]
  | cons member rest ih => simp [keysOnceMembers, ih]

theorem keysOnce_obj {members : Members} :
    (Json.obj members).keysOnce = true ↔
      (members.map Prod.fst).Nodup ∧ ∀ m ∈ members, m.2.keysOnce = true := by
  simp [keysOnce, keysOnceMembers_iff]

mutual

theorem keysOnce_stable : (v : Json) → v.keysOnce = true → v.stable.keysOnce = true
  | .null, _ | .bool _, _ | .num _, _ | .str _, _ => rfl
  | .arr items, h => keysOnceItems_stable items h
  | .obj members, h => by
      obtain ⟨hkeys, hvalues⟩ := keysOnce_obj.mp h
      have hperm := perm_stableMembers members
      refine keysOnce_obj.mpr ⟨?_, fun m hm => ?_⟩
      · have hsame : (members.map fun m => (m.1, m.2.stable)).map Prod.fst =
            members.map Prod.fst := by
          rw [List.map_map]
          rfl
        exact ((hperm.map Prod.fst).nodup_iff).mpr (hsame ▸ hkeys)
      · obtain ⟨m', hm', rfl⟩ := List.mem_map.mp (hperm.mem_iff.mp hm)
        exact keysOnce_stable_of_mem members hvalues m' hm'

theorem keysOnceItems_stable : (items : List Json) → keysOnceItems items = true →
    keysOnceItems (stableItems items) = true
  | [], _ => rfl
  | v :: vs, h => by
      rw [keysOnceItems, Bool.and_eq_true] at h
      rw [stableItems, keysOnceItems, keysOnce_stable v h.1, keysOnceItems_stable vs h.2]
      rfl

theorem keysOnce_stable_of_mem : (members : Members) → (∀ m ∈ members, m.2.keysOnce = true) →
    ∀ m ∈ members, m.2.stable.keysOnce = true
  | (key, v) :: rest, h, m, hm => by
      rcases List.mem_cons.mp hm with rfl | hm
      · exact keysOnce_stable v (h (key, v) (by simp))
      · exact keysOnce_stable_of_mem rest (fun m hm => h m (by simp [hm])) m hm

end

theorem keysOnce_set {members : Members} {key : String} {value : Json}
    (h : (Json.obj members).keysOnce = true) (hvalue : value.keysOnce = true) :
    (Json.obj (members.set key value)).keysOnce = true := by
  rw [keysOnce_obj] at h ⊢
  constructor
  · rw [Members.keys_set]
    split
    case isTrue => exact h.1
    case isFalse hnot => exact List.nodup_append.mpr ⟨h.1, List.nodup_singleton _, by
      intro k hk k' hk'
      rw [List.mem_singleton.mp hk']
      exact fun heq => hnot (heq ▸ hk)⟩
  · intro m hm
    rcases Members.mem_set hm with hsame | hm
    · rw [hsame]
      exact hvalue
    · exact h.2 m hm

/-- Sorting tells apart what the members tell apart. -/
theorem stableMembers_eq_of_perm {members members' : Members}
    (hkeys : (members.map Prod.fst).Nodup)
    (h : (members.map fun m => (m.1, m.2.stable)).Perm
      (members'.map fun m => (m.1, m.2.stable))) :
    stableMembers members = stableMembers members' := by
  have hperm : (stableMembers members).Perm (stableMembers members') :=
    (perm_stableMembers members).trans (h.trans (perm_stableMembers members').symm)
  have hnodup : ((stableMembers members).map Prod.fst).Nodup := by
    have hsame : (members.map fun m => (m.1, m.2.stable)).map Prod.fst =
        members.map Prod.fst := by
      rw [List.map_map]
      rfl
    exact (((perm_stableMembers members).map Prod.fst).nodup_iff).mpr (hsame ▸ hkeys)
  refine hperm.eq_of_pairwise (fun m m' hm hm' hle hge => ?_) (sorted_stableMembers members)
    (sorted_stableMembers members')
  exact List.inj_on_of_nodup_map hnodup hm (hperm.mem_iff.mpr hm') (le_antisymm hle hge)

end Json

end Js
