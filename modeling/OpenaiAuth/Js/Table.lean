import Mathlib.Data.List.Perm.Subperm
import Mathlib.Algebra.Order.BigOperators.Group.List
import Mathlib.Algebra.Order.Ring.Int
import Mathlib.Data.List.Basic
import Mathlib.Data.List.Nodup

/-! # Tables

A `Map` with string keys, or an object used as one: its entries in the order of
insertion, no key twice. `set` keeps the place of a key that is there; `get`
reads a key, and every other operation is described by what `get` says after it.
-/

namespace Js

structure Table (α : Type*) where
  entries : List (String × α)
  nodup : (entries.map Prod.fst).Nodup
deriving DecidableEq

namespace Table

variable {α : Type*}

def empty : Table α where
  entries := []
  nodup := List.nodup_nil

instance : Inhabited (Table α) := ⟨empty⟩

def get (table : Table α) (key : String) : Option α := table.entries.lookup key

def size (table : Table α) : Nat := table.entries.length

/-! ## Entry lists -/

def setEntry (key : String) (value : α) : List (String × α) → List (String × α)
  | [] => [(key, value)]
  | (k, v) :: rest => if k = key then (key, value) :: rest else (k, v) :: setEntry key value rest

theorem lookup_eq_none {key : String} {entries : List (String × α)}
    (h : key ∉ entries.map Prod.fst) : entries.lookup key = none := by
  induction entries with
  | nil => rfl
  | cons entry rest ih =>
      rcases entry with ⟨k, v⟩
      simp only [List.map_cons, List.mem_cons, not_or] at h
      have hne : (key == k) = false := by simpa using h.1
      simp [List.lookup_cons, hne, ih h.2]

theorem lookup_eq_some {key : String} {value : α} {entries : List (String × α)}
    (hnodup : (entries.map Prod.fst).Nodup) :
    entries.lookup key = some value ↔ (key, value) ∈ entries := by
  induction entries with
  | nil => simp
  | cons entry rest ih =>
      rcases entry with ⟨k, v⟩
      simp only [List.map_cons, List.nodup_cons] at hnodup
      by_cases hk : key = k
      · -- the key is here, so it is nowhere further down
        have habsent : (key, value) ∉ rest := by
          intro hmem
          exact hnodup.1 (hk ▸ List.mem_map_of_mem (f := Prod.fst) hmem)
        simp [hk ▸ habsent, hk, eq_comm]
      · have hne : (key == k) = false := by simpa using hk
        simp [List.lookup_cons, hne, ih hnodup.2, hk]

theorem fst_setEntry (key : String) (value : α) (entries : List (String × α)) :
    (setEntry key value entries).map Prod.fst =
      if key ∈ entries.map Prod.fst then entries.map Prod.fst
      else entries.map Prod.fst ++ [key] := by
  induction entries with
  | nil => simp [setEntry]
  | cons entry rest ih =>
      rcases entry with ⟨k, v⟩
      simp only [setEntry]
      by_cases hk : k = key
      · simp [hk]
      · have hk' : key ≠ k := fun h => hk h.symm
        rw [if_neg hk, List.map_cons, ih]
        by_cases hmem : key ∈ rest.map Prod.fst
        · rw [if_pos hmem, List.map_cons, if_pos (List.mem_cons_of_mem _ hmem)]
        · rw [if_neg hmem, List.map_cons, if_neg (by simpa [hk'] using hmem)]
          rfl

theorem lookup_setEntry (key key' : String) (value : α) (entries : List (String × α)) :
    (setEntry key value entries).lookup key' =
      if key' = key then some value else entries.lookup key' := by
  induction entries with
  | nil =>
      by_cases h : key' = key
      · simp [setEntry, h]
      · have hne : (key' == key) = false := by simpa using h
        simp [setEntry, List.lookup_cons, h, hne]
  | cons entry rest ih =>
      rcases entry with ⟨k, v⟩
      simp only [setEntry]
      by_cases hk : k = key
      · by_cases h : key' = key
        · simp [hk, h]
        · have hne : (key' == key) = false := by simpa using h
          simp [hk, h, List.lookup_cons, hne]
      · by_cases h : key' = k
        · simp [hk, h]
        · have hne : (key' == k) = false := by simpa using h
          simp [hk, List.lookup_cons, hne, ih]

theorem setEntry_of_absent {key : String} {entries : List (String × α)}
    (h : entries.lookup key = none) (value : α) :
    setEntry key value entries = entries ++ [(key, value)] := by
  induction entries with
  | nil => rfl
  | cons entry rest ih =>
      rcases entry with ⟨k, v⟩
      by_cases hk : key = k
      · simp [hk] at h
      · have hne : (key == k) = false := by simpa using hk
        have hrest : rest.lookup key = none := by simpa [List.lookup_cons, hne] using h
        rw [setEntry, if_neg fun heq => hk heq.symm, ih hrest, List.cons_append]

/-! ## The operations -/

/-- `table.set(key, value)`, or `{ ...table, [key]: value }`. -/
def set (table : Table α) (key : String) (value : α) : Table α where
  entries := setEntry key value table.entries
  nodup := by
    rw [fst_setEntry]
    split
    · exact table.nodup
    · rename_i habsent
      exact List.Nodup.append table.nodup (List.nodup_singleton key) (by simpa using habsent)

/-- `Object.fromEntries(Object.entries(table).filter(keep))` -/
def filter (table : Table α) (keep : String → α → Bool) : Table α where
  entries := table.entries.filter fun entry => keep entry.1 entry.2
  nodup := table.nodup.sublist (List.filter_sublist.map Prod.fst)

/-- `table.delete(key)` -/
def delete (table : Table α) (key : String) : Table α := table.filter fun k _ => k ≠ key

/-- The first `n` entries deleted. -/
def drop (table : Table α) (n : Nat) : Table α where
  entries := table.entries.drop n
  nodup := table.nodup.sublist ((List.drop_sublist n table.entries).map Prod.fst)

def map {β : Type*} (f : α → β) (table : Table α) : Table β where
  entries := table.entries.map fun entry => (entry.1, f entry.2)
  nodup := by
    have hkeys : (table.entries.map fun entry => (entry.1, f entry.2)).map Prod.fst =
        table.entries.map Prod.fst := by
      simp [Function.comp_def]
    rw [hkeys]
    exact table.nodup

/-- `{ ...table, ...other }` -/
def spread (table other : Table α) : Table α :=
  other.entries.foldl (fun table entry => table.set entry.1 entry.2) table

@[simp] theorem get_empty (key : String) : (empty : Table α).get key = none := rfl

theorem get_eq_some {table : Table α} {key : String} {value : α} :
    table.get key = some value ↔ (key, value) ∈ table.entries :=
  lookup_eq_some table.nodup

theorem get_of_size_zero {table : Table α} (h : table.size = 0) (key : String) :
    table.get key = none := by
  have hnil : table.entries = [] := List.eq_nil_of_length_eq_zero h
  simp [get, hnil]

theorem get_set (table : Table α) (key key' : String) (value : α) :
    (table.set key value).get key' = if key' = key then some value else table.get key' :=
  lookup_setEntry key key' value table.entries

@[simp] theorem get_set_self (table : Table α) (key : String) (value : α) :
    (table.set key value).get key = some value := by
  simp [get_set]

theorem get_set_of_ne {key key' : String} (h : key' ≠ key) (table : Table α) (value : α) :
    (table.set key value).get key' = table.get key' := by
  simp [get_set, h]

theorem get_filter (table : Table α) (keep : String → α → Bool) (key : String) :
    (table.filter keep).get key = (table.get key).filter (keep key) := by
  apply Option.ext
  intro value
  simp only [get_eq_some, filter, List.mem_filter, Option.filter_eq_some_iff]

theorem get_delete (table : Table α) (key key' : String) :
    (table.delete key).get key' = if key' = key then none else table.get key' := by
  rw [delete, get_filter]
  by_cases h : key' = key
  · cases table.get key' <;> simp [h]
  · cases table.get key' <;> simp [h]

theorem get_map {β : Type*} (f : α → β) (table : Table α) (key : String) :
    (table.map f).get key = (table.get key).map f := by
  change (table.entries.map fun entry => (entry.1, f entry.2)).lookup key =
    (table.entries.lookup key).map f
  induction table.entries with
  | nil => rfl
  | cons entry rest ih =>
      rcases entry with ⟨k, v⟩
      by_cases hk : key = k
      · simp [hk]
      · have hne : (key == k) = false := by simpa using hk
        simpa [List.lookup_cons, hne] using ih

theorem get_foldl_set (entries : List (String × α)) (hnodup : (entries.map Prod.fst).Nodup)
    (table : Table α) (key : String) :
    (entries.foldl (fun table entry => table.set entry.1 entry.2) table).get key =
      (entries.lookup key).or (table.get key) := by
  induction entries generalizing table with
  | nil => rfl
  | cons entry rest ih =>
      rcases entry with ⟨k, v⟩
      simp only [List.map_cons, List.nodup_cons] at hnodup
      rw [List.foldl_cons, ih hnodup.2, get_set]
      by_cases hk : key = k
      · simp [hk, lookup_eq_none hnodup.1]
      · have hne : (key == k) = false := by simpa using hk
        simp [hk, List.lookup_cons, hne]

/-- A new key comes last. -/
theorem entries_set_of_absent {table : Table α} {key : String} (h : table.get key = none)
    (value : α) : (table.set key value).entries = table.entries ++ [(key, value)] :=
  setEntry_of_absent h value

/-- The other table's entries win. -/
theorem get_spread (table other : Table α) (key : String) :
    (table.spread other).get key = (other.get key).or (table.get key) :=
  get_foldl_set other.entries other.nodup table key

/-- A key whose entry is among those deleted is gone, any other stays. -/
theorem get_drop (table : Table α) (n : Nat) (key : String) :
    (table.drop n).get key =
      if key ∈ (table.entries.map Prod.fst).take n then none else table.get key := by
  obtain ⟨entries, hnodup⟩ := table
  change (entries.drop n).lookup key =
    if key ∈ (entries.map Prod.fst).take n then none else entries.lookup key
  induction entries generalizing n with
  | nil => simp
  | cons entry rest ih =>
      obtain ⟨k, v⟩ := entry
      simp only [List.map_cons, List.nodup_cons] at hnodup
      cases n with
      | zero => simp
      | succ n =>
          rw [List.drop_succ_cons, ih n hnodup.2, List.map_cons, List.take_succ_cons]
          by_cases hk : key = k
          · -- the entry goes, and the key is nowhere further down
            subst hk
            simp [lookup_eq_none hnodup.1]
          · have hne : (key == k) = false := by simpa using hk
            simp [hk, List.lookup_cons, hne]

theorem size_filter_le (table : Table α) (keep : String → α → Bool) :
    (table.filter keep).size ≤ table.size :=
  List.length_filter_le _ _

/-- At most one entry has the key. -/
theorem size_le_filter_ne (table : Table α) (key : String) :
    table.size ≤ (table.entries.filter fun entry => entry.1 ≠ key).length + 1 := by
  have once : table.entries.countP (fun entry => entry.1 = key) ≤ 1 := by
    have counted : (table.entries.map Prod.fst).count key ≤ 1 :=
      List.nodup_iff_count_le_one.mp table.nodup key
    rw [List.count, List.countP_map] at counted
    refine le_trans (le_of_eq (List.countP_congr ?_)) counted
    intro entry _
    simp
  have split := table.entries.length_eq_countP_add_countP fun entry => decide (entry.1 = key)
  rw [size, split, ← List.countP_eq_length_filter]
  have rest : table.entries.countP (fun entry => ¬decide (entry.1 = key) = true) =
      table.entries.countP (fun entry => entry.1 ≠ key) :=
    List.countP_congr fun entry _ => by simp
  omega

/-- Keys that are there go one entry each. -/
theorem size_filter_not_mem (table : Table α) {keys : List String} (distinct : keys.Nodup)
    (held : ∀ key ∈ keys, ∃ value, table.get key = some value) :
    keys.length + (table.filter fun key _ => key ∉ keys).size ≤ table.size := by
  let rest := (table.filter fun key _ => key ∉ keys).entries.map Prod.fst
  have apart : (keys ++ rest).Nodup := by
    refine distinct.append (table.filter _).nodup ?_
    intro key here there
    obtain ⟨entry, left, rfl⟩ := List.mem_map.mp there
    exact of_decide_eq_true (List.mem_filter.mp left).2 here
  have inside : keys ++ rest ⊆ table.entries.map Prod.fst := by
    intro key mem
    rcases List.mem_append.mp mem with here | there
    · obtain ⟨value, found⟩ := held key here
      exact List.mem_map.mpr ⟨(key, value), get_eq_some.mp found, rfl⟩
    · obtain ⟨entry, left, rfl⟩ := List.mem_map.mp there
      exact List.mem_map.mpr ⟨entry, (List.mem_filter.mp left).1, rfl⟩
  have counted := (List.subperm_of_subset apart inside).length_le
  rw [List.length_append, List.length_map, List.length_map] at counted
  exact counted

theorem size_set_of_absent {table : Table α} {key : String} (h : table.get key = none) (value : α) :
    (table.set key value).size = table.size + 1 := by
  unfold size
  rw [entries_set_of_absent h, List.length_append, List.length_singleton]

theorem size_set_of_present {table : Table α} {key : String} {old : α}
    (h : table.get key = some old) (value : α) : (table.set key value).size = table.size := by
  have mem : key ∈ table.entries.map Prod.fst :=
    List.mem_map.mpr ⟨(key, old), get_eq_some.mp h, rfl⟩
  have keys : (table.set key value).entries.map Prod.fst = table.entries.map Prod.fst := by
    change (setEntry key value table.entries).map Prod.fst = _
    rw [fst_setEntry, if_pos mem]
  simpa [size] using congrArg List.length keys

theorem size_delete_le (table : Table α) (key : String) : (table.delete key).size ≤ table.size :=
  size_filter_le ..

theorem size_delete_lt {table : Table α} {key : String} {value : α}
    (h : table.get key = some value) : (table.delete key).size < table.size := by
  refine List.length_filter_lt_length_iff_exists.mpr ⟨(key, value), get_eq_some.mp h, ?_⟩
  simp

/-! ## Sums over the values -/

/-- The sum of a number of each value. -/
def total (f : α → ℤ) (table : Table α) : ℤ := (table.entries.map fun entry => f entry.2).sum

@[simp] theorem total_empty (f : α → ℤ) : (empty : Table α).total f = 0 := rfl

theorem delete_of_absent {table : Table α} {key : String} (h : table.get key = none) :
    table.delete key = table := by
  have hkeep : table.entries.filter (fun entry => decide (entry.1 ≠ key)) = table.entries := by
    refine List.filter_eq_self.mpr fun entry hentry => ?_
    rw [decide_eq_true_eq]
    rintro rfl
    have hget : table.get entry.1 = some entry.2 := get_eq_some.mpr hentry
    rw [h] at hget
    cases hget
  obtain ⟨entries, hnodup⟩ := table
  simp only [delete, filter]
  congr

theorem total_delete {f : α → ℤ} {table : Table α} {key : String} {value : α}
    (h : table.get key = some value) : (table.delete key).total f = table.total f - f value := by
  have hsum : ∀ entries : List (String × α), (entries.map Prod.fst).Nodup → (key, value) ∈ entries →
      ((entries.filter fun entry => decide (entry.1 ≠ key)).map fun entry => f entry.2).sum =
        (entries.map fun entry => f entry.2).sum - f value := by
    intro entries hnodup hmem
    induction entries with
    | nil => cases hmem
    | cons entry rest ih =>
        rw [List.map_cons, List.nodup_cons] at hnodup
        rcases List.mem_cons.mp hmem with rfl | hrest
        · -- the key stands here, so it stands nowhere further down
          have hkeep : rest.filter (fun entry => decide (entry.1 ≠ key)) = rest := by
            refine List.filter_eq_self.mpr fun entry hentry => ?_
            rw [decide_eq_true_eq]
            rintro rfl
            have hmem' : entry.1 ∈ rest.map Prod.fst := List.mem_map_of_mem hentry
            exact hnodup.1 hmem'
          rw [List.filter_cons_of_neg (by simp), hkeep]
          simp only [List.map_cons, List.sum_cons]
          omega
        · have hne : entry.1 ≠ key := fun heq => hnodup.1 (heq ▸ List.mem_map_of_mem hrest)
          rw [List.filter_cons_of_pos (by simpa using hne), List.map_cons, List.sum_cons,
            List.map_cons, List.sum_cons, ih hnodup.2 hrest]
          omega
  exact hsum table.entries table.nodup (get_eq_some.mp h)

theorem total_set_of_absent {f : α → ℤ} {table : Table α} {key : String} {value : α}
    (h : table.get key = none) : (table.set key value).total f = table.total f + f value := by
  rw [total, entries_set_of_absent h, List.map_append, List.sum_append]
  simp [total]

end Table

end Js
