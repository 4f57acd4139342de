import Mathlib.Data.List.Basic
import Mathlib.Data.List.Nodup

/-! # Maps whose values carry their key

A `Map` that holds each value under the key computed from it: its values in the
order of insertion, no key twice. Every operation is described by which values
are there after it.
-/

namespace Js

structure Keyed {α κ : Type*} (key : α → κ) where
  values : List α
  nodup : (values.map key).Nodup

namespace Keyed

variable {α κ : Type*} {key : α → κ}

theorem ext {m n : Keyed key} (h : m.values = n.values) : m = n := by
  obtain ⟨values, hm⟩ := m
  obtain ⟨_, hn⟩ := n
  obtain rfl : values = _ := h
  rfl

instance : Membership α (Keyed key) := ⟨fun m v => v ∈ m.values⟩

theorem mem_def {m : Keyed key} {v : α} : v ∈ m ↔ v ∈ m.values := Iff.rfl

def empty : Keyed key where
  values := []
  nodup := List.nodup_nil

@[simp] theorem not_mem_empty (v : α) : v ∉ (empty : Keyed key) := List.not_mem_nil

def size (m : Keyed key) : ℕ := m.values.length

@[simp] theorem size_empty : (empty : Keyed key).size = 0 := rfl

/-- Two values under one key are one. -/
theorem eq_of_key {m : Keyed key} {v w : α} (hv : v ∈ m) (hw : w ∈ m) (h : key v = key w) : v = w :=
  List.inj_on_of_nodup_map m.nodup hv hw h

def filter (m : Keyed key) (p : α → Bool) : Keyed key where
  values := m.values.filter p
  nodup := m.nodup.sublist (List.filter_sublist.map key)

@[simp] theorem mem_filter {m : Keyed key} {p : α → Bool} {v : α} :
    v ∈ m.filter p ↔ v ∈ m ∧ p v = true := List.mem_filter

theorem size_filter_le (m : Keyed key) (p : α → Bool) : (m.filter p).size ≤ m.size :=
  List.length_filter_le _ _

variable [DecidableEq κ]

def has (m : Keyed key) (k : κ) : Bool := m.values.any fun v => key v = k

theorem has_iff {m : Keyed key} {k : κ} : m.has k = true ↔ ∃ v ∈ m, key v = k := by
  simp [has, mem_def]

theorem has_eq_false {m : Keyed key} {k : κ} : m.has k = false ↔ ∀ v ∈ m, key v ≠ k := by
  simp [has, mem_def]

theorem has_of_mem {m : Keyed key} {v : α} (h : v ∈ m) : m.has (key v) = true :=
  has_iff.mpr ⟨v, h, rfl⟩

/-! ## Setting a value -/

variable (key) in
def setValue (v : α) : List α → List α
  | [] => [v]
  | w :: rest => if key w = key v then v :: rest else w :: setValue v rest

variable (key) in
theorem map_setValue (v : α) (values : List α) :
    (setValue key v values).map key =
      if key v ∈ values.map key then values.map key else values.map key ++ [key v] := by
  induction values with
  | nil => simp [setValue]
  | cons w rest ih =>
      rw [setValue]
      by_cases h : key w = key v
      · simp [h]
      · have hne : key v ≠ key w := fun heq => h heq.symm
        rw [if_neg h, List.map_cons, ih]
        by_cases hmem : key v ∈ rest.map key
        · rw [if_pos hmem, List.map_cons, if_pos (List.mem_cons_of_mem _ hmem)]
        · rw [if_neg hmem, List.map_cons, if_neg (by simpa [hne] using hmem)]
          rfl

theorem mem_setValue {v x : α} {values : List α} (hnodup : (values.map key).Nodup) :
    x ∈ setValue key v values ↔ x = v ∨ (x ∈ values ∧ key x ≠ key v) := by
  induction values with
  | nil => simp [setValue]
  | cons w rest ih =>
      rw [List.map_cons, List.nodup_cons] at hnodup
      rw [setValue]
      by_cases h : key w = key v
      · -- the key stood here, so no later value has it
        have hrest : x ∈ rest → key x ≠ key v := fun hx heq =>
          hnodup.1 (h.trans heq.symm ▸ List.mem_map_of_mem hx)
        rw [if_pos h, List.mem_cons, List.mem_cons]
        constructor
        · rintro (hv | hx)
          · exact .inl hv
          · exact .inr ⟨.inr hx, hrest hx⟩
        · rintro (hv | ⟨rfl | hx, hne⟩)
          · exact .inl hv
          · exact absurd h hne
          · exact .inr hx
      · rw [if_neg h, List.mem_cons, List.mem_cons, ih hnodup.2]
        constructor
        · rintro (rfl | hv | ⟨hx, hne⟩)
          · exact .inr ⟨.inl rfl, h⟩
          · exact .inl hv
          · exact .inr ⟨.inr hx, hne⟩
        · rintro (hv | ⟨rfl | hx, hne⟩)
          · exact .inr (.inl hv)
          · exact .inl rfl
          · exact .inr (.inr ⟨hx, hne⟩)

/-- `map.set(key(v), v)` -/
def set (m : Keyed key) (v : α) : Keyed key where
  values := setValue key v m.values
  nodup := by
    rw [map_setValue key]
    split
    · exact m.nodup
    · rename_i h
      exact List.Nodup.append m.nodup (List.nodup_singleton _) (by simpa using h)

theorem mem_set {m : Keyed key} {v x : α} : x ∈ m.set v ↔ x = v ∨ (x ∈ m ∧ key x ≠ key v) :=
  mem_setValue m.nodup

theorem size_set (m : Keyed key) (v : α) :
    (m.set v).size = if m.has (key v) then m.size else m.size + 1 := by
  have hmap := congrArg List.length (map_setValue key v m.values)
  have hhas : m.has (key v) = true ↔ key v ∈ m.values.map key := by
    rw [has_iff, List.mem_map]
    rfl
  rw [List.length_map] at hmap
  rw [size, set, hmap]
  by_cases h : key v ∈ m.values.map key
  · rw [if_pos h, if_pos (hhas.mpr h), List.length_map]
    rfl
  · rw [if_neg h, if_neg (fun hh => h (hhas.mp hh)), List.length_append, List.length_map]
    rfl

theorem set_of_absent {m : Keyed key} {v : α} (h : m.has (key v) = false) :
    (m.set v).values = m.values ++ [v] := by
  have habsent : ∀ w ∈ m.values, key w ≠ key v := has_eq_false.mp h
  have hset : ∀ values : List α, (∀ w ∈ values, key w ≠ key v) →
      setValue key v values = values ++ [v] := by
    intro values
    induction values with
    | nil => exact fun _ => rfl
    | cons w rest ih =>
        intro hne
        rw [setValue, if_neg (hne w List.mem_cons_self),
          ih fun x hx => hne x (List.mem_cons_of_mem _ hx), List.cons_append]
  exact hset m.values habsent

/-- A value whose key is there, or for which there is room, keeps the bound. -/
theorem size_set_le {m : Keyed key} {v : α} {bound : ℕ} (h : m.size ≤ bound)
    (hroom : m.has (key v) = true ∨ m.size < bound) : (m.set v).size ≤ bound := by
  rw [size_set]
  split
  · exact h
  · rename_i hnot
    exact hroom.resolve_left hnot

/-! ## Dropping values -/

/-- `map.delete(k)` -/
def erase (m : Keyed key) (k : κ) : Keyed key := m.filter fun v => key v ≠ k

theorem mem_erase {m : Keyed key} {k : κ} {v : α} : v ∈ m.erase k ↔ v ∈ m ∧ key v ≠ k := by
  simp [erase]

theorem size_erase_le (m : Keyed key) (k : κ) : (m.erase k).size ≤ m.size := size_filter_le ..

/-- `new Map(values.map((v) => [key(v), v]))` -/
def ofList (values : List α) : Keyed key := values.foldl (fun m v => m.set v) empty

theorem mem_foldl_set {values : List α} {m : Keyed key} {v : α}
    (h : v ∈ values.foldl (fun m v => m.set v) m) : v ∈ m ∨ v ∈ values := by
  induction values generalizing m with
  | nil => exact .inl h
  | cons w rest ih =>
      rcases ih h with hset | hrest
      · rcases mem_set.mp hset with rfl | ⟨hm, -⟩
        · exact .inr List.mem_cons_self
        · exact .inl hm
      · exact .inr (List.mem_cons_of_mem _ hrest)

theorem mem_of_mem_ofList {values : List α} {v : α} (h : v ∈ (ofList values : Keyed key)) :
    v ∈ values :=
  (mem_foldl_set h).resolve_left (not_mem_empty v)

theorem size_foldl_set_le (values : List α) (m : Keyed key) :
    (values.foldl (fun m v => m.set v) m).size ≤ m.size + values.length := by
  induction values generalizing m with
  | nil => exact Nat.le_refl _
  | cons w rest ih =>
      have hset : (m.set w).size ≤ m.size + 1 := by
        rw [size_set]
        split <;> omega
      have hrest := ih (m.set w)
      rw [List.foldl_cons, List.length_cons]
      omega

theorem has_foldl_set {values : List α} {m : Keyed key} {k : κ} :
    (values.foldl (fun m v => m.set v) m).has k = true ↔
      m.has k = true ∨ ∃ v ∈ values, key v = k := by
  induction values generalizing m with
  | nil => simp
  | cons w rest ih =>
      rw [List.foldl_cons, ih]
      have hset : (m.set w).has k = true ↔ m.has k = true ∨ key w = k := by
        simp only [has_iff, mem_set]
        constructor
        · rintro ⟨v, rfl | ⟨hv, -⟩, hk⟩
          · exact .inr hk
          · exact .inl ⟨v, hv, hk⟩
        · rintro (⟨v, hv, hk⟩ | hk)
          · by_cases heq : key v = key w
            · exact ⟨w, .inl rfl, heq ▸ hk⟩
            · exact ⟨v, .inr ⟨hv, heq⟩, hk⟩
          · exact ⟨w, .inl rfl, hk⟩
      rw [hset]
      simp [or_assoc]

end Keyed

end Js
