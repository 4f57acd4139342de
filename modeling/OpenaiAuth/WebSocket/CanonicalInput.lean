import Mathlib.Data.List.Perm.Subperm
import OpenaiAuth.Js.Record

/-! # Canonical texts of an input

The canonical text of each item of a request. A text is taken over from the
request before where a detached snapshot shows that the item is the same. Texts
are only ever compared with each other, so the sorted value stands for its text.
-/

namespace WebSocket

open Js

/-! ## Comparing with a snapshot -/

mutual

/-- `sameJson`, on parsed values: they hold no functions. -/
def sameJson : Json → Json → Bool
  | .arr items, .arr items' => sameItems items items'
  | .obj left, .obj right => left.length = right.length && sameMembers left right
  | snapshot, value => snapshot = value

def sameItems : List Json → List Json → Bool
  | [], [] => true
  | x :: xs, y :: ys => sameJson x y && sameItems xs ys
  | _, _ => false

def sameMembers : Members → Members → Bool
  | [], _ => true
  | (key, x) :: rest, right =>
      (match right.lookup key with
        | some y => sameJson x y
        | none => false) &&
        sameMembers rest right

end

/-- Members that are found again, in any order. -/
theorem stableMembers_eq_of_found {left right : Members} (hkeys : (left.map Prod.fst).Nodup)
    (hlength : left.length = right.length)
    (h : ∀ m ∈ left, ∃ y, right.lookup m.1 = some y ∧ m.2.stable = y.stable) :
    Json.stableMembers left = Json.stableMembers right := by
  refine Json.stableMembers_eq_of_perm hkeys ?_
  have hnodup : (left.map fun m => (m.1, m.2.stable)).Nodup := by
    refine List.Nodup.of_map Prod.fst ?_
    rw [List.map_map]
    exact hkeys
  have hsubset : (left.map fun m => (m.1, m.2.stable)) ⊆
      right.map fun m => (m.1, m.2.stable) := by
    intro m' hm'
    obtain ⟨m, hm, rfl⟩ := List.mem_map.mp hm'
    obtain ⟨y, hy, hstable⟩ := h m hm
    obtain ⟨before, after, rfl, -⟩ := List.lookup_eq_some_iff.mp hy
    exact List.mem_map.mpr ⟨(m.1, y), by simp, by rw [hstable]⟩
  exact (List.subperm_of_subset hnodup hsubset).perm_of_length_le (by simp [hlength])

mutual

/-- A value that is the same as its snapshot has the same text. -/
theorem stable_eq_of_sameJson : (snapshot value : Json) → snapshot.keysOnce = true →
    sameJson snapshot value = true → snapshot.stable = value.stable
  | .arr items, .arr items', hkeys, h => by
      rw [Json.stable, Json.stable, stableItems_eq_of_sameItems items items' hkeys h]
  | .obj left, .obj right, hkeys, h => by
      obtain ⟨hnodup, hvalues⟩ := Json.keysOnce_obj.mp hkeys
      simp only [sameJson, Bool.and_eq_true, decide_eq_true_eq] at h
      rw [Json.stable, Json.stable,
        stableMembers_eq_of_found hnodup h.1 (found_of_sameMembers left right hvalues h.2)]
  | .null, value, _, h | .bool _, value, _, h | .num _, value, _, h | .str _, value, _, h => by
      simp only [sameJson, decide_eq_true_eq] at h
      rw [h]
  | .arr _, .null, _, h | .arr _, .bool _, _, h | .arr _, .num _, _, h | .arr _, .str _, _, h
  | .arr _, .obj _, _, h | .obj _, .null, _, h | .obj _, .bool _, _, h | .obj _, .num _, _, h
  | .obj _, .str _, _, h | .obj _, .arr _, _, h => by simp [sameJson] at h

theorem stableItems_eq_of_sameItems : (items items' : List Json) →
    Json.keysOnceItems items = true → sameItems items items' = true →
    Json.stableItems items = Json.stableItems items'
  | [], [], _, _ => rfl
  | x :: xs, y :: ys, hkeys, h => by
      rw [Json.keysOnceItems, Bool.and_eq_true] at hkeys
      rw [sameItems, Bool.and_eq_true] at h
      rw [Json.stableItems, Json.stableItems, stable_eq_of_sameJson x y hkeys.1 h.1,
        stableItems_eq_of_sameItems xs ys hkeys.2 h.2]
  | [], _ :: _, _, h | _ :: _, [], _, h => by cases h

theorem found_of_sameMembers : (left right : Members) → (∀ m ∈ left, m.2.keysOnce = true) →
    sameMembers left right = true →
    ∀ m ∈ left, ∃ y, right.lookup m.1 = some y ∧ m.2.stable = y.stable
  | (key, x) :: rest, right, hkeys, h, m, hm => by
      rw [sameMembers, Bool.and_eq_true] at h
      rcases List.mem_cons.mp hm with rfl | hm
      · rcases hy : right.lookup key with _ | y
        · simp [hy] at h
        · simp only [hy] at h
          exact ⟨y, rfl, stable_eq_of_sameJson x y (hkeys (key, x) (by simp)) h.1⟩
      · exact found_of_sameMembers rest right (fun m hm => hkeys m (by simp [hm])) h.2 m hm

end

/-! ## Canonical inputs -/

/-- `CanonicalInput` -/
structure CanonicalInput where
  texts : List Json
  snapshots : List Json
  retainable : Bool
deriving DecidableEq

/-- `MAX_CACHED_ITEMS` -/
def maxCachedItems : Nat := 512

/-- `MAX_CACHED_CHARS` -/
def maxCachedChars : Nat := 2 * 1024 * 1024

/-- The text and the snapshot of one item. -/
def canonicalItem (prior : Option CanonicalInput) (index : Nat) (item : Json) : Json × Json :=
  match prior.bind (·.texts[index]?), prior.bind (·.snapshots[index]?) with
  | some oldText, some snapshot =>
      if sameJson snapshot item then (oldText, snapshot) else (item.stable, item.stable)
  | _, _ => (item.stable, item.stable)

def retainedInput (input : CanonicalInput) : Option CanonicalInput :=
  if input.retainable then some input else none

/-- `canonicalPrefixLength(before, input)` -/
def canonicalPrefixLength (before input : CanonicalInput) : Option Nat :=
  if before.texts.isPrefixOf input.texts then some before.texts.length else none

section

-- the length of a canonical text
variable (textLength : Json → Nat)

def canonicalInput (input : List Json) (prior : Option CanonicalInput) : CanonicalInput :=
  let items := input.mapIdx (canonicalItem prior)
  { texts := items.map Prod.fst
    snapshots := items.map Prod.snd
    retainable :=
      input.length ≤ maxCachedItems &&
        (items.map fun item => textLength item.1).sum ≤ maxCachedChars }

end

/-- The texts are those of the input, and of the snapshots. -/
structure CanonicalInput.Represents (canonical : CanonicalInput) (input : List Json) : Prop where
  texts : canonical.texts = input.map Json.stable
  snapshots : canonical.snapshots.map Json.stable = canonical.texts
  keysOnce : ∀ snapshot ∈ canonical.snapshots, snapshot.keysOnce = true

/-- However much of a text is taken over, it is the item's own. -/
theorem canonicalItem_stable {prior : Option CanonicalInput}
    (hprior : ∀ canonical, prior = some canonical → ∃ input, canonical.Represents input)
    (index : Nat) {item : Json} (hitem : item.keysOnce = true) :
    (canonicalItem prior index item).1 = item.stable ∧
      (canonicalItem prior index item).2.stable = item.stable ∧
      (canonicalItem prior index item).2.keysOnce = true := by
  have hfresh : (item.stable, item.stable).1 = item.stable ∧
      (item.stable, item.stable).2.stable = item.stable ∧
      (item.stable, item.stable).2.keysOnce = true :=
    ⟨rfl, Json.stable_stable item, Json.keysOnce_stable item hitem⟩
  unfold canonicalItem
  split
  case h_1 oldText snapshot htext hsnapshot =>
    split
    case isTrue hsame =>
      rcases prior with _ | canonical
      · cases htext
      obtain ⟨input, hrepresents⟩ := hprior canonical rfl
      have hkeys := hrepresents.keysOnce snapshot (List.mem_of_getElem? hsnapshot)
      have hstable := stable_eq_of_sameJson snapshot item hkeys hsame
      have htext' : (canonical.snapshots.map Json.stable)[index]? = some oldText := by
        rw [hrepresents.snapshots]
        exact htext
      have hold : snapshot.stable = oldText := by
        rw [List.getElem?_map, show canonical.snapshots[index]? = some snapshot from hsnapshot]
          at htext'
        exact Option.some.inj htext'
      exact ⟨hold.symm.trans hstable, hstable, hkeys⟩
    case isFalse => exact hfresh
  case h_2 => exact hfresh

theorem represents_canonicalInput (textLength : Json → Nat) {input : List Json}
    {prior : Option CanonicalInput} (hinput : ∀ item ∈ input, item.keysOnce = true)
    (hprior : ∀ canonical, prior = some canonical → ∃ input, canonical.Represents input) :
    (canonicalInput textLength input prior).Represents input := by
  have hitems : ∀ index item, input[index]? = some item →
      (canonicalItem prior index item).1 = item.stable ∧
        (canonicalItem prior index item).2.stable = item.stable ∧
        (canonicalItem prior index item).2.keysOnce = true :=
    fun index item hitem =>
      canonicalItem_stable hprior index (hinput item (List.mem_of_getElem? hitem))
  have htexts : (input.mapIdx (canonicalItem prior)).map Prod.fst = input.map Json.stable := by
    refine List.ext_getElem? fun index => ?_
    simp only [List.getElem?_map, List.getElem?_mapIdx]
    rcases hitem : input[index]? with _ | item
    · rfl
    · simp [(hitems index item hitem).1]
  constructor
  · exact htexts
  · show ((input.mapIdx (canonicalItem prior)).map Prod.snd).map Json.stable =
      (input.mapIdx (canonicalItem prior)).map Prod.fst
    rw [htexts]
    refine List.ext_getElem? fun index => ?_
    simp only [List.getElem?_map, List.getElem?_mapIdx]
    rcases hitem : input[index]? with _ | item
    · rfl
    · simp [(hitems index item hitem).2.1]
  · intro snapshot hsnapshot
    obtain ⟨pair, hpair, rfl⟩ := List.mem_map.mp hsnapshot
    obtain ⟨index, hindex⟩ := List.mem_iff_getElem?.mp hpair
    rw [List.getElem?_mapIdx] at hindex
    rcases hitem : input[index]? with _ | item
    · simp [hitem] at hindex
    · simp only [hitem, Option.map_some, Option.some.injEq] at hindex
      rw [← hindex]
      exact (hitems index item hitem).2.2

theorem canonicalPrefixLength_eq {before input : List Json} {cb ci : CanonicalInput}
    (hb : cb.Represents before) (hi : ci.Represents input) :
    canonicalPrefixLength cb ci =
      if (before.map Json.stable).isPrefixOf (input.map Json.stable) then some before.length
      else none := by
  unfold canonicalPrefixLength
  rw [hb.texts, hi.texts, List.length_map]

end WebSocket
