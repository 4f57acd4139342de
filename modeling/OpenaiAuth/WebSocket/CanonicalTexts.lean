import Mathlib.Algebra.Ring.Nat
import OpenaiAuth.Js.Serialize

/-! # Canonical texts of an input

`canonicalInput` with the texts themselves. A text is taken over from the request before
where a detached snapshot shows that the item is the same, and each snapshot is read back
from the text.

Main result: `canonicalInput_texts`. Whatever requests came before, the texts are those
of the input alone, and a prefix matches just when its items are the same values.
-/

namespace WebSocket.CanonicalTexts

open Js Js.Canonical Js.Canonical.Value

variable {ν : Type} [DecidableEq ν]

/-! ## Comparing with a snapshot -/

mutual

/-- `sameJson`, on parsed values: they hold no functions. -/
def sameJson : Value ν → Value ν → Bool
  | .arr items, .arr items' => sameItems items items'
  | .obj left, .obj right => left.length = right.length && sameMembers left right
  | .null, .null => true
  | .bool snapshot, .bool value => snapshot = value
  | .num snapshot, .num value => snapshot = value
  | .overflow snapshot, .overflow value => snapshot = value
  | .str snapshot, .str value => snapshot = value
  | _, _ => false

def sameItems : List (Value ν) → List (Value ν) → Bool
  | [], [] => true
  | x :: xs, y :: ys => sameJson x y && sameItems xs ys
  | _, _ => false

def sameMembers : List (Units × Value ν) → List (Units × Value ν) → Bool
  | [], _ => true
  | (key, x) :: rest, right =>
      (match right.lookup key with
        | some y => sameJson x y
        | none => false) &&
        sameMembers rest right

end

theorem sameItems_iff {items items' : List (Value ν)} :
    sameItems items items' = true ↔ items.length = items'.length ∧
      ∀ (i : Nat) x y, items[i]? = some x → items'[i]? = some y → sameJson x y = true := by
  induction items generalizing items' with
  | nil => cases items' <;> simp [sameItems]
  | cons v vs ih =>
    cases items' with
    | nil => simp [sameItems]
    | cons w ws =>
      rw [sameItems, Bool.and_eq_true, ih, List.length_cons, List.length_cons, Nat.succ_inj]
      constructor
      · rintro ⟨hvw, hlength, hrest⟩
        refine ⟨hlength, fun i x y hx hy => ?_⟩
        cases i with
        | zero =>
          cases hx
          cases hy
          exact hvw
        | succ i => exact hrest i x y hx hy
      · rintro ⟨hlength, hall⟩
        exact ⟨hall 0 v w rfl rfl, hlength, fun i x y hx hy => hall (i + 1) x y hx hy⟩

theorem sameMembers_iff {left right : List (Units × Value ν)} :
    sameMembers left right = true ↔
      ∀ m ∈ left, ∃ y, right.lookup m.1 = some y ∧ sameJson m.2 y = true := by
  induction left with
  | nil => simp [sameMembers]
  | cons m rest ih =>
    obtain ⟨key, x⟩ := m
    rw [sameMembers, Bool.and_eq_true, ih, List.forall_mem_cons]
    refine and_congr_left fun _ => ?_
    cases right.lookup key <;> simp

omit [DecidableEq ν] in
/-- As many keys, and all of them found again: the keys are the same. -/
theorem keys_of_found {left right : List (Units × Value ν)} (hkeys : KeysOnce left)
    (hlength : left.length = right.length)
    (hfound : ∀ m ∈ left, (right.lookup m.1).isSome = true) (key : Units) :
    (left.lookup key).isSome = (right.lookup key).isSome := by
  have hsubset : left.map Prod.fst ⊆ right.map Prod.fst := by
    intro k hk
    obtain ⟨m, hm, rfl⟩ := List.mem_map.mp hk
    exact isSome_lookup.mp (hfound m hm)
  have hperm := (List.subperm_of_subset hkeys hsubset).perm_of_length_le (by simp [hlength])
  rw [Bool.eq_iff_iff, isSome_lookup, isSome_lookup, hperm.mem_iff]

/-- A value that passes for its snapshot is the same. -/
theorem same_of_sameJson {snapshot value : Value ν} (hsnapshot : snapshot.WellFormed)
    (h : sameJson snapshot value = true) : Same snapshot value := by
  induction snapshot using inductMem generalizing value with
  | null => cases value <;> first | exact .refl _ | cases h
  | bool b =>
    cases value with
    | bool b' =>
      rw [sameJson, decide_eq_true_eq] at h
      rw [h]
      exact .refl _
    | _ => cases h
  | num n =>
    cases value with
    | num n' =>
      rw [sameJson, decide_eq_true_eq] at h
      rw [h]
      exact .refl _
    | _ => cases h
  | overflow negative =>
    cases value with
    | overflow _ => exact .isNull rfl rfl
    | _ => cases h
  | str s =>
    cases value with
    | str s' =>
      rw [sameJson, decide_eq_true_eq] at h
      rw [h]
      exact .refl _
    | _ => cases h
  | arr items ih =>
    cases value with
    | arr items' =>
      rw [sameJson] at h
      obtain ⟨hlength, hitems⟩ := sameItems_iff.mp h
      refine .arr hlength fun i x y hx hy => ?_
      have hmem := List.mem_of_getElem? hx
      exact ih x hmem (wellFormed_arr.mp hsnapshot x hmem) (hitems i x y hx hy)
    | _ => cases h
  | obj members ih =>
    cases value with
    | obj members' =>
      rw [sameJson, Bool.and_eq_true, decide_eq_true_eq] at h
      obtain ⟨hlength, hmembers⟩ := h
      rw [sameMembers_iff] at hmembers
      obtain ⟨hkeys, hvalues⟩ := wellFormed_obj.mp hsnapshot
      refine .obj (keys_of_found hkeys hlength fun m hm => ?_) fun key x y hx hy => ?_
      · obtain ⟨y, hy, -⟩ := hmembers m hm
        rw [hy]
        rfl
      · have hmem := mem_of_lookup hx
        obtain ⟨y', hy', hsame⟩ := hmembers (key, x) hmem
        rw [hy, Option.some.injEq] at hy'
        rw [← hy'] at hsame
        exact ih (key, x) hmem (hvalues _ hmem) hsame
    | _ => cases h

/-! ## Canonical inputs -/

/-- `CanonicalInput` -/
structure CanonicalInput (ν : Type) where
  texts : List Units
  snapshots : List (Value ν)
  retainable : Bool

/-- `MAX_CACHED_ITEMS` -/
def maxCachedItems : Nat := 512

/-- `MAX_CACHED_CHARS` -/
def maxCachedChars : Nat := 2 * 1024 * 1024

variable (numerals : Numerals ν)

/-- The text and the snapshot of one item; nothing where `JSON.parse` throws. -/
def canonicalItem (prior : Option (CanonicalInput ν)) (index : Nat) (item : Value ν) :
    Option (Units × Value ν) :=
  let rebuilt := (jsonParse numerals (stableStringify numerals item)).map
    fun snapshot => (stableStringify numerals item, snapshot)
  match prior.bind (·.texts[index]?), prior.bind (·.snapshots[index]?) with
  | some oldText, some snapshot =>
      if sameJson snapshot item then some (oldText, snapshot) else rebuilt
  | _, _ => rebuilt

/-- The loop over the items from `index` on. -/
def canonicalItems (prior : Option (CanonicalInput ν)) :
    Nat → List (Value ν) → Option (List (Units × Value ν))
  | _, [] => some []
  | index, item :: rest => do
      let first ← canonicalItem numerals prior index item
      let others ← canonicalItems prior (index + 1) rest
      return first :: others

def canonicalInput (input : List (Value ν)) (prior : Option (CanonicalInput ν)) :
    Option (CanonicalInput ν) :=
  (canonicalItems numerals prior 0 input).map fun items =>
    { texts := items.map Prod.fst
      snapshots := items.map Prod.snd
      retainable :=
        input.length ≤ maxCachedItems &&
          (items.map fun item => item.1.length).sum ≤ maxCachedChars }

def retainedInput (input : CanonicalInput ν) : Option (CanonicalInput ν) :=
  if input.retainable then some input else none

/-- `canonicalPrefixLength(before, input)` -/
def canonicalPrefixLength (before input : CanonicalInput ν) : Option Nat :=
  if before.texts.isPrefixOf input.texts then some before.texts.length else none

/-! ## Histories -/

/-- What a history of requests may leave: the canonical input of a request, built with or
without one from before. The pool and the session keep no other, and not those that
`retainedInput` turns away. -/
inductive Kept : List (Value ν) → CanonicalInput ν → Prop where
  | alone {input : List (Value ν)} {canonical : CanonicalInput ν}
      (hinput : ∀ item ∈ input, item.WellFormed)
      (hbuilt : canonicalInput numerals input none = some canonical) : Kept input canonical
  | after {before input : List (Value ν)} {kept canonical : CanonicalInput ν}
      (hkept : Kept before kept) (hinput : ∀ item ∈ input, item.WellFormed)
      (hbuilt : canonicalInput numerals input (some kept) = some canonical) : Kept input canonical

variable {numerals}

/-- Each text is that of its snapshot. -/
structure Sound (numerals : Numerals ν) (canonical : CanonicalInput ν) : Prop where
  texts : canonical.texts = canonical.snapshots.map (stableStringify numerals)
  wellFormed : ∀ snapshot ∈ canonical.snapshots, snapshot.WellFormed

/-- Text and snapshot of an item, taken over or not. -/
theorem canonicalItem_spec (hround : numerals.RoundTrip) {prior : Option (CanonicalInput ν)}
    (hprior : ∀ kept, prior = some kept → Sound numerals kept) (index : Nat) {item : Value ν}
    (hitem : item.WellFormed) :
    ∃ snapshot, canonicalItem numerals prior index item =
        some (stableStringify numerals item, snapshot) ∧
      snapshot.WellFormed ∧ stableStringify numerals snapshot = stableStringify numerals item := by
  have hrebuilt : jsonParse numerals (stableStringify numerals item) =
      some (reread numerals item.stable) := jsonParse_stringify numerals hround item.stable
  have hreread := wellFormed_reread numerals hitem.stable
  have hsame := (same_stable hitem).trans (same_reread numerals hround hitem.stable)
  have hfresh := (stringify_stable_iff numerals hround hreread hitem).mpr hsame.symm
  simp only [canonicalItem, hrebuilt, Option.map_some]
  split
  case h_1 oldText snapshot htext hsnapshot =>
    split
    case isTrue hpasses =>
      cases prior with
      | none => cases htext
      | some kept =>
        -- the old text is the snapshot's, and the snapshot is the item
        have hsound := hprior kept rfl
        have hwell := hsound.wellFormed snapshot (List.mem_of_getElem? hsnapshot)
        have htexts : kept.texts[index]? = some oldText := htext
        rw [hsound.texts, List.getElem?_map,
          show kept.snapshots[index]? = some snapshot from hsnapshot, Option.map_some,
          Option.some.injEq] at htexts
        have hequal := (stringify_stable_iff numerals hround hwell hitem).mpr
          (same_of_sameJson hwell hpasses)
        exact ⟨snapshot, by rw [← htexts, hequal], hwell, hequal⟩
    case isFalse => exact ⟨_, rfl, hreread, hfresh⟩
  case h_2 => exact ⟨_, rfl, hreread, hfresh⟩

theorem canonicalItems_spec (hround : numerals.RoundTrip) {prior : Option (CanonicalInput ν)}
    (hprior : ∀ kept, prior = some kept → Sound numerals kept) (index : Nat)
    {input : List (Value ν)} (hinput : ∀ item ∈ input, item.WellFormed) :
    ∃ items, canonicalItems numerals prior index input = some items ∧
      items.map Prod.fst = input.map (stableStringify numerals) ∧
      ∀ item ∈ items, item.2.WellFormed ∧ item.1 = stableStringify numerals item.2 := by
  induction input generalizing index with
  | nil => exact ⟨[], rfl, rfl, by simp⟩
  | cons item rest ih =>
    obtain ⟨snapshot, hitem, hwell, htext⟩ :=
      canonicalItem_spec hround hprior index (hinput item (List.mem_cons_self ..))
    obtain ⟨others, hothers, htexts, hsound⟩ :=
      ih (index + 1) fun item hitem => hinput item (List.mem_cons_of_mem _ hitem)
    refine ⟨(stableStringify numerals item, snapshot) :: others, ?_, ?_, ?_⟩
    · rw [canonicalItems, hitem, hothers]
      rfl
    · rw [List.map_cons, List.map_cons, htexts]
    · intro other hother
      rcases List.mem_cons.mp hother with rfl | hother
      · exact ⟨hwell, htext.symm⟩
      · exact hsound other hother

theorem canonicalInput_spec (hround : numerals.RoundTrip) {prior : Option (CanonicalInput ν)}
    (hprior : ∀ kept, prior = some kept → Sound numerals kept) {input : List (Value ν)}
    (hinput : ∀ item ∈ input, item.WellFormed) :
    ∃ canonical, canonicalInput numerals input prior = some canonical ∧
      canonical.texts = input.map (stableStringify numerals) ∧ Sound numerals canonical := by
  obtain ⟨items, hitems, htexts, hsound⟩ := canonicalItems_spec hround hprior 0 hinput
  refine ⟨_, by rw [canonicalInput, hitems]; rfl, htexts, ?_, ?_⟩
  · rw [List.map_map]
    exact List.map_congr_left fun item hitem => (hsound item hitem).2
  · intro snapshot hsnapshot
    obtain ⟨item, hitem, rfl⟩ := List.mem_map.mp hsnapshot
    exact (hsound item hitem).1

omit [DecidableEq ν] in
theorem sound_none : ∀ kept, (none : Option (CanonicalInput ν)) = some kept →
    Sound numerals kept := fun _ hkept => by cases hkept

omit [DecidableEq ν] in
theorem sound_some {canonical : CanonicalInput ν} (h : Sound numerals canonical) :
    ∀ kept, some canonical = some kept → Sound numerals kept := by
  intro kept hkept
  rw [← Option.some.inj hkept]
  exact h

/-- Along a history. -/
theorem Kept.spec (hround : numerals.RoundTrip) {input : List (Value ν)}
    {canonical : CanonicalInput ν} (h : Kept numerals input canonical) :
    canonical.texts = input.map (stableStringify numerals) ∧ Sound numerals canonical := by
  induction h with
  | alone hinput hbuilt =>
    obtain ⟨built, heq, hspec⟩ := canonicalInput_spec hround sound_none hinput
    rw [hbuilt, Option.some.injEq] at heq
    rw [heq]
    exact hspec
  | after _ hinput hbuilt ih =>
    obtain ⟨built, heq, hspec⟩ := canonicalInput_spec hround (sound_some ih.2) hinput
    rw [hbuilt, Option.some.injEq] at heq
    rw [heq]
    exact hspec

theorem Kept.wellFormed {input : List (Value ν)} {canonical : CanonicalInput ν}
    (h : Kept numerals input canonical) : ∀ item ∈ input, item.WellFormed := by
  cases h with
  | alone hinput _ => exact hinput
  | after _ hinput _ => exact hinput

/-- The canonical input of `before` is a prefix just when its items stand at the same
places. -/
theorem canonicalPrefixLength_isSome (hround : numerals.RoundTrip) {before input : List (Value ν)}
    {canonicalBefore canonical : CanonicalInput ν} (hbefore : Kept numerals before canonicalBefore)
    (hinput : Kept numerals input canonical) :
    (canonicalPrefixLength canonicalBefore canonical).isSome = true ↔
      ∀ (i : Nat) x, before[i]? = some x → ∃ y, input[i]? = some y ∧ Same x y := by
  unfold canonicalPrefixLength
  rw [(hbefore.spec hround).1, (hinput.spec hround).1]
  have hleads : ((before.map (stableStringify numerals)).isPrefixOf
      (input.map (stableStringify numerals)) = true) ↔
      ∀ (i : Nat) x, before[i]? = some x → ∃ y, input[i]? = some y ∧ Same x y := by
    rw [List.isPrefixOf_iff_prefix, List.prefix_iff_getElem?]
    constructor
    · intro h i x hx
      have hi := (List.getElem?_eq_some_iff.mp hx).1
      have htext := h i (by rw [List.length_map]; exact hi)
      rw [List.getElem_map, List.getElem?_map, Option.map_eq_some_iff] at htext
      obtain ⟨y, hy, htext⟩ := htext
      have hxi : before[i] = x := (List.getElem?_eq_some_iff.mp hx).2
      rw [hxi] at htext
      exact ⟨y, hy, (stringify_stable_iff numerals hround
        (hbefore.wellFormed x (List.mem_of_getElem? hx))
        (hinput.wellFormed y (List.mem_of_getElem? hy))).mp htext.symm⟩
    · intro h i hi
      rw [List.length_map] at hi
      obtain ⟨y, hy, hsame⟩ := h i before[i] (List.getElem?_eq_getElem hi)
      rw [List.getElem_map, List.getElem?_map, hy, Option.map_some,
        (stringify_stable_iff numerals hround (hbefore.wellFormed _ (List.getElem_mem hi))
          (hinput.wellFormed y (List.mem_of_getElem? hy))).mpr hsame]
  rw [← hleads]
  split <;> simp_all

/-- Texts that are taken over are the item's own, and texts match where values do. -/
theorem canonicalInput_texts (hround : numerals.RoundTrip) {input : List (Value ν)}
    {prior : Option (CanonicalInput ν)} (hinput : ∀ item ∈ input, item.WellFormed)
    (hprior : ∀ kept, prior = some kept → ∃ before, Kept numerals before kept) :
    (∃ canonical alone, canonicalInput numerals input prior = some canonical ∧
      canonicalInput numerals input none = some alone ∧ canonical.texts = alone.texts) ∧
    ∀ earlier canonicalEarlier canonical, Kept numerals earlier canonicalEarlier →
      Kept numerals input canonical →
      ((canonicalPrefixLength canonicalEarlier canonical).isSome = true ↔
        ∀ (i : Nat) x, earlier[i]? = some x → ∃ y, input[i]? = some y ∧ Same x y) := by
  refine ⟨?_, fun _ _ _ hearlier hkept => canonicalPrefixLength_isSome hround hearlier hkept⟩
  have hsound : ∀ kept, prior = some kept → Sound numerals kept := by
    intro kept hkept
    obtain ⟨before, hbefore⟩ := hprior kept hkept
    exact (hbefore.spec hround).2
  obtain ⟨canonical, hbuilt, htexts, -⟩ := canonicalInput_spec hround hsound hinput
  obtain ⟨alone, halone, htexts', -⟩ := canonicalInput_spec hround sound_none hinput
  exact ⟨canonical, alone, hbuilt, halone, htexts.trans htexts'.symm⟩

/-! ### An object written in another order -/

/-- The numbers of one digit. -/
def digitNumerals : Numerals (Fin 10) where
  spelled d := { sign := [], whole := [48 + d.val], fraction := none, exponent := none }
  read fields := (List.finRange 10).find? fun d =>
    fields = { sign := [], whole := [48 + d.val], fraction := none, exponent := none }

theorem digitNumerals_roundTrip : digitNumerals.RoundTrip where
  wellFormed d := by
    have all : ∀ d : Fin 10, Parse.numberAt [48 + d.val] = some (digitNumerals.spelled d) := by
      decide
    exact Parse.wellFormed_of_numberAt (all d)
  read := by decide

/-- Its keys come as an index, as text and as the name of a hook. -/
def firstItem : Value (Fin 10) :=
  .obj [(Units.of "toJSON", .num 1), (Units.of "10", .arr [.null]), (Units.of "2", .str [0xd800])]

def secondItem : Value (Fin 10) :=
  .obj [(Units.of "2", .str [0xd800]), (Units.of "toJSON", .num 1), (Units.of "10", .arr [.null])]

theorem firstItem_wellFormed : ∀ item ∈ [firstItem], item.WellFormed := by
  intro item hitem
  rw [List.mem_singleton.mp hitem]
  refine wellFormed_obj.mpr ⟨by decide, fun m hm => ?_⟩
  simp only [List.mem_cons, List.not_mem_nil, or_false] at hm
  rcases hm with rfl | rfl | rfl
  · trivial
  · exact wellFormed_arr.mpr (by simp [WellFormed])
  · trivial

theorem secondItem_wellFormed : ∀ item ∈ [secondItem], item.WellFormed := by
  intro item hitem
  rw [List.mem_singleton.mp hitem]
  refine wellFormed_obj.mpr ⟨by decide, fun m hm => ?_⟩
  simp only [List.mem_cons, List.not_mem_nil, or_false] at hm
  rcases hm with rfl | rfl | rfl
  · trivial
  · trivial
  · exact wellFormed_arr.mpr (by simp [WellFormed])

example : stableStringify digitNumerals firstItem =
    Units.of "\x7b\"2\":\"\\ud800\",\"10\":[null],\"toJSON\":1\x7d" := by decide +kernel

theorem canonicalInput_texts_reordered :
    ∃ kept, canonicalInput digitNumerals [firstItem] none = some kept ∧
      ∃ canonical alone, canonicalInput digitNumerals [secondItem] (some kept) = some canonical ∧
        canonicalInput digitNumerals [secondItem] none = some alone ∧
        canonical.texts = alone.texts := by
  obtain ⟨kept, hbuilt, -⟩ :=
    canonicalInput_spec digitNumerals_roundTrip sound_none firstItem_wellFormed
  refine ⟨kept, hbuilt, (canonicalInput_texts digitNumerals_roundTrip secondItem_wellFormed
    fun other hother => ?_).1⟩
  rw [← Option.some.inj hother]
  exact ⟨[firstItem], .alone firstItem_wellFormed hbuilt⟩

end WebSocket.CanonicalTexts
