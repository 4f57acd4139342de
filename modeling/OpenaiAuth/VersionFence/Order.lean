import OpenaiAuth.VersionFence.Versions

/-! # The sign of a comparison

Each step of `compareVersions` compares exact numbers or texts, as the precedence does; the
steps are put together from the last one.

Main result: `compareVersions_eq`.
-/

namespace VersionFence

open Js

theorem number_exact {digits : Units} (h : Parse.decimal digits < 2 ^ 53) :
    number digits = .finite (Parse.decimal digits) :=
  Number.toDouble_natCast h

theorem mathSign_finite (value : ℚ) : mathSign (.finite value) = signed (compare value 0) := rfl

theorem mathSign_sub (m n : ℕ) : mathSign (.finite ((m : ℚ) - n)) = signed (cmp m n) := by
  rw [mathSign_finite]
  rcases lt_trichotomy m n with h | h | h
  · rw [(cmp_eq_lt_iff m n).mpr h, compare_lt_iff_lt.mpr]
    exact sub_neg.mpr (Nat.cast_lt.mpr h)
  · rw [(cmp_eq_eq_iff m n).mpr h, compare_eq_iff_eq.mpr]
    rw [h, sub_self]
  · rw [(cmp_eq_gt_iff m n).mpr h, compare_gt_iff_gt.mpr]
    exact sub_pos.mpr (Nat.cast_lt.mpr h)

/-- A difference decides, or else what comes after it. -/
theorem sub_then (m n : ℕ) (o : Ordering) :
    (if Number.finite ((m : ℚ) - n) ≠ .finite 0 then mathSign (.finite ((m : ℚ) - n))
      else signed o) = signed ((cmp m n).then o) := by
  have hzero : Number.finite ((m : ℚ) - n) = .finite 0 ↔ m = n := by
    rw [Number.finite.injEq, sub_eq_zero, Nat.cast_inj]
  rw [mathSign_sub]
  rcases lt_trichotomy m n with h | h | h
  · rw [if_pos (mt hzero.mp h.ne), (cmp_eq_lt_iff m n).mpr h]
    rfl
  · rw [if_neg (not_not.mpr (hzero.mpr h)), (cmp_eq_eq_iff m n).mpr h]
    rfl
  · rw [if_pos (mt hzero.mp h.ne'), (cmp_eq_gt_iff m n).mpr h]
    rfl

theorem compareCore_then {x y : Units} (hx : Parse.decimal x < 2 ^ 53)
    (hy : Parse.decimal y < 2 ^ 53) {xs ys : List Number} {last : Number} {o : Ordering}
    (h : (compareCore xs ys).getD last = signed o) :
    (compareCore (number x :: xs) (number y :: ys)).getD last =
      signed ((cmp (Parse.decimal x) (Parse.decimal y)).then o) := by
  rw [← sub_then, ← h]
  simp only [compareCore, number_exact hx, number_exact hy, Number.sub]
  split <;> rfl

theorem identifier_numeric {text : Units} (h : isNumeric text = true) :
    identifier text = .numeric (Parse.decimal text) :=
  if_pos h

theorem identifier_text {text : Units} (h : isNumeric text = false) : identifier text = .text text :=
  if_neg (ne_true_of_eq_false h)

/-- Numeric identifiers are exact. -/
def ExactIds (identifiers : List Units) : Prop :=
  ∀ identifier ∈ identifiers, isNumeric identifier = true → Parse.decimal identifier < 2 ^ 53

/-- The induction is on both lists; a pair of identifiers decides, or the rest does. -/
theorem compareIdentifiers_eq : ∀ {xs ys : List Units}, ExactIds xs → ExactIds ys →
    compareIdentifiers xs ys = signed (cmp (xs.map identifier) (ys.map identifier))
  | [], [], _, _ => by rw [List.map_nil, Semver.cmp_list_self]; rfl
  | [], y :: ys, _, _ => by rw [List.map_nil, List.map_cons, Semver.cmp_nil_cons]; rfl
  | x :: xs, [], _, _ => by rw [List.map_nil, List.map_cons, Semver.cmp_cons_nil]; rfl
  | x :: xs, y :: ys, hxs, hys => by
    have ih : compareIdentifiers xs ys = signed (cmp (xs.map identifier) (ys.map identifier)) :=
      compareIdentifiers_eq (fun z hz => hxs z (List.mem_cons_of_mem x hz))
        (fun z hz => hys z (List.mem_cons_of_mem y hz))
    rw [List.map_cons, List.map_cons, Semver.cmp_cons_cons, compareIdentifiers, ih]
    cases hx : isNumeric x with
    | true =>
        cases hy : isNumeric y with
        | true =>
            -- two numbers
            have hexact := number_exact (hxs x List.mem_cons_self hx)
            have hexact' := number_exact (hys y List.mem_cons_self hy)
            rw [identifier_numeric hx, identifier_numeric hy, Semver.Identifier.cmp_numeric]
            rw [Bool.and_self, if_pos rfl, hexact, hexact']
            exact sub_then _ _ _
        | false =>
            rw [identifier_numeric hx, identifier_text hy,
              (cmp_eq_lt_iff _ _).mpr (Semver.Identifier.numeric_lt_text _ _)]
            rfl
    | false =>
        cases hy : isNumeric y with
        | true =>
            rw [identifier_text hx, identifier_numeric hy,
              (cmp_eq_gt_iff _ _).mpr (Semver.Identifier.numeric_lt_text _ _)]
            rfl
        | false =>
            -- two texts
            rw [identifier_text hx, identifier_text hy, Semver.Identifier.cmp_text]
            rw [Bool.and_self, if_neg Bool.false_ne_true, if_neg (not_not.mpr rfl)]
            rcases lt_trichotomy x y with hlt | hsame | hgt
            · rw [if_pos hlt.ne, if_pos hlt, Semver.cmp_of_lt hlt]
              rfl
            · rw [if_neg (not_not.mpr hsame), hsame, Semver.cmp_list_self]
              rfl
            · rw [if_pos hgt.ne', if_neg (lt_asymm hgt),
                Semver.cmp_of_gt (Semver.list_lt_asymm _ _ hgt) hgt]
              rfl

theorem comparePre_eq {p q : Parts} (hp : ExactIds p.preRelease) (hq : ExactIds q.preRelease) :
    comparePre p.preRelease q.preRelease = signed (cmp p.version.stage q.version.stage) := by
  have hnil : ∀ {parts : Parts}, parts.version.preRelease = [] ↔ parts.preRelease = [] :=
    List.map_eq_nil_iff
  rw [Semver.cmp_stage, comparePre]
  by_cases hleft : p.preRelease = []
  · rw [if_pos (.inl hleft), if_pos (hnil.mpr hleft), hleft, List.length_nil, mathSign_sub]
    by_cases hright : q.preRelease = []
    · rw [if_pos (hnil.mpr hright), hright]
      rfl
    · rw [if_neg (mt hnil.mp hright), (cmp_eq_gt_iff _ _).mpr (List.length_pos_of_ne_nil hright)]
  · rw [if_neg (mt hnil.mp hleft)]
    by_cases hright : q.preRelease = []
    · rw [if_pos (.inr hright), if_pos (hnil.mpr hright), hright, List.length_nil, mathSign_sub,
        (cmp_eq_lt_iff _ _).mpr (List.length_pos_of_ne_nil hleft)]
    · rw [if_neg (not_or.mpr ⟨hleft, hright⟩), if_neg (mt hnil.mp hright)]
      exact compareIdentifiers_eq hp hq

/-- The sign is the precedence of the versions that the texts spell. -/
theorem compareVersions_eq {a b : Units} {p q : Parts} (ha : Writes a p) (hb : Writes b q)
    (hp : p.Exact) (hq : q.Exact) :
    compareVersions a b = some (signed (Semver.precedence p.version q.version)) := by
  have hlast : (compareCore [] []).getD (comparePre p.preRelease q.preRelease) =
      signed (cmp p.version.stage q.version.stage) := comparePre_eq hp.preRelease hq.preRelease
  have hpatch := compareCore_then hp.patch hq.patch hlast
  have hminor := compareCore_then hp.minor hq.minor hpatch
  have hmajor := compareCore_then hp.major hq.major hminor
  rw [compareVersions, parseSemver, parseSemver, partsOf_trim.mpr ha, partsOf_trim.mpr hb,
    Semver.precedence_eq]
  exact congrArg some hmajor

end VersionFence
