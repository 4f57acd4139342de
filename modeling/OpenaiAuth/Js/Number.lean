import Mathlib.Algebra.Order.Ring.Rat
import Mathlib.Algebra.Order.Field.Rat
import Mathlib.Data.Prod.Lex
import Mathlib.Order.WithBot

/-! # Numbers with `NaN` and the infinities

The numbers of the language, the finite ones taken as exact rationals and the two zeros
as one. Comparisons with `NaN` are false, and arithmetic keeps it.
-/

namespace Js

inductive Number where
  | nan
  | negInfinity
  | finite (value : ℚ)
  | infinity
deriving DecidableEq, Repr

namespace Number

/-- `Number.isFinite`, with the number it finds. -/
def finite? : Number → Option ℚ
  | finite value => some value
  | _ => none

/-- Where a number stands among the others; `NaN` nowhere. -/
def place : Number → WithBot (WithTop ℚ)
  | finite value => ((value : WithTop ℚ) : WithBot (WithTop ℚ))
  | infinity => ((⊤ : WithTop ℚ) : WithBot (WithTop ℚ))
  | _ => ⊥

/-- `left < right` -/
def lt (left right : Number) : Bool :=
  left ≠ nan && right ≠ nan && left.place < right.place

/-- `left <= right` -/
def le (left right : Number) : Bool :=
  left ≠ nan && right ≠ nan && left.place ≤ right.place

/-- `left - right` -/
def sub : Number → Number → Number
  | nan, _ => nan
  | _, nan => nan
  | finite left, finite right => finite (left - right)
  | infinity, infinity => nan
  | negInfinity, negInfinity => nan
  | infinity, _ => infinity
  | negInfinity, _ => negInfinity
  | _, infinity => negInfinity
  | _, negInfinity => infinity

/-- `left / right` -/
def div : Number → Number → Number
  | nan, _ => nan
  | _, nan => nan
  | finite left, finite right =>
      if right = 0 then if left = 0 then nan else if 0 < left then infinity else negInfinity
      else finite (left / right)
  | finite _, _ => finite 0
  | infinity, finite right => if 0 ≤ right then infinity else negInfinity
  | negInfinity, finite right => if 0 ≤ right then negInfinity else infinity
  | _, _ => nan

/-- `Math.max(left, right)` -/
def max (left right : Number) : Number :=
  if left = nan || right = nan then nan else if left.place ≤ right.place then right else left

/-- `Math.min(left, right)` -/
def min (left right : Number) : Number :=
  if left = nan || right = nan then nan else if right.place ≤ left.place then right else left

/-- What a comparison function for `sort` says with this number; `||` goes on where it
says nothing. -/
def sign : Number → Ordering
  | finite value => compare value 0
  | infinity => .gt
  | negInfinity => .lt
  | nan => .eq

/-! ## Order -/

theorem place_inj {left right : Number} (hleft : left ≠ nan) (hright : right ≠ nan)
    (h : left.place = right.place) : left = right := by
  cases left <;> cases right <;> simp_all [place, WithBot.coe_inj]

theorem place_finite_lt {left right : ℚ} :
    (finite left).place < (finite right).place ↔ left < right := by
  rw [place, place, WithBot.coe_lt_coe, WithTop.coe_lt_coe]

theorem place_finite_inj {left right : ℚ} :
    (finite left).place = (finite right).place ↔ left = right := by
  rw [place, place, WithBot.coe_inj, WithTop.coe_inj]

/-- The sign of a difference compares the two, the infinities too. -/
theorem sign_sub {left right : Number} (hleft : left ≠ nan) (hright : right ≠ nan) :
    (left.sub right).sign = compare left.place right.place := by
  have below (value : ℚ) : (finite value).place < infinity.place :=
    WithBot.coe_lt_coe.mpr (WithTop.coe_lt_top value)
  have above (value : ℚ) : negInfinity.place < (finite value).place := WithBot.bot_lt_coe _
  have ends : negInfinity.place < infinity.place := WithBot.bot_lt_coe _
  cases left with
  | nan => exact absurd rfl hleft
  | negInfinity =>
    cases right with
    | nan => exact absurd rfl hright
    | negInfinity => exact compare_eq_iff_eq.mpr rfl |>.symm
    | finite value => exact (compare_lt_iff_lt.mpr (above value)).symm
    | infinity => exact (compare_lt_iff_lt.mpr ends).symm
  | infinity =>
    cases right with
    | nan => exact absurd rfl hright
    | negInfinity => exact (compare_gt_iff_gt.mpr ends).symm
    | finite value => exact (compare_gt_iff_gt.mpr (below value)).symm
    | infinity => exact compare_eq_iff_eq.mpr rfl |>.symm
  | finite value =>
    cases right with
    | nan => exact absurd rfl hright
    | negInfinity => exact (compare_gt_iff_gt.mpr (above value)).symm
    | infinity => exact (compare_lt_iff_lt.mpr (below value)).symm
    | finite other =>
      -- subtracting keeps the order of two rationals
      rcases lt_trichotomy value other with h | rfl | h
      · rw [compare_lt_iff_lt.mpr (place_finite_lt.mpr h)]
        exact compare_lt_iff_lt.mpr (sub_neg.mpr h)
      · rw [compare_eq_iff_eq.mpr rfl]
        exact compare_eq_iff_eq.mpr (sub_self value)
      · rw [compare_gt_iff_gt.mpr]
        · exact compare_gt_iff_gt.mpr (sub_pos.mpr h)
        · exact place_finite_lt.mpr h

theorem lt_iff {left right : Number} (hleft : left ≠ nan) (hright : right ≠ nan) :
    left.lt right = true ↔ left.place < right.place := by
  simp [lt, hleft, hright]

theorem ne_nan_of_lt {left right : Number} (h : left.lt right = true) :
    left ≠ nan ∧ right ≠ nan := by
  simp only [lt, Bool.and_eq_true, decide_eq_true_eq] at h
  exact h.1

theorem min_ne_nan {left right : Number} (h : left.min right ≠ nan) :
    left ≠ nan ∧ right ≠ nan := by
  unfold min at h
  split at h
  · exact absurd rfl h
  · rename_i hnan
    simpa using hnan

/-- The lesser of two is one of them, and neither is below it. -/
theorem min_spec {left right : Number} (h : left.min right ≠ nan) :
    (left.min right = left ∨ left.min right = right) ∧
      (left.min right).place ≤ left.place ∧ (left.min right).place ≤ right.place := by
  obtain ⟨hleft, hright⟩ := min_ne_nan h
  simp only [min, hleft, hright, decide_false, Bool.or_self, Bool.false_eq_true, if_false]
  split
  · rename_i hle
    exact ⟨.inr rfl, hle, le_rfl⟩
  · rename_i hle
    exact ⟨.inl rfl, le_rfl, (not_le.mp hle).le⟩

theorem foldl_min_ne_nan {weights : List Number} : ∀ {weight : Number},
    (∀ other ∈ weight :: weights, other ≠ nan) → weights.foldl min weight ≠ nan := by
  induction weights with
  | nil =>
    intro weight h
    exact h weight (List.mem_cons_self ..)
  | cons next rest ih =>
    intro weight h
    refine ih ?_
    have hweight := h weight (List.mem_cons_self ..)
    have hnext := h next (List.mem_cons_of_mem _ (List.mem_cons_self ..))
    intro other hother
    rcases List.mem_cons.mp hother with rfl | hother
    · simp only [min, hweight, hnext, decide_false, Bool.or_self, Bool.false_eq_true, if_false]
      split
      · exact hnext
      · exact hweight
    · exact h other (List.mem_cons_of_mem _ (List.mem_cons_of_mem _ hother))

/-- `Math.min` of a number and a list of them. -/
theorem foldl_min_spec {weights : List Number} : ∀ {weight : Number},
    weights.foldl min weight ≠ nan →
      weights.foldl min weight ∈ weight :: weights ∧
      ∀ other ∈ weight :: weights,
        other ≠ nan ∧ (weights.foldl min weight).place ≤ other.place := by
  induction weights with
  | nil =>
    intro weight h
    refine ⟨List.mem_cons_self .., ?_⟩
    intro other hmem
    obtain rfl := List.mem_singleton.mp hmem
    exact ⟨h, le_rfl⟩
  | cons next rest ih =>
    intro weight h
    obtain ⟨hmem, hle⟩ := ih h
    obtain ⟨hfirst, hbelow⟩ := hle _ (List.mem_cons_self ..)
    obtain ⟨hweight, hnext⟩ := min_ne_nan hfirst
    obtain ⟨heither, hleft, hright⟩ := min_spec hfirst
    constructor
    · rcases List.mem_cons.mp hmem with heq | hrest
      · rw [List.foldl_cons, heq]
        rcases heither with h' | h' <;> rw [h'] <;> simp
      · exact List.mem_cons_of_mem _ (List.mem_cons_of_mem _ hrest)
    · intro other hother
      rcases List.mem_cons.mp hother with rfl | hother
      · exact ⟨hweight, hbelow.trans hleft⟩
      · rcases List.mem_cons.mp hother with rfl | hother
        · exact ⟨hnext, hbelow.trans hright⟩
        · exact hle other (List.mem_cons_of_mem _ hother)

end Number

end Js
