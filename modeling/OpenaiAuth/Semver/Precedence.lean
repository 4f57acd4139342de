import Mathlib.Data.List.Lex
import Mathlib.Data.Prod.Lex
import Mathlib.Data.Sum.Order
import Mathlib.Order.WithBot
import Mathlib.Order.Compare

/-! # Precedence of versions

A version has three numbers, the identifiers of a pre-release and build metadata. Its
place is lexicographic: the numbers, then the pre-release, with no pre-release above all of
them. Identifiers are numbers or texts, the numbers below the texts; a longer list of them
is above the lists that it begins with. Build metadata has no place.

Main results: `precedence_swap`, `precedence_trans`, and `precedence_eq`, how two versions
are compared step by step.
-/

namespace Semver

inductive Identifier (α : Type) where
  | numeric (value : ℕ)
  | text (units : List α)
deriving Repr

structure Version (α : Type) where
  major : ℕ
  minor : ℕ
  patch : ℕ
  /-- Empty for a release. -/
  preRelease : List (Identifier α)
  build : Option (List α)
deriving Repr

/-! ## Lexicographic comparison -/

section

variable {β γ : Type} [LinearOrder β] [LinearOrder γ]

/-- The comparison with any test of `<`. -/
theorem cmp_of_lt {δ : Type} [LT δ] [DecidableLT δ] {x y : δ} (h : x < y) : cmp x y = .lt :=
  if_pos h

theorem cmp_of_gt {δ : Type} [LT δ] [DecidableLT δ] {x y : δ} (hnot : ¬x < y) (h : y < x) :
    cmp x y = .gt := by
  unfold cmp cmpUsing
  rw [if_neg hnot, if_pos h]

theorem cmp_of_not {δ : Type} [LT δ] [DecidableLT δ] {x y : δ} (hnot : ¬x < y) (hnot' : ¬y < x) :
    cmp x y = .eq := by
  unfold cmp cmpUsing
  rw [if_neg hnot, if_neg hnot']

/-- One order, tested in two ways. -/
theorem cmp_congr {δ : Type} {first second : LT δ} (tests : @DecidableLT δ first)
    (tests' : @DecidableLT δ second) (h : first = second) (x y : δ) :
    @cmp δ first tests x y = @cmp δ second tests' x y := by
  subst h
  congr

/-- A comparison that the first parts decide, or else the second ones. -/
theorem cmp_eq_then {δ ε : Type} [LT δ] [DecidableLT δ] [LT ε] [DecidableLT ε]
    (hasymm : ∀ x y : δ, x < y → ¬y < x) {x y : δ} {a c : β} {b d : ε}
    (hlt : a < c → x < y) (hgt : c < a → y < x) (hsame : a = c → (x < y ↔ b < d))
    (hsame' : a = c → (y < x ↔ d < b)) : cmp x y = (cmp a c).then (cmp b d) := by
  rcases lt_trichotomy a c with h | h | h
  · rw [cmp_of_lt h, cmp_of_lt (hlt h)]
    rfl
  · rw [(cmp_eq_eq_iff _ _).mpr h]
    have hfirst := hsame h
    have hsecond := hsame' h
    unfold cmp cmpUsing
    simp only [hfirst, hsecond]
    rfl
  · rw [(cmp_eq_gt_iff _ _).mpr h, cmp_of_gt (hasymm _ _ (hgt h)) (hgt h)]
    rfl

theorem cmp_toLex (a c : β) (b d : γ) :
    cmp (toLex (a, b)) (toLex (c, d)) = (cmp a c).then (cmp b d) := by
  apply cmp_eq_then
  · intro x y h
    exact lt_asymm h
  · intro h
    exact Prod.Lex.toLex_lt_toLex.mpr (.inl h)
  · intro h
    exact Prod.Lex.toLex_lt_toLex.mpr (.inl h)
  · intro h
    rw [h, Prod.Lex.toLex_lt_toLex]
    simp
  · intro h
    rw [h, Prod.Lex.toLex_lt_toLex]
    simp

theorem list_lt_asymm (xs ys : List β) (h : xs < ys) : ¬ys < xs := lt_asymm h

theorem cmp_nil_cons (y : β) (ys : List β) : cmp [] (y :: ys) = .lt := cmp_of_lt List.Lex.nil

theorem cmp_cons_nil (x : β) (xs : List β) : cmp (x :: xs) [] = .gt :=
  cmp_of_gt (list_lt_asymm [] (x :: xs) List.Lex.nil) List.Lex.nil

theorem cmp_cons_cons (x y : β) (xs ys : List β) :
    cmp (x :: xs) (y :: ys) = (cmp x y).then (cmp xs ys) := by
  apply cmp_eq_then list_lt_asymm
  · intro h
    exact List.Lex.rel h
  · intro h
    exact List.Lex.rel h
  · intro h
    rw [h, List.cons_lt_cons_iff]
    simp
  · intro h
    rw [h, List.cons_lt_cons_iff]
    simp

theorem cmp_list_self (xs : List β) : cmp xs xs = .eq :=
  cmp_of_not (lt_irrefl xs) (lt_irrefl xs)

/-- What two lists begin with does not count. -/
theorem cmp_append (xs ys zs : List β) : cmp (zs ++ xs) (zs ++ ys) = cmp xs ys := by
  induction zs with
  | nil => rfl
  | cons z zs ih =>
      rw [List.cons_append, List.cons_append, cmp_cons_cons, cmp_self_eq_eq, ih]
      rfl

end

/-! ## Places -/

variable {α : Type}

def Identifier.place : Identifier α → ℕ ⊕ₗ List α
  | .numeric value => Sum.inlₗ value
  | .text units => Sum.inrₗ units

theorem Identifier.place_injective : Function.Injective (Identifier.place (α := α)) := by
  intro x y h
  cases x with
  | numeric value =>
      cases y with
      | numeric other => exact congrArg Identifier.numeric (Sum.inl.inj h)
      | text units => cases h
  | text units =>
      cases y with
      | numeric value => cases h
      | text others => exact congrArg Identifier.text (Sum.inr.inj h)

variable [LinearOrder α]

instance : LinearOrder (Identifier α) := LinearOrder.lift' Identifier.place Identifier.place_injective

/-- The pre-releases, with the release above them. -/
def Version.stage (v : Version α) : WithTop (List (Identifier α)) :=
  match v.preRelease with
  | [] => ⊤
  | first :: rest => (first :: rest : List (Identifier α))

def Version.place (v : Version α) : ℕ ×ₗ ℕ ×ₗ ℕ ×ₗ WithTop (List (Identifier α)) :=
  toLex (v.major, toLex (v.minor, toLex (v.patch, v.stage)))

/-- Which of two versions comes first. -/
def precedence (v w : Version α) : Ordering := cmp v.place w.place

theorem precedence_swap (v w : Version α) : (precedence v w).swap = precedence w v :=
  cmp_swap v.place w.place

theorem precedence_le {v w : Version α} : precedence v w ≠ .gt ↔ v.place ≤ w.place := by
  rw [precedence, Ne, cmp_eq_gt_iff, not_lt]

theorem precedence_trans {u v w : Version α} (huv : precedence u v ≠ .gt)
    (hvw : precedence v w ≠ .gt) : precedence u w ≠ .gt :=
  precedence_le.mpr ((precedence_le.mp huv).trans (precedence_le.mp hvw))

theorem Identifier.numeric_lt_text (value : ℕ) (units : List α) :
    Identifier.numeric value < Identifier.text units :=
  Sum.Lex.sep value units

theorem Identifier.cmp_numeric (m n : ℕ) :
    cmp (Identifier.numeric m : Identifier α) (.numeric n) = cmp m n := by
  rcases lt_trichotomy m n with h | rfl | h
  · rw [(cmp_eq_lt_iff _ _).mpr h, (cmp_eq_lt_iff _ _).mpr (Sum.Lex.inl h)]
  · rw [cmp_self_eq_eq, cmp_self_eq_eq]
  · rw [(cmp_eq_gt_iff _ _).mpr h, (cmp_eq_gt_iff _ _).mpr (Sum.Lex.inl h)]

theorem Identifier.cmp_text (xs ys : List α) :
    cmp (Identifier.text xs) (.text ys) = cmp xs ys := by
  rcases lt_trichotomy xs ys with h | rfl | h
  · rw [cmp_of_lt h, (cmp_eq_lt_iff _ _).mpr (Sum.Lex.inr h)]
  · rw [cmp_self_eq_eq, cmp_list_self]
  · rw [cmp_of_gt (list_lt_asymm ys xs h) h, (cmp_eq_gt_iff _ _).mpr (Sum.Lex.inr h)]

omit [LinearOrder α] in
theorem Version.stage_of_ne_nil {v : Version α} (h : v.preRelease ≠ []) :
    v.stage = (v.preRelease : WithTop (List (Identifier α))) := by
  unfold Version.stage
  cases hpre : v.preRelease with
  | nil => exact absurd hpre h
  | cons first rest => rfl

omit [LinearOrder α] in
theorem Version.stage_of_nil {v : Version α} (h : v.preRelease = []) : v.stage = ⊤ := by
  unfold Version.stage
  rw [h]

/-- The pre-releases are compared where the numbers agree; a release is above them. -/
theorem cmp_stage (v w : Version α) : cmp v.stage w.stage =
    if v.preRelease = [] then if w.preRelease = [] then .eq else .gt
    else if w.preRelease = [] then .lt else cmp v.preRelease w.preRelease := by
  by_cases hv : v.preRelease = []
  · rw [if_pos hv, Version.stage_of_nil hv]
    by_cases hw : w.preRelease = []
    · rw [if_pos hw, Version.stage_of_nil hw]
      exact cmp_self_eq_eq _
    · rw [if_neg hw, Version.stage_of_ne_nil hw]
      exact (cmp_eq_gt_iff _ _).mpr (WithTop.coe_lt_top _)
  · rw [if_neg hv, Version.stage_of_ne_nil hv]
    by_cases hw : w.preRelease = []
    · rw [if_pos hw, Version.stage_of_nil hw]
      exact (cmp_eq_lt_iff _ _).mpr (WithTop.coe_lt_top _)
    · rw [if_neg hw, Version.stage_of_ne_nil hw]
      rcases lt_trichotomy v.preRelease w.preRelease with h | h | h
      · rw [cmp_of_lt h, cmp_of_lt (WithTop.coe_lt_coe.mpr h)]
      · rw [h, cmp_list_self]
        exact cmp_of_not (lt_irrefl _) (lt_irrefl _)
      · rw [cmp_of_gt (list_lt_asymm _ _ h) h]
        exact cmp_of_gt (lt_asymm (WithTop.coe_lt_coe.mpr h)) (WithTop.coe_lt_coe.mpr h)

theorem precedence_eq (v w : Version α) : precedence v w =
    (cmp v.major w.major).then ((cmp v.minor w.minor).then ((cmp v.patch w.patch).then
      (cmp v.stage w.stage))) := by
  rw [precedence, Version.place, Version.place, cmp_toLex, cmp_toLex, cmp_toLex]
  exact congrArg (fun stages => (cmp v.major w.major).then ((cmp v.minor w.minor).then
    ((cmp v.patch w.patch).then stages))) (cmp_congr _ _ rfl v.stage w.stage)

/-- Where the numbers agree and both are pre-releases, these decide. -/
theorem precedence_preRelease (v : Version α) {left right : List (Identifier α)} (hleft : left ≠ [])
    (hright : right ≠ []) (build : Option (List α)) :
    precedence { v with preRelease := left } { v with preRelease := right, build } =
      cmp left right := by
  rw [precedence_eq, cmp_stage]
  dsimp only
  rw [cmp_self_eq_eq, cmp_self_eq_eq, cmp_self_eq_eq, if_neg hleft, if_neg hright]
  rfl

/-- A longer pre-release is above the shorter one that it begins with. -/
theorem precedence_longer (v : Version α) {identifiers more : List (Identifier α)}
    (hne : identifiers ≠ []) (hmore : more ≠ []) (build : Option (List α)) :
    precedence { v with preRelease := identifiers }
      { v with preRelease := identifiers ++ more, build } = .lt := by
  rw [precedence_preRelease v hne (fun hnil => hne (List.append_eq_nil_iff.mp hnil).1)]
  have hlonger : cmp (identifiers ++ []) (identifiers ++ more) = .lt := by
    rw [cmp_append]
    cases more with
    | nil => exact absurd rfl hmore
    | cons y ys => exact cmp_nil_cons y ys
  rw [List.append_nil] at hlonger
  exact hlonger

/-- At the first difference a number is below a text. -/
theorem precedence_numeric (v : Version α) (common : List (Identifier α)) (value : ℕ)
    (units : List α) (xs ys : List (Identifier α)) (build : Option (List α)) :
    precedence { v with preRelease := common ++ .numeric value :: xs }
      { v with preRelease := common ++ .text units :: ys, build } = .lt := by
  have hne : ∀ (x : Identifier α) xs, common ++ x :: xs ≠ [] := by
    intro x xs hnil
    cases (List.append_eq_nil_iff.mp hnil).2
  rw [precedence_preRelease v (hne _ _) (hne _ _), cmp_append, cmp_cons_cons,
    (cmp_eq_lt_iff _ _).mpr (Identifier.numeric_lt_text value units)]
  rfl

end Semver
