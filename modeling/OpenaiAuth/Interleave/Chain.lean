import Mathlib.Data.Nat.Find
import Mathlib.Data.List.Basic

/-! # A chain of runs

A queue that is a chain of promises: each run begins when the one before it has ended. The
runs stand in a list in the order in which they were queued, ended ones included.
-/

namespace Interleave

section Chain

variable {α : Type*} {begun ended : α → Prop} {runs : List α}

/-- A run that has begun has only ended runs before it. -/
def Chained (begun ended : α → Prop) (runs : List α) : Prop :=
  ∀ (i j : ℕ) (x y : α), i < j → runs[i]? = some x → runs[j]? = some y → begun y → ended x

/-- Every run before the `n`-th has ended. -/
def EndedBefore (ended : α → Prop) (runs : List α) (n : ℕ) : Prop :=
  ∀ (i : ℕ) (x : α), i < n → runs[i]? = some x → ended x

theorem chained_nil : Chained begun ended ([] : List α) := by
  intro i j x y _ hx
  rw [List.getElem?_nil] at hx
  cases hx

/-- A run is queued behind the others. -/
theorem Chained.concat (h : Chained begun ended runs) {run : α} (hrun : ¬ begun run) :
    Chained begun ended (runs ++ [run]) := by
  intro i j x y hlt hx hy hbegun
  have hj : j < runs.length := by
    by_contra hge
    rw [List.getElem?_append_right (by omega), List.getElem?_singleton] at hy
    split_ifs at hy
    cases hy
    exact hrun hbegun
  rw [List.getElem?_append_left hj] at hy
  rw [List.getElem?_append_left (by omega)] at hx
  exact h i j x y hlt hx hy hbegun

/-- One run goes on: it has begun or all before it have ended, and it stays ended if it was. -/
theorem Chained.set (h : Chained begun ended runs) {n : ℕ} {old new : α} (hold : runs[n]? = some old)
    (hbegin : begun new → begun old ∨ EndedBefore ended runs n) (hend : ended old → ended new) :
    Chained begun ended (runs.set n new) := by
  have hlength : n < runs.length := (List.getElem?_eq_some_iff.mp hold).1
  intro i j x y hlt hx hy hbegun
  by_cases hj : n = j
  · -- all runs before it have ended, already or now that it begins
    subst hj
    rw [List.getElem?_set_ne (by omega)] at hx
    rw [List.getElem?_set_self hlength] at hy
    cases hy
    rcases hbegin hbegun with hbegun | hbefore
    · exact h i n x old hlt hx hold hbegun
    · exact hbefore i x hlt hx
  · rw [List.getElem?_set_ne hj] at hy
    by_cases hi : n = i
    · -- a later run has begun, so this one had ended
      subst hi
      rw [List.getElem?_set_self hlength] at hx
      cases hx
      exact hend (h n j old y hlt hold hy hbegun)
    · rw [List.getElem?_set_ne hi] at hx
      exact h i j x y hlt hx hy hbegun

/-- When the run before has ended, all runs before have. -/
theorem Chained.endedBefore (h : Chained begun ended runs) (hended : ∀ x, ended x → begun x)
    {n : ℕ} {last : α} (hlast : runs[n]? = some last) (hend : ended last) :
    EndedBefore ended runs (n + 1) := by
  intro i x hlt hx
  rcases Nat.lt_succ_iff_lt_or_eq.mp hlt with hlt | rfl
  · exact h i n x last hlt hx hlast (hended last hend)
  · rw [hlast] at hx
    cases hx
    exact hend

/-- Two runs that have begun and have not ended are one. -/
theorem Chained.unique (h : Chained begun ended runs) {i j : ℕ} {x y : α} (hx : runs[i]? = some x)
    (hy : runs[j]? = some y) (hbegunx : begun x) (hbeguny : begun y) (hendx : ¬ ended x)
    (hendy : ¬ ended y) : i = j := by
  rcases Nat.lt_trichotomy i j with hlt | heq | hlt
  · exact absurd (h i j x y hlt hx hy hbeguny) hendx
  · exact heq
  · exact absurd (h j i y x hlt hy hx hbegunx) hendy

/-- Where a run has not ended there is a first such run. -/
theorem exists_first {n : ℕ} {x : α} (hx : runs[n]? = some x) (hend : ¬ ended x) :
    ∃ m y, m ≤ n ∧ runs[m]? = some y ∧ ¬ ended y ∧ EndedBefore ended runs m := by
  classical
  have hex : ∃ m y, runs[m]? = some y ∧ ¬ ended y := ⟨n, x, hx, hend⟩
  obtain ⟨y, hy, hendy⟩ := Nat.find_spec hex
  refine ⟨Nat.find hex, y, Nat.find_min' hex ⟨x, hx, hend⟩, hy, hendy, ?_⟩
  intro i z hlt hz
  by_contra hnot
  exact Nat.find_min hex hlt ⟨z, hz, hnot⟩

end Chain

/-- A measure that never goes up again after `t₀` and, while it is positive, goes down once more,
comes to zero. -/
theorem eventually_zero {μ : ℕ → ℕ} {t₀ : ℕ} (hmono : ∀ t, t₀ ≤ t → μ (t + 1) ≤ μ t)
    (hdown : ∀ t, t₀ ≤ t → 0 < μ t → ∃ t', t ≤ t' ∧ μ (t' + 1) < μ t') {t : ℕ} (ht : t₀ ≤ t) :
    ∃ t', t ≤ t' ∧ μ t' = 0 := by
  have hle : ∀ d t, t₀ ≤ t → μ (t + d) ≤ μ t := by
    intro d t ht
    induction d with
    | zero => exact le_rfl
    | succ d ih => exact Nat.le_trans (hmono (t + d) (by omega)) ih
  induction hμ : μ t using Nat.strong_induction_on generalizing t with
  | h k ih =>
      rcases Nat.eq_zero_or_pos k with rfl | hpos
      · exact ⟨t, le_rfl, hμ⟩
      · obtain ⟨t', htt', hlt⟩ := hdown t ht (by omega)
        -- it goes down at `t'`, and has not gone up until then
        have hbefore := hle (t' - t) t ht
        rw [Nat.add_sub_cancel' htt'] at hbefore
        obtain ⟨t'', hlater, hzero⟩ := ih (μ (t' + 1)) (by omega) (t := t' + 1) (by omega) rfl
        exact ⟨t'', by omega, hzero⟩

end Interleave
