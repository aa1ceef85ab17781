import Mathlib.Algebra.Order.Field.Basic
import Mathlib.Algebra.BigOperators.Group.Finset.Basic
import Mathlib.Algebra.Order.BigOperators.Group.Finset
import Mathlib.Algebra.Order.Group.Unbundled.Abs
import Mathlib.Tactic.Linarith

/-!
The total variation distance of two weightings of a finite set of outcomes.
-/

namespace Ulpf.Lib

open Finset

variable {κ : Type*} {𝕜 : Type*} [Field 𝕜] [LinearOrder 𝕜] [IsStrictOrderedRing 𝕜]

/-- Half of what two weightings differ by, over all outcomes. -/
def totalVariation (outcomes : Finset κ) (p q : κ → 𝕜) : 𝕜 := (∑ k ∈ outcomes, |p k - q k|) / 2

variable {outcomes : Finset κ} {p q : κ → 𝕜}

omit [IsStrictOrderedRing 𝕜] in
theorem totalVariation_comm (outcomes : Finset κ) (p q : κ → 𝕜) :
    totalVariation outcomes p q = totalVariation outcomes q p := by
  rw [totalVariation, totalVariation, sum_congr rfl fun k _ => abs_sub_comm (p k) (q k)]

theorem totalVariation_eq_zero_iff :
    totalVariation outcomes p q = 0 ↔ ∀ k ∈ outcomes, p k = q k := by
  rw [totalVariation, div_eq_zero_iff, or_iff_left two_ne_zero,
    sum_eq_zero_iff_of_nonneg fun k _ => abs_nonneg (p k - q k)]
  simp only [abs_eq_zero, sub_eq_zero]

theorem totalVariation_nonneg : 0 ≤ totalVariation outcomes p q :=
  div_nonneg (sum_nonneg fun k _ => abs_nonneg (p k - q k)) zero_le_two

theorem totalVariation_le_one (hp : ∀ k ∈ outcomes, 0 ≤ p k) (hq : ∀ k ∈ outcomes, 0 ≤ q k)
    (hsum : ∑ k ∈ outcomes, p k = 1) (hsum' : ∑ k ∈ outcomes, q k = 1) :
    totalVariation outcomes p q ≤ 1 := by
  have hterm (k : κ) (hk : k ∈ outcomes) : |p k - q k| ≤ p k + q k := by
    rw [abs_le]
    constructor <;> linarith [hp k hk, hq k hk]
  have hbound := sum_le_sum hterm
  rw [sum_add_distrib, hsum, hsum'] at hbound
  rw [totalVariation, div_le_one zero_lt_two]
  linarith

end Ulpf.Lib
