import Mathlib.Data.Nat.ModEq
import Mathlib.Data.List.Basic
import Mathlib.Data.List.Induction
import Mathlib.Tactic.Common

/-! # A stream cut into blocks

A stream `d` that is cut into blocks of `k` as it grows element by element: the blocks it has
filled (`full`), the elements that wait for the next one (`rest`), and all of it once the last,
shorter block is closed (`blocks`).  `foldl_zipIdx_invariant` is the rule for the loop that
feeds a buffer into it. -/

namespace Blocks

variable {α : Type*}

/-- The first `m` blocks. -/
def initial (k : ℕ) (d : List α) (m : ℕ) : List (List α) :=
  (List.range m).map fun i => (d.drop (k * i)).take k

/-- The blocks that `d` fills. -/
def full (k : ℕ) (d : List α) : List (List α) := initial k d (d.length / k)

/-- What is left of `d` after them. -/
def rest (k : ℕ) (d : List α) : List α := d.drop (k * (d.length / k))

/-- All of `d`. -/
def blocks (k : ℕ) (d : List α) : List (List α) :=
  if rest k d = [] then full k d else full k d ++ [rest k d]

theorem length_full (k : ℕ) (d : List α) : (full k d).length = d.length / k := by
  unfold full initial
  rw [List.length_map, List.length_range]

theorem length_rest (k : ℕ) (d : List α) : (rest k d).length = d.length % k := by
  unfold rest
  rw [List.length_drop, Nat.mod_eq_sub_mul_div]

theorem initial_succ (k : ℕ) (d : List α) (m : ℕ) :
    initial k d (m + 1) = initial k d m ++ [(d.drop (k * m)).take k] := by
  unfold initial
  rw [List.range_succ, List.map_append, List.map_singleton]

theorem flatten_initial (k : ℕ) (d : List α) (m : ℕ) :
    (initial k d m).flatten = d.take (k * m) := by
  induction m with
  | zero => rfl
  | succ m ih =>
      rw [initial_succ, List.flatten_append, ih, List.flatten_singleton, Nat.mul_succ,
        List.take_add]

theorem flatten_full (k : ℕ) (d : List α) : (full k d).flatten = d.take (k * (d.length / k)) :=
  flatten_initial k d _

theorem flatten_full_append_rest (k : ℕ) (d : List α) : (full k d).flatten ++ rest k d = d := by
  rw [flatten_full]
  exact List.take_append_drop _ d

/-! ### One more element -/

theorem initial_concat {k : ℕ} {d : List α} {m : ℕ} (h : k * m ≤ d.length) (a : α) :
    initial k (d ++ [a]) m = initial k d m := by
  apply List.map_congr_left
  intro i hi
  rw [List.mem_range] at hi
  have hend : k * i + k ≤ k * m := Nat.mul_le_mul_left k hi
  rw [List.drop_append_of_le_length (by omega), List.take_append_of_le_length]
  rw [List.length_drop]
  omega

theorem full_concat {k : ℕ} {d : List α} (h : (d.length + 1) % k ≠ 0) (a : α) :
    full k (d ++ [a]) = full k d := by
  unfold full
  rw [List.length_append, List.length_singleton, Nat.succ_div_of_mod_ne_zero h]
  exact initial_concat (Nat.mul_div_le _ _) a

theorem rest_concat {k : ℕ} {d : List α} (h : (d.length + 1) % k ≠ 0) (a : α) :
    rest k (d ++ [a]) = rest k d ++ [a] := by
  unfold rest
  rw [List.length_append, List.length_singleton, Nat.succ_div_of_mod_ne_zero h]
  exact List.drop_append_of_le_length (Nat.mul_div_le _ _)

/-- The element that fills a block. -/
theorem full_concat_fills {k : ℕ} {d : List α} (h : (d.length + 1) % k = 0) (a : α) :
    full k (d ++ [a]) = full k d ++ [rest k d ++ [a]] := by
  have hdiv : (d ++ [a]).length / k = d.length / k + 1 := by
    rw [List.length_append, List.length_singleton]
    exact Nat.succ_div_of_mod_eq_zero h
  have hfill : d.length + 1 = k * (d.length / k + 1) := by
    have := Nat.div_add_mod (d.length + 1) k
    rw [h, Nat.succ_div_of_mod_eq_zero h] at this
    exact this.symm
  rw [Nat.mul_succ] at hfill
  have hle : k * (d.length / k) ≤ d.length := Nat.mul_div_le _ _
  unfold full rest
  rw [hdiv, initial_succ, initial_concat hle, List.drop_append_of_le_length hle]
  rw [List.take_of_length_le]
  rw [List.length_append, List.length_drop, List.length_singleton]
  omega

theorem rest_concat_fills {k : ℕ} {d : List α} (h : (d.length + 1) % k = 0) (a : α) :
    rest k (d ++ [a]) = [] := by
  apply List.eq_nil_of_length_eq_zero
  rw [length_rest, List.length_append, List.length_singleton, h]

/-! ### By number -/

theorem getElem?_full (k : ℕ) (d : List α) (i : ℕ) :
    (full k d)[i]? = if i < d.length / k then some ((d.drop (k * i)).take k) else none := by
  unfold full initial
  rw [List.getElem?_map]
  split_ifs with h
  · rw [List.getElem?_range h, Option.map_some]
  · rw [List.getElem?_eq_none (by rw [List.length_range]; omega), Option.map_none]

/-- **The blocks, by number.** -/
theorem getElem?_blocks {k : ℕ} (hk : 0 < k) (d : List α) (i : ℕ) :
    (blocks k d)[i]? = if k * i < d.length then some ((d.drop (k * i)).take k) else none := by
  have hlen := length_rest k d
  have hdm := Nat.div_add_mod d.length k
  have hmod := Nat.mod_lt d.length hk
  have hlast : ∀ j, d.length / k ≤ j → k * (d.length / k) ≤ k * j := fun j hj =>
    Nat.mul_le_mul_left k hj
  have hnext : ∀ j, j < d.length / k → k * j + k ≤ k * (d.length / k) := fun j hj =>
    Nat.mul_le_mul_left k hj
  unfold blocks
  split_ifs with hrest hi hi
  · rw [hrest, List.length_nil] at hlen
    rw [getElem?_full, if_pos]
    by_contra hge
    have := hlast i (by omega)
    omega
  · rw [getElem?_full, if_neg]
    intro hlt
    have := hnext i hlt
    omega
  · rcases Nat.lt_trichotomy i (d.length / k) with hlt | heq | hgt
    · rw [List.getElem?_append_left (by rw [length_full]; exact hlt), getElem?_full, if_pos hlt]
    · rw [List.getElem?_append_right (by rw [length_full]; omega), length_full, heq, Nat.sub_self]
      unfold rest
      rw [List.take_of_length_le]
      · rfl
      · rw [List.length_drop]
        omega
    · have := Nat.mul_le_mul_left k (show d.length / k + 1 ≤ i from hgt)
      rw [Nat.mul_succ] at this
      omega
  · rw [List.getElem?_eq_none]
    rw [List.length_append, length_full, List.length_singleton]
    have hpos : 0 < d.length % k := by
      rw [← hlen]
      exact List.length_pos_iff.mpr hrest
    by_contra hlt
    have := Nat.mul_le_mul_left k (show i ≤ d.length / k by omega)
    omega

/-! ### Loops -/

/-- **A loop over a buffer and its indices.**  `I done s`: `s` is the state after `done`. -/
theorem foldl_zipIdx_invariant {σ : Type*} {f : σ → α × ℕ → σ} {I : List α → σ → Prop}
    (hstep : ∀ done s a, I done s → I (done ++ [a]) (f s (a, done.length))) {s : σ}
    (h0 : I [] s) (l : List α) : I l (l.zipIdx.foldl f s) := by
  induction l using List.reverseRecOn with
  | nil => exact h0
  | append_singleton l a ih =>
      rw [List.zipIdx_append, List.foldl_append, List.zipIdx_singleton, Nat.zero_add]
      exact hstep l _ a ih

end Blocks
