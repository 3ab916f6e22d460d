import Mathlib.Data.List.Basic
import Mathlib.Data.List.TakeDrop
import Mathlib.Data.List.Flatten
import Mathlib.Tactic.Common

/-! # Shift registers

A chain of cells clocked by one line: a rising edge moves every content one cell further and takes
the data line into the first.

* `shifts` is the chain after some edges, and `getElem?_shifts` what each cell holds then: with as
  many edges as cells, nothing of what it held before.
* `sampled` is what the edges of a clock signal sample from a data signal, tick by tick.
* `sampled_periods`: a clock that is low for the first part of every period and high for the rest
  samples the data once a period, as it rises; `sampled_quiet`: a clock that stays low, nothing. -/

namespace ShiftRegister

variable {α : Type*} {reg : List α} {p : ℕ}

/-- One rising edge: the chain keeps its length. -/
def shift (reg : List α) (v : α) : List α := (v :: reg).take reg.length

/-- An edge for each of the values. -/
def shifts (reg : List α) (vs : List α) : List α := vs.foldl shift reg

theorem length_shift (reg : List α) (v : α) : (shift reg v).length = reg.length := by
  simp [shift]

theorem length_shifts (reg vs : List α) : (shifts reg vs).length = reg.length := by
  induction vs generalizing reg with
  | nil => rfl
  | cons v vs ih => exact (ih (shift reg v)).trans (length_shift reg v)

theorem shifts_eq (reg vs : List α) : shifts reg vs = (vs.reverse ++ reg).take reg.length := by
  induction vs generalizing reg with
  | nil => simp [shifts]
  | cons v vs ih =>
      have hstep : shifts reg (v :: vs) = shifts (shift reg v) vs := rfl
      rw [hstep, ih, length_shift, shift, List.reverse_cons, List.append_assoc,
        List.singleton_append, List.take_append, List.take_append, List.take_take,
        Nat.min_eq_left (Nat.sub_le _ _)]

/-- As many edges as cells. -/
theorem shifts_full {vs : List α} (h : vs.length = reg.length) : shifts reg vs = vs.reverse := by
  rw [shifts_eq, ← h, ← List.length_reverse, List.take_left']
  rfl

/-- **What a cell holds** after at least as many edges as cells: the value of so many edges
ago. -/
theorem getElem?_shifts (reg vs : List α) (h : reg.length ≤ vs.length) (hp : p < reg.length) :
    (shifts reg vs)[p]? = vs[vs.length - 1 - p]? := by
  rw [shifts_eq, List.getElem?_take, if_pos hp,
    List.getElem?_append_left (by rw [List.length_reverse]; omega),
    List.getElem?_reverse (by omega)]

/-! ### Clock signals -/

/-- The level of a signal one tick earlier, low before the first. -/
def before (clk : ℕ → Bool) : ℕ → Bool
  | 0 => false
  | t + 1 => clk t

/-- The clock rises at tick `t`. -/
def rises (clk : ℕ → Bool) (t : ℕ) : Bool := clk t && !before clk t

/-- What the rising edges among the first `n` ticks sample. -/
def sampled (clk : ℕ → Bool) (data : ℕ → α) : ℕ → List α
  | 0 => []
  | t + 1 => sampled clk data t ++ if rises clk t then [data t] else []

variable {clk : ℕ → Bool} {data : ℕ → α} {s n rise top : ℕ}

theorem sampled_add (clk : ℕ → Bool) (data : ℕ → α) (s n : ℕ) : sampled clk data (s + n) =
    sampled clk data s ++
      (List.range n).flatMap fun i => if rises clk (s + i) then [data (s + i)] else [] := by
  induction n with
  | zero => simp
  | succ n ih =>
      rw [Nat.add_succ, sampled, ih, List.range_succ, List.flatMap_append, List.append_assoc,
        List.flatMap_singleton]

/-- No edge, no sample. -/
theorem sampled_quiet (hle : s ≤ n) (h : ∀ t, s ≤ t → t < n → clk t = false) :
    sampled clk data n = sampled clk data s := by
  induction n with
  | zero => rw [Nat.le_zero.mp hle]
  | succ n ih =>
      rcases Nat.eq_or_lt_of_le hle with rfl | hlt
      · rfl
      · have hlow : rises clk n = false := by
          rw [rises, h n (by omega) (Nat.lt_succ_self n), Bool.false_and]
        rw [sampled, hlow, ih (by omega) fun t hs ht => h t hs (by omega)]
        exact List.append_nil _

/-- Within a period that is low before `rise` and high from there, the one edge is at `rise`. -/
theorem rises_iff (hrise : 0 < rise) {i j : ℕ} (hj : j < top)
    (h : ∀ j < top, clk (i * top + j) = decide (rise ≤ j)) :
    rises clk (i * top + j) = decide (j = rise) := by
  unfold rises
  rw [h j hj]
  rcases Nat.lt_trichotomy j rise with hlt | rfl | hgt
  · rw [decide_eq_false (by omega), decide_eq_false (by omega), Bool.false_and]
  · obtain ⟨k, rfl⟩ : ∃ k, j = k + 1 := ⟨j - 1, by omega⟩
    have hprev : before clk (i * top + (k + 1)) = false := by
      show clk (i * top + k) = false
      rw [h k (by omega), decide_eq_false (by omega)]
    rw [hprev, decide_eq_true (Nat.le_refl _), decide_eq_true rfl]
    rfl
  · obtain ⟨k, rfl⟩ : ∃ k, j = k + 1 := ⟨j - 1, by omega⟩
    have hprev : before clk (i * top + (k + 1)) = true := by
      show clk (i * top + k) = true
      rw [h k (by omega), decide_eq_true (by omega)]
    rw [hprev, Bool.not_true, Bool.and_false, decide_eq_false (by omega)]

/-- One tick of a range is special. -/
theorem flatMap_single (f : ℕ → α) (hlt : rise < top) :
    ((List.range top).flatMap fun j => if decide (j = rise) = true then [f j] else []) =
      [f rise] := by
  obtain ⟨k, rfl⟩ : ∃ k, top = rise + 1 + k := ⟨top - (rise + 1), by omega⟩
  have hnone : ∀ l : List ℕ, (∀ j ∈ l, j ≠ rise) →
      (l.flatMap fun j => if decide (j = rise) = true then [f j] else []) = [] := by
    intro l hl
    rw [List.flatMap_eq_nil_iff]
    intro j hj
    rw [decide_eq_false (hl j hj), if_neg Bool.false_ne_true]
  have hafter : ∀ j ∈ List.map (rise + 1 + ·) (List.range k), j ≠ rise := by
    intro j hj
    obtain ⟨i, -, rfl⟩ := List.mem_map.mp hj
    omega
  rw [List.range_add, List.flatMap_append, hnone _ hafter, List.range_succ, List.flatMap_append,
    hnone _ fun j hj => Nat.ne_of_lt (List.mem_range.mp hj), List.flatMap_singleton]
  simp

/-- **A clock with one edge a period** samples the data once a period. -/
theorem sampled_periods (hrise : 0 < rise) (hlt : rise < top)
    (h : ∀ i < n, ∀ j < top, clk (i * top + j) = decide (rise ≤ j)) :
    sampled clk data (n * top) = (List.range n).map fun i => data (i * top + rise) := by
  induction n with
  | zero => simp [sampled]
  | succ n ih =>
      have hperiod : ((List.range top).flatMap fun j =>
          if rises clk (n * top + j) then [data (n * top + j)] else []) =
          [data (n * top + rise)] := by
        rw [← flatMap_single (fun j => data (n * top + j)) hlt]
        refine List.flatMap_congr fun j hj => ?_
        rw [rises_iff hrise (List.mem_range.mp hj) (h n (Nat.lt_succ_self n))]
      rw [Nat.succ_mul, sampled_add, ih fun i hi => h i (Nat.lt_succ_of_lt hi), hperiod,
        List.range_succ, List.map_append]
      rfl

end ShiftRegister
