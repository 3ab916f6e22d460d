import Mathlib.Algebra.Order.Ring.Nat
import Mathlib.Data.List.Count
import Mathlib.Tactic.Common

/-! # Pulse width modulated outputs

A word makes one period of an output: its low 15 bits are the tick at which the level changes, and
bit 15 says whether the period starts high.

* `low` is the level within a period, and `lowAt` that of a sequence of periods.
* `lowAt_iff`: periods that are low throughout, one that is low up to a tick and periods that are
  never low make an output that is low up to a tick. -/

namespace Pulse

/-- Bit 15 set: high, and low from the compare value on; clear: low up to the compare value. -/
def low (word tick : ℕ) : Bool :=
  if word.testBit 15 then word % 2 ^ 15 ≤ tick else tick < word % 2 ^ 15

/-- How many of the ticks of a period are low. -/
def lowTicks (top word : ℕ) : ℕ := (List.range top).countP (low word)

/-- The level at a tick of a sequence of periods. -/
def lowAt (top : ℕ) (word : ℕ → ℕ) (t : ℕ) : Bool := low (word (t / top)) (t % top)

variable {top word n : ℕ}

theorem low_of_lt (h : word < 2 ^ 15) (tick : ℕ) : low word tick = decide (tick < word) := by
  have hbit : word.testBit 15 = false := Nat.testBit_lt_two_pow h
  rw [low, hbit, Nat.mod_eq_of_lt h]
  rfl

/-- Low up to the compare value: that many ticks are. -/
theorem lowTicks_of_lt (h : word < 2 ^ 15) (htop : word ≤ top) : lowTicks top word = word := by
  have hlow : low word = fun tick => decide (tick < word) := funext (low_of_lt h)
  rw [lowTicks, hlow, ← Nat.add_sub_cancel' htop, List.range_add, List.countP_append,
    List.countP_eq_length.mpr fun tick ht => decide_eq_true (List.mem_range.mp ht),
    List.countP_eq_zero.mpr, List.length_range, Nat.add_zero]
  intro tick ht
  obtain ⟨i, -, rfl⟩ := List.mem_map.mp ht
  simp

/-- Never low within the period. -/
theorem lowTicks_of_never (h : ∀ tick < top, low word tick = false) : lowTicks top word = 0 :=
  List.countP_eq_zero.mpr fun tick ht => by
    rw [h tick (List.mem_range.mp ht)]
    exact Bool.false_ne_true

/-- Comparing tick counts by periods. -/
theorem lt_iff_periods (t : ℕ) :
    t < n ↔ t / top < n / top ∨ t / top = n / top ∧ t % top < n % top := by
  have ht := Nat.div_add_mod t top
  have hn := Nat.div_add_mod n top
  rcases Nat.lt_trichotomy (t / top) (n / top) with hlt | heq | hgt
  · exact iff_of_true (Nat.lt_of_not_le fun hle => absurd (Nat.div_le_div_right hle)
      (Nat.not_le_of_lt hlt)) (.inl hlt)
  · rw [heq] at ht
    omega
  · refine iff_of_false (fun hlt => ?_) (by omega)
    exact absurd (Nat.div_le_div_right (Nat.le_of_lt hlt)) (Nat.not_le_of_lt hgt)

/-- **Low for the first `n` ticks**: the periods before are low throughout, the one at `n` up to
it, and those after not at all. -/
theorem lowAt_iff (htop : 0 < top) {words : ℕ → ℕ} {len : ℕ}
    (hfull : ∀ i < len, i < n / top → ∀ tick < top, low (words i) tick = true)
    (hshare : ∀ i < len, i = n / top → ∀ tick < top,
      (low (words i) tick = true ↔ tick < n % top))
    (hnever : ∀ i < len, n / top < i → ∀ tick < top, low (words i) tick = false)
    {t : ℕ} (ht : t < len * top) : lowAt top words t = true ↔ t < n := by
  have hi : t / top < len := (Nat.div_lt_iff_lt_mul htop).mpr ht
  have htick := Nat.mod_lt t htop
  rw [lt_iff_periods, lowAt]
  rcases Nat.lt_trichotomy (t / top) (n / top) with hlt | heq | hgt
  · exact iff_of_true (hfull _ hi hlt _ htick) (.inl hlt)
  · rw [hshare _ hi heq _ htick]
    omega
  · rw [hnever _ hi hgt _ htick]
    exact iff_of_false Bool.false_ne_true (by omega)

end Pulse
