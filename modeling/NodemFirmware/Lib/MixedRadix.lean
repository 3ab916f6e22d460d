import Mathlib.Tactic

/-! # Mixed-radix positions

A position in a nested layout is a number `a * n + b` with digits `a < m` and `b < n`.

* `digits_lt`, `digits_div`, `digits_mod`, `digits_inj` and `exists_digits`: the two digits
  and the numbers below `m * n` correspond one to one, so a layout built digit by digit is a
  bijection.
* `mirror` runs a digit backwards; it is its own inverse (`mirror_mirror`), and running a
  position backwards runs each of its digits backwards (`mirror_digits`).
* `existsUnique_mod`: a counter modulo `n` takes every value once in `n` steps.
* `nextMod k n b` is that step: the first number from `k` on with remainder `b`.
* `getD_table` reads a table that was filled row by row. -/

namespace MixedRadix

variable {m n a b a' b' v x y : ℕ}

theorem digits_lt (ha : a < m) (hb : b < n) : a * n + b < m * n := by
  calc a * n + b < a * n + n := by omega
    _ = (a + 1) * n := by ring
    _ ≤ m * n := Nat.mul_le_mul_right n ha

theorem digits_div (hb : b < n) : (a * n + b) / n = a := by
  rw [Nat.mul_comm, Nat.mul_add_div (by omega), Nat.div_eq_of_lt hb, Nat.add_zero]

theorem digits_mod (hb : b < n) : (a * n + b) % n = b := by
  rw [Nat.mul_comm, Nat.mul_add_mod, Nat.mod_eq_of_lt hb]

theorem digits_inj (hb : b < n) (hb' : b' < n) (h : a * n + b = a' * n + b') :
    a = a' ∧ b = b' := by
  have hdiv := congrArg (· / n) h
  have hmod := congrArg (· % n) h
  simp only [digits_div hb, digits_div hb', digits_mod hb, digits_mod hb'] at hdiv hmod
  exact ⟨hdiv, hmod⟩

theorem exists_digits (h : v < m * n) : ∃ a < m, ∃ b < n, v = a * n + b := by
  have hn : 0 < n := by
    rcases Nat.eq_zero_or_pos n with h0 | h0
    · rw [h0, Nat.mul_zero] at h
      omega
    · exact h0
  refine ⟨v / n, ?_, v % n, Nat.mod_lt v hn, ?_⟩
  · rwa [Nat.div_lt_iff_lt_mul hn]
  · rw [Nat.mul_comm]
    exact (Nat.div_add_mod v n).symm

/-- A position is below `k` whole blocks when its leading digit is. -/
theorem digits_lt_iff (hb : b < n) {k : ℕ} : a * n + b < k * n ↔ a < k := by
  constructor
  · intro h
    by_contra hk
    have := Nat.mul_le_mul_right n (not_lt.mp hk)
    omega
  · intro h
    exact digits_lt h hb

/-- Among `n` consecutive numbers every residue occurs exactly once. -/
theorem existsUnique_mod (hb : b < n) (k : ℕ) :
    ∃! v, (k ≤ v ∧ v < k + n) ∧ v % n = b := by
  have hn : 0 < n := by omega
  have hk := Nat.div_add_mod k n
  have hkn := Nat.mod_lt k hn
  have hunique : ∀ v w, k ≤ v → v < k + n → k ≤ w → w < k + n → v % n = w % n → v ≤ w := by
    intro v w hv hv' hw hw' heq
    by_contra hlt
    have hvd := Nat.div_add_mod v n
    have hwd := Nat.div_add_mod w n
    have hdiv : w / n < v / n := by
      by_contra hge
      have := Nat.mul_le_mul_left n (not_lt.mp hge)
      omega
    have := Nat.mul_le_mul_left n hdiv
    rw [Nat.mul_succ] at this
    omega
  have hex : ∃ v, (k ≤ v ∧ v < k + n) ∧ v % n = b := by
    rcases Nat.lt_or_ge b (k % n) with hlt | hge
    · refine ⟨(k / n + 1) * n + b, ?_, digits_mod hb⟩
      rw [Nat.add_one_mul, Nat.mul_comm]
      omega
    · refine ⟨k / n * n + b, ?_, digits_mod hb⟩
      rw [Nat.mul_comm]
      omega
  obtain ⟨v, hv, hvb⟩ := hex
  refine ⟨v, ⟨hv, hvb⟩, ?_⟩
  rintro w ⟨hw, hwb⟩
  have h1 := hunique v w hv.1 hv.2 hw.1 hw.2 (by rw [hvb, hwb])
  have h2 := hunique w v hw.1 hw.2 hv.1 hv.2 (by rw [hvb, hwb])
  omega

/-- The first number from `k` on that leaves `b` modulo `n`. -/
def nextMod (k n b : ℕ) : ℕ := k + (b + (n - k % n)) % n

theorem nextMod_bounds (hb : b < n) (k : ℕ) : k ≤ nextMod k n b ∧ nextMod k n b < k + n :=
  ⟨Nat.le_add_right _ _, Nat.add_lt_add_left (Nat.mod_lt _ (by omega)) _⟩

theorem nextMod_mod (hb : b < n) (k : ℕ) : nextMod k n b % n = b := by
  have hk := Nat.mod_lt k (show 0 < n by omega)
  have hsum : k % n + (b + (n - k % n)) = b + n := by omega
  rw [nextMod, Nat.add_mod_mod, ← Nat.mod_add_mod, hsum, Nat.add_mod_right, Nat.mod_eq_of_lt hb]

/-- It is the only one among `n` consecutive numbers. -/
theorem nextMod_eq {k v : ℕ} (hb : b < n) (hv : k ≤ v ∧ v < k + n) (hmod : v % n = b) :
    nextMod k n b = v :=
  (existsUnique_mod hb k).unique ⟨nextMod_bounds hb k, nextMod_mod hb k⟩ ⟨hv, hmod⟩

/-- A table filled row by row, read at a position. -/
theorem getD_table {α : Type*} (f : ℕ → ℕ → α) (d : α) (ha : a < m) (hb : b < n) :
    ((List.range m).flatMap fun a => (List.range n).map (f a)).getD (a * n + b) d = f a b := by
  induction m with
  | zero => omega
  | succ m ih =>
      have hlen : ((List.range m).flatMap fun a => (List.range n).map (f a)).length = m * n := by
        simp [List.length_flatMap]
      rw [List.range_succ, List.flatMap_append, List.getD_eq_getElem?_getD]
      rcases Nat.lt_succ_iff_lt_or_eq.mp ha with hlt | heq
      · rw [List.getElem?_append_left (by rw [hlen]; exact digits_lt hlt hb),
          ← List.getD_eq_getElem?_getD]
        exact ih hlt
      · rw [heq, List.getElem?_append_right (by rw [hlen]; omega), hlen, Nat.add_sub_cancel_left]
        simp [hb]

/-- A digit of `n` values, counted from the other end if `r`. -/
def mirror (r : Bool) (n x : ℕ) : ℕ := if r then n - 1 - x else x

theorem mirror_lt (r : Bool) (hx : x < n) : mirror r n x < n := by
  unfold mirror
  split_ifs <;> omega

theorem mirror_mirror (r : Bool) (hx : x < n) : mirror r n (mirror r n x) = x := by
  unfold mirror
  split_ifs <;> omega

theorem mirror_inj (r : Bool) (hx : x < n) (hy : y < n) (h : mirror r n x = mirror r n y) :
    x = y := by
  rw [← mirror_mirror r hx, h, mirror_mirror r hy]

theorem mirror_digits (r : Bool) (ha : a < m) (hb : b < n) :
    mirror r (m * n) (a * n + b) = mirror r m a * n + mirror r n b := by
  unfold mirror
  cases r
  · rfl
  · simp only [if_true]
    have hm : m * n = (m - 1 - a) * n + a * n + n := by
      calc m * n = ((m - 1 - a) + a + 1) * n := by congr 1; omega
        _ = (m - 1 - a) * n + a * n + n := by ring
    omega

end MixedRadix
