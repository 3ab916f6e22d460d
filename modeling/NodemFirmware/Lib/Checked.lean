import Mathlib.Algebra.Order.Ring.Nat
import Mathlib.Data.Int.Basic
import Mathlib.Data.List.Basic
import Mathlib.Tactic.Common

/-! # Checked memory

Buffers whose accesses fail outside of them, and programs over them as `Option`s: a program
that returns has only touched what is there.

* `Returns x Q` says that `x` returns, with a value that meets `Q`; its rules are those of a
  program's preconditions and postconditions (`bind`, `each`).
* `each_invariant`, `each_keeps` and `each_congr` are about loops that may not return.
* `Buffer.load` and `Buffer.store` check the index; `each_fills` is the loop that fills a buffer.
* `layOut` puts regions one after the other, as a bump allocator does. -/

namespace Checked

universe u

variable {α β σ : Type u}

/-! ### Programs that return -/

/-- `x` returns, and what it returns meets `Q`. -/
def Returns (x : Option α) (Q : α → Prop) : Prop := ∃ a, x = some a ∧ Q a

variable {x : Option α} {P Q : α → Prop} {R : β → Prop}

theorem Returns.some {a : α} (h : Q a) : Returns (some a) Q := ⟨a, rfl, h⟩

theorem Returns.mono (h : Returns x P) (hPQ : ∀ a, P a → Q a) : Returns x Q := by
  obtain ⟨a, rfl, ha⟩ := h
  exact ⟨a, rfl, hPQ a ha⟩

theorem Returns.bind {f : α → Option β} (h : Returns x P) (hf : ∀ a, P a → Returns (f a) R) :
    Returns (x >>= f) R := by
  obtain ⟨a, rfl, ha⟩ := h
  exact hf a ha

/-- `step k` for `k = 0 .. n - 1`, one after the other. -/
def each (n : ℕ) (step : ℕ → σ → Option σ) (s : σ) : Option σ :=
  (List.range n).foldlM (fun s k => step k s) s

theorem each_succ (n : ℕ) (step : ℕ → σ → Option σ) (s : σ) :
    each (n + 1) step s = each n step s >>= step n := by
  unfold each
  rw [List.range_succ, List.foldlM_append]
  congr 1
  funext t
  show (step n t >>= fun t' => pure t') = step n t
  cases step n t <;> rfl

/-- **Loops:** a loop returns if its body keeps an invariant, pass by pass. -/
theorem Returns.each {n : ℕ} {step : ℕ → σ → Option σ} (I : ℕ → σ → Prop) {s : σ} (h0 : I 0 s)
    (hstep : ∀ k < n, ∀ s, I k s → Returns (step k s) (I (k + 1))) :
    Returns (each n step s) (I n) := by
  induction n with
  | zero => exact .some h0
  | succ n ih =>
      rw [each_succ]
      refine (ih (fun k hk => hstep k (hk.trans n.lt_succ_self))).bind ?_
      exact hstep n n.lt_succ_self

/-- An invariant that the body keeps, pass by pass, holds after a loop that returns. -/
theorem each_invariant {n : ℕ} {step : ℕ → σ → Option σ} (I : ℕ → σ → Prop) {s t : σ} (h0 : I 0 s)
    (hstep : ∀ k < n, ∀ s t, I k s → step k s = some t → I (k + 1) t)
    (h : each n step s = some t) : I n t := by
  induction n generalizing t with
  | zero =>
      cases h
      exact h0
  | succ n ih =>
      rw [each_succ, Option.bind_eq_bind, Option.bind_eq_some_iff] at h
      obtain ⟨u, hu, ht⟩ := h
      exact hstep n n.lt_succ_self u t (ih (fun k hk => hstep k (hk.trans n.lt_succ_self)) hu) ht

/-- What the body of a loop keeps is kept, if the loop returns. -/
theorem each_keeps {n : ℕ} {step : ℕ → σ → Option σ} {I : σ → Prop} {s t : σ}
    (hkeep : ∀ k < n, ∀ s t, I s → step k s = some t → I t) (hs : I s)
    (h : each n step s = some t) : I t :=
  each_invariant (fun _ => I) hs hkeep h

/-- Two loops whose bodies agree on what the first of them keeps. -/
theorem each_congr {n : ℕ} {step step' : ℕ → σ → Option σ} {I : σ → Prop} {s : σ} (hs : I s)
    (hkeep : ∀ k < n, ∀ s t, I s → step k s = some t → I t)
    (hstep : ∀ k < n, ∀ s, I s → step k s = step' k s) : each n step s = each n step' s := by
  induction n with
  | zero => rfl
  | succ n ih =>
      have hkeep' := fun k (hk : k < n) => hkeep k (hk.trans n.lt_succ_self)
      have hloop := ih hkeep' fun k hk => hstep k (hk.trans n.lt_succ_self)
      rw [each_succ, each_succ, ← hloop]
      cases hrun : each n step s with
      | none => rfl
      | some t => exact hstep n n.lt_succ_self t (each_keeps hkeep' hs hrun)

/-- **Lists:** the same for a step per element. -/
theorem Returns.foldlM {ε : Type u} {es : List ε} {step : σ → ε → Option σ} {I : σ → Prop} {s : σ}
    (h0 : I s) (hstep : ∀ e ∈ es, ∀ s, I s → Returns (step s e) I) :
    Returns (es.foldlM step s) I := by
  induction es generalizing s with
  | nil => exact .some h0
  | cons e es ih =>
      rw [List.foldlM_cons]
      refine (hstep e List.mem_cons_self s h0).bind fun t ht => ?_
      exact ih ht fun e' he' => hstep e' (List.mem_cons_of_mem e he')

/-! ### Buffers -/

/-- `size` entries. -/
structure Buffer (α : Type*) where
  size : ℕ
  data : ℕ → α

namespace Buffer

/-- The entry at an index, if there is one. -/
def load (b : Buffer α) (i : ℤ) : Option α :=
  if 0 ≤ i ∧ i < b.size then some (b.data i.toNat) else none

/-- The buffer with another entry at an index, if there is one. -/
def store (b : Buffer α) (i : ℤ) (v : α) : Option (Buffer α) :=
  if 0 ≤ i ∧ i < b.size then some { b with data := Function.update b.data i.toNat v } else none

variable {b : Buffer α} {i : ℕ}

theorem load_nat (h : i < b.size) : b.load i = some (b.data i) := by
  unfold load
  rw [if_pos ⟨Int.natCast_nonneg i, Int.ofNat_lt.mpr h⟩, Int.toNat_natCast]

theorem store_nat (h : i < b.size) (v : α) :
    b.store i v = some { b with data := Function.update b.data i v } := by
  unfold store
  rw [if_pos ⟨Int.natCast_nonneg i, Int.ofNat_lt.mpr h⟩, Int.toNat_natCast]

/-- What a store leaves: the size, and every entry but one. -/
theorem store_returns (h : i < b.size) (v : α) :
    Returns (b.store i v) fun b' => b'.size = b.size ∧ b'.data i = v ∧
      ∀ j, j ≠ i → b'.data j = b.data j := by
  rw [store_nat h]
  exact .some ⟨rfl, Function.update_self .., fun j hj => Function.update_of_ne hj ..⟩

end Buffer

/-- **Filling loops:** a loop that stores `v k` at `o + k` leaves these and touches nothing
else. -/
theorem each_fills {b : Buffer α} {n o : ℕ} {v : ℕ → α} {body : ℕ → Buffer α → Option (Buffer α)}
    (hin : o + n ≤ b.size)
    (hbody : ∀ k < n, ∀ b' : Buffer α, body k b' = b'.store (o + k : ℕ) (v k)) :
    Returns (each n body b) fun b' => b'.size = b.size ∧ (∀ k < n, b'.data (o + k) = v k) ∧
      ∀ i, i < o ∨ o + n ≤ i → b'.data i = b.data i := by
  refine Returns.each (fun j (b' : Buffer α) => b'.size = b.size ∧
    (∀ k < j, b'.data (o + k) = v k) ∧ ∀ i, i < o ∨ o + j ≤ i → b'.data i = b.data i)
    ⟨rfl, fun k hk => absurd hk (Nat.not_lt_zero k), fun i _ => rfl⟩ ?_
  rintro j hj b' ⟨hsize, hfilled, hrest⟩
  rw [hbody j hj]
  refine (Buffer.store_returns (by omega) _).mono ?_
  rintro b'' ⟨hsize', hat, hother⟩
  refine ⟨hsize'.trans hsize, ?_, ?_⟩
  · intro k hk
    rcases Nat.lt_succ_iff_lt_or_eq.mp hk with hlt | rfl
    · rw [hother _ (by omega), hfilled k hlt]
    · exact hat
  · intro i hi
    rw [hother i (by omega), hrest i (by omega)]

namespace Buffer

/-- The entries in order. -/
def toList (b : Buffer α) : List α := (List.range b.size).map b.data

@[simp] theorem toList_length (b : Buffer α) : b.toList.length = b.size := by
  rw [toList, List.length_map, List.length_range]

@[simp] theorem getElem_toList (b : Buffer α) {i : ℕ} (h : i < b.toList.length) :
    b.toList[i] = b.data i := by
  simp only [toList, List.getElem_map, List.getElem_range]

/-- What a filling loop leaves, as a list. -/
theorem toList_fills {b b' : Buffer α} {o : ℕ} {out : List α} (hin : o + out.length ≤ b.size)
    (hsize : b'.size = b.size) (hfill : ∀ k (hk : k < out.length), b'.data (o + k) = out[k])
    (hrest : ∀ i, i < o ∨ o + out.length ≤ i → b'.data i = b.data i) :
    b'.toList = b.toList.take o ++ out ++ b.toList.drop (o + out.length) := by
  apply List.ext_getElem
  · simp only [toList_length, List.length_append, List.length_take, List.length_drop, hsize]
    omega
  · intro i hi hi'
    rw [toList_length, hsize] at hi
    rw [getElem_toList]
    simp only [List.getElem_append, List.length_append, List.length_take, toList_length,
      List.getElem_take, List.getElem_drop, getElem_toList]
    split_ifs with hafter hbefore
    · exact hrest i (.inl (by omega))
    · rw [← hfill _ (by omega)]
      congr 1
      omega
    · rw [hrest i (.inr (by omega))]
      congr 1
      omega

end Buffer

/-! ### Regions -/

/-- `size` bytes from `offset` on. -/
structure Region where
  offset : ℕ
  size : ℕ
deriving DecidableEq, Repr

namespace Region

def stop (r : Region) : ℕ := r.offset + r.size

/-- No byte is in both. -/
def Apart (r s : Region) : Prop := ∀ i, ¬ ((r.offset ≤ i ∧ i < r.stop) ∧ s.offset ≤ i ∧ i < s.stop)

/-- Whole entries of `width` bytes that fit. -/
def entries (r : Region) (width : ℕ) : ℕ := r.size / width

theorem apart_of_le {r s : Region} (h : r.stop ≤ s.offset) : r.Apart s := by
  rintro i ⟨⟨-, hi⟩, hi', -⟩
  omega

/-- An entry below `entries` lies in the region, to its last byte. -/
theorem entry_inside {r : Region} {width i : ℕ} (h : i < r.entries width) :
    r.offset + (i + 1) * width ≤ r.stop := by
  have hle : (i + 1) * width ≤ r.size :=
    (Nat.mul_le_mul_right width h).trans (Nat.div_mul_le_self r.size width)
  unfold stop
  omega

theorem le_entries {r : Region} {width n : ℕ} (hw : 0 < width) (h : n * width ≤ r.size) :
    n ≤ r.entries width := (Nat.le_div_iff_mul_le hw).mpr h

end Region

/-- Regions of the sizes given, one after the other from `base` on. -/
def layOut (base : ℕ) : List ℕ → List Region
  | [] => []
  | size :: sizes => ⟨base, size⟩ :: layOut (base + size) sizes

theorem layOut_inside {base : ℕ} {sizes : List ℕ} {r : Region} (h : r ∈ layOut base sizes) :
    base ≤ r.offset ∧ r.stop ≤ base + sizes.sum := by
  induction sizes generalizing base with
  | nil => cases h
  | cons size sizes ih =>
      rw [List.sum_cons]
      rcases List.mem_cons.mp h with rfl | hr
      · exact ⟨le_refl _, by unfold Region.stop; simp only; omega⟩
      · have hin := ih hr
        omega

/-- **Regions laid out one after the other are apart.** -/
theorem layOut_apart (base : ℕ) (sizes : List ℕ) :
    (layOut base sizes).Pairwise Region.Apart := by
  induction sizes generalizing base with
  | nil => exact .nil
  | cons size sizes ih =>
      refine .cons ?_ (ih _)
      intro r hr
      exact Region.apart_of_le (layOut_inside hr).1

end Checked
