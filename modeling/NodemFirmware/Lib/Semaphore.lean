import Mathlib.Data.Nat.Notation
import Mathlib.Tactic.Common

/-! # Counting semaphores with one thread that takes

A give hands the semaphore to the thread that waits for it, and counts up to a limit when none
does.

* `Sem.Ok` is what every operation keeps: the count is within the limit, and zero while the
  thread waits.
* A take that waits ends by a give or by its timeout: `pending` is false again after both, and
  only the caller of the timeout knows of it. -/

namespace Semaphore

/-- The count of a semaphore, and whether its taker waits for it. -/
structure Sem where
  count : ℕ
  pending : Bool
deriving DecidableEq, Repr

namespace Sem

variable {limit : ℕ} {s : Sem}

/-- Nothing given, nobody waiting. -/
def empty : Sem := ⟨0, false⟩

/-- The taker asks for a count: it gets one, or waits. -/
def take (s : Sem) : Sem :=
  if 0 < s.count then { s with count := s.count - 1 } else { s with pending := true }

/-- A count is given: the waiting taker gets it, else it is kept, up to `limit`. -/
def give (limit : ℕ) (s : Sem) : Sem :=
  if s.pending then { s with pending := false } else { s with count := min limit (s.count + 1) }

/-- The taker stops waiting. -/
def timeout (s : Sem) : Sem := { s with pending := false }

structure Ok (limit : ℕ) (s : Sem) : Prop where
  count : s.count ≤ limit
  pending : s.pending = true → s.count = 0

theorem empty_ok : empty.Ok limit := ⟨Nat.zero_le _, fun h => by cases h⟩

theorem Ok.take (h : s.Ok limit) (hidle : s.pending = false) : s.take.Ok limit := by
  unfold Sem.take
  split_ifs with hcount
  · refine ⟨?_, ?_⟩
    · exact Nat.le_trans (Nat.sub_le _ _) h.count
    · intro hpending
      rw [hidle] at hpending
      cases hpending
  · exact ⟨h.count, fun _ => Nat.eq_zero_of_not_pos hcount⟩

theorem Ok.give (h : s.Ok limit) : (s.give limit).Ok limit := by
  unfold Sem.give
  split_ifs with hpending
  · exact ⟨h.count, fun h' => by cases h'⟩
  · exact ⟨Nat.min_le_left _ _, fun h' => absurd h' hpending⟩

theorem Ok.timeout (h : s.Ok limit) : s.timeout.Ok limit :=
  ⟨h.count, fun h' => by cases h'⟩

/-- A take waits exactly when nothing has been given. -/
theorem take_pending (hidle : s.pending = false) : s.take.pending = true ↔ s.count = 0 := by
  unfold Sem.take
  split_ifs with hcount
  · simp [hidle, Nat.ne_of_gt hcount]
  · simp [Nat.eq_zero_of_not_pos hcount]

@[simp] theorem give_pending (limit : ℕ) (s : Sem) : (s.give limit).pending = false := by
  unfold Sem.give
  split_ifs with hpending
  · rfl
  · simpa using hpending

/-- What is given to nobody is there for the next take. -/
theorem give_count (hlimit : 0 < limit) (hidle : s.pending = false) :
    0 < (s.give limit).count := by
  simp only [Sem.give, hidle, Bool.false_eq_true, if_false]
  exact Nat.lt_min.mpr ⟨hlimit, Nat.succ_pos _⟩

end Sem

end Semaphore
