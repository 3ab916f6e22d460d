import Mathlib.Tactic

/-! # Memory written through a window

A two-dimensional memory whose write pointer runs through a window of it, column by column,
and on to the window's next row by itself.

* `write_cell`: a write that stays in the pointer's row changes exactly the cells it covers.
* `write_window`: the window stays, and where the pointer is afterwards. -/

/-- The memory, its window and the write pointer. -/
structure WindowRam (α : Type*) where
  cell : ℕ → ℕ → α
  colLo : ℕ
  colHi : ℕ
  rowLo : ℕ
  rowHi : ℕ
  row : ℕ
  col : ℕ

namespace WindowRam

variable {α : Type*}

/-- Sets the window; the pointer goes to its start. -/
def setWindow (m : WindowRam α) (colLo colHi rowLo rowHi : ℕ) : WindowRam α :=
  { m with colLo := colLo, colHi := colHi, rowLo := rowLo, rowHi := rowHi
           row := rowLo, col := colLo }

/-- The pointer one cell further. -/
def advance (m : WindowRam α) : WindowRam α :=
  if m.col < m.colHi then { m with col := m.col + 1 }
  else { m with col := m.colLo, row := if m.row < m.rowHi then m.row + 1 else m.rowLo }

def store (m : WindowRam α) (a : α) : WindowRam α :=
  { m with cell := Function.update m.cell m.row (Function.update (m.cell m.row) m.col a) }

/-- Writes values from the pointer on. -/
def write (m : WindowRam α) (l : List α) : WindowRam α :=
  l.foldl (fun m a => (m.store a).advance) m

@[simp] theorem write_nil (m : WindowRam α) : m.write [] = m := rfl

@[simp] theorem write_cons (m : WindowRam α) (a : α) (l : List α) :
    m.write (a :: l) = (m.store a).advance.write l := rfl

@[simp] theorem advance_cell (m : WindowRam α) : m.advance.cell = m.cell := by
  unfold advance
  split_ifs <;> rfl

theorem store_cell (m : WindowRam α) (a : α) (i j : ℕ) :
    (m.store a).cell i j = if i = m.row ∧ j = m.col then a else m.cell i j := by
  unfold store
  by_cases hi : i = m.row
  · subst hi
    by_cases hj : j = m.col
    · subst hj
      simp
    · simp [hj]
  · simp [hi]

/-- **A write within a row** changes exactly the cells it covers. -/
theorem write_cell (l : List α) (m : WindowRam α) (h : m.col + l.length ≤ m.colHi + 1)
    (i j : ℕ) :
    (m.write l).cell i j =
      if i = m.row ∧ m.col ≤ j then (l[j - m.col]?).getD (m.cell i j) else m.cell i j := by
  induction l generalizing m with
  | nil => simp
  | cons a l ih =>
      rw [List.length_cons] at h
      rw [write_cons]
      rcases Nat.lt_or_ge m.col m.colHi with hlt | hge
      · have hadv : (m.store a).advance = { m.store a with col := m.col + 1 } := if_pos hlt
        rw [hadv, ih _ (by show m.col + 1 + l.length ≤ m.colHi + 1; omega)]
        show (if i = m.row ∧ m.col + 1 ≤ j then (l[j - (m.col + 1)]?).getD ((m.store a).cell i j)
          else (m.store a).cell i j) = _
        rw [store_cell]
        by_cases hi : i = m.row
        · rcases Nat.lt_trichotomy j m.col with hj | hj | hj
          · have h1 : ¬ m.col + 1 ≤ j := by omega
            have h2 : ¬ m.col ≤ j := by omega
            have h3 : j ≠ m.col := by omega
            simp [h1, h2, h3]
          · subst hj
            simp [hi]
          · obtain ⟨k, hk⟩ : ∃ k, j - m.col = k + 1 := ⟨j - m.col - 1, by omega⟩
            have h1 : m.col + 1 ≤ j := by omega
            have h2 : m.col ≤ j := by omega
            have h3 : j ≠ m.col := by omega
            have h4 : j - (m.col + 1) = k := by omega
            simp [hi, h1, h2, h3, h4, hk]
        · simp [hi]
      · have hl : l = [] := List.length_eq_zero_iff.mp (by omega)
        subst hl
        rw [write_nil, advance_cell, store_cell]
        by_cases hi : i = m.row
        · rcases Nat.lt_trichotomy j m.col with hj | hj | hj
          · have h2 : ¬ m.col ≤ j := by omega
            have h3 : j ≠ m.col := by omega
            simp [h2, h3]
          · subst hj
            simp [hi]
          · obtain ⟨k, hk⟩ : ∃ k, j - m.col = k + 1 := ⟨j - m.col - 1, by omega⟩
            have h3 : j ≠ m.col := by omega
            simp [h3, hk]
        · simp [hi]

/-- What a write within a row leaves of the window and the pointer. -/
theorem write_window (l : List α) (m : WindowRam α) (h : m.col + l.length ≤ m.colHi + 1) :
    (m.write l).colLo = m.colLo ∧ (m.write l).colHi = m.colHi ∧ (m.write l).rowLo = m.rowLo ∧
      (m.write l).rowHi = m.rowHi ∧
      (m.col + l.length ≤ m.colHi → (m.write l).row = m.row ∧
        (m.write l).col = m.col + l.length) ∧
      (l ≠ [] → m.col + l.length = m.colHi + 1 →
        (m.write l).row = (if m.row < m.rowHi then m.row + 1 else m.rowLo) ∧
          (m.write l).col = m.colLo) := by
  induction l generalizing m with
  | nil => simp
  | cons a l ih =>
      rw [List.length_cons] at h
      rw [write_cons]
      rcases Nat.lt_or_ge m.col m.colHi with hlt | hge
      · have hadv : (m.store a).advance = { m.store a with col := m.col + 1 } := if_pos hlt
        rw [hadv]
        obtain ⟨h1, h2, h3, h4, h5, h6⟩ := ih { m.store a with col := m.col + 1 }
          (by show m.col + 1 + l.length ≤ m.colHi + 1; omega)
        refine ⟨h1, h2, h3, h4, ?_, ?_⟩
        · intro hle
          obtain ⟨hr, hc⟩ := h5 (by
            show m.col + 1 + l.length ≤ m.colHi
            rw [List.length_cons] at hle
            omega)
          refine ⟨hr, hc.trans ?_⟩
          rw [List.length_cons]
          show m.col + 1 + l.length = _
          omega
        · intro _ heq
          rw [List.length_cons] at heq
          refine h6 (fun hl => ?_) (by show m.col + 1 + l.length = m.colHi + 1; omega)
          rw [hl, List.length_nil] at heq
          omega
      · have hl : l = [] := List.length_eq_zero_iff.mp (by omega)
        subst hl
        have hadv : (m.store a).advance = { m.store a with
            col := m.colLo, row := if m.row < m.rowHi then m.row + 1 else m.rowLo } :=
          if_neg (not_lt.mpr hge)
        rw [hadv]
        refine ⟨rfl, rfl, rfl, rfl, ?_, fun _ _ => ⟨rfl, rfl⟩⟩
        intro hle
        rw [List.length_singleton] at hle
        omega

end WindowRam
