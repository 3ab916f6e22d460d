import Mathlib.Data.Nat.Notation
import Mathlib.Tactic.Common

/-! # Splitting at the first occurrence

`splitOnce needle s` is what comes before the first occurrence of `needle` in `s` and what comes
after it.

* `splitOnce_eq_some_iff` says exactly what it returns.
* `splitOnce_append_iff`: a text of which only the first part is there splits in the same way, as
  long as the occurrence is in that part. -/

namespace Split

variable {α : Type*} [DecidableEq α]

def splitOnce (needle : List α) : List α → Option (List α × List α)
  | [] => if needle = [] then some ([], []) else none
  | c :: s =>
      if needle <+: c :: s then some ([], (c :: s).drop needle.length)
      else (splitOnce needle s).map fun p => (c :: p.1, p.2)

variable {needle s t a r : List α}

theorem splitOnce_of_isPrefix (h : needle <+: s) :
    splitOnce needle s = some ([], s.drop needle.length) := by
  cases s with
  | nil => rw [splitOnce, if_pos (List.prefix_nil.mp h), List.drop_nil]
  | cons c s => rw [splitOnce, if_pos h]

/-- **The first occurrence**: none begins before it. -/
theorem splitOnce_eq_some_iff : splitOnce needle s = some (a, r) ↔
    s = a ++ needle ++ r ∧ ∀ a' r', s = a' ++ needle ++ r' → a.length ≤ a'.length := by
  induction s generalizing a with
  | nil =>
      unfold splitOnce
      split_ifs with hneedle
      · subst hneedle
        constructor
        · intro h
          cases h
          exact ⟨rfl, fun _ _ _ => Nat.zero_le _⟩
        · rintro ⟨heq, -⟩
          simp only [List.append_nil, List.nil_eq, List.append_eq_nil_iff] at heq
          rw [heq.1, heq.2]
      · refine iff_of_false (fun h => by cases h) ?_
        rintro ⟨heq, -⟩
        simp only [List.nil_eq, List.append_eq_nil_iff] at heq
        exact hneedle heq.1.2
  | cons c s ih =>
      by_cases hstarts : needle <+: c :: s
      · rw [splitOnce_of_isPrefix hstarts]
        obtain ⟨u, hu⟩ := hstarts
        rw [← hu, List.drop_left]
        constructor
        · intro h
          cases h
          exact ⟨rfl, fun _ _ _ => Nat.zero_le _⟩
        · rintro ⟨heq, hfirst⟩
          have hnil : a = [] := List.length_eq_zero_iff.mp
            (Nat.le_zero.mp (hfirst [] u rfl))
          subst hnil
          rw [List.nil_append, List.append_cancel_left_eq] at heq
          rw [heq]
      · rw [splitOnce, if_neg hstarts, Option.map_eq_some_iff]
        constructor
        · rintro ⟨⟨a0, r0⟩, hsplit, heq⟩
          cases heq
          obtain ⟨hs, hfirst⟩ := ih.mp hsplit
          refine ⟨by rw [hs]; rfl, fun a' r' h' => ?_⟩
          cases a' with
          | nil => exact absurd ⟨r', h'.symm⟩ hstarts
          | cons d a' => exact Nat.succ_le_succ (hfirst a' r' (List.cons.inj h').2)
        · rintro ⟨heq, hfirst⟩
          cases a with
          | nil => exact absurd ⟨r, heq.symm⟩ hstarts
          | cons d a0 =>
              obtain ⟨rfl, hs⟩ := List.cons.inj heq
              refine ⟨(a0, r), ih.mpr ⟨hs, fun a' r' h' => ?_⟩, rfl⟩
              exact Nat.le_of_succ_le_succ (hfirst (c :: a') r' (congrArg (c :: ·) h'))

theorem splitOnce_eq_append (h : splitOnce needle s = some (a, r)) : s = a ++ needle ++ r :=
  (splitOnce_eq_some_iff.mp h).1

/-- What comes after is the end of the text. -/
theorem splitOnce_suffix (h : splitOnce needle s = some (a, r)) : r <:+ s :=
  ⟨a ++ needle, (splitOnce_eq_append h).symm⟩

/-- **Only the first part is there**: the occurrence is in it exactly if it is in the whole text
with all of the missing part after it. -/
theorem splitOnce_append_iff :
    splitOnce needle (s ++ t) = some (a, r ++ t) ↔ splitOnce needle s = some (a, r) := by
  rw [splitOnce_eq_some_iff, splitOnce_eq_some_iff, ← List.append_assoc,
    List.append_cancel_right_eq]
  refine and_congr_right fun hs => ⟨fun hfirst a' r' h' => ?_, fun hfirst a' r' h' => ?_⟩
  · exact hfirst a' (r' ++ t) (by rw [h', List.append_assoc])
  · by_contra hlt
    -- An earlier occurrence ends before this one does, so it is in the first part too.
    have hlength : (a' ++ needle).length ≤ s.length := by
      rw [hs]
      simp only [List.length_append]
      omega
    have hstarts : a' ++ needle <+: s :=
      List.prefix_of_prefix_length_le ⟨r', h'.symm⟩ ⟨t, rfl⟩ hlength
    obtain ⟨u, hu⟩ := hstarts
    exact hlt (hfirst a' u hu.symm)

theorem splitOnce_append_some {u : List α} (h : splitOnce needle (s ++ t) = some (a, u))
    (ht : t <:+ u) : ∃ r, u = r ++ t ∧ splitOnce needle s = some (a, r) := by
  obtain ⟨r, rfl⟩ := ht
  exact ⟨r, rfl, splitOnce_append_iff.mp h⟩

end Split
