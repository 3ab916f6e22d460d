import Mathlib.Data.List.Nodup
import Mathlib.Logic.Function.Basic
import Mathlib.Tactic.Common

/-! # Handles

A table of open handles, each of some kind, with a log of the calls made on them.  Opening
takes a handle that was never used before; a call on a handle is logged with whether it was
open then.

`Linear` is the discipline of handles that are used only while they are open: the log shows no
call on a closed handle, and no handle closed twice. -/

namespace Handles

variable {κ : Type*}

/-- A call on a handle (none: no handle), whether it was open, and whether the call closes
it. -/
structure Use where
  handle : Option ℕ
  wasOpen : Bool
  closes : Bool

structure Table (κ : Type*) where
  kind : ℕ → Option κ
  next : ℕ
  log : List Use

/-- A handle is opened. -/
def Table.opened (t : Table κ) (k : κ) : Table κ where
  kind := Function.update t.kind t.next (some k)
  next := t.next + 1
  log := t.log

/-- A call on a handle. -/
def Table.called (t : Table κ) (handle : Option ℕ) (closes : Bool) : Table κ where
  kind := fun h => if closes = true ∧ handle = some h then none else t.kind h
  next := t.next
  log := t.log ++ [⟨handle, handle.any fun h => (t.kind h).isSome, closes⟩]

/-- Every handle is lost, with nothing called on it. -/
def Table.lost (t : Table κ) : Table κ := { t with kind := fun _ => none }

/-- The handle that a call closed. -/
def Use.closed (u : Use) : Option ℕ := if u.closes = true then u.handle else none

/-- The handles closed so far. -/
def closedIn (log : List Use) : List ℕ := log.filterMap Use.closed

structure Linear (t : Table κ) : Prop where
  fresh : ∀ h, t.next ≤ h → t.kind h = none
  wasOpen : ∀ u ∈ t.log, u.wasOpen = true
  gone : ∀ h ∈ closedIn t.log, h < t.next ∧ t.kind h = none
  once : (closedIn t.log).Nodup

theorem called_kind (t : Table κ) (n : ℕ) (closes : Bool) (m : ℕ) :
    (t.called (some n) closes).kind m =
      if closes = true ∧ n = m then none else t.kind m := by
  unfold Table.called
  simp only [Option.some_inj]

theorem opened_kind_self (t : Table κ) (k : κ) : (t.opened k).kind t.next = some k :=
  Function.update_self _ _ _

theorem opened_kind (t : Table κ) (k : κ) {n : ℕ} (h : n ≠ t.next) :
    (t.opened k).kind n = t.kind n :=
  Function.update_of_ne h _ _

theorem linear_new : Linear (κ := κ) ⟨fun _ => none, 0, []⟩ :=
  ⟨fun _ _ => rfl, fun _ hu => absurd hu List.not_mem_nil,
    fun _ hh => absurd hh List.not_mem_nil, List.nodup_nil⟩

theorem Linear.opened {t : Table κ} (h : Linear t) (k : κ) : Linear (t.opened k) := by
  refine ⟨?_, h.wasOpen, ?_, h.once⟩
  · intro n hn
    have hlt : t.next + 1 ≤ n := hn
    rw [opened_kind t k (by omega)]
    exact h.fresh n (by omega)
  · intro n hn
    obtain ⟨hlt, hnone⟩ := h.gone n hn
    refine ⟨Nat.lt_succ_of_lt hlt, ?_⟩
    rw [opened_kind t k (by omega)]
    exact hnone

theorem Linear.lost {t : Table κ} (h : Linear t) : Linear t.lost :=
  ⟨fun _ _ => rfl, h.wasOpen, fun n hn => ⟨(h.gone n hn).1, rfl⟩, h.once⟩

theorem closedIn_concat (log : List Use) (u : Use) :
    closedIn (log ++ [u]) = closedIn log ++ u.closed.toList := by
  unfold closedIn
  rw [List.filterMap_append]
  cases hu : u.closed with
  | none => rw [List.filterMap_cons_none hu]; rfl
  | some h => rw [List.filterMap_cons_some hu]; rfl

/-- A handle that is open is not the next one. -/
theorem Linear.ne_next {t : Table κ} (h : Linear t) {n : ℕ} {k : κ} (hopen : t.kind n = some k) :
    n ≠ t.next := by
  rintro rfl
  rw [h.fresh _ (Nat.le_refl _)] at hopen
  cases hopen

/-- **A call on an open handle.** -/
theorem Linear.called {t : Table κ} (h : Linear t) {n : ℕ} {k : κ} (hopen : t.kind n = some k)
    (closes : Bool) : Linear (t.called (some n) closes) := by
  have hlt : n < t.next := by
    by_contra hge
    rw [h.fresh n (by omega)] at hopen
    cases hopen
  have hnot : n ∉ closedIn t.log := by
    intro hmem
    rw [(h.gone n hmem).2] at hopen
    cases hopen
  have hsub : ∀ m, t.kind m = none → (t.called (some n) closes).kind m = none := by
    intro m hm
    unfold Table.called
    simp only
    split_ifs
    · rfl
    · exact hm
  refine ⟨fun m hm => hsub m (h.fresh m hm), ?_, ?_, ?_⟩
  · intro u hu
    rcases List.mem_append.mp hu with hu | hu
    · exact h.wasOpen u hu
    · rw [List.mem_singleton.mp hu]
      simp only [Option.any_some, hopen, Option.isSome_some]
  · intro m hm
    show m < t.next ∧ _
    unfold Table.called at hm
    simp only at hm
    rw [closedIn_concat, List.mem_append] at hm
    rcases hm with hm | hm
    · exact ⟨(h.gone m hm).1, hsub m (h.gone m hm).2⟩
    · cases closes with
      | false => cases hm
      | true =>
          have heq : m = n := by simpa [Use.closed] using hm
          rw [heq]
          exact ⟨hlt, if_pos ⟨rfl, rfl⟩⟩
  · unfold Table.called
    simp only
    rw [closedIn_concat]
    cases closes with
    | false => simpa [Use.closed] using h.once
    | true =>
        show (closedIn t.log ++ [n]).Nodup
        rw [List.nodup_append]
        refine ⟨h.once, List.nodup_singleton n, ?_⟩
        intro a ha b hb
        rw [List.mem_singleton.mp hb]
        exact fun heq => hnot (heq ▸ ha)

end Handles
