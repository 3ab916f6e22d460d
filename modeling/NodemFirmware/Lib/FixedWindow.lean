import Mathlib.Data.Nat.Notation
import Mathlib.Tactic.Common

/-! # A counter with a window that is only moved when it has expired

Events are counted up to a limit; one that comes after the window has expired starts the next
window.  This stands in for a window that slides.

* `Counts` is what counting keeps of the events so far.
* `Counts.within`: a count that has reached the limit is that of events within the width of each
  other.
* `Counts.reached`: events up to the limit that lie in one window reach it, and are the last. -/

namespace FixedWindow

structure Counter where
  start : ℕ
  count : ℕ
deriving DecidableEq, Repr

/-- An event, and the start of the window it was counted in. -/
structure Event where
  time : ℕ
  window : ℕ
deriving DecidableEq, Repr

/-- An event now is counted in the window, or in the next one if that has expired. -/
def Counter.add (width : ℕ) (c : Counter) (now : ℕ) : Counter :=
  if c.start + width < now then ⟨now, 1⟩ else ⟨c.start, c.count + 1⟩

/-- The events lie within `width` of each other. -/
def Within (width : ℕ) (events : List Event) : Prop :=
  ∀ a ∈ events, ∀ b ∈ events, b.time ≤ a.time + width

/-- None of the events comes after the window another one was counted in has expired. -/
def InWindow (width : ℕ) (events : List Event) : Prop :=
  ∀ a ∈ events, ∀ b ∈ events, b.time ≤ a.window + width

instance (width : ℕ) (events : List Event) : Decidable (Within width events) :=
  inferInstanceAs (Decidable (∀ _ ∈ _, _))

instance (width : ℕ) (events : List Event) : Decidable (InWindow width events) :=
  inferInstanceAs (Decidable (∀ _ ∈ _, _))

variable {width limit now : ℕ} {c : Counter} {events : List Event}

theorem Counter.start_add_le (hstart : c.start ≤ now) : (c.add width now).start ≤ now := by
  unfold Counter.add
  split_ifs
  · exact Nat.le_refl _
  · exact hstart

/-- The events were counted one after the other: the last `count` of them in the window the
counter is at, those before in windows that had expired before they were full. -/
structure Counts (width limit : ℕ) (c : Counter) (events : List Event) : Prop where
  split : ∃ older current, events = older ++ current ∧ current.length = c.count ∧
    (∀ e ∈ current, e.window = c.start) ∧ ∀ e ∈ older, e.window + width < c.start
  times : ∀ e ∈ events, e.window ≤ e.time ∧ e.time ≤ e.window + width
  spaced : events.Pairwise fun a b => a.window = b.window ∨ a.window + width < b.window
  left : ∀ w, w ≠ c.start → events.countP (·.window = w) < limit
  room : c.count ≤ limit

/-- Nothing is counted yet. -/
theorem counts_nil (hlimit : 0 < limit) (start : ℕ) : Counts width limit ⟨start, 0⟩ [] where
  split := ⟨[], [], rfl, rfl, nofun, nofun⟩
  times := nofun
  spaced := .nil
  left := fun _ _ => hlimit
  room := Nat.zero_le _

namespace Counts

theorem window_le (h : Counts width limit c events) {e : Event} (he : e ∈ events) :
    e.window = c.start ∨ e.window + width < c.start := by
  obtain ⟨older, current, rfl, -, hcurrent, holder⟩ := h.split
  rcases List.mem_append.mp he with he | he
  · exact .inr (holder e he)
  · exact .inl (hcurrent e he)

/-- The count is that of the events in the window. -/
theorem countP_start (h : Counts width limit c events) :
    events.countP (·.window = c.start) = c.count := by
  obtain ⟨older, current, rfl, hcount, hcurrent, holder⟩ := h.split
  have hnone : older.countP (·.window = c.start) = 0 := by
    rw [List.countP_eq_zero]
    intro e he hwindow
    have hlt := holder e he
    have heq := of_decide_eq_true hwindow
    omega
  have hall : current.countP (·.window = c.start) = current.length :=
    List.countP_eq_length.mpr fun e he => decide_eq_true (hcurrent e he)
  rw [List.countP_append, hnone, hall, Nat.zero_add, hcount]

/-- The event is counted in a window that has not expired. -/
theorem add_current (h : Counts width limit c events) (hroom : c.count < limit)
    (hstart : c.start ≤ now) (hnow : now ≤ c.start + width) :
    Counts width limit ⟨c.start, c.count + 1⟩ (events ++ [⟨now, c.start⟩]) where
  split := by
    obtain ⟨older, current, rfl, hcount, hcurrent, holder⟩ := h.split
    refine ⟨older, current ++ [⟨now, c.start⟩], List.append_assoc .., ?_, ?_, holder⟩
    · rw [List.length_append, hcount, List.length_singleton]
    · intro e he
      rcases List.mem_append.mp he with he | he
      · exact hcurrent e he
      · rw [List.mem_singleton.mp he]
  times := by
    intro e he
    rcases List.mem_append.mp he with he | he
    · exact h.times e he
    · rw [List.mem_singleton.mp he]
      exact ⟨hstart, hnow⟩
  spaced := by
    refine List.pairwise_append.mpr ⟨h.spaced, List.pairwise_singleton .., ?_⟩
    intro a ha b hb
    rw [List.mem_singleton.mp hb]
    exact h.window_le ha
  left := by
    intro w hw
    rw [List.countP_append, List.countP_singleton, if_neg (by simpa using fun h => hw h.symm)]
    exact h.left w hw
  room := hroom

/-- The event starts the next window. -/
theorem add_next (h : Counts width limit c events) (hlimit : 1 < limit) (hroom : c.count < limit)
    (hnow : c.start + width < now) : Counts width limit ⟨now, 1⟩ (events ++ [⟨now, now⟩]) where
  split := by
    refine ⟨events, [⟨now, now⟩], rfl, rfl, ?_, ?_⟩
    · intro e he
      rw [List.mem_singleton.mp he]
    · intro e he
      rcases h.window_le he with hwindow | hwindow <;> simp only <;> omega
  times := by
    intro e he
    rcases List.mem_append.mp he with he | he
    · exact h.times e he
    · rw [List.mem_singleton.mp he]
      exact ⟨Nat.le_refl _, Nat.le_add_right _ _⟩
  spaced := by
    refine List.pairwise_append.mpr ⟨h.spaced, List.pairwise_singleton .., ?_⟩
    intro a ha b hb
    rw [List.mem_singleton.mp hb]
    rcases h.window_le ha with hwindow | hwindow <;> simp only <;> omega
  left := by
    intro w hw
    rw [List.countP_append, List.countP_singleton, if_neg (by simpa using fun h => hw h.symm)]
    by_cases hstart : w = c.start
    · rw [hstart, h.countP_start]
      exact hroom
    · exact h.left w hstart
  room := Nat.le_of_lt hlimit

/-- **An event is counted.** -/
theorem add (h : Counts width limit c events) (hlimit : 1 < limit) (hroom : c.count < limit)
    (hstart : c.start ≤ now) :
    Counts width limit (c.add width now) (events ++ [⟨now, (c.add width now).start⟩]) := by
  unfold Counter.add
  split_ifs with hexpired
  · exact h.add_next hlimit hroom hexpired
  · exact h.add_current hroom hstart (Nat.le_of_not_lt hexpired)

/-- **The limit is reached only by events within the width of each other.** -/
theorem within (h : Counts width limit c events) (hfull : limit ≤ c.count) :
    ∃ older burst, events = older ++ burst ∧ burst.length = limit ∧ Within width burst := by
  obtain ⟨older, current, rfl, hcount, hcurrent, holder⟩ := h.split
  refine ⟨older, current, rfl, hcount.trans (Nat.le_antisymm h.room hfull), ?_⟩
  intro a ha b hb
  have htimes := h.times a (List.mem_append_right _ ha)
  have htimes' := h.times b (List.mem_append_right _ hb)
  rw [hcurrent a ha] at htimes
  rw [hcurrent b hb] at htimes'
  omega

/-- The events that reach the limit are in one window. -/
theorem inWindow (h : Counts width limit c events) (hfull : limit ≤ c.count)
    {older burst : List Event} (hevents : events = older ++ burst)
    (hburst : burst.length = limit) : InWindow width burst := by
  obtain ⟨older', current, hsplit, hcount, hcurrent, -⟩ := h.split
  have hlength : burst.length = current.length := by
    rw [hburst, hcount]
    exact Nat.le_antisymm hfull h.room
  have heq : burst = current :=
    (List.append_inj' (hevents.symm.trans hsplit) hlength).2
  intro a ha b hb
  have htimes := h.times b (hevents ▸ List.mem_append_right _ hb)
  rw [heq] at ha hb
  rw [hcurrent b hb] at htimes
  rw [hcurrent a ha]
  exact htimes.2

/-- Events in one window were counted in it. -/
theorem window_eq (h : Counts width limit c events) {burst : List Event}
    (hmem : ∀ e ∈ burst, e ∈ events) (hin : InWindow width burst) :
    ∀ a ∈ burst, ∀ b ∈ burst, a.window = b.window := by
  have hspaced : ∀ a ∈ events, ∀ b ∈ events, a.window = b.window ∨ a.window + width < b.window ∨
      b.window + width < a.window := by
    refine List.Pairwise.forall_of_forall_of_flip (fun _ _ => .inl rfl)
      (h.spaced.imp ?_) (h.spaced.imp ?_)
    · exact fun hab => hab.imp_right .inl
    · exact fun hab => hab.elim (fun heq => .inl heq.symm) fun hlt => .inr (.inr hlt)
  intro a ha b hb
  have htimes := h.times a (hmem a ha)
  have htimes' := h.times b (hmem b hb)
  have hab := hin a ha b hb
  have hba := hin b hb a ha
  rcases hspaced a (hmem a ha) b (hmem b hb) with heq | hlt | hlt <;> omega

/-- **Events in one window, as many as the limit, reach it, and no event comes after them.** -/
theorem reached (h : Counts width limit c events) (hlimit : 0 < limit)
    {older burst later : List Event} (hevents : events = older ++ burst ++ later)
    (hburst : burst.length = limit) (hin : InWindow width burst) :
    later = [] ∧ limit ≤ c.count := by
  subst hevents
  have hmem : ∀ e ∈ burst, e ∈ older ++ burst ++ later := fun e he =>
    List.mem_append_left _ (List.mem_append_right _ he)
  have hall : ∀ w, (∀ e ∈ burst, e.window = w) → burst.countP (·.window = w) = limit :=
    fun w hw => (List.countP_eq_length.mpr fun e he => decide_eq_true (hw e he)).trans hburst
  obtain ⟨first, hfirst⟩ := List.exists_mem_of_length_pos (hburst ▸ hlimit)
  have hwindow := h.window_eq hmem hin first hfirst
  -- A window that is full is the one the counter is at.
  have hstart : first.window = c.start := by
    by_contra hne
    have hleft := h.left _ hne
    rw [List.countP_append, List.countP_append,
      hall _ fun e he => (hwindow e he).symm] at hleft
    omega
  have hcount := h.countP_start
  rw [List.countP_append, List.countP_append,
    hall _ fun e he => (hwindow e he).symm.trans hstart] at hcount
  have hroom := h.room
  have hlater : later.countP (·.window = c.start) = 0 := by omega
  refine ⟨List.eq_nil_iff_forall_not_mem.mpr fun e he => ?_, by omega⟩
  -- What comes after is in the same window, for which the counter has no room.
  have hspaced := (List.pairwise_append.mp h.spaced).2.2 first
    (List.mem_append_right _ hfirst) e he
  refine List.countP_eq_zero.mp hlater e he (decide_eq_true ?_)
  rcases h.window_le (List.mem_append_right _ he) with hle | hle <;> omega

end Counts

end FixedWindow
