import NodemFirmware.Lib.Checked

/-! # Programs that overwrite a memory

A program that sets parts of a memory without looking at them leaves the same when it is run again.

* `Cellwise U w`: the function `w` on memories treats every cell by itself, with an update of the
  class `U`; a `Band` is a class whose updates do the same when they are done twice.
* `Sets`: a program that may not return sets the memory in this way, as far as its state meets a
  condition on the rest.
* `Sets.twice`: run on what it left, it leaves that. -/

namespace Overwrite

open Checked

universe u

variable {α : Type*} {ι : Type*}

/-- Updates of one cell: nothing is one, two after one another are one, and done twice each is as
if done once. -/
structure Band (U : (α → α) → Prop) : Prop where
  id : U fun a => a
  comp : ∀ {v w : α → α}, U v → U w → U fun a => w (v a)
  twice : ∀ {v : α → α}, U v → ∀ a, v (v a) = v a

/-- Every cell is updated by itself. -/
def Cellwise (U : (α → α) → Prop) (w : (ι → α) → ι → α) : Prop :=
  ∃ v : ι → α → α, (∀ i, U (v i)) ∧ ∀ f i, w f i = v i (f i)

namespace Cellwise

variable {U : (α → α) → Prop} {w w' : (ι → α) → ι → α}

theorem id (hU : Band U) : Cellwise U fun f : ι → α => f :=
  ⟨fun _ a => a, fun _ => hU.id, fun _ _ => rfl⟩

theorem comp (hU : Band U) (h : Cellwise U w) (h' : Cellwise U w') :
    Cellwise U fun f => w' (w f) := by
  obtain ⟨v, hv, hw⟩ := h
  obtain ⟨v', hv', hw'⟩ := h'
  refine ⟨fun i a => v' i (v i a), fun i => hU.comp (hv i) (hv' i), fun f i => ?_⟩
  show w' (w f) i = _
  rw [hw', hw]

/-- One cell is updated. -/
theorem update [DecidableEq ι] (hU : Band U) (i : ι) {v : α → α} (hv : U v) :
    Cellwise U fun f => Function.update f i (v (f i)) := by
  refine ⟨Function.update (fun _ a => a) i v, fun j => ?_, fun f j => ?_⟩
  · by_cases hj : j = i
    · rw [hj, Function.update_self]
      exact hv
    · rw [Function.update_of_ne hj]
      exact hU.id
  · show Function.update f i (v (f i)) j = _
    by_cases hj : j = i
    · rw [hj, Function.update_self, Function.update_self]
    · rw [Function.update_of_ne hj, Function.update_of_ne hj]

/-- Done twice it is as if done once. -/
theorem twice (hU : Band U) (h : Cellwise U w) (f : ι → α) : w (w f) = w f := by
  obtain ⟨v, hv, hw⟩ := h
  funext i
  rw [hw, hw, hU.twice (hv i)]

end Cellwise

/-- States with a memory in them. -/
structure Memory (σ : Type*) (ι : Type*) (α : Type*) where
  read : σ → ι → α
  write : σ → (ι → α) → σ
  read_write : ∀ s f, read (write s f) = f
  write_write : ∀ s f f', write (write s f) f' = write s f'
  write_read : ∀ s, write s (read s) = s

variable {σ : Type u} {M : Memory σ ι α} {U : (α → α) → Prop} {P : σ → Prop}
  {body body' : σ → Option σ}

/-- On states that meet `P` the program either does not return or sets the memory, cell by cell,
and nothing else: both in a way that does not depend on the state. -/
def Sets (M : Memory σ ι α) (U : (α → α) → Prop) (P : σ → Prop) (body : σ → Option σ) : Prop :=
  ∃ w : Option ((ι → α) → ι → α), (∀ w' ∈ w, Cellwise U w') ∧
    ∀ s, P s → body s = w.map fun w' => M.write s (w' (M.read s))

namespace Sets

theorem fails (hbody : ∀ s, P s → body s = none) : Sets M U P body :=
  ⟨none, fun _ h => (by cases h), hbody⟩

theorem skip (hU : Band U) (hbody : ∀ s, P s → body s = some s) : Sets M U P body := by
  refine ⟨some fun f => f, fun w h => ?_, fun s hs => ?_⟩
  · cases h
    exact .id hU
  · rw [hbody s hs, Option.map_some, M.write_read]

/-- One cell is updated. -/
theorem update [DecidableEq ι] (hU : Band U) (i : ι) {v : α → α} (hv : U v)
    (hbody : ∀ s, P s →
      body s = some (M.write s (Function.update (M.read s) i (v (M.read s i))))) :
    Sets M U P body := by
  refine ⟨some fun f => Function.update f i (v (f i)), fun w h => ?_, hbody⟩
  cases h
  exact .update hU i hv

theorem congr (h : Sets M U P body) (hbody : ∀ s, P s → body' s = body s) :
    Sets M U P body' := by
  obtain ⟨w, hw, hrun⟩ := h
  exact ⟨w, hw, fun s hs => (hbody s hs).trans (hrun s hs)⟩

theorem bind (hU : Band U) (hP : ∀ s f, P s → P (M.write s f)) (h : Sets M U P body)
    (h' : Sets M U P body') : Sets M U P fun s => body s >>= body' := by
  obtain ⟨w, hw, hrun⟩ := h
  obtain ⟨w', hw', hrun'⟩ := h'
  cases w with
  | none => exact .fails fun s hs => by rw [hrun s hs]; rfl
  | some w =>
      refine ⟨w'.map fun w' f => w' (w f), fun v hv => ?_, fun s hs => ?_⟩
      · obtain ⟨v', hv', rfl⟩ := Option.mem_map.mp hv
        exact (hw w rfl).comp hU (hw' v' hv')
      · show body s >>= body' = _
        rw [hrun s hs, Option.map_some, Option.bind_eq_bind, Option.bind_some,
          hrun' _ (hP s _ hs), Option.map_map]
        simp only [M.read_write, M.write_write]
        rfl

/-- **Loops** of such programs. -/
theorem each (hU : Band U) (hP : ∀ s f, P s → P (M.write s f)) {n : ℕ}
    {step : ℕ → σ → Option σ} (hstep : ∀ k < n, Sets M U P (step k)) :
    Sets M U P (each n step) := by
  induction n with
  | zero => exact .skip hU fun _ _ => rfl
  | succ n ih =>
      have hloop := ih fun k hk => hstep k (hk.trans n.lt_succ_self)
      exact (hloop.bind hU hP (hstep n n.lt_succ_self)).congr fun s _ => each_succ n step s

/-- What the program leaves is the state with another memory. -/
theorem eq_write (h : Sets M U P body) {s t : σ} (hs : P s) (hrun : body s = some t) :
    ∃ f, t = M.write s f := by
  obtain ⟨w, -, hbody⟩ := h
  rw [hbody s hs, Option.map_eq_some_iff] at hrun
  obtain ⟨w', -, rfl⟩ := hrun
  exact ⟨_, rfl⟩

/-- **Run again, the program leaves what it left.** -/
theorem twice (hU : Band U) (hP : ∀ s f, P s → P (M.write s f)) (h : Sets M U P body) {s t : σ}
    (hs : P s) (hrun : body s = some t) : body t = some t := by
  obtain ⟨w, hw, hbody⟩ := h
  rw [hbody s hs, Option.map_eq_some_iff] at hrun
  obtain ⟨w', rfl, rfl⟩ := hrun
  rw [hbody _ (hP s _ hs), Option.map_some, M.read_write, M.write_write,
    (hw w' rfl).twice hU]

/-- What a program leaves as it is depends on the memory only. -/
theorem settled_congr (h : Sets M U P body) {s t : σ} (hs : P s) (ht : P t)
    (hread : M.read t = M.read s) (hrun : body s = some s) : body t = some t := by
  obtain ⟨w, -, hbody⟩ := h
  rw [hbody s hs, Option.map_eq_some_iff] at hrun
  obtain ⟨w', rfl, hwrite⟩ := hrun
  have hmemory : w' (M.read s) = M.read s := by
    have hread' := congrArg M.read hwrite
    rwa [M.read_write] at hread'
  rw [hbody t ht, Option.map_some, hread, hmemory, ← hread, M.write_read]

end Sets

end Overwrite
