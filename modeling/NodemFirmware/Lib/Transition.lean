import Mathlib.Tactic.Common

/-! # Labelled transition systems and their runs

A system is a labelled step relation `R s e t`: event `e` takes state `s` to `t`.  A run
lists the events taken from a state.

* `Run.invariant` is the induction rule: what holds at the start and is preserved by every
  step holds in every state reached.
* `Guarded R C` keeps the steps whose state and event satisfy `C`: its runs are those of `R`
  all of whose steps meet the condition.
* `Run.split` and `Run.step_of_append` are the states within a run.
* `Run.of_along` is the run of a transition function along a list of events.
* `Run.along_iff` says exactly which runs keep a property that a step can lose.
* `Run.simulation` carries a relation to the states of a second system along a run. -/

namespace Transition

variable {σ τ ε : Type*}

/-- `Run R s es t`: the events `es`, in order, take `s` to `t`. -/
inductive Run (R : σ → ε → σ → Prop) : σ → List ε → σ → Prop
  | nil (s : σ) : Run R s [] s
  | snoc {s t u : σ} {es : List ε} {e : ε} :
      Run R s es t → R t e u → Run R s (es ++ [e]) u

/-- The steps of `R` taken in a state that meets the condition `C` for the event. -/
def Guarded (R : σ → ε → σ → Prop) (C : σ → ε → Prop) (s : σ) (e : ε) (t : σ) : Prop :=
  C s e ∧ R s e t

variable {R : σ → ε → σ → Prop} {s t : σ} {es : List ε}

/-- **Invariants.** What holds at the start and is kept by every step holds after a run. -/
theorem Run.invariant {I : σ → Prop} (h : Run R s es t)
    (hstep : ∀ s e t, I s → R s e t → I t) (h0 : I s) : I t := by
  induction h with
  | nil => exact h0
  | snoc _ hr ih => exact hstep _ _ _ ih hr

theorem Run.cons {e : ε} {u : σ} (hr : R s e t) (h : Run R t es u) : Run R s (e :: es) u := by
  induction h with
  | nil => exact .snoc (.nil s) hr
  | snoc _ hr' ih => exact .snoc ih hr'

/-- One run after the other. -/
theorem Run.append {u : σ} {fs : List ε} (h : Run R s es t) (h' : Run R t fs u) :
    Run R s (es ++ fs) u := by
  induction h' with
  | nil => rwa [List.append_nil]
  | snoc _ hr ih =>
      rw [← List.append_assoc]
      exact .snoc ih hr

/-- The state between two parts of a run. -/
theorem Run.split {u : σ} {fs : List ε} (h : Run R s (es ++ fs) u) :
    ∃ t, Run R s es t ∧ Run R t fs u := by
  generalize hall : es ++ fs = gs at h
  induction h generalizing fs with
  | nil =>
      obtain ⟨rfl, rfl⟩ := List.append_eq_nil_iff.mp hall
      exact ⟨s, .nil s, .nil s⟩
  | @snoc t u gs e hrun hr ih =>
      rcases List.eq_nil_or_concat fs with rfl | ⟨fs, e', rfl⟩
      · rw [List.append_nil] at hall
        exact ⟨u, hall ▸ .snoc hrun hr, .nil u⟩
      · rw [List.concat_eq_append, ← List.append_assoc] at hall
        obtain ⟨hinit, he⟩ := List.append_inj' hall rfl
        obtain ⟨rfl, -⟩ := List.cons_eq_cons.mp he
        obtain ⟨q, hq, hq'⟩ := ih hinit
        rw [List.concat_eq_append]
        exact ⟨q, hq, .snoc hq' hr⟩

/-- The step that an event of a run is. -/
theorem Run.step_of_append {u : σ} {fs : List ε} {e : ε} (h : Run R s (es ++ e :: fs) u) :
    ∃ t t', Run R s es t ∧ R t e t' ∧ Run R t' fs u := by
  rw [List.append_cons] at h
  obtain ⟨t', hfirst, hrest⟩ := h.split
  generalize hall : es ++ [e] = gs at hfirst
  cases hfirst with
  | nil => simp at hall
  | @snoc t _ gs e' hrun hr =>
      obtain ⟨rfl, he⟩ := List.append_inj' hall rfl
      obtain ⟨rfl, -⟩ := List.cons_eq_cons.mp he
      exact ⟨t, t', hrun, hr, hrest⟩

/-- Each of the events is `ok` in the state it is taken in. -/
def Along (next : σ → ε → σ) (ok : σ → ε → Prop) : σ → List ε → Prop
  | _, [] => True
  | s, e :: es => ok s e ∧ Along next ok (next s e) es

instance Along.decidable (next : σ → ε → σ) (ok : σ → ε → Prop) [∀ s e, Decidable (ok s e)] :
    (s : σ) → (es : List ε) → Decidable (Along next ok s es)
  | _, [] => .isTrue trivial
  | s, e :: es =>
      have := Along.decidable next ok (next s e) es
      inferInstanceAs (Decidable (_ ∧ _))

theorem along_append {next : σ → ε → σ} {ok : σ → ε → Prop} {s : σ} {es fs : List ε} :
    Along next ok s (es ++ fs) ↔ Along next ok s es ∧ Along next ok (es.foldl next s) fs := by
  induction es generalizing s with
  | nil => simp [Along]
  | cons e es ih => simp only [List.cons_append, Along, List.foldl_cons, ih, and_assoc]

theorem along_snoc {next : σ → ε → σ} {ok : σ → ε → Prop} {s : σ} {es : List ε} {e : ε} :
    Along next ok s (es ++ [e]) ↔ Along next ok s es ∧ ok (es.foldl next s) e := by
  rw [along_append]
  simp [Along]

theorem Along.mono {next : σ → ε → σ} {ok ok' : σ → ε → Prop} {s : σ} {es : List ε}
    (h : Along next ok s es) (hok : ∀ s e, ok s e → ok' s e) : Along next ok' s es := by
  induction es generalizing s with
  | nil => trivial
  | cons e es ih => exact ⟨hok s e h.1, ih h.2⟩

/-- **The run of a transition function** along events that are all `ok`. -/
theorem Run.of_along (next : σ → ε → σ) (ok : σ → ε → Prop)
    (hR : ∀ s e, ok s e → R s e (next s e)) (h : Along next ok s es) :
    Run R s es (es.foldl next s) := by
  induction es generalizing s with
  | nil => exact .nil s
  | cons e es ih => exact .cons (hR s e h.1) (ih h.2)

/-- **When a run keeps a property.** If a step loses the property exactly when it does not meet
a condition, the runs that keep it are those all of whose steps meet the condition. -/
theorem Run.along_iff {next : σ → ε → σ} {I P : σ → Prop} {C : σ → ε → Prop}
    (h : Run R s es t) (hnext : ∀ s e t, R s e t → t = next s e)
    (hstep : ∀ s e t, I s → R s e t → I t ∧ (P t ↔ P s ∧ C s e)) (h0 : I s) (hP : P s) :
    P t ↔ Along next C s es := by
  suffices hall : t = es.foldl next s ∧ I t ∧ (P t ↔ Along next C s es) from hall.2.2
  induction h with
  | nil => exact ⟨rfl, h0, fun _ => trivial, fun _ => hP⟩
  | snoc _ hr ih =>
      obtain ⟨ht, hI, hiff⟩ := ih
      obtain ⟨hI', hiff'⟩ := hstep _ _ _ hI hr
      refine ⟨?_, hI', ?_⟩
      · rw [List.foldl_append, ← ht]
        exact hnext _ _ _ hr
      · rw [hiff', hiff, along_snoc, ← ht]

/-- What the steps of a guarded run do, they do without the guard. -/
theorem Run.unguarded {C : σ → ε → Prop} (h : Run (Guarded R C) s es t) : Run R s es t := by
  induction h with
  | nil => exact .nil s
  | snoc _ hr ih => exact .snoc ih hr.2

/-- A run all of whose events meet a condition in any state is a guarded one. -/
theorem Run.guarded {C : σ → ε → Prop} (h : Run R s es t) (hC : ∀ e ∈ es, ∀ s, C s e) :
    Run (Guarded R C) s es t := by
  induction h with
  | nil => exact .nil s
  | snoc _ hr ih =>
      refine .snoc (ih fun e he => hC e (List.mem_append_left _ he)) ⟨?_, hr⟩
      exact hC _ (List.mem_append_right _ List.mem_cons_self) _

/-- A relation to a second state, updated event by event, that every step keeps. -/
theorem Run.simulation (next : τ → ε → τ) (rel : σ → τ → Prop) (h : Run R s es t) {a : τ}
    (hstep : ∀ s e t a, rel s a → R s e t → rel t (next a e)) (h0 : rel s a) :
    rel t (es.foldl next a) := by
  induction h with
  | nil => exact h0
  | snoc _ hr ih =>
      rw [List.foldl_append]
      exact hstep _ _ _ _ ih hr

end Transition
