import Mathlib.Data.List.Forall2
import Mathlib.Logic.Function.Basic
import NodemFirmware.Lib.Transition

/-! # Programs that share an object

Programs that work on one object by calls of it.  A call is one step, whatever other programs do;
what it returns is up to the object and to the world, which is given call by call.

* A `Prog` goes on from each call with what the call returned.
* `Meets P R Q`: as long as calls return `R`s, the program makes only `P` calls and ends with a `Q`
  (`meets_bind`).  `Path` are the ways through it, whatever its calls return.
* `Pool.Step` interleaves the programs of some threads; a reset stops them all.
* `Run.sound`: an invariant that the calls of each thread keep holds in every state of any
  interleaving, and `Run.call_of_mem` says so of every call made in one; a program run alone is one
  such (`Run.alone`).
* The calls of a thread are ways through the programs that it begins, whatever the others do:
  through the one that it has (`Run.path`), through each of several (`Run.paths`), and every single
  call is on a way through the program begun last before it (`Run.call_began`). -/

namespace Calls

open Transition

variable {Op : Type} {Res : Op → Type} {ι ω ρ σ α β : Type}

/-- A program: its result, or a call and what is done with what it returns. -/
inductive Prog (Op : Type) (Res : Op → Type) (α : Type) where
  | ret (a : α)
  | call (op : Op) (k : Res op → Prog Op Res α)

namespace Prog

def bind (p : Prog Op Res α) (f : α → Prog Op Res β) : Prog Op Res β :=
  match p with
  | ret a => f a
  | call op k => call op fun r => (k r).bind f

instance : Monad (Prog Op Res) where
  pure := ret
  bind := bind

/-- The program of a single call. -/
def one (op : Op) : Prog Op Res (Res op) := call op ret

/-- The program alone, with the object as `exec` has it. -/
def run (exec : (op : Op) → σ → Res op × σ) : Prog Op Res α → σ → α × σ
  | ret a, s => (a, s)
  | call op k, s => (k (exec op s).1).run exec (exec op s).2

/-- If calls return what is an `R`, the program makes only calls that are a `P`, and ends with a
`Q`. -/
def Meets (P : Op → Prop) (R : (op : Op) → Res op → Prop) (Q : α → Prop) : Prog Op Res α → Prop
  | ret a => Q a
  | call op k => P op ∧ ∀ r, R op r → (k r).Meets P R Q

section run

variable (exec : (op : Op) → σ → Res op × σ) (s : σ)

@[simp] theorem run_pure (a : α) : (pure a : Prog Op Res α).run exec s = (a, s) := rfl

@[simp] theorem run_one (op : Op) : (one op : Prog Op Res _).run exec s = exec op s := rfl

@[simp] theorem run_bind (p : Prog Op Res α) (f : α → Prog Op Res β) :
    (p >>= f).run exec s = (f (p.run exec s).1).run exec (p.run exec s).2 := by
  induction p generalizing s with
  | ret a => rfl
  | call op k ih => exact ih (exec op s).1 (exec op s).2

end run

section meets

variable {P P' : Op → Prop} {R R' : (op : Op) → Res op → Prop} {Q Q' : α → Prop}

@[simp] theorem meets_pure {a : α} : (pure a : Prog Op Res α).Meets P R Q ↔ Q a := Iff.rfl

@[simp] theorem meets_one {op : Op} {Q : Res op → Prop} :
    (one op : Prog Op Res _).Meets P R Q ↔ P op ∧ ∀ r, R op r → Q r := Iff.rfl

theorem Meets.mono {p : Prog Op Res α} (h : p.Meets P R Q) (hP : ∀ op, P op → P' op)
    (hR : ∀ op r, R' op r → R op r) (hQ : ∀ a, Q a → Q' a) : p.Meets P' R' Q' := by
  induction p with
  | ret a => exact hQ a h
  | call op k ih => exact ⟨hP op h.1, fun r hr => ih r (h.2 r (hR op r hr))⟩

theorem Meets.and {p : Prog Op Res α} (h : p.Meets P R Q) (h' : p.Meets P' R Q') :
    p.Meets (fun op => P op ∧ P' op) R fun a => Q a ∧ Q' a := by
  induction p with
  | ret a => exact ⟨h, h'⟩
  | call op k ih => exact ⟨⟨h.1, h'.1⟩, fun r hr => ih r (h.2 r hr) (h'.2 r hr)⟩

/-- One program after the other. -/
theorem meets_bind {p : Prog Op Res α} {f : α → Prog Op Res β} {Q' : β → Prop}
    (hp : p.Meets P R Q) (hf : ∀ a, Q a → (f a).Meets P R Q') : (p >>= f).Meets P R Q' := by
  induction p with
  | ret a => exact hf a hp
  | call op k ih => exact ⟨hp.1, fun r hr => ih r (hp.2 r hr)⟩

theorem Meets.bind {p : Prog Op Res α} {f : α → Prog Op Res β} {Q' : β → Prop}
    (hp : p.Meets P R fun _ => True) (hf : ∀ a, (f a).Meets P R Q') : (p >>= f).Meets P R Q' :=
  meets_bind hp fun a _ => hf a

end meets

end Prog

/-! ### Paths -/

/-- A call that was made, with what it returned. -/
abbrev Made (Op : Type) (Res : Op → Type) : Type := Σ op : Op, Res op

namespace Prog

/-- The calls on a way through a program, and its result there. -/
inductive Path : Prog Op Res α → List (Made Op Res) → α → Prop
  | ret (a : α) : Path (ret a) [] a
  | call {op : Op} {k : Res op → Prog Op Res α} {r : Res op} {l : List (Made Op Res)} {a : α} :
      Path (k r) l a → Path (call op k) (⟨op, r⟩ :: l) a

variable {l : List (Made Op Res)}

@[simp] theorem path_pure {a b : α} : (pure a : Prog Op Res α).Path l b ↔ l = [] ∧ b = a := by
  constructor
  · rintro ⟨⟩
    exact ⟨rfl, rfl⟩
  · rintro ⟨rfl, rfl⟩
    exact .ret b

@[simp] theorem path_one {op : Op} {r : Res op} :
    (one op : Prog Op Res _).Path l r ↔ l = [⟨op, r⟩] := by
  constructor
  · rintro (_ | @⟨_, _, _, _, _, ⟨⟩⟩)
    rfl
  · rintro rfl
    exact .call (.ret r)

/-- A way through one program after the other. -/
@[simp] theorem path_bind {p : Prog Op Res α} {f : α → Prog Op Res β} {b : β} :
    (p >>= f).Path l b ↔ ∃ l₁ a l₂, p.Path l₁ a ∧ (f a).Path l₂ b ∧ l = l₁ ++ l₂ := by
  induction p generalizing l with
  | ret a =>
      constructor
      · exact fun h => ⟨[], a, l, .ret a, h, rfl⟩
      · rintro ⟨l₁, a', l₂, ⟨⟩, h, rfl⟩
        exact h
  | call op k ih =>
      constructor
      · intro h
        cases h with
        | @call _ _ r l _ h =>
            obtain ⟨l₁, a, l₂, h₁, h₂, rfl⟩ := (ih r).mp h
            exact ⟨⟨op, r⟩ :: l₁, a, l₂, .call h₁, h₂, rfl⟩
      · rintro ⟨l₁, a, l₂, h₁, h₂, rfl⟩
        cases h₁ with
        | @call _ _ r l₁ _ h₁ => exact .call ((ih r).mpr ⟨l₁, a, l₂, h₁, h₂, rfl⟩)

/-- Whatever a program's calls return, it has a way to go. -/
theorem exists_path [∀ op, Nonempty (Res op)] (p : Prog Op Res α) : ∃ l a, p.Path l a := by
  induction p with
  | ret a => exact ⟨[], a, .ret a⟩
  | call op k ih =>
      obtain ⟨r⟩ : Nonempty (Res op) := inferInstance
      obtain ⟨l, a, hpath⟩ := ih r
      exact ⟨⟨op, r⟩ :: l, a, .call hpath⟩

/-- On a way through a program whose calls return what they are to return. -/
theorem Meets.path {P : Op → Prop} {R : (op : Op) → Res op → Prop} {Q : α → Prop}
    {p : Prog Op Res α} (h : p.Meets P R Q) {a : α} (hpath : p.Path l a)
    (hl : ∀ c ∈ l, R c.1 c.2) : (∀ c ∈ l, P c.1) ∧ Q a := by
  induction hpath with
  | ret a => exact ⟨(fun _ hc => nomatch hc), h⟩
  | @call op k r l a hpath ih =>
      obtain ⟨hP, hQ⟩ := ih (h.2 r (hl _ List.mem_cons_self))
        fun c hc => hl c (List.mem_cons_of_mem _ hc)
      refine ⟨fun c hc => ?_, hQ⟩
      rcases List.mem_cons.mp hc with rfl | hc
      · exact h.1
      · exact hP c hc

end Prog

/-! ### Threads -/

/-- The object, and what is left of the program of each thread. -/
structure Pool (ι : Type) (Op : Type) (Res : Op → Type) (σ : Type) where
  shared : σ
  threads : ι → Prog Op Res Unit

/-- No thread has anything left to do. -/
def Pool.idle (s : σ) : Pool ι Op Res σ := ⟨s, fun _ => pure ()⟩

/-- The object's invariant, and what the threads have left to do. -/
structure Pool.Sound (P : ι → Op → Prop) (R : (op : Op) → Res op → Prop) (I : σ → Prop)
    (p : Pool ι Op Res σ) : Prop where
  shared : I p.shared
  threads : ∀ i, (p.threads i).Meets (P i) R fun _ => True

theorem Pool.Sound.idle {P : ι → Op → Prop} {R : (op : Op) → Res op → Prop} {I : σ → Prop} {s : σ}
    (h : I s) : (Pool.idle s : Pool ι Op Res σ).Sound P R I :=
  ⟨h, fun _ => trivial⟩

/-- A thread that is done begins a program, a thread makes its next call, or everything is reset. -/
inductive Event (ι ω ρ Op : Type) (Res : Op → Type) where
  | start (i : ι) (p : Prog Op Res Unit)
  | call (i : ι) (op : Op) (w : ω) (r : Res op)
  | reset (w : ρ)

variable [DecidableEq ι] (exec : ω → (op : Op) → σ → Res op × σ) (reset : ρ → σ → σ)
  (starts : ι → Prog Op Res Unit → Prop)

/-- The programs' steps, interleaved; `starts` are the programs a thread may begin. -/
inductive Pool.Step : Pool ι Op Res σ → Event ι ω ρ Op Res → Pool ι Op Res σ → Prop
  | start {p : Pool ι Op Res σ} {i : ι} {prog : Prog Op Res Unit} (hidle : p.threads i = pure ())
      (hprog : starts i prog) :
      Step p (.start i prog) { p with threads := Function.update p.threads i prog }
  | call {p : Pool ι Op Res σ} {i : ι} {op : Op} {k : Res op → Prog Op Res Unit}
      (hnext : p.threads i = .call op k) (w : ω) :
      Step p (.call i op w (exec w op p.shared).1)
        ⟨(exec w op p.shared).2, Function.update p.threads i (k (exec w op p.shared).1)⟩
  | reset {p : Pool ι Op Res σ} (w : ρ) : Step p (.reset w) (.idle (reset w p.shared))

/-- What is assumed of the calls, of a reset and of the programs. -/
structure Keeps (P : ι → Op → Prop) (R : (op : Op) → Res op → Prop) (I : σ → Prop) : Prop where
  exec : ∀ i w op s, I s → P i op → I (exec w op s).2 ∧ R op (exec w op s).1
  reset : ∀ w s, I s → I (reset w s)
  starts : ∀ i prog, starts i prog → prog.Meets (P i) R fun _ => True

variable {exec reset starts} {P : ι → Op → Prop} {R : (op : Op) → Res op → Prop} {I : σ → Prop}
  {p p' : Pool ι Op Res σ}

/-- **A step** keeps the pool sound. -/
theorem Pool.Step.sound {e : Event ι ω ρ Op Res} (hstep : Pool.Step exec reset starts p e p')
    (hkeeps : Keeps exec reset starts P R I) (h : p.Sound P R I) : p'.Sound P R I := by
  cases hstep with
  | @start i prog hidle hprog =>
      refine ⟨h.shared, fun j => ?_⟩
      by_cases hj : j = i
      · subst hj
        simp only [Function.update_self]
        exact hkeeps.starts j prog hprog
      · simp only [Function.update_of_ne hj]
        exact h.threads j
  | @call i op k hnext w =>
      have hmeets := h.threads i
      rw [hnext] at hmeets
      obtain ⟨hI, hR⟩ := hkeeps.exec i w op p.shared h.shared hmeets.1
      refine ⟨hI, fun j => ?_⟩
      by_cases hj : j = i
      · subst hj
        simp only [Function.update_self]
        exact hmeets.2 _ hR
      · simp only [Function.update_of_ne hj]
        exact h.threads j
  | reset w => exact .idle (hkeeps.reset w _ h.shared)

variable {es : List (Event ι ω ρ Op Res)}

/-- **Any interleaving** keeps the object's invariant. -/
theorem Run.sound (hrun : Run (Pool.Step exec reset starts) p es p')
    (hkeeps : Keeps exec reset starts P R I) (h : p.Sound P R I) : p'.Sound P R I :=
  hrun.invariant (fun _ _ _ h hstep => hstep.sound hkeeps h) h

/-- **Every call in it** is one of its thread's, made when the invariant held. -/
theorem Run.call_of_mem (hrun : Run (Pool.Step exec reset starts) p es p')
    (hkeeps : Keeps exec reset starts P R I) (h : p.Sound P R I) {i : ι} {op : Op} {w : ω}
    {r : Res op} (hmem : .call i op w r ∈ es) : P i op ∧ ∃ s, I s ∧ r = (exec w op s).1 := by
  induction hrun with
  | nil => cases hmem
  | @snoc q q' es e hrun hstep ih =>
      rcases List.mem_append.mp hmem with hold | hnew
      · exact ih hold
      · rw [List.mem_singleton] at hnew
        subst hnew
        have hsound := Run.sound hrun hkeeps h
        cases hstep with
        | call hnext =>
            have hmeets := hsound.threads i
            rw [hnext] at hmeets
            exact ⟨hmeets.1, _, hsound.shared, rfl⟩

/-- A run without a reset, in which threads begin certain programs only. -/
theorem Run.restrict (hrun : Run (Pool.Step exec reset starts) p es p')
    {starts' : ι → Prog Op Res Unit → Prop}
    (hstarts : ∀ i prog, .start i prog ∈ es → starts i prog → starts' i prog)
    (hreset : ∀ w, .reset w ∉ es) :
    Run (Pool.Step exec (fun _ s => s) starts') p es p' := by
  induction hrun with
  | nil => exact .nil _
  | @snoc q q' es e hrun hstep ih =>
      have hmem : e ∈ es ++ [e] := List.mem_append_right _ List.mem_cons_self
      refine .snoc (ih (fun i prog h => hstarts i prog (List.mem_append_left _ h))
        fun w h => hreset w (List.mem_append_left _ h)) ?_
      cases hstep with
      | start hidle hprog => exact .start hidle (hstarts _ _ hmem hprog)
      | call hnext w => exact .call hnext w
      | reset w => exact absurd hmem (hreset w)

/-! ### One thread of several -/

/-- The calls of a thread. -/
def callsOf (i : ι) (es : List (Event ι ω ρ Op Res)) : List (Made Op Res) :=
  es.filterMap fun
    | .call j op _ r => if j = i then some ⟨op, r⟩ else none
    | _ => none

/-- A thread goes on with the program it has: it begins no other, and there is no reset. -/
def Event.Keeps (i : ι) : Event ι ω ρ Op Res → Prop
  | .start j _ => j ≠ i
  | .call _ _ _ _ => True
  | .reset _ => False

/-- **A thread's calls**, among those of the others, are a way through its program. -/
theorem Run.path (hrun : Run (Pool.Step exec reset starts) p es p') {i : ι}
    (hkeeps : ∀ e ∈ es, e.Keeps i) {l : List (Made Op Res)} (hrest : (p'.threads i).Path l ()) :
    (p.threads i).Path (callsOf i es ++ l) () := by
  induction hrun generalizing l with
  | nil => exact hrest
  | @snoc q q' es e hrun hstep ih =>
      have hkeeps' := fun e' he' => hkeeps e' (List.mem_append_left _ he')
      have hkeep := hkeeps e (List.mem_append_right _ List.mem_cons_self)
      unfold callsOf at ih ⊢
      rw [List.filterMap_append, List.append_assoc]
      cases hstep with
      | @start j prog hidle hprog =>
          have hj : i ≠ j := Ne.symm hkeep
          simp only [Function.update_of_ne hj] at hrest
          exact ih hkeeps' hrest
      | @call j op k hnext w =>
          by_cases hj : j = i
          · subst hj
            simp only [Function.update_self] at hrest
            have hcall : (q.threads j).Path (⟨op, (exec w op q.shared).1⟩ :: l) () := by
              rw [hnext]
              exact .call hrest
            simpa using ih hkeeps' hcall
          · simp only [Function.update_of_ne (Ne.symm hj)] at hrest
            simpa [hj] using ih hkeeps' hrest
      | reset w => exact hkeep.elim

/-- The programs that a thread begins. -/
def startsOf (i : ι) (es : List (Event ι ω ρ Op Res)) : List (Prog Op Res Unit) :=
  es.filterMap fun
    | .start j prog => if j = i then some prog else none
    | _ => none

section lists

variable {i : ι} {es es' : List (Event ι ω ρ Op Res)}

theorem callsOf_append : callsOf i (es ++ es') = callsOf i es ++ callsOf i es' :=
  List.filterMap_append

theorem startsOf_append : startsOf i (es ++ es') = startsOf i es ++ startsOf i es' :=
  List.filterMap_append

theorem mem_startsOf {prog : Prog Op Res Unit} (h : .start i prog ∈ es) : prog ∈ startsOf i es :=
  List.mem_filterMap.mpr ⟨_, h, if_pos rfl⟩

theorem mem_callsOf {op : Op} {w : ω} {r : Res op} (h : .call i op w r ∈ es) :
    ⟨op, r⟩ ∈ callsOf i es :=
  List.mem_filterMap.mpr ⟨_, h, if_pos rfl⟩

/-- Where a call of a thread is. -/
theorem callsOf_eq_append_cons {l l' : List (Made Op Res)} {c : Made Op Res}
    (h : callsOf i es = l ++ c :: l') :
    ∃ pre w post, es = pre ++ .call i c.1 w c.2 :: post ∧ callsOf i pre = l ∧
      callsOf i post = l' := by
  obtain ⟨pre, rest, rfl, hpre, hrest⟩ := List.filterMap_eq_append_iff.mp h
  obtain ⟨between, e, post, rfl, hbetween, he, hpost⟩ := List.filterMap_eq_cons_iff.mp hrest
  rcases e with _ | ⟨j, op, w, r⟩ | _
  · cases he
  · dsimp only at he
    split_ifs at he with hj
    cases he
    subst hj
    refine ⟨pre ++ between, w, post, by simp, ?_, hpost⟩
    rw [callsOf_append, show callsOf j pre = l from hpre,
      show callsOf j between = [] from List.filterMap_eq_nil_iff.mpr hbetween, List.append_nil]
  · cases he

end lists

/-- **The programs of a thread**, one after the other: its calls, among those of the others, are
ways through them. -/
theorem Run.paths (hrun : Run (Pool.Step exec reset starts) p es p') {i : ι}
    (hidle : p.threads i = pure ()) (hreset : ∀ w, .reset w ∉ es) {l : List (Made Op Res)}
    (hrest : (p'.threads i).Path l ()) :
    ∃ ls, List.Forall₂ (fun prog l => prog.Path l ()) (startsOf i es) ls ∧
      callsOf i es ++ l = ls.flatten := by
  induction hrun generalizing l with
  | nil =>
      rw [hidle] at hrest
      obtain ⟨rfl, -⟩ := Prog.path_pure.mp hrest
      exact ⟨[], .nil, rfl⟩
  | @snoc q q' es e hrun hstep ih =>
      have hreset' := fun w h => hreset w (List.mem_append_left _ h)
      rw [startsOf_append, callsOf_append]
      cases hstep with
      | @start j prog hdone hprog =>
          by_cases hj : j = i
          · subst hj
            simp only [Function.update_self] at hrest
            obtain ⟨ls, hls, hcalls⟩ := ih hreset' (l := []) (by rw [hdone]; exact .ret ())
            rw [List.append_nil] at hcalls
            refine ⟨ls ++ [l], ?_, ?_⟩
            · simpa [startsOf] using List.rel_append hls (.cons hrest .nil)
            · simp [hcalls, show callsOf j [.start j prog] = ([] : List (Made Op Res)) from rfl]
          · simp only [Function.update_of_ne (Ne.symm hj)] at hrest
            simpa [startsOf, callsOf, hj] using ih hreset' hrest
      | @call j op k hnext w =>
          by_cases hj : j = i
          · subst hj
            simp only [Function.update_self] at hrest
            have hcall : (q.threads j).Path (⟨op, (exec w op q.shared).1⟩ :: l) () := by
              rw [hnext]
              exact .call hrest
            simpa [startsOf, callsOf] using ih hreset' hcall
          · simp only [Function.update_of_ne (Ne.symm hj)] at hrest
            simpa [startsOf, callsOf, hj] using ih hreset' hrest
      | reset w => exact absurd (List.mem_append_right _ List.mem_cons_self) (hreset w)

variable (exec reset starts) in
/-- After the events, a thread goes on with the program that it began last. -/
def Began (i : ι) (es : List (Event ι ω ρ Op Res)) (p' : Pool ι Op Res σ) : Prop :=
  ∃ pre post prog q, es = pre ++ .start i prog :: post ∧ starts i prog ∧ (∀ e ∈ post, e.Keeps i) ∧
    q.threads i = prog ∧ Run (Pool.Step exec reset starts) q post p'

theorem Began.snoc {i : ι} (h : Began exec reset starts i es p) {e : Event ι ω ρ Op Res}
    (hkeep : e.Keeps i) (hstep : Pool.Step exec reset starts p e p') :
    Began exec reset starts i (es ++ [e]) p' := by
  obtain ⟨pre, post, prog, q, rfl, hprog, hkeeps, hstarted, hpost⟩ := h
  refine ⟨pre, post ++ [e], prog, q, by simp, hprog, fun e' he' => ?_, hstarted, .snoc hpost hstep⟩
  rcases List.mem_append.mp he' with hold | hnew
  · exact hkeeps e' hold
  · rw [List.mem_singleton.mp hnew]
    exact hkeep

theorem Run.began (hrun : Run (Pool.Step exec reset starts) p es p') {i : ι}
    (hidle : p.threads i = pure ()) :
    p'.threads i = pure () ∨ Began exec reset starts i es p' := by
  induction hrun with
  | nil => exact .inl hidle
  | @snoc q q' es e hrun hstep ih =>
      cases hstep with
      | @start j prog hfree hprog =>
          by_cases hj : j = i
          · subst hj
            exact .inr ⟨es, [], prog, _, rfl, hprog, (fun _ h => by cases h),
              Function.update_self _ _ _, .nil _⟩
          · exact ih.imp (Function.update_of_ne (Ne.symm hj) _ _).trans fun h =>
              h.snoc hj (.start hfree hprog)
      | @call j op k hnext w =>
          by_cases hj : j = i
          · subst hj
            refine .inr ((ih.resolve_left ?_).snoc trivial (.call hnext w))
            rw [hnext]
            exact fun h => by cases h
          · exact ih.imp (Function.update_of_ne (Ne.symm hj) _ _).trans fun h =>
              h.snoc trivial (.call hnext w)
      | reset w => exact .inl rfl

/-- **Every call** is on a way through the program that its thread began last. -/
theorem Run.call_began [∀ op, Nonempty (Res op)] {i : ι} {op : Op} {w : ω} {r : Res op}
    {es es' : List (Event ι ω ρ Op Res)}
    (hrun : Run (Pool.Step exec reset starts) p (es ++ .call i op w r :: es') p')
    (hidle : p.threads i = pure ()) :
    ∃ pre prog post l, es = pre ++ .start i prog :: post ∧ starts i prog ∧
      (∀ e ∈ post, e.Keeps i) ∧ prog.Path (callsOf i post ++ ⟨op, r⟩ :: l) () := by
  obtain ⟨q, q', hbefore, hstep, -⟩ := hrun.step_of_append
  obtain ⟨k, hnext⟩ : ∃ k, q.threads i = .call op k := by
    cases hstep with
    | call hnext => exact ⟨_, hnext⟩
  have hbusy : q.threads i ≠ pure () := by
    rw [hnext]
    exact fun h => by cases h
  obtain ⟨pre, post, prog, s, rfl, hprog, hkeeps, rfl, hpost⟩ :=
    (Run.began hbefore hidle).resolve_left hbusy
  obtain ⟨l, ⟨⟩, hrest⟩ := (k r).exists_path
  have hcall : (q.threads i).Path (⟨op, r⟩ :: l) () := by
    rw [hnext]
    exact .call hrest
  exact ⟨pre, _, post, l, rfl, hprog, hkeeps, Run.path hpost hkeeps hcall⟩

/-! ### A thread alone -/

/-- The calls of a program that is run alone. -/
def aloneEvents (exec : ω → (op : Op) → σ → Res op × σ) (w : ω) (i : ι) :
    Prog Op Res α → σ → List (Event ι ω ρ Op Res)
  | .ret _, _ => []
  | .call op k, s =>
      .call i op w (exec w op s).1 :: aloneEvents exec w i (k (exec w op s).1) (exec w op s).2

omit [DecidableEq ι] in
theorem call_of_mem_aloneEvents {w : ω} {i : ι} {prog : Prog Op Res α} {s : σ}
    {e : Event ι ω ρ Op Res} (h : e ∈ aloneEvents exec w i prog s) :
    ∃ op r, e = .call i op w r := by
  induction prog generalizing s with
  | ret a => cases h
  | call op k ih =>
      rcases List.mem_cons.mp h with rfl | h
      · exact ⟨op, _, rfl⟩
      · exact ih _ h

theorem startsOf_aloneEvents {w : ω} {i : ι} (prog : Prog Op Res α) (s : σ) :
    startsOf i (aloneEvents exec w i prog s : List (Event ι ω ρ Op Res)) = [] := by
  refine List.filterMap_eq_nil_iff.mpr fun e he => ?_
  obtain ⟨op, r, rfl⟩ := call_of_mem_aloneEvents he
  rfl

/-- A thread goes on alone. -/
theorem Run.go_alone (w : ω) {i : ι} {prog : Prog Op Res Unit} (hprog : p.threads i = prog) :
    Run (Pool.Step exec reset starts) p (aloneEvents exec w i prog p.shared)
      ⟨(prog.run (exec w) p.shared).2, Function.update p.threads i (pure ())⟩ := by
  induction prog generalizing p with
  | ret a =>
      have hsame : Function.update p.threads i (pure ()) = p.threads :=
        Function.update_eq_self_iff.mpr hprog.symm
      rw [hsame]
      exact .nil p
  | call op k ih =>
      have hnext := ih (exec w op p.shared).1 (p := ⟨(exec w op p.shared).2,
        Function.update p.threads i (k (exec w op p.shared).1)⟩) (Function.update_self _ _ _)
      simp only [Function.update_idem] at hnext
      exact .cons (.call hprog w) hnext

/-- **A program run alone** is one of the interleavings: no other thread makes a call. -/
theorem Run.alone (w : ω) {i : ι} {prog : Prog Op Res Unit} (hidle : p.threads i = pure ())
    (hprog : starts i prog) :
    Run (Pool.Step exec reset starts) p (.start i prog :: aloneEvents exec w i prog p.shared)
      ⟨(prog.run (exec w) p.shared).2, p.threads⟩ := by
  have hstarted : ({ p with threads := Function.update p.threads i prog } :
      Pool ι Op Res σ).threads i = prog := Function.update_self _ _ _
  have hrun : Run (Pool.Step exec reset starts) _ _ _ := Run.go_alone w hstarted
  have hidle' : Function.update p.threads i (pure ()) = p.threads :=
    Function.update_eq_self_iff.mpr hidle.symm
  simp only [Function.update_idem, hidle'] at hrun
  exact .cons (.start hidle hprog) hrun

end Calls
