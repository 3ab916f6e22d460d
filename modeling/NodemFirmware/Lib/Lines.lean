import Mathlib.Data.List.Basic
import Mathlib.Algebra.Order.Ring.Nat
import Mathlib.Tactic.Common

/-! # Lines of a stream, and what a buffer of a fixed size makes of them

A stream is cut into lines by the elements that end one.

* `lines` and `rest` are the terminated lines and the unterminated one, each with the position
  of its first element; `lines_append` and `rest_append` read a stream in two parts.
* `IsLine` says what a terminated line is, without the scan.
* `Line.clip n` is a line without its leading blocks of `n` elements: what is left of it in a
  buffer of `n` elements that is emptied whenever it is full.  `Tails.lines` and `Tails.rest`
  carry the two along each other through the scan.
* `fitting` is the other way round: the lines from the front that a buffer has room for. -/

namespace Lines

variable {α : Type*}

/-- A run of elements, and the position of the first. -/
structure Line (α : Type*) where
  start : ℕ
  bytes : List α
deriving DecidableEq, Repr

namespace Line

/-- The position after the last element. -/
def stop (l : Line α) : ℕ := l.start + l.bytes.length

/-- The line longer by one element. -/
def push (l : Line α) (b : α) : Line α := ⟨l.start, l.bytes ++ [b]⟩

/-- The line that begins after the element that ends this one. -/
def next (l : Line α) : Line α := ⟨l.stop + 1, []⟩

def shift (a : ℕ) (l : Line α) : Line α := ⟨a + l.start, l.bytes⟩

/-- The line from its `k`-th element on. -/
def drop (k : ℕ) (l : Line α) : Line α := ⟨l.start + k, l.bytes.drop k⟩

/-- The line without its leading blocks of `n` elements. -/
def clip (n : ℕ) (l : Line α) : Line α := l.drop (l.bytes.length / n * n)

/-- A shorter line is kept whole. -/
theorem clip_of_lt {n : ℕ} {l : Line α} (h : l.bytes.length < n) : l.clip n = l := by
  rw [clip, Nat.div_eq_of_lt h, Nat.zero_mul]
  rfl

@[simp] theorem push_stop (l : Line α) (b : α) : (l.push b).stop = l.stop + 1 := by
  simp only [stop, push, List.length_append, List.length_singleton, Nat.add_assoc]

@[simp] theorem next_stop (l : Line α) : l.next.stop = l.stop + 1 := rfl

theorem shift_push (a : ℕ) (l : Line α) (b : α) : (l.push b).shift a = (l.shift a).push b := rfl

theorem shift_next (a : ℕ) (l : Line α) : l.next.shift a = (l.shift a).next := by
  simp only [next, stop, shift, Nat.add_assoc]

theorem drop_stop {k : ℕ} {l : Line α} (h : k ≤ l.bytes.length) : (l.drop k).stop = l.stop := by
  simp only [stop, drop, List.length_drop]
  omega

theorem drop_push {k : ℕ} {l : Line α} (h : k ≤ l.bytes.length) (b : α) :
    (l.push b).drop k = (l.drop k).push b := by
  simp only [drop, push, List.drop_append_of_le_length h]

theorem drop_next {k : ℕ} {l : Line α} (h : k ≤ l.bytes.length) :
    (l.drop k).next = l.next := by
  simp only [next, drop_stop h]

end Line

/-- The beginning of a stream. -/
def fresh : Line α := ⟨0, []⟩

variable (ends : α → Bool)

/-- The lines that end in the elements read after those of the open line `l`. -/
def lines : Line α → List α → List (Line α)
  | _, [] => []
  | l, b :: bs => if ends b then l :: lines l.next bs else lines (l.push b) bs

/-- The line that they leave open. -/
def rest : Line α → List α → Line α
  | l, [] => l
  | l, b :: bs => if ends b then rest l.next bs else rest (l.push b) bs

variable {ends}

theorem lines_append (l : Line α) (s t : List α) :
    lines ends l (s ++ t) = lines ends l s ++ lines ends (rest ends l s) t := by
  induction s generalizing l with
  | nil => rfl
  | cons b bs ih =>
      simp only [List.cons_append, lines, rest]
      split_ifs with hb
      · rw [ih, List.cons_append]
      · rw [ih]

theorem rest_append (l : Line α) (s t : List α) :
    rest ends l (s ++ t) = rest ends (rest ends l s) t := by
  induction s generalizing l with
  | nil => rfl
  | cons b bs ih =>
      simp only [List.cons_append, rest]
      split_ifs with hb
      · exact ih _
      · exact ih _

theorem lines_shift (a : ℕ) (l : Line α) (s : List α) :
    lines ends (l.shift a) s = (lines ends l s).map (Line.shift a) := by
  induction s generalizing l with
  | nil => rfl
  | cons b bs ih =>
      simp only [lines]
      split_ifs with hb
      · rw [List.map_cons, ← ih, Line.shift_next]
      · rw [← ih, Line.shift_push]

theorem rest_shift (a : ℕ) (l : Line α) (s : List α) :
    rest ends (l.shift a) s = (rest ends l s).shift a := by
  induction s generalizing l with
  | nil => rfl
  | cons b bs ih =>
      simp only [rest]
      split_ifs with hb
      · rw [← ih, Line.shift_next]
      · rw [← ih, Line.shift_push]

/-- Elements that end nothing go to the open line. -/
theorem rest_of_open (l : Line α) {s : List α} (h : ∀ b ∈ s, ends b = false) :
    rest ends l s = ⟨l.start, l.bytes ++ s⟩ := by
  induction s generalizing l with
  | nil => simp [rest]
  | cons b bs ih =>
      obtain ⟨hb, hbs⟩ := List.forall_mem_cons.mp h
      simp only [rest, hb, Bool.false_eq_true, if_false]
      rw [ih _ hbs]
      simp [Line.push]

theorem lines_of_open (l : Line α) {s : List α} (h : ∀ b ∈ s, ends b = false) :
    lines ends l s = [] := by
  induction s generalizing l with
  | nil => rfl
  | cons b bs ih =>
      obtain ⟨hb, hbs⟩ := List.forall_mem_cons.mp h
      simp only [lines, hb, Bool.false_eq_true, if_false]
      exact ih _ hbs

/-! ### What a terminated line is -/

/-- A run of elements of the stream, none of which ends a line, with one after it that does, and
one before it unless the stream begins with it. -/
structure IsLine (ends : α → Bool) (s : List α) (l : Line α) : Prop where
  first : l.start = 0 ∨ ∃ t, s[l.start - 1]? = some t ∧ ends t = true
  last : ∃ t, ends t = true ∧ l.bytes ++ [t] <+: s.drop l.start
  inside : ∀ b ∈ l.bytes, ends b = false

/-- The open line `l` is what follows the last end of a line in `s`. -/
structure IsRest (ends : α → Bool) (s : List α) (l : Line α) : Prop where
  first : l.start = 0 ∨ ∃ t, s[l.start - 1]? = some t ∧ ends t = true
  start_le : l.start ≤ s.length
  bytes : s.drop l.start = l.bytes
  inside : ∀ b ∈ l.bytes, ends b = false

theorem fresh_isRest : IsRest ends [] fresh := ⟨.inl rfl, Nat.le_refl _, rfl, nofun⟩

namespace IsRest

variable {s : List α} {l : Line α} {b : α}

theorem stop (h : IsRest ends s l) : l.stop = s.length := by
  have hlen := congrArg List.length h.bytes
  have hle := h.start_le
  rw [List.length_drop] at hlen
  rw [Line.stop]
  omega

theorem first_append (h : IsRest ends s l) (t : List α) :
    l.start = 0 ∨ ∃ b, (s ++ t)[l.start - 1]? = some b ∧ ends b = true := by
  obtain hzero | ⟨b, hb, hends⟩ := h.first
  · exact .inl hzero
  · refine .inr ⟨b, ?_, hends⟩
    rw [List.getElem?_append_left (List.getElem?_eq_some_iff.mp hb).1]
    exact hb

theorem next (h : IsRest ends s l) (hb : ends b = true) : IsRest ends (s ++ [b]) l.next := by
  have hstop := h.stop
  refine ⟨.inr ⟨b, ?_, hb⟩, ?_, ?_, nofun⟩
  · simp [Line.next, hstop]
  · simp [Line.next, hstop]
  · simp [Line.next, hstop]

theorem push (h : IsRest ends s l) (hb : ends b = false) : IsRest ends (s ++ [b]) (l.push b) := by
  refine ⟨h.first_append [b], ?_, ?_, ?_⟩
  · exact Nat.le_trans h.start_le (by simp)
  · rw [Line.push, List.drop_append_of_le_length h.start_le, h.bytes]
  · intro b' hb'
    rcases List.mem_append.mp hb' with hb' | hb'
    · exact h.inside b' hb'
    · rw [List.mem_singleton.mp hb']
      exact hb

theorem line (h : IsRest ends s l) (hb : ends b = true) (t : List α) :
    IsLine ends (s ++ b :: t) l := by
  refine ⟨h.first_append _, ⟨b, hb, ?_⟩, h.inside⟩
  rw [List.drop_append_of_le_length h.start_le, h.bytes]
  exact ⟨t, by simp⟩

/-- Every line that the scan finds is one. -/
theorem lines (h : IsRest ends s l) {t : List α} {m : Line α} (hm : m ∈ lines ends l t) :
    IsLine ends (s ++ t) m := by
  induction t generalizing s l with
  | nil => cases hm
  | cons b bs ih =>
      rw [List.append_cons]
      simp only [Lines.lines] at hm
      split_ifs at hm with hb
      · rcases List.mem_cons.mp hm with rfl | hm
        · rw [← List.append_cons]
          exact h.line hb bs
        · exact ih (h.next hb) hm
      · exact ih (h.push (by simpa using hb)) hm

/-- What the scan leaves open is what follows the last end of a line. -/
theorem rest (h : IsRest ends s l) (t : List α) : IsRest ends (s ++ t) (rest ends l t) := by
  induction t generalizing s l with
  | nil => simpa [Lines.rest] using h
  | cons b bs ih =>
      rw [List.append_cons]
      simp only [Lines.rest]
      split_ifs with hb
      · exact ih (h.next hb)
      · exact ih (h.push (by simpa using hb))

end IsRest

theorem rest_isRest (s : List α) : IsRest ends s (rest ends fresh s) := fresh_isRest.rest s

theorem isLine_of_mem {s : List α} {l : Line α} (h : l ∈ lines ends fresh s) : IsLine ends s l :=
  fresh_isRest.lines h

/-! ### The same lines in a buffer of `n` elements -/

/-- The line `m` is `l` without some leading blocks of `n` elements. -/
def Tails (n : ℕ) (l m : Line α) : Prop :=
  ∃ k, k * n ≤ l.bytes.length ∧ m = l.drop (k * n)

namespace Tails

variable {n : ℕ} {l m : Line α}

theorem refl (n : ℕ) (l : Line α) : Tails n l l := ⟨0, by simp, by simp [Line.drop]⟩

theorem clip (n : ℕ) (l : Line α) : Tails n l (l.clip n) :=
  ⟨l.bytes.length / n, Nat.div_mul_le_self _ _, rfl⟩

theorem stop (h : Tails n l m) : m.stop = l.stop := by
  obtain ⟨k, hk, rfl⟩ := h
  exact Line.drop_stop hk

theorem push (h : Tails n l m) (b : α) : Tails n (l.push b) (m.push b) := by
  obtain ⟨k, hk, rfl⟩ := h
  refine ⟨k, ?_, (Line.drop_push hk b).symm⟩
  simp only [Line.push, List.length_append]
  omega

theorem next (h : Tails n l m) : m.next = l.next := by
  obtain ⟨k, hk, rfl⟩ := h
  exact Line.drop_next hk

/-- One more block is gone. -/
theorem empty (h : Tails n l m) (hm : m.bytes.length = n) : Tails n l ⟨m.stop, []⟩ := by
  obtain ⟨k, hk, rfl⟩ := h
  simp only [Line.drop, List.length_drop] at hm
  have hlen : (k + 1) * n = l.bytes.length := by
    rw [Nat.succ_mul]
    omega
  refine ⟨k + 1, hlen.le, ?_⟩
  rw [Line.drop_stop hk, Line.drop, hlen, List.drop_length, Line.stop]

/-- What is left is shorter than a block only when all of them are gone. -/
theorem eq_clip (h : Tails n l m) (hm : m.bytes.length < n) : m = l.clip n := by
  obtain ⟨k, hk, rfl⟩ := h
  simp only [Line.drop, List.length_drop] at hm
  have hdiv : l.bytes.length / n = k := by
    refine Nat.div_eq_of_lt_le hk ?_
    rw [Nat.succ_mul]
    omega
  rw [Line.clip, hdiv]

/-- A buffer that is emptied when it is full holds the line without its leading blocks. -/
theorem emptied (h : Tails n l m) (hn : 0 < n) (hm : m.bytes.length ≤ n) {kept : List α}
    (hkept : kept = if m.bytes.length = n then [] else m.bytes) :
    ⟨m.stop - kept.length, kept⟩ = l.clip n := by
  split_ifs at hkept with hfull
  · subst hkept
    exact (h.empty hfull).eq_clip hn
  · subst hkept
    have hstart : m.stop - m.bytes.length = m.start := by
      rw [Line.stop]
      omega
    rw [hstart]
    exact h.eq_clip (by omega)

theorem rest (h : Tails n l m) (s : List α) : Tails n (rest ends l s) (rest ends m s) := by
  induction s generalizing l m with
  | nil => exact h
  | cons b bs ih =>
      simp only [Lines.rest]
      split_ifs with hb
      · rw [h.next]
        exact refl n _
      · exact ih (h.push b)

/-- A line that ends in the buffer does so in fewer than `n` elements. -/
theorem lines (h : Tails n l m) {s : List α} (hs : m.bytes.length + s.length ≤ n) :
    lines ends m s = (lines ends l s).map (Line.clip n) := by
  induction s generalizing l m with
  | nil => rfl
  | cons b bs ih =>
      rw [List.length_cons] at hs
      simp only [Lines.lines]
      split_ifs with hb
      · have hm : m = l.clip n := h.eq_clip (by omega)
        rw [List.map_cons, ← hm, h.next]
        refine congrArg _ (ih (refl n _) ?_)
        simp only [Line.next, List.length_nil]
        omega
      · refine ih (h.push b) ?_
        simp only [Line.push, List.length_append, List.length_singleton]
        omega

end Tails

/-! ### Whole lines into a buffer -/

variable {ε : Type*} (line : ε → List α)

/-- The entries from the front whose lines go into `room` elements one after the other and leave
one free. -/
def fitting : ℕ → List ε → List ε
  | _, [] => []
  | room, e :: es =>
      if (line e).length < room then e :: fitting (room - (line e).length) es else []

theorem fitting_isPrefix (room : ℕ) (es : List ε) : fitting line room es <+: es := by
  induction es generalizing room with
  | nil => exact List.prefix_rfl
  | cons e es ih =>
      rw [fitting]
      split_ifs
      · exact List.prefix_cons_inj e |>.mpr (ih _)
      · exact List.nil_prefix

/-- **The longest prefix that fits:** the prefixes that fit are the prefixes of this one. -/
theorem length_flatMap_lt_iff {room : ℕ} (hroom : 0 < room) {p es : List ε} (hp : p <+: es) :
    (p.flatMap line).length < room ↔ p <+: fitting line room es := by
  induction es generalizing room p with
  | nil =>
      obtain rfl := List.prefix_nil.mp hp
      exact iff_of_true hroom List.prefix_rfl
  | cons e es ih =>
      cases p with
      | nil => exact iff_of_true hroom List.nil_prefix
      | cons e' p =>
          obtain ⟨rfl, htail⟩ := List.cons_prefix_cons.mp hp
          rw [List.flatMap_cons, List.length_append, fitting]
          split_ifs with hfit
          · rw [List.prefix_cons_inj, ← ih (by omega) htail]
            omega
          · rw [List.prefix_nil]
            exact iff_of_false (by omega) (List.cons_ne_nil _ _)

theorem fitting_length_lt {room : ℕ} (hroom : 0 < room) (es : List ε) :
    ((fitting line room es).flatMap line).length < room :=
  (length_flatMap_lt_iff line hroom (fitting_isPrefix line room es)).mpr List.prefix_rfl

end Lines
