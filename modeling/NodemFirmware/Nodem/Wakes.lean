import NodemFirmware.Lib.Semaphore
import NodemFirmware.Nodem.Commands

/-! # No command waits for the next frame

Between two frames `nodem_task` processes what has arrived and then waits for `nodem_rx_sem`
until the frame is due; `uart_isr` and `websocket_supervise` give the semaphore once they have
queued bytes.

* `Wakes` is the inner loop of `nodem_task` with the two transports and the semaphore, a step for
  each access to one of them.
* A `Lane` records whether bytes have been queued and not yet announced, and whether the last
  read left bytes in the ring: it takes no more than the command buffer has room for.
* `Watched` is the invariant: bytes in a ring are about to be announced, announced, left by a
  read that filled the buffer, or about to be read.
* `waits_drained`: while the task waits, what was announced has been read and the lines that
  end in it have been executed, apart from what such a read left.  Of a line that fills the command
  buffer only the end is (`Line.clip`). -/

namespace NodemFirmware.Nodem

open Lines Semaphore Transition

/-- `nodem_rx_sem` is binary. -/
def rxSemLimit : ℕ := 1

/-- A transport, with what is known of its ring. -/
structure Lane where
  port : Port
  queued : Bool
  left : Bool
deriving DecidableEq

/-- Where `nodem_task` is between two frames, or in one. -/
inductive WakePc where
  | uart
  | ws
  | deadline
  | take
  | wait
  | frame
deriving DecidableEq, Repr

/-- `nodem_task`, `nodem_rx_sem` and the transports. -/
structure Wakes where
  pc : WakePc
  lanes : Transport → Lane
  rxSem : Sem

inductive WakeStep where
  /-- Bytes are put into a ring. -/
  | arrive (t : Transport) (bytes : List UInt8)
  /-- `nodem_task_notify_rx`, once bytes were put. -/
  | notify (t : Transport)
  /-- The websocket connects again. -/
  | connect
  /-- `nodem_process_uart` or `nodem_process_ws`. -/
  | process
  /-- The frame is due, or is not. -/
  | deadline (due : Bool)
  /-- `k_sem_take`. -/
  | take
  /-- `k_sem_take` returns with the semaphore. -/
  | wake
  /-- `k_sem_take` returns at the deadline. -/
  | timeout
  /-- A frame is run and submitted. -/
  | frame
deriving DecidableEq

namespace Lane

def start : Lane := ⟨.start, false, false⟩

def arrive (t : Transport) (l : Lane) (bytes : List UInt8) : Lane :=
  { l with port := l.port.apply t (.arrive bytes), queued := l.queued || !bytes.isEmpty }

/-- What the command buffer has room for. -/
def room (t : Transport) (l : Lane) : ℕ := t.cmdBufSize - l.port.cmdBuf.length

def process (t : Transport) (l : Lane) : Lane :=
  { l with port := l.port.process t, left := decide (l.room t < l.port.ring.length) }

end Lane

namespace Wakes

def start : Wakes := ⟨.uart, fun _ => .start, .empty⟩

def setLane (w : Wakes) (t : Transport) (l : Lane) : Wakes :=
  { w with lanes := Function.update w.lanes t l }

/-- A pass of `nodem_process_uart` or `nodem_process_ws`. -/
def process (w : Wakes) (t : Transport) (next : WakePc) : Wakes :=
  { w.setLane t ((w.lanes t).process t) with pc := next }

def apply (w : Wakes) : WakeStep → Wakes
  | .arrive t bytes => w.setLane t ((w.lanes t).arrive t bytes)
  | .notify t =>
      { w.setLane t { w.lanes t with queued := false } with rxSem := w.rxSem.give rxSemLimit }
  | .connect => w.setLane .ws { w.lanes .ws with port := (w.lanes .ws).port.apply .ws .connect }
  | .process =>
      match w.pc with
      | .uart => w.process .uart .ws
      | _ => w.process .ws .deadline
  | .deadline due => { w with pc := if due then .frame else .take }
  | .take => { w with pc := if 0 < w.rxSem.count then .uart else .wait, rxSem := w.rxSem.take }
  | .wake => { w with pc := .uart }
  | .timeout => { w with pc := .uart, rxSem := w.rxSem.timeout }
  | .frame => { w with pc := .uart }

/-- Which steps can be taken: any thread may run at any time, and what is put fits. -/
def Possible (w : Wakes) : WakeStep → Prop
  | .arrive t bytes => (w.lanes t).port.Possible t (.arrive bytes)
  | .notify t => (w.lanes t).queued = true
  | .connect => True
  | .process => w.pc = .uart ∨ w.pc = .ws
  | .deadline _ => w.pc = .deadline
  | .take => w.pc = .take
  | .wake => w.pc = .wait ∧ w.rxSem.pending = false
  | .timeout => w.pc = .wait ∧ w.rxSem.pending = true
  | .frame => w.pc = .frame

instance (w : Wakes) : (e : WakeStep) → Decidable (w.Possible e)
  | .arrive t bytes => inferInstanceAs (Decidable ((w.lanes t).port.Possible t (.arrive bytes)))
  | .notify _ => inferInstanceAs (Decidable (_ = _))
  | .connect => .isTrue trivial
  | .process => inferInstanceAs (Decidable (_ ∨ _))
  | .deadline _ => inferInstanceAs (Decidable (_ = _))
  | .take => inferInstanceAs (Decidable (_ = _))
  | .wake => inferInstanceAs (Decidable (_ ∧ _))
  | .timeout => inferInstanceAs (Decidable (_ ∧ _))
  | .frame => inferInstanceAs (Decidable (_ = _))

end Wakes

def WakeTrans (w : Wakes) (e : WakeStep) (w' : Wakes) : Prop :=
  w.Possible e ∧ w' = w.apply e

/-- The task is in `k_sem_take`, and nothing but a give or the deadline ends it. -/
def Wakes.Waits (w : Wakes) : Prop := w.pc = .wait ∧ w.rxSem.pending = true

/-- Everything that has arrived was read, and the lines that end in it were executed. -/
structure Port.Drained (t : Transport) (p : Port) : Prop where
  ring : p.ring = []
  executed : p.executed = (lines lineEnd fresh p.delivered).map (Line.clip t.cmdBufSize)

/-- Lines that the command buffer has room for were executed as they are. -/
theorem Port.Drained.whole {t : Transport} {p : Port} (h : p.Drained t)
    (hfit : ∀ l ∈ lines lineEnd fresh p.delivered, l.bytes.length < t.cmdBufSize) :
    p.executed = lines lineEnd fresh p.delivered := by
  rw [h.executed, List.map_congr_left fun l hl => Line.clip_of_lt (hfit l hl), List.map_id']

namespace Wakes

/-- The task reads the transport before it waits next. -/
def Ahead (w : Wakes) (t : Transport) : Prop :=
  match w.pc with
  | .uart => True
  | .ws => t = .ws
  | .deadline => False
  | .take => False
  | .wait => w.rxSem.pending = false
  | .frame => True

/-- Somebody will see to what a ring holds. -/
def Seen (w : Wakes) (t : Transport) : Prop :=
  (w.lanes t).queued = true ∨ 0 < w.rxSem.count ∨ (w.lanes t).left = true ∨ w.Ahead t

structure Watched (w : Wakes) : Prop where
  sem : w.rxSem.Ok rxSemLimit
  waiting : w.rxSem.pending = true → w.pc = .wait
  follows : ∀ t, (w.lanes t).port.Follows t
  seen : ∀ t, (w.lanes t).port.ring ≠ [] → w.Seen t

theorem start_watched : start.Watched where
  sem := Sem.empty_ok
  waiting := fun h => by cases h
  follows := start_follows
  seen := fun _ h => absurd rfl h

variable {w : Wakes} {t : Transport}

@[simp] theorem setLane_same (w : Wakes) (t : Transport) (l : Lane) :
    (w.setLane t l).lanes t = l := by
  simp [setLane]

theorem setLane_ne (w : Wakes) {t t' : Transport} (l : Lane) (h : t' ≠ t) :
    (w.setLane t l).lanes t' = w.lanes t' := by
  simp [setLane, h]

/-- What holds of a new lane and of the others holds of all. -/
theorem forall_setLane {P : Transport → Lane → Prop} {l : Lane} (hl : P t l)
    (hrest : ∀ t', t' ≠ t → P t' (w.lanes t')) : ∀ t', P t' ((w.setLane t l).lanes t') := by
  intro t'
  by_cases h : t' = t
  · subst h
    rw [setLane_same]
    exact hl
  · rw [setLane_ne w l h]
    exact hrest t' h

/-- A pass leaves in the ring what the buffer has no room for. -/
theorem ring_process (t : Transport) (p : Port) :
    (p.process t).ring = p.ring.drop (t.cmdBufSize - p.cmdBuf.length) := by
  simp only [Port.process]
  split_ifs with hzero
  · rw [List.length_append, List.length_take] at hzero
    have := t.cmdBufSize_pos
    have hring : p.ring = [] := List.eq_nil_of_length_eq_zero (by omega)
    rw [hring, List.drop_nil]
  · rfl

/-- A pass that leaves bytes in the ring says so. -/
theorem left_process {l : Lane} (h : (l.process t).port.ring ≠ []) :
    (l.process t).left = true := by
  have hring : (l.process t).port.ring = l.port.ring.drop (l.room t) := ring_process t l.port
  rw [hring] at h
  refine decide_eq_true (Nat.lt_of_not_le fun hle => h ?_)
  exact List.drop_of_length_le hle

namespace Watched

/-- A pass over one transport, which may end with the other one ahead. -/
theorem process (h : w.Watched) (hpc : w.pc ≠ .wait) {next : WakePc}
    (hnext : ∀ t', t' ≠ t → w.Ahead t' → { w with pc := next }.Ahead t') :
    (w.process t next).Watched := by
  have hidle : w.rxSem.pending = false :=
    Bool.eq_false_iff.mpr fun hpending => hpc (h.waiting hpending)
  refine ⟨h.sem, fun hpending => ?_, ?_, ?_⟩
  · rw [show (w.process t next).rxSem = w.rxSem from rfl, hidle] at hpending
    cases hpending
  · exact forall_setLane (P := fun t' l => l.port.Follows t') (h.follows t).process
      fun t' _ => h.follows t'
  · intro t' hring
    by_cases ht : t' = t
    · subst ht
      have hlane : (w.process t' next).lanes t' = (w.lanes t').process t' := setLane_same ..
      rw [hlane] at hring
      unfold Seen
      rw [hlane]
      exact .inr (.inr (.inl (left_process hring)))
    · have hlane : (w.process t next).lanes t' = w.lanes t' := setLane_ne w _ ht
      rw [hlane] at hring
      unfold Seen
      rw [hlane]
      exact (h.seen t' hring).imp_right (Or.imp_right (Or.imp_right (hnext t' ht)))

/-- A give is not lost: it wakes the task or is there for the next take. -/
theorem notify (h : w.Watched) (t : Transport) : (w.apply (.notify t)).Watched := by
  have hseen : ∀ t', (w.apply (.notify t)).Seen t' := by
    intro t'
    cases hpending : w.rxSem.pending with
    | false => exact .inr (.inl (Sem.give_count (by decide) hpending))
    | true =>
        refine .inr (.inr (.inr ?_))
        have hpc : (w.apply (.notify t)).pc = .wait := h.waiting hpending
        simp only [Ahead, hpc]
        exact Sem.give_pending ..
  refine ⟨h.sem.give, fun hpending => ?_, ?_, fun t' _ => hseen t'⟩
  · rw [show (w.apply (.notify t)).rxSem = w.rxSem.give rxSemLimit from rfl,
      Sem.give_pending] at hpending
    cases hpending
  · exact forall_setLane (P := fun t' l => l.port.Follows t') (h.follows t) fun t' _ => h.follows t'

/-- Bytes that are put are announced later. -/
theorem arrive (h : w.Watched) (t : Transport) (bytes : List UInt8) :
    (w.apply (.arrive t bytes)).Watched := by
  refine ⟨h.sem, h.waiting, ?_, ?_⟩
  · exact forall_setLane (P := fun t' l => l.port.Follows t') ((h.follows t).step (.arrive bytes))
      fun t' _ => h.follows t'
  · refine forall_setLane (P := fun t' l => l.port.ring ≠ [] → l.queued = true ∨
      0 < w.rxSem.count ∨ l.left = true ∨ w.Ahead t') ?_ fun t' _ => h.seen t'
    intro hring
    cases bytes with
    | nil =>
        refine (h.seen t fun hnil => hring ?_).imp_left fun hq => ?_
        · show (w.lanes t).port.ring ++ [] = []
          rw [hnil, List.append_nil]
        · simp [Lane.arrive, hq]
    | cons b bytes => exact .inl (by simp [Lane.arrive])

theorem connect (h : w.Watched) : (w.apply .connect).Watched :=
  ⟨h.sem, h.waiting,
    forall_setLane (P := fun t l => l.port.Follows t) ((h.follows .ws).step .connect)
      fun t _ => h.follows t,
    forall_setLane (P := fun t l => l.port.ring ≠ [] → l.queued = true ∨
      0 < w.rxSem.count ∨ l.left = true ∨ w.Ahead t) (h.seen .ws) fun t _ => h.seen t⟩

/-- The task goes on, and what was ahead stays so. -/
theorem goto (h : w.Watched) {next : WakePc} {s : Sem} (hsem : s.Ok rxSemLimit)
    (hwait : s.pending = true → next = .wait)
    (hseen : ∀ t, 0 < w.rxSem.count ∨ w.Ahead t →
      0 < s.count ∨ { w with pc := next, rxSem := s }.Ahead t) :
    { w with pc := next, rxSem := s }.Watched := by
  refine ⟨hsem, hwait, h.follows, fun t hring => ?_⟩
  rcases h.seen t hring with hq | hcount | hleft | hahead
  · exact .inl hq
  · exact .inr ((hseen t (.inl hcount)).imp_right .inr)
  · exact .inr (.inr (.inl hleft))
  · exact .inr ((hseen t (.inr hahead)).imp_right .inr)

theorem step (h : w.Watched) {e : WakeStep} (hpos : w.Possible e) : (w.apply e).Watched := by
  have hidle : w.pc ≠ .wait → w.rxSem.pending = false :=
    fun hpc => Bool.eq_false_iff.mpr fun hpending => hpc (h.waiting hpending)
  cases e with
  | arrive t bytes => exact h.arrive t bytes
  | notify t => exact h.notify t
  | connect => exact h.connect
  | process =>
      rcases hpos with hpc | hpc
      · have happly : w.apply .process = w.process .uart .ws := by simp only [apply, hpc]
        rw [happly]
        refine h.process (by simp [hpc]) fun t' ht _ => ?_
        cases t' with
        | uart => exact absurd rfl ht
        | ws => rfl
      · have happly : w.apply .process = w.process .ws .deadline := by simp only [apply, hpc]
        rw [happly]
        refine h.process (by simp [hpc]) fun t' ht hahead => ?_
        simp only [Ahead, hpc] at hahead
        exact absurd hahead ht
  | deadline due =>
      have hpc : w.pc = .deadline := hpos
      have hpending := hidle (by simp [hpc])
      refine h.goto h.sem (fun hp => ?_) fun t hseen => ?_
      · rw [hpending] at hp
        cases hp
      · simp only [Ahead, hpc, or_false] at hseen
        exact .inl hseen
  | take =>
      have hpc : w.pc = .take := hpos
      have hpending := hidle (by simp [hpc])
      refine h.goto (h.sem.take hpending) (fun hp => ?_) fun t hseen => ?_
      · rw [Sem.take_pending hpending] at hp
        simp [hp]
      · simp only [Ahead, hpc, or_false] at hseen
        simp only [hseen, if_true]
        exact .inr trivial
  | wake => exact h.goto h.sem (fun hp => by rw [hpos.2] at hp; cases hp) fun _ _ => .inr trivial
  | timeout => exact h.goto h.sem.timeout (fun hp => by cases hp) fun _ _ => .inr trivial
  | frame =>
      have hpc : w.pc = .frame := hpos
      refine h.goto h.sem (fun hp => ?_) fun _ _ => .inr trivial
      rw [hidle (by simp [hpc])] at hp
      cases hp

/-- Nothing in the ring, so all of what was delivered has been read. -/
theorem drained (h : w.Watched) (hring : (w.lanes t).port.ring = []) :
    (w.lanes t).port.Drained t := by
  refine ⟨hring, ?_⟩
  rw [Port.delivered, hring, List.append_nil]
  exact (h.follows t).executed

end Watched

end Wakes

/-- **No command that was announced waits for the next frame**: while the task waits for its
semaphore, what was announced over a transport has been read and its lines have been executed, as
they are if the command buffer has room for each, unless the last read filled the buffer and left
bytes in the ring. -/
theorem waits_drained {w : Wakes} {steps : List WakeStep} (h : Run WakeTrans .start steps w)
    (hwaits : w.Waits) (t : Transport) (hannounced : (w.lanes t).queued = false)
    (hleft : (w.lanes t).left = false) :
    (w.lanes t).port.Drained t ∧
      ((∀ l ∈ lines lineEnd fresh (w.lanes t).port.delivered, l.bytes.length < t.cmdBufSize) →
        (w.lanes t).port.executed = lines lineEnd fresh (w.lanes t).port.delivered) := by
  have hwatched : w.Watched := h.invariant (I := Wakes.Watched)
    (fun _ _ _ hw hr => hr.2 ▸ hw.step hr.1) Wakes.start_watched
  suffices hring : (w.lanes t).port.ring = [] from
    ⟨hwatched.drained hring, (hwatched.drained hring).whole⟩
  refine Classical.byContradiction fun hring => ?_
  have hcount := hwatched.sem.pending hwaits.2
  rcases hwatched.seen t hring with hq | hpos | hl | hahead
  · rw [hannounced] at hq
    cases hq
  · omega
  · rw [hleft] at hl
    cases hl
  · simp only [Wakes.Ahead, hwaits.1, hwaits.2] at hahead
    cases hahead

/-- A command comes in while the task waits. -/
def wakesForCommand : List WakeStep :=
  [.process, .process, .deadline false, .take,
    .arrive .uart "page=1\n".toUTF8.toList, .notify .uart, .wake,
    .process, .process, .deadline false, .take]

theorem waits_drained_page :
    ((wakesForCommand.foldl Wakes.apply .start).lanes .uart).port.Drained .uart ∧
      ((wakesForCommand.foldl Wakes.apply .start).lanes .uart).port.executed =
        [⟨0, "page=1".toUTF8.toList⟩] := by
  have hrun : Run WakeTrans .start wakesForCommand (wakesForCommand.foldl Wakes.apply .start) :=
    Run.of_along Wakes.apply Wakes.Possible (fun _ _ h => ⟨h, rfl⟩) (by decide +kernel)
  obtain ⟨hdrained, hwhole⟩ := waits_drained hrun (by constructor <;> decide +kernel) .uart
    (by decide +kernel) (by decide +kernel)
  exact ⟨hdrained, (hwhole (by decide +kernel)).trans (by decide +kernel)⟩

end NodemFirmware.Nodem
