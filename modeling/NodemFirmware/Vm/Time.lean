import NodemFirmware.Lib.Transition
import Mathlib.Tactic

/-! # The time interrupt of the VM

`time.rs` of nodem-ffi: the interrupt's functions, `gate`, which keeps the program from running
while it waits, and the frame period.  Times are `u32` milliseconds, the low bits of a clock that
does not wrap; the release build wraps the arithmetic.

`Clocked` pairs the module's statics with that clock and with the until point as a point in time.
`waits_never_early_iff` says for which waits the gate keeps the program back for as long as it
asked: those of at most `2 ^ 31` ms from the call on. -/

namespace NodemFirmware.Vm

open Transition

/-! ### Source -/

/-- A cell of the stack: an `i32`. -/
abbrev VMAtom := BitVec 32

inductive RuntimeError where
  | interruptError
  | unimplementedInterruptFunc
deriving DecidableEq, Repr

/-- The states of the VM that `gate` tells apart. -/
inductive Runtime where
  | hlt
  | run
  | other
deriving DecidableEq, Repr

/-- What the interrupt uses of the VM; the last element pushed comes first. -/
structure VirtMach where
  stack : List VMAtom
  error : Option RuntimeError
  paused : Bool
deriving DecidableEq, Repr

/-- `stack_pop`, of a stack that is not empty. -/
def VirtMach.stackPop (vm : VirtMach) : Option (VMAtom × VirtMach) :=
  match vm.stack with
  | [] => none
  | v :: stack => some (v, { vm with stack := stack })

def VirtMach.stackPush (vm : VirtMach) (v : VMAtom) : VirtMach := { vm with stack := v :: vm.stack }

def VirtMach.pause (vm : VirtMach) : VirtMach := { vm with paused := true }

def defaultTickMs : BitVec 32 := 17

/-- The module's statics. -/
structure Time where
  tickMs : BitVec 32
  wakeAt : BitVec 32
  tickActive : Bool
  holding : Bool
  lastUntil : BitVec 32
deriving DecidableEq, Repr

def Time.boot : Time := ⟨defaultTickMs, 0, false, false, 0⟩

/-- `now`, with the clock at `t`. -/
def now (t : ℕ) : BitVec 32 := BitVec.ofNat 32 t

def reached (t : ℕ) (deadline : BitVec 32) : Bool := 0 ≤ (now t - deadline).toInt

/-- `interval`: none if either argument is negative. -/
def interval (vm : VirtMach) : Option (Option (BitVec 32) × VirtMach) := do
  let (seconds, vm) ← vm.stackPop
  let (milliseconds, vm) ← vm.stackPop
  if seconds.toInt < 0 ∨ milliseconds.toInt < 0 then
    some (none, { vm with error := some .interruptError })
  else some (some (seconds * 1000 + milliseconds), vm)

/-- `sleep_until`. -/
def sleepUntil (time : Time) (vm : VirtMach) (deadline : BitVec 32) : Time × VirtMach :=
  ({ time with wakeAt := deadline, holding := true }, vm.pause)

/-- Functions 0 (`wait_for`), 1 (`wait_until`) and 3 (the tick) once they have an interval; `t`
and `t'` are the two times the clock is read. -/
def waitFor (t : ℕ) (time : Time) (vm : VirtMach) (ms : BitVec 32) : Time × VirtMach :=
  sleepUntil time vm (now t + ms)

def waitUntil (t t' : ℕ) (time : Time) (vm : VirtMach) (ms : BitVec 32) : Time × VirtMach :=
  let deadline := time.lastUntil + ms
  if reached t deadline then ({ time with lastUntil := now t' }, vm.stackPush 0)
  else sleepUntil { time with lastUntil := deadline } (vm.stackPush 1) deadline

def setTick (time : Time) (vm : VirtMach) (ms : BitVec 32) : Time × VirtMach :=
  ({ time with tickMs := if ms = 0 then defaultTickMs else ms }, vm)

/-- Runs a function on the interval it is given, if it is given one. -/
def withInterval (time : Time) (vm : VirtMach)
    (f : Time → VirtMach → BitVec 32 → Time × VirtMach) : Option (Time × VirtMach) := do
  match ← interval vm with
  | (some ms, vm) => some (f time vm ms)
  | (none, vm) => some (time, vm)

/-- `Time::call`; none if the stack runs out. -/
def Time.call (t t' : ℕ) (time : Time) (vm : VirtMach) : Option (Time × VirtMach) := do
  let (func, vm) ← vm.stackPop
  if func = 0 then withInterval time vm (waitFor t)
  else if func = 1 then withInterval time vm (waitUntil t t')
  else if func = 3 then withInterval time vm setTick
  else if func = 10 then
    let ms := now t
    some (time, (((vm.stackPush (ms / 3600000 % 24)).stackPush (ms / 60000 % 60)).stackPush
      (ms / 1000 % 60)).stackPush (ms % 1000))
  else if func = 11 then some (time, ((vm.stackPush 0).stackPush 0).stackPush 0)
  else some (time, { vm with error := some .unimplementedInterruptFunc })

/-- What `gate` does for a program that has not run yet: no tick, waits count from now. -/
def Time.fresh (t : ℕ) (time : Time) : Time :=
  { time with tickMs := defaultTickMs, holding := false, lastUntil := now t }

/-- `gate`: whether the VM may run. -/
def gate (t cycleCnt : ℕ) (state : Runtime) (time : Time) : Bool × Time :=
  let time := if cycleCnt = 0 then time.fresh t else time
  let time := { time with tickActive := state = .hlt ∨ state = .run }
  if !time.holding then (true, time)
  else if reached t time.wakeAt then (true, { time with holding := false })
  else (false, time)

/-- `nodem_runtime_period_ms`. -/
def nodemRuntimePeriodMs (t : ℕ) (time : Time) : BitVec 32 :=
  if !time.tickActive then defaultTickMs
  else if time.holding then
    let left := BitVec.ofInt 32 (max (time.wakeAt - now t).toInt 1)
    if time.tickMs ≤ left then time.tickMs else left
  else time.tickMs

/-! ### With the clock -/

/-- The statics, the clock in ms, and the until point: when the program started, or the last
`wait_until` was for, or came too late. -/
structure Clocked where
  clock : ℕ
  time : Time
  untilPoint : ℕ
deriving DecidableEq, Repr

def Clocked.boot : Clocked := ⟨0, .boot, 0⟩

/-- The milliseconds that two arguments ask for. -/
def asked (seconds milliseconds : VMAtom) : ℕ := seconds.toNat * 1000 + milliseconds.toNat

/-- When a wait asks to be woken: `wait_for` counts from the call, `wait_until` from the until
point. -/
def Clocked.requested (c : Clocked) (func seconds milliseconds : VMAtom) : ℕ :=
  (if func = 0 then c.clock else c.untilPoint) + asked seconds milliseconds

/-- The program calls the interrupt; `late` ms go by before a second read of the clock, if there
is one. -/
def Clocked.call (c : Clocked) (vm : VirtMach) (late : ℕ) : Option (Clocked × VirtMach) := do
  let (time, vm') ← c.time.call c.clock (c.clock + late) vm
  match vm.stack with
  | func :: seconds :: milliseconds :: _ =>
      if func = 1 ∧ 0 ≤ seconds.toInt ∧ 0 ≤ milliseconds.toInt then
        if vm'.stack.head? = some 0 then
          some (⟨c.clock + late, time, c.clock + late⟩, vm')
        else some (⟨c.clock, time, c.requested func seconds milliseconds⟩, vm')
      else some (⟨c.clock, time, c.untilPoint⟩, vm')
  | _ => some (⟨c.clock, time, c.untilPoint⟩, vm')

/-- A frame asks the gate `after` ms later. -/
def Clocked.gate (c : Clocked) (after cycleCnt : ℕ) (state : Runtime) : Bool × Clocked :=
  let r := Vm.gate (c.clock + after) cycleCnt state c.time
  (r.1, ⟨c.clock + after, r.2, if cycleCnt = 0 then c.clock + after else c.untilPoint⟩)

inductive ClockedEvent where
  | call (vm : VirtMach) (late : ℕ)
  | gate (after cycleCnt : ℕ) (state : Runtime)

def ClockedTrans (c : Clocked) (e : ClockedEvent) (c' : Clocked) : Prop :=
  match e with
  | .call vm late => ∃ vm', c.call vm late = some (c', vm')
  | .gate after cycleCnt state => c' = (c.gate after cycleCnt state).2

/-- A frame of the same program: it has run before. -/
structure Poll where
  after : ℕ
  cycleCnt : ℕ
  state : Runtime
  started : cycleCnt ≠ 0

/-- When each of some frames asks the gate, and what it says. -/
def Clocked.polls (c : Clocked) : List Poll → List (ℕ × Bool)
  | [] => []
  | p :: ps =>
      let r := c.gate p.after p.cycleCnt p.state
      (r.2.clock, r.1) :: r.2.polls ps

/-- A wait is as long as the program asked: `wait_until` gives 0 only once the point had been
reached, and after `wait_for`, or a `wait_until` that gave 1, no frame before it lets the VM
run. -/
def Clocked.WaitsFully (c : Clocked) (vm : VirtMach) (late : ℕ)
    (func seconds milliseconds : VMAtom) : Prop :=
  ∀ c' vm', c.call vm late = some (c', vm') →
    (func = 1 → vm'.stack.head? = some 0 → c.requested func seconds milliseconds ≤ c.clock) ∧
    (func = 0 ∨ vm'.stack.head? = some 1 →
      ∀ ps, ∀ p ∈ c'.polls ps, p.1 < c.requested func seconds milliseconds → p.2 = false)

/-! ### Deadlines -/

theorem now_add (t ms : ℕ) : now t + BitVec.ofNat 32 ms = now (t + ms) :=
  (BitVec.ofNat_add ..).symm

theorem interval_eq (seconds milliseconds : VMAtom) :
    seconds * 1000 + milliseconds = BitVec.ofNat 32 (asked seconds milliseconds) := by
  unfold asked
  rw [BitVec.ofNat_add, BitVec.ofNat_mul, BitVec.ofNat_toNat, BitVec.ofNat_toNat,
    BitVec.setWidth_eq, BitVec.setWidth_eq]
  rfl

/-- `reached` looks at the signed distance, modulo `2 ^ 32`. -/
theorem reached_now (t d : ℕ) :
    reached t (now d) = decide (0 ≤ ((t : ℤ) - d).bmod (2 ^ 32)) := by
  unfold reached now
  rw [BitVec.toInt_sub, BitVec.toInt_ofNat', BitVec.toInt_ofNat', Int.bmod_sub_bmod,
    Int.sub_bmod_bmod]

theorem not_reached {t d : ℕ} (h : t < d) (hnear : d ≤ t + 2 ^ 31) : reached t (now d) = false := by
  rw [reached_now]
  have hb : ((t : ℤ) - d).bmod (2 ^ 32) = t - d := by
    rw [Int.bmod_eq_of_le] <;> omega
  rw [hb, decide_eq_false_iff_not]
  omega

/-- From `2 ^ 31` ms and one on, the deadline looks like one that has passed. -/
theorem reached_early {t d : ℕ} (h : d = t + (2 ^ 31 + 1)) : reached t (now d) = true := by
  have hd : (t : ℤ) - d = -(2 ^ 31 + 1) := by omega
  rw [reached_now, hd]
  decide

/-! ### Calls -/

section Calls

variable {c : Clocked} {vm : VirtMach} {late : ℕ} {seconds milliseconds : VMAtom}
  {rest : List VMAtom}

theorem interval_of_nonneg (hs : 0 ≤ seconds.toInt) (hm : 0 ≤ milliseconds.toInt)
    (error : Option RuntimeError) (paused : Bool) :
    interval ⟨seconds :: milliseconds :: rest, error, paused⟩ =
      some (some (BitVec.ofNat 32 (asked seconds milliseconds)), ⟨rest, error, paused⟩) := by
  have hneg : ¬ (seconds.toInt < 0 ∨ milliseconds.toInt < 0) := by omega
  simp only [interval, VirtMach.stackPop, Option.bind_eq_bind, Option.bind_some, if_neg hneg,
    interval_eq]

theorem call_waitFor (hstack : vm.stack = 0 :: seconds :: milliseconds :: rest)
    (hs : 0 ≤ seconds.toInt) (hm : 0 ≤ milliseconds.toInt) :
    c.call vm late = some (⟨c.clock, { c.time with
        wakeAt := now (c.requested 0 seconds milliseconds), holding := true }, c.untilPoint⟩,
      ⟨rest, vm.error, true⟩) := by
  have hne : ¬ ((0 : VMAtom) = 1 ∧ 0 ≤ seconds.toInt ∧ 0 ≤ milliseconds.toInt) :=
    fun h => absurd h.1 (by decide)
  simp only [Clocked.call, Time.call, VirtMach.stackPop, hstack, Option.bind_eq_bind,
    Option.bind_some, if_true, withInterval, interval_of_nonneg hs hm, if_neg hne, waitFor,
    sleepUntil, now_add, VirtMach.pause, Clocked.requested]

theorem call_waitUntil (hstack : vm.stack = 1 :: seconds :: milliseconds :: rest)
    (hs : 0 ≤ seconds.toInt) (hm : 0 ≤ milliseconds.toInt)
    (hsync : c.time.lastUntil = now c.untilPoint) :
    let point := c.requested 1 seconds milliseconds
    c.call vm late = some (
      if reached c.clock (now point) then
        (⟨c.clock + late, { c.time with lastUntil := now (c.clock + late) }, c.clock + late⟩,
          ⟨0 :: rest, vm.error, vm.paused⟩)
      else (⟨c.clock, { c.time with lastUntil := now point, wakeAt := now point, holding := true },
          point⟩, ⟨1 :: rest, vm.error, true⟩)) := by
  have hne : ¬ ((1 : VMAtom) = 0) := by decide
  have hpoint : now c.untilPoint + BitVec.ofNat 32 (asked seconds milliseconds) =
      now (c.requested 1 seconds milliseconds) := by
    rw [now_add, Clocked.requested, if_neg hne]
  simp only [Clocked.call, Time.call, VirtMach.stackPop, hstack, Option.bind_eq_bind,
    Option.bind_some, if_neg hne, if_true, withInterval, interval_of_nonneg hs hm, waitUntil,
    hsync, hpoint, hs, hm, and_self]
  cases hr : reached c.clock (now (c.requested 1 seconds milliseconds)) with
  | true => simp [VirtMach.stackPush]
  | false => simp [VirtMach.stackPush, sleepUntil, VirtMach.pause]

end Calls

/-! ### The until point -/

/-- `LAST_UNTIL` is the until point modulo `2 ^ 32`. -/
def Clocked.Synced (c : Clocked) : Prop := c.time.lastUntil = now c.untilPoint

/-- `wait_until` with two arguments that are not negative. -/
def UntilCall (vm : VirtMach) : Prop :=
  ∃ seconds milliseconds rest, vm.stack = 1 :: seconds :: milliseconds :: rest ∧
    0 ≤ seconds.toInt ∧ 0 ≤ milliseconds.toInt

theorem withInterval_lastUntil {time time' : Time} {vm vm' : VirtMach}
    {f : Time → VirtMach → BitVec 32 → Time × VirtMach}
    (hf : ∀ vm ms, (f time vm ms).1.lastUntil = time.lastUntil)
    (h : withInterval time vm f = some (time', vm')) : time'.lastUntil = time.lastUntil := by
  unfold withInterval at h
  obtain ⟨⟨ms, vm₁⟩, -, h⟩ := Option.bind_eq_some_iff.mp h
  cases ms with
  | none =>
      cases h
      rfl
  | some ms =>
      have htime : (f time vm₁ ms).1 = time' := congrArg Prod.fst (Option.some.inj h)
      rw [← htime]
      exact hf vm₁ ms

/-- A `wait_until` without an interval leaves everything. -/
theorem withInterval_of_negative {time time' : Time} {vm vm' : VirtMach}
    {f : Time → VirtMach → BitVec 32 → Time × VirtMach}
    (hneg : ∀ seconds milliseconds rest, vm.stack = seconds :: milliseconds :: rest →
      ¬ (0 ≤ seconds.toInt ∧ 0 ≤ milliseconds.toInt))
    (h : withInterval time vm f = some (time', vm')) : time' = time := by
  unfold withInterval interval VirtMach.stackPop at h
  cases hstack : vm.stack with
  | nil =>
      rw [hstack] at h
      cases h
  | cons seconds stack =>
      cases stack with
      | nil =>
          rw [hstack] at h
          cases h
      | cons milliseconds rest =>
          have hno := hneg _ _ _ hstack
          have hlt : seconds.toInt < 0 ∨ milliseconds.toInt < 0 := by omega
          rw [hstack] at h
          simp only [Option.bind_eq_bind, Option.bind_some, if_pos hlt, Option.some.injEq,
            Prod.mk.injEq] at h
          exact h.1.symm

/-- Every other call leaves `LAST_UNTIL`. -/
theorem call_lastUntil {t t' : ℕ} {time time' : Time} {vm vm' : VirtMach} (hnot : ¬ UntilCall vm)
    (h : time.call t t' vm = some (time', vm')) : time'.lastUntil = time.lastUntil := by
  unfold Time.call VirtMach.stackPop at h
  cases hstack : vm.stack with
  | nil =>
      rw [hstack] at h
      cases h
  | cons func stack =>
      rw [hstack] at h
      simp only [Option.bind_eq_bind, Option.bind_some] at h
      split_ifs at h with h0 h1 h3 h10 h11
      · exact withInterval_lastUntil (fun _ _ => rfl) h
      · subst h1
        rw [withInterval_of_negative (fun seconds milliseconds rest hst hpos => ?_) h]
        simp only at hst
        exact hnot ⟨seconds, milliseconds, rest, by rw [hstack, hst], hpos⟩
      · exact withInterval_lastUntil (fun _ _ => rfl) h
      · cases h
        rfl
      · cases h
        rfl
      · cases h
        rfl

theorem Clocked.Synced.call {c c' : Clocked} {vm vm' : VirtMach} {late : ℕ} (h : c.Synced)
    (hcall : c.call vm late = some (c', vm')) : c'.Synced := by
  by_cases hu : UntilCall vm
  · obtain ⟨seconds, milliseconds, rest, hstack, hs, hm⟩ := hu
    rw [call_waitUntil hstack hs hm h] at hcall
    split_ifs at hcall
    · cases hcall
      rfl
    · cases hcall
      rfl
  · unfold Clocked.call at hcall
    obtain ⟨⟨time, vm₁⟩, htime, hcall⟩ := Option.bind_eq_some_iff.mp hcall
    have hlast := call_lastUntil hu htime
    have hkept : c'.time = time ∧ c'.untilPoint = c.untilPoint := by
      simp only at hcall
      split at hcall
      · next func seconds milliseconds rest hstack =>
        rw [if_neg] at hcall
        · cases hcall
          exact ⟨rfl, rfl⟩
        · rintro ⟨rfl, hs, hm⟩
          exact hu ⟨seconds, milliseconds, rest, hstack, hs, hm⟩
      · cases hcall
        exact ⟨rfl, rfl⟩
    unfold Clocked.Synced
    rw [hkept.1, hkept.2, hlast]
    exact h

theorem Clocked.Synced.gate {c : Clocked} (h : c.Synced) (after cycleCnt : ℕ) (state : Runtime) :
    (c.gate after cycleCnt state).2.Synced := by
  unfold Clocked.Synced Clocked.gate Vm.gate
  simp only
  by_cases h0 : cycleCnt = 0
  · simp only [h0, if_true, Time.fresh]
    split_ifs <;> rfl
  · simp only [h0, if_false]
    split_ifs <;> exact h

theorem Clocked.Synced.run {c : Clocked} {events : List ClockedEvent}
    (h : Run ClockedTrans .boot events c) : c.Synced := by
  refine h.invariant ?_ rfl
  rintro c e c' hc hstep
  cases e with
  | call vm late =>
      obtain ⟨vm', hcall⟩ := hstep
      exact hc.call hcall
  | gate after cycleCnt state =>
      subst hstep
      exact hc.gate after cycleCnt state

/-! ### Polls -/

theorem polls_le {c : Clocked} {ps : List Poll} : ∀ p ∈ c.polls ps, c.clock ≤ p.1 := by
  induction ps generalizing c with
  | nil => simp [Clocked.polls]
  | cons q ps ih =>
      intro p hp
      rw [Clocked.polls, List.mem_cons] at hp
      have hclock : (c.gate q.after q.cycleCnt q.state).2.clock = c.clock + q.after := rfl
      rcases hp with rfl | hp
      · simp only [hclock]
        omega
      · have := ih p hp
        omega

/-- A poll of a wait that is still on. -/
theorem gate_waiting {c : Clocked} {d : ℕ} (hold : c.time.holding = true)
    (hwake : c.time.wakeAt = now d) (p : Poll) :
    (c.gate p.after p.cycleCnt p.state).1 = reached (c.clock + p.after) (now d) ∧
      (reached (c.clock + p.after) (now d) = false →
        (c.gate p.after p.cycleCnt p.state).2.time.holding = true ∧
          (c.gate p.after p.cycleCnt p.state).2.time.wakeAt = now d) := by
  unfold Clocked.gate Vm.gate
  simp only [p.started, if_false, hold, hwake, Bool.not_true, Bool.false_eq_true]
  split_ifs with hr
  · exact ⟨hr.symm, fun h => by rw [hr] at h; cases h⟩
  · exact ⟨by simpa using hr, fun _ => ⟨rfl, rfl⟩⟩

/-- **Polls:** by induction on them, the gate holds until a deadline that was within `2 ^ 31`
ms. -/
theorem polls_wait {c : Clocked} {d : ℕ} (hold : c.time.holding = true)
    (hwake : c.time.wakeAt = now d) (hnear : d ≤ c.clock + 2 ^ 31) (ps : List Poll) :
    ∀ p ∈ c.polls ps, p.1 < d → p.2 = false := by
  induction ps generalizing c with
  | nil => simp [Clocked.polls]
  | cons q ps ih =>
      intro p hp hlt
      obtain ⟨hgate, hkeep⟩ := gate_waiting hold hwake q
      have hclock : (c.gate q.after q.cycleCnt q.state).2.clock = c.clock + q.after := rfl
      rw [Clocked.polls, List.mem_cons] at hp
      have hle : c.clock + q.after ≤ p.1 := by
        rcases hp with rfl | hp
        · exact le_of_eq rfl
        · rw [← hclock]
          exact polls_le p hp
      have hr : reached (c.clock + q.after) (now d) = false := not_reached (by omega) (by omega)
      rcases hp with rfl | hp
      · exact hgate.trans hr
      · obtain ⟨hold', hwake'⟩ := hkeep hr
        exact ih hold' hwake' (by omega) p hp hlt

/-- A deadline further off than that is taken for a passed one before it comes. -/
theorem exists_early_poll {c : Clocked} {d : ℕ} (hold : c.time.holding = true)
    (hwake : c.time.wakeAt = now d) (hfar : c.clock + 2 ^ 31 < d) :
    ∃ ps, ∃ p ∈ c.polls ps, p.1 < d ∧ p.2 = true := by
  obtain ⟨k, hk⟩ : ∃ k, d = c.clock + k + (2 ^ 31 + 1) := ⟨d - c.clock - (2 ^ 31 + 1), by omega⟩
  refine ⟨[⟨k, 1, .other, by decide⟩], (c.clock + k, true), ?_, by simp only; omega, rfl⟩
  have hgate := (gate_waiting hold hwake ⟨k, 1, .other, by decide⟩).1
  rw [reached_early hk] at hgate
  rw [Clocked.polls, hgate]
  exact List.mem_cons_self ..

/-- The frame that is running when a wait is on ends by the time it is over. -/
theorem period_ends {c : Clocked} {d : ℕ} (hold : c.time.holding = true)
    (hactive : c.time.tickActive = true) (hwake : c.time.wakeAt = now d) (hon : c.clock < d)
    (hnear : d ≤ c.clock + 2 ^ 31) : (nodemRuntimePeriodMs c.clock c.time).toNat ≤ d - c.clock := by
  have hleft : (BitVec.ofInt 32 (max (now d - now c.clock).toInt 1)).toNat ≤ d - c.clock := by
    have hdist : (now d - now c.clock).toInt = ((d : ℤ) - c.clock).bmod (2 ^ 32) := by
      unfold now
      rw [BitVec.toInt_sub, BitVec.toInt_ofNat', BitVec.toInt_ofNat', Int.bmod_sub_bmod,
        Int.sub_bmod_bmod]
    have hle : ((d : ℤ) - c.clock).bmod (2 ^ 32) ≤ d - c.clock := by
      rw [Int.bmod_def]
      split_ifs <;> omega
    rw [hdist, BitVec.toNat_ofInt]
    omega
  unfold nodemRuntimePeriodMs
  simp only [hactive, hold, hwake, Bool.not_true, Bool.false_eq_true, if_false, if_true]
  split_ifs with htick
  · exact (BitVec.le_def.mp htick).trans hleft
  · exact hleft

/-! ### Waits -/

/-- A call that sleeps until the time it asks for. -/
theorem waitsFully_of_sleep {c c' : Clocked} {vm vm' : VirtMach} {late : ℕ}
    {func seconds milliseconds : VMAtom} (hcall : c.call vm late = some (c', vm'))
    (hclock : c'.clock = c.clock) (hold : c'.time.holding = true)
    (hwake : c'.time.wakeAt = now (c.requested func seconds milliseconds))
    (hwaits : func = 0 ∨ vm'.stack.head? = some 1)
    (hnot : ¬ (func = 1 ∧ vm'.stack.head? = some 0)) :
    c.WaitsFully vm late func seconds milliseconds ↔
      c.requested func seconds milliseconds ≤ c.clock + 2 ^ 31 := by
  constructor
  · intro hfull
    by_contra hfar
    obtain ⟨ps, p, hp, hlt, htrue⟩ := exists_early_poll hold hwake (by omega)
    rw [(hfull c' vm' hcall).2 hwaits ps p hp hlt] at htrue
    cases htrue
  · intro hnear c₁ vm₁ hcall₁
    rw [hcall] at hcall₁
    cases hcall₁
    exact ⟨fun h1 h0 => absurd ⟨h1, h0⟩ hnot, fun _ => polls_wait hold hwake (by omega)⟩

/-- **A wait is never early, up to `2 ^ 31` ms.**  At any time in any run, a call of `wait_for`
or `wait_until` with two arguments that are not negative is waited out in full, whatever frames
follow, just if the time it asks for is at most `2 ^ 31` ms from the call. -/
theorem waits_never_early_iff (events : List ClockedEvent) (c : Clocked)
    (h : Run ClockedTrans .boot events c) (vm : VirtMach) (late : ℕ)
    (func seconds milliseconds : VMAtom) (rest : List VMAtom) (hfunc : func = 0 ∨ func = 1)
    (hstack : vm.stack = func :: seconds :: milliseconds :: rest)
    (hs : 0 ≤ seconds.toInt) (hm : 0 ≤ milliseconds.toInt) :
    c.WaitsFully vm late func seconds milliseconds ↔
      c.requested func seconds milliseconds ≤ c.clock + 2 ^ 31 := by
  have hsync := Clocked.Synced.run h
  rcases hfunc with rfl | rfl
  · exact waitsFully_of_sleep (call_waitFor hstack hs hm) rfl rfl rfl (Or.inl rfl)
      fun h => absurd h.1 (by decide)
  · have hcall : c.call vm late = _ := call_waitUntil hstack hs hm hsync
    simp only at hcall
    cases hr : reached c.clock (now (c.requested 1 seconds milliseconds)) with
    | false =>
        rw [hr] at hcall
        exact waitsFully_of_sleep hcall rfl rfl rfl (Or.inr rfl)
          fun h => absurd (Option.some.inj h.2) (by decide)
    | true =>
        rw [hr] at hcall
        constructor
        · intro hfull
          have hpast := (hfull _ _ hcall).1 rfl rfl
          omega
        · intro hnear c' vm' hcall'
          rw [hcall] at hcall'
          cases hcall'
          refine ⟨fun _ _ => ?_, fun h => ?_⟩
          · by_contra hlt
            rw [not_reached (not_le.mp hlt) hnear] at hr
            cases hr
          · rcases h with h | h
            · exact absurd h (by decide)
            · exact absurd (Option.some.inj h) (by decide)

theorem waits_never_early_iff_boot :
    Clocked.boot.WaitsFully ⟨[1, 2, 500], none, false⟩ 3 1 2 500 :=
  (waits_never_early_iff [] .boot (.nil _) ⟨[1, 2, 500], none, false⟩ 3 1 2 500 [] (Or.inr rfl)
    rfl (by decide) (by decide)).mpr (by decide)

/-- A wait of 2147484 seconds, just over `2 ^ 31` ms, is over at the next frame. -/
theorem long_wait_over_at_once :
    (∃ c' vm', Clocked.boot.call ⟨[0, 2147484, 0], none, false⟩ 0 = some (c', vm') ∧
      (c'.gate 0 1 .other).1 = true) ∧
    Clocked.boot.requested 0 2147484 0 = 2147484000 ∧
    ¬ Clocked.boot.WaitsFully ⟨[0, 2147484, 0], none, false⟩ 0 0 2147484 0 := by
  refine ⟨⟨_, _, rfl, by decide +kernel⟩, by decide, fun h => ?_⟩
  have hpoll := (h _ _ rfl).2 (Or.inl rfl) [⟨0, 1, .other, by decide⟩] (0, true)
    (by decide +kernel) (by decide +kernel)
  cases hpoll

end NodemFirmware.Vm
