import NodemFirmware.Lib.FixedWindow
import NodemFirmware.Hub75.Task

/-! # The overload trips of hub75_task

A panel that trips is restarted, unless it keeps tripping: `trips` counts from `trip_window`, which
is only moved when it has expired.

* `Reported` is the task with the status it reports and the trips it has handled since a config was
  applied, each with the window it was counted in.
* `Reported.Counted` is what every step keeps: the trips are those of `FixedWindow.Counts`.
* `overload_stops_iff`: the panel is stopped after the trips that lie within the window's length of
  each other exactly when they lie in one window. -/

namespace NodemFirmware.Hub75

open ConfigStore Transition FixedWindow

/-- What `hub75_status` reports. -/
inductive StatState where
  | disabled
  | ok
  | lowMem
  | noMem
  | overload
deriving DecidableEq, Repr

/-- The status after `hub75_start`. -/
def startedStat (c : Config) (started : Bool) : StatState :=
  match started, hub75Alloc (hub75Geometry c) with
  | true, some g => if g.drivePanels < g.totalPanels then .lowMem else .ok
  | _, _ => .noMem

/-- `hub75_task` with `stat_state`, and the trips it has handled since it applied a config. -/
structure Reported where
  task : Task
  statState : StatState
  handled : List FixedWindow.Event

namespace Reported

def start (store : Store) (hub75Generation : BitVec 32) (active : Config) : Reported :=
  ⟨.start store hub75Generation active, .disabled, []⟩

/-- An access of the loop. -/
def access (r : Reported) (err : ℤ) (started : Bool) : Reported :=
  let s := r.task.task err started
  match r.task.pc with
  | .apply =>
      let statState := match r.task.config with
        | some c => startedStat c started
        | none => .disabled
      ⟨s, statState, []⟩
  | .tripStop =>
      { task := s
        statState := if s.trips ≥ overloadTrips then .overload else r.statState
        handled := r.handled ++ [⟨r.task.now, s.tripWindow⟩] }
  | .restart => { r with task := s, statState := startedStat r.task.active started }
  | _ => { r with task := s }

def apply (r : Reported) : TaskStep → Reported
  | .task err started => r.access err started
  | e => { r with task := r.task.apply e }

/-- Off until the config changes. -/
def Stopped (r : Reported) : Prop :=
  r.task.running = false ∧ r.task.restartAt = 0 ∧ r.statState = .overload

instance (r : Reported) : Decidable r.Stopped := inferInstanceAs (Decidable (_ ∧ _))

/-- Every burst of trips stops the panel for good, and nothing else does. -/
def StopsOnBursts (r : Reported) : Prop :=
  (∀ older burst later, r.handled = older ++ burst ++ later → burst.length = overloadTrips →
    Within overloadWindowMs burst → later = [] ∧ r.Stopped) ∧
    (r.Stopped → ∃ older burst, r.handled = older ++ burst ∧ burst.length = overloadTrips ∧
      Within overloadWindowMs burst)

/-- No burst of trips goes beyond the window its first trip was counted in. -/
def BurstsInWindow (r : Reported) : Prop :=
  ∀ older burst later, r.handled = older ++ burst ++ later → burst.length = overloadTrips →
    Within overloadWindowMs burst → InWindow overloadWindowMs burst

end Reported

def ReportedTrans (r : Reported) (e : TaskStep) (r' : Reported) : Prop :=
  r.task.Possible e ∧ r' = r.apply e

/-! ### What a step does to the counter -/

/-- The window and the number of trips since it started. -/
def Task.counter (s : Task) : Counter := ⟨s.tripWindow, s.trips⟩

/-- The counter stays as it is, the clock goes on and a panel that is off and not due stays so. -/
structure Task.Keeps (s t : Task) : Prop where
  counter : t.counter = s.counter
  clock : s.now ≤ s.uptime → s.now ≤ t.now ∧ t.now ≤ t.uptime
  off : s.running = false → s.restartAt = 0 → t.running = false ∧ t.restartAt = 0

variable {s t : Task} {r : Reported}

theorem startedStat_ne_overload (c : Config) (started : Bool) :
    startedStat c started ≠ .overload := by
  unfold startedStat
  split
  · split_ifs <;> exact fun h => by cases h
  · exact fun h => by cases h

namespace Task

/-- The counter, the clock and the panel are left as they are. -/
theorem Keeps.of_same (hcounter : t.counter = s.counter) (hnow : t.now = s.now)
    (huptime : t.uptime = s.uptime) (hrunning : t.running = s.running)
    (hrestart : t.restartAt = s.restartAt) : s.Keeps t where
  counter := hcounter
  clock h := by
    rw [hnow, huptime]
    exact ⟨Nat.le_refl _, h⟩
  off h h' := ⟨hrunning.trans h, hrestart.trans h'⟩

theorem keeps_readHold : s.Keeps { s with passChanges := 0 }.readHold := by
  unfold readHold
  split_ifs
  · exact .of_same rfl rfl rfl rfl rfl
  · exact ⟨rfl, fun h => ⟨Nat.le_refl _, h⟩, fun h _ => ⟨h, rfl⟩⟩
  · exact .of_same rfl rfl rfl rfl rfl
  · exact .of_same rfl rfl rfl rfl rfl

theorem keeps_gotConfig (c : Option Config) : s.Keeps (s.gotConfig c) := by
  unfold gotConfig
  split_ifs <;> exact .of_same rfl rfl rfl rfl rfl

theorem keeps_readConfig : s.Keeps s.readConfig := by
  unfold readConfig
  simp only
  split_ifs
  · exact .of_same rfl rfl rfl rfl rfl
  · split
    · exact keeps_gotConfig _
    · exact .of_same rfl rfl rfl rfl rfl

theorem keeps_resetConfig (err : ℤ) : s.Keeps (s.resetConfig err) := by
  unfold resetConfig gotConfig
  split_ifs <;> exact .of_same rfl rfl rfl rfl rfl

theorem keeps_readClock : s.Keeps s.readClock := by
  unfold readClock
  simp only
  split_ifs <;> exact ⟨rfl, fun h => ⟨h, Nat.le_refl _⟩, fun h h' => ⟨h, h'⟩⟩

/-- The accesses that start no panel and handle no trip. -/
theorem keeps_task (err : ℤ) (started : Bool) (happly : s.pc ≠ .apply)
    (htrip : s.pc ≠ .tripStop) (hrestart : s.pc ≠ .restart) : s.Keeps (s.task err started) := by
  unfold Task.task
  cases hpc : s.pc with
  | top => exact keeps_readHold
  | holdStop => exact ⟨rfl, fun h => ⟨Nat.le_refl _, h⟩, fun _ _ => ⟨rfl, rfl⟩⟩
  | check =>
      simp only
      split_ifs <;> exact .of_same rfl rfl rfl rfl rfl
  | readConfig => exact keeps_readConfig
  | resetConfig => exact keeps_resetConfig err
  | applyStop => exact ⟨rfl, fun h => ⟨Nat.le_refl _, h⟩, fun _ h => ⟨rfl, h⟩⟩
  | clock => exact keeps_readClock
  | apply => exact absurd hpc happly
  | tripStop => exact absurd hpc htrip
  | restart => exact absurd hpc hrestart
  | release => exact .of_same rfl rfl rfl rfl rfl
  | readGeneration => exact .of_same rfl rfl rfl rfl rfl
  | overload => exact .of_same rfl rfl rfl rfl rfl
  | take => exact .of_same rfl rfl rfl rfl rfl
  | wake => exact .of_same rfl rfl rfl rfl rfl

/-- The steps of the other threads and of the interrupt. -/
theorem keeps_apply {e : TaskStep} (he : ∀ err started, e ≠ .task err started) :
    s.Keeps (s.apply e) := by
  cases e with
  | task err started => exact absurd rfl (he err started)
  | elapse ms =>
      exact ⟨rfl, fun h => ⟨Nat.le_refl _, Nat.le_add_right_of_le h⟩, fun h h' => ⟨h, h'⟩⟩
  | timeout => exact .of_same rfl rfl rfl rfl rfl
  | set value err => exact .of_same rfl rfl rfl rfl rfl
  | bump => exact .of_same rfl rfl rfl rfl rfl
  | give => exact .of_same rfl rfl rfl rfl rfl
  | hold hold => exact .of_same rfl rfl rfl rfl rfl
  | holdGive => exact .of_same rfl rfl rfl rfl rfl
  | submit => exact .of_same rfl rfl rfl rfl rfl
  | trip why => exact .of_same rfl rfl rfl rfl rfl

/-- A handled trip is counted at the time the loop has read, and stops the panel. -/
theorem tripStop_spec :
    s.tripStop.counter = s.counter.add overloadWindowMs s.now ∧ s.tripStop.now = s.now ∧
      s.tripStop.uptime = s.uptime ∧ s.tripStop.running = false ∧
      (overloadTrips ≤ s.tripStop.trips → s.tripStop.restartAt = 0) := by
  refine ⟨?_, rfl, rfl, rfl, fun hfull => if_pos hfull⟩
  unfold counter tripStop Counter.add
  simp only [decide_eq_true_eq]
  split_ifs <;> rfl

/-- A start leaves the counter and the clock alone. -/
theorem hub75Start_counter (c : Config) (started : Bool) :
    (s.hub75Start c started).counter = s.counter ∧ (s.hub75Start c started).now = s.now ∧
      (s.hub75Start c started).uptime = s.uptime := by
  unfold hub75Start
  cases started <;> exact ⟨rfl, rfl, rfl⟩

/-- An apply begins the count again, in the window there is. -/
theorem applyConfig_counter (started : Bool) :
    (s.applyConfig started).counter = ⟨s.tripWindow, 0⟩ ∧ (s.applyConfig started).now = s.now ∧
      (s.applyConfig started).uptime = s.uptime := by
  unfold applyConfig
  simp only
  split
  · cases started <;> exact ⟨rfl, rfl, rfl⟩
  · exact ⟨rfl, rfl, rfl⟩

end Task

/-! ### What every step keeps -/

/-- The trips handled are counted; as many as the limit stop the panel, and fewer do not. -/
structure Reported.Counted (r : Reported) : Prop where
  sound : r.task.Sound
  counts : Counts overloadWindowMs overloadTrips r.task.counter r.handled
  clock : r.task.tripWindow ≤ r.task.now ∧ r.task.now ≤ r.task.uptime
  stopped : overloadTrips ≤ r.task.trips → r.Stopped
  reported : r.task.trips < overloadTrips → r.statState ≠ .overload

namespace Reported.Counted

theorem start (store : Store) (hub75Generation : BitVec 32) (active : Config) :
    (Reported.start store hub75Generation active).Counted where
  sound := Task.start_sound store hub75Generation active
  counts := counts_nil (by decide) 0
  clock := ⟨Nat.le_refl _, Nat.le_refl _⟩
  stopped := fun h => absurd h (Nat.not_succ_le_zero _)
  reported := fun _ h => by cases h

theorem keeps (h : r.Counted) (ht : t.Sound) (hkeeps : r.task.Keeps t) :
    { r with task := t }.Counted := by
  obtain ⟨hwindow, htrips⟩ := Counter.mk.inj hkeeps.counter
  have hclock := hkeeps.clock h.clock.2
  refine
    { sound := ht
      counts := hkeeps.counter ▸ h.counts
      clock := ⟨?_, hclock.2⟩
      stopped := fun hfull => ?_
      reported := fun hroom => h.reported (htrips ▸ hroom) }
  · show t.tripWindow ≤ t.now
    rw [hwindow]
    exact Nat.le_trans h.clock.1 hclock.1
  · obtain ⟨hoff, hdue, hstat⟩ := h.stopped (htrips ▸ hfull)
    obtain ⟨hoff', hdue'⟩ := hkeeps.off hoff hdue
    exact ⟨hoff', hdue', hstat⟩

/-- A config is applied: no trips are handled since. -/
theorem applyConfig (h : r.Counted) (started : Bool) (ht : (r.task.applyConfig started).Sound)
    {statState : StatState} (hstat : statState ≠ .overload) :
    (⟨r.task.applyConfig started, statState, []⟩ : Reported).Counted := by
  obtain ⟨hcounter, hnow, huptime⟩ := r.task.applyConfig_counter started
  obtain ⟨hwindow, htrips⟩ := Counter.mk.inj hcounter
  refine
    { sound := ht
      counts := ?_
      clock := ?_
      stopped := fun hfull => ?_
      reported := fun _ => hstat }
  · show Counts overloadWindowMs overloadTrips (r.task.applyConfig started).counter []
    rw [hcounter]
    exact counts_nil (by decide) _
  · show (r.task.applyConfig started).tripWindow ≤ _ ∧ _
    rw [hwindow, hnow, huptime]
    exact h.clock
  · exact absurd (htrips ▸ hfull) (by decide)

/-- A trip is handled while the panel runs, so there is room for it in the count. -/
theorem tripStop (h : r.Counted) (hrunning : r.task.running = true) (ht : r.task.tripStop.Sound) :
    (⟨r.task.tripStop, if r.task.tripStop.trips ≥ overloadTrips then .overload else r.statState,
      r.handled ++ [⟨r.task.now, r.task.tripStop.tripWindow⟩]⟩ : Reported).Counted := by
  obtain ⟨hcounter, hnow, huptime, hoff, hdue⟩ := r.task.tripStop_spec
  have hroom : r.task.trips < overloadTrips := by
    by_contra hfull
    have hstopped := (h.stopped (Nat.le_of_not_lt hfull)).1
    rw [hrunning] at hstopped
    cases hstopped
  have hadd := h.counts.add (by decide) hroom h.clock.1
  rw [← hcounter] at hadd
  refine
    { sound := ht
      counts := hadd
      clock := ⟨?_, ?_⟩
      stopped := fun hfull => ⟨hoff, hdue hfull, if_pos hfull⟩
      reported := fun hlt => ?_ }
  · obtain ⟨hwindow, -⟩ := Counter.mk.inj hcounter
    show r.task.tripStop.tripWindow ≤ r.task.tripStop.now
    rw [hwindow, hnow]
    exact Counter.start_add_le h.clock.1
  · exact h.clock.2
  · show (if r.task.tripStop.trips ≥ overloadTrips then StatState.overload else r.statState) ≠ _
    rw [if_neg (Nat.not_le_of_lt hlt)]
    exact h.reported hroom

/-- Only a panel with room in its count is due again. -/
theorem restart (h : r.Counted) (hdue : r.task.restartAt ≠ 0) (started : Bool) {pc : TaskPc}
    (ht : { { r.task with restartAt := 0 }.hub75Start r.task.active started with pc := pc }.Sound) :
    (⟨{ { r.task with restartAt := 0 }.hub75Start r.task.active started with pc := pc },
      startedStat r.task.active started, r.handled⟩ : Reported).Counted := by
  obtain ⟨hcounter, hnow, huptime⟩ := Task.hub75Start_counter
    (s := { r.task with restartAt := 0 }) r.task.active started
  obtain ⟨hwindow, htrips⟩ := Counter.mk.inj hcounter
  refine
    { sound := ht
      counts := ?_
      clock := ?_
      stopped := fun hfull => ?_
      reported := fun _ => startedStat_ne_overload _ _ }
  · show Counts overloadWindowMs overloadTrips
      ({ r.task with restartAt := 0 }.hub75Start r.task.active started).counter r.handled
    rw [hcounter]
    exact h.counts
  · show (Task.hub75Start _ _ _).tripWindow ≤ (Task.hub75Start _ _ _).now ∧
      (Task.hub75Start _ _ _).now ≤ (Task.hub75Start _ _ _).uptime
    rw [hwindow, hnow, huptime]
    exact h.clock
  · have hfull' : overloadTrips ≤ r.task.trips := htrips ▸ hfull
    exact absurd (h.stopped hfull').2.1 hdue

/-- **An access of the loop.** -/
theorem access (h : r.Counted) (err : ℤ) (started : Bool) : (r.access err started).Counted := by
  have ht := h.sound.task err started
  have hat := h.sound.place
  unfold Task.At at hat
  unfold Reported.access
  cases hpc : r.task.pc with
  | apply =>
      have hstep : r.task.task err started = r.task.applyConfig started := by
        unfold Task.task
        rw [hpc]
      rw [hstep] at ht ⊢
      refine h.applyConfig started ht ?_
      split
      · exact startedStat_ne_overload _ _
      · exact fun h => by cases h
  | tripStop =>
      have hstep : r.task.task err started = r.task.tripStop := by
        unfold Task.task
        rw [hpc]
      rw [hpc] at hat
      rw [hstep] at ht ⊢
      exact h.tripStop hat.2.1 ht
  | restart =>
      have hstep : r.task.task err started =
          { { r.task with restartAt := 0 }.hub75Start r.task.active started with pc := .take } := by
        simp only [Task.task, hpc]
      rw [hpc] at hat
      rw [hstep] at ht ⊢
      exact h.restart hat.2.2 started ht
  | _ =>
      exact h.keeps ht (Task.keeps_task err started (by rw [hpc]; decide) (by rw [hpc]; decide)
        (by rw [hpc]; decide))

theorem apply (h : r.Counted) (e : TaskStep) (hposs : r.task.Possible e) : (r.apply e).Counted := by
  cases e with
  | task err started => exact h.access err started
  | _ => exact h.keeps (h.sound.apply _ hposs) (Task.keeps_apply fun _ _ he => by cases he)

/-- As many trips as the limit in one window are the last, and have stopped the panel. -/
theorem stopsOnBursts_iff (h : r.Counted) : r.StopsOnBursts ↔ r.BurstsInWindow := by
  have hfull : r.Stopped → overloadTrips ≤ r.task.trips := by
    rintro ⟨-, -, hstat⟩
    by_contra hroom
    exact h.reported (Nat.lt_of_not_le hroom) hstat
  constructor
  · intro hstops older burst later hhandled hburst hwithin
    obtain ⟨rfl, hstopped⟩ := hstops.1 older burst later hhandled hburst hwithin
    rw [List.append_nil] at hhandled
    exact h.counts.inWindow (hfull hstopped) hhandled hburst
  · intro hin
    refine ⟨fun older burst later hhandled hburst hwithin => ?_, fun hstopped => ?_⟩
    · obtain ⟨hlast, hcount⟩ := h.counts.reached (by decide) hhandled hburst
        (hin older burst later hhandled hburst hwithin)
      exact ⟨hlast, h.stopped hcount⟩
    · exact h.counts.within (hfull hstopped)

end Reported.Counted

/-- **When repeated overloads stop the panel.**  After any run, the trips handled since the config
was applied stop the panel for good when as many as the limit lie within the window's length of
each other, and only then, exactly when none of these goes beyond the window that the first of them
was counted in. -/
theorem overload_stops_iff (store : Store) (hub75Generation : BitVec 32) (active : Config)
    {steps : List TaskStep} {r : Reported}
    (h : Run ReportedTrans (.start store hub75Generation active) steps r) :
    r.StopsOnBursts ↔ r.BurstsInWindow := by
  have hcounted : r.Counted := h.invariant (I := Reported.Counted)
    (fun r e _ hr htrans => htrans.2 ▸ hr.apply e htrans.1)
    (Reported.Counted.start store hub75Generation active)
  exact hcounted.stopsOnBursts_iff

/-- The interrupt trips `ms` later, and the loop handles it. -/
def tripAfter (ms : ℕ) : List TaskStep :=
  [.elapse ms, .trip .overrun] ++ List.replicate 7 (.task 0 true)

/-- The restart after it. -/
def restarted : List TaskStep := [.elapse 200, .timeout] ++ List.replicate 7 (.task 0 true)

/-- The default panel is set up, and trips three times within a second. -/
def tripsInOneWindow : List TaskStep :=
  List.replicate 9 (.task 0 true) ++ tripAfter 1000 ++ restarted ++ tripAfter 200 ++ restarted ++
    tripAfter 200

theorem overload_stops_iff_stopped :
    (tripsInOneWindow.foldl Reported.apply (.start .empty 0 hub75Default)).Stopped ∧
      ((tripsInOneWindow.foldl Reported.apply (.start .empty 0 hub75Default)).StopsOnBursts ↔
        (tripsInOneWindow.foldl Reported.apply (.start .empty 0 hub75Default)).BurstsInWindow) := by
  have hrun : Run ReportedTrans (.start .empty 0 hub75Default) tripsInOneWindow
      (tripsInOneWindow.foldl Reported.apply (.start .empty 0 hub75Default)) :=
    Run.of_along Reported.apply (fun r e => r.task.Possible e) (fun _ _ h => ⟨h, rfl⟩)
      (by decide +kernel)
  exact ⟨by decide +kernel, overload_stops_iff .empty 0 hub75Default hrun⟩

/-- The first trip comes a second before the window that began at boot expires, the others at most
two seconds after it. -/
def tripsAcrossWindows : List TaskStep :=
  List.replicate 9 (.task 0 true) ++ tripAfter 9000 ++ restarted ++ tripAfter 1300 ++ restarted ++
    tripAfter 300

/-- The third trip within two seconds, and the panel is due again. -/
theorem burst_restarts :
    Run ReportedTrans (.start .empty 0 hub75Default) tripsAcrossWindows
        (tripsAcrossWindows.foldl Reported.apply (.start .empty 0 hub75Default)) ∧
      (tripsAcrossWindows.foldl Reported.apply (.start .empty 0 hub75Default)).handled =
        [⟨9000, 0⟩, ⟨10500, 10500⟩, ⟨11000, 10500⟩] ∧
      Within overloadWindowMs [⟨9000, 0⟩, ⟨10500, 10500⟩, ⟨11000, 10500⟩] ∧
      (tripsAcrossWindows.foldl Reported.apply (.start .empty 0 hub75Default)).task.restartAt =
        11200 ∧
      ¬ (tripsAcrossWindows.foldl Reported.apply (.start .empty 0 hub75Default)).StopsOnBursts := by
  have hhandled : (tripsAcrossWindows.foldl Reported.apply
      (.start .empty 0 hub75Default)).handled =
        [⟨9000, 0⟩, ⟨10500, 10500⟩, ⟨11000, 10500⟩] := by
    decide +kernel
  refine ⟨?_, hhandled, by decide, by decide +kernel, fun hstops => ?_⟩
  · exact Run.of_along Reported.apply (fun r e => r.task.Possible e) (fun _ _ h => ⟨h, rfl⟩)
      (by decide +kernel)
  · have hstopped := (hstops.1 [] _ [] (hhandled.trans (List.append_nil _).symm) rfl
      (by decide)).2.2.1
    revert hstopped
    decide +kernel

end NodemFirmware.Hub75
