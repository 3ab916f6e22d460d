import NodemFirmware.Lib.Semaphore
import NodemFirmware.Hub75.Refresh

/-! # hub75_task

The loop that sets the panel up from its config, keeps it off while it is held, and starts it
again after the interrupt has switched itself off.

* `Task` has every access to what the loop shares with other threads and the interrupt as a step
  of its own; `hub75_config_set` and `hub75_task_hold` are split in the same way.
* What the loop draws uses none of these variables, so a pass goes from `restart` to `take`.
* `Task.Sound` is what every step keeps.
* `panel_runs_as_configured`: the panel runs only under the config that was read last, with no
  hold seen, is started only while stopped, and pays only for its own overloads. -/

namespace NodemFirmware.Hub75

open CText ConfigStore Semaphore Transition

def overloadRestartMs : ℕ := 200
def overloadTrips : ℕ := 3
def overloadWindowMs : ℕ := 10000

def hub75WakeLimit : ℕ := 1

/-- What `hub75_config_read` makes of the stored value. -/
def storedConfig (st : Store) : Option Config := (hub75ConfigRead st 0).1

/-- A panel: how many times a config had been applied when it was started, and which start it
was. -/
structure Panel where
  setups : ℕ
  starts : ℕ
deriving DecidableEq, Repr

/-- Where `hub75_task` is: the shared access it is at. -/
inductive TaskPc where
  /-- `atomic_get(&hub75_hold)`. -/
  | top
  | holdStop
  /-- `atomic_inc(&hub75_generation)`, on the release. -/
  | release
  /-- `atomic_get(&hub75_generation) != generation`. -/
  | check
  | readGeneration
  | readConfig
  /-- The default is stored for a value that is missing or malformed. -/
  | resetConfig
  | applyStop
  | apply
  /-- `atomic_set(&hub75_overload, OVERLOAD_NONE)`. -/
  | overload
  /-- `k_uptime_get`. -/
  | clock
  | tripStop
  | restart
  /-- `k_sem_take(&hub75_wake, ...)`. -/
  | take
  | wake
deriving DecidableEq, Repr

/-- What the loop shares, the driver's state, the loop's own variables (`tripped` is its
`overload`, `config` what it read last), and the calls of other threads that are partway: stored
and not counted, counted and not given, held or released and not given.  The last fields record
the running panel, the one that raised the overload and the one of the overload taken, each trip
that was charged with the panel that paid for it, whether a panel was running at each start, the
config that was applied last, and the changes counted since the loop read the generation, and in
this pass. -/
structure Task where
  pc : TaskPc
  store : Store
  hub75Generation : BitVec 32
  hub75Hold : Bool
  hub75Overload : Overload
  hub75Wake : Sem
  uptime : ℕ
  running : Bool
  irq : Bool
  active : Config
  generation : BitVec 32
  held : Bool
  restartAt : ℕ
  tripWindow : ℕ
  trips : ℕ
  now : ℕ
  tripped : Overload
  config : Option Config
  bumps : ℕ
  gives : ℕ
  holdGives : ℕ
  panel : Panel
  raisedBy : Panel
  takenFrom : Panel
  charged : List (Panel × Panel)
  startedRunning : List Bool
  applied : Option (Option Config)
  changes : ℕ
  passChanges : ℕ

inductive TaskStep where
  /-- The loop's next access; the results are those of saving a default config, and of
  `hub75_start`. -/
  | task (err : ℤ) (started : Bool)
  /-- `k_sem_take` times out. -/
  | timeout
  /-- `hub75_config_set` up to its store, of which `err` is the saving's result. -/
  | set (value : CStr) (err : ℤ)
  /-- Its `atomic_inc`. -/
  | bump
  /-- Its give. -/
  | give
  /-- `hub75_task_hold` up to its `atomic_set`. -/
  | hold (hold : Bool)
  /-- Its give. -/
  | holdGive
  /-- The give of `hub75_task_submit`. -/
  | submit
  /-- `hub75_overload_trip`, in the interrupt. -/
  | trip (why : Overload)
  | elapse (ms : ℕ)
deriving DecidableEq

namespace Task

/-- The thread starts: any generation but the current one. -/
def start (store : Store) (hub75Generation : BitVec 32) (active : Config) : Task where
  pc := .top
  store := store
  hub75Generation := hub75Generation
  hub75Hold := false
  hub75Overload := .none
  hub75Wake := .empty
  uptime := 0
  running := false
  irq := false
  active := active
  generation := hub75Generation - 1
  held := false
  restartAt := 0
  tripWindow := 0
  trips := 0
  now := 0
  tripped := .none
  config := none
  bumps := 0
  gives := 0
  holdGives := 0
  panel := ⟨0, 0⟩
  raisedBy := ⟨0, 0⟩
  takenFrom := ⟨0, 0⟩
  charged := []
  startedRunning := []
  applied := none
  changes := 1
  passChanges := 1

/-- `hub75_stop`: the interrupt first. -/
def hub75Stop (s : Task) : Task := { s with irq := false, running := false }

/-- `hub75_start`: without the memory for it the panel stays off. -/
def hub75Start (s : Task) (c : Config) (started : Bool) : Task :=
  let s := { s with active := c, startedRunning := s.startedRunning ++ [s.running] }
  if started then
    { s with
      hub75Overload := .none
      irq := true
      running := true
      panel := { s.panel with starts := s.panel.starts + 1 } }
  else s

/-- Seen held: stopped and not started again.  Seen released: set up as after any change. -/
def readHold (s : Task) : Task :=
  if s.hub75Hold ≠ s.held then
    if s.hub75Hold then
      if s.running then { s with held := true, pc := .holdStop }
      else { s with held := true, restartAt := 0, pc := .check }
    else { s with held := false, pc := .release }
  else { s with pc := .check }

/-- `atomic_inc(&hub75_generation)`. -/
def incGeneration (s : Task) : Task :=
  { s with
    hub75Generation := s.hub75Generation + 1
    changes := s.changes + 1
    passChanges := s.passChanges + 1 }

/-- A config was read: a running panel is stopped first. -/
def gotConfig (s : Task) (c : Option Config) : Task :=
  { s with config := c, pc := if s.running then .applyStop else .apply }

/-- `hub75_config_read`, up to the default's store. -/
def readConfig (s : Task) : Task :=
  let value := configGetStr s.store.entries hub75Key hub75ValueLen [1]
  if value = [1] then { s with pc := .resetConfig }
  else
    match hub75ConfigParse value with
    | .ok c => s.gotConfig c
    | .error _ => { s with pc := .resetConfig }

def resetConfig (s : Task) (err : ℤ) : Task :=
  { s with store := (configSetStr s.store hub75Key hub75DefaultText err).2 }.gotConfig
    (parsedConfig hub75DefaultText)

/-- The config is applied: its panel is started, with no trips so far. -/
def applyConfig (s : Task) (started : Bool) : Task :=
  let s := { s with
    panel := { s.panel with setups := s.panel.setups + 1 }, applied := some s.config }
  let s := match s.config with
    | some c => s.hub75Start c started
    | none => s
  { s with restartAt := 0, trips := 0, pc := .overload }

/-- Whether a panel is due again. -/
def afterTrip (s : Task) : TaskPc :=
  if s.running = false ∧ s.restartAt ≠ 0 ∧ s.restartAt ≤ s.now then .restart else .take

def readClock (s : Task) : Task :=
  let s := { s with now := s.uptime }
  if s.tripped ≠ .none ∧ s.running then { s with pc := .tripStop }
  else { s with pc := s.afterTrip }

/-- The panel is stopped for an overload, and started again later unless it keeps tripping. -/
def tripStop (s : Task) : Task :=
  let expired : Bool := s.tripWindow + overloadWindowMs < s.now
  let trips := (if expired then 0 else s.trips) + 1
  let s := { s.hub75Stop with
    tripWindow := if expired then s.now else s.tripWindow
    trips := trips
    charged := s.charged ++ [(s.takenFrom, s.panel)]
    restartAt := if trips ≥ overloadTrips then 0 else s.now + overloadRestartMs }
  { s with pc := s.afterTrip }

def takeWake (s : Task) : Task := { s with hub75Wake := s.hub75Wake.take, pc := .wake }

def task (s : Task) (err : ℤ) (started : Bool) : Task :=
  match s.pc with
  | .top => { s with passChanges := 0 }.readHold
  | .holdStop => { s.hub75Stop with restartAt := 0, pc := .check }
  | .release => { s.incGeneration with pc := .check }
  | .check =>
      if s.hub75Generation ≠ s.generation ∧ s.held = false then { s with pc := .readGeneration }
      else { s with pc := .overload }
  | .readGeneration =>
      { s with generation := s.hub75Generation, changes := 0, pc := .readConfig }
  | .readConfig => s.readConfig
  | .resetConfig => s.resetConfig err
  | .applyStop => { s.hub75Stop with pc := .apply }
  | .apply => s.applyConfig started
  | .overload =>
      { s with
        tripped := s.hub75Overload, takenFrom := s.raisedBy, hub75Overload := .none,
        pc := .clock }
  | .clock => s.readClock
  | .tripStop => s.tripStop
  | .restart => { { s with restartAt := 0 }.hub75Start s.active started with pc := .take }
  | .take => s.takeWake
  | .wake => { s with pc := .top }

def giveWake (s : Task) : Task := { s with hub75Wake := s.hub75Wake.give hub75WakeLimit }

/-- Only a set that succeeds is counted and gives. -/
def set (s : Task) (value : CStr) (err : ℤ) : Task :=
  let r := hub75ConfigSet s.store value err
  { s with store := r.2, bumps := if r.1 = 0 then s.bumps + 1 else s.bumps }

def apply (s : Task) : TaskStep → Task
  | .task err started => s.task err started
  | .timeout => { s with hub75Wake := s.hub75Wake.timeout }
  | .set value err => s.set value err
  | .bump => { s.incGeneration with bumps := s.bumps - 1, gives := s.gives + 1 }
  | .give => { s.giveWake with gives := s.gives - 1 }
  | .hold hold =>
      { s with
        hub75Hold := hold,
        holdGives := if s.hub75Hold ≠ hold then s.holdGives + 1 else s.holdGives }
  | .holdGive => { s.giveWake with holdGives := s.holdGives - 1 }
  | .submit => s.giveWake
  | .trip why => { s.giveWake with irq := false, hub75Overload := why, raisedBy := s.panel }
  | .elapse ms => { s with uptime := s.uptime + ms }

/-- A wait ends by a give, or by its timeout unless there is nothing to wait for; the interrupt
comes while it is enabled. -/
def Possible (s : Task) : TaskStep → Prop
  | .task _ _ => s.pc = .wake → s.hub75Wake.pending = false
  | .timeout => s.pc = .wake ∧ s.hub75Wake.pending = true ∧ (s.running = true ∨ s.restartAt ≠ 0)
  | .bump => 0 < s.bumps
  | .give => 0 < s.gives
  | .holdGive => 0 < s.holdGives
  | .trip why => s.irq = true ∧ why ≠ .none
  | _ => True

instance (s : Task) : (e : TaskStep) → Decidable (s.Possible e)
  | .task _ _ => inferInstanceAs (Decidable (_ → _))
  | .timeout => inferInstanceAs (Decidable (_ ∧ _))
  | .bump => inferInstanceAs (Decidable (_ < _))
  | .give => inferInstanceAs (Decidable (_ < _))
  | .holdGive => inferInstanceAs (Decidable (_ < _))
  | .trip _ => inferInstanceAs (Decidable (_ ∧ _))
  | .set _ _ | .hold _ | .submit | .elapse _ => .isTrue trivial

end Task

def TaskTrans (s : Task) (e : TaskStep) (s' : Task) : Prop := s.Possible e ∧ s' = s.apply e

namespace Task

/-! ### What every step keeps -/

/-- Outside of a change: the panel that runs, and the one that is due again, are those of the
config that was read last. -/
def Settled (s : Task) : Prop :=
  (s.running = true → s.held = false ∧ s.config = some s.active) ∧
    (s.restartAt ≠ 0 → s.config = some s.active)

/-- What the loop counts on where it is. -/
def At (s : Task) : Prop :=
  match s.pc with
  | .holdStop => s.running = true
  | .readGeneration | .readConfig | .resetConfig => s.Settled ∧ s.held = false
  | .applyStop => s.held = false
  | .apply => s.held = false ∧ s.running = false
  | .clock => s.Settled ∧ (s.tripped ≠ .none → s.running = true → s.takenFrom = s.panel)
  | .tripStop => s.Settled ∧ s.running = true ∧ s.takenFrom = s.panel
  | .restart => s.Settled ∧ s.running = false ∧ s.restartAt ≠ 0
  | _ => s.Settled

/-- How many trips panels of this setup have paid for. -/
def tripsOf (charged : List (Panel × Panel)) (setups : ℕ) : ℕ :=
  charged.countP (·.2.setups = setups)

structure Sound (s : Task) : Prop where
  irq : s.irq = true → s.running = true
  restart : s.restartAt ≠ 0 → s.running = false ∧ s.held = false ∧ s.trips < overloadTrips
  raised : s.hub75Overload ≠ .none → s.running = true → s.raisedBy = s.panel
  charged : ∀ p ∈ s.charged, p.1 = p.2
  trips : s.trips ≤ tripsOf s.charged s.panel.setups
  starts : ∀ r ∈ s.startedRunning, r = false
  place : s.At

variable {s t : Task}

theorem start_sound (store : Store) (hub75Generation : BitVec 32) (active : Config) :
    (start store hub75Generation active).Sound where
  irq := nofun
  restart := fun h => absurd rfl h
  raised := fun h => absurd rfl h
  charged := nofun
  trips := Nat.le_refl _
  starts := nofun
  place := ⟨nofun, fun h => absurd rfl h⟩

namespace Sound

/-- A hold that is seen stops the panel; a release leads to the next apply. -/
theorem readHold (h : s.Sound) (hat : s.Settled) : s.readHold.Sound := by
  unfold Task.readHold
  split_ifs with hchanged hhold hrunning
  · refine { h with restart := fun hr => ?_, place := hrunning }
    rw [(h.restart hr).1] at hrunning
    cases hrunning
  · exact { h with
      restart := fun hr => absurd rfl hr
      place := ⟨fun hr => absurd hr hrunning, fun hr => absurd rfl hr⟩ }
  · exact { h with
      restart := fun hr => ⟨(h.restart hr).1, rfl, (h.restart hr).2.2⟩
      place := ⟨fun hr => ⟨rfl, (hat.1 hr).2⟩, hat.2⟩ }
  · exact { h with place := hat }

theorem holdStop (h : s.Sound) :
    { s.hub75Stop with restartAt := 0, pc := .check }.Sound :=
  { h with
    irq := nofun
    restart := fun hr => absurd rfl hr
    raised := fun _ => nofun
    place := ⟨nofun, fun hr => absurd rfl hr⟩ }

/-- A panel of another config is stopped before the start. -/
theorem gotConfig (h : s.Sound) (hheld : s.held = false) (c : Option Config) :
    (s.gotConfig c).Sound := by
  unfold Task.gotConfig
  split_ifs with hrunning
  · exact { h with place := hheld }
  · exact { h with place := ⟨hheld, by simpa using hrunning⟩ }

theorem readConfig (h : s.Sound) (hat : s.Settled ∧ s.held = false) : s.readConfig.Sound := by
  unfold Task.readConfig
  simp only
  split_ifs
  · exact { h with place := hat }
  · split
    · exact h.gotConfig hat.2 _
    · exact { h with place := hat }

theorem resetConfig (h : s.Sound) (hat : s.Settled ∧ s.held = false) (err : ℤ) :
    (s.resetConfig err).Sound := by
  have hstored : { s with
      store := (configSetStr s.store hub75Key hub75DefaultText err).2 }.Sound := by
    refine { h with place := ?_ }
    exact h.place
  exact hstored.gotConfig hat.2 _

/-- A start, only ever of a stopped panel. -/
theorem hub75Start (h : s.Sound) (hoff : s.running = false) (hheld : s.held = false) (c : Config)
    (started : Bool) (hrestart : s.restartAt = 0) (hconfig : s.config = some c) (pc : TaskPc)
    (hpc : ∀ t : Task, t.pc = pc → t.Settled → t.At) :
    { s.hub75Start c started with pc := pc }.Sound := by
  have hstarts : ∀ r ∈ s.startedRunning ++ [s.running], r = false := by
    intro r hr
    rcases List.mem_append.mp hr with hr | hr
    · exact h.starts r hr
    · exact (List.mem_singleton.mp hr).trans hoff
  unfold Task.hub75Start
  cases started with
  | true =>
      exact
        { irq := fun _ => rfl
          restart := fun hr => absurd hrestart hr
          raised := fun hr => absurd rfl hr
          charged := h.charged
          trips := h.trips
          starts := hstarts
          place := hpc _ rfl ⟨fun _ => ⟨hheld, hconfig⟩, fun _ => hconfig⟩ }
  | false =>
      exact { h with
        starts := hstarts
        place := hpc _ rfl ⟨fun hr => absurd (hoff.symm.trans hr) Bool.false_ne_true,
          fun _ => hconfig⟩ }

/-- The end of a change: no trips are charged to its panel yet. -/
theorem applyConfig (h : s.Sound) (hat : s.held = false ∧ s.running = false) (started : Bool) :
    (s.applyConfig started).Sound := by
  have hset : { s with
      panel := { s.panel with setups := s.panel.setups + 1 }
      applied := some s.config
      restartAt := 0
      trips := 0
      pc := .overload }.Sound :=
    { h with
      restart := fun hr => absurd rfl hr
      raised := fun _ hr => absurd (hat.2.symm.trans hr) Bool.false_ne_true
      trips := Nat.zero_le _
      place := ⟨fun hr => absurd (hat.2.symm.trans hr) Bool.false_ne_true,
        fun hr => absurd rfl hr⟩ }
  unfold Task.applyConfig
  cases hconfig : s.config with
  | none => simpa only [hconfig] using hset
  | some c =>
      have hstart := hset.hub75Start hat.2 hat.1 c started rfl hconfig .overload
        (fun t ht hsettled => by simpa only [At, ht] using hsettled)
      simp only [hconfig] at hstart
      cases started <;> exact hstart

/-- Where the loop goes on from what the trip left. -/
theorem afterTrip (h : s.Sound) (hat : s.Settled) : { s with pc := s.afterTrip }.Sound := by
  refine { h with place := ?_ }
  unfold Task.afterTrip
  split_ifs with hdue
  · exact ⟨hat, hdue.1, hdue.2.1⟩
  · exact hat

theorem readClock (h : s.Sound)
    (hat : s.Settled ∧ (s.tripped ≠ .none → s.running = true → s.takenFrom = s.panel)) :
    s.readClock.Sound := by
  have hnow : { s with now := s.uptime }.Sound := { h with place := h.place }
  unfold Task.readClock
  simp only
  split_ifs with htrip
  · exact { h with place := ⟨hat.1, htrip.2, hat.2 htrip.1 htrip.2⟩ }
  · exact hnow.afterTrip hat.1

/-- The panel that raised the overload pays for it: one more trip of its setup. -/
theorem charge (h : s.Sound) (hat : s.Settled ∧ s.running = true ∧ s.takenFrom = s.panel)
    {trips restartAt : ℕ} (htrips : trips ≤ s.trips)
    (hrestart : restartAt ≠ 0 → trips + 1 < overloadTrips) (tripWindow : ℕ) :
    { s.hub75Stop with
      tripWindow := tripWindow
      trips := trips + 1
      charged := s.charged ++ [(s.takenFrom, s.panel)]
      restartAt := restartAt
      pc := .take }.Sound := by
  obtain ⟨hsettled, hrunning, htaken⟩ := hat
  obtain ⟨hheld, hconfig⟩ := hsettled.1 hrunning
  refine { h with
    irq := nofun
    restart := fun hr => ⟨rfl, hheld, hrestart hr⟩
    raised := fun _ => nofun
    charged := fun p hp => ?_
    trips := ?_
    place := ⟨nofun, fun _ => hconfig⟩ }
  · rcases List.mem_append.mp hp with hp | hp
    · exact h.charged p hp
    · rw [List.mem_singleton.mp hp]
      exact htaken
  · have hcount := h.trips
    show trips + 1 ≤ tripsOf (s.charged ++ [(s.takenFrom, s.panel)]) s.panel.setups
    rw [tripsOf, List.countP_append, List.countP_singleton, if_pos (decide_eq_true rfl)]
    exact Nat.add_le_add_right (Nat.le_trans htrips hcount) 1

theorem tripStop (h : s.Sound) (hat : s.Settled ∧ s.running = true ∧ s.takenFrom = s.panel) :
    s.tripStop.Sound := by
  have htrips : (if (decide (s.tripWindow + overloadWindowMs < s.now) : Bool) then 0
      else s.trips) ≤ s.trips := by
    split_ifs
    · exact Nat.zero_le _
    · exact Nat.le_refl _
  unfold Task.tripStop
  simp only
  refine (h.charge hat htrips (fun hr => ?_) _).afterTrip ⟨nofun, fun _ => (hat.1.1 hat.2.1).2⟩
  by_contra hlimit
  exact hr (if_pos (Nat.le_of_not_lt hlimit))

/-- **A step of the loop.** -/
theorem task (h : s.Sound) (err : ℤ) (started : Bool) : (s.task err started).Sound := by
  have hat := h.place
  unfold At at hat
  unfold Task.task
  cases hpc : s.pc with
  | top =>
      rw [hpc] at hat
      have htop : { s with passChanges := 0 }.Sound := { h with place := h.place }
      exact htop.readHold hat
  | holdStop => exact h.holdStop
  | release =>
      rw [hpc] at hat
      exact { h with place := hat }
  | check =>
      rw [hpc] at hat
      simp only
      split_ifs with hchanged
      · exact { h with place := ⟨hat, hchanged.2⟩ }
      · exact { h with place := hat }
  | readGeneration =>
      rw [hpc] at hat
      exact { h with place := hat }
  | readConfig =>
      rw [hpc] at hat
      exact h.readConfig hat
  | resetConfig =>
      rw [hpc] at hat
      exact h.resetConfig hat err
  | applyStop =>
      rw [hpc] at hat
      exact { h with
        irq := nofun
        restart := fun hr => ⟨rfl, (h.restart hr).2⟩
        raised := fun _ => nofun
        place := ⟨hat, rfl⟩ }
  | apply =>
      rw [hpc] at hat
      exact h.applyConfig hat started
  | overload =>
      rw [hpc] at hat
      exact { h with
        raised := fun hr => absurd rfl hr
        place := ⟨hat, h.raised⟩ }
  | clock =>
      rw [hpc] at hat
      exact h.readClock hat
  | tripStop =>
      rw [hpc] at hat
      exact h.tripStop hat
  | restart =>
      rw [hpc] at hat
      obtain ⟨hsettled, hoff, hdue⟩ := hat
      have hreset : { s with restartAt := 0, pc := .take }.Sound := { h with
        restart := fun hr => absurd rfl hr
        place := ⟨hsettled.1, fun hr => absurd rfl hr⟩ }
      have hstart := hreset.hub75Start hoff (h.restart hdue).2.1 s.active started rfl
        (hsettled.2 hdue) .take (fun t ht ht' => by simpa only [At, ht] using ht')
      cases started <;> exact hstart
  | take =>
      rw [hpc] at hat
      exact { h with place := hat }
  | wake =>
      rw [hpc] at hat
      exact { h with place := hat }

/-- The steps of the other threads and of the interrupt. -/
theorem apply (h : s.Sound) (e : TaskStep) (hposs : s.Possible e) : (s.apply e).Sound := by
  cases e with
  | task err started => exact h.task err started
  | trip why =>
      exact { h with
        irq := nofun
        raised := fun _ _ => rfl
        place := h.place }
  | timeout => exact { h with place := h.place }
  | set value err => exact { h with place := h.place }
  | bump => exact { h with place := h.place }
  | give => exact { h with place := h.place }
  | hold hold => exact { h with place := h.place }
  | holdGive => exact { h with place := h.place }
  | submit => exact { h with place := h.place }
  | elapse ms => exact { h with place := h.place }

end Sound

/-- At `k_sem_take`, and in it. -/
def Waits (s : Task) : Prop := s.pc = .take ∨ s.pc = .wake

instance (s : Task) : Decidable s.Waits := inferInstanceAs (Decidable (_ ∨ _))

end Task

/-- **The panel runs under the config that was read last, and only while no hold is seen**; one
that waits for its restart is such a panel too, and has not tripped too often.  A panel is started
only while stopped, and a trip is charged to the panel that raised it, never to one of a later
setup. -/
theorem panel_runs_as_configured (store : Store) (hub75Generation : BitVec 32) (active : Config)
    {steps : List TaskStep} {s : Task}
    (h : Run TaskTrans (.start store hub75Generation active) steps s) :
    (s.Waits →
      (s.running = true → s.held = false ∧ ∃ c, s.config = some c ∧ s.active = c) ∧
        (s.restartAt ≠ 0 → s.running = false ∧ s.held = false ∧ (∃ c, s.config = some c) ∧
          s.trips < overloadTrips)) ∧
      (∀ running ∈ s.startedRunning, running = false) ∧
      (∀ trip ∈ s.charged, trip.1 = trip.2) ∧
      s.trips ≤ Task.tripsOf s.charged s.panel.setups := by
  have hsound : s.Sound := h.invariant (I := Task.Sound)
    (fun s e _ hs hr => hr.2 ▸ hs.apply e hr.1) (Task.start_sound store hub75Generation active)
  refine ⟨fun hwaits => ?_, hsound.starts, hsound.charged, hsound.trips⟩
  have hsettled : s.Settled := by
    have hplace := hsound.place
    unfold Task.At at hplace
    rcases hwaits with hpc | hpc <;> rwa [hpc] at hplace
  refine ⟨fun hrunning => ?_, fun hrestart => ?_⟩
  · obtain ⟨hheld, hconfig⟩ := hsettled.1 hrunning
    exact ⟨hheld, s.active, hconfig, rfl⟩
  · obtain ⟨hoff, hheld, htrips⟩ := hsound.restart hrestart
    exact ⟨hoff, hheld, ⟨s.active, hsettled.2 hrestart⟩, htrips⟩

/-- The default panel is set up, trips and is started again; it trips once more while a hold comes
up, and what is left of that trip is dropped. -/
def tripsThenHeld : List TaskStep :=
  List.replicate 9 (.task 0 true) ++ [.trip .overrun] ++ List.replicate 7 (.task 0 true) ++
    [.elapse 200, .timeout] ++ List.replicate 7 (.task 0 true) ++
    [.trip .stuck, .hold true, .holdGive] ++ List.replicate 7 (.task 0 true)

theorem panel_runs_as_configured_held :
    (tripsThenHeld.foldl Task.apply (.start .empty 0 hub75Default)).charged =
        [(⟨1, 1⟩, ⟨1, 1⟩)] ∧
      (tripsThenHeld.foldl Task.apply (.start .empty 0 hub75Default)).startedRunning =
        [false, false] ∧
      ∀ trip ∈ (tripsThenHeld.foldl Task.apply (.start .empty 0 hub75Default)).charged,
        trip.1 = trip.2 := by
  have hrun : Run TaskTrans (.start .empty 0 hub75Default) tripsThenHeld
      (tripsThenHeld.foldl Task.apply (.start .empty 0 hub75Default)) :=
    Run.of_along Task.apply Task.Possible (fun _ _ h => ⟨h, rfl⟩) (by decide +kernel)
  exact ⟨by decide +kernel, by decide +kernel,
    (panel_runs_as_configured .empty 0 hub75Default hrun).2.2.1⟩

end NodemFirmware.Hub75
