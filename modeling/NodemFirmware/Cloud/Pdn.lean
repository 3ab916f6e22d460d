import NodemFirmware.Lib.Semaphore
import NodemFirmware.Cloud.Task

/-! # Waiting for the packet data network

`lte_lc_evt_handler` records an activation of the default context twice, in `g_pdn_up` and in
`pdn_activated_sem`; `step_pdn_connect` looks at the flag and then takes the semaphore.  Only the
flag is cleared when the context is lost.

* `PdnConnect` is the step function: each statement of the two functions that touches the flag
  or the semaphore is a step of its own.  Events are handled one at a time.
* `Live` says that a list of handled events leaves the default context activated.
* `pdn_connect_live`: the calls that return 0 found a live context exactly in the runs in which
  no take finds a count while the flag is clear. -/

namespace NodemFirmware.Cloud

open Semaphore Transition

/-- An event as the handler gets it: the context and what happened to it. -/
abbrev LteEvent := ℕ × PdnEvent

/-- Where `step_pdn_connect` is; `idle` when it is not called. -/
inductive PdnPc where
  | idle
  | connecting
  | check
  | take
  | wait
deriving DecidableEq, Repr

/-- The flag, the semaphore, and whether the handler has set the one and not yet given the
other.  The last three fields record the events handled so far, those handled by the last check
or take of the call, and each return value with what was handled by then. -/
structure PdnConnect where
  pc : PdnPc
  gPdnUp : Bool
  pdnActivatedSem : Sem
  giving : Bool
  events : List LteEvent
  looked : List LteEvent
  returns : List (ℤ × List LteEvent)
deriving DecidableEq

inductive PdnStep where
  | call
  /-- `lte_lc_connect` returns. -/
  | connected (err : ℤ)
  /-- The next statement of `step_pdn_connect`. -/
  | task
  /-- The ten seconds are over. -/
  | timeout
  /-- An event is handled, up to the give. -/
  | event (e : LteEvent)
  | give
deriving DecidableEq

/-- `K_SEM_DEFINE(pdn_activated_sem, 0, 1)`. -/
def pdnSemLimit : ℕ := 1

/-- `-EAGAIN`, of `k_sem_take`. -/
def semTimedOut : ℤ := -11

namespace PdnConnect

def start : PdnConnect := ⟨.idle, false, .empty, false, [], [], []⟩

/-- The call returns, after a last look at what is recorded in `looked`. -/
def ret (p : PdnConnect) (value : ℤ) : PdnConnect :=
  { p with pc := .idle, returns := p.returns ++ [(value, p.looked)] }

/-- The flag or the semaphore is looked at. -/
def look (p : PdnConnect) : PdnConnect := { p with looked := p.events }

/-- `step_pdn_connect`, after `lte_lc_connect`. -/
def task (p : PdnConnect) : PdnConnect :=
  match p.pc with
  | .check => if p.gPdnUp then p.look.ret 0 else { p.look with pc := .take }
  | .take =>
      let p' := { p.look with pdnActivatedSem := p.pdnActivatedSem.take }
      if p'.pdnActivatedSem.pending then { p' with pc := .wait } else p'.ret 0
  | .wait => p.ret 0
  | _ => p

/-- `lte_lc_evt_handler`, up to the give. -/
def event (p : PdnConnect) (e : LteEvent) : PdnConnect :=
  let p' := { p with events := p.events ++ [e] }
  if e.1 ≠ 0 then p'
  else
    match e.2 with
    | .activated => { p' with gPdnUp := true, giving := true }
    | .deactivated => { p' with gPdnUp := false }
    | .networkDetach => { p' with gPdnUp := false }
    | .ctxDestroyed => { p' with gPdnUp := false }
    | .other => p'

/-- A give to the waiting call is its take. -/
def give (p : PdnConnect) : PdnConnect :=
  { p with
    pdnActivatedSem := p.pdnActivatedSem.give pdnSemLimit
    giving := false
    looked := if p.pdnActivatedSem.pending then p.events else p.looked }

def apply (p : PdnConnect) : PdnStep → PdnConnect
  | .call => { p with pc := .connecting }
  | .connected err => if err ≠ 0 then p.look.ret err else { p with pc := .check }
  | .task => p.task
  | .timeout => { p with pdnActivatedSem := p.pdnActivatedSem.timeout }.look.ret semTimedOut
  | .event e => p.event e
  | .give => p.give

/-- A call waits until a give or its timeout, and an event is handled to its end. -/
def Possible (p : PdnConnect) : PdnStep → Prop
  | .call => p.pc = .idle
  | .connected _ => p.pc = .connecting
  | .task => p.pc = .check ∨ p.pc = .take ∨ p.pc = .wait ∧ p.pdnActivatedSem.pending = false
  | .timeout => p.pc = .wait ∧ p.pdnActivatedSem.pending = true
  | .event _ => p.giving = false
  | .give => p.giving = true

instance (p : PdnConnect) : (e : PdnStep) → Decidable (p.Possible e)
  | .call => inferInstanceAs (Decidable (_ = _))
  | .connected _ => inferInstanceAs (Decidable (_ = _))
  | .task => inferInstanceAs (Decidable (_ ∨ _ ∨ _ ∧ _))
  | .timeout => inferInstanceAs (Decidable (_ ∧ _))
  | .event _ => inferInstanceAs (Decidable (_ = _))
  | .give => inferInstanceAs (Decidable (_ = _))

/-- What a take needs: it finds no count that an activation cancelled since has left. -/
def InTime (p : PdnConnect) (e : PdnStep) : Prop :=
  e = .task → p.pc = .take → 0 < p.pdnActivatedSem.count → p.gPdnUp = true

instance (p : PdnConnect) (e : PdnStep) : Decidable (p.InTime e) :=
  inferInstanceAs (Decidable (_ → _))

end PdnConnect

def PdnTrans (p : PdnConnect) (e : PdnStep) (p' : PdnConnect) : Prop :=
  p.Possible e ∧ p' = p.apply e

/-! ### Live contexts -/

/-- A loss of the default context. -/
def Loses (e : LteEvent) : Prop :=
  e.1 = 0 ∧ (e.2 = .deactivated ∨ e.2 = .networkDetach ∨ e.2 = .ctxDestroyed)

/-- The default context was activated, and not lost since. -/
def Live (events : List LteEvent) : Prop :=
  ∃ before after, events = before ++ (0, .activated) :: after ∧ ∀ e ∈ after, ¬ Loses e

theorem not_live_nil : ¬ Live [] := by
  rintro ⟨before, after, h, -⟩
  cases before <;> cases h

theorem live_activated (events : List LteEvent) : Live (events ++ [(0, .activated)]) :=
  ⟨events, [], rfl, fun e he => by cases he⟩

theorem Live.not_loses {events : List LteEvent} {e : LteEvent} (h : Live (events ++ [e])) :
    ¬ Loses e := by
  obtain ⟨before, after, heq, hafter⟩ := h
  rcases List.eq_nil_or_concat after with rfl | ⟨after, e', rfl⟩
  · have he : e = (0, PdnEvent.activated) := by
      simpa using (List.append_inj' heq rfl).2
    subst he
    rintro ⟨-, h | h | h⟩ <;> cases h
  · have he : e = e' := by
      rw [List.concat_eq_append, ← List.cons_append, ← List.append_assoc] at heq
      simpa using (List.append_inj' heq rfl).2
    rw [he]
    exact hafter e' (by simp)

/-- An event that neither activates nor loses the default context changes nothing. -/
theorem live_snoc {events : List LteEvent} {e : LteEvent} (hact : e ≠ (0, .activated))
    (hloses : ¬ Loses e) : Live (events ++ [e]) ↔ Live events := by
  constructor
  · rintro ⟨before, after, heq, hafter⟩
    rcases List.eq_nil_or_concat after with rfl | ⟨after, e', rfl⟩
    · exact absurd (by simpa using (List.append_inj' heq rfl).2) hact
    · rw [List.concat_eq_append, ← List.cons_append, ← List.append_assoc] at heq
      refine ⟨before, after, (List.append_inj' heq rfl).1, ?_⟩
      intro e he
      exact hafter e (by simp [he])
  · rintro ⟨before, after, rfl, hafter⟩
    refine ⟨before, after ++ [e], by simp, ?_⟩
    intro e' he'
    rcases List.mem_append.mp he' with he' | he'
    · exact hafter e' he'
    · rw [List.mem_singleton.mp he']
      exact hloses

/-! ### What the flag and a returned call stand for -/

/-- The flag follows the events; an event that is about to give has set it; and a call that has
been handed the semaphore was so while the context was live. -/
structure PdnConnect.Follows (p : PdnConnect) : Prop where
  up : p.gPdnUp = true ↔ Live p.events
  giving : p.giving = true → p.gPdnUp = true
  sem : p.pdnActivatedSem.Ok pdnSemLimit
  pending : p.pdnActivatedSem.pending = true → p.pc = .wait
  handed : p.pc = .wait → p.pdnActivatedSem.pending = false → Live p.looked

variable {p : PdnConnect}

theorem start_follows : PdnConnect.start.Follows where
  up := ⟨nofun, fun h => absurd h not_live_nil⟩
  giving := fun h => by cases h
  sem := Sem.empty_ok
  pending := fun h => by cases h
  handed := fun h => by cases h

/-- What an event makes of the flag. -/
theorem PdnConnect.event_up (h : p.Follows) (e : LteEvent) :
    (p.event e).gPdnUp = true ↔ Live (p.events ++ [e]) := by
  by_cases hcid : e.1 ≠ 0
  · have hkeep : (p.event e).gPdnUp = p.gPdnUp := by simp [event, hcid]
    rw [hkeep, h.up, live_snoc]
    · rintro rfl
      exact hcid rfl
    · exact fun hl => hcid hl.1
  · obtain ⟨cid, event⟩ := e
    obtain rfl : cid = 0 := by simpa using hcid
    cases event with
    | activated => exact ⟨fun _ => live_activated _, fun _ => rfl⟩
    | deactivated => exact ⟨nofun, fun h => absurd ⟨rfl, by simp⟩ h.not_loses⟩
    | networkDetach => exact ⟨nofun, fun h => absurd ⟨rfl, by simp⟩ h.not_loses⟩
    | ctxDestroyed => exact ⟨nofun, fun h => absurd ⟨rfl, by simp⟩ h.not_loses⟩
    | other =>
        show p.gPdnUp = true ↔ _
        rw [h.up, live_snoc]
        · simp
        · rintro ⟨-, h | h | h⟩ <;> cases h

/-- What an event leaves alone. -/
theorem PdnConnect.event_frame (p : PdnConnect) (e : LteEvent) :
    (p.event e).events = p.events ++ [e] ∧ (p.event e).pc = p.pc ∧
      (p.event e).pdnActivatedSem = p.pdnActivatedSem ∧ (p.event e).looked = p.looked ∧
      (p.event e).returns = p.returns := by
  unfold event
  split_ifs
  · exact ⟨rfl, rfl, rfl, rfl, rfl⟩
  · cases e.2 <;> exact ⟨rfl, rfl, rfl, rfl, rfl⟩

theorem PdnConnect.event_giving (hidle : p.giving = false) {e : LteEvent}
    (h : (p.event e).giving = true) : (p.event e).gPdnUp = true := by
  unfold event at h ⊢
  split_ifs at h ⊢ with hcid
  · rw [hidle] at h
    cases h
  · cases he : e.2 <;> simp_all

namespace PdnConnect.Follows

theorem event (h : p.Follows) (hidle : p.giving = false) (e : LteEvent) :
    (p.event e).Follows := by
  obtain ⟨hevents, hpc, hsem, hlooked, -⟩ := p.event_frame e
  refine ⟨?_, event_giving hidle, ?_, ?_, ?_⟩
  · rw [hevents]
    exact event_up h e
  · rw [hsem]
    exact h.sem
  · rw [hsem, hpc]
    exact h.pending
  · rw [hsem, hpc, hlooked]
    exact h.handed

theorem give (h : p.Follows) (hgiving : p.giving = true) : p.give.Follows := by
  refine ⟨h.up, nofun, h.sem.give, ?_, ?_⟩
  · intro hpending
    rw [show p.give.pdnActivatedSem.pending = false from Sem.give_pending _ _] at hpending
    cases hpending
  · intro hpc _
    show Live (if p.pdnActivatedSem.pending then p.events else p.looked)
    split_ifs with hpending
    · exact h.up.mp (h.giving hgiving)
    · exact h.handed hpc (by simpa using hpending)

/-- A call that is through: what is left is what the flag says. -/
theorem through (h : p.Follows) {q : PdnConnect} (hup : q.gPdnUp = p.gPdnUp)
    (hevents : q.events = p.events) (hgiving : q.giving = p.giving)
    (hsem : q.pdnActivatedSem.Ok pdnSemLimit) (hpending : q.pdnActivatedSem.pending = false)
    (hpc : q.pc ≠ .wait) : q.Follows := by
  refine ⟨?_, ?_, hsem, ?_, fun h' => absurd h' hpc⟩
  · rw [hup, hevents]
    exact h.up
  · rw [hup, hgiving]
    exact h.giving
  · rw [hpending]
    intro h'
    cases h'

theorem not_pending (h : p.Follows) (hpc : p.pc ≠ .wait) :
    p.pdnActivatedSem.pending = false := by
  by_contra hpending
  exact hpc (h.pending (by simpa using hpending))

end PdnConnect.Follows

/-- Every call that returned 0 did so for a live context. -/
def PdnConnect.Connected (p : PdnConnect) : Prop :=
  ∀ r ∈ p.returns, r.1 = 0 → Live r.2

/-- What a step in time adds to the returns: no 0 but for a live context.  One that is not in
time adds such a 0. -/
def Returned (p p' : PdnConnect) (intime : Prop) : Prop :=
  p'.returns = p.returns ∧ intime ∨
    ∃ r, p'.returns = p.returns ++ [r] ∧ ((r.1 = 0 → Live r.2) ↔ intime)

theorem PdnConnect.connected_iff {p' : PdnConnect} {intime : Prop} (h : Returned p p' intime) :
    p'.Connected ↔ p.Connected ∧ intime := by
  unfold Connected
  obtain ⟨hkeep, hin⟩ | ⟨r, hret, hin⟩ := h
  · rw [hkeep]
    exact ⟨fun h => ⟨h, hin⟩, fun h => h.1⟩
  · rw [hret, ← hin]
    simp only [List.mem_append, List.mem_singleton, or_imp, forall_and, forall_eq]

/-- A step that is not a take. -/
theorem PdnConnect.inTime_of_ne {e : PdnStep} (h : e = .task → p.pc ≠ .take) : p.InTime e :=
  fun he hpc => absurd hpc (h he)

/-- One statement of `step_pdn_connect`. -/
theorem PdnConnect.Follows.task (h : p.Follows) (hposs : p.Possible .task) :
    p.task.Follows ∧ Returned p p.task (p.InTime .task) := by
  rcases hposs with hpc | hpc | ⟨hpc, hwoken⟩
  · -- the check of the flag
    have hidle := h.not_pending (by rw [hpc]; decide)
    have hin : p.InTime .task := PdnConnect.inTime_of_ne fun _ => by rw [hpc]; decide
    simp only [PdnConnect.task, hpc]
    split_ifs with hup
    · refine ⟨h.through rfl rfl rfl h.sem hidle nofun, .inr ⟨_, rfl, ?_⟩⟩
      exact ⟨fun _ => hin, fun _ _ => h.up.mp hup⟩
    · exact ⟨h.through rfl rfl rfl h.sem hidle nofun, .inl ⟨rfl, hin⟩⟩
  · -- the take
    have hidle := h.not_pending (by rw [hpc]; decide)
    have hsem := h.sem.take hidle
    simp only [PdnConnect.task, hpc]
    split_ifs with hpending
    · have hzero := (Sem.take_pending hidle).mp hpending
      refine ⟨⟨h.up, h.giving, hsem, fun _ => rfl, ?_⟩, .inl ⟨rfl, ?_⟩⟩
      · intro _ hnot
        rw [show p.pdnActivatedSem.take.pending = false from hnot] at hpending
        cases hpending
      · intro _ _ hcount
        exact absurd hcount (by omega)
    · have hcount : 0 < p.pdnActivatedSem.count := by
        by_contra hzero
        exact hpending ((Sem.take_pending hidle).mpr (by omega))
      refine ⟨h.through rfl rfl rfl hsem (eq_false_of_ne_true hpending) nofun,
        .inr ⟨_, rfl, ?_⟩⟩
      show (0 = 0 → Live p.events) ↔ _
      rw [← h.up]
      exact ⟨fun hup _ _ _ => hup rfl, fun hin _ => hin rfl hpc hcount⟩
  · -- the semaphore was handed over
    have hin : p.InTime .task := PdnConnect.inTime_of_ne fun _ => by rw [hpc]; decide
    simp only [PdnConnect.task, hpc]
    refine ⟨h.through rfl rfl rfl h.sem hwoken nofun, .inr ⟨_, rfl, ?_⟩⟩
    exact ⟨fun _ => hin, fun _ _ => h.handed hpc hwoken⟩

theorem PdnConnect.Follows.step (h : p.Follows) {e : PdnStep} (hposs : p.Possible e) :
    (p.apply e).Follows ∧ Returned p (p.apply e) (p.InTime e) := by
  have hin : e ≠ .task → p.InTime e := fun hne => inTime_of_ne fun he => absurd he hne
  cases e with
  | call =>
      have hpc : p.pc = .idle := hposs
      have hidle := h.not_pending (by rw [hpc]; decide)
      exact ⟨h.through rfl rfl rfl h.sem hidle nofun, .inl ⟨rfl, hin nofun⟩⟩
  | connected err =>
      have hpc : p.pc = .connecting := hposs
      have hidle := h.not_pending (by rw [hpc]; decide)
      simp only [apply]
      split_ifs with herr
      · refine ⟨h.through rfl rfl rfl h.sem hidle nofun, .inr ⟨_, rfl, ?_⟩⟩
        exact ⟨fun _ => hin nofun, fun _ hzero => absurd hzero herr⟩
      · exact ⟨h.through rfl rfl rfl h.sem hidle nofun, .inl ⟨rfl, hin nofun⟩⟩
  | task => exact h.task hposs
  | timeout =>
      refine ⟨h.through rfl rfl rfl h.sem.timeout rfl nofun, .inr ⟨_, rfl, ?_⟩⟩
      exact ⟨fun _ => hin nofun,
        fun _ hzero => absurd (show semTimedOut = 0 from hzero) (by decide)⟩
  | event e => exact ⟨h.event hposs e, .inl ⟨(p.event_frame e).2.2.2.2, hin nofun⟩⟩
  | give => exact ⟨h.give hposs, .inl ⟨rfl, hin nofun⟩⟩

/-- **The calls that return 0 found a live context** exactly when every take that found a count
found the flag set. -/
theorem pdn_connect_live {steps : List PdnStep} (h : Run PdnTrans .start steps p) :
    p.Connected ↔ Along PdnConnect.apply PdnConnect.InTime .start steps := by
  refine h.along_iff (I := PdnConnect.Follows) (fun _ _ _ hr => hr.2) ?_ start_follows ?_
  · rintro q e - hfollows ⟨hposs, rfl⟩
    obtain ⟨hfollows', hret⟩ := hfollows.step hposs
    exact ⟨hfollows', PdnConnect.connected_iff hret⟩
  · intro r hr
    cases hr

/-- The context is activated while the call waits, then lost, and a second call waits it out. -/
def connectsOnce : List PdnStep :=
  [.call, .connected 0, .task, .task, .event (0, .activated), .give, .task,
    .event (0, .networkDetach), .call, .connected 0, .task, .task, .timeout]

theorem pdn_connect_live_once :
    (connectsOnce.foldl PdnConnect.apply .start).returns.map Prod.fst = [0, semTimedOut] ∧
      (connectsOnce.foldl PdnConnect.apply .start).Connected := by
  have hrun : Run PdnTrans .start connectsOnce (connectsOnce.foldl PdnConnect.apply .start) :=
    Run.of_along PdnConnect.apply PdnConnect.Possible (fun _ _ h => ⟨h, rfl⟩) (by decide)
  exact ⟨by decide, (pdn_connect_live hrun).mpr (by decide)⟩

/-- The first call sees the flag and leaves the count; the second finds it after the loss. -/
def connectsToNothing : List PdnStep :=
  [.call, .event (0, .activated), .give, .connected 0, .task, .event (0, .deactivated),
    .call, .connected 0, .task, .task]

/-- **A count left from a lost context makes `step_pdn_connect` return 0.** -/
theorem left_over_count_connects :
    Run PdnTrans .start connectsToNothing (connectsToNothing.foldl PdnConnect.apply .start) ∧
      (connectsToNothing.foldl PdnConnect.apply .start).returns =
        [(0, [(0, .activated)]), (0, [(0, .activated), (0, .deactivated)])] ∧
      ¬ (connectsToNothing.foldl PdnConnect.apply .start).Connected := by
  have hreturns : (connectsToNothing.foldl PdnConnect.apply .start).returns =
      [(0, [(0, .activated)]), (0, [(0, .activated), (0, .deactivated)])] := by decide
  refine ⟨Run.of_along PdnConnect.apply PdnConnect.Possible (fun _ _ h => ⟨h, rfl⟩) (by decide),
    hreturns, ?_⟩
  intro hconnected
  have hlive : Live ([(0, .activated)] ++ [(0, .deactivated)]) :=
    hconnected _ (by rw [hreturns]; exact List.mem_cons_of_mem _ List.mem_cons_self) rfl
  exact hlive.not_loses ⟨rfl, .inl rfl⟩

end NodemFirmware.Cloud
