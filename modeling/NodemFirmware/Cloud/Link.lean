import NodemFirmware.Cloud.Task

/-! # Losing the link

`Watched` is the modem task with a record of what it does after an attempt has failed, or a
channel has ended, while `g_pdn_up` was 0.

* `givesUp_next` says which step comes next.
* `Offline` is the invariant: until the link is back the task does not leave `MODEM_STEP_PDN`. -/

namespace NodemFirmware.Cloud

open CText Transition

/-- A step in which a TLS or a websocket attempt fails, or `websocket_supervise` returns. -/
def Modem.givesUp (m : Modem) (inp : ModemInput) : Bool :=
  match m.modem with
  | .top .websocket => m.gTlsFd.isNone
  | .tlsConnect => inp.err ≠ 0
  | .wsConnect _ _ _ => inp.err ≠ 0
  | .supervise _ => registrationPending m.ram
  | .superviseLink _ => !m.gPdnUp
  | .supervisePing _ => inp.due && inp.err ≠ 0
  | .superviseSend _ => inp.due && inp.err ≠ 0
  | .superviseRecv _ => inp.err ≠ 0
  | _ => false

/-- The step of `enum modem_step` that begins here. -/
def ModemPc.begins : ModemPc → Option ModemStep
  | top step => some step
  | _ => none

/-- The one that is to begin next. -/
def ModemPc.nextStep : ModemPc → Option ModemStep
  | top step => some step
  | retry step => some (if step = .websocket then .tls else step)
  | _ => none

/-- Where `websocket_supervise` looks at the link. -/
def ModemPc.checksLink : ModemPc → Bool
  | superviseLink _ => true
  | _ => false

/-- `waiting` from the moment the task gave up with the link down to the next step, and `stalled`
for as long as the link has been down since.  `nexts` lists the steps that came next, and
`connects` counts the TLS connections started while `stalled`. -/
structure Watched where
  modem : Modem
  waiting : Bool
  stalled : Bool
  nexts : List ModemStep
  connects : ℕ

def Watched.start (flash : Keys) : Watched := ⟨.start flash, false, false, [], 0⟩

/-- A step of `modem_task`. -/
def Watched.task (w : Watched) (inp : ModemInput) : Watched :=
  let lost := w.modem.givesUp inp && !w.modem.gPdnUp
  let begins := w.modem.modem.begins
  { modem := modemStep w.modem inp
    waiting := lost || (w.waiting && begins.isNone)
    stalled := lost || w.stalled
    nexts := if w.waiting then w.nexts ++ begins.toList else w.nexts
    connects := if w.stalled ∧ w.modem.modem = .tlsConnect then w.connects + 1 else w.connects }

def Watched.apply (w : Watched) : ModemEvent → Watched
  | .task inp => w.task inp
  | .reset => { w with modem := w.modem.reset, waiting := false, stalled := false }
  | e => { w with modem := e.apply w.modem, stalled := w.stalled && !(e.apply w.modem).gPdnUp }

def WatchedTrans (w : Watched) (e : ModemEvent) (w' : Watched) : Prop :=
  e.Possible w.modem ∧ w' = w.apply e

/-- A channel or an attempt that ends with the link down ends where the link is looked at. -/
def ModemEvent.LinkChecked (w : Watched) : ModemEvent → Prop
  | task inp => w.modem.givesUp inp = true → w.modem.gPdnUp = false →
      w.modem.modem.checksLink = true
  | _ => True

instance (w : Watched) : (e : ModemEvent) → Decidable (e.LinkChecked w)
  | .task _ => inferInstanceAs (Decidable (_ → _))
  | .command _ => .isTrue trivial
  | .host _ => .isTrue trivial
  | .reg _ _ => .isTrue trivial
  | .lte _ _ => .isTrue trivial
  | .reset => .isTrue trivial

/-- After giving up with the link down, `MODEM_STEP_PDN` comes next and no TLS connection is
started before the link is back. -/
def Watched.Reconnects (w : Watched) : Prop :=
  (∀ step ∈ w.nexts, step = .pdn) ∧ w.connects = 0

/-! ### What comes next -/

variable {m : Modem} {w : Watched}

/-- **What comes after giving up:** `MODEM_STEP_PDN` from where the link is looked at, and
`MODEM_STEP_TLS` from everywhere else. -/
theorem givesUp_next {inp : ModemInput} (h : m.givesUp inp = true) :
    (modemStep m inp).modem.nextStep =
      some (if m.modem.checksLink then .pdn else .tls) := by
  rw [modemStep_modem]
  unfold Modem.givesUp at h
  unfold Modem.nextPc
  cases hpc : m.modem with
  | top step =>
      cases step with
      | websocket =>
          simp only [hpc, Option.isNone_iff_eq_none] at h
          simp only [h]
          rfl
      | _ =>
          rw [hpc] at h
          cases h
  | tlsConnect =>
      simp only [hpc, decide_eq_true_eq] at h
      simp only [if_pos h]
      rfl
  | wsConnect fd id secret =>
      simp only [hpc, decide_eq_true_eq] at h
      simp only [if_pos h]
      rfl
  | supervise ws =>
      simp only [hpc] at h
      simp only [h]
      rfl
  | superviseLink ws =>
      simp only [hpc] at h
      simp only [h]
      rfl
  | supervisePing ws =>
      simp only [hpc, Bool.and_eq_true, decide_eq_true_eq] at h
      simp only [if_pos h]
      rfl
  | superviseSend ws =>
      simp only [hpc, Bool.and_eq_true, decide_eq_true_eq] at h
      simp only [if_pos h]
      rfl
  | superviseRecv ws =>
      simp only [hpc, decide_eq_true_eq] at h
      simp only [if_pos h]
      rfl
  | _ =>
      rw [hpc] at h
      cases h

/-- Where the task is without a link. -/
def ModemPc.offline : ModemPc → Bool
  | top step => step = .pdn
  | retry step => step = .pdn
  | pdnCheck => true
  | pdnWait => true
  | pdnPoll => true
  | _ => false

theorem ModemPc.offline_of_nextStep {pc : ModemPc} (h : pc.nextStep = some .pdn) :
    pc.offline = true := by
  cases pc with
  | top step =>
      cases h
      rfl
  | retry step =>
      cases step <;> first | rfl | cases h
  | _ => cases h

theorem ModemPc.nextStep_of_begins {pc : ModemPc} {step : ModemStep} (h : pc.begins = some step) :
    pc.nextStep = some step := by
  cases pc with
  | top step' => exact h
  | _ => cases h

/-- **Without a link** the task does not get past `MODEM_STEP_PDN`. -/
theorem nextPc_offline {inp : ModemInput} (h : m.modem.offline = true) (hdown : m.gPdnUp = false) :
    (m.nextPc inp).offline = true := by
  unfold Modem.nextPc
  cases hpc : m.modem with
  | top step =>
      rw [hpc] at h
      cases step with
      | pdn =>
          simp only
          split_ifs <;> rfl
      | _ => cases h
  | retry step =>
      rw [hpc] at h
      cases step with
      | pdn => rfl
      | _ => cases h
  | pdnCheck =>
      simp only [hdown]
      rfl
  | pdnWait =>
      simp only
      split_ifs <;> rfl
  | pdnPoll =>
      simp only [hdown]
      rfl
  | _ =>
      rw [hpc] at h
      cases h

/-! ### Until the link is back -/

structure Offline (w : Watched) : Prop where
  waiting : w.waiting = true → w.modem.modem.nextStep = some .pdn
  stalled : w.stalled = true → w.modem.gPdnUp = false ∧ w.modem.modem.offline = true
  reconnects : w.Reconnects

theorem Offline.task (h : Offline w) {inp : ModemInput}
    (hlink : (ModemEvent.task inp).LinkChecked w) : Offline (w.task inp) := by
  have hmodem := modemStep_modem w.modem inp
  have hup : (modemStep w.modem inp).gPdnUp = w.modem.gPdnUp := (modemStep_threads w.modem inp).2
  -- Giving up with the link down leads to MODEM_STEP_PDN.
  have hlost : (w.modem.givesUp inp && !w.modem.gPdnUp) = true →
      w.modem.gPdnUp = false ∧ (modemStep w.modem inp).modem.nextStep = some .pdn := by
    intro hboth
    rw [Bool.and_eq_true, Bool.not_eq_true'] at hboth
    obtain ⟨hgives, hdown⟩ := hboth
    refine ⟨hdown, ?_⟩
    rw [givesUp_next hgives, hlink hgives hdown]
    rfl
  refine ⟨?_, ?_, ?_, ?_⟩
  · intro hwaiting
    rcases Bool.or_eq_true_iff.mp hwaiting with hnew | hold
    · exact (hlost hnew).2
    · rw [Bool.and_eq_true] at hold
      have hnext := h.waiting hold.1
      show (modemStep w.modem inp).modem.nextStep = some .pdn
      rw [hmodem]
      unfold Modem.nextPc
      cases hpc : w.modem.modem with
      | retry step =>
          rw [hpc] at hnext
          exact hnext
      | top step =>
          rw [hpc] at hold
          cases hold.2
      | _ =>
          rw [hpc] at hnext
          cases hnext
  · intro hstalled
    show (modemStep w.modem inp).gPdnUp = false ∧ _
    rw [hup]
    rcases Bool.or_eq_true_iff.mp hstalled with hnew | hold
    · exact ⟨(hlost hnew).1, ModemPc.offline_of_nextStep (hlost hnew).2⟩
    · obtain ⟨hdown, hoff⟩ := h.stalled hold
      refine ⟨hdown, ?_⟩
      show (modemStep w.modem inp).modem.offline = true
      rw [hmodem]
      exact nextPc_offline hoff hdown
  · intro step hstep
    unfold Watched.task at hstep
    simp only at hstep
    split_ifs at hstep with hwaiting
    · rcases List.mem_append.mp hstep with hold | hnew
      · exact h.reconnects.1 step hold
      · have hbegins := ModemPc.nextStep_of_begins (Option.mem_toList.mp hnew)
        rw [h.waiting hwaiting] at hbegins
        cases hbegins
        rfl
    · exact h.reconnects.1 step hstep
  · unfold Watched.task
    simp only
    split_ifs with hconnects
    · have hoff := (h.stalled hconnects.1).2
      rw [hconnects.2] at hoff
      cases hoff
    · exact h.reconnects.2

theorem Offline.other (h : Offline w) {m' : Modem} (hs : SameTask w.modem m') :
    Offline { w with modem := m', stalled := w.stalled && !m'.gPdnUp } := by
  refine ⟨?_, ?_, h.reconnects⟩
  · intro hwaiting
    show m'.modem.nextStep = some .pdn
    rw [hs.modem]
    exact h.waiting hwaiting
  · intro hstalled
    obtain ⟨hold, hdown⟩ := Bool.and_eq_true_iff.mp hstalled
    refine ⟨Bool.not_eq_true' _ ▸ hdown, ?_⟩
    show m'.modem.offline = true
    rw [hs.modem]
    exact (h.stalled hold).2

theorem Offline.apply (h : Offline w) {e : ModemEvent} (hlink : e.LinkChecked w) :
    Offline (w.apply e) := by
  cases e with
  | task inp => exact h.task hlink
  | reset =>
      refine ⟨?_, ?_, h.reconnects⟩
      · intro hwaiting
        cases hwaiting
      · intro hstalled
        cases hstalled
  | _ => exact h.other (other_sameTask rfl)

theorem start_offline (flash : Keys) : Offline (.start flash) := by
  refine ⟨?_, ?_, ?_, rfl⟩
  · intro hwaiting
    cases hwaiting
  · intro hstalled
    cases hstalled
  · intro step hstep
    cases hstep

/-- **Losing the link drops back to `MODEM_STEP_PDN`** in a run in which the task gives up with
the link down only where it looks at the link. -/
theorem link_loss_reconnects {flash : Keys} {events : List ModemEvent}
    (h : Run (Guarded WatchedTrans ModemEvent.LinkChecked) (.start flash) events w) :
    w.Reconnects := by
  have hoffline : Offline w := h.invariant (I := Offline)
    (fun s e t hs hr => by
      obtain ⟨hlink, -, rfl⟩ := hr
      exact hs.apply hlink)
    (start_offline flash)
  exact hoffline.reconnects

/-- The link goes while a channel is open. -/
def linkLost : List ModemEvent :=
  registered ++ connects ++ .lte 0 .deactivated :: List.replicate 8 (.task answers)

theorem link_loss_reconnects_connected :
    (linkLost.foldl Watched.apply (.start fun _ => [])).nexts = [.pdn] ∧
      (linkLost.foldl Watched.apply (.start fun _ => [])).Reconnects := by
  have hrun : Run (Guarded WatchedTrans ModemEvent.LinkChecked) (.start fun _ => []) linkLost
      (linkLost.foldl Watched.apply (.start fun _ => [])) :=
    Run.of_along Watched.apply (fun w e => e.LinkChecked w ∧ e.Possible w.modem)
      (fun _ _ h => ⟨h.1, h.2, rfl⟩) (by decide +kernel)
  exact ⟨by decide +kernel, link_loss_reconnects hrun⟩

/-- The link goes as the task is about to open a TLS connection, which then fails. -/
def connectFails : List ModemEvent :=
  [.lte 0 .activated, .reg (cs "ABCDEF") (cs "lamp"), .command .saved, .command .saved] ++
    List.replicate 7 (.task answers) ++
    [.lte 0 .deactivated, .task { answers with err := -Errno.notconn }, .task answers,
      .task answers, .task answers]

/-- **TLS is retried without the link.** -/
theorem connect_retried_offline :
    Run WatchedTrans (.start fun _ => []) connectFails
        (connectFails.foldl Watched.apply (.start fun _ => [])) ∧
      (connectFails.foldl Watched.apply (.start fun _ => [])).nexts = [.tls] ∧
      (connectFails.foldl Watched.apply (.start fun _ => [])).connects = 1 ∧
      ¬ (connectFails.foldl Watched.apply (.start fun _ => [])).Reconnects := by
  have hconnects : (connectFails.foldl Watched.apply (.start fun _ => [])).connects = 1 := by
    decide +kernel
  refine ⟨Run.of_along Watched.apply (fun w e => e.Possible w.modem) (fun _ _ h => ⟨h, rfl⟩)
    (by decide +kernel), by decide +kernel, hconnects, ?_⟩
  intro hreconnects
  have hzero := hreconnects.2
  rw [hconnects] at hzero
  cases hzero

end NodemFirmware.Cloud
