import NodemFirmware.Cloud.Sockets

/-! # What the step statuses say about the connection

`g_status` beside `g_tls_fd` and `g_ws_sock` where `modem_task` waits: in the error path's
`k_msleep`, in the poll loop of `MODEM_STEP_PDN`, in `websocket_supervise`.

* `Channel`: the websocket's status and `g_ws_sock` go together, in every run.
* `TlsPlaced`: `MODEM_STEP_TLS` reads `STEP_OK` only where the connection is in use or about to be
  replaced.  Two steps lose it (`ModemEvent.Loses`): a handshake that fails and a channel that ends
  because the PDN link is down close the connection and leave its status.  From then on, up to the
  next `MODEM_STEP_TLS`, the status is `Stale`. -/

namespace NodemFirmware.Cloud

open CText Handles Transition

/-- Where the task sleeps or waits. -/
def ModemPc.waits : ModemPc → Bool
  | retry _ => true
  | pdnPoll => true
  | pc => pc.wsHandle.isSome

/-- `MODEM_STEP_TLS` reads `STEP_OK` only when `g_tls_fd` is an open socket. -/
def TlsMatches (m : Modem) : Prop :=
  (m.status .tls).1 = .ok → ∃ fd host, m.gTlsFd = some fd ∧ m.sockets.kind fd = some (.tls host)

/-- `MODEM_STEP_WEBSOCKET` reads `STEP_OK` exactly when `g_ws_sock` is an open websocket. -/
def WebsocketMatches (m : Modem) : Prop :=
  (m.status .websocket).1 = .ok ↔ ∃ ws, m.gWsSock = some ws ∧ m.sockets.kind ws = some .ws

variable {m m' : Modem}

@[simp] theorem setStatus_self (m : Modem) (step : ModemStep) (state : StepState) (err : ℤ) :
    (m.setStatus step state err).status step = (state, err) := Function.update_self _ _ _

theorem setStatus_other (m : Modem) {step other : ModemStep} (h : other ≠ step)
    (state : StepState) (err : ℤ) : (m.setStatus step state err).status other = m.status other :=
  Function.update_of_ne h _ _

theorem setStr_status (m : Modem) (key : Key) (val : CStr) (save : SaveOutcome) :
    (m.setStr key val save).status = m.status ∧ (m.setStr key val save).gWsSock = m.gWsSock := by
  cases save <;> exact ⟨rfl, rfl⟩

/-- The command thread and the link leave the statuses. -/
theorem other_status {e : ModemEvent} (h : e.byOthers = true) :
    (e.apply m).status = m.status ∧ (e.apply m).gWsSock = m.gWsSock := by
  cases e with
  | command save =>
      simp only [ModemEvent.apply]
      unfold commandStep
      cases m.command with
      | idle => exact ⟨rfl, rfl⟩
      | _ => exact setStr_status m _ _ save
  | host host =>
      simp only [ModemEvent.apply]
      unfold hostCommand
      split_ifs <;> exact ⟨rfl, rfl⟩
  | reg code name =>
      simp only [ModemEvent.apply]
      unfold regCommand
      split_ifs <;> exact ⟨rfl, rfl⟩
  | lte cid event =>
      simp only [ModemEvent.apply]
      unfold lteLcEvtHandler
      cases event <;> split_ifs <;> exact ⟨rfl, rfl⟩
  | _ => cases h

/-! ### The channel -/

/-- `g_ws_sock` is the channel the task runs on, and its step reads `STEP_OK` while it does. -/
structure Channel (m : Modem) : Prop where
  sock : m.gWsSock = m.modem.wsHandle
  status : (m.status .websocket).1 = .ok ↔ m.modem.wsHandle.isSome = true

/-- A step that leaves the channel. -/
theorem Channel.keep (h : Channel m) (hsock : m'.gWsSock = m.gWsSock)
    (hstatus : m'.status .websocket = m.status .websocket)
    (hhandle : m'.modem.wsHandle = m.modem.wsHandle) : Channel m' :=
  ⟨by rw [hsock, hhandle, h.sock], by rw [hstatus, hhandle, h.status]⟩

/-- A step after which there is none. -/
theorem Channel.off (hsock : m'.gWsSock = none) (hstatus : (m'.status .websocket).1 ≠ .ok)
    (hhandle : m'.modem.wsHandle = none) : Channel m' := by
  refine ⟨hsock.trans hhandle.symm, iff_of_false hstatus ?_⟩
  rw [hhandle]
  exact Bool.false_ne_true

theorem Channel.superviseEnd (m : Modem) (ws : ℕ) (next : ModemStep) :
    Channel (superviseEnd m ws next) := .off rfl (fun h => nomatch h) rfl

theorem Channel.superviseCall (h : Channel m) {ws : ℕ} (hws : m.modem.wsHandle = some ws)
    (inp : ModemInput) {next : ModemPc} (hnext : next.wsHandle = some ws) :
    Channel (superviseCall m ws inp next) := by
  unfold Cloud.superviseCall
  split_ifs
  · exact .superviseEnd _ ws .tls
  · exact h.keep rfl rfl (hnext.trans hws.symm)

theorem modemTop_channel {step : ModemStep} (hpc : m.modem = .top step) (h : Channel m)
    (inp : ModemInput) : Channel (modemTop m step inp) := by
  have hnone : m.modem.wsHandle = none := by rw [hpc]; rfl
  unfold modemTop
  simp only
  cases step with
  | register =>
      simp only
      split_ifs <;> exact h.keep rfl rfl hnone.symm
  | tls => exact h.keep rfl rfl hnone.symm
  | websocket =>
      -- its own status is running or an error from here on, and there is no channel yet
      have hsock : m.gWsSock = none := h.sock.trans hnone
      simp only
      split
      · exact .off hsock (fun hok => nomatch hok) rfl
      · exact .off hsock (fun hok => nomatch hok) rfl
  | _ =>
      simp only
      split_ifs <;> exact h.keep rfl rfl hnone.symm

/-- What a registration request leaves of the statuses, and where it leads. -/
theorem registerRequest_status (m : Modem) (fd : ℕ) (code name imei : CStr) (inp : ModemInput) :
    (registerRequest m fd code name imei inp).status = m.status ∧
      (registerRequest m fd code name imei inp).gWsSock = m.gWsSock := by
  unfold registerRequest Modem.answered
  cases registerExchange m.gCloudHost code imei name inp.http <;> simp only <;> split_ifs <;>
    exact ⟨rfl, rfl⟩

/-- A step that stores something and goes on without a channel. -/
theorem Channel.stored (h : Channel m) (hnone : m.modem.wsHandle = none) (key : Key) (val : CStr)
    (save : SaveOutcome) {pc : ModemPc} (hpc : pc.wsHandle = none) :
    Channel ((m.setStr key val save).goto pc) := by
  obtain ⟨hstatus, hsock⟩ := setStr_status m key val save
  exact h.keep hsock (congrFun hstatus _) (hpc.trans hnone.symm)

/-- A step that stores something and ends `step_register`. -/
theorem Channel.registered (h : Channel m) (hnone : m.modem.wsHandle = none) (key : Key)
    (val : CStr) (save : SaveOutcome) : Channel (m.setStr key val save).registerDone := by
  obtain ⟨hstatus, hsock⟩ := setStr_status m key val save
  refine h.keep hsock ?_ hnone.symm
  unfold Modem.registerDone
  simp only [Modem.goto]
  rw [setStatus_other _ (by decide), setStatus_other _ (by decide), hstatus]

/-- **What a step of `modem_task` leaves of the channel.** -/
theorem modemStep_channel (h : Channel m) (inp : ModemInput) : Channel (modemStep m inp) := by
  -- all places but those of `websocket_supervise` have no channel
  have hidle (hnone : m.modem.wsHandle = none) {m' : Modem} (hsock : m'.gWsSock = m.gWsSock)
      (hstatus : m'.status .websocket = m.status .websocket) (hpc : m'.modem.wsHandle = none) :
      Channel m' := h.keep hsock hstatus (hpc.trans hnone.symm)
  unfold modemStep
  cases hpc : m.modem with
  | top step => exact modemTop_channel hpc h inp
  | pdnCheck =>
      simp only
      split_ifs <;> exact hidle (by rw [hpc]; rfl) rfl rfl rfl
  | pdnWait =>
      simp only
      split_ifs
      · exact hidle (by rw [hpc]; rfl) rfl rfl rfl
      · exact hidle (by rw [hpc]; rfl) rfl rfl rfl
      · exact h
  | pdnPoll =>
      simp only
      split_ifs <;> exact hidle (by rw [hpc]; rfl) rfl rfl rfl
  | pdnPending =>
      simp only
      split_ifs <;> exact hidle (by rw [hpc]; rfl) rfl rfl rfl
  | pdnRegistered =>
      simp only
      split_ifs <;> exact hidle (by rw [hpc]; rfl) rfl rfl rfl
  | tlsConnect =>
      simp only
      unfold tlsConnect
      simp only
      split_ifs <;> exact hidle (by rw [hpc]; rfl) rfl rfl rfl
  | regName code =>
      simp only
      split_ifs
      · exact hidle (by rw [hpc]; rfl) rfl rfl rfl
      · cases m.gTlsFd <;> exact hidle (by rw [hpc]; rfl) rfl rfl rfl
  | regImei fd code name =>
      simp only
      split_ifs
      · exact hidle (by rw [hpc]; rfl) rfl rfl rfl
      · cases getImei inp.cgsn <;> exact hidle (by rw [hpc]; rfl) rfl rfl rfl
  | regRequest fd code name imei =>
      obtain ⟨hstatus, hsock⟩ := registerRequest_status m fd code name imei inp
      refine hidle (by rw [hpc]; rfl) hsock (congrFun hstatus _) ?_
      simp only
      rw [registerRequest_modem]
      simp only
      split_ifs <;> rfl
  | regDrop => exact h.registered (by rw [hpc]; rfl) _ _ _
  | regReject => exact h.registered (by rw [hpc]; rfl) _ _ _
  | regStoreId fd reply => exact h.stored (by rw [hpc]; rfl) _ _ _ rfl
  | regStoreSecret fd reply => exact h.stored (by rw [hpc]; rfl) _ _ _ rfl
  | regStoreName fd reply => exact h.stored (by rw [hpc]; rfl) _ _ _ rfl
  | regConsume fd => exact h.stored (by rw [hpc]; rfl) _ _ _ rfl
  | regClose fd failed =>
      simp only
      split_ifs <;> exact hidle (by rw [hpc]; rfl) rfl rfl rfl
  | wsConnect fd id secret =>
      simp only
      unfold websocketConnect
      simp only
      split_ifs
      · exact .off (h.sock.trans (by rw [hpc]; rfl)) (fun hok => nomatch hok) rfl
      · exact ⟨rfl, iff_of_true rfl rfl⟩
  | supervise ws =>
      simp only
      split_ifs
      · exact .superviseEnd _ ws .tls
      · exact h.keep rfl rfl (by rw [hpc]; rfl)
  | superviseLink ws =>
      simp only
      split_ifs
      · exact .superviseEnd _ ws .pdn
      · exact h.keep rfl rfl (by rw [hpc]; rfl)
  | supervisePing ws =>
      simp only
      split_ifs
      · exact h.superviseCall (by rw [hpc]; rfl) inp rfl
      · exact h.keep rfl rfl (by rw [hpc]; rfl)
  | superviseSend ws =>
      simp only
      split_ifs
      · exact h.superviseCall (by rw [hpc]; rfl) inp rfl
      · exact h.keep rfl rfl (by rw [hpc]; rfl)
  | superviseRecv ws => exact h.superviseCall (by rw [hpc]; rfl) inp rfl
  | _ => exact hidle (by rw [hpc]; rfl) rfl rfl rfl

theorem Channel.other (h : Channel m) {e : ModemEvent} (he : e.byOthers = true) :
    Channel (e.apply m) := by
  obtain ⟨hstatus, hsock⟩ := other_status (m := m) he
  exact h.keep hsock (congrFun hstatus _) (congrArg _ (other_sameTask he).modem)

theorem Channel.apply (h : Channel m) (e : ModemEvent) : Channel (e.apply m) := by
  cases e with
  | task inp => exact modemStep_channel h inp
  | reset => exact .off rfl (fun hok => nomatch hok) rfl
  | _ => exact h.other rfl

/-! ### The connection -/

/-- The connection is in use, or the task goes on to open another one or has just closed it. -/
def ModemPc.placed : ModemPc → Bool
  | top .tls => true
  | regReject => true
  | pc => pc.holdsTls

/-- `MODEM_STEP_TLS` reads `STEP_OK` only there. -/
def TlsPlaced (m : Modem) : Prop := (m.status .tls).1 = .ok → m.modem.placed = true

/-- The step closes the connection and leaves `MODEM_STEP_TLS` as it is: its handshake fails, or
`websocket_supervise` finds the PDN link down. -/
def ModemPc.loses (pc : ModemPc) (err : ℤ) (up : Bool) : Bool :=
  match pc with
  | wsConnect _ _ _ => err ≠ 0
  | superviseLink _ => !up
  | _ => false

def ModemEvent.loses (m : Modem) : ModemEvent → Bool
  | task inp => m.modem.loses inp.err m.gPdnUp
  | _ => false

/-- A step that leaves the status where it was in its place. -/
theorem TlsPlaced.keep (h : TlsPlaced m) (hstatus : m'.status .tls = m.status .tls)
    (hplaced : m.modem.placed = true → m'.modem.placed = true) : TlsPlaced m' := by
  intro hok
  rw [hstatus] at hok
  exact hplaced (h hok)

/-- A step from a place where it does not read `STEP_OK`. -/
theorem TlsPlaced.idle (h : TlsPlaced m) (hstatus : m'.status .tls = m.status .tls)
    (hfree : m.modem.placed = false) : TlsPlaced m' := by
  refine h.keep hstatus fun hplaced => ?_
  rw [hfree] at hplaced
  cases hplaced

theorem TlsPlaced.of_placed (h : m.modem.placed = true) : TlsPlaced m := fun _ => h

theorem TlsPlaced.off (h : (m.status .tls).1 ≠ .ok) : TlsPlaced m := fun hok => absurd hok h

theorem registerDone_placed (m : Modem) : TlsPlaced m.registerDone := .off fun h => nomatch h

theorem superviseCall_placed (m : Modem) (ws : ℕ) (inp : ModemInput) {next : ModemPc}
    (hnext : next.placed = true) : TlsPlaced (superviseCall m ws inp next) := by
  unfold superviseCall
  split_ifs
  · exact .of_placed rfl
  · exact .of_placed hnext

theorem modemTop_placed {step : ModemStep} (hpc : m.modem = .top step) (hheld : Held m)
    (h : TlsPlaced m) (inp : ModemInput) : TlsPlaced (modemTop m step inp) := by
  unfold modemTop
  simp only
  cases step with
  | tls => exact .off fun hok => nomatch hok
  | register =>
      simp only
      split_ifs
      · exact .of_placed rfl
      · exact registerDone_placed _
  | websocket =>
      obtain ⟨fd, -, hfd, -⟩ := hheld.tls (by rw [hpc]; rfl)
      simp only [Modem.setStatus, hfd]
      exact .of_placed rfl
  | _ =>
      simp only
      split_ifs <;> exact h.idle rfl (by rw [hpc]; rfl)

/-- **What a step of `modem_task` leaves of the connection's status**, if it does not lose it. -/
theorem modemStep_placed (hheld : Held m) (h : TlsPlaced m) {inp : ModemInput}
    (hkeeps : (ModemEvent.task inp).loses m = false) : TlsPlaced (modemStep m inp) := by
  unfold modemStep
  unfold ModemEvent.loses ModemPc.loses at hkeeps
  cases hpc : m.modem with
  | top step => exact modemTop_placed hpc hheld h inp
  | retry step =>
      cases step with
      | register => exact .of_placed rfl
      | _ => exact h.idle rfl (by rw [hpc]; rfl)
  | pdnCheck =>
      simp only
      split_ifs <;> exact h.idle rfl (by rw [hpc]; rfl)
  | pdnWait =>
      simp only
      split_ifs
      · exact h.idle rfl (by rw [hpc]; rfl)
      · exact h.idle rfl (by rw [hpc]; rfl)
      · exact h
  | pdnPoll =>
      simp only
      split_ifs <;> exact h.idle rfl (by rw [hpc]; rfl)
  | pdnPending =>
      simp only
      split_ifs <;> exact h.idle rfl (by rw [hpc]; rfl)
  | pdnRegistered =>
      simp only
      split_ifs <;> exact h.idle rfl (by rw [hpc]; rfl)
  | tlsConnect =>
      simp only
      unfold tlsConnect
      simp only
      split_ifs
      · exact .off fun hok => nomatch hok
      · exact .off fun hok => nomatch hok
      · exact .of_placed rfl
  | tlsChoose =>
      simp only
      split_ifs <;> exact .of_placed rfl
  | regName code =>
      simp only
      split_ifs
      · exact .of_placed rfl
      · cases m.gTlsFd with
        | none => exact registerDone_placed m
        | some fd => exact .of_placed rfl
  | regDrop => exact registerDone_placed _
  | regImei fd code name =>
      simp only
      split_ifs
      · exact .of_placed rfl
      · cases getImei inp.cgsn <;> exact .of_placed rfl
  | regRequest fd code name imei =>
      apply TlsPlaced.of_placed
      simp only
      rw [registerRequest_modem]
      simp only
      split_ifs <;> rfl
  | regClose fd failed =>
      simp only
      split_ifs
      · exact .of_placed rfl
      · exact registerDone_placed _
  | regReject => exact registerDone_placed _
  | wsConnect fd id secret =>
      rw [hpc] at hkeeps
      have herr : inp.err = 0 := by simpa using hkeeps
      simp only
      unfold websocketConnect
      simp only [herr, ne_eq, not_true_eq_false, if_false]
      exact .of_placed rfl
  | supervise ws =>
      simp only
      split_ifs <;> exact .of_placed rfl
  | superviseLink ws =>
      rw [hpc] at hkeeps
      simp only at hkeeps ⊢
      rw [hkeeps]
      exact .of_placed rfl
  | supervisePing ws =>
      simp only
      split_ifs
      · exact superviseCall_placed m ws inp rfl
      · exact .of_placed rfl
  | superviseSend ws =>
      simp only
      split_ifs
      · exact superviseCall_placed m ws inp rfl
      · exact .of_placed rfl
  | superviseRecv ws => exact superviseCall_placed m ws inp rfl
  | _ => exact .of_placed rfl

/-! ### A connection that was lost -/

/-- From the connection to the end of the channel. -/
def ModemPc.linked : ModemPc → Bool
  | tlsChoose => true
  | top .websocket => true
  | wsSecret _ _ => true
  | wsConnect _ _ _ => true
  | pc => pc.wsHandle.isSome

/-- `MODEM_STEP_TLS` reads `STEP_OK` there. -/
def Linked (m : Modem) : Prop := m.modem.linked = true → (m.status .tls).1 = .ok

/-- Where the task goes from a lost connection, up to the next `MODEM_STEP_TLS`. -/
def ModemPc.adrift : ModemPc → Bool
  | top step => step = .pdn || step = .tls
  | retry step => step = .pdn || step = .websocket
  | pdnCheck => true
  | pdnWait => true
  | pdnPoll => true
  | pdnPending => true
  | pdnRegistered => true
  | _ => false

/-- `MODEM_STEP_TLS` reads `STEP_OK` and there is no connection. -/
structure Stale (m : Modem) : Prop where
  status : (m.status .tls).1 = .ok
  closed : m.gTlsFd = none
  adrift : m.modem.adrift = true

theorem Stale.not_matches (h : Stale m) : ¬ TlsMatches m := by
  intro hmatches
  obtain ⟨fd, host, hfd, -⟩ := hmatches h.status
  rw [h.closed] at hfd
  cases hfd

theorem nextPc_linked {inp : ModemInput} (h : (m.nextPc inp).linked = true) :
    m.modem.linked = true ∨ m.modem = .tlsConnect ∧ inp.err = 0 := by
  unfold Modem.nextPc at h
  cases hpc : m.modem with
  | tlsConnect =>
      rw [hpc] at h
      simp only at h
      split_ifs at h with herr
      · cases h
      · exact .inr ⟨rfl, not_not.mp herr⟩
  | top step =>
      cases step with
      | websocket => exact .inl rfl
      | _ =>
          rw [hpc] at h
          simp only at h
          (try split_ifs at h) <;> cases h
  | retry step =>
      rw [hpc] at h
      cases step <;> cases h
  | regName code =>
      rw [hpc] at h
      simp only at h
      split_ifs at h
      · cases h
      · cases hfd : m.gTlsFd <;> rw [hfd] at h <;> cases h
  | regImei fd code name =>
      rw [hpc] at h
      simp only at h
      split_ifs at h
      · cases h
      · cases himei : getImei inp.cgsn <;> rw [himei] at h <;> cases h
  | _ =>
      rw [hpc] at h
      first
        | exact .inl rfl
        | (simp only at h; (try split_ifs at h) <;> cases h)

/-- A step of `websocket_supervise` leaves the connection's status. -/
theorem superviseCall_tls (m : Modem) (ws : ℕ) (inp : ModemInput) (next : ModemPc) :
    (superviseCall m ws inp next).status .tls = m.status .tls := by
  unfold superviseCall
  split_ifs <;> rfl

/-- So do all the steps from the connection on. -/
theorem modemStep_linked (h : m.modem.linked = true) (inp : ModemInput) :
    (modemStep m inp).status .tls = m.status .tls := by
  unfold modemStep
  cases hpc : m.modem with
  | top step =>
      rw [hpc] at h
      cases step with
      | websocket =>
          simp only
          unfold modemTop
          simp only
          split <;> rfl
      | _ => cases h
  | wsConnect fd id secret =>
      simp only
      unfold websocketConnect
      simp only
      split_ifs <;> rfl
  | supervise ws =>
      simp only
      split_ifs <;> rfl
  | superviseLink ws =>
      simp only
      split_ifs <;> rfl
  | supervisePing ws =>
      simp only
      split_ifs
      · exact superviseCall_tls m ws inp _
      · rfl
  | superviseSend ws =>
      simp only
      split_ifs
      · exact superviseCall_tls m ws inp _
      · rfl
  | superviseRecv ws => exact superviseCall_tls m ws inp _
  | tlsChoose => rfl
  | wsSecret fd id => rfl
  | _ =>
      rw [hpc] at h
      cases h

theorem Linked.step (h : Linked m) (inp : ModemInput) : Linked (modemStep m inp) := by
  intro hto
  rw [modemStep_modem] at hto
  rcases nextPc_linked hto with hfrom | ⟨hpc, herr⟩
  · rw [modemStep_linked hfrom]
    exact h hfrom
  · unfold modemStep
    rw [hpc]
    simp only
    unfold tlsConnect
    simp only [herr, ne_eq, not_true_eq_false, false_and, if_false]
    exact congrArg Prod.fst (setStatus_self _ _ _ _)

/-- **A step that loses the connection** leaves its status stale. -/
theorem stale_of_loses (h : Linked m) {inp : ModemInput}
    (hloses : (ModemEvent.task inp).loses m = true) : Stale (modemStep m inp) := by
  unfold ModemEvent.loses ModemPc.loses at hloses
  cases hpc : m.modem with
  | wsConnect fd id secret =>
      rw [hpc] at hloses
      have herr : inp.err ≠ 0 := by simpa using hloses
      have hok := h (by rw [hpc]; rfl)
      unfold modemStep
      rw [hpc]
      simp only
      unfold websocketConnect
      simp only [if_pos herr]
      exact ⟨hok, rfl, rfl⟩
  | superviseLink ws =>
      rw [hpc] at hloses
      simp only at hloses
      have hok := h (by rw [hpc]; rfl)
      unfold modemStep
      rw [hpc]
      simp only [hloses, if_true]
      exact ⟨hok, rfl, rfl⟩
  | _ =>
      rw [hpc] at hloses
      cases hloses

/-- It stays so until `MODEM_STEP_TLS`. -/
theorem Stale.step (h : Stale m) (hpc : m.modem ≠ .top .tls) (inp : ModemInput) :
    Stale (modemStep m inp) := by
  obtain ⟨hok, hclosed, hadrift⟩ := h
  unfold modemStep
  cases hm : m.modem with
  | top step =>
      rw [hm] at hadrift hpc
      cases step with
      | pdn =>
          simp only
          unfold modemTop
          simp only
          split_ifs <;> exact ⟨hok, hclosed, rfl⟩
      | tls => exact absurd rfl hpc
      | _ => cases hadrift
  | retry step =>
      rw [hm] at hadrift
      cases step with
      | pdn => exact ⟨hok, hclosed, rfl⟩
      | websocket => exact ⟨hok, hclosed, rfl⟩
      | _ => cases hadrift
  | pdnCheck =>
      simp only
      split_ifs <;> exact ⟨hok, hclosed, rfl⟩
  | pdnWait =>
      simp only
      split_ifs
      · exact ⟨hok, hclosed, rfl⟩
      · exact ⟨hok, hclosed, rfl⟩
      · exact ⟨hok, hclosed, hadrift⟩
  | pdnPoll =>
      simp only
      split_ifs <;> exact ⟨hok, hclosed, rfl⟩
  | pdnPending =>
      simp only
      split_ifs <;> exact ⟨hok, hclosed, rfl⟩
  | pdnRegistered =>
      simp only
      split_ifs <;> exact ⟨hok, hclosed, rfl⟩
  | _ =>
      rw [hm] at hadrift
      cases hadrift

/-! ### Every run -/

/-- A connection was lost (`lost`) and `MODEM_STEP_TLS` has not begun again since. -/
def ModemEvent.leavesLost (m : Modem) (lost : Bool) : ModemEvent → Bool
  | task inp => m.modem ≠ .top .tls && (lost || (task inp).loses m)
  | reset => false
  | _ => lost

/-- A device, and whether it has lost a connection since its last `MODEM_STEP_TLS`. -/
def track (p : Modem × Bool) (e : ModemEvent) : Modem × Bool :=
  (e.apply p.1, e.leavesLost p.1 p.2)

def lostSince (flash : Keys) (events : List ModemEvent) : Bool :=
  (events.foldl track (Modem.start flash, false)).2

/-- The connection's status is where it belongs, or stale. -/
structure Tracked (m : Modem) (lost : Bool) : Prop where
  held : Held m
  channel : Channel m
  linked : Linked m
  placed : lost = false → TlsPlaced m
  stale : lost = true → Stale m

theorem Tracked.step {lost : Bool} (h : Tracked m lost) (inp : ModemInput) :
    Tracked (modemStep m inp) ((ModemEvent.task inp).leavesLost m lost) := by
  refine ⟨h.held.move (modemStep_socketMove m inp), modemStep_channel h.channel inp,
    h.linked.step inp, ?_, ?_⟩
  · intro hkept
    by_cases hpc : m.modem = .top .tls
    · unfold modemStep
      rw [hpc]
      exact .off fun hok => nomatch hok
    · simp only [ModemEvent.leavesLost, hpc, ne_eq, not_false_eq_true, decide_true, Bool.true_and,
        Bool.or_eq_false_iff] at hkept
      exact modemStep_placed h.held (h.placed hkept.1) hkept.2
  · intro hlost
    simp only [ModemEvent.leavesLost, Bool.and_eq_true, decide_eq_true_eq, Bool.or_eq_true]
      at hlost
    obtain ⟨hpc, hbefore | hnow⟩ := hlost
    · exact (h.stale hbefore).step hpc inp
    · exact stale_of_loses h.linked hnow

theorem Tracked.other {lost : Bool} (h : Tracked m lost) {e : ModemEvent}
    (he : e.byOthers = true) : Tracked (e.apply m) lost := by
  have hs : SameTask m (e.apply m) := other_sameTask he
  obtain ⟨hstatus, -⟩ := other_status (m := m) he
  refine ⟨h.held.sameTask hs, h.channel.other he, ?_, ?_, ?_⟩
  · intro hpc
    rw [hs.modem] at hpc
    rw [hstatus]
    exact h.linked hpc
  · exact fun hkept => (h.placed hkept).keep (congrFun hstatus _) fun hp => by rwa [hs.modem]
  · intro hlost
    obtain ⟨hok, hclosed, hadrift⟩ := h.stale hlost
    exact ⟨by rw [hstatus]; exact hok, by rw [hs.gTlsFd]; exact hclosed,
      by rw [hs.modem]; exact hadrift⟩

theorem start_tracked (flash : Keys) : Tracked (.start flash) false :=
  ⟨start_held flash, .off rfl (fun hok => nomatch hok) rfl, (fun hpc => nomatch hpc),
    (fun _ => .off fun hok => nomatch hok), (fun hlost => nomatch hlost)⟩

theorem Tracked.apply {lost : Bool} (h : Tracked m lost) (e : ModemEvent) :
    Tracked (e.apply m) (e.leavesLost m lost) := by
  cases e with
  | task inp => exact h.step inp
  | reset =>
      exact ⟨held_free h.held.linear.lost rfl, .off rfl (fun hok => nomatch hok) rfl,
        (fun hpc => nomatch hpc), (fun _ => .off fun hok => nomatch hok),
        (fun hlost => nomatch hlost)⟩
  | _ => exact h.other rfl

theorem run_tracked {flash : Keys} {events : List ModemEvent}
    (h : Run ModemTrans (.start flash) events m) :
    (events.foldl track (.start flash, false)).1 = m ∧ Tracked m (lostSince flash events) := by
  unfold lostSince
  induction h with
  | nil => exact ⟨rfl, start_tracked flash⟩
  | snoc _ hr ih =>
      obtain ⟨-, rfl⟩ := hr
      obtain ⟨hm, ht⟩ := ih
      rw [List.foldl_append]
      simp only [List.foldl_cons, List.foldl_nil, track]
      rw [hm]
      exact ⟨rfl, ht.apply _⟩

/-- The statuses agree with `g_tls_fd` and `g_ws_sock`. -/
structure StatusMatches (m : Modem) : Prop where
  tls : TlsMatches m
  websocket : WebsocketMatches m

theorem websocket_matches (hheld : Held m) (h : Channel m) : WebsocketMatches m := by
  rw [WebsocketMatches, h.status, h.sock]
  constructor
  · intro hsome
    obtain ⟨ws, hws⟩ := Option.isSome_iff_exists.mp hsome
    exact ⟨ws, hws, hheld.ws ws hws⟩
  · rintro ⟨ws, hws, -⟩
    rw [hws]
    rfl

/-- A place where the task waits and the connection is in use. -/
theorem ModemPc.waits_placed {pc : ModemPc} (hwaits : pc.waits = true) (h : pc.placed = true) :
    pc.holdsTls = true := by
  cases pc with
  | top step => cases hwaits
  | regReject => cases hwaits
  | _ => exact h

theorem tls_matches (hheld : Held m) (h : TlsPlaced m) (hwaits : m.modem.waits = true) :
    TlsMatches m := fun hok => hheld.tls (ModemPc.waits_placed hwaits (h hok))

/-- **When the statuses match**, exactly: where the task waits, unless it has lost a connection
since the last `MODEM_STEP_TLS`. -/
theorem status_matches_iff {flash : Keys} {events : List ModemEvent}
    (h : Run ModemTrans (.start flash) events m) (hwaits : m.modem.waits = true) :
    StatusMatches m ↔ lostSince flash events = false := by
  obtain ⟨-, ht⟩ := run_tracked h
  constructor
  · intro hmatches
    by_contra hlost
    exact (ht.stale (Bool.not_eq_false _ ▸ hlost)).not_matches hmatches.tls
  · intro hkept
    exact ⟨tls_matches ht.held (ht.placed hkept) hwaits, websocket_matches ht.held ht.channel⟩

/-- The step does not lose the connection. -/
def ModemEvent.KeepsTls (m : Modem) (e : ModemEvent) : Prop := e.loses m = false

instance (m : Modem) (e : ModemEvent) : Decidable (e.KeepsTls m) :=
  inferInstanceAs (Decidable (_ = _))

theorem leavesLost_eq_false {e : ModemEvent} (h : e.KeepsTls m) : e.leavesLost m false = false := by
  cases e with
  | task inp =>
      have hloses : (ModemEvent.task inp).loses m = false := h
      rw [ModemEvent.leavesLost, hloses]
      exact Bool.and_false _
  | _ => rfl

theorem not_lostSince {flash : Keys} {events : List ModemEvent}
    (h : Run (Guarded ModemTrans ModemEvent.KeepsTls) (.start flash) events m) :
    lostSince flash events = false := by
  unfold lostSince
  induction h with
  | nil => rfl
  | snoc hrun hr ih =>
      obtain ⟨hkeeps, -⟩ := hr
      rw [List.foldl_append]
      simp only [List.foldl_cons, List.foldl_nil, track]
      rw [(run_tracked hrun.unguarded).1, ih]
      exact leavesLost_eq_false hkeeps

/-- **The statuses match the connection** wherever the task waits, in every run in which no
handshake fails and no channel ends because the PDN link is down. -/
theorem status_matches_connection {flash : Keys} {events : List ModemEvent}
    (h : Run (Guarded ModemTrans ModemEvent.KeepsTls) (.start flash) events m)
    (hwaits : m.modem.waits = true) : StatusMatches m :=
  (status_matches_iff h.unguarded hwaits).mpr (not_lostSince h)

theorem status_matches_connected :
    StatusMatches ((registered ++ connects).foldl ModemEvent.apply factory) := by
  have hrun : Run (Guarded ModemTrans ModemEvent.KeepsTls) factory (registered ++ connects)
      ((registered ++ connects).foldl ModemEvent.apply factory) :=
    Run.of_along ModemEvent.apply (fun m e => e.KeepsTls m ∧ e.Possible m)
      (fun _ _ h => ⟨h.1, h.2, rfl⟩) (by decide +kernel)
  exact status_matches_connection hrun (by decide +kernel)

/-- Every call works, but for the last: the websocket handshake is refused. -/
def refusedHandshake : List ModemEvent :=
  registered ++ List.replicate 15 (.task answers) ++ [.task { answers with err := -111 }]

/-- **A refused handshake** is waited out with `MODEM_STEP_TLS` reading `STEP_OK` and no
connection. -/
theorem refused_handshake_mismatch :
    ¬ ∀ (flash : Keys) (events : List ModemEvent) (m : Modem),
      Run ModemTrans (.start flash) events m → m.modem.waits = true → StatusMatches m := by
  intro hall
  have hrun : Run ModemTrans factory refusedHandshake
      (refusedHandshake.foldl ModemEvent.apply factory) :=
    Run.of_along ModemEvent.apply (fun m e => e.Possible m) (fun _ _ h => ⟨h, rfl⟩)
      (by decide +kernel)
  have hkept := (status_matches_iff hrun (by decide +kernel)).mp
    (hall _ _ _ hrun (by decide +kernel))
  revert hkept
  decide +kernel

end NodemFirmware.Cloud
