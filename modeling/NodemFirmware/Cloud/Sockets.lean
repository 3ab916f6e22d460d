import NodemFirmware.Cloud.Task

/-! # The sockets of the modem task

Who owns a socket as `modem_task` goes from step to step: `g_tls_fd`, the `fd` that a step has
read from it, and the websocket that `websocket_supervise` runs on.

* `SocketMove` says once what a step can do to the sockets.
* `Held` is the invariant that the handles a step will use are open: handles are used linearly.
* `Single` adds that outside of a registration or a live channel none is open. -/

namespace NodemFirmware.Cloud

open CText Handles Transition

/-- Places where the connection in `g_tls_fd` is in use. -/
def ModemPc.holdsTls : ModemPc → Bool
  | top step => step = .register || step = .websocket
  | retry step => step = .register
  | pdnCheck => false
  | pdnWait => false
  | pdnPoll => false
  | pdnPending => false
  | pdnRegistered => false
  | tlsConnect => false
  | regReject => false
  | _ => true

/-- The connection's handle, where a step has read it. -/
def ModemPc.tlsHandle : ModemPc → Option ℕ
  | regImei fd _ _ => some fd
  | regRequest fd _ _ _ => some fd
  | regStoreId fd _ => some fd
  | regStoreSecret fd _ => some fd
  | regStoreName fd _ => some fd
  | regConsume fd => some fd
  | regClose fd _ => some fd
  | wsSecret fd _ => some fd
  | wsConnect fd _ _ => some fd
  | _ => none

/-- The websocket's handle. -/
def ModemPc.wsHandle : ModemPc → Option ℕ
  | supervise ws => some ws
  | superviseLink ws => some ws
  | supervisePing ws => some ws
  | superviseSend ws => some ws
  | superviseRecv ws => some ws
  | _ => none

theorem ModemPc.free {pc : ModemPc} (h : pc.holdsTls = false) :
    pc.tlsHandle = none ∧ pc.wsHandle = none := by
  cases pc <;> first | exact ⟨rfl, rfl⟩ | cases h

/-! ### What a step does -/

/-- The sockets, after a call on one of them perhaps. -/
def Modem.Touched (m : Modem) (t : Table Socket) : Prop :=
  t = m.sockets ∨ ∃ h, (m.modem.tlsHandle = some h ∨ m.modem.wsHandle = some h) ∧
    t = m.sockets.called (some h) false

/-- A place that the task leaves without closing the connection. -/
def Modem.Lets (m : Modem) : Prop :=
  m.modem = .regDrop ∨ m.modem = .top .register ∧ registrationPending m.ram = false ∨
    m.modem.holdsTls = true ∧ m.gTlsFd = none

inductive SocketMove (m m' : Modem) : Prop
  | stays : m.Touched m'.sockets → m'.gTlsFd = m.gTlsFd →
      m'.modem.holdsTls = m.modem.holdsTls →
      (∀ fd, m'.modem.tlsHandle = some fd →
        m.modem.tlsHandle = some fd ∨ m.gTlsFd = some fd) →
      (∀ ws, m'.modem.wsHandle = some ws → m.modem.wsHandle = some ws) → SocketMove m m'
  | lets : m.Lets → m'.sockets = m.sockets → m'.gTlsFd = m.gTlsFd →
      m'.modem.holdsTls = false → SocketMove m m'
  | attempts (host : CStr) : m.modem.holdsTls = false →
      m'.sockets = ((m.sockets.opened (.tls host)).called (some m.sockets.next) false).called
        (some m.sockets.next) true →
      m'.gTlsFd = m.gTlsFd → m'.modem.holdsTls = false → SocketMove m m'
  | opens (host : CStr) : m.modem.holdsTls = false →
      m'.sockets = (m.sockets.opened (.tls host)).called (some m.sockets.next) false →
      m'.gTlsFd = some m.sockets.next → m'.modem = .tlsChoose → SocketMove m m'
  | closes (fd : ℕ) (t : Table Socket) : m.Touched t → m.modem.tlsHandle = some fd →
      m'.sockets = t.called (some fd) true → m'.gTlsFd = none → m'.modem.holdsTls = false →
      SocketMove m m'
  | wraps (fd : ℕ) : m.modem.tlsHandle = some fd →
      m'.sockets = (m.sockets.called (some fd) false).opened .ws → m'.gTlsFd = m.gTlsFd →
      m'.modem = .supervise m.sockets.next → SocketMove m m'
  | ends (ws : ℕ) (t : Table Socket) : m.Touched t → m.modem.wsHandle = some ws →
      m'.sockets = (t.called (some ws) true).called m.gTlsFd true → m'.gTlsFd = none →
      m'.modem.holdsTls = false → SocketMove m m'

variable {m m' : Modem}

/-- A place with the connection in hand, and one with the channel. -/
theorem ModemPc.of_tlsHandle {pc : ModemPc} {fd : ℕ} (h : pc.tlsHandle = some fd) :
    pc.holdsTls = true ∧ pc.wsHandle = none := by
  cases pc <;> first | exact ⟨rfl, rfl⟩ | cases h

theorem ModemPc.of_wsHandle {pc : ModemPc} {ws : ℕ} (h : pc.wsHandle = some ws) :
    pc.holdsTls = true ∧ pc.tlsHandle = none := by
  cases pc <;> first | exact ⟨rfl, rfl⟩ | cases h

/-- A step between two places that hold nothing. -/
theorem SocketMove.free (hsockets : m'.sockets = m.sockets) (htls : m'.gTlsFd = m.gTlsFd)
    (h : m.modem.holdsTls = false) (h' : m'.modem.holdsTls = false) : SocketMove m m' := by
  refine .stays (.inl hsockets) htls (h'.trans h.symm) ?_ ?_
  · intro fd hfd
    rw [(ModemPc.free h').1] at hfd
    cases hfd
  · intro ws hws
    rw [(ModemPc.free h').2] at hws
    cases hws

/-- A step with the connection as it is in `g_tls_fd`. -/
theorem SocketMove.bare (hsockets : m'.sockets = m.sockets) (htls : m'.gTlsFd = m.gTlsFd)
    (h : m.modem.holdsTls = true) (h' : m'.modem.holdsTls = true)
    (hfd : m'.modem.tlsHandle = none) (hws : m'.modem.wsHandle = none) : SocketMove m m' := by
  refine .stays (.inl hsockets) htls (h'.trans h.symm) ?_ ?_
  · intro fd hfd'
    rw [hfd] at hfd'
    cases hfd'
  · intro ws hws'
    rw [hws] at hws'
    cases hws'

/-- A step with the same connection in hand before and after. -/
theorem SocketMove.carries {fd : ℕ} (hfd : m.modem.tlsHandle = some fd)
    (hfd' : m'.modem.tlsHandle = some fd) (ht : m.Touched m'.sockets)
    (htls : m'.gTlsFd = m.gTlsFd) : SocketMove m m' := by
  obtain ⟨hholds, hnone⟩ := ModemPc.of_tlsHandle hfd'
  refine .stays ht htls (hholds.trans (ModemPc.of_tlsHandle hfd).1.symm) ?_ ?_
  · intro fd₁ hfd₁
    have heq := hfd'.symm.trans hfd₁
    exact .inl (hfd.trans heq)
  · intro ws hws
    rw [hnone] at hws
    cases hws

theorem modemTop_socketMove {step : ModemStep} (hpc : m.modem = .top step) (inp : ModemInput) :
    SocketMove m (modemTop m step inp) := by
  unfold modemTop
  simp only
  cases step with
  | init =>
      simp only
      split_ifs <;> exact .free rfl rfl (by rw [hpc]; rfl) rfl
  | sim =>
      simp only
      split_ifs <;> exact .free rfl rfl (by rw [hpc]; rfl) rfl
  | pdn =>
      simp only
      split_ifs <;> exact .free rfl rfl (by rw [hpc]; rfl) rfl
  | tls => exact .free rfl rfl (by rw [hpc]; rfl) rfl
  | register =>
      simp only
      split_ifs with hpend
      · exact .bare rfl rfl (by rw [hpc]; rfl) rfl rfl rfl
      · exact .lets (.inr (.inl ⟨hpc, Bool.eq_false_iff.mpr hpend⟩)) rfl rfl rfl
  | websocket =>
      simp only
      split
      · next hnone =>
        exact .lets (.inr (.inr ⟨by rw [hpc]; rfl, hnone⟩)) rfl rfl rfl
      · next fd hfd =>
        refine .stays (.inl rfl) rfl (by rw [hpc]; rfl) ?_ (fun ws hws => by cases hws)
        intro fd' hfd'
        cases hfd'
        exact .inr hfd

theorem tlsConnect_socketMove (hpc : m.modem = .tlsConnect) (inp : ModemInput) :
    SocketMove m (tlsConnect m inp) := by
  have hfree : m.modem.holdsTls = false := by rw [hpc]; rfl
  unfold tlsConnect
  simp only
  split_ifs
  · exact .free rfl rfl hfree rfl
  · exact .attempts m.gCloudHost hfree rfl rfl rfl
  · exact .opens m.gCloudHost hfree rfl rfl rfl

theorem registerRequest_socketMove {fd : ℕ} {code name imei : CStr}
    (hpc : m.modem = .regRequest fd code name imei) (inp : ModemInput) :
    SocketMove m (registerRequest m fd code name imei inp) := by
  have hhandle : m.modem.tlsHandle = some fd := by rw [hpc]; rfl
  have hcall : m.Touched (m.sockets.called (some fd) false) := .inr ⟨fd, .inl hhandle, rfl⟩
  unfold registerRequest Modem.answered
  cases registerExchange m.gCloudHost code imei name inp.http <;> simp only <;> split_ifs <;>
    exact .carries hhandle rfl hcall rfl

theorem websocketConnect_socketMove {fd : ℕ} {id secret : CStr}
    (hpc : m.modem = .wsConnect fd id secret) (inp : ModemInput) :
    SocketMove m (websocketConnect m fd id secret inp) := by
  have hhandle : m.modem.tlsHandle = some fd := by rw [hpc]; rfl
  unfold websocketConnect
  simp only
  split_ifs
  · exact .closes fd _ (.inr ⟨fd, .inl hhandle, rfl⟩) hhandle rfl rfl rfl
  · exact .wraps fd hhandle rfl rfl rfl

theorem superviseEnd_socketMove {m₁ : Modem} {ws : ℕ} (hws : m.modem.wsHandle = some ws)
    (ht : m.Touched m₁.sockets) (htls : m₁.gTlsFd = m.gTlsFd) {next : ModemStep}
    (hnext : (ModemPc.top next).holdsTls = false) : SocketMove m (superviseEnd m₁ ws next) := by
  refine .ends ws m₁.sockets ht hws ?_ rfl hnext
  rw [← htls]
  rfl

/-- A step of `websocket_supervise` to its next one. -/
theorem SocketMove.supervised {ws : ℕ} {next : ModemPc} (hws : m.modem.wsHandle = some ws)
    (hnext : next.wsHandle = some ws) (ht : m.Touched m'.sockets) (htls : m'.gTlsFd = m.gTlsFd)
    (hpc : m'.modem = next) : SocketMove m m' := by
  obtain ⟨hholds, hnone⟩ := ModemPc.of_wsHandle hnext
  refine .stays ht htls ?_ ?_ ?_
  · rw [hpc, hholds, (ModemPc.of_wsHandle hws).1]
  · intro fd hfd
    rw [hpc, hnone] at hfd
    cases hfd
  · intro ws' hws'
    rw [hpc, hnext] at hws'
    rw [hws]
    exact hws'

theorem superviseCall_socketMove {ws : ℕ} (hws : m.modem.wsHandle = some ws) (inp : ModemInput)
    {next : ModemPc} (hnext : next.wsHandle = some ws) :
    SocketMove m (superviseCall m ws inp next) := by
  have hcall : m.Touched (m.use (some ws)).sockets := .inr ⟨ws, .inr hws, rfl⟩
  unfold superviseCall
  split_ifs
  · exact superviseEnd_socketMove hws hcall rfl rfl
  · exact .supervised hws hnext hcall rfl rfl

theorem setStr_sockets (m : Modem) (key : Key) (val : CStr) (save : SaveOutcome) :
    (m.setStr key val save).sockets = m.sockets ∧
      (m.setStr key val save).gTlsFd = m.gTlsFd := by
  cases save <;> exact ⟨rfl, rfl⟩

/-- A step that stores a part of a reply. -/
theorem SocketMove.stored {fd : ℕ} {pc : ModemPc} (hfd : m.modem.tlsHandle = some fd)
    (hpc : pc.tlsHandle = some fd) (key : Key) (val : CStr) (save : SaveOutcome) :
    SocketMove m ((m.setStr key val save).goto pc) := by
  obtain ⟨hsockets, htls⟩ := setStr_sockets m key val save
  exact .carries hfd hpc (.inl hsockets) htls

/-- **What a step of `modem_task` does to the sockets.** -/
theorem modemStep_socketMove (m : Modem) (inp : ModemInput) : SocketMove m (modemStep m inp) := by
  unfold modemStep
  cases hpc : m.modem with
  | top step => exact modemTop_socketMove hpc inp
  | retry step =>
      cases step with
      | register => exact .bare rfl rfl (by rw [hpc]; rfl) rfl rfl rfl
      | _ => exact .free rfl rfl (by rw [hpc]; rfl) rfl
  | pdnCheck =>
      simp only
      split_ifs <;> exact .free rfl rfl (by rw [hpc]; rfl) rfl
  | pdnWait =>
      simp only
      split_ifs
      · exact .free rfl rfl (by rw [hpc]; rfl) rfl
      · exact .free rfl rfl (by rw [hpc]; rfl) rfl
      · exact .free rfl rfl (by rw [hpc]; rfl) (by rw [hpc]; rfl)
  | pdnPoll =>
      simp only
      split_ifs <;> exact .free rfl rfl (by rw [hpc]; rfl) rfl
  | pdnPending =>
      simp only
      split_ifs <;> exact .free rfl rfl (by rw [hpc]; rfl) rfl
  | pdnRegistered =>
      simp only
      split_ifs <;> exact .free rfl rfl (by rw [hpc]; rfl) rfl
  | tlsConnect => exact tlsConnect_socketMove hpc inp
  | tlsChoose =>
      simp only
      split_ifs <;> exact .bare rfl rfl (by rw [hpc]; rfl) rfl rfl rfl
  | regCode => exact .bare rfl rfl (by rw [hpc]; rfl) rfl rfl rfl
  | regName code =>
      simp only
      split_ifs
      · exact .bare rfl rfl (by rw [hpc]; rfl) rfl rfl rfl
      · split
        · next hnone => exact .lets (.inr (.inr ⟨by rw [hpc]; rfl, hnone⟩)) rfl rfl rfl
        · next fd hfd =>
          refine .stays (.inl rfl) rfl (by rw [hpc]; rfl) ?_ (fun ws hws => by cases hws)
          intro fd' hfd'
          cases hfd'
          exact .inr hfd
  | regDrop =>
      obtain ⟨hsockets, htls⟩ := setStr_sockets m .regCode [] inp.save
      exact .lets (.inl hpc) hsockets htls rfl
  | regImei fd code name =>
      have hhandle : m.modem.tlsHandle = some fd := by rw [hpc]; rfl
      simp only
      split_ifs
      · exact .carries hhandle rfl (.inl rfl) rfl
      · cases getImei inp.cgsn <;> exact .carries hhandle rfl (.inl rfl) rfl
  | regRequest fd code name imei => exact registerRequest_socketMove hpc inp
  | regStoreId fd reply => exact .stored (by rw [hpc]; rfl) rfl _ _ _
  | regStoreSecret fd reply => exact .stored (by rw [hpc]; rfl) rfl _ _ _
  | regStoreName fd reply => exact .stored (by rw [hpc]; rfl) rfl _ _ _
  | regConsume fd => exact .stored (by rw [hpc]; rfl) rfl _ _ _
  | regClose fd failed =>
      have hhandle : m.modem.tlsHandle = some fd := by rw [hpc]; rfl
      simp only
      split_ifs <;> exact .closes fd _ (.inl rfl) hhandle rfl rfl rfl
  | regReject =>
      obtain ⟨hsockets, htls⟩ := setStr_sockets m .regCode regCodeRejected inp.save
      exact .free hsockets htls (by rw [hpc]; rfl) rfl
  | wsSecret fd id =>
      have hhandle : m.modem.tlsHandle = some fd := by rw [hpc]; rfl
      exact .carries hhandle rfl (.inl rfl) rfl
  | wsConnect fd id secret => exact websocketConnect_socketMove hpc inp
  | supervise ws =>
      have hws : m.modem.wsHandle = some ws := by rw [hpc]; rfl
      simp only
      split_ifs
      · exact superviseEnd_socketMove hws (.inl rfl) rfl rfl
      · exact .supervised hws rfl (.inl rfl) rfl rfl
  | superviseLink ws =>
      have hws : m.modem.wsHandle = some ws := by rw [hpc]; rfl
      simp only
      split_ifs
      · apply superviseEnd_socketMove hws
        · exact .inl rfl
        · rfl
        · rfl
      · exact .supervised hws rfl (.inl rfl) rfl rfl
  | supervisePing ws =>
      have hws : m.modem.wsHandle = some ws := by rw [hpc]; rfl
      simp only
      split_ifs
      · exact superviseCall_socketMove hws inp rfl
      · exact .supervised hws rfl (.inl rfl) rfl rfl
  | superviseSend ws =>
      have hws : m.modem.wsHandle = some ws := by rw [hpc]; rfl
      simp only
      split_ifs
      · exact superviseCall_socketMove hws inp rfl
      · exact .supervised hws rfl (.inl rfl) rfl rfl
  | superviseRecv ws => exact superviseCall_socketMove (by rw [hpc]; rfl) inp rfl

/-! ### Handles are used linearly -/

/-- The handles that a step will use are open. -/
structure Held (m : Modem) : Prop where
  linear : Linear m.sockets
  tls : m.modem.holdsTls = true →
    ∃ fd host, m.gTlsFd = some fd ∧ m.sockets.kind fd = some (.tls host)
  handle : ∀ fd, m.modem.tlsHandle = some fd → m.gTlsFd = some fd
  ws : ∀ ws, m.modem.wsHandle = some ws → m.sockets.kind ws = some .ws

theorem held_free (hl : Linear m.sockets) (h : m.modem.holdsTls = false) : Held m := by
  obtain ⟨hfd, hws⟩ := ModemPc.free h
  refine ⟨hl, ?_, ?_, ?_⟩
  · intro h'
    rw [h] at h'
    cases h'
  · intro fd h'
    rw [hfd] at h'
    cases h'
  · intro ws h'
    rw [hws] at h'
    cases h'

/-- The connection that a step works on is open. -/
theorem Held.tlsOpen (h : Held m) {fd : ℕ} (hfd : m.modem.tlsHandle = some fd) :
    m.gTlsFd = some fd ∧ ∃ host, m.sockets.kind fd = some (.tls host) := by
  obtain ⟨fd', host, htls, hkind⟩ := h.tls (ModemPc.of_tlsHandle hfd).1
  have hsame := h.handle fd hfd
  rw [hsame] at htls
  cases htls
  exact ⟨hsame, host, hkind⟩

theorem Held.touched (h : Held m) {t : Table Socket} (ht : m.Touched t) :
    Linear t ∧ t.next = m.sockets.next ∧ ∀ n, t.kind n = m.sockets.kind n := by
  rcases ht with rfl | ⟨n, hn, rfl⟩
  · exact ⟨h.linear, rfl, fun _ => rfl⟩
  · refine ⟨?_, rfl, ?_⟩
    · rcases hn with hfd | hws
      · obtain ⟨-, host, hkind⟩ := h.tlsOpen hfd
        exact h.linear.called hkind false
      · exact h.linear.called (h.ws n hws) false
    · intro k
      rw [called_kind, if_neg (by simp)]

/-- **A step of `modem_task`** uses only open handles. -/
theorem Held.move (h : Held m) (hmove : SocketMove m m') : Held m' := by
  cases hmove with
  | stays ht htls hholds hhandle hws =>
      obtain ⟨hl, -, hkind⟩ := h.touched ht
      refine ⟨hl, ?_, ?_, ?_⟩
      · intro hh
        rw [hholds] at hh
        obtain ⟨fd, host, hfd, hopen⟩ := h.tls hh
        exact ⟨fd, host, htls.trans hfd, (hkind fd).trans hopen⟩
      · intro fd hfd
        rw [htls]
        exact (hhandle fd hfd).elim (h.handle fd) id
      · intro ws hws'
        rw [hkind]
        exact h.ws ws (hws ws hws')
  | lets _ hsockets _ hfree =>
      exact held_free (by rw [hsockets]; exact h.linear) hfree
  | attempts host _ hsockets _ hfree =>
      refine held_free ?_ hfree
      rw [hsockets]
      have hself := opened_kind_self m.sockets (.tls host)
      refine ((h.linear.opened _).called hself false).called (k := .tls host) ?_ true
      rw [called_kind, if_neg (by simp)]
      exact hself
  | opens host _ hsockets htls hpc =>
      have hself := opened_kind_self m.sockets (.tls host)
      refine ⟨?_, ?_, ?_, ?_⟩
      · rw [hsockets]
        exact (h.linear.opened _).called hself false
      · intro _
        refine ⟨_, host, htls, ?_⟩
        rw [hsockets, called_kind, if_neg (by simp)]
        exact hself
      · intro fd hfd
        rw [hpc] at hfd
        cases hfd
      · intro ws hws
        rw [hpc] at hws
        cases hws
  | closes fd t ht hfd hsockets _ hfree =>
      obtain ⟨hl, -, hkind⟩ := h.touched ht
      obtain ⟨-, host, hopen⟩ := h.tlsOpen hfd
      refine held_free ?_ hfree
      rw [hsockets]
      exact hl.called ((hkind fd).trans hopen) true
  | wraps fd hfd hsockets htls hpc =>
      obtain ⟨hg, host, hopen⟩ := h.tlsOpen hfd
      obtain ⟨hl, hnext, hkind⟩ := h.touched (.inr ⟨fd, .inl hfd, rfl⟩)
      refine ⟨?_, ?_, ?_, ?_⟩
      · rw [hsockets]
        exact hl.opened .ws
      · intro _
        refine ⟨fd, host, htls.trans hg, ?_⟩
        have hne : fd ≠ (m.sockets.called (some fd) false).next := h.linear.ne_next hopen
        rw [hsockets, opened_kind _ _ hne, hkind]
        exact hopen
      · intro fd' hfd'
        rw [hpc] at hfd'
        cases hfd'
      · intro ws hws
        rw [hpc] at hws
        cases hws
        rw [hsockets]
        exact opened_kind_self (m.sockets.called (some fd) false) Socket.ws
  | ends ws t ht hws hsockets _ hfree =>
      obtain ⟨hl, -, hkind⟩ := h.touched ht
      obtain ⟨fd, host, hg, hopen⟩ := h.tls (ModemPc.of_wsHandle hws).1
      have hws' := h.ws ws hws
      have hne : ws ≠ fd := by
        rintro rfl
        rw [hws'] at hopen
        cases hopen
      refine held_free ?_ hfree
      rw [hsockets, hg]
      refine (hl.called ((hkind ws).trans hws') true).called (k := .tls host) ?_ true
      rw [called_kind, if_neg (fun hc => hne hc.2), hkind]
      exact hopen

theorem Held.sameTask (h : Held m) (hs : SameTask m m') : Held m' := by
  refine ⟨?_, ?_, ?_, ?_⟩
  · rw [hs.sockets]
    exact h.linear
  · rw [hs.modem, hs.gTlsFd, hs.sockets]
    exact h.tls
  · rw [hs.modem, hs.gTlsFd]
    exact h.handle
  · rw [hs.modem, hs.sockets]
    exact h.ws

theorem Held.apply (h : Held m) (e : ModemEvent) : Held (e.apply m) := by
  cases e with
  | task inp => exact h.move (modemStep_socketMove m inp)
  | reset => exact held_free h.linear.lost rfl
  | _ => exact h.sameTask (other_sameTask rfl)

theorem start_held (flash : Keys) : Held (.start flash) := held_free linear_new rfl

/-- **Socket handles are used linearly.**  In every run every call on a handle is made while it
is open, and no handle is closed twice. -/
theorem handles_linear {flash : Keys} {events : List ModemEvent}
    (h : Run ModemTrans (.start flash) events m) :
    (∀ u ∈ m.sockets.log, u.wasOpen = true) ∧ (closedIn m.sockets.log).Nodup := by
  have hheld : Held m := h.invariant (I := Held)
    (fun s e t hs hr => by
      obtain ⟨-, rfl⟩ := hr
      exact hs.apply e)
    (start_held flash)
  exact ⟨hheld.linear.wasOpen, hheld.linear.once⟩

theorem handles_linear_connected :
    ((registered ++ connects).foldl ModemEvent.apply factory).sockets.log.length = 5 ∧
      ∀ u ∈ ((registered ++ connects).foldl ModemEvent.apply factory).sockets.log,
        u.wasOpen = true := by
  have hrun : Run ModemTrans factory (registered ++ connects)
      ((registered ++ connects).foldl ModemEvent.apply factory) :=
    Run.of_along ModemEvent.apply (fun m e => e.Possible m) (fun _ _ h => ⟨h, rfl⟩)
      (by decide +kernel)
  exact ⟨by decide +kernel, (handles_linear hrun).1⟩

/-! ### No connection without work -/

/-- `step_register` reads a name that it does not drop the code for. -/
def ModemEvent.NameFits (m : Modem) : ModemEvent → Prop
  | task _ => m.modem.readsName = true → regNameMinLen ≤ (m.ram .deviceName).length
  | _ => True

instance (m : Modem) : (e : ModemEvent) → Decidable (e.NameFits m)
  | .task _ => inferInstanceAs (Decidable (_ → _))
  | .command _ => .isTrue trivial
  | .host _ => .isTrue trivial
  | .reg _ _ => .isTrue trivial
  | .lte _ _ => .isTrue trivial
  | .reset => .isTrue trivial

/-- Where the task idles, and where it is about to open a connection. -/
def ModemPc.noTls : ModemPc → Bool
  | pdnPoll => true
  | pdnPending => true
  | pdnRegistered => true
  | top .tls => true
  | tlsConnect => true
  | _ => false

/-- At most the connection in `g_tls_fd` is open, and only where it is in use. -/
structure Single (m : Modem) : Prop extends Held m where
  one : ∀ n host, m.sockets.kind n = some (.tls host) → m.gTlsFd = some n
  idle : m.modem.holdsTls = false → m.gTlsFd = none
  pending : m.modem = .top .register → registrationPending m.ram = true
  kept : m.modem ≠ .regDrop ∧ m.modem ≠ .retry .register
  code : CodeFits m

/-- No connection is open where none is in use. -/
theorem Single.noneOpen (h : Single m) (hfree : m.modem.holdsTls = false) :
    ∀ n host, m.sockets.kind n ≠ some (.tls host) := by
  intro n host hopen
  have hfd := h.one n host hopen
  rw [h.idle hfree] at hfd
  cases hfd

theorem Single.not_lets (h : Single m) : ¬ m.Lets := by
  rintro (hpc | ⟨hpc, hpend⟩ | ⟨hholds, hnone⟩)
  · exact h.kept.1 hpc
  · rw [h.pending hpc] at hpend
    cases hpend
  · obtain ⟨fd, -, hfd, -⟩ := h.tls hholds
    rw [hfd] at hnone
    cases hnone

/-- Closing the connection closes the only one. -/
theorem Single.closed (h : Single m) {t : Table Socket} {fd : ℕ} (hfd : m.gTlsFd = some fd)
    (hkind : ∀ n host, t.kind n = some (.tls host) → m.sockets.kind n = some (.tls host)) :
    ∀ n host, (t.called (some fd) true).kind n ≠ some (.tls host) := by
  intro n host hopen
  rw [called_kind] at hopen
  split_ifs at hopen with hn
  have heq := h.one n host (hkind n host hopen)
  rw [hfd] at heq
  cases heq
  exact hn ⟨rfl, rfl⟩

/-- What a step does to the connections. -/
theorem Single.move (h : Single m) (hmove : SocketMove m m') :
    (∀ n host, m'.sockets.kind n = some (.tls host) → m'.gTlsFd = some n) ∧
      (m'.modem.holdsTls = false → m'.gTlsFd = none) := by
  cases hmove with
  | stays ht htls hholds _ _ =>
      obtain ⟨-, -, hkind⟩ := h.touched ht
      constructor
      · intro n host hopen
        rw [hkind] at hopen
        exact htls.trans (h.one n host hopen)
      · intro hfree
        exact htls.trans (h.idle (hholds.symm.trans hfree))
  | lets hlets _ _ _ => exact absurd hlets h.not_lets
  | attempts host hfree hsockets htls _ =>
      refine ⟨?_, fun _ => htls.trans (h.idle hfree)⟩
      intro n host' hopen
      rw [hsockets, called_kind] at hopen
      split_ifs at hopen with hn
      have hne : n ≠ m.sockets.next := fun hc => hn ⟨rfl, hc.symm⟩
      rw [called_kind, if_neg (by simp), opened_kind _ _ hne] at hopen
      exact absurd hopen (h.noneOpen hfree n host')
  | opens host hfree hsockets htls hpc =>
      constructor
      · intro n host' hopen
        rw [hsockets, called_kind, if_neg (by simp)] at hopen
        by_cases hn : n = m.sockets.next
        · rw [hn]
          exact htls
        · rw [opened_kind _ _ hn] at hopen
          exact absurd hopen (h.noneOpen hfree n host')
      · intro hfree'
        rw [hpc] at hfree'
        cases hfree'
  | closes fd t ht hfd hsockets htls _ =>
      obtain ⟨-, -, hkind⟩ := h.touched ht
      refine ⟨?_, fun _ => htls⟩
      intro n host hopen
      rw [hsockets] at hopen
      exact absurd hopen (h.closed (h.handle fd hfd) (fun k _ hk => (hkind k).symm.trans hk) n host)
  | wraps fd hfd hsockets htls hpc =>
      constructor
      · intro n host hopen
        rw [hsockets] at hopen
        by_cases hn : n = (m.sockets.called (some fd) false).next
        · rw [hn, opened_kind_self] at hopen
          cases hopen
        · rw [opened_kind _ _ hn, called_kind, if_neg (by simp)] at hopen
          exact htls.trans (h.one n host hopen)
      · intro hfree
        rw [hpc] at hfree
        cases hfree
  | ends ws t ht hws hsockets htls _ =>
      obtain ⟨-, -, hkind⟩ := h.touched ht
      obtain ⟨fd, -, hfd, -⟩ := h.tls (ModemPc.of_wsHandle hws).1
      refine ⟨?_, fun _ => htls⟩
      intro n host hopen
      rw [hsockets, hfd] at hopen
      refine absurd hopen (h.closed hfd (fun k host' hk => ?_) n host)
      rw [called_kind] at hk
      split_ifs at hk
      rw [← hkind]
      exact hk

/-- `MODEM_STEP_REGISTER` is entered with a code pending. -/
theorem nextPc_register {inp : ModemInput} (h : m.nextPc inp = .top .register) :
    m.modem = .tlsChoose ∧ registrationPending m.ram = true ∨ m.modem = .retry .register := by
  have hfrom := m.nextPc_enters inp
  rwa [h] at hfrom

/-- It never fails. -/
theorem nextPc_ne_retry (m : Modem) (inp : ModemInput) : m.nextPc inp ≠ .retry .register := by
  intro h
  have hfrom := m.nextPc_enters inp
  rwa [h] at hfrom

/-- A code is dropped for a name of the wrong length. -/
theorem nextPc_regDrop {inp : ModemInput} (h : m.nextPc inp = .regDrop) :
    (∃ code, m.modem = .regName code) ∧ (m.ram .deviceName).length < regNameMinLen := by
  have hfrom := m.nextPc_enters inp
  rw [h] at hfrom
  obtain ⟨code, hpc, hlen⟩ := hfrom
  refine ⟨⟨code, hpc⟩, ?_⟩
  unfold clip regNameMinLen regNameMaxLen at hlen
  rw [List.length_take] at hlen
  unfold regNameMinLen
  omega

theorem Single.other (h : Single m) {e : ModemEvent} (he : e.byOthers = true) :
    Single (e.apply m) := by
  have hs : SameTask m (e.apply m) := other_sameTask he
  refine ⟨h.toHeld.sameTask hs, ?_, ?_, ?_, ?_, h.code.apply e⟩
  · rw [hs.sockets, hs.gTlsFd]
    exact h.one
  · rw [hs.modem, hs.gTlsFd]
    exact h.idle
  · rw [hs.modem]
    exact fun hpc => other_pending h.code he (h.pending hpc)
  · rw [hs.modem]
    exact h.kept

theorem Single.step (h : Single m) {inp : ModemInput}
    (hfits : (ModemEvent.task inp).NameFits m) : Single (modemStep m inp) := by
  obtain ⟨hone, hidle⟩ := h.move (modemStep_socketMove m inp)
  have hmodem := modemStep_modem m inp
  refine ⟨h.toHeld.move (modemStep_socketMove m inp), hone, hidle, ?_, ⟨?_, ?_⟩,
    h.code.apply (.task inp)⟩
  · intro hpc
    rw [hmodem] at hpc
    rcases nextPc_register hpc with ⟨hchoose, hpend⟩ | hretry
    · have hq : Quiet m (modemStep m inp) := modemStep_quiet (by rw [hchoose]; rfl)
      rw [hq.ram]
      exact hpend
    · exact absurd hretry h.kept.2
  · intro hpc
    rw [hmodem] at hpc
    obtain ⟨⟨code, hname⟩, hshort⟩ := nextPc_regDrop hpc
    have hlong := hfits (by rw [hname]; rfl)
    omega
  · rw [hmodem]
    exact nextPc_ne_retry m inp

theorem Single.apply (h : Single m) {e : ModemEvent} (hfits : e.NameFits m) :
    Single (e.apply m) := by
  cases e with
  | task inp => exact h.step hfits
  | reset =>
      refine ⟨held_free h.linear.lost rfl, ?_, fun _ => rfl, ?_, ⟨?_, ?_⟩, h.code.apply .reset⟩
      · intro n host hopen
        cases hopen
      · intro hpc
        cases hpc
      · intro hpc
        cases hpc
      · intro hpc
        cases hpc
  | _ => exact h.other rfl

theorem start_single (flash : Keys) : Single (.start flash) := by
  refine ⟨start_held flash, ?_, fun _ => rfl, ?_, ⟨?_, ?_⟩, ?_⟩
  · intro n host hopen
    cases hopen
  · intro hpc
    cases hpc
  · intro hpc
    cases hpc
  · intro hpc
    cases hpc
  · intro code name hcmd
    cases hcmd

/-- The task idles, and opens a connection, with no other one open. -/
def NoIdleTls (m : Modem) : Prop :=
  m.modem.noTls = true → m.gTlsFd = none ∧ ∀ n host, m.sockets.kind n ≠ some (.tls host)

/-- **No connection is held without work** in a run in which no code is dropped for its name. -/
theorem tls_held_for_work {flash : Keys} {events : List ModemEvent}
    (h : Run (Guarded ModemTrans ModemEvent.NameFits) (.start flash) events m) :
    NoIdleTls m ∧ ∀ n n' host host', m.sockets.kind n = some (.tls host) →
      m.sockets.kind n' = some (.tls host') → n = n' := by
  have hsingle : Single m := h.invariant (I := Single)
    (fun s e t hs hr => by
      obtain ⟨hfits, -, rfl⟩ := hr
      exact hs.apply hfits)
    (start_single flash)
  constructor
  · intro hpc
    have hfree : m.modem.holdsTls = false := by
      cases hm : m.modem with
      | top step =>
          rw [hm] at hpc
          cases step <;> first | rfl | cases hpc
      | _ =>
          rw [hm] at hpc
          first | rfl | cases hpc
    exact ⟨hsingle.idle hfree, hsingle.noneOpen hfree⟩
  · intro n n' host host' hn hn'
    have hfd := hsingle.one n host hn
    rw [hsingle.one n' host' hn'] at hfd
    cases hfd
    rfl

theorem tls_held_for_work_connected :
    NoIdleTls ((registered ++ connects).foldl ModemEvent.apply factory) ∧
      ((registered ++ connects).foldl ModemEvent.apply factory).sockets.kind 1 =
        some (.tls modemTaskHostname) := by
  have hrun : Run (Guarded ModemTrans ModemEvent.NameFits) factory (registered ++ connects)
      ((registered ++ connects).foldl ModemEvent.apply factory) :=
    Run.of_along ModemEvent.apply (fun m e => e.NameFits m ∧ e.Possible m)
      (fun _ _ h => ⟨h.1, h.2, rfl⟩) (by decide +kernel)
  exact ⟨(tls_held_for_work hrun).1, by decide +kernel⟩

/-- A registration that begins between the two writes of "#reg". -/
def halfRegistered : List ModemEvent :=
  [.lte 0 .activated, .reg (cs "ABCDEF") (cs "lamp"), .command .saved] ++
    List.replicate 15 (.task answers)

/-- **The code is dropped and the connection is left open.** -/
theorem dropped_code_keeps_tls :
    Run ModemTrans factory halfRegistered (halfRegistered.foldl ModemEvent.apply factory) ∧
      (halfRegistered.foldl ModemEvent.apply factory).modem = .pdnPoll ∧
      ¬ NoIdleTls (halfRegistered.foldl ModemEvent.apply factory) := by
  refine ⟨Run.of_along ModemEvent.apply (fun m e => e.Possible m) (fun _ _ h => ⟨h, rfl⟩)
    (by decide +kernel), by decide +kernel, ?_⟩
  intro h
  have hclosed := (h (by decide +kernel)).1
  have hopen : (halfRegistered.foldl ModemEvent.apply factory).gTlsFd = some 0 := by
    decide +kernel
  rw [hopen] at hclosed
  cases hclosed

end NodemFirmware.Cloud
