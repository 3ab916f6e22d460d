import NodemFirmware.Lib.Handles
import NodemFirmware.Lib.Transition
import NodemFirmware.Cloud.Register

/-! # The modem task and the commands that provision it

`modem_task` as one thread, "#host" and "#reg" (`control.rs`'s `process_line`) as another,
over the config keys they share.  Every `config_get_str`, every `config_set_str` and every
call that leaves the device is a step of its own, so the two threads' steps may come in any
order, with a reset between any two.

* `ModemPc` and `CommandPc` say where each thread is, with what it has read so far.
* What a call returns is part of the step (`ModemInput`).
* `sockets` is the table of the sockets that are open, with the calls made on them.

The last fields of `Modem` are a record of what was answered, sent and used; the program does
not keep them, nor what `Before` remembers of the hosts a "#host" replaced. -/

namespace NodemFirmware.Cloud

open CText Handles Transition

/-! ### The config keys -/

inductive Key where
  | cloudHost
  | deviceId
  | deviceSecret
  | deviceName
  | regCode
deriving DecidableEq, Repr

/-- The string keys; a key that is not set reads as "". -/
abbrev Keys := Key → CStr

/-- What `config_set_str` did: changed the value and saved it, changed it but could not save
it, or refused a key that is not there because the table is full. -/
inductive SaveOutcome where
  | saved
  | unsaved
  | refused
deriving DecidableEq, Repr

def SaveOutcome.ok : SaveOutcome → Bool
  | saved => true
  | _ => false

def SaveOutcome.inRam : SaveOutcome → Bool
  | refused => false
  | _ => true

/-- `MODEM_TASK_HOSTNAME`. -/
def modemTaskHostname : CStr := cs "docker.ws-ai-call-bot.workers.dev"

def cloudHostLen : ℕ := 128

/-- `get_cloud_host`. -/
def getCloudHost (keys : Keys) : CStr :=
  let buf := clip cloudHostLen (keys .cloudHost)
  if buf = [] then clip cloudHostLen modemTaskHostname else buf

/-- `registration_pending`. -/
def registrationPending (keys : Keys) : Bool :=
  let code := clip (regCodeLen + 1) (keys .regCode)
  code ≠ [] && code ≠ regCodeRejected

/-- `device_registered`. -/
def deviceRegistered (keys : Keys) : Bool := clip regIdLen (keys .deviceId) ≠ []

/-! ### The two threads -/

/-- `enum modem_step`. -/
inductive ModemStep where
  | init
  | sim
  | pdn
  | tls
  | register
  | websocket
deriving DecidableEq, Repr

/-- `enum step_state`. -/
inductive StepState where
  | pending
  | running
  | ok
  | error
deriving DecidableEq, Repr

/-- Where `modem_task` is, and what it has read. -/
inductive ModemPc where
  | top (step : ModemStep)
  | retry (step : ModemStep)
  | pdnCheck
  | pdnWait
  | pdnPoll
  | pdnPending
  | pdnRegistered
  | tlsConnect
  | tlsChoose
  | regCode
  | regName (code : CStr)
  | regDrop
  | regImei (fd : ℕ) (code name : CStr)
  | regRequest (fd : ℕ) (code name imei : CStr)
  | regStoreId (fd : ℕ) (reply : Reply)
  | regStoreSecret (fd : ℕ) (reply : Reply)
  | regStoreName (fd : ℕ) (reply : Reply)
  | regConsume (fd : ℕ)
  | regClose (fd : ℕ) (failed : Bool)
  | regReject
  | wsSecret (fd : ℕ) (id : CStr)
  | wsConnect (fd : ℕ) (id secret : CStr)
  | supervise (ws : ℕ)
  | superviseLink (ws : ℕ)
  | supervisePing (ws : ℕ)
  | superviseSend (ws : ℕ)
  | superviseRecv (ws : ℕ)
deriving DecidableEq

/-- The hosts that the keys, and their saved copies, named before a "#host". -/
structure Before where
  ram : CStr
  flash : CStr
deriving DecidableEq

/-- Where the command thread is: what is left of a "#host" or a "#reg". -/
inductive CommandPc where
  | idle
  | hostStore (host : CStr)
  | hostClearId (before : Before)
  | hostClearSecret (before : Before)
  | regStoreCode (code name : CStr)
  | regStoreName (name : CStr)
deriving DecidableEq

inductive Socket where
  | tls (host : CStr)
  | ws
deriving DecidableEq

/-- A reply, and the host that gave it. -/
structure Issued where
  host : CStr
  reply : Reply

/-- A registration request. -/
structure Request where
  host : CStr
  code : CStr
  name : CStr
  imei : CStr

/-- A websocket handshake. -/
structure Handshake where
  host : CStr
  id : CStr
  secret : CStr

structure Modem where
  ram : Keys
  flash : Keys
  status : ModemStep → StepState × ℤ
  gTlsFd : Option ℕ
  gWsSock : Option ℕ
  gCloudHost : CStr
  gPdnUp : Bool
  pdnSem : Bool
  modem : ModemPc
  command : CommandPc
  sockets : Table Socket
  issued : List Issued
  requests : List Request
  handshakes : List Handshake

/-- What the calls of a step of `modem_task` returned: `cgsn` is the answer to AT+CGSN,
`socketOpen` says that `step_tls_connect` got as far as a socket, and `due` that there is a ping
or a message to send. -/
structure ModemInput where
  err : ℤ
  save : SaveOutcome
  cgsn : CStr
  http : HttpCalls
  socketOpen : Bool
  due : Bool

/-! ### Shared helpers -/

/-- `config_set_str`. -/
def Modem.setStr (m : Modem) (key : Key) (val : CStr) (save : SaveOutcome) : Modem :=
  match save with
  | .saved => { m with
      ram := Function.update m.ram key val, flash := Function.update m.flash key val }
  | .unsaved => { m with ram := Function.update m.ram key val }
  | .refused => m

/-- `set_status`. -/
def Modem.setStatus (m : Modem) (step : ModemStep) (state : StepState) (err : ℤ) : Modem :=
  { m with status := Function.update m.status step (state, err) }

/-- A call on `handle` that leaves it open. -/
def Modem.use (m : Modem) (handle : Option ℕ) : Modem :=
  { m with sockets := m.sockets.called handle false }

/-- `close`, and `websocket_disconnect`. -/
def Modem.close (m : Modem) (handle : Option ℕ) : Modem :=
  { m with sockets := m.sockets.called handle true }

/-- A fresh handle. -/
def Modem.openSock (m : Modem) (sock : Socket) : Modem :=
  { m with sockets := m.sockets.opened sock }

/-- The host the socket `handle` is connected to. -/
def Modem.peer (m : Modem) (handle : ℕ) : CStr :=
  match m.sockets.kind handle with
  | some (.tls host) => host
  | _ => []

def Modem.goto (m : Modem) (pc : ModemPc) : Modem := { m with modem := pc }

/-- A step of `modem_task` that failed. -/
def Modem.fail (m : Modem) (step : ModemStep) (err : ℤ) : Modem :=
  (m.setStatus step .error err).goto (.retry step)

/-- `step_register` returned, 0 as it always does. -/
def Modem.registerDone (m : Modem) : Modem :=
  ((m.setStatus .register .ok 0).setStatus .tls .pending 0).goto (.top .pdn)

/-- `step_pdn_connect` returned 0. -/
def Modem.pdnDone (m : Modem) : Modem := (m.setStatus .pdn .ok 0).goto .pdnPoll

/-! ### modem_task -/

/-- The top of the loop: `step` is entered, up to its first call or read. -/
def modemTop (m : Modem) (step : ModemStep) (inp : ModemInput) : Modem :=
  let m := m.setStatus step .running 0
  match step with
  | .init =>
      if inp.err ≠ 0 then m.fail .init inp.err else (m.setStatus .init .ok 0).goto (.top .sim)
  | .sim => if inp.err ≠ 0 then m.fail .sim inp.err else (m.setStatus .sim .ok 0).goto (.top .pdn)
  | .pdn => if inp.err ≠ 0 then m.fail .pdn inp.err else m.goto .pdnCheck
  | .tls => { m with gCloudHost := getCloudHost m.ram, modem := .tlsConnect }
  | .register => if registrationPending m.ram then m.goto .regCode else m.registerDone
  | .websocket =>
      match m.gTlsFd with
      | none => m.fail .websocket (-Errno.notconn)
      | some fd => m.goto (.wsSecret fd (clip regIdLen (m.ram .deviceId)))

/-- `step_tls_connect`, from the host it has read on. -/
def tlsConnect (m : Modem) (inp : ModemInput) : Modem :=
  if inp.err ≠ 0 ∧ inp.socketOpen = false then m.fail .tls inp.err
  else
    let fd := m.sockets.next
    let m := (m.openSock (.tls m.gCloudHost)).use (some fd)
    if inp.err ≠ 0 then (m.close (some fd)).fail .tls inp.err
    else { m.setStatus .tls .ok 0 with gTlsFd := some fd, modem := .tlsChoose }

/-- The host gave `reply`, if it gave one. -/
def Modem.answered (m : Modem) (host : CStr) : Except ℤ Reply → Modem
  | .error _ => m
  | .ok reply => { m with issued := m.issued ++ [⟨host, reply⟩] }

/-- `register_http_request` over `fd`, and what `step_register` makes of it. -/
def registerRequest (m : Modem) (fd : ℕ) (code name imei : CStr) (inp : ModemInput) : Modem :=
  let (err, reply) := registerHttpRequest m.gCloudHost code imei name inp.http
  let sent : Modem := { m.use (some fd) with
    requests := m.requests ++ [⟨m.peer fd, code, name, imei⟩] }
  let m := sent.answered (m.peer fd) (registerExchange m.gCloudHost code imei name inp.http)
  if err ≠ 0 then m.goto (.regClose fd true) else m.goto (.regStoreId fd reply)

/-- `websocket_connect` over `fd`, and what the task makes of it. -/
def websocketConnect (m : Modem) (fd : ℕ) (id secret : CStr) (inp : ModemInput) : Modem :=
  let m : Modem := { m.use (some fd) with handshakes := m.handshakes ++ [⟨m.peer fd, id, secret⟩] }
  if inp.err ≠ 0 then { m.close (some fd) with gTlsFd := none }.fail .websocket inp.err
  else
    let ws := m.sockets.next
    let m := (m.openSock .ws).setStatus .websocket .ok 0
    { m with gWsSock := some ws, modem := .supervise ws }

/-- The end of `websocket_supervise`, and what `modem_task` does then. -/
def superviseEnd (m : Modem) (ws : ℕ) (next : ModemStep) : Modem :=
  let m := (m.close (some ws)).close m.gTlsFd
  ({ m with gWsSock := none, gTlsFd := none }.setStatus .websocket .pending 0).goto (.top next)

/-- A call of `websocket_supervise` on `ws`. -/
def superviseCall (m : Modem) (ws : ℕ) (inp : ModemInput) (next : ModemPc) : Modem :=
  if inp.err ≠ 0 then superviseEnd (m.use (some ws)) ws .tls else (m.use (some ws)).goto next

/-- `modem_task`, one step. -/
def modemStep (m : Modem) (inp : ModemInput) : Modem :=
  match m.modem with
  | .top step => modemTop m step inp
  | .retry step => m.goto (.top (if step = .websocket then .tls else step))
  | .pdnCheck => if m.gPdnUp then m.pdnDone else m.goto .pdnWait
  | .pdnWait =>
      if m.pdnSem then { m with pdnSem := false }.pdnDone
      else if inp.err ≠ 0 then m.fail .pdn inp.err
      else m
  | .pdnPoll =>
      if !m.gPdnUp then (m.setStatus .pdn .pending 0).goto (.top .pdn) else m.goto .pdnPending
  | .pdnPending =>
      if registrationPending m.ram then m.goto (.top .tls) else m.goto .pdnRegistered
  | .pdnRegistered =>
      if deviceRegistered m.ram then m.goto (.top .tls) else m.goto .pdnPoll
  | .tlsConnect => tlsConnect m inp
  | .tlsChoose => m.goto (.top (if registrationPending m.ram then .register else .websocket))
  | .regCode => m.goto (.regName (clip (regCodeLen + 1) (m.ram .regCode)))
  | .regName code =>
      let name := clip (regNameMaxLen + 1) (m.ram .deviceName)
      if name.length < regNameMinLen ∨ regNameMaxLen < name.length then m.goto .regDrop
      else
        match m.gTlsFd with
        | none => m.registerDone
        | some fd => m.goto (.regImei fd code name)
  | .regDrop => (m.setStr .regCode [] inp.save).registerDone
  | .regImei fd code name =>
      if inp.err ≠ 0 then m.goto (.regClose fd true)
      else
        match getImei inp.cgsn with
        | none => m.goto (.regClose fd true)
        | some imei => m.goto (.regRequest fd code name imei)
  | .regRequest fd code name imei => registerRequest m fd code name imei inp
  | .regStoreId fd reply =>
      (m.setStr .deviceId reply.id inp.save).goto (.regStoreSecret fd reply)
  | .regStoreSecret fd reply =>
      (m.setStr .deviceSecret reply.secret inp.save).goto (.regStoreName fd reply)
  | .regStoreName fd reply =>
      (m.setStr .deviceName reply.verifiedName inp.save).goto (.regConsume fd)
  | .regConsume fd => (m.setStr .regCode [] inp.save).goto (.regClose fd false)
  | .regClose fd failed =>
      let m := { m.close (some fd) with gTlsFd := none }
      if failed then m.goto .regReject else m.registerDone
  | .regReject => (m.setStr .regCode regCodeRejected inp.save).registerDone
  | .wsSecret fd id => m.goto (.wsConnect fd id (clip regSecretLen (m.ram .deviceSecret)))
  | .wsConnect fd id secret => websocketConnect m fd id secret inp
  | .supervise ws =>
      if registrationPending m.ram then superviseEnd m ws .tls else m.goto (.superviseLink ws)
  | .superviseLink ws =>
      if !m.gPdnUp then superviseEnd (m.setStatus .pdn .pending 0) ws .pdn
      else m.goto (.supervisePing ws)
  | .supervisePing ws =>
      if inp.due then superviseCall m ws inp (.superviseSend ws) else m.goto (.superviseSend ws)
  | .superviseSend ws =>
      if inp.due then superviseCall m ws inp (.superviseRecv ws) else m.goto (.superviseRecv ws)
  | .superviseRecv ws => superviseCall m ws inp (.supervise ws)

/-! ### Commands -/

def valBufLen : ℕ := 128

/-- `to_cstr` takes it. -/
def fitsCstr (s : CStr) (bufLen : ℕ) : Bool := s.length < bufLen && (0 : UInt8) ∉ s

/-- "#host" with its trimmed argument; "" names the default. -/
def hostCommand (m : Modem) (host : CStr) : Modem :=
  if fitsCstr host valBufLen then { m with command := .hostStore host } else m

/-- "#reg" with its two trimmed arguments. -/
def regCommand (m : Modem) (code name : CStr) : Modem :=
  if code.length ≠ regCodeLen ∨ name.length < regNameMinLen ∨ regNameMaxLen < name.length then m
  else if fitsCstr code 16 && fitsCstr name valBufLen then
    { m with command := .regStoreCode code name }
  else m

/-- The command thread, one step. -/
def commandStep (m : Modem) (save : SaveOutcome) : Modem :=
  match m.command with
  | .idle => m
  | .hostStore host =>
      { m.setStr .cloudHost host save with
        command := if save.ok then .hostClearId ⟨getCloudHost m.ram, getCloudHost m.flash⟩
          else .idle }
  | .hostClearId before =>
      { m.setStr .deviceId [] save with command := .hostClearSecret before }
  | .hostClearSecret _ => { m.setStr .deviceSecret [] save with command := .idle }
  | .regStoreCode code name =>
      { m.setStr .regCode code save with command := .regStoreName name }
  | .regStoreName name => { m.setStr .deviceName name save with command := .idle }

/-! ### Runs -/

/-- `enum lte_lc_pdn_evt_type`, as far as `lte_lc_evt_handler` tells them apart. -/
inductive PdnEvent where
  | activated
  | deactivated
  | networkDetach
  | ctxDestroyed
  | other
deriving DecidableEq, Repr

/-- `lte_lc_evt_handler`. -/
def lteLcEvtHandler (m : Modem) (cid : ℕ) (event : PdnEvent) : Modem :=
  if cid ≠ 0 then m
  else
    match event with
    | .activated => { m with gPdnUp := true, pdnSem := true }
    | .deactivated => { m with gPdnUp := false }
    | .networkDetach => { m with gPdnUp := false }
    | .ctxDestroyed => { m with gPdnUp := false }
    | .other => m

/-- A device that starts with what is in flash; nothing of its sockets is left. -/
def Modem.start (flash : Keys) : Modem where
  ram := flash
  flash := flash
  status := fun _ => (.pending, 0)
  gTlsFd := none
  gWsSock := none
  gCloudHost := []
  gPdnUp := false
  pdnSem := false
  modem := .top .init
  command := .idle
  sockets := ⟨fun _ => none, 0, []⟩
  issued := []
  requests := []
  handshakes := []

/-- A reset: only what was saved, and the record, are left. -/
def Modem.reset (m : Modem) : Modem :=
  { Modem.start m.flash with
    sockets := m.sockets.lost
    issued := m.issued, requests := m.requests, handshakes := m.handshakes }

inductive ModemEvent where
  | task (inp : ModemInput)
  | command (save : SaveOutcome)
  | host (host : CStr)
  | reg (code name : CStr)
  | lte (cid : ℕ) (event : PdnEvent)
  | reset

def ModemEvent.apply (m : Modem) : ModemEvent → Modem
  | task inp => modemStep m inp
  | command save => commandStep m save
  | host h => hostCommand m h
  | reg code name => regCommand m code name
  | lte cid event => lteLcEvtHandler m cid event
  | reset => m.reset

/-- The key the next step of a thread sets, if it does. -/
def ModemPc.sets : ModemPc → Option Key
  | regDrop => some .regCode
  | regStoreId _ _ => some .deviceId
  | regStoreSecret _ _ => some .deviceSecret
  | regStoreName _ _ => some .deviceName
  | regConsume _ => some .regCode
  | regReject => some .regCode
  | _ => none

def CommandPc.sets : CommandPc → Option Key
  | idle => none
  | hostStore _ => some .cloudHost
  | hostClearId _ => some .deviceId
  | hostClearSecret _ => some .deviceSecret
  | regStoreCode _ _ => some .regCode
  | regStoreName _ => some .deviceName

/-- Only a key that is not there is refused. -/
def Modem.MayRefuse (m : Modem) (key : Option Key) (save : SaveOutcome) : Prop :=
  save = .refused → ∀ k ∈ key, m.ram k = [] ∧ m.flash k = []

/-- What can happen: a command starts when the one before is done. -/
def ModemEvent.Possible (m : Modem) : ModemEvent → Prop
  | task inp => m.MayRefuse m.modem.sets inp.save
  | command save => m.MayRefuse m.command.sets save
  | host _ => m.command = .idle
  | reg _ _ => m.command = .idle
  | _ => True

def ModemTrans (m : Modem) (e : ModemEvent) (m' : Modem) : Prop := e.Possible m ∧ m' = e.apply m

instance (m : Modem) (key : Option Key) (save : SaveOutcome) : Decidable (m.MayRefuse key save) :=
  inferInstanceAs (Decidable (_ → _))

instance (m : Modem) : (e : ModemEvent) → Decidable (e.Possible m)
  | .task inp => inferInstanceAs (Decidable (m.MayRefuse m.modem.sets inp.save))
  | .command save => inferInstanceAs (Decidable (m.MayRefuse m.command.sets save))
  | .host _ => inferInstanceAs (Decidable (m.command = .idle))
  | .reg _ _ => inferInstanceAs (Decidable (m.command = .idle))
  | .lte _ _ => .isTrue trivial
  | .reset => .isTrue trivial

/-! ### A device -/

/-- A new device. -/
def factory : Modem := .start fun _ => []

/-- Every call works, and a registration is answered. -/
def answers : ModemInput :=
  ⟨0, .saved, cs "352656100000000",
    ⟨145, 34, [some (cs "HTTP/1.1 200 OK\r\n\r\n#id,7f,s3cret,lamp")], 0, .copy [] [] []⟩, true,
    false⟩

/-- "#reg" with the link up, and the task until the registration has been answered. -/
def registered : List ModemEvent :=
  [.lte 0 .activated, .reg (cs "ABCDEF") (cs "lamp"), .command .saved, .command .saved] ++
    List.replicate 14 (.task answers)

/-- The rest of the registration, and the task until it has connected. -/
def connects : List ModemEvent := List.replicate 16 (.task answers)

/-! ### What a step leaves alone -/

/-- The keys, the commands, the link and the record are as they were. -/
structure Quiet (m m' : Modem) : Prop where
  ram : m'.ram = m.ram
  flash : m'.flash = m.flash
  command : m'.command = m.command
  gCloudHost : m'.gCloudHost = m.gCloudHost
  gPdnUp : m'.gPdnUp = m.gPdnUp
  issued : m'.issued = m.issued
  requests : m'.requests = m.requests
  handshakes : m'.handshakes = m.handshakes

variable {m₀ m : Modem}

theorem Quiet.refl (m : Modem) : Quiet m m := ⟨rfl, rfl, rfl, rfl, rfl, rfl, rfl, rfl⟩

theorem Quiet.goto (h : Quiet m₀ m) (pc : ModemPc) : Quiet m₀ (m.goto pc) :=
  ⟨h.ram, h.flash, h.command, h.gCloudHost, h.gPdnUp, h.issued, h.requests, h.handshakes⟩

theorem Quiet.setStatus (h : Quiet m₀ m) (step : ModemStep) (state : StepState) (err : ℤ) :
    Quiet m₀ (m.setStatus step state err) :=
  ⟨h.ram, h.flash, h.command, h.gCloudHost, h.gPdnUp, h.issued, h.requests, h.handshakes⟩

theorem Quiet.use (h : Quiet m₀ m) (handle : Option ℕ) : Quiet m₀ (m.use handle) :=
  ⟨h.ram, h.flash, h.command, h.gCloudHost, h.gPdnUp, h.issued, h.requests, h.handshakes⟩

theorem Quiet.close (h : Quiet m₀ m) (handle : Option ℕ) : Quiet m₀ (m.close handle) :=
  ⟨h.ram, h.flash, h.command, h.gCloudHost, h.gPdnUp, h.issued, h.requests, h.handshakes⟩

theorem Quiet.openSock (h : Quiet m₀ m) (sock : Socket) : Quiet m₀ (m.openSock sock) :=
  ⟨h.ram, h.flash, h.command, h.gCloudHost, h.gPdnUp, h.issued, h.requests, h.handshakes⟩

theorem Quiet.holding (h : Quiet m₀ m) (gTlsFd gWsSock : Option ℕ) :
    Quiet m₀ { m with gTlsFd := gTlsFd, gWsSock := gWsSock } :=
  ⟨h.ram, h.flash, h.command, h.gCloudHost, h.gPdnUp, h.issued, h.requests, h.handshakes⟩

theorem Quiet.fail (h : Quiet m₀ m) (step : ModemStep) (err : ℤ) : Quiet m₀ (m.fail step err) :=
  (h.setStatus step .error err).goto _

theorem Quiet.registerDone (h : Quiet m₀ m) : Quiet m₀ m.registerDone :=
  ((h.setStatus .register .ok 0).setStatus .tls .pending 0).goto _

theorem Quiet.pdnDone (h : Quiet m₀ m) : Quiet m₀ m.pdnDone :=
  (h.setStatus .pdn .ok 0).goto _

theorem Quiet.superviseEnd (h : Quiet m₀ m) (ws : ℕ) (next : ModemStep) :
    Quiet m₀ (superviseEnd m ws next) :=
  ((((h.close (some ws)).close m.gTlsFd).holding none none).setStatus .websocket .pending 0).goto _

theorem Quiet.superviseCall (h : Quiet m₀ m) (ws : ℕ) (inp : ModemInput) (next : ModemPc) :
    Quiet m₀ (superviseCall m ws inp next) := by
  unfold Cloud.superviseCall
  split_ifs
  · exact (h.use _).superviseEnd ws .tls
  · exact (h.use _).goto next

/-- A step that only moves on: it sets no key, sends nothing and does not read the host. -/
def ModemPc.movesOn : ModemPc → Bool
  | top .tls => false
  | regRequest _ _ _ _ => false
  | wsConnect _ _ _ => false
  | pc => pc.sets.isNone

theorem modemTop_quiet {step : ModemStep} (hstep : step ≠ .tls) (inp : ModemInput) :
    Quiet m (modemTop m step inp) := by
  have hrun := (Quiet.refl m).setStatus step .running 0
  cases step with
  | init =>
      unfold modemTop
      simp only
      split_ifs
      · exact hrun.fail _ _
      · exact (hrun.setStatus _ _ _).goto _
  | sim =>
      unfold modemTop
      simp only
      split_ifs
      · exact hrun.fail _ _
      · exact (hrun.setStatus _ _ _).goto _
  | pdn =>
      unfold modemTop
      simp only
      split_ifs
      · exact hrun.fail _ _
      · exact hrun.goto _
  | tls => exact absurd rfl hstep
  | register =>
      unfold modemTop
      simp only
      split_ifs
      · exact hrun.goto _
      · exact hrun.registerDone
  | websocket =>
      unfold modemTop
      simp only
      split
      · exact hrun.fail _ _
      · exact hrun.goto _

theorem tlsConnect_quiet (inp : ModemInput) : Quiet m (tlsConnect m inp) := by
  have hopen := ((Quiet.refl m).openSock (.tls m.gCloudHost)).use (some m.sockets.next)
  unfold tlsConnect
  simp only
  split_ifs
  · exact (Quiet.refl m).fail _ _
  · exact (hopen.close _).fail _ _
  · exact ((hopen.setStatus .tls .ok 0).holding (some m.sockets.next) m.gWsSock).goto .tlsChoose

/-- **Steps that move on.** -/
theorem modemStep_quiet {inp : ModemInput} (h : m.modem.movesOn = true) :
    Quiet m (modemStep m inp) := by
  have hm := Quiet.refl m
  unfold modemStep
  cases hpc : m.modem with
  | top step =>
      refine modemTop_quiet ?_ inp
      rintro rfl
      rw [hpc] at h
      cases h
  | retry step => exact hm.goto _
  | pdnCheck =>
      simp only
      split_ifs
      · exact hm.pdnDone
      · exact hm.goto _
  | pdnWait =>
      simp only
      split_ifs
      · exact ⟨rfl, rfl, rfl, rfl, rfl, rfl, rfl, rfl⟩
      · exact hm.fail _ _
      · exact hm
  | pdnPoll =>
      simp only
      split_ifs
      · exact (hm.setStatus _ _ _).goto _
      · exact hm.goto _
  | pdnPending =>
      simp only
      split_ifs <;> exact hm.goto _
  | pdnRegistered =>
      simp only
      split_ifs <;> exact hm.goto _
  | tlsConnect => exact tlsConnect_quiet inp
  | tlsChoose => exact hm.goto _
  | regCode => exact hm.goto _
  | regName code =>
      simp only
      split_ifs
      · exact hm.goto _
      · split
        · exact hm.registerDone
        · exact hm.goto _
  | regImei fd code name =>
      simp only
      split_ifs
      · exact hm.goto _
      · cases getImei inp.cgsn <;> exact hm.goto _
  | regClose fd failed =>
      simp only
      split_ifs
      · exact ((hm.close (some fd)).holding none m.gWsSock).goto _
      · exact ((hm.close (some fd)).holding none m.gWsSock).registerDone
  | wsSecret fd id => exact hm.goto _
  | supervise ws =>
      simp only
      split_ifs
      · exact hm.superviseEnd ws .tls
      · exact hm.goto _
  | superviseLink ws =>
      simp only
      split_ifs
      · exact (hm.setStatus .pdn .pending 0).superviseEnd ws .pdn
      · exact hm.goto _
  | supervisePing ws =>
      simp only
      split_ifs
      · exact hm.superviseCall ws inp _
      · exact hm.goto _
  | superviseSend ws =>
      simp only
      split_ifs
      · exact hm.superviseCall ws inp _
      · exact hm.goto _
  | superviseRecv ws => exact hm.superviseCall ws inp _
  | _ =>
      rw [hpc] at h
      cases h

/-- The value the next step of `modem_task` sets a key to. -/
def ModemPc.value : ModemPc → CStr
  | regStoreId _ reply => reply.id
  | regStoreSecret _ reply => reply.secret
  | regStoreName _ reply => reply.verifiedName
  | regReject => regCodeRejected
  | _ => []

/-- **Steps that set a key.** -/
theorem modemStep_sets {inp : ModemInput} {key : Key} (h : m.modem.sets = some key) :
    Quiet (m.setStr key m.modem.value inp.save) (modemStep m inp) := by
  unfold modemStep
  cases hpc : m.modem with
  | regDrop =>
      rw [hpc] at h
      cases h
      exact (Quiet.refl _).registerDone
  | regStoreId fd reply =>
      rw [hpc] at h
      cases h
      exact (Quiet.refl _).goto _
  | regStoreSecret fd reply =>
      rw [hpc] at h
      cases h
      exact (Quiet.refl _).goto _
  | regStoreName fd reply =>
      rw [hpc] at h
      cases h
      exact (Quiet.refl _).goto _
  | regConsume fd =>
      rw [hpc] at h
      cases h
      exact (Quiet.refl _).goto _
  | regReject =>
      rw [hpc] at h
      cases h
      exact (Quiet.refl _).registerDone
  | _ =>
      rw [hpc] at h
      cases h

/-- Steps that read the host. -/
theorem modemTop_tls (inp : ModemInput) :
    Quiet { m with gCloudHost := getCloudHost m.ram } (modemTop m .tls inp) :=
  ⟨rfl, rfl, rfl, rfl, rfl, rfl, rfl, rfl⟩

/-- A request was sent over `fd`. -/
def Modem.asked (m : Modem) (fd : ℕ) (code name imei : CStr) : Modem :=
  { m with requests := m.requests ++ [⟨m.peer fd, code, name, imei⟩] }

/-- Steps that send a registration request. -/
theorem registerRequest_quiet (fd : ℕ) (code name imei : CStr) (inp : ModemInput) :
    Quiet ((m.asked fd code name imei).answered (m.peer fd)
        (registerExchange m.gCloudHost code imei name inp.http))
      (registerRequest m fd code name imei inp) := by
  unfold registerRequest Modem.answered Modem.asked
  cases registerExchange m.gCloudHost code imei name inp.http <;> simp only <;> split_ifs <;>
    exact ⟨rfl, rfl, rfl, rfl, rfl, rfl, rfl, rfl⟩

/-- Steps that send a handshake. -/
theorem websocketConnect_quiet (fd : ℕ) (id secret : CStr) (inp : ModemInput) :
    Quiet { m with handshakes := m.handshakes ++ [⟨m.peer fd, id, secret⟩] }
      (websocketConnect m fd id secret inp) := by
  have hsent : Quiet { m with handshakes := m.handshakes ++ [⟨m.peer fd, id, secret⟩] }
      { m.use (some fd) with handshakes := m.handshakes ++ [⟨m.peer fd, id, secret⟩] } :=
    ⟨rfl, rfl, rfl, rfl, rfl, rfl, rfl, rfl⟩
  unfold websocketConnect
  simp only
  split_ifs
  · exact ((hsent.close (some fd)).holding none m.gWsSock).fail _ _
  · exact (((hsent.openSock .ws).setStatus .websocket .ok 0).holding m.gTlsFd
      (some m.sockets.next)).goto (.supervise m.sockets.next)

theorem setStr_threads (m : Modem) (key : Key) (val : CStr) (save : SaveOutcome) :
    (m.setStr key val save).command = m.command ∧ (m.setStr key val save).gPdnUp = m.gPdnUp := by
  cases save <;> exact ⟨rfl, rfl⟩

theorem answered_rest (m : Modem) (host : CStr) (answer : Except ℤ Reply) :
    (m.answered host answer).ram = m.ram ∧ (m.answered host answer).flash = m.flash ∧
      (m.answered host answer).command = m.command ∧
      (m.answered host answer).gPdnUp = m.gPdnUp ∧
      (m.answered host answer).requests = m.requests ∧
      (m.answered host answer).handshakes = m.handshakes := by
  cases answer <;> exact ⟨rfl, rfl, rfl, rfl, rfl, rfl⟩

/-- What a step of `modem_task` can be. -/
inductive ModemMove (m : Modem) (inp : ModemInput) (m' : Modem) : Prop
  | moves : m.modem.movesOn = true → Quiet m m' → ModemMove m inp m'
  | sets (key : Key) : m.modem.sets = some key →
      Quiet (m.setStr key m.modem.value inp.save) m' → ModemMove m inp m'
  | reads : m.modem = .top .tls → Quiet { m with gCloudHost := getCloudHost m.ram } m' →
      ModemMove m inp m'
  | asks (fd : ℕ) (code name imei : CStr) : m.modem = .regRequest fd code name imei →
      Quiet ((m.asked fd code name imei).answered (m.peer fd)
        (registerExchange m.gCloudHost code imei name inp.http)) m' → ModemMove m inp m'
  | connects (fd : ℕ) (id secret : CStr) : m.modem = .wsConnect fd id secret →
      Quiet { m with handshakes := m.handshakes ++ [⟨m.peer fd, id, secret⟩] } m' →
      ModemMove m inp m'

/-- **What a step of `modem_task` does** to the keys and the record. -/
theorem modemStep_move (m : Modem) (inp : ModemInput) : ModemMove m inp (modemStep m inp) := by
  by_cases hmoves : m.modem.movesOn = true
  · exact .moves hmoves (modemStep_quiet hmoves)
  · cases hsets : m.modem.sets with
    | some key => exact .sets key hsets (modemStep_sets hsets)
    | none =>
        unfold modemStep
        cases hpc : m.modem with
        | top step =>
            cases step with
            | tls => exact .reads hpc (modemTop_tls inp)
            | _ =>
                rw [hpc] at hmoves
                exact absurd rfl hmoves
        | regRequest fd code name imei =>
            exact .asks fd code name imei hpc (registerRequest_quiet fd code name imei inp)
        | wsConnect fd id secret =>
            exact .connects fd id secret hpc (websocketConnect_quiet fd id secret inp)
        | _ =>
            rw [hpc] at hmoves hsets
            first
              | exact absurd rfl hmoves
              | cases hsets

/-- The task leaves the commands and the link to others. -/
theorem modemStep_threads (m : Modem) (inp : ModemInput) :
    (modemStep m inp).command = m.command ∧ (modemStep m inp).gPdnUp = m.gPdnUp := by
  cases modemStep_move m inp with
  | moves _ hq => exact ⟨hq.command, hq.gPdnUp⟩
  | sets key _ hq =>
      obtain ⟨hcommand, hup⟩ := setStr_threads m key m.modem.value inp.save
      exact ⟨hq.command.trans hcommand, hq.gPdnUp.trans hup⟩
  | reads _ hq => exact ⟨hq.command, hq.gPdnUp⟩
  | asks fd code name imei _ hq =>
      obtain ⟨-, -, hcommand, hup, -⟩ := answered_rest
        (m.asked fd code name imei) (m.peer fd)
        (registerExchange m.gCloudHost code imei name inp.http)
      exact ⟨hq.command.trans hcommand, hq.gPdnUp.trans hup⟩
  | connects _ _ _ _ hq => exact ⟨hq.command, hq.gPdnUp⟩

/-- A step that sets no key leaves them all. -/
theorem modemStep_keys {inp : ModemInput} (h : m.modem.sets = none) :
    (modemStep m inp).ram = m.ram ∧ (modemStep m inp).flash = m.flash := by
  cases modemStep_move m inp with
  | moves _ hq => exact ⟨hq.ram, hq.flash⟩
  | sets key hsets _ =>
      rw [h] at hsets
      cases hsets
  | reads _ hq => exact ⟨hq.ram, hq.flash⟩
  | asks fd code name imei _ hq =>
      obtain ⟨hram, hflash, -⟩ := answered_rest
        (m.asked fd code name imei) (m.peer fd)
        (registerExchange m.gCloudHost code imei name inp.http)
      exact ⟨hq.ram.trans hram, hq.flash.trans hflash⟩
  | connects _ _ _ _ hq => exact ⟨hq.ram, hq.flash⟩

theorem setStr_record (m : Modem) (key : Key) (val : CStr) (save : SaveOutcome) :
    (m.setStr key val save).issued = m.issued ∧ (m.setStr key val save).requests = m.requests ∧
      (m.setStr key val save).handshakes = m.handshakes := by
  cases save <;> exact ⟨rfl, rfl, rfl⟩

theorem answered_issued (m : Modem) (host : CStr) (answer : Except ℤ Reply) :
    m.issued ⊆ (m.answered host answer).issued := by
  cases answer with
  | error err => exact List.Subset.refl _
  | ok reply => exact List.subset_append_left _ _

/-- The replies that were given stay on record. -/
theorem modemStep_issued (m : Modem) (inp : ModemInput) :
    m.issued ⊆ (modemStep m inp).issued := by
  cases modemStep_move m inp with
  | moves _ hq =>
      rw [hq.issued]
      exact List.Subset.refl _
  | sets key _ hq =>
      rw [hq.issued, (setStr_record m key _ inp.save).1]
      exact List.Subset.refl _
  | reads _ hq =>
      rw [hq.issued]
      exact List.Subset.refl _
  | asks fd code name imei _ hq =>
      rw [hq.issued]
      exact answered_issued (m.asked fd code name imei) _ _
  | connects _ _ _ _ hq =>
      rw [hq.issued]
      exact List.Subset.refl _

/-- The handshakes sent. -/
theorem modemStep_handshakes (m : Modem) (inp : ModemInput) :
    (modemStep m inp).handshakes = m.handshakes ∨
      ∃ fd id secret, m.modem = .wsConnect fd id secret ∧
        (modemStep m inp).handshakes = m.handshakes ++ [⟨m.peer fd, id, secret⟩] := by
  cases modemStep_move m inp with
  | moves _ hq => exact .inl hq.handshakes
  | sets key _ hq => exact .inl (hq.handshakes.trans (setStr_record m key _ inp.save).2.2)
  | reads _ hq => exact .inl hq.handshakes
  | asks fd code name imei _ hq =>
      exact .inl (hq.handshakes.trans (answered_rest _ _ _).2.2.2.2.2)
  | connects fd id secret hpc hq => exact .inr ⟨fd, id, secret, hpc, hq.handshakes⟩

/-- The requests sent. -/
theorem modemStep_requests (m : Modem) (inp : ModemInput) :
    (modemStep m inp).requests = m.requests ∨
      ∃ fd code name imei, m.modem = .regRequest fd code name imei ∧
        (modemStep m inp).requests = m.requests ++ [⟨m.peer fd, code, name, imei⟩] := by
  cases modemStep_move m inp with
  | moves _ hq => exact .inl hq.requests
  | sets key _ hq => exact .inl (hq.requests.trans (setStr_record m key _ inp.save).2.1)
  | reads _ hq => exact .inl hq.requests
  | asks fd code name imei hpc hq =>
      refine .inr ⟨fd, code, name, imei, hpc, ?_⟩
      exact hq.requests.trans (answered_rest _ _ _).2.2.2.2.1
  | connects _ _ _ _ hq => exact .inl hq.requests

theorem setStr_ram (m : Modem) (key : Key) (val : CStr) (save : SaveOutcome) :
    (m.setStr key val save).ram = if save.inRam then Function.update m.ram key val else m.ram := by
  cases save <;> rfl

theorem setStr_flash (m : Modem) (key : Key) (val : CStr) (save : SaveOutcome) :
    (m.setStr key val save).flash = if save.ok then Function.update m.flash key val
      else m.flash := by
  cases save <;> rfl

/-- `config_set_str` leaves the other keys. -/
theorem setStr_other (m : Modem) {key k : Key} (h : k ≠ key) (val : CStr) (save : SaveOutcome) :
    (m.setStr key val save).ram k = m.ram k ∧ (m.setStr key val save).flash k = m.flash k := by
  cases save with
  | saved => exact ⟨Function.update_of_ne h _ _, Function.update_of_ne h _ _⟩
  | unsaved => exact ⟨Function.update_of_ne h _ _, rfl⟩
  | refused => exact ⟨rfl, rfl⟩

/-- And sets the one it is given, or nothing. -/
theorem setStr_self (m : Modem) (key : Key) (val : CStr) (save : SaveOutcome) :
    (m.setStr key val save).ram key = val ∨
      save = .refused ∧ m.setStr key val save = m := by
  cases save with
  | saved => exact .inl (Function.update_self _ _ _)
  | unsaved => exact .inl (Function.update_self _ _ _)
  | refused => exact .inr ⟨rfl, rfl⟩

/-! ### Where a step leads -/

/-- The place after a step of `modem_task`. -/
def Modem.nextPc (m : Modem) (inp : ModemInput) : ModemPc :=
  match m.modem with
  | .top .init => if inp.err ≠ 0 then .retry .init else .top .sim
  | .top .sim => if inp.err ≠ 0 then .retry .sim else .top .pdn
  | .top .pdn => if inp.err ≠ 0 then .retry .pdn else .pdnCheck
  | .top .tls => .tlsConnect
  | .top .register => if registrationPending m.ram then .regCode else .top .pdn
  | .top .websocket =>
      match m.gTlsFd with
      | none => .retry .websocket
      | some fd => .wsSecret fd (clip regIdLen (m.ram .deviceId))
  | .retry step => .top (if step = .websocket then .tls else step)
  | .pdnCheck => if m.gPdnUp then .pdnPoll else .pdnWait
  | .pdnWait => if m.pdnSem then .pdnPoll else if inp.err ≠ 0 then .retry .pdn else .pdnWait
  | .pdnPoll => if !m.gPdnUp then .top .pdn else .pdnPending
  | .pdnPending => if registrationPending m.ram then .top .tls else .pdnRegistered
  | .pdnRegistered => if deviceRegistered m.ram then .top .tls else .pdnPoll
  | .tlsConnect => if inp.err ≠ 0 then .retry .tls else .tlsChoose
  | .tlsChoose => .top (if registrationPending m.ram then .register else .websocket)
  | .regCode => .regName (clip (regCodeLen + 1) (m.ram .regCode))
  | .regName code =>
      let name := clip (regNameMaxLen + 1) (m.ram .deviceName)
      if name.length < regNameMinLen ∨ regNameMaxLen < name.length then .regDrop
      else
        match m.gTlsFd with
        | none => .top .pdn
        | some fd => .regImei fd code name
  | .regDrop => .top .pdn
  | .regImei fd code name =>
      if inp.err ≠ 0 then .regClose fd true
      else
        match getImei inp.cgsn with
        | none => .regClose fd true
        | some imei => .regRequest fd code name imei
  | .regRequest fd code name imei =>
      let r := registerHttpRequest m.gCloudHost code imei name inp.http
      if r.1 ≠ 0 then .regClose fd true else .regStoreId fd r.2
  | .regStoreId fd reply => .regStoreSecret fd reply
  | .regStoreSecret fd reply => .regStoreName fd reply
  | .regStoreName fd _ => .regConsume fd
  | .regConsume fd => .regClose fd false
  | .regClose _ failed => if failed then .regReject else .top .pdn
  | .regReject => .top .pdn
  | .wsSecret fd id => .wsConnect fd id (clip regSecretLen (m.ram .deviceSecret))
  | .wsConnect _ _ _ => if inp.err ≠ 0 then .retry .websocket else .supervise m.sockets.next
  | .supervise ws => if registrationPending m.ram then .top .tls else .superviseLink ws
  | .superviseLink ws => if !m.gPdnUp then .top .pdn else .supervisePing ws
  | .supervisePing ws => if inp.due ∧ inp.err ≠ 0 then .top .tls else .superviseSend ws
  | .superviseSend ws => if inp.due ∧ inp.err ≠ 0 then .top .tls else .superviseRecv ws
  | .superviseRecv ws => if inp.err ≠ 0 then .top .tls else .supervise ws

theorem superviseCall_modem (ws : ℕ) (inp : ModemInput) (next : ModemPc) :
    (superviseCall m ws inp next).modem = if inp.err ≠ 0 then .top .tls else next := by
  unfold superviseCall
  split_ifs <;> rfl

theorem registerRequest_modem (fd : ℕ) (code name imei : CStr) (inp : ModemInput) :
    (registerRequest m fd code name imei inp).modem =
      let r := registerHttpRequest m.gCloudHost code imei name inp.http
      if r.1 ≠ 0 then .regClose fd true else .regStoreId fd r.2 := by
  unfold registerRequest
  simp only
  split_ifs <;> rfl

theorem modemStep_modem (m : Modem) (inp : ModemInput) :
    (modemStep m inp).modem = m.nextPc inp := by
  unfold modemStep Modem.nextPc
  cases hpc : m.modem with
  | top step =>
      cases step with
      | websocket =>
          unfold modemTop
          simp only
          cases hfd : m.gTlsFd <;> simp only [Modem.setStatus, hfd] <;> rfl
      | register =>
          unfold modemTop
          simp only
          cases hpend : registrationPending m.ram <;> simp only [Modem.setStatus, hpend] <;> rfl
      | tls => rfl
      | _ =>
          unfold modemTop
          simp only
          split_ifs <;> rfl
  | regName code =>
      simp only
      split_ifs
      · rfl
      · cases m.gTlsFd <;> rfl
  | regImei fd code name =>
      simp only
      split_ifs
      · rfl
      · cases getImei inp.cgsn <;> rfl
  | regRequest fd code name imei => exact registerRequest_modem fd code name imei inp
  | tlsConnect =>
      unfold tlsConnect
      simp only
      split_ifs <;> first | rfl | omega
  | wsConnect fd id secret =>
      unfold websocketConnect
      simp only
      split_ifs <;> rfl
  | supervisePing ws =>
      by_cases hdue : inp.due = true
      · simp only [hdue, if_true, true_and]
        exact superviseCall_modem ws inp _
      · simp only [hdue]
        rfl
  | superviseSend ws =>
      by_cases hdue : inp.due = true
      · simp only [hdue, if_true, true_and]
        exact superviseCall_modem ws inp _
      · simp only [hdue]
        rfl
  | superviseRecv ws => exact superviseCall_modem ws inp _
  | pdnWait =>
      simp only
      split_ifs
      · rfl
      · rfl
      · exact hpc
  | regClose fd failed => cases failed <;> rfl
  | _ =>
      simp only
      try split_ifs
      all_goals rfl

/-- What the command thread and the link leave of the modem task. -/
structure SameTask (m m' : Modem) : Prop where
  modem : m'.modem = m.modem
  gCloudHost : m'.gCloudHost = m.gCloudHost
  gTlsFd : m'.gTlsFd = m.gTlsFd
  sockets : m'.sockets = m.sockets
  issued : m'.issued = m.issued
  requests : m'.requests = m.requests
  handshakes : m'.handshakes = m.handshakes

theorem SameTask.refl (m : Modem) : SameTask m m := ⟨rfl, rfl, rfl, rfl, rfl, rfl, rfl⟩

theorem setStr_sameTask (m : Modem) (key : Key) (val : CStr) (save : SaveOutcome)
    (pc : CommandPc) : SameTask m { m.setStr key val save with command := pc } := by
  cases save <;> exact ⟨rfl, rfl, rfl, rfl, rfl, rfl, rfl⟩

theorem commandStep_sameTask (m : Modem) (save : SaveOutcome) :
    SameTask m (commandStep m save) := by
  unfold commandStep
  cases m.command with
  | idle => exact .refl m
  | _ => exact setStr_sameTask m _ _ save _

theorem hostCommand_sameTask (m : Modem) (host : CStr) : SameTask m (hostCommand m host) := by
  unfold hostCommand
  split_ifs <;> exact ⟨rfl, rfl, rfl, rfl, rfl, rfl, rfl⟩

theorem regCommand_sameTask (m : Modem) (code name : CStr) :
    SameTask m (regCommand m code name) := by
  unfold regCommand
  split_ifs <;> exact ⟨rfl, rfl, rfl, rfl, rfl, rfl, rfl⟩

theorem lteLcEvtHandler_sameTask (m : Modem) (cid : ℕ) (event : PdnEvent) :
    SameTask m (lteLcEvtHandler m cid event) := by
  unfold lteLcEvtHandler
  cases event <;> split_ifs <;> exact ⟨rfl, rfl, rfl, rfl, rfl, rfl, rfl⟩

/-- Neither do they begin with setting a key. -/
theorem hostCommand_keys (m : Modem) (host : CStr) :
    (hostCommand m host).ram = m.ram ∧ (hostCommand m host).flash = m.flash := by
  unfold hostCommand
  split_ifs <;> exact ⟨rfl, rfl⟩

theorem regCommand_keys (m : Modem) (code name : CStr) :
    (regCommand m code name).ram = m.ram ∧ (regCommand m code name).flash = m.flash := by
  unfold regCommand
  split_ifs <;> exact ⟨rfl, rfl⟩

theorem lteLcEvtHandler_keys (m : Modem) (cid : ℕ) (event : PdnEvent) :
    (lteLcEvtHandler m cid event).ram = m.ram ∧ (lteLcEvtHandler m cid event).flash = m.flash ∧
      (lteLcEvtHandler m cid event).command = m.command := by
  unfold lteLcEvtHandler
  cases event <;> split_ifs <;> exact ⟨rfl, rfl, rfl⟩

/-- The value the next step of a command sets a key to. -/
def CommandPc.value : CommandPc → CStr
  | hostStore host => host
  | regStoreCode code _ => code
  | regStoreName name => name
  | _ => []

theorem commandStep_idle {save : SaveOutcome} (h : m.command.sets = none) :
    commandStep m save = m := by
  unfold commandStep
  cases hc : m.command with
  | idle => rfl
  | _ =>
      rw [hc] at h
      cases h

/-- **Steps of a command** set a key. -/
theorem commandStep_sets {save : SaveOutcome} {key : Key} (h : m.command.sets = some key) :
    (commandStep m save).ram = (m.setStr key m.command.value save).ram ∧
      (commandStep m save).flash = (m.setStr key m.command.value save).flash := by
  unfold commandStep
  cases hc : m.command with
  | idle =>
      rw [hc] at h
      cases h
  | _ =>
      rw [hc] at h
      cases h
      exact ⟨rfl, rfl⟩

/-! ### The other threads -/

/-- What the command thread does, and the link. -/
def ModemEvent.byOthers : ModemEvent → Bool
  | task _ => false
  | reset => false
  | _ => true

theorem other_sameTask {e : ModemEvent} (h : e.byOthers = true) : SameTask m (e.apply m) := by
  cases e with
  | command save => exact commandStep_sameTask m save
  | host host => exact hostCommand_sameTask m host
  | reg code name => exact regCommand_sameTask m code name
  | lte cid event => exact lteLcEvtHandler_sameTask m cid event
  | _ => cases h

/-- The key they set, if they set one. -/
theorem other_keys {e : ModemEvent} (h : e.byOthers = true) :
    (e.apply m).ram = m.ram ∧ (e.apply m).flash = m.flash ∨
      ∃ save key, e = .command save ∧ m.command.sets = some key ∧
        (e.apply m).ram = (m.setStr key m.command.value save).ram ∧
        (e.apply m).flash = (m.setStr key m.command.value save).flash := by
  cases e with
  | command save =>
      cases hs : m.command.sets with
      | none =>
          have hidle : (ModemEvent.command save).apply m = m := commandStep_idle hs
          rw [hidle]
          exact .inl ⟨rfl, rfl⟩
      | some key => exact .inr ⟨save, key, rfl, rfl, commandStep_sets hs⟩
  | host host => exact .inl (hostCommand_keys m host)
  | reg code name => exact .inl (regCommand_keys m code name)
  | lte cid event =>
      have hkeys := lteLcEvtHandler_keys m cid event
      exact .inl ⟨hkeys.1, hkeys.2.1⟩
  | _ => cases h

/-- The first step of a command. -/
def CommandPc.begins : CommandPc → Bool
  | hostStore _ => true
  | regStoreCode _ _ => true
  | _ => false

/-- No step of a command leads to one. -/
theorem commandStep_begins (m : Modem) (save : SaveOutcome) :
    (commandStep m save).command.begins = false := by
  unfold commandStep
  cases hc : m.command with
  | idle =>
      simp only [hc]
      rfl
  | hostStore host =>
      simp only
      split_ifs <;> rfl
  | _ => rfl

theorem commandStep_ne {save : SaveOutcome} {pc : CommandPc} (h : pc.begins = true) :
    (commandStep m save).command ≠ pc := by
  rintro rfl
  rw [commandStep_begins] at h
  cases h

/-- "#reg" is about to store a code of the right length. -/
def CodeFits (m : Modem) : Prop :=
  ∀ code name, m.command = .regStoreCode code name → code.length = regCodeLen

/-- "#reg" alone makes a command store a code, one of the right length. -/
theorem hostCommand_code {host code name : CStr}
    (h : (hostCommand m host).command = .regStoreCode code name) :
    m.command = .regStoreCode code name := by
  unfold hostCommand at h
  split_ifs at h
  exact h

theorem regCommand_code {code name code' name' : CStr}
    (h : (regCommand m code name).command = .regStoreCode code' name') :
    m.command = .regStoreCode code' name' ∨ code' = code ∧ name' = name ∧
      code.length = regCodeLen := by
  unfold regCommand at h
  split_ifs at h with hlen
  · exact .inl h
  · push Not at hlen
    cases h
    exact .inr ⟨rfl, rfl, hlen.1⟩
  · exact .inl h

theorem CodeFits.apply (h : CodeFits m) (e : ModemEvent) : CodeFits (e.apply m) := by
  intro code name hcmd
  cases e with
  | task inp => exact h code name ((modemStep_threads m inp).1.symm.trans hcmd)
  | command save => exact absurd hcmd (commandStep_ne rfl)
  | host host => exact h code name (hostCommand_code hcmd)
  | reg code' name' =>
      rcases regCommand_code hcmd with hold | ⟨rfl, -, hlen⟩
      · exact h code name hold
      · exact hlen
  | lte cid event => exact h code name ((lteLcEvtHandler_keys m cid event).2.2.symm.trans hcmd)
  | reset => cases hcmd

theorem registrationPending_of_length {keys : Keys}
    (h : (keys .regCode).length = regCodeLen) : registrationPending keys = true := by
  have hclip : clip (regCodeLen + 1) (keys .regCode) = keys .regCode :=
    clip_of_lt (by rw [h]; exact Nat.lt_succ_self _)
  unfold registrationPending
  rw [hclip]
  have hne : ∀ s : CStr, s.length ≠ regCodeLen → keys .regCode ≠ s := by
    rintro s hs rfl
    exact hs h
  simp [hne [] (by decide), hne regCodeRejected (by decide)]

theorem registrationPending_congr {keys keys' : Keys} (h : keys' .regCode = keys .regCode) :
    registrationPending keys' = registrationPending keys := by
  unfold registrationPending
  rw [h]

/-- The others leave a code pending. -/
theorem other_pending (hcode : CodeFits m) {e : ModemEvent} (h : e.byOthers = true)
    (hpend : registrationPending m.ram = true) : registrationPending (e.apply m).ram = true := by
  rcases other_keys h with ⟨hram, -⟩ | ⟨save, key, -, hs, hram, -⟩
  · rw [hram]
    exact hpend
  · rw [hram]
    by_cases hkey : key = .regCode
    · subst hkey
      rcases setStr_self m .regCode m.command.value save with hval | ⟨-, hsame⟩
      · apply registrationPending_of_length
        rw [hval]
        cases hc : m.command with
        | regStoreCode code name => exact hcode code name hc
        | _ =>
            rw [hc] at hs
            cases hs
      · rw [hsame]
        exact hpend
    · rw [registrationPending_congr (setStr_other m (Ne.symm hkey) _ save).1]
      exact hpend

/-! ### A registration under way -/

/-- The place where `step_register` reads the name. -/
def ModemPc.readsName : ModemPc → Bool
  | regName _ => true
  | _ => false

/-- From the look at the code to the last write of the reply. -/
def ModemPc.registers : ModemPc → Bool
  | regCode => true
  | regName _ => true
  | regImei _ _ _ => true
  | regRequest _ _ _ _ => true
  | regStoreId _ _ => true
  | regStoreSecret _ _ => true
  | _ => false

/-- Where a place of `step_register` is entered from, and what was read or checked there. -/
def Modem.Enters (m : Modem) (inp : ModemInput) : ModemPc → Prop
  | .top .register =>
      m.modem = .tlsChoose ∧ registrationPending m.ram = true ∨ m.modem = .retry .register
  | .retry .register => False
  | .regCode => m.modem = .top .register ∧ registrationPending m.ram = true
  | .regName code => m.modem = .regCode ∧ code = clip (regCodeLen + 1) (m.ram .regCode)
  | .regDrop => ∃ code, m.modem = .regName code ∧
      ((clip (regNameMaxLen + 1) (m.ram .deviceName)).length < regNameMinLen ∨
        regNameMaxLen < (clip (regNameMaxLen + 1) (m.ram .deviceName)).length)
  | .regImei _ code name =>
      m.modem = .regName code ∧ name = clip (regNameMaxLen + 1) (m.ram .deviceName)
  | .regRequest fd code name _ => m.modem = .regImei fd code name
  | .regStoreId fd reply => ∃ code name imei, m.modem = .regRequest fd code name imei ∧
      registerHttpRequest m.gCloudHost code imei name inp.http = (0, reply)
  | .regStoreSecret fd reply => m.modem = .regStoreId fd reply
  | .regStoreName fd reply => m.modem = .regStoreSecret fd reply
  | .regConsume fd => ∃ reply, m.modem = .regStoreName fd reply
  | .regClose fd failed => failed = false ∧ m.modem = .regConsume fd ∨
      (∃ code name, m.modem = .regImei fd code name) ∨
        ∃ code name imei, m.modem = .regRequest fd code name imei
  | .regReject => ∃ fd, m.modem = .regClose fd true
  | _ => True

theorem Modem.nextPc_enters (m : Modem) (inp : ModemInput) : m.Enters inp (m.nextPc inp) := by
  unfold Modem.nextPc
  cases hpc : m.modem with
  | top step =>
      cases step with
      | register =>
          simp only
          split_ifs with hpend
          · exact ⟨hpc, hpend⟩
          · trivial
      | _ =>
          simp only
          (repeat' split) <;> trivial
  | retry step =>
      cases step with
      | register => exact .inr hpc
      | _ => trivial
  | tlsChoose =>
      simp only
      split_ifs with hpend
      · exact .inl ⟨hpc, hpend⟩
      · trivial
  | regCode => exact ⟨hpc, rfl⟩
  | regName code =>
      simp only
      split_ifs with hlen
      · exact ⟨code, hpc, hlen⟩
      · cases m.gTlsFd with
        | none => trivial
        | some fd => exact ⟨hpc, rfl⟩
  | regImei fd code name =>
      simp only
      split_ifs
      · exact .inr (.inl ⟨code, name, hpc⟩)
      · cases getImei inp.cgsn with
        | none => exact .inr (.inl ⟨code, name, hpc⟩)
        | some imei => exact hpc
  | regRequest fd code name imei =>
      simp only
      split_ifs with hzero
      · exact .inr (.inr ⟨code, name, imei, hpc⟩)
      · exact ⟨code, name, imei, hpc, Prod.ext (not_not.mp hzero) rfl⟩
  | regStoreId fd reply => exact hpc
  | regStoreSecret fd reply => exact hpc
  | regStoreName fd reply => exact ⟨reply, hpc⟩
  | regConsume fd => exact .inl ⟨rfl, hpc⟩
  | regClose fd failed =>
      cases failed with
      | true => exact ⟨fd, hpc⟩
      | false => trivial
  | _ =>
      simp only
      (repeat' split) <;> trivial

theorem nextPc_registers {inp : ModemInput} (h : (m.nextPc inp).registers = true) :
    m.modem.registers = true ∨
      m.modem = .top .register ∧ registrationPending m.ram = true := by
  have hfrom := m.nextPc_enters inp
  cases hnext : m.nextPc inp <;> rw [hnext] at h hfrom
  case regCode => exact .inr hfrom
  case regName code =>
    rw [hfrom.1]
    exact .inl rfl
  case regImei fd code name =>
    rw [hfrom.1]
    exact .inl rfl
  case regRequest fd code name imei =>
    rw [show m.modem = .regImei fd code name from hfrom]
    exact .inl rfl
  case regStoreId fd reply =>
    obtain ⟨code, name, imei, hpc, -⟩ := hfrom
    rw [hpc]
    exact .inl rfl
  case regStoreSecret fd reply =>
    rw [show m.modem = .regStoreId fd reply from hfrom]
    exact .inl rfl
  all_goals cases h

theorem ModemPc.registers_sets {pc : ModemPc} (h : pc.registers = true) :
    pc.sets ≠ some .regCode := by
  intro hset
  cases pc <;> cases hset <;> cases h

/-- The keys of a copy after a step of `modem_task`. -/
theorem modemStep_ram (m : Modem) (inp : ModemInput) :
    (modemStep m inp).ram = match m.modem.sets with
      | some key => if inp.save.inRam then Function.update m.ram key m.modem.value else m.ram
      | none => m.ram := by
  cases hset : m.modem.sets with
  | none => exact (modemStep_keys hset).1
  | some key => rw [(modemStep_sets hset).ram, setStr_ram]

theorem modemStep_flash (m : Modem) (inp : ModemInput) :
    (modemStep m inp).flash = match m.modem.sets with
      | some key => if inp.save.ok then Function.update m.flash key m.modem.value else m.flash
      | none => m.flash := by
  cases hset : m.modem.sets with
  | none => exact (modemStep_keys hset).2
  | some key => rw [(modemStep_sets hset).flash, setStr_flash]

/-- The keys that a step of `modem_task` does not set. -/
theorem modemStep_other {k : Key} (h : m.modem.sets ≠ some k) (inp : ModemInput) :
    (modemStep m inp).ram k = m.ram k := by
  rw [modemStep_ram]
  cases hset : m.modem.sets with
  | none => rfl
  | some key =>
      have hne : k ≠ key := by
        rintro rfl
        exact h hset
      simp only
      split_ifs
      · exact Function.update_of_ne hne _ _
      · rfl

/-- The code is pending from the look at it to the last write of the reply. -/
def Registering (m : Modem) : Prop :=
  m.modem.registers = true → registrationPending m.ram = true

theorem Registering.step (h : Registering m) (inp : ModemInput) :
    Registering (modemStep m inp) := by
  intro hreg
  rw [modemStep_modem] at hreg
  have hbefore : registrationPending m.ram = true ∧ m.modem.sets ≠ some .regCode := by
    rcases nextPc_registers hreg with hold | ⟨hm, hpend⟩
    · exact ⟨h hold, ModemPc.registers_sets hold⟩
    · rw [hm]
      exact ⟨hpend, by decide⟩
  rw [registrationPending_congr (modemStep_other hbefore.2 inp)]
  exact hbefore.1

theorem Registering.other (h : Registering m) (hcode : CodeFits m) {e : ModemEvent}
    (he : e.byOthers = true) : Registering (e.apply m) := by
  intro hreg
  rw [(other_sameTask he).modem] at hreg
  exact other_pending hcode he (h hreg)

theorem Registering.apply (h : Registering m) (hcode : CodeFits m) (e : ModemEvent) :
    Registering (e.apply m) := by
  cases e with
  | task inp => exact h.step inp
  | reset =>
      intro hreg
      cases hreg
  | _ => exact h.other hcode rfl

end NodemFirmware.Cloud
