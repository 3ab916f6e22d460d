import NodemFirmware.Cloud.Task

/-! # What the websocket feeds the command parser

`websocket_supervise` with the two rings between it and `nodem_task`: it sends a ping when one
is due, drains `ws_tx_ring`, receives and queues what it received in `ws_rx_ring`, while the
other thread takes bytes out of the one (`modem_ws_read`) and puts some into the other
(`modem_ws_write`) at any time.

* `websocket_recv_msg` hands out the payload of each frame in order, in pieces of any size that
  fits its buffer, each with the frame's type; it may time out or fail at any time.
* The type is stored in `message_type` and not looked at: `ws_data_frames_iff` says that the
  bytes read are those of the text and binary frames only while no control frame that came in
  has a payload. -/

namespace NodemFirmware.Cloud

open CText Transition

def wsRingSize : ℕ := 4096
def wsRecvBufSize : ℕ := 1024

/-- What a frame is: a fragment after the first of a message is a `continuation`. -/
inductive FrameType where
  | text
  | binary
  | continuation
  | close
  | ping
  | pong
deriving DecidableEq, Repr

/-- Text and binary messages, in one frame or in fragments. -/
def FrameType.isData : FrameType → Bool
  | text => true
  | binary => true
  | continuation => true
  | _ => false

structure Frame where
  type : FrameType
  final : Bool
  payload : List UInt8
deriving DecidableEq, Repr

/-- `ring_buf_put` into a ring of `wsRingSize` bytes: the ring and how many were queued. -/
def ringBufPut (ring buf : List UInt8) : List UInt8 × ℕ :=
  let n := min buf.length (wsRingSize - ring.length)
  (ring ++ buf.take n, n)

/-- `ring_buf_get`: the bytes taken out and the ring. -/
def ringBufGet (ring : List UInt8) (maxLen : ℕ) : List UInt8 × List UInt8 :=
  (ring.take maxLen, ring.drop maxLen)

/-- `modem_ws_ping_interval_s`, for the value stored under "ping". -/
def modemWsPingIntervalS (secs : ℤ) : ℕ := if 1 ≤ secs ∧ secs ≤ 3600 then secs.toNat else 60

/-! ### The loop -/

/-- Places of `websocket_supervise`: before the checks, the ping, the transmit ring, the receive
and the put of what was received; then returned. -/
inductive SupervisePc where
  | check
  | ping
  | send
  | recv
  | put (buf : List UInt8)
  | done (next : ModemStep)
deriving DecidableEq, Repr

/-- What `websocket_recv_msg` comes back with: `-EAGAIN`, another error, or the next `n` bytes
of the frame it is at. -/
inductive RecvOutcome where
  | again
  | failed
  | bytes (n : ℕ)
deriving DecidableEq, Repr

/-- What a step of the loop is given: the two flags it checks, what `k_uptime_get` returns each
of the three times, the stored ping interval, what `websocket_send_msg` returns and what
`websocket_recv_msg` does. -/
structure SuperviseInput where
  registrationPending : Bool
  pdnUp : Bool
  uptime : Fin 3 → ℤ
  pingSecs : ℤ
  sendErr : ℤ
  recv : RecvOutcome

/-- Which of the two calls of `websocket_send_msg` it is. -/
inductive MessageKind where
  | ping
  | reply
deriving DecidableEq, Repr

/-- A message given to `websocket_send_msg`, and what it returned. -/
structure Outgoing where
  kind : MessageKind
  msg : List UInt8
  err : ℤ
deriving DecidableEq, Repr

/-- The thread, the rings and the socket.  `incoming` is what the socket has yet to hand out,
the frame it is at without the bytes that are out; `attempts`, what `websocket_send_msg` was
given, and the last four fields are history. -/
structure Bridge where
  pc : SupervisePc
  lastPing : ℤ
  wsRxRing : List UInt8
  wsTxRing : List UInt8
  incoming : List Frame
  attempts : List Outgoing
  notified : ℕ
  arrived : List Frame
  returned : List Frame
  yielded : List UInt8
  dropped : ℕ
deriving DecidableEq, Repr

/-- The ping. -/
def pingText (uptime : ℤ) : CStr := cs "ping," ++ fmtD (uptime.tdiv 1000)

/-- `websocket_send_msg` of a text frame; an error ends the loop. -/
def Bridge.sendMsg (b : Bridge) (kind : MessageKind) (msg : List UInt8) (err : ℤ)
    (next : SupervisePc) : Bridge :=
  { b with
    pc := if err < 0 then .done .tls else next
    attempts := b.attempts ++ [⟨kind, msg, err⟩] }

/-- `websocket_recv_msg` handing out `n` bytes of the frame it is at. -/
def Bridge.recvBytes (b : Bridge) (n : ℕ) : Bridge :=
  match b.incoming with
  | [] => b
  | f :: rest =>
      { b with
        pc := .put (f.payload.take n)
        incoming := if f.payload.length ≤ n then rest
          else { f with payload := f.payload.drop n } :: rest
        returned := b.returned ++ [{ f with payload := f.payload.take n }] }

/-- A step of `websocket_supervise`. -/
def superviseStep (b : Bridge) (inp : SuperviseInput) : Bridge :=
  match b.pc with
  | .check =>
      if inp.registrationPending then { b with pc := .done .tls }
      else if !inp.pdnUp then { b with pc := .done .pdn }
      else { b with pc := .ping }
  | .ping =>
      if inp.uptime 0 - b.lastPing ≥ modemWsPingIntervalS inp.pingSecs * 1000 then
        Bridge.sendMsg { b with lastPing := inp.uptime 1 } .ping (pingText (inp.uptime 2))
          inp.sendErr .send
      else { b with pc := .send }
  | .send =>
      let r := ringBufGet b.wsTxRing wsRecvBufSize
      if 0 < r.1.length then Bridge.sendMsg { b with wsTxRing := r.2 } .reply r.1 inp.sendErr .recv
      else { b with pc := .recv }
  | .recv =>
      match inp.recv with
      | .again => { b with pc := .check }
      | .failed => { b with pc := .done .tls }
      | .bytes n => b.recvBytes n
  | .put buf =>
      let r := ringBufPut b.wsRxRing buf
      { b with
        pc := .check
        wsRxRing := r.1
        notified := if 0 < r.2 then b.notified + 1 else b.notified
        dropped := b.dropped + (buf.length - r.2) }
  | .done _ => b

/-- `modem_ws_read`, on the other thread. -/
def modemWsRead (b : Bridge) (maxLen : ℕ) : Bridge :=
  { b with
    wsRxRing := (ringBufGet b.wsRxRing maxLen).2
    yielded := b.yielded ++ (ringBufGet b.wsRxRing maxLen).1 }

/-- `modem_ws_write`, on the other thread. -/
def modemWsWrite (b : Bridge) (buf : List UInt8) : Bridge :=
  { b with wsTxRing := (ringBufPut b.wsTxRing buf).1 }

/-- A frame comes in, or one of the threads takes a step. -/
inductive BridgeEvent where
  | arrive (f : Frame)
  | supervise (inp : SuperviseInput)
  | read (maxLen : ℕ)
  | write (buf : List UInt8)

def BridgeEvent.apply (b : Bridge) : BridgeEvent → Bridge
  | arrive f => { b with incoming := b.incoming ++ [f], arrived := b.arrived ++ [f] }
  | supervise inp => superviseStep b inp
  | read maxLen => modemWsRead b maxLen
  | write buf => modemWsWrite b buf

/-- `websocket_recv_msg` hands out what has come in, as much of it as fits. -/
def SuperviseInput.Possible (b : Bridge) (inp : SuperviseInput) : Prop :=
  match b.pc, inp.recv, b.incoming with
  | .recv, .bytes n, f :: _ => n ≤ f.payload.length ∧ n ≤ wsRecvBufSize
  | .recv, .bytes _, [] => False
  | _, _, _ => True

instance (b : Bridge) (inp : SuperviseInput) : Decidable (inp.Possible b) := by
  unfold SuperviseInput.Possible
  split <;> infer_instance

def BridgeEvent.Possible (b : Bridge) : BridgeEvent → Prop
  | supervise inp => inp.Possible b
  | _ => True

instance (b : Bridge) : (e : BridgeEvent) → Decidable (e.Possible b)
  | .arrive _ => .isTrue trivial
  | .supervise inp => inferInstanceAs (Decidable (inp.Possible b))
  | .read _ => .isTrue trivial
  | .write _ => .isTrue trivial

def BridgeTrans (b : Bridge) (e : BridgeEvent) (b' : Bridge) : Prop :=
  e.Possible b ∧ b' = e.apply b

/-- A connection as `websocket_supervise` is entered, over what the rings still hold. -/
def Bridge.connected (rx tx : List UInt8) (uptime : ℤ) : Bridge :=
  ⟨.check, uptime, rx, tx, [], [], 0, [], [], [], 0⟩

/-! ### The bytes of frames -/

/-- The payloads of the frames of some types, in order. -/
def bytesOf (keep : FrameType → Bool) (frames : List Frame) : List UInt8 :=
  frames.flatMap fun f => if keep f.type then f.payload else []

/-- No control frame among them carries anything. -/
def ControlEmpty (frames : List Frame) : Prop :=
  ∀ f ∈ frames, f.type.isData = false → f.payload = []

instance (frames : List Frame) : Decidable (ControlEmpty frames) :=
  inferInstanceAs (Decidable (∀ f ∈ frames, _))

section Bytes

variable {keep : FrameType → Bool} {frames frames' : List Frame} {f : Frame}

@[simp] theorem bytesOf_nil : bytesOf keep [] = [] := rfl

@[simp] theorem bytesOf_append :
    bytesOf keep (frames ++ frames') = bytesOf keep frames ++ bytesOf keep frames' :=
  List.flatMap_append

@[simp] theorem bytesOf_cons :
    bytesOf keep (f :: frames) = (if keep f.type then f.payload else []) ++ bytesOf keep frames :=
  rfl

/-- The bytes of all frames are those of the data frames just if no control frame has any. -/
theorem bytesOf_all_eq_iff :
    bytesOf (fun _ => true) frames = bytesOf FrameType.isData frames ↔ ControlEmpty frames := by
  -- by length: what the control frames have is what the one side is longer by
  have hlen : ∀ frames, (bytesOf (fun _ => true) frames).length =
      (bytesOf FrameType.isData frames).length + (bytesOf (fun t => !t.isData) frames).length := by
    intro frames
    induction frames with
    | nil => rfl
    | cons f frames ih =>
        simp only [bytesOf_cons, List.length_append, ih]
        cases f.type.isData <;> simp <;> omega
  constructor
  · intro h f hf hctl
    have hzero : bytesOf (fun t => !t.isData) frames = [] := by
      rw [← List.length_eq_zero_iff]
      have := congrArg List.length h
      have := hlen frames
      omega
    unfold bytesOf at hzero
    have hnone := List.flatMap_eq_nil_iff.mp hzero f hf
    simpa [hctl] using hnone
  · intro h
    induction frames with
    | nil => rfl
    | cons f frames ih =>
        have hhead := h f (List.mem_cons_self ..)
        rw [bytesOf_cons, bytesOf_cons, ih fun g hg => h g (List.mem_cons_of_mem _ hg)]
        cases hd : f.type.isData
        · simp [hhead hd]
        · simp

/-- Handing out the first bytes of a frame takes nothing from its type's bytes. -/
theorem bytesOf_split (n : ℕ) :
    bytesOf keep [{ f with payload := f.payload.take n }] ++
      bytesOf keep (if f.payload.length ≤ n then frames
        else { f with payload := f.payload.drop n } :: frames) = bytesOf keep (f :: frames) := by
  split_ifs with hn
  · rw [List.take_of_length_le hn]
    simp
  · simp only [bytesOf_cons, bytesOf_nil, List.append_nil]
    cases keep f.type
    · simp
    · simp only [if_true]
      rw [← List.append_assoc, List.take_append_drop]

end Bytes

/-! ### What is kept -/

/-- What the thread holds between the receive and the put. -/
def SupervisePc.held : SupervisePc → List UInt8
  | put buf => buf
  | _ => []

/-- The frames handed out and those to come make up what came in, type by type; while nothing
was dropped, what was read and what is queued make up what was handed out. -/
structure Bridged (rx : List UInt8) (b : Bridge) : Prop where
  order : ∀ keep, bytesOf keep b.returned ++ bytesOf keep b.incoming = bytesOf keep b.arrived
  flow : b.dropped = 0 →
    b.yielded ++ b.wsRxRing ++ b.pc.held = rx ++ bytesOf (fun _ => true) b.returned

variable {rx : List UInt8} {b b' : Bridge}

theorem Bridged.connected (rx tx : List UInt8) (uptime : ℤ) :
    Bridged rx (.connected rx tx uptime) :=
  ⟨fun _ => rfl, fun _ => by simp [Bridge.connected, SupervisePc.held]⟩

/-- A step that moves no received bytes. -/
theorem Bridged.of_same (h : Bridged rx b) (hheld : b'.pc.held = b.pc.held)
    (hring : b'.wsRxRing = b.wsRxRing) (hin : b'.incoming = b.incoming)
    (harrived : b'.arrived = b.arrived) (hreturned : b'.returned = b.returned)
    (hyielded : b'.yielded = b.yielded) (hdropped : b'.dropped = b.dropped) : Bridged rx b' := by
  constructor
  · rw [hreturned, hin, harrived]
    exact h.order
  · rw [hdropped, hyielded, hring, hheld, hreturned]
    exact h.flow

theorem Bridged.sendMsg (h : Bridged rx b) (hheld : b.pc.held = []) (kind : MessageKind)
    (msg : List UInt8) (err : ℤ) {next : SupervisePc} (hnext : next.held = []) :
    Bridged rx (b.sendMsg kind msg err next) := by
  refine h.of_same ?_ rfl rfl rfl rfl rfl rfl
  unfold Bridge.sendMsg
  dsimp only
  split_ifs
  · exact hheld.symm
  · exact hnext.trans hheld.symm

theorem Bridged.recvBytes (h : Bridged rx b) (hheld : b.pc.held = []) (n : ℕ) :
    Bridged rx (b.recvBytes n) := by
  unfold Bridge.recvBytes
  cases hin : b.incoming with
  | nil => exact h
  | cons f rest =>
      simp only
      constructor
      · intro keep
        have horder := h.order keep
        rw [hin] at horder
        simp only
        rw [bytesOf_append, List.append_assoc, bytesOf_split, horder]
      · intro hdropped
        have hflow := h.flow hdropped
        rw [hheld, List.append_nil] at hflow
        simp only [SupervisePc.held]
        rw [hflow, bytesOf_append, bytesOf_cons]
        simp

/-- The put: what does not fit the ring is dropped. -/
theorem Bridged.put (h : Bridged rx b) {buf : List UInt8} (hpc : b.pc = .put buf) (n : ℕ) :
    Bridged rx { b with
      pc := .check
      wsRxRing := (ringBufPut b.wsRxRing buf).1
      notified := n
      dropped := b.dropped + (buf.length - (ringBufPut b.wsRxRing buf).2) } := by
  constructor
  · exact h.order
  · simp only
    intro hdropped
    have hflow := h.flow (by omega)
    have hall : (ringBufPut b.wsRxRing buf).1 = b.wsRxRing ++ buf := by
      unfold ringBufPut at hdropped ⊢
      simp only at hdropped ⊢
      rw [List.take_of_length_le (by omega)]
    rw [hpc] at hflow
    rw [hall]
    simpa [SupervisePc.held] using hflow

/-- **Steps of the loop.** -/
theorem Bridged.supervise (h : Bridged rx b) (inp : SuperviseInput) :
    Bridged rx (superviseStep b inp) := by
  unfold superviseStep
  cases hpc : b.pc with
  | check =>
      have hheld : b.pc.held = [] := by rw [hpc]; rfl
      simp only
      split_ifs <;> exact h.of_same hheld.symm rfl rfl rfl rfl rfl rfl
  | ping =>
      have hheld : b.pc.held = [] := by rw [hpc]; rfl
      simp only
      split_ifs
      · have hset : Bridged rx { b with lastPing := inp.uptime 1 } :=
          h.of_same rfl rfl rfl rfl rfl rfl rfl
        exact hset.sendMsg hheld _ _ _ rfl
      · exact h.of_same hheld.symm rfl rfl rfl rfl rfl rfl
  | send =>
      have hheld : b.pc.held = [] := by rw [hpc]; rfl
      simp only
      split_ifs
      · have hset : Bridged rx { b with wsTxRing := (ringBufGet b.wsTxRing wsRecvBufSize).2 } :=
          h.of_same rfl rfl rfl rfl rfl rfl rfl
        exact hset.sendMsg hheld _ _ _ rfl
      · exact h.of_same hheld.symm rfl rfl rfl rfl rfl rfl
  | recv =>
      have hheld : b.pc.held = [] := by rw [hpc]; rfl
      simp only
      split
      · exact h.of_same hheld.symm rfl rfl rfl rfl rfl rfl
      · exact h.of_same hheld.symm rfl rfl rfl rfl rfl rfl
      · exact h.recvBytes hheld _
  | put buf => exact h.put hpc _
  | done next => exact h

/-- **Steps** of either thread, and frames that come in. -/
theorem Bridged.apply (h : Bridged rx b) (e : BridgeEvent) : Bridged rx (e.apply b) := by
  cases e with
  | arrive f =>
      constructor
      · intro keep
        simp only [BridgeEvent.apply]
        rw [bytesOf_append, bytesOf_append, ← List.append_assoc, h.order keep]
      · exact h.flow
  | supervise inp => exact h.supervise inp
  | read maxLen =>
      constructor
      · exact h.order
      · intro hdropped
        have hflow := h.flow hdropped
        simp only [BridgeEvent.apply, modemWsRead, ringBufGet] at hflow ⊢
        rw [← hflow, List.append_assoc b.yielded, List.take_append_drop]
  | write buf => exact h.of_same rfl rfl rfl rfl rfl rfl rfl

/-- **Runs** of a connection. -/
theorem Bridged.run {tx : List UInt8} {uptime : ℤ} {events : List BridgeEvent}
    (h : Run BridgeTrans (.connected rx tx uptime) events b) : Bridged rx b := by
  refine h.invariant ?_ (Bridged.connected rx tx uptime)
  rintro b e b' hb ⟨-, rfl⟩
  exact hb.apply e

/-- **Only data frames feed the parser, while control frames are empty.**  In every run in which
the ring never filled: what `modem_ws_read` yielded, what is queued and what is about to be are
the payloads of the text and binary frames handed out, after what the ring held before, just if
no control frame handed out has a payload; and once everything is through, just if none that
came in has. -/
theorem ws_data_frames_iff (rx tx : List UInt8) (uptime : ℤ) (events : List BridgeEvent)
    (b : Bridge) (h : Run BridgeTrans (.connected rx tx uptime) events b) (hfits : b.dropped = 0) :
    (b.yielded ++ b.wsRxRing ++ b.pc.held = rx ++ bytesOf FrameType.isData b.returned ↔
      ControlEmpty b.returned) ∧
    (b.incoming = [] → b.pc.held = [] → b.wsRxRing = [] →
      (b.yielded = rx ++ bytesOf FrameType.isData b.arrived ↔ ControlEmpty b.arrived)) := by
  obtain ⟨horder, hflow⟩ := Bridged.run h
  have hall := hflow hfits
  refine ⟨?_, fun hin hheld hring => ?_⟩
  · rw [hall, List.append_cancel_left_eq, bytesOf_all_eq_iff]
  · rw [hheld, hring, List.append_nil, List.append_nil] at hall
    simp only [hin, bytesOf_nil, List.append_nil] at horder
    rw [hall, horder, List.append_cancel_left_eq, bytesOf_all_eq_iff]

/-! ### Two connections -/

theorem bridge_run (b : Bridge) (events : List BridgeEvent)
    (h : Along (fun b e => BridgeEvent.apply b e) (fun b e => e.Possible b) b events) :
    Run BridgeTrans b events (events.foldl (fun b e => BridgeEvent.apply b e) b) :=
  Run.of_along _ _ (fun _ _ he => ⟨he, rfl⟩) h

/-- A pass of the loop that receives `n` bytes. -/
def receivePass (n : ℕ) : List BridgeEvent :=
  List.replicate 5 (.supervise ⟨false, true, fun _ => 0, 60, 0, .bytes n⟩)

/-- A message in two fragments around an empty ping, in three passes and two reads. -/
def fragmentsReceived : List BridgeEvent :=
  [.arrive ⟨.text, false, cs "#c"⟩, .arrive ⟨.ping, true, []⟩] ++ receivePass 2 ++
    [.arrive ⟨.continuation, true, cs "fg"⟩, .read 1] ++ receivePass 0 ++ receivePass 2 ++
    [.read 4096]

theorem ws_data_frames_iff_fragments :
    (fragmentsReceived.foldl (fun b e => BridgeEvent.apply b e) (.connected [] [] 0)).yielded =
      cs "#cfg" := by
  have hrun := bridge_run (.connected [] [] 0) fragmentsReceived (by decide +kernel)
  exact ((ws_data_frames_iff [] [] 0 _ _ hrun (by decide +kernel)).2 (by decide +kernel)
    (by decide +kernel) (by decide +kernel)).mpr (by decide +kernel)

/-- A ping with a payload: it is read like a command. -/
def pingReceived : List BridgeEvent :=
  [.arrive ⟨.ping, true, cs "#cfg"⟩] ++ receivePass 4 ++ [.read 4096]

theorem ws_ping_read :
    ¬ ∀ (uptime : ℤ) (events : List BridgeEvent) (b : Bridge),
      Run BridgeTrans (.connected [] [] uptime) events b → b.dropped = 0 →
      b.incoming = [] → b.pc.held = [] → b.wsRxRing = [] →
        b.yielded = bytesOf FrameType.isData b.arrived := by
  intro h
  have hrun := bridge_run (.connected [] [] 0) pingReceived (by decide +kernel)
  have hread := h 0 _ _ hrun (by decide +kernel) (by decide +kernel) (by decide +kernel)
    (by decide +kernel)
  exact absurd hread (by decide +kernel)

end NodemFirmware.Cloud
