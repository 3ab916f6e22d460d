import NodemFirmware.Cloud.Receive

/-! # What the websocket sends

`nodem_process_ws` queues its replies in `ws_tx_ring`; whichever connection is up sends them, in
messages of what the ring holds, with pings in between.  The ring outlives the connections.

* `Traffic` is the bridge over all connections: what `websocket_send_msg` was given on each of
  them, and what `modem_ws_write` has accepted since the first.
* `replies_in_order`: the replies it was given are what was accepted, in order and once each; one
  that was not sent is the last message of its connection. -/

namespace NodemFirmware.Cloud

open CText Transition

/-- `websocket_supervise` has returned. -/
def SupervisePc.Returned : SupervisePc → Prop
  | done _ => True
  | _ => False

instance : (pc : SupervisePc) → Decidable pc.Returned
  | .done _ => .isTrue trivial
  | .check | .ping | .send | .recv | .put _ => .isFalse id

/-- The bridge over one connection after the other. -/
structure Traffic where
  bridge : Bridge
  before : List (List Outgoing)
  accepted : List UInt8
deriving DecidableEq

/-- A step of the bridge, or the next connection once `websocket_supervise` has returned. -/
inductive TrafficEvent where
  | bridge (e : BridgeEvent)
  | connect (uptime : ℤ)

namespace Traffic

/-- The first connection, over what the rings hold by then. -/
def connected (rx tx : List UInt8) (uptime : ℤ) : Traffic := ⟨.connected rx tx uptime, [], []⟩

/-- What `modem_ws_write` queues of a reply. -/
def accepts (b : Bridge) : BridgeEvent → List UInt8
  | .write buf => buf.take (ringBufPut b.wsTxRing buf).2
  | _ => []

def apply (t : Traffic) : TrafficEvent → Traffic
  | .bridge e => { t with bridge := e.apply t.bridge, accepted := t.accepted ++ accepts t.bridge e }
  | .connect uptime =>
      { t with
        bridge := .connected t.bridge.wsRxRing t.bridge.wsTxRing uptime
        before := t.before ++ [t.bridge.attempts] }

def Possible (t : Traffic) : TrafficEvent → Prop
  | .bridge e => e.Possible t.bridge
  | .connect _ => t.bridge.pc.Returned

/-- What `websocket_send_msg` was given, connection by connection. -/
def conns (t : Traffic) : List (List Outgoing) := t.before ++ [t.bridge.attempts]

instance (t : Traffic) : (e : TrafficEvent) → Decidable (t.Possible e)
  | .bridge e => inferInstanceAs (Decidable (e.Possible t.bridge))
  | .connect _ => inferInstanceAs (Decidable t.bridge.pc.Returned)

end Traffic

def TrafficTrans (t : Traffic) (e : TrafficEvent) (t' : Traffic) : Prop :=
  t.Possible e ∧ t' = t.apply e

/-! ### Messages -/

/-- A ping says an uptime; a reply is a part of the ring that fits the send buffer. -/
def Outgoing.Proper (a : Outgoing) : Prop :=
  match a.kind with
  | .ping => ∃ uptime, a.msg = pingText uptime
  | .reply => 0 < a.msg.length ∧ a.msg.length ≤ wsRecvBufSize

/-- The bytes of the replies among messages. -/
def replyBytes (conn : List Outgoing) : List UInt8 :=
  conn.flatMap fun a => if a.kind = .reply then a.msg else []

/-- Only the last message may have failed. -/
def BrokenOff (conn : List Outgoing) : Prop := ∀ a ∈ conn.dropLast, 0 ≤ a.err

/-- What was given to `websocket_send_msg` on all connections. -/
structure Sends (tx : List UInt8) (t : Traffic) : Prop where
  order : replyBytes t.conns.flatten ++ t.bridge.wsTxRing = tx ++ t.accepted
  proper : ∀ conn ∈ t.conns, ∀ a ∈ conn, a.Proper
  last : ∀ conn ∈ t.conns, BrokenOff conn
  ring : t.bridge.wsTxRing.length ≤ wsRingSize

section Messages

variable {conn conn' : List Outgoing}

@[simp] theorem replyBytes_append :
    replyBytes (conn ++ conn') = replyBytes conn ++ replyBytes conn' :=
  List.flatMap_append

theorem brokenOff_of_sent (h : ∀ a ∈ conn, 0 ≤ a.err) : BrokenOff conn :=
  fun a ha => h a (List.mem_of_mem_dropLast ha)

theorem brokenOff_concat (h : ∀ a ∈ conn, 0 ≤ a.err) (a : Outgoing) :
    BrokenOff (conn ++ [a]) := by
  intro b hb
  rw [List.dropLast_concat] at hb
  exact h b hb

end Messages

/-! ### What a step sends -/

/-- `out` is what a step of the bridge gives to `websocket_send_msg`. -/
structure Emits (b b' : Bridge) (out : List Outgoing) (accepted : List UInt8) : Prop where
  attempts : b'.attempts = b.attempts ++ out
  order : replyBytes out ++ b'.wsTxRing = b.wsTxRing ++ accepted
  proper : ∀ a ∈ out, a.Proper
  single : out = [] ∨ ∃ a, out = [a]
  failed : ∀ a ∈ out, a.err < 0 → b'.pc.Returned
  returned : b.pc.Returned → out = [] ∧ b'.pc.Returned
  ring : b.wsTxRing.length ≤ wsRingSize → b'.wsTxRing.length ≤ wsRingSize

variable {b b' : Bridge}

/-- A step that sends nothing and leaves the ring alone. -/
theorem Emits.nothing (hattempts : b'.attempts = b.attempts) (hring : b'.wsTxRing = b.wsTxRing)
    (hpc : b.pc.Returned → b'.pc.Returned) : Emits b b' [] [] where
  attempts := by simp [hattempts]
  order := by simp [hring, replyBytes]
  proper := fun _ h => by cases h
  single := .inl rfl
  failed := fun _ h => by cases h
  returned := fun h => ⟨rfl, hpc h⟩
  ring := fun h => by rwa [hring]

/-- A message given to `websocket_send_msg`. -/
theorem Emits.sendMsg {kind : MessageKind} {msg : List UInt8} {err : ℤ}
    (hproper : Outgoing.Proper ⟨kind, msg, err⟩) (ring : List UInt8) {lastPing : ℤ}
    (hring : replyBytes [⟨kind, msg, err⟩] ++ ring = b.wsTxRing) (hpc : ¬ b.pc.Returned)
    (next : SupervisePc) :
    Emits b (Bridge.sendMsg { b with wsTxRing := ring, lastPing := lastPing } kind msg err next)
      [⟨kind, msg, err⟩] [] := by
  have hlen : ring.length ≤ b.wsTxRing.length := by
    rw [← hring, List.length_append]
    exact Nat.le_add_left _ _
  refine ⟨rfl, ?_, by simpa using hproper, .inr ⟨_, rfl⟩, ?_, fun h => absurd h hpc,
    fun hle => Nat.le_trans hlen hle⟩
  · rw [List.append_nil]
    exact hring
  · intro a ha herr
    rw [List.mem_singleton.mp ha] at herr
    simp [Bridge.sendMsg, herr, SupervisePc.Returned]

/-- **Steps of the loop**: a ping that is due, or the next part of the ring. -/
theorem supervise_emits (b : Bridge) (inp : SuperviseInput) :
    ∃ out, Emits b (superviseStep b inp) out [] := by
  unfold superviseStep
  cases hpc : b.pc with
  | check =>
      have hrunning : ¬ b.pc.Returned := by simp [hpc, SupervisePc.Returned]
      refine ⟨[], .nothing ?_ ?_ fun h => absurd h hrunning⟩ <;> simp only <;> split_ifs <;> rfl
  | ping =>
      have hrunning : ¬ b.pc.Returned := by simp [hpc, SupervisePc.Returned]
      simp only
      split_ifs
      · exact ⟨[⟨.ping, pingText (inp.uptime 2), inp.sendErr⟩],
          Emits.sendMsg (show Outgoing.Proper ⟨.ping, _, _⟩ from ⟨_, rfl⟩) b.wsTxRing
            (by simp [replyBytes]) hrunning _⟩
      · exact ⟨[], .nothing rfl rfl fun h => absurd h hrunning⟩
  | send =>
      have hrunning : ¬ b.pc.Returned := by simp [hpc, SupervisePc.Returned]
      simp only
      split_ifs with hsome
      · refine ⟨[⟨.reply, (ringBufGet b.wsTxRing wsRecvBufSize).1, inp.sendErr⟩],
          Emits.sendMsg
            (show Outgoing.Proper ⟨.reply, _, _⟩ from ⟨hsome, List.length_take_le _ _⟩) _ ?_
            hrunning _⟩
        simp [replyBytes, ringBufGet]
      · exact ⟨[], .nothing rfl rfl fun h => absurd h hrunning⟩
  | recv =>
      have hrunning : ¬ b.pc.Returned := by simp [hpc, SupervisePc.Returned]
      refine ⟨[], .nothing ?_ ?_ fun h => absurd h hrunning⟩
      all_goals
        simp only
        split
        · rfl
        · rfl
        · unfold Bridge.recvBytes
          split <;> rfl
  | put buf => exact ⟨[], .nothing rfl rfl fun h => by rw [hpc] at h; exact absurd h id⟩
  | done next => exact ⟨[], .nothing rfl rfl fun h => h⟩

/-- **Steps** of either thread. -/
theorem bridge_emits (b : Bridge) (e : BridgeEvent) :
    ∃ out, Emits b (e.apply b) out (Traffic.accepts b e) := by
  cases e with
  | arrive f => exact ⟨[], .nothing rfl rfl id⟩
  | supervise inp => exact supervise_emits b inp
  | read maxLen => exact ⟨[], .nothing rfl rfl id⟩
  | write buf =>
      refine ⟨[], ?_, ?_, (fun _ h => by cases h), .inl rfl, (fun _ h => by cases h),
        fun h => ⟨rfl, h⟩, fun hle => ?_⟩
      · simp [BridgeEvent.apply, modemWsWrite]
      · simp [BridgeEvent.apply, modemWsWrite, replyBytes, Traffic.accepts, ringBufPut]
      · simp only [BridgeEvent.apply, modemWsWrite, ringBufPut, List.length_append,
          List.length_take]
        omega

/-! ### What a run sends -/

/-- While a connection is up, all of its messages were sent. -/
structure Traced (tx : List UInt8) (t : Traffic) : Prop where
  sends : Sends tx t
  running : ¬ t.bridge.pc.Returned → ∀ a ∈ t.bridge.attempts, 0 ≤ a.err

variable {tx : List UInt8} {t : Traffic}

theorem connected_traced {rx tx : List UInt8} (htx : tx.length ≤ wsRingSize) (uptime : ℤ) :
    Traced tx (.connected rx tx uptime) where
  sends :=
    { order := by simp [replyBytes, Traffic.conns, Traffic.connected, Bridge.connected]
      proper := by simp [Traffic.conns, Traffic.connected, Bridge.connected]
      last := by simp [Traffic.conns, Traffic.connected, Bridge.connected, BrokenOff]
      ring := htx }
  running := fun _ _ h => by cases h

/-- The next connection starts with nothing sent and what the ring still holds. -/
theorem Traced.connect (h : Traced tx t) (uptime : ℤ) : Traced tx (t.apply (.connect uptime)) where
  sends :=
    { order := by
        show replyBytes (t.conns ++ [[]]).flatten ++ t.bridge.wsTxRing = tx ++ t.accepted
        rw [List.flatten_append, replyBytes_append, ← h.sends.order]
        simp [replyBytes]
      proper := by
        intro conn hconn
        rcases List.mem_append.mp hconn with hold | hnew
        · exact h.sends.proper conn hold
        · rw [List.mem_singleton.mp hnew]
          exact fun a ha => by cases ha
      last := by
        intro conn hconn
        rcases List.mem_append.mp hconn with hold | hnew
        · exact h.sends.last conn hold
        · rw [List.mem_singleton.mp hnew]
          exact fun a ha => by cases ha
      ring := h.sends.ring }
  running := fun _ _ ha => by cases ha

/-- A step of the bridge goes on with the messages of this connection. -/
theorem Traced.bridge (h : Traced tx t) (e : BridgeEvent) : Traced tx (t.apply (.bridge e)) := by
  obtain ⟨out, hout⟩ := bridge_emits t.bridge e
  have hnow : t.bridge.attempts ∈ t.conns := List.mem_append_right _ List.mem_cons_self
  have hbefore : ∀ conn ∈ t.before, conn ∈ t.conns := fun conn => List.mem_append_left _
  have hconns : (t.apply (.bridge e)).conns = t.before ++ [t.bridge.attempts ++ out] := by
    rw [← hout.attempts]
    rfl
  have hrunning : ¬ (e.apply t.bridge).pc.Returned → ¬ t.bridge.pc.Returned :=
    fun hafter hdone => hafter (hout.returned hdone).2
  refine ⟨⟨?_, ?_, ?_, hout.ring h.sends.ring⟩, ?_⟩
  · have horder := h.sends.order
    unfold Traffic.conns at horder
    rw [List.flatten_append, replyBytes_append, List.flatten_singleton] at horder
    rw [hconns, List.flatten_append, replyBytes_append, List.flatten_singleton, replyBytes_append]
    show _ ++ (e.apply t.bridge).wsTxRing = tx ++ (t.accepted ++ Traffic.accepts t.bridge e)
    rw [List.append_assoc, List.append_assoc, hout.order, ← List.append_assoc,
      ← List.append_assoc, horder, List.append_assoc]
  · intro conn hconn
    rw [hconns] at hconn
    rcases List.mem_append.mp hconn with hold | hnew
    · exact h.sends.proper conn (hbefore conn hold)
    · rw [List.mem_singleton.mp hnew]
      intro a ha
      rcases List.mem_append.mp ha with ha | ha
      · exact h.sends.proper _ hnow a ha
      · exact hout.proper a ha
  · intro conn hconn
    rw [hconns] at hconn
    rcases List.mem_append.mp hconn with hold | hnew
    · exact h.sends.last conn (hbefore conn hold)
    · rw [List.mem_singleton.mp hnew]
      by_cases hdone : t.bridge.pc.Returned
      · rw [(hout.returned hdone).1, List.append_nil]
        exact h.sends.last _ hnow
      · have hsent := h.running hdone
        rcases hout.single with hnil | ⟨a, hone⟩
        · rw [hnil, List.append_nil]
          exact brokenOff_of_sent hsent
        · rw [hone]
          exact brokenOff_concat hsent a
  · intro hafter a ha
    have ha : a ∈ t.bridge.attempts ++ out := hout.attempts ▸ ha
    rcases List.mem_append.mp ha with ha | ha
    · exact h.running (hrunning hafter) a ha
    · exact Int.not_lt.mp fun hfailed => hafter (hout.failed a ha hfailed)

/-- **Runs** over any number of connections. -/
theorem Traced.run {rx : List UInt8} (htx : tx.length ≤ wsRingSize) {uptime : ℤ}
    {events : List TrafficEvent} (h : Run TrafficTrans (.connected rx tx uptime) events t) :
    Traced tx t := by
  refine h.invariant ?_ (connected_traced htx uptime)
  rintro t e t' htraced ⟨-, rfl⟩
  cases e with
  | bridge e => exact htraced.bridge e
  | connect uptime => exact htraced.connect uptime

/-- **Replies go out in order, once each, over any number of connections.**  In every run: what
`websocket_send_msg` was given on each connection are pings and parts of the transmit ring of at
most `wsRecvBufSize` bytes; the replies among it on all connections, in order, and then what the
ring still holds, are what the ring held at first and what was accepted since; only the last
message of a connection may have failed, and so be lost. -/
theorem replies_in_order (rx tx : List UInt8) (uptime : ℤ) (events : List TrafficEvent)
    (t : Traffic) (htx : tx.length ≤ wsRingSize)
    (h : Run TrafficTrans (.connected rx tx uptime) events t) :
    Sends tx t :=
  (Traced.run htx h).sends

/-- A pass of the loop that sends with the result `err` and receives nothing. -/
def sendPass (err : ℤ) : List TrafficEvent :=
  List.replicate 4 (.bridge (.supervise ⟨false, true, fun _ => 0, 60, err, .again⟩))

/-- A reply is lost with its connection, and the next connection sends the one after it. -/
def replyLost : List TrafficEvent :=
  [.bridge (.write (cs "ok"))] ++ sendPass (-5) ++ [.bridge (.write (cs "done")), .connect 0] ++
    sendPass 0

theorem replies_in_order_lost :
    (replyLost.foldl Traffic.apply (.connected [] [] 0)).conns =
        [[⟨.reply, cs "ok", -5⟩], [⟨.reply, cs "done", 0⟩]] ∧
      Sends [] (replyLost.foldl Traffic.apply (.connected [] [] 0)) := by
  have hrun : Run TrafficTrans (.connected [] [] 0) replyLost
      (replyLost.foldl Traffic.apply (.connected [] [] 0)) :=
    Run.of_along Traffic.apply Traffic.Possible (fun _ _ h => ⟨h, rfl⟩) (by decide +kernel)
  exact ⟨by decide +kernel, replies_in_order [] [] 0 replyLost _ (by decide) hrun⟩

end NodemFirmware.Cloud
