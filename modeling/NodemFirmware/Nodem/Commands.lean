import NodemFirmware.Lib.Lines
import NodemFirmware.Lib.Transition

/-! # Command lines from the UART and the websocket

`nodem_process_uart` and `nodem_process_ws` keep a partial line in a buffer of a fixed size and
drop the buffer when it is full without an end of a line.  The websocket's buffer and ring are
kept from one connection to the next.

* `Port` is one of the two: its ring, its buffer and the lines it has executed.
* `SentLine` is what the executed lines should be: lines of what one connection delivered.
* `Framed` is the condition on a line of the stream under which it is executed as one. -/

namespace NodemFirmware.Nodem

open Lines Transition

/-- What ends a command. -/
def lineEnd (b : UInt8) : Bool := b == 13 || b == 10

inductive Transport where
  | uart
  | ws
deriving DecidableEq, Repr

/-- `CMD_BUF_SIZE` and `WS_CMD_BUF_SIZE`. -/
def Transport.cmdBufSize : Transport → ℕ
  | uart => 1024
  | ws => 4096

/-- `uart_rx_ring` and `ws_rx_ring`. -/
def Transport.ringSize : Transport → ℕ
  | uart => 2048
  | ws => 4096

theorem Transport.cmdBufSize_pos (t : Transport) : 0 < t.cmdBufSize := by
  cases t <;> decide

/-- `nodem_process_command` without an upload: the lines it executes, by their place in the
buffer, and the length that it returns. -/
def nodemProcessCommand (buf : List UInt8) : List (Line UInt8) × ℕ :=
  (lines lineEnd fresh buf, (rest lineEnd fresh buf).start)

/-- What is kept of the buffer once `consumed` bytes of it are processed. -/
def keepTail (size : ℕ) (buf : List UInt8) (consumed : ℕ) : List UInt8 :=
  if 0 < consumed then buf.drop consumed
  else if buf.length = size then []
  else buf

/-- The buffer and the ring of a transport.  The last three fields record the lines executed, by
their place in the stream, the bytes read from the ring so far, and where in the stream a
connection starts. -/
structure Port where
  cmdBuf : List UInt8
  ring : List UInt8
  executed : List (Line UInt8)
  received : List UInt8
  starts : List ℕ
deriving DecidableEq

inductive PortStep where
  /-- Bytes are queued. -/
  | arrive (bytes : List UInt8)
  /-- The websocket connects again. -/
  | connect
  /-- A pass of `nodem_task`. -/
  | process
deriving DecidableEq

namespace Port

def start : Port := ⟨[], [], [], [], []⟩

/-- What has been delivered. -/
def delivered (p : Port) : List UInt8 := p.received ++ p.ring

/-- The place of the buffer's first byte in the stream. -/
def base (p : Port) : ℕ := p.received.length - p.cmdBuf.length

/-- `nodem_process_uart` and `nodem_process_ws`. -/
def process (t : Transport) (p : Port) : Port :=
  let avail := p.ring.take (t.cmdBufSize - p.cmdBuf.length)
  let buf := p.cmdBuf ++ avail
  if buf.length = 0 then p
  else
    let (executed, consumed) := nodemProcessCommand buf
    { cmdBuf := keepTail t.cmdBufSize buf consumed
      ring := p.ring.drop (t.cmdBufSize - p.cmdBuf.length)
      executed := p.executed ++ executed.map (Line.shift p.base)
      received := p.received ++ avail
      starts := p.starts }

def apply (t : Transport) (p : Port) : PortStep → Port
  | .arrive bytes => { p with ring := p.ring ++ bytes }
  | .connect => { p with starts := p.starts ++ [p.delivered.length] }
  | .process => p.process t

/-- The rings do not overflow, and the UART does not reconnect. -/
def Possible (t : Transport) (p : Port) : PortStep → Prop
  | .arrive bytes => p.ring.length + bytes.length ≤ t.ringSize
  | .connect => t = .ws
  | .process => True

instance (t : Transport) (p : Port) : (e : PortStep) → Decidable (p.Possible t e)
  | .arrive _ => inferInstanceAs (Decidable (_ ≤ _))
  | .connect => inferInstanceAs (Decidable (_ = _))
  | .process => .isTrue trivial

end Port

def PortTrans (t : Transport) (p : Port) (e : PortStep) (p' : Port) : Prop :=
  p.Possible t e ∧ p' = p.apply t e

/-! ### Lines that were sent -/

/-- A terminated run of bytes within one connection, from the connection's start or after the
end of another line. -/
structure SentLine (starts : List ℕ) (s : List UInt8) (l : Line UInt8) : Prop where
  first : l.start = 0 ∨ l.start ∈ starts ∨ ∃ t, s[l.start - 1]? = some t ∧ lineEnd t = true
  last : ∃ t, lineEnd t = true ∧ l.bytes ++ [t] <+: s.drop l.start
  inside : ∀ b ∈ l.bytes, lineEnd b = false
  single : ∀ c ∈ starts, c ≤ l.start ∨ l.stop < c

/-- Every line executed is one that was sent. -/
def Port.Genuine (p : Port) : Prop :=
  ∀ l ∈ p.executed, SentLine p.starts p.delivered l

/-- Where the connection that delivers the byte at `q` starts. -/
def lastStart (starts : List ℕ) (q : ℕ) : ℕ := (starts.filter (· ≤ q)).foldr max 0

/-- Where a line of the stream starts within the connection that ends it. -/
def startWithin (starts : List ℕ) (l : Line UInt8) : ℕ := max l.start (lastStart starts l.stop)

/-- The line has fewer than `n` bytes in the connection that ends it, and earlier connections
have left full buffers of it or nothing. -/
def Framed (n : ℕ) (starts : List ℕ) (l : Line UInt8) : Prop :=
  n ∣ startWithin starts l - l.start ∧ l.stop - startWithin starts l < n

instance (n : ℕ) (starts : List ℕ) (l : Line UInt8) : Decidable (Framed n starts l) :=
  inferInstanceAs (Decidable (_ ∧ _))

theorem foldr_max_mem (xs : List ℕ) : xs.foldr max 0 = 0 ∨ xs.foldr max 0 ∈ xs := by
  induction xs with
  | nil => exact .inl rfl
  | cons x xs ih =>
      rw [List.foldr_cons]
      rcases Nat.le_total x (xs.foldr max 0) with hle | hle
      · rw [Nat.max_eq_right hle]
        exact ih.imp_right (List.mem_cons_of_mem _)
      · rw [Nat.max_eq_left hle]
        exact .inr List.mem_cons_self

theorem le_foldr_max {xs : List ℕ} {x : ℕ} (h : x ∈ xs) : x ≤ xs.foldr max 0 := by
  induction xs with
  | nil => cases h
  | cons y ys ih =>
      rw [List.foldr_cons]
      rcases List.mem_cons.mp h with rfl | h
      · exact Nat.le_max_left _ _
      · exact Nat.le_trans (ih h) (Nat.le_max_right _ _)

theorem lastStart_mem (starts : List ℕ) (q : ℕ) :
    lastStart starts q = 0 ∨ lastStart starts q ∈ starts :=
  (foldr_max_mem _).imp_right List.mem_of_mem_filter

theorem lastStart_le (starts : List ℕ) (q : ℕ) : lastStart starts q ≤ q := by
  rcases foldr_max_mem (starts.filter (· ≤ q)) with h | h
  · rw [lastStart, h]
    exact Nat.zero_le _
  · exact of_decide_eq_true (List.mem_filter.mp h).2

theorem le_lastStart {starts : List ℕ} {c q : ℕ} (hc : c ∈ starts) (hle : c ≤ q) :
    c ≤ lastStart starts q :=
  le_foldr_max (List.mem_filter.mpr ⟨hc, by simpa using hle⟩)

section Clipped

variable {n : ℕ} {starts : List ℕ} {s : List UInt8} {l : Line UInt8}

/-- The end of a line is also the end of its tails. -/
theorem drop_last (hl : IsLine lineEnd s l) {k : ℕ} (hk : k ≤ l.bytes.length) :
    ∃ t, lineEnd t = true ∧ (l.drop k).bytes ++ [t] <+: s.drop (l.drop k).start := by
  obtain ⟨t, ht, u, hu⟩ := hl.last
  refine ⟨t, ht, u, ?_⟩
  have hdrop := congrArg (List.drop k) hu
  rwa [List.append_assoc, List.drop_append_of_le_length hk, ← List.append_assoc,
    List.drop_drop] at hdrop

/-- What precedes a proper tail of a line ends nothing. -/
theorem not_end_before (hl : IsLine lineEnd s l) {k : ℕ} (hpos : 0 < k)
    (hk : k ≤ l.bytes.length) {t : UInt8} (ht : s[(l.drop k).start - 1]? = some t) :
    lineEnd t = false := by
  obtain ⟨t', -, u, hu⟩ := hl.last
  have hat : s[l.start + (k - 1)]? = l.bytes[k - 1]? := by
    rw [← List.getElem?_drop, ← hu, List.append_assoc,
      List.getElem?_append_left (by omega)]
  have hidx : (l.drop k).start - 1 = l.start + (k - 1) := by
    simp only [Line.drop]
    omega
  rw [hidx, hat] at ht
  exact hl.inside t (List.mem_of_getElem? ht)

/-- **A line is executed as it was sent** exactly when it is framed. -/
theorem sentLine_clip (hn : 0 < n) (hl : IsLine lineEnd s l) :
    SentLine starts s (l.clip n) ↔ Framed n starts l := by
  have hk : l.bytes.length / n * n ≤ l.bytes.length := Nat.div_mul_le_self _ _
  have hmod : l.bytes.length - l.bytes.length / n * n < n := by
    have := Nat.mod_lt l.bytes.length hn
    have := Nat.div_add_mod' l.bytes.length n
    omega
  have hstop : (l.clip n).stop = l.stop := Line.drop_stop hk
  have hstart : (l.clip n).start = l.start + l.bytes.length / n * n := rfl
  have hlen : l.stop = l.start + l.bytes.length := rfl
  have hcle := lastStart_le starts l.stop
  constructor
  · intro hsent
    have hc : lastStart starts l.stop ≤ (l.clip n).start := by
      rcases lastStart_mem starts l.stop with hzero | hmem
      · rw [hzero]
        exact Nat.zero_le _
      · rcases hsent.single _ hmem with hle | hlt
        · exact hle
        · rw [hstop] at hlt
          omega
    rcases Nat.eq_zero_or_pos (l.bytes.length / n * n) with hzero | hpos
    · have hwithin : startWithin starts l = l.start := Nat.max_eq_left (by omega)
      rw [Framed, hwithin, Nat.sub_self]
      exact ⟨Nat.dvd_zero _, by omega⟩
    · -- what is executed is a proper tail, so a connection starts with it
      have hmem : (l.clip n).start ∈ starts := by
        rcases hsent.first with hzero | hmem | ⟨t, ht, hend⟩
        · omega
        · exact hmem
        · rw [not_end_before hl hpos hk ht] at hend
          cases hend
      have hge := le_lastStart (q := l.stop) hmem (by omega)
      have hwithin : startWithin starts l = (l.clip n).start := by
        rw [startWithin]
        omega
      rw [Framed, hwithin, hstart]
      exact ⟨⟨l.bytes.length / n, by rw [Nat.mul_comm]; omega⟩, by omega⟩
  · rintro ⟨⟨j, hj⟩, hlt⟩
    have hge : l.start ≤ startWithin starts l := Nat.le_max_left _ _
    have hle : startWithin starts l ≤ l.stop := Nat.max_le.mpr ⟨by omega, hcle⟩
    have hdiv : l.bytes.length / n = j := by
      rw [Nat.mul_comm] at hj
      refine Nat.div_eq_of_lt_le (by omega) ?_
      rw [Nat.succ_mul]
      omega
    have hat : (l.clip n).start = startWithin starts l := by
      rw [hstart, hdiv, Nat.mul_comm]
      omega
    refine ⟨?_, drop_last hl hk, fun b hb => hl.inside b (List.mem_of_mem_drop hb), ?_⟩
    · rcases Nat.le_total (lastStart starts l.stop) l.start with hfirst | hconn
      · rw [hat, startWithin, Nat.max_eq_left hfirst]
        exact hl.first.imp_right .inr
      · rw [hat, startWithin, Nat.max_eq_right hconn]
        exact (lastStart_mem starts l.stop).imp_right .inl
    · intro c hc
      rw [hstop, hat]
      rcases Nat.lt_or_ge l.stop c with hlt | hle
      · exact .inr hlt
      · exact .inl (Nat.le_trans (le_lastStart hc hle) (Nat.le_max_right _ _))

end Clipped

/-! ### What a run executes -/

/-- The lines executed are those of what was read, without the blocks that filled the buffer;
the buffer holds what is left of the line not yet ended. -/
structure Port.Follows (t : Transport) (p : Port) : Prop where
  executed : p.executed = (lines lineEnd fresh p.received).map (Line.clip t.cmdBufSize)
  buffer : Line.mk p.base p.cmdBuf = (rest lineEnd fresh p.received).clip t.cmdBufSize

theorem start_follows (t : Transport) : Port.start.Follows t :=
  ⟨rfl, by simp [Port.start, Port.base, rest, fresh, Line.clip, Line.drop]⟩

variable {t : Transport} {p : Port}

/-- The buffer is never full between two passes. -/
theorem Port.Follows.length_lt (h : p.Follows t) : p.cmdBuf.length < t.cmdBufSize := by
  have hlen := congrArg (fun l => l.bytes.length) h.buffer
  simp only [Line.clip, Line.drop, List.length_drop] at hlen
  have := Nat.mod_lt (rest lineEnd fresh p.received).bytes.length t.cmdBufSize_pos
  have := Nat.div_add_mod' (rest lineEnd fresh p.received).bytes.length t.cmdBufSize
  omega

/-- No line ends in the buffer. -/
theorem Port.Follows.open (h : p.Follows t) : ∀ b ∈ p.cmdBuf, lineEnd b = false := by
  have hbuf : p.cmdBuf = ((rest lineEnd fresh p.received).clip t.cmdBufSize).bytes :=
    congrArg Line.bytes h.buffer
  rw [hbuf]
  exact fun b hb => (rest_isRest p.received).inside b (List.mem_of_mem_drop hb)

/-- What `nodem_process_command` finds in the buffer is what the new bytes end there. -/
theorem processCommand_buffer (hopen : ∀ b ∈ p.cmdBuf, lineEnd b = false) (bytes : List UInt8) :
    (nodemProcessCommand (p.cmdBuf ++ bytes)).1.map (Line.shift p.base) =
        lines lineEnd ⟨p.base, p.cmdBuf⟩ bytes ∧
      (rest lineEnd fresh (p.cmdBuf ++ bytes)).shift p.base =
        rest lineEnd ⟨p.base, p.cmdBuf⟩ bytes := by
  have hfresh : (fresh : Line UInt8).shift p.base = ⟨p.base, []⟩ := rfl
  refine ⟨?_, ?_⟩
  · rw [nodemProcessCommand, ← lines_shift, hfresh, lines_append, lines_of_open _ hopen,
      rest_of_open _ hopen]
    rfl
  · rw [← rest_shift, hfresh, rest_append, rest_of_open _ hopen]
    rfl

/-- What a pass leaves in the buffer. -/
theorem keepTail_rest {n : ℕ} {buf : List UInt8} (hlen : buf.length ≤ n) :
    keepTail n buf (nodemProcessCommand buf).2 =
      if (rest lineEnd fresh buf).bytes.length = n then [] else (rest lineEnd fresh buf).bytes := by
  have hrest : IsRest lineEnd buf (rest lineEnd fresh buf) := rest_isRest buf
  have hbytes := hrest.bytes
  have hblen := congrArg List.length hbytes
  have hle := hrest.start_le
  rw [List.length_drop] at hblen
  rcases Nat.eq_zero_or_pos (rest lineEnd fresh buf).start with hzero | hpos
  · rw [hzero, List.drop_zero] at hbytes
    simp only [keepTail, nodemProcessCommand, hzero, ← hbytes, Nat.lt_irrefl, if_false]
  · have hshort : (rest lineEnd fresh buf).bytes.length ≠ n := by omega
    simp only [keepTail, nodemProcessCommand, hpos, hbytes, hshort, if_true, if_false]

/-- A pass reads on, and keeps what is left of the open line. -/
theorem Port.Follows.process (h : p.Follows t) : (p.process t).Follows t := by
  simp only [Port.process]
  split_ifs with hzero
  · exact h
  · set avail := p.ring.take (t.cmdBufSize - p.cmdBuf.length) with havail
    have hlt := h.length_lt
    have hfits : p.cmdBuf.length + avail.length ≤ t.cmdBufSize := by
      rw [havail, List.length_take]
      omega
    have hbuf : (p.cmdBuf ++ avail).length ≤ t.cmdBufSize := by
      rw [List.length_append]
      exact hfits
    obtain ⟨hlines, hrest⟩ := processCommand_buffer h.open avail
    have htails : Tails t.cmdBufSize (rest lineEnd fresh p.received) ⟨p.base, p.cmdBuf⟩ := by
      rw [h.buffer]
      exact .clip _ _
    have hafter := @Tails.rest _ lineEnd _ _ _ htails avail
    rw [← rest_append, ← hrest] at hafter
    have hstop := hafter.stop
    rw [(rest_isRest _).stop] at hstop
    refine ⟨?_, ?_⟩
    · show p.executed ++ (nodemProcessCommand (p.cmdBuf ++ avail)).1.map (Line.shift p.base) = _
      rw [hlines, htails.lines hfits, h.executed, lines_append, List.map_append]
    · have hshort : ((rest lineEnd fresh (p.cmdBuf ++ avail)).shift p.base).bytes.length ≤
          t.cmdBufSize := by
        have hopen : IsRest lineEnd (p.cmdBuf ++ avail) _ := rest_isRest _
        have hlen := congrArg List.length hopen.bytes
        rw [List.length_drop] at hlen
        exact Nat.le_trans (hlen ▸ Nat.sub_le _ _) hbuf
      have hemptied := hafter.emptied t.cmdBufSize_pos hshort (keepTail_rest hbuf)
      rw [hstop] at hemptied
      exact hemptied

theorem Port.Follows.step (h : p.Follows t) (e : PortStep) : (p.apply t e).Follows t := by
  cases e with
  | arrive bytes => exact ⟨h.executed, h.buffer⟩
  | connect => exact ⟨h.executed, h.buffer⟩
  | process => exact h.process

/-- A line of what has been read is one of what has been delivered. -/
theorem isLine_delivered {l : Line UInt8} (h : IsLine lineEnd p.received l) :
    IsLine lineEnd p.delivered l := by
  refine ⟨?_, ?_, h.inside⟩
  · refine h.first.imp_right ?_
    rintro ⟨b, hb, hend⟩
    refine ⟨b, ?_, hend⟩
    rw [Port.delivered, List.getElem?_append_left (List.getElem?_eq_some_iff.mp hb).1]
    exact hb
  · obtain ⟨b, hend, hpre⟩ := h.last
    refine ⟨b, hend, hpre.trans ⟨p.ring.drop (l.start - p.received.length), ?_⟩⟩
    exact List.drop_append.symm

/-- **Every line executed was sent** exactly when every line read so far is framed. -/
theorem executed_lines_sent {steps : List PortStep} (h : Run (PortTrans t) .start steps p) :
    p.Genuine ↔ ∀ l ∈ lines lineEnd fresh p.received, Framed t.cmdBufSize p.starts l := by
  have hfollows : p.Follows t := h.invariant (I := Port.Follows t)
    (fun q e _ hq hr => hr.2 ▸ hq.step e) (start_follows t)
  rw [Port.Genuine, hfollows.executed, List.forall_mem_map]
  refine forall₂_congr fun l hl => ?_
  exact sentLine_clip t.cmdBufSize_pos (isLine_delivered (isLine_of_mem hl))

/-- A command over the UART, in two chunks. -/
def pageCommand : List PortStep :=
  [.arrive "page=".toUTF8.toList, .process, .arrive "1\r\n".toUTF8.toList, .process]

theorem executed_lines_sent_page :
    (pageCommand.foldl (Port.apply .uart) .start).executed =
        [⟨0, "page=1".toUTF8.toList⟩, ⟨7, []⟩] ∧
      (pageCommand.foldl (Port.apply .uart) .start).Genuine := by
  have hrun : Run (PortTrans .uart) .start pageCommand
      (pageCommand.foldl (Port.apply .uart) .start) :=
    Run.of_along (Port.apply .uart) (Port.Possible .uart) (fun _ _ h => ⟨h, rfl⟩)
      (by decide +kernel)
  exact ⟨by decide +kernel, (executed_lines_sent hrun).mpr (by decide +kernel)⟩

/-- The websocket is lost in the middle of a line, and the next connection sends another. -/
def reconnects : List PortStep :=
  [.connect, .arrive "page=1".toUTF8.toList, .process, .connect,
    .arrive "2\n".toUTF8.toList, .process]

/-- A line of 1024 bytes and more over the UART. -/
def overlong : List PortStep :=
  [.arrive (List.replicate 1024 120), .process, .arrive "page=1\n".toUTF8.toList, .process]

/-- **Lines nobody sent are executed**: one joined from two connections, and the tail of one that
is too long. -/
theorem unsent_lines_executed :
    (Run (PortTrans .ws) .start reconnects (reconnects.foldl (Port.apply .ws) .start) ∧
      (reconnects.foldl (Port.apply .ws) .start).executed = [⟨0, "page=12".toUTF8.toList⟩] ∧
      ¬ (reconnects.foldl (Port.apply .ws) .start).Genuine) ∧
    (Run (PortTrans .uart) .start overlong (overlong.foldl (Port.apply .uart) .start) ∧
      (overlong.foldl (Port.apply .uart) .start).executed = [⟨1024, "page=1".toUTF8.toList⟩] ∧
      ¬ (overlong.foldl (Port.apply .uart) .start).Genuine) := by
  have hjoined : (reconnects.foldl (Port.apply .ws) .start).executed =
      [⟨0, "page=12".toUTF8.toList⟩] := by decide +kernel
  have htail : (overlong.foldl (Port.apply .uart) .start).executed =
      [⟨1024, "page=1".toUTF8.toList⟩] := by decide +kernel
  refine ⟨⟨Run.of_along (Port.apply .ws) (Port.Possible .ws) (fun _ _ h => ⟨h, rfl⟩)
      (by decide +kernel), hjoined, fun hgenuine => ?_⟩,
    ⟨Run.of_along (Port.apply .uart) (Port.Possible .uart) (fun _ _ h => ⟨h, rfl⟩)
      (by decide +kernel), htail, fun hgenuine => ?_⟩⟩
  · have hsent := hgenuine ⟨0, "page=12".toUTF8.toList⟩ (by rw [hjoined]; exact .head _)
    have hstarts : 6 ∈ (reconnects.foldl (Port.apply .ws) .start).starts := by decide +kernel
    have hstop : (Line.mk 0 "page=12".toUTF8.toList).stop = 7 := by decide +kernel
    rcases hsent.single 6 hstarts with hle | hlt
    · exact absurd (show 6 ≤ 0 from hle) (by decide)
    · rw [hstop] at hlt
      exact absurd hlt (by decide)
  · have hsent := hgenuine ⟨1024, "page=1".toUTF8.toList⟩ (by rw [htail]; exact .head _)
    have hstarts : (overlong.foldl (Port.apply .uart) .start).starts = [] := by decide +kernel
    have hbefore : (overlong.foldl (Port.apply .uart) .start).delivered[1023]? = some 120 := by
      decide +kernel
    rcases hsent.first with hzero | hmem | ⟨b, hb, hend⟩
    · exact absurd (show 1024 = 0 from hzero) (by decide)
    · rw [hstarts] at hmem
      cases hmem
    · have hsame : b = 120 := Option.some.inj (hb.symm.trans hbefore)
      rw [hsame] at hend
      exact absurd hend (by decide)

end NodemFirmware.Nodem
