import NodemFirmware.Lib.Transition
import NodemFirmware.Lib.MixedRadix
import NodemFirmware.Hub75.Render

/-! # The refresh pipeline

What runs while the panel is on: `hub75_isr`, once per shift, and the writes of
`frame_row_set` in between, one byte at a time, as an interrupt may come between any two.

* `Refresh` is the driver's state with the panel's side of it: the address pins, the pair of
  step buffers the PWM sequences point at, and a record of every latch.
* `History` is what the run has done so far, from the events alone: how many interrupts
  completed, and the frame as it stood when each shift was rendered.

`InStep` ties the two together.  `hub75_refresh_pipeline` reads off it what every interrupt
latched and lit. -/

namespace NodemFirmware.Hub75

open CText Transition MixedRadix

/-! ### The address pins -/

/-- `addr_pins`: A, B, C, D, E. -/
def addrPins : List ℕ := [4, 11, 5, 12, 10]

def pinLat : ℕ := 13

/-- `BIT(n)`. -/
def bit (n : ℕ) : BitVec 32 := 1#32 <<< n

def addrMask (row : ℕ) : BitVec 32 :=
  (addrPins.zipIdx).foldl (fun mask p => if row.testBit p.2 then mask ||| bit p.1 else mask) 0

/-- `addr_all_mask`: the pins of as many address bits as `scan_rows` needs. -/
def addrAllMask (scanRows : ℕ) : BitVec 32 :=
  (addrPins.zipIdx).foldl (fun mask p => if 2 ^ p.2 < scanRows then mask ||| bit p.1 else mask) 0

/-- The row address the panel reads off the pins. -/
def addressOn (scanRows : ℕ) (out : BitVec 32) : ℕ :=
  ((addrPins.zipIdx).map (fun p =>
    if 2 ^ p.2 < scanRows ∧ out.getLsbD p.1 then 2 ^ p.2 else 0)).sum

/-- The output register after the ISR put `row` on the pins and raised LAT. -/
def latchPins (scanRows row : ℕ) (out : BitVec 32) : BitVec 32 :=
  (out &&& ~~~addrAllMask scanRows ||| addrMask row) ||| bit pinLat

theorem addressOn_latchPins {scanRows row : ℕ} (hs : scanRows ∈ [2, 4, 8, 16, 32])
    (hrow : row < scanRows) (out : BitVec 32) :
    addressOn scanRows (latchPins scanRows row out) = row := by
  have hbit : ∀ p ∈ addrPins.zipIdx, 2 ^ p.2 < scanRows →
      (latchPins scanRows row out).getLsbD p.1 = (addrMask row).getLsbD p.1 := by
    intro p hp hlt
    have hall : (addrAllMask scanRows).getLsbD p.1 = true ∧ (bit pinLat).getLsbD p.1 = false ∧
        p.1 < 32 := by
      revert p
      simp only [List.mem_cons, List.not_mem_nil, or_false] at hs
      rcases hs with rfl | rfl | rfl | rfl | rfl <;> decide
    unfold latchPins
    simp only [BitVec.getLsbD_or, BitVec.getLsbD_and, BitVec.getLsbD_not, hall.1, hall.2.1,
      Bool.not_true, Bool.and_false, Bool.false_or, Bool.or_false]
  have hsum : addressOn scanRows (latchPins scanRows row out) =
      addressOn scanRows (addrMask row) := by
    unfold addressOn
    congr 1
    apply List.map_congr_left
    intro p hp
    by_cases hlt : 2 ^ p.2 < scanRows
    · rw [hbit p hp hlt]
    · simp [hlt]
  have hall : ∀ s ∈ [2, 4, 8, 16, 32], ∀ row < s, addressOn s (addrMask row) = row := by decide
  rw [hsum]
  exact hall scanRows hs row hrow

/-! ### The interrupt -/

def overrunLimit : ℕ := 32

inductive Overload where
  | none
  | overrun
  | stuck
deriving DecidableEq, Repr

/-- What an interrupt latched: the output register as LAT rose, `shift_seq`, the steps that
had been shifted in, and the pair it started next. -/
structure Latch where
  pins : BitVec 32
  seq : ℕ
  data : Pair
  next : Pair

/-- The state between interrupts; `pwm` is the pair the PWM sequences point at. -/
structure Refresh where
  frame : Frame
  pairs : ℕ → Pair
  shiftSeq : ℕ
  shiftBuf : ℕ
  out : BitVec 32
  pwm : ℕ
  overruns : ℕ
  overload : Overload
  irqOn : Bool
  latches : List Latch

/-- `hub75_overload_trip`. -/
def overloadTrip (st : Refresh) (why : Overload) : Refresh :=
  { st with irqOn := false, overload := why }

/-- The body of `hub75_isr`: latch the shift that just ended, start the one already rendered,
and render the one after it into the pair just freed up. -/
def latchAndRender (g : Driver) (st : Refresh) : Refresh :=
  let pins := latchPins g.scanRows (u8 (st.shiftSeq / g.depth)) st.out
  let cycle := u16 (g.scanRows * g.depth)
  let seq := (st.shiftSeq + 1) % cycle
  let buf := st.shiftBuf ^^^ 1
  { st with
    out := pins &&& ~~~bit pinLat
    shiftSeq := seq
    shiftBuf := buf
    pwm := buf
    pairs := Function.update st.pairs (buf ^^^ 1)
      (renderRow g st.frame (st.pairs (buf ^^^ 1)) ((seq + 1) % cycle))
    latches := st.latches ++ [Latch.mk pins st.shiftSeq (st.pairs st.pwm) (st.pairs buf)] }

/-- The end of `hub75_isr`: `again` if PWM_A had stopped again by now. -/
def overrunCheck (st : Refresh) (again : Bool) : Refresh :=
  if again then
    let st' := { st with overruns := u16 (st.overruns + 1) }
    if st'.overruns ≥ overrunLimit then overloadTrip st' .overrun else st'
  else { st with overruns := 0 }

/-- `hub75_isr`; `stuck`: PWM_B did not stop within the spin limit. -/
def hub75Isr (g : Driver) (st : Refresh) (stuck again : Bool) : Refresh :=
  if stuck then overloadTrip st .stuck else overrunCheck (latchAndRender g st) again

/-- A pass of `frame_row_set`'s loop for pixel `x` of row `y`, or an interrupt. -/
inductive RefreshEvent where
  | write (y x : ℕ) (planes : BitVec 64) (k : ℕ)
  | isr (stuck again : Bool)

/-- The writes are to pixels of the display; the interrupt is enabled. -/
def RefreshEvent.Enabled (g : Driver) (st : Refresh) : RefreshEvent → Prop
  | write y x _ k => y < g.active.height ∧ x < g.active.width ∧ k < g.depth
  | isr _ _ => st.irqOn = true

def RefreshEvent.apply (g : Driver) (st : Refresh) : RefreshEvent → Refresh
  | write y x planes k =>
      { st with frame := frameRowSetByte g st.frame (frameLocateRow g y) x planes k }
  | isr stuck again => hub75Isr g st stuck again

def RefreshStep (g : Driver) : Refresh → RefreshEvent → Refresh → Prop :=
  Guarded (fun st e st' => st' = e.apply g st) (RefreshEvent.Enabled g)

/-- `frame_row_set` is its passes one after the other. -/
theorem frameRowSet_writes (g : Driver) (st : Refresh) (y x : ℕ) (planes : BitVec 64) :
    ((List.range g.depth).map (RefreshEvent.write y x planes)).foldl (RefreshEvent.apply g) st =
      { st with frame := frameRowSet g st.frame (frameLocateRow g y) x planes } := by
  unfold frameRowSet
  generalize List.range g.depth = l
  induction l generalizing st with
  | nil => rfl
  | cons k l ih =>
      rw [List.map_cons, List.foldl_cons, ih]
      rfl

/-- What `hub75_start` leaves, from whatever the step buffers and the output register held. -/
def hub75Started (g : Driver) (old : ℕ → Pair) (out : BitVec 32) : Refresh where
  frame := fun _ => 0
  pairs := fun buf =>
    if buf = 0 then renderRow g (fun _ => 0) (idlePair g (old 0)) 0
    else renderRow g (fun _ => 0) (idlePair g (old 1)) (1 % (g.scanRows * g.depth))
  shiftSeq := 0
  shiftBuf := 0
  out := out
  pwm := 0
  overruns := 0
  overload := .none
  irqOn := true
  latches := []

/-! ### What a run has done -/

/-- The interrupts completed, the frame, and the frame each shift was rendered from: the
first two at the start, one more by each interrupt. -/
structure History where
  frame : Frame
  runs : ℕ
  rendered : ℕ → Frame

def History.start : History := ⟨fun _ => 0, 0, fun _ _ => 0⟩

def History.next (g : Driver) (h : History) : RefreshEvent → History
  | .write y x planes k =>
      { h with frame := frameRowSetByte g h.frame (frameLocateRow g y) x planes k }
  | .isr true _ => h
  | .isr false _ =>
      { h with runs := h.runs + 1, rendered := Function.update h.rendered (h.runs + 2) h.frame }

/-- The shifts of a cycle. -/
def Driver.cycle (g : Driver) : ℕ := g.scanRows * g.depth

/-- Shift `seq` rendered from `frame`, with the idle steps after it. -/
def rendering (g : Driver) (frame : Frame) (seq : ℕ) : Pair :=
  renderRow g frame (idlePair g ⟨fun _ => (0, 0), fun _ => (0, 0)⟩) seq

/-- What a pair holds in all of its steps. -/
def Holds (g : Driver) (p : Pair) (frame : Frame) (seq : ℕ) : Prop :=
  p.Same (g.driveLen + idleSteps) (rendering g frame seq)

/-- A latch of shift number `j`: its address, its data, and OE lighting its plane next. -/
structure LatchOk (g : Driver) (l : Latch) (frame : Frame) (j : ℕ) : Prop where
  address : addressOn g.scanRows l.pins = j % g.cycle / g.depth
  seq : l.seq = j % g.cycle
  data : Holds g l.data frame (j % g.cycle)
  lit : ∀ i < g.driveLen, (l.next.b i).2 >>> 16 = oeShare g (j % g.cycle % g.depth) i >>> 16

/-- The state after a run: the pair being shifted and the one ahead, and every latch so far. -/
structure InStep (g : Driver) (st : Refresh) (h : History) : Prop where
  frame : st.frame = h.frame
  shiftSeq : st.shiftSeq = h.runs % g.cycle
  shiftBuf : st.shiftBuf = h.runs % 2
  pwm : st.pwm = h.runs % 2
  current : Holds g (st.pairs (h.runs % 2)) (h.rendered h.runs) (h.runs % g.cycle)
  ahead : Holds g (st.pairs ((h.runs + 1) % 2)) (h.rendered (h.runs + 1))
    ((h.runs + 1) % g.cycle)
  latched : st.latches.length = h.runs
  latches : ∀ j l, st.latches[j]? = some l → LatchOk g l (h.rendered j) j

/-- What the pipeline needs of the geometry. -/
structure Runs (g : Driver) : Prop where
  scanRows : g.scanRows ∈ [2, 4, 8, 16, 32]
  depth : 1 ≤ g.depth ∧ g.depth ≤ 8

theorem runs_of_alloc {c : Config} (hc : Accepted c) {g : Driver}
    (h : hub75Alloc (hub75Geometry c) = some g) : Runs g := by
  obtain ⟨d, -, -, rfl⟩ := hub75Alloc_eq_some h
  have hs := hc.scan
  have hs' := hc.scan_pos
  have hd := hc.depth
  unfold maxDepth at hd
  constructor
  · show u8 c.scan ∈ _
    rwa [u8_of_le (by omega)]
  · show 1 ≤ u8 c.depth ∧ u8 c.depth ≤ 8
    rwa [u8_of_le (by omega)]

namespace Runs

variable {g : Driver} (hg : Runs g)

include hg in
theorem cycle_bounds : 1 ≤ g.cycle ∧ g.cycle ≤ 256 ∧ g.scanRows ≤ 32 := by
  have hs := hg.scanRows
  have hd := hg.depth
  simp only [List.mem_cons, List.not_mem_nil, or_false] at hs
  unfold Driver.cycle
  rcases hs with h | h | h | h | h <;> rw [h] <;> omega

include hg in
theorem u16_cycle : u16 (g.scanRows * g.depth) = g.cycle :=
  u16_of_le (by have := hg.cycle_bounds; unfold Driver.cycle at this; unfold maxPixels; omega)

include hg in
theorem row_lt (j : ℕ) : j % g.cycle / g.depth < g.scanRows := by
  have hc := hg.cycle_bounds
  have hd := hg.depth
  rw [Nat.div_lt_iff_lt_mul (by omega)]
  exact Nat.mod_lt _ (by omega)

include hg in
theorem seq_lt (j : ℕ) : j % g.cycle < 256 := by
  have hc := hg.cycle_bounds
  have := Nat.mod_lt j (show 0 < g.cycle by omega)
  omega

include hg in
/-- **The shift started next lights the plane just latched**, also across the wraps from the
last plane of a row and from the last row. -/
theorem litPlane_succ (j : ℕ) : litPlane g ((j + 1) % g.cycle) = j % g.cycle % g.depth := by
  have hd := hg.depth
  unfold litPlane Driver.cycle
  rw [Nat.mod_mul_left_mod, Nat.mod_mul_left_mod, Nat.add_sub_assoc hd.1, Nat.mod_add_mod]
  have hsum : j + 1 + (g.depth - 1) = j + g.depth := by omega
  rw [hsum, Nat.add_mod_right]

include hg in
/-- Rendering over a pair whose idle steps are in place. -/
theorem holds_renderRow {p : Pair} {frame : Frame} {seq : ℕ} (hseq : seq < 256)
    (hidle : ∀ i, g.driveLen ≤ i → i < g.driveLen + idleSteps →
      p.a i = (idlePair g p).a i ∧ p.b i = (idlePair g p).b i) :
    Holds g (renderRow g frame p seq) frame seq := by
  intro i hi
  unfold rendering
  rw [(renderRow_eq hg.depth.1 hg.depth.2 frame _ hseq i).1,
    (renderRow_eq hg.depth.1 hg.depth.2 frame _ hseq i).2,
    (renderRow_eq hg.depth.1 hg.depth.2 frame _ hseq i).1,
    (renderRow_eq hg.depth.1 hg.depth.2 frame _ hseq i).2]
  by_cases hlt : i < g.driveLen
  · simp only [hlt, if_true, and_self]
  · have h := hidle i (by omega) hi
    have hin : g.driveLen ≤ i ∧ i < g.driveLen + idleSteps := ⟨by omega, hi⟩
    unfold idlePair at h ⊢
    rw [(Pair.fill_eq _ _ _ _ _).1, (Pair.fill_eq _ _ _ _ _).2, if_pos hin, if_pos hin] at h
    simp only [hlt, if_false, (Pair.fill_eq _ _ _ _ _).1, (Pair.fill_eq _ _ _ _ _).2, hin,
      and_self, if_true]
    exact h

include hg in
/-- Rendering over a pair that held some rendering. -/
theorem holds_rerender {p : Pair} {frame frame' : Frame} {seq seq' : ℕ} (hseq : seq < 256)
    (hseq' : seq' < 256) (h : Holds g p frame' seq') :
    Holds g (renderRow g frame p seq) frame seq := by
  apply hg.holds_renderRow hseq
  intro i hle hlt
  have hi := h i hlt
  have hnot : ¬ i < g.driveLen := by omega
  have hin : g.driveLen ≤ i ∧ i < g.driveLen + idleSteps := ⟨hle, hlt⟩
  unfold rendering at hi
  rw [(renderRow_eq hg.depth.1 hg.depth.2 frame' _ hseq' i).1,
    (renderRow_eq hg.depth.1 hg.depth.2 frame' _ hseq' i).2, if_neg hnot, if_neg hnot] at hi
  rw [hi.1, hi.2]
  unfold idlePair
  simp only [(Pair.fill_eq _ _ _ _ _).1, (Pair.fill_eq _ _ _ _ _).2, hin, and_self, if_true]

theorem holds_started {g : Driver} (hg : Runs g) (p : Pair) {frame : Frame} {seq : ℕ}
    (hseq : seq < 256) : Holds g (renderRow g frame (idlePair g p) seq) frame seq := by
  apply hg.holds_renderRow hseq
  intro i hle hlt
  have hin : g.driveLen ≤ i ∧ i < g.driveLen + idleSteps := ⟨hle, hlt⟩
  unfold idlePair
  simp only [(Pair.fill_eq _ _ _ _ _).1, (Pair.fill_eq _ _ _ _ _).2, hin, and_self, if_true]

/-- The OE half of a data step is the share of the plane lit. -/
theorem lut_oe_half (px : ℕ) (w : BitVec 32) : ((lutPx g px).2.2 ||| w) >>> 16 = w >>> 16 := by
  have hzero : (lutPx g px).2.2 >>> 16 = 0#32 := by
    unfold lutPx lvl
    simp only
    split_ifs <;> decide
  rw [BitVec.ushiftRight_or_distrib, hzero, BitVec.zero_or]

include hg in
theorem lit_of_holds {p : Pair} {frame : Frame} {j : ℕ} (h : Holds g p frame ((j + 1) % g.cycle))
    (i : ℕ) (hi : i < g.driveLen) :
    (p.b i).2 >>> 16 = oeShare g (j % g.cycle % g.depth) i >>> 16 := by
  rw [(h i (by omega)).2]
  unfold rendering
  rw [(renderRow_eq hg.depth.1 hg.depth.2 frame _ (hg.seq_lt _) i).2, if_pos hi,
    hg.litPlane_succ j]
  exact lut_oe_half _ _

end Runs

theorem xor_one_mod_two (n : ℕ) : n % 2 ^^^ 1 = (n + 1) % 2 := by
  rcases Nat.mod_two_eq_zero_or_one n with h | h
  · rw [h, show (n + 1) % 2 = 1 by omega]
    rfl
  · rw [h, show (n + 1) % 2 = 0 by omega]
    rfl

/-! ### The invariant -/

theorem inStep_started {g : Driver} (hg : Runs g) (old : ℕ → Pair) (out : BitVec 32) :
    InStep g (hub75Started g old out) History.start := by
  have hzero := hg.seq_lt 0
  rw [Nat.zero_mod] at hzero
  have hone : 1 % (g.scanRows * g.depth) = 1 % g.cycle := rfl
  constructor
  · rfl
  · exact (Nat.zero_mod _).symm
  · rfl
  · rfl
  · simp only [History.start, hub75Started, Nat.zero_mod, if_true]
    exact hg.holds_started (old 0) hzero
  · simp only [History.start, hub75Started, Nat.zero_add, Nat.one_mod, one_ne_zero, if_false, hone]
    exact hg.holds_started (old 1) (hg.seq_lt 1)
  · rfl
  · intro j l h
    simp [hub75Started] at h

theorem inStep_overloadTrip {g : Driver} {st : Refresh} {h : History} (hs : InStep g st h)
    (why : Overload) : InStep g (overloadTrip st why) h := { hs with }

theorem inStep_overrunCheck {g : Driver} {st : Refresh} {h : History} (hs : InStep g st h)
    (again : Bool) : InStep g (overrunCheck st again) h := by
  unfold overrunCheck
  simp only
  split_ifs
  · exact { hs with }
  · exact { hs with }
  · exact { hs with }

/-- What an interrupt leaves, before it checks for an overrun. -/
theorem latchAndRender_eq {g : Driver} (hg : Runs g) {st : Refresh} {h : History}
    (hs : InStep g st h) : latchAndRender g st = { st with
      out := latchPins g.scanRows (h.runs % g.cycle / g.depth) st.out &&& ~~~bit pinLat
      shiftSeq := (h.runs + 1) % g.cycle
      shiftBuf := (h.runs + 1) % 2
      pwm := (h.runs + 1) % 2
      pairs := Function.update st.pairs (h.runs % 2)
        (renderRow g h.frame (st.pairs (h.runs % 2)) ((h.runs + 2) % g.cycle))
      latches := st.latches ++ [Latch.mk (latchPins g.scanRows (h.runs % g.cycle / g.depth) st.out)
        (h.runs % g.cycle) (st.pairs (h.runs % 2)) (st.pairs ((h.runs + 1) % 2))] } := by
  have hbuf : (h.runs + 1) % 2 ^^^ 1 = h.runs % 2 := by
    rw [xor_one_mod_two]
    omega
  have hrow : u8 (h.runs % g.cycle / g.depth) = h.runs % g.cycle / g.depth := by
    have := hg.row_lt h.runs
    have := hg.cycle_bounds
    exact u8_of_le (by omega)
  unfold latchAndRender
  simp only [hg.u16_cycle, hs.shiftBuf, hs.shiftSeq, hs.pwm, hs.frame, xor_one_mod_two, hbuf,
    Nat.mod_add_mod, hrow]

theorem inStep_latchAndRender {g : Driver} (hg : Runs g) {st : Refresh} {h : History}
    (hs : InStep g st h) (again : Bool) :
    InStep g (latchAndRender g st) (h.next g (.isr false again)) := by
  have hne : (h.runs + 1) % 2 ≠ h.runs % 2 := by omega
  have hmod : (h.runs + 1 + 1) % 2 = h.runs % 2 := by omega
  have hold : ∀ j < h.runs + 2, (h.next g (.isr false again)).rendered j = h.rendered j :=
    fun j hj => Function.update_of_ne (by omega) _ _
  rw [latchAndRender_eq hg hs]
  constructor
  · exact hs.frame
  · rfl
  · rfl
  · rfl
  · show Holds g (Function.update st.pairs _ _ ((h.runs + 1) % 2))
      ((h.next g (.isr false again)).rendered (h.runs + 1)) _
    rw [Function.update_of_ne hne, hold _ (by omega)]
    exact hs.ahead
  · show Holds g (Function.update st.pairs _ _ ((h.runs + 1 + 1) % 2))
      (Function.update h.rendered (h.runs + 2) h.frame (h.runs + 2)) _
    rw [hmod, Function.update_self, Function.update_self]
    exact hg.holds_rerender (hg.seq_lt _) (hg.seq_lt _) hs.current
  · show (st.latches ++ [_]).length = h.runs + 1
    rw [List.length_append, hs.latched]
    rfl
  · intro j l hj
    rcases Nat.lt_or_ge j st.latches.length with hlt | hge
    · rw [List.getElem?_append_left hlt] at hj
      rw [hold j (by rw [hs.latched] at hlt; omega)]
      exact hs.latches j l hj
    · rw [List.getElem?_append_right hge, hs.latched, List.getElem?_singleton] at hj
      rw [hs.latched] at hge
      split_ifs at hj with hj0
      obtain rfl : j = h.runs := by omega
      cases hj
      rw [hold _ (by omega)]
      exact
        { address := addressOn_latchPins hg.scanRows (hg.row_lt _) _
          seq := rfl
          data := hs.current
          lit := hg.lit_of_holds hs.ahead }

theorem inStep_step {g : Driver} (hg : Runs g) {st st' : Refresh} {h : History}
    {e : RefreshEvent} (hs : InStep g st h) (hstep : RefreshStep g st e st') :
    InStep g st' (h.next g e) := by
  obtain ⟨-, rfl⟩ := hstep
  cases e with
  | write y x planes k =>
      have hframe : (RefreshEvent.apply g st (.write y x planes k)).frame =
          (h.next g (.write y x planes k)).frame := by
        show frameRowSetByte g st.frame _ x planes k = frameRowSetByte g h.frame _ x planes k
        rw [hs.frame]
      exact { hs with frame := hframe }
  | isr stuck again =>
      cases stuck with
      | false => exact inStep_overrunCheck (inStep_latchAndRender hg hs again) again
      | true => exact inStep_overloadTrip hs .stuck

/-- **Rendering never touches what is being shifted out**: after any step the pair the PWM
sequences point at holds what it held before. -/
theorem pairs_pwm_step {g : Driver} {st st' : Refresh} {e : RefreshEvent}
    (hstep : RefreshStep g st e st') : st'.pairs st'.pwm = st.pairs st'.pwm := by
  have hne : ∀ b : ℕ, b ≠ b ^^^ 1 := by
    intro b hb
    have hx := congrArg (b ^^^ ·) hb
    simp only [Nat.xor_self, ← Nat.xor_assoc, Nat.zero_xor] at hx
    omega
  have hrender : (latchAndRender g st).pairs (latchAndRender g st).pwm =
      st.pairs (latchAndRender g st).pwm := Function.update_of_ne (hne _) _ _
  obtain ⟨-, rfl⟩ := hstep
  cases e with
  | write y x planes k => rfl
  | isr stuck again =>
      cases stuck with
      | true => rfl
      | false =>
          have hkeep : (overrunCheck (latchAndRender g st) again).pairs =
              (latchAndRender g st).pairs ∧
              (overrunCheck (latchAndRender g st) again).pwm = (latchAndRender g st).pwm := by
            unfold overrunCheck
            simp only
            split_ifs <;> exact ⟨rfl, rfl⟩
          show (overrunCheck (latchAndRender g st) again).pairs
            (overrunCheck (latchAndRender g st) again).pwm =
              st.pairs (overrunCheck (latchAndRender g st) again).pwm
          rw [hkeep.1, hkeep.2]
          exact hrender

/-- What a run of these events has done. -/
def historyOf (g : Driver) (es : List RefreshEvent) : History :=
  es.foldl (History.next g) History.start

theorem inStep_run {g : Driver} (hg : Runs g) {old : ℕ → Pair} {out : BitVec 32}
    {es : List RefreshEvent} {st : Refresh}
    (hrun : Run (RefreshStep g) (hub75Started g old out) es st) :
    InStep g st (historyOf g es) :=
  hrun.simulation (History.next g) (InStep g) (fun _ _ _ _ hs hstep => inStep_step hg hs hstep)
    (inStep_started hg old out)

/-- **The refresh pipeline.**  After any run of writes and interrupts: what every interrupt
latched, where, and which plane OE lights next; what the two pairs hold; that every row and
plane is latched exactly once per cycle; and that no step writes the pair being shifted. -/
theorem hub75_refresh_pipeline (v : CStr) (c : Config) (hv : hub75ConfigParse v = .ok (some c))
    (g : Driver) (hg : hub75Alloc (hub75Geometry c) = some g) (old : ℕ → Pair)
    (out : BitVec 32) (es : List RefreshEvent) (st : Refresh)
    (hrun : Run (RefreshStep g) (hub75Started g old out) es st) :
    (∀ n, 1 ≤ n → n ≤ (historyOf g es).runs → ∃ l, st.latches[n - 1]? = some l ∧
        LatchOk g l ((historyOf g es).rendered (n - 1)) (n - 1)) ∧
      (st.frame = (historyOf g es).frame ∧ st.pwm = st.shiftBuf ∧
        st.shiftSeq = (historyOf g es).runs % g.cycle ∧
        Holds g (st.pairs st.shiftBuf) ((historyOf g es).rendered (historyOf g es).runs)
          st.shiftSeq ∧
        Holds g (st.pairs (st.shiftBuf ^^^ 1))
          ((historyOf g es).rendered ((historyOf g es).runs + 1))
          ((st.shiftSeq + 1) % g.cycle)) ∧
      (∀ k, k + g.cycle ≤ (historyOf g es).runs → ∀ row < g.scanRows, ∀ plane < g.depth,
        ∃! n, (k ≤ n ∧ n < k + g.cycle) ∧ ∃ l, st.latches[n]? = some l ∧
          addressOn g.scanRows l.pins = row ∧ l.seq % g.depth = plane) ∧
      ∀ e st', RefreshStep g st e st' → st'.pairs st'.pwm = st.pairs st'.pwm := by
  have hr := runs_of_alloc (hub75ConfigParse_accepted hv) hg
  have hs := inStep_run hr hrun
  generalize historyOf g es = h at hs
  have hlatch : ∀ j < h.runs, ∃ l, st.latches[j]? = some l ∧ LatchOk g l (h.rendered j) j := by
    intro j hj
    rw [← hs.latched] at hj
    exact ⟨st.latches[j], List.getElem?_eq_getElem hj,
      hs.latches j _ (List.getElem?_eq_getElem hj)⟩
  refine ⟨fun n h1 hn => hlatch (n - 1) (by omega),
    ⟨hs.frame, by rw [hs.pwm, hs.shiftBuf], hs.shiftSeq, ?_, ?_⟩, ?_,
    fun e st' hstep => pairs_pwm_step hstep⟩
  · rw [hs.shiftBuf, hs.shiftSeq]
    exact hs.current
  · rw [hs.shiftBuf, hs.shiftSeq, xor_one_mod_two, Nat.mod_add_mod]
    exact hs.ahead
  · intro k hk row hrow plane hplane
    obtain ⟨n, ⟨hn, hmod⟩, hunique⟩ :=
      existsUnique_mod (n := g.cycle) (digits_lt hrow hplane) k
    have hread : ∀ n, k ≤ n ∧ n < k + g.cycle → ((∃ l, st.latches[n]? = some l ∧
        addressOn g.scanRows l.pins = row ∧ l.seq % g.depth = plane) ↔
          n % g.cycle = row * g.depth + plane) := by
      intro n hn
      obtain ⟨l, hl, hok⟩ := hlatch n (by omega)
      constructor
      · rintro ⟨l', hl', haddr, hseq⟩
        rw [hl] at hl'
        cases hl'
        rw [hok.address] at haddr
        rw [hok.seq] at hseq
        rw [← haddr, ← hseq, Nat.mul_comm]
        exact (Nat.div_add_mod _ _).symm
      · intro heq
        refine ⟨l, hl, ?_, ?_⟩
        · rw [hok.address, heq, digits_div hplane]
        · rw [hok.seq, heq, digits_mod hplane]
    refine ⟨n, ⟨hn, (hread n hn).mpr hmod⟩, ?_⟩
    rintro m ⟨hm, hlm⟩
    exact hunique m ⟨hm, (hread m hm).mp hlm⟩

theorem hub75_refresh_pipeline_default :
    ∃ l, (hub75Isr ((hub75Geometry hub75Default).drive 1)
        (hub75Started ((hub75Geometry hub75Default).drive 1)
          (fun _ => ⟨fun _ => (0, 0), fun _ => (0, 0)⟩) 0) false false).latches[0]? = some l ∧
      LatchOk ((hub75Geometry hub75Default).drive 1) l (fun _ => 0) 0 :=
  (hub75_refresh_pipeline hub75DefaultText hub75Default rfl
    ((hub75Geometry hub75Default).drive 1) (by decide) _ 0 [.isr false false] _
    (.snoc (.nil _) ⟨rfl, rfl⟩)).1 1 (le_refl _) (le_refl _)

end NodemFirmware.Hub75
