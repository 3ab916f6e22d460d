import NodemFirmware.Lib.ShiftRegister
import NodemFirmware.Hub75.Refresh

/-! # Setting up the column drivers

`chip_init` and what it bit-bangs: the two configuration registers of an FM6126A and an all-off
row, on GPIOs, before the PWMs take the pins over.

* `PinOp` is an access to the output register, and every function is the list of its accesses.
* `Chain` is a data line's chips as the code takes them: LAT high for the last so many clocks of
  a shift writes the register numbered by the count, and is a plain latch otherwise.
* `fm6126aWriteReg_run` is one register's shift; `fm6126a_init` the whole setup: whatever the
  chips held, every one of them has both registers and an all-off row, and OE was high
  throughout. -/

namespace NodemFirmware.Hub75

open ShiftRegister CText

/-! ### Accesses -/

inductive PinOp where
  | set (mask : BitVec 32)
  | clear (mask : BitVec 32)
  | busyWait (us : ℕ)
deriving DecidableEq, Repr

/-- The output register after an access. -/
def PinOp.apply (out : BitVec 32) : PinOp → BitVec 32
  | set mask => out ||| mask
  | clear mask => out &&& ~~~mask
  | busyWait _ => out

def pinClk : ℕ := 6
def pinOe : ℕ := 7

/-- R1 G1 B1 of `pins_a`, R2 G2 B2 of `pins_b`. -/
def dataPinNumbers : List ℕ := [0, 8, 1, 2, 9, 3]

/-- `DATA_PINS_MASK`. -/
def dataPinsMask : BitVec 32 := dataPinNumbers.foldl (fun mask pin => mask ||| bit pin) 0

/-- `bitbang_clock`. -/
def bitbangClock : List PinOp :=
  [.set (bit pinClk), .busyWait 1, .clear (bit pinClk), .busyWait 1]

/-- A pass of the loop of `fm6126a_write_reg`. -/
def writeRegPass (chainLen : ℕ) (bits : List Bool) (latchClocks i : ℕ) : List PinOp :=
  (if bits.getD (i % 16) false then PinOp.set dataPinsMask else .clear dataPinsMask) ::
    (if (i : ℤ) ≥ chainLen - latchClocks then [.set (bit pinLat)] else []) ++
    .busyWait 1 :: bitbangClock

/-- `fm6126a_write_reg`. -/
def fm6126aWriteReg (chainLen : ℕ) (bits : List Bool) (latchClocks : ℕ) : List PinOp :=
  ((List.range chainLen).flatMap fun i => writeRegPass chainLen bits latchClocks i) ++
    [.clear (bit pinLat ||| dataPinsMask), .busyWait 1]

def reg1 : List Bool :=
  [false, false, false, false, false, true, true, true, true, true, true, false, false, false,
    false, false]

def reg2 : List Bool :=
  [false, false, false, false, false, false, false, false, false, true, false, false, false, false,
    false, false]

/-- The all-off row at the end. -/
def blankRow (chainLen : ℕ) : List PinOp :=
  ((List.range chainLen).flatMap fun _ => bitbangClock) ++
    [.set (bit pinLat), .busyWait 1, .clear (bit pinLat)]

/-- `chip_init_fm6126a`. -/
def chipInitFm6126a (chainLen : ℕ) : List PinOp :=
  fm6126aWriteReg chainLen reg1 11 ++ fm6126aWriteReg chainLen reg2 12 ++ blankRow chainLen

/-- `pin_cfg_output`, as far as it sets the level. -/
def pinCfgOutput (pin : ℕ) (high : Bool) : PinOp :=
  if high then .set (bit pin) else .clear (bit pin)

/-- `pins_a` and `pins_b`. -/
def pinsA : List ℕ := [0, 8, 1, pinClk]
def pinsB : List ℕ := [2, 9, 3, pinOe]

/-- The loop of `chip_init`. -/
def chipInitPins : List PinOp :=
  (List.range 4).flatMap fun i =>
    [pinCfgOutput (pinsA.getD i 0) false, pinCfgOutput (pinsB.getD i 0) (pinsB.getD i 0 == pinOe)]

/-- `chip_init`. -/
def chipInit (chainLen : ℕ) (chip : Chip) : List PinOp :=
  chipInitPins ++
    match chip with
    | .fm6126a => chipInitFm6126a chainLen
    | .shift => []

/-- The pins `hub75_start` sets before: LAT, and an address pin for each bit `scan_rows` needs. -/
def startPins (scanRows : ℕ) : List PinOp :=
  pinCfgOutput pinLat false ::
    addrPins.zipIdx.flatMap fun p => if 2 ^ p.2 < scanRows then [pinCfgOutput p.1 false] else []

/-! ### The chips of a data line -/

/-- What the chips of a line see of the pins. -/
structure Wires where
  clk : Bool
  lat : Bool
  data : Bool

def wires (pin : ℕ) (out : BitVec 32) : Wires :=
  ⟨out.getLsbD pinClk, out.getLsbD pinLat, out.getLsbD pin⟩

/-- The chips of a data line, end to end: 16 cells each, their two registers, the outputs, and the
clocks since LAT rose. -/
structure Chain where
  cells : List Bool
  regs1 : List Bool
  regs2 : List Bool
  outs : List Bool
  latClocks : ℕ

/-- LAT falls. -/
def Chain.strobe (s : Chain) : Chain :=
  if s.latClocks = 11 then { s with regs1 := s.cells }
  else if s.latClocks = 12 then { s with regs2 := s.cells }
  else { s with outs := s.cells }

/-- A change of the wires. -/
def Chain.see (prev cur : Wires) (s : Chain) : Chain :=
  let s := if !prev.lat && cur.lat then { s with latClocks := 0 } else s
  let s := if !prev.clk && cur.clk then
    { s with
      cells := shift s.cells cur.data
      latClocks := if cur.lat then s.latClocks + 1 else s.latClocks } else s
  if prev.lat && !cur.lat then s.strobe else s

/-- An access, as the line of `pin` sees it. -/
def bang (pin : ℕ) (s : BitVec 32 × Chain) (op : PinOp) : BitVec 32 × Chain :=
  (op.apply s.1, s.2.see (wires pin s.1) (wires pin (op.apply s.1)))

/-! ### What an access does to the wires -/

theorem dataPin_masks {pin : ℕ} (h : pin ∈ dataPinNumbers) : pin < 32 ∧
    dataPinsMask.getLsbD pin = true ∧ (bit pinClk).getLsbD pin = false ∧
    (bit pinLat).getLsbD pin = false := by
  revert pin
  decide

/-- What the masks used have at CLK and LAT. -/
theorem clkLat_masks : dataPinsMask.getLsbD pinClk = false ∧ dataPinsMask.getLsbD pinLat = false ∧
    (bit pinClk).getLsbD pinClk = true ∧ (bit pinClk).getLsbD pinLat = false ∧
    (bit pinLat).getLsbD pinClk = false ∧ (bit pinLat).getLsbD pinLat = true := by
  decide

/-- Nothing changes, nothing happens. -/
theorem Chain.see_same (w : Wires) (s : Chain) : s.see w w = s := by
  simp [Chain.see]

/-- What the line of `pin` sees, and what its chips hold. -/
structure Seen (pin : ℕ) (s : BitVec 32 × Chain) (w : Wires) (chain : Chain) : Prop where
  wires : wires pin s.1 = w
  chain : s.2 = chain

section Line

variable {pin : ℕ} (hpin : pin ∈ dataPinNumbers) {s : BitVec 32 × Chain} {w : Wires}
  {chain : Chain} {lat data : Bool}

theorem Seen.set (h : Seen pin s w chain) {mask : BitVec 32} {c l d : Bool}
    (hc : mask.getLsbD pinClk = c) (hl : mask.getLsbD pinLat = l) (hd : mask.getLsbD pin = d) :
    Seen pin (bang pin s (.set mask)) ⟨w.clk || c, w.lat || l, w.data || d⟩
      (chain.see w ⟨w.clk || c, w.lat || l, w.data || d⟩) := by
  obtain ⟨rfl, rfl⟩ := h
  have hnew : Hub75.wires pin (s.1 ||| mask) = ⟨(Hub75.wires pin s.1).clk || c,
      (Hub75.wires pin s.1).lat || l, (Hub75.wires pin s.1).data || d⟩ := by
    unfold Hub75.wires
    simp only [BitVec.getLsbD_or, hc, hl, hd]
  exact ⟨hnew, congrArg (s.2.see (Hub75.wires pin s.1)) hnew⟩

include hpin in
theorem Seen.clear (h : Seen pin s w chain) {mask : BitVec 32} {c l d : Bool}
    (hc : mask.getLsbD pinClk = c) (hl : mask.getLsbD pinLat = l) (hd : mask.getLsbD pin = d) :
    Seen pin (bang pin s (.clear mask)) ⟨w.clk && !c, w.lat && !l, w.data && !d⟩
      (chain.see w ⟨w.clk && !c, w.lat && !l, w.data && !d⟩) := by
  obtain ⟨rfl, rfl⟩ := h
  have hnew : Hub75.wires pin (s.1 &&& ~~~mask) = ⟨(Hub75.wires pin s.1).clk && !c,
      (Hub75.wires pin s.1).lat && !l, (Hub75.wires pin s.1).data && !d⟩ := by
    have hlt := (dataPin_masks hpin).1
    have hclk : pinClk < 32 := by decide
    have hlat : pinLat < 32 := by decide
    unfold Hub75.wires
    simp only [BitVec.getLsbD_and, BitVec.getLsbD_not, hlt, hclk, hlat, decide_true, Bool.true_and,
      hc, hl, hd]
  exact ⟨hnew, congrArg (s.2.see (Hub75.wires pin s.1)) hnew⟩

theorem Seen.busyWait (h : Seen pin s w chain) (us : ℕ) :
    Seen pin (bang pin s (.busyWait us)) w chain :=
  ⟨h.wires, (Chain.see_same _ _).trans h.chain⟩

include hpin in
/-- **`bitbang_clock`** clocks the data line in, and counts while LAT is high. -/
theorem seen_clock (h : Seen pin s ⟨false, lat, data⟩ chain) :
    Seen pin (bitbangClock.foldl (bang pin) s) ⟨false, lat, data⟩
      { chain with
        cells := shift chain.cells data
        latClocks := if lat then chain.latClocks + 1 else chain.latClocks } := by
  obtain ⟨-, -, hclkPin, -⟩ := dataPin_masks hpin
  obtain ⟨-, -, hclk, hlat, -⟩ := clkLat_masks
  have hdone := (((h.set hclk hlat hclkPin).busyWait 1).clear hpin hclk hlat hclkPin).busyWait 1
  cases lat <;> cases data <;> exact hdone

include hpin in
/-- The data lines set to a bit. -/
theorem seen_data (h : Seen pin s ⟨false, lat, data⟩ chain) (b : Bool) :
    Seen pin (bang pin s (if b then .set dataPinsMask else .clear dataPinsMask)) ⟨false, lat, b⟩
      chain := by
  obtain ⟨-, hmask, -, -⟩ := dataPin_masks hpin
  obtain ⟨hclk, hlat, -⟩ := clkLat_masks
  cases b with
  | true =>
      have hdone := h.set hclk hlat hmask
      cases lat <;> cases data <;> exact hdone
  | false =>
      have hdone := h.clear hpin hclk hlat hmask
      cases lat <;> cases data <;> exact hdone

include hpin in
/-- LAT up: the count begins anew, unless it was up. -/
theorem seen_lat (h : Seen pin s ⟨false, lat, data⟩ chain) :
    Seen pin (bang pin s (.set (bit pinLat))) ⟨false, true, data⟩
      { chain with latClocks := if lat then chain.latClocks else 0 } := by
  obtain ⟨-, -, -, hlatPin⟩ := dataPin_masks hpin
  obtain ⟨-, -, -, -, hclk, hlat⟩ := clkLat_masks
  have hdone := h.set hclk hlat hlatPin
  cases lat <;> cases data <;> exact hdone

include hpin in
/-- LAT down: what was counted decides. -/
theorem seen_unlat (h : Seen pin s ⟨false, true, data⟩ chain) {mask : BitVec 32} {d : Bool}
    (hclk : mask.getLsbD pinClk = false) (hlat : mask.getLsbD pinLat = true)
    (hd : mask.getLsbD pin = d) :
    Seen pin (bang pin s (.clear mask)) ⟨false, false, data && !d⟩ chain.strobe := by
  have hdone := h.clear hpin hclk hlat hd
  cases data <;> exact hdone

/-! ### A register -/

/-- The bit of clock `i`. -/
def regBit (bits : List Bool) (i : ℕ) : Bool := bits.getD (i % 16) false

include hpin in
/-- A pass of the loop: LAT goes up with the first of the last `latchClocks`. -/
theorem seen_pass {n latchClocks i : ℕ} (bits : List Bool) (hl : latchClocks ≤ n)
    (h : Seen pin s ⟨false, lat, data⟩ chain) (hlat : lat = decide (n - latchClocks < i)) :
    Seen pin ((writeRegPass n bits latchClocks i).foldl (bang pin) s)
      ⟨false, decide (n - latchClocks < i + 1), regBit bits i⟩
      { chain with
        cells := shift chain.cells (regBit bits i)
        latClocks :=
          if n - latchClocks < i + 1 then (if n - latchClocks < i then chain.latClocks else 0) + 1
          else chain.latClocks } := by
  have hdata := seen_data hpin h (regBit bits i)
  have hcond : ((i : ℤ) ≥ n - latchClocks) ↔ n - latchClocks < i + 1 := by omega
  unfold writeRegPass
  rw [List.cons_append, List.foldl_cons, List.foldl_append, List.foldl_cons]
  by_cases hup : n - latchClocks < i + 1
  · rw [if_pos (hcond.mpr hup), if_pos hup, decide_eq_true hup, List.foldl_cons, List.foldl_nil]
    have hdone := seen_clock hpin ((seen_lat hpin hdata).busyWait 1)
    rw [hlat] at hdone
    simp only [decide_eq_true_eq] at hdone
    exact hdone
  · have hlow : ¬ n - latchClocks < i := by omega
    rw [if_neg (hcond.not.mpr hup), if_neg hup, decide_eq_false hup, List.foldl_nil]
    rw [decide_eq_false hlow] at hlat
    subst hlat
    exact seen_clock hpin (hdata.busyWait 1)

include hpin in
/-- The loop, after `i` passes. -/
theorem seen_passes {n latchClocks : ℕ} (bits : List Bool) (hl : latchClocks ≤ n)
    (h : Seen pin s ⟨false, false, data⟩ chain) {i : ℕ} (hi : i ≤ n) : ∃ d count,
      Seen pin (((List.range i).flatMap fun i => writeRegPass n bits latchClocks i).foldl
        (bang pin) s) ⟨false, decide (n - latchClocks < i), d⟩
        { chain with
          cells := shifts chain.cells ((List.range i).map (regBit bits))
          latClocks := count } ∧
      (n - latchClocks < i → count = i - (n - latchClocks)) := by
  induction i with
  | zero => exact ⟨data, chain.latClocks, h, fun hlt => absurd hlt (Nat.not_lt_zero _)⟩
  | succ i ih =>
      obtain ⟨d, count, hseen, hcount⟩ := ih (by omega)
      have hpass := seen_pass hpin bits hl hseen rfl
      refine ⟨regBit bits i, if n - latchClocks < i + 1 then
        (if n - latchClocks < i then count else 0) + 1 else count, ?_, ?_⟩
      · rw [List.range_succ, List.flatMap_append, List.foldl_append, List.flatMap_singleton]
        have hcells : shifts chain.cells ((List.range i ++ [i]).map (regBit bits)) =
            shift (shifts chain.cells ((List.range i).map (regBit bits))) (regBit bits i) := by
          rw [shifts, List.map_append, List.foldl_append]
          rfl
        rw [hcells]
        exact hpass
      · intro hlt
        rw [if_pos hlt]
        split_ifs with hbefore
        · rw [hcount hbefore]
          omega
        · omega

include hpin in
/-- **`fm6126a_write_reg`**: the bits are in the chain, and LAT falls with so many counted. -/
theorem seen_writeReg {n latchClocks : ℕ} (bits : List Bool) (hpos : 0 < latchClocks)
    (hl : latchClocks ≤ n) (h : Seen pin s ⟨false, false, data⟩ chain) :
    Seen pin ((fm6126aWriteReg n bits latchClocks).foldl (bang pin) s) ⟨false, false, false⟩
      { chain with
        cells := shifts chain.cells ((List.range n).map (regBit bits))
        latClocks := latchClocks }.strobe := by
  obtain ⟨-, hdataPin, -, hlatPin⟩ := dataPin_masks hpin
  have hmask : ∀ d, (bit pinLat ||| dataPinsMask).getLsbD pinClk = false ∧
      (bit pinLat ||| dataPinsMask).getLsbD pinLat = true ∧ (d && !true) = false := by decide
  have hboth : (bit pinLat ||| dataPinsMask).getLsbD pin = true := by
    rw [BitVec.getLsbD_or, hdataPin, Bool.or_true]
  obtain ⟨d, count, hseen, hcount⟩ := seen_passes hpin bits hl h (le_refl n)
  rw [decide_eq_true (by omega : n - latchClocks < n)] at hseen
  obtain rfl : count = latchClocks := by
    rw [hcount (by omega)]
    omega
  have hdone := (seen_unlat hpin hseen (hmask d).1 (hmask d).2.1 hboth).busyWait 1
  rw [(hmask d).2.2] at hdone
  unfold fm6126aWriteReg
  rw [List.foldl_append]
  exact hdone

include hpin in
/-- The all-off row. -/
theorem seen_blankRow (n : ℕ) (h : Seen pin s ⟨false, false, false⟩ chain) :
    Seen pin ((blankRow n).foldl (bang pin) s) ⟨false, false, false⟩
      { chain with
        cells := shifts chain.cells (List.replicate n false)
        outs := shifts chain.cells (List.replicate n false)
        latClocks := 0 } := by
  obtain ⟨-, -, -, hlatPin⟩ := dataPin_masks hpin
  obtain ⟨-, -, -, -, hclk, hlat⟩ := clkLat_masks
  have hclocks : Seen pin (((List.range n).flatMap fun _ => bitbangClock).foldl (bang pin) s)
      ⟨false, false, false⟩
      { chain with cells := shifts chain.cells (List.replicate n false) } := by
    induction n with
    | zero => exact h
    | succ n ih =>
        have hcells : shifts chain.cells (List.replicate (n + 1) false) =
            shift (shifts chain.cells (List.replicate n false)) false := by
          rw [shifts, List.replicate_succ', List.foldl_append]
          rfl
        rw [List.range_succ, List.flatMap_append, List.foldl_append, List.flatMap_singleton, hcells]
        exact seen_clock hpin ih
  have hdone := seen_unlat hpin ((seen_lat hpin hclocks).busyWait 1) hclk hlat hlatPin
  unfold blankRow
  rw [List.foldl_append]
  exact hdone

end Line

/-! ### The pins after some accesses -/

/-- What an access makes of a pin, if anything. -/
def PinOp.effect (i : ℕ) : PinOp → Option Bool
  | set mask => if mask.getLsbD i then some true else none
  | clear mask => if mask.getLsbD i then some false else none
  | busyWait _ => none

/-- What a list of accesses makes of it: the last one that does anything. -/
def lastLevel (i : ℕ) (ops : List PinOp) : Option Bool :=
  ops.foldl (fun level op => (op.effect i).or level) none

theorem PinOp.apply_getLsbD {i : ℕ} (hi : i < 32) (out : BitVec 32) (op : PinOp) :
    (op.apply out).getLsbD i = (op.effect i).getD (out.getLsbD i) := by
  cases op with
  | set mask =>
      unfold apply effect
      rw [BitVec.getLsbD_or]
      cases hmask : mask.getLsbD i <;> simp only [hmask] <;> simp
  | clear mask =>
      unfold apply effect
      rw [BitVec.getLsbD_and, BitVec.getLsbD_not, decide_eq_true hi]
      cases hmask : mask.getLsbD i <;> simp only [hmask] <;> simp
  | busyWait us => rfl

theorem lastLevel_append (i : ℕ) (ops ops' : List PinOp) :
    lastLevel i (ops ++ ops') = (lastLevel i ops').or (lastLevel i ops) := by
  have hfold : ∀ (l : List PinOp) (b : Option Bool),
      l.foldl (fun level op => (op.effect i).or level) b = (lastLevel i l).or b := by
    intro l
    induction l using List.reverseRecOn with
    | nil => exact fun b => rfl
    | append_singleton l op ih =>
        intro b
        have ih' := ih b
        unfold lastLevel at ih' ⊢
        rw [List.foldl_append, List.foldl_append, ih']
        exact Option.or_assoc.symm
  rw [lastLevel, List.foldl_append]
  exact hfold ops' _

theorem apply_lastLevel {i : ℕ} (hi : i < 32) (out : BitVec 32) (ops : List PinOp) :
    (ops.foldl PinOp.apply out).getLsbD i = (lastLevel i ops).getD (out.getLsbD i) := by
  induction ops using List.reverseRecOn with
  | nil => rfl
  | append_singleton ops op ih =>
      rw [List.foldl_append, lastLevel_append, List.foldl_cons, List.foldl_nil,
        PinOp.apply_getLsbD hi, ih]
      show _ = (((op.effect i).or none).or _).getD _
      cases op.effect i <;> rfl

theorem lastLevel_none {i : ℕ} {ops : List PinOp} (h : ∀ op ∈ ops, op.effect i = none) :
    lastLevel i ops = none := by
  induction ops using List.reverseRecOn with
  | nil => rfl
  | append_singleton ops op ih =>
      rw [lastLevel_append, ih fun o ho => h o (List.mem_append_left _ ho)]
      show ((op.effect i).or none).or none = none
      rw [h op (List.mem_append_right _ (List.mem_singleton_self _))]
      rfl

/-- **OE is left alone** by the setup of the chips. -/
theorem fm6126a_oe (n : ℕ) : ∀ op ∈ chipInitFm6126a n, op.effect pinOe = none := by
  have hclock : ∀ op ∈ bitbangClock, op.effect pinOe = none := by decide
  have hreg : ∀ bits latchClocks, ∀ op ∈ fm6126aWriteReg n bits latchClocks,
      op.effect pinOe = none := by
    intro bits latchClocks op hop
    unfold fm6126aWriteReg writeRegPass at hop
    simp only [List.mem_append, List.mem_flatMap, List.mem_cons, List.not_mem_nil, or_false] at hop
    rcases hop with ⟨i, -, (rfl | hlat) | rfl | hop⟩ | rfl | rfl
    · split_ifs <;> decide
    · split_ifs at hlat with hup
      · rw [List.mem_singleton.mp hlat]
        decide
      · cases hlat
    · rfl
    · exact hclock op hop
    · decide
    · rfl
  have hblank : ∀ op ∈ blankRow n, op.effect pinOe = none := by
    have hend : ∀ op ∈ [PinOp.set (bit pinLat), .busyWait 1, .clear (bit pinLat)],
        op.effect pinOe = none := by decide
    intro op hop
    rcases List.mem_append.mp hop with hop | hop
    · obtain ⟨i, -, hop⟩ := List.mem_flatMap.mp hop
      exact hclock op hop
    · exact hend op hop
  intro op hop
  unfold chipInitFm6126a at hop
  rcases List.mem_append.mp hop with hop | hop
  · rcases List.mem_append.mp hop with hop | hop
    · exact hreg reg1 11 op hop
    · exact hreg reg2 12 op hop
  · exact hblank op hop

/-! ### The whole setup -/

theorem bangs_fst (pin : ℕ) (s : BitVec 32 × Chain) (ops : List PinOp) :
    (ops.foldl (bang pin) s).1 = ops.foldl PinOp.apply s.1 := by
  induction ops generalizing s with
  | nil => rfl
  | cons op ops ih => exact ih _

theorem Chain.see_cells {prev cur : Wires} (h : (!prev.clk && cur.clk) = false) (s : Chain) :
    (s.see prev cur).cells = s.cells := by
  have hstrobe : ∀ s : Chain, s.strobe.cells = s.cells := by
    intro s
    unfold strobe
    split_ifs <;> rfl
  unfold see
  simp only [h, Bool.false_eq_true, if_false]
  split_ifs <;> simp only [hstrobe]

/-- While CLK is not raised, no cell changes. -/
theorem bangs_cells (pin : ℕ) (s : BitVec 32 × Chain) {ops : List PinOp}
    (h : ∀ op ∈ ops, op.effect pinClk ≠ some true) :
    (ops.foldl (bang pin) s).2.cells = s.2.cells := by
  induction ops generalizing s with
  | nil => rfl
  | cons op ops ih =>
      rw [List.foldl_cons, ih _ fun o ho => h o (List.mem_cons_of_mem _ ho)]
      have hop := h op List.mem_cons_self
      have hclk := PinOp.apply_getLsbD (i := pinClk) (by decide) s.1 op
      have hfall : (!(wires pin s.1).clk && (wires pin (op.apply s.1)).clk) = false := by
        show (!s.1.getLsbD pinClk && (op.apply s.1).getLsbD pinClk) = false
        rw [hclk]
        cases heffect : op.effect pinClk with
        | none => simp
        | some b =>
            cases b with
            | true => exact absurd heffect hop
            | false => simp
      exact Chain.see_cells hfall s.2

/-- **The pins before the chips are set up**: CLK, LAT and the data lines low, OE high, whatever
they were; and nothing was clocked. -/
theorem pins_ready (scanRows : ℕ) (out : BitVec 32) :
    (∀ op ∈ startPins scanRows ++ chipInitPins, op.effect pinClk ≠ some true) ∧
      (∀ pin ∈ dataPinNumbers, wires pin ((startPins scanRows ++ chipInitPins).foldl PinOp.apply
        out) = ⟨false, false, false⟩) ∧
      ((startPins scanRows ++ chipInitPins).foldl PinOp.apply out).getLsbD pinOe = true := by
  have hstart : ∀ op ∈ startPins scanRows, ∃ pin, op = .clear (bit pin) := by
    intro op hop
    unfold startPins at hop
    rcases List.mem_cons.mp hop with rfl | hop
    · exact ⟨pinLat, rfl⟩
    · obtain ⟨p, -, hp⟩ := List.mem_flatMap.mp hop
      split_ifs at hp
      · exact ⟨p.1, List.mem_singleton.mp hp⟩
      · cases hp
  have hlat : lastLevel pinLat (startPins scanRows) = some false := by
    have haddr : ∀ p ∈ addrPins.zipIdx, (pinCfgOutput p.1 false).effect pinLat = none := by decide
    have hrest : lastLevel pinLat (addrPins.zipIdx.flatMap fun p =>
        if 2 ^ p.2 < scanRows then [pinCfgOutput p.1 false] else []) = none := by
      refine lastLevel_none fun op hop => ?_
      obtain ⟨p, hp, hop⟩ := List.mem_flatMap.mp hop
      split_ifs at hop
      · rw [List.mem_singleton.mp hop]
        exact haddr p hp
      · cases hop
    unfold startPins
    rw [← List.singleton_append, lastLevel_append, hrest]
    decide
  have hpins : ∀ pin ∈ dataPinNumbers, lastLevel pin chipInitPins = some false := by decide
  have hlow : ∀ {i}, i < 32 → lastLevel i (startPins scanRows ++ chipInitPins) = some false →
      ((startPins scanRows ++ chipInitPins).foldl PinOp.apply out).getLsbD i = false := by
    intro i hi h
    rw [apply_lastLevel hi, h]
    rfl
  have hcfg : ∀ op ∈ chipInitPins, op.effect pinClk ≠ some true := by decide
  have hclk : lastLevel pinClk chipInitPins = some false := by decide
  have hkept : lastLevel pinLat chipInitPins = none := by decide
  refine ⟨fun op hop => ?_, fun pin hpin => ?_, ?_⟩
  · rcases List.mem_append.mp hop with hop | hop
    · obtain ⟨pin, rfl⟩ := hstart op hop
      unfold PinOp.effect
      simp only
      split_ifs <;> simp
    · exact hcfg op hop
  · unfold wires
    rw [hlow (by decide), hlow (by decide), hlow (dataPin_masks hpin).1]
    · rw [lastLevel_append, hpins pin hpin]
      rfl
    · rw [lastLevel_append, hkept, hlat]
      rfl
    · rw [lastLevel_append, hclk]
      rfl
  · rw [apply_lastLevel (by decide), lastLevel_append]
    have hoe : lastLevel pinOe chipInitPins = some true := by decide
    rw [hoe]
    rfl

/-- The sixteen bits over and over. -/
theorem map_regBit {bits : List Bool} (h : bits.length = 16) (m : ℕ) :
    (List.range (16 * m)).map (regBit bits) = (List.replicate m bits).flatten := by
  induction m with
  | zero => rfl
  | succ m ih =>
      have hone : (List.range 16).map (fun j => regBit bits (16 * m + j)) = bits := by
        refine List.ext_getElem (by simp [h]) fun j hj _ => ?_
        have hj16 : j < 16 := by simpa using hj
        rw [List.getElem_map, List.getElem_range, regBit, Nat.mul_add_mod,
          Nat.mod_eq_of_lt hj16, List.getD_eq_getElem?_getD,
          List.getElem?_eq_getElem (show j < bits.length by omega), Option.getD_some]
      rw [Nat.mul_succ, List.range_add, List.map_append, ih, List.map_map, List.replicate_succ',
        List.flatten_append, List.flatten_singleton]
      exact congrArg _ hone

/-- A register of every chip, after as many clocks as cells. -/
theorem shifts_regBit {reg bits : List Bool} {m : ℕ} (hreg : reg.length = 16 * m)
    (hbits : bits.length = 16) : shifts reg ((List.range (16 * m)).map (regBit bits)) =
      (List.replicate m bits.reverse).flatten := by
  rw [shifts_full (by simp [hreg]), map_regBit hbits, List.reverse_flatten, List.map_replicate,
    List.reverse_replicate]

theorem length_copies {bits : List Bool} (h : bits.length = 16) (m : ℕ) :
    (List.replicate m bits.reverse).flatten.length = 16 * m := by
  simp [h, Nat.mul_comm]

/-- `chip_init_fm6126a`, chip by chip: the registers one after the other, then the row. -/
theorem seen_chipInit {pin : ℕ} (hpin : pin ∈ dataPinNumbers) {s : BitVec 32 × Chain}
    {chain : Chain} {data : Bool} {m : ℕ} (hm : 0 < m)
    (h : Seen pin s ⟨false, false, data⟩ chain) (hlen : chain.cells.length = 16 * m) :
    Seen pin ((chipInitFm6126a (16 * m)).foldl (bang pin) s) ⟨false, false, false⟩
      { cells := List.replicate (16 * m) false
        regs1 := (List.replicate m reg1.reverse).flatten
        regs2 := (List.replicate m reg2.reverse).flatten
        outs := List.replicate (16 * m) false
        latClocks := 0 } := by
  have hfirst := seen_writeReg hpin reg1 (show 0 < 11 by decide) (show 11 ≤ 16 * m by omega) h
  rw [shifts_regBit hlen rfl] at hfirst
  have hsecond := seen_writeReg hpin reg2 (show 0 < 12 by decide) (show 12 ≤ 16 * m by omega) hfirst
  have hlen₁ : (List.replicate m reg1.reverse).flatten.length = 16 * m := length_copies rfl m
  have hcells₂ : shifts (List.replicate m reg1.reverse).flatten
      ((List.range (16 * m)).map (regBit reg2)) = (List.replicate m reg2.reverse).flatten :=
    shifts_regBit hlen₁ rfl
  have hthird := seen_blankRow hpin (16 * m) hsecond
  have hcells₃ : shifts (List.replicate m reg2.reverse).flatten (List.replicate (16 * m) false) =
      List.replicate (16 * m) false := by
    rw [shifts_full (by rw [List.length_replicate, length_copies rfl]), List.reverse_replicate]
  unfold chipInitFm6126a
  rw [List.foldl_append, List.foldl_append]
  have hcount : ¬ 12 = 11 := by decide
  simp only [Chain.strobe, if_true, hcount, if_false, hcells₂, hcells₃] at hthird
  exact hthird

/-- **The chips are set up.**  On a display whose panels are a whole number of chips wide, whatever
the chips held and the pins were: every chip of every line has both of its registers and an all-off
row, CLK, LAT and the data lines are low again, and OE was high all the time. -/
theorem fm6126a_setup (v : CStr) (c : Config) (hv : hub75ConfigParse v = .ok (some c))
    (hrb : c.rowBlocks ≤ 255) (h16 : 16 ∣ c.width / c.gridX) (pin : ℕ)
    (hpin : pin ∈ dataPinNumbers) (out : BitVec 32) (chain : Chain)
    (hlen : chain.cells.length = (hub75Geometry c).chainLen) :
    let g := hub75Geometry c
    let done := (startPins g.scanRows ++ chipInit g.chainLen .fm6126a).foldl (bang pin) (out, chain)
    done.2.regs1 = (List.replicate (g.chainLen / 16) reg1.reverse).flatten ∧
      done.2.regs2 = (List.replicate (g.chainLen / 16) reg2.reverse).flatten ∧
      done.2.outs = List.replicate g.chainLen false ∧ 0 < g.chainLen / 16 ∧
      wires pin done.1 = ⟨false, false, false⟩ ∧
      ∀ ops, ops <+: chipInitFm6126a g.chainLen → ((startPins g.scanRows ++ chipInitPins ++
        ops).foldl PinOp.apply out).getLsbD pinOe = true := by
  intro g done
  have hc := hub75ConfigParse_accepted hv
  have hg : g.chainLen = c.width * c.gridY * c.rowBlocks := (geometry_derived hc hrb).chainLen
  obtain ⟨_, hdiv⟩ := hc.divides
  obtain ⟨m, hm⟩ : ∃ m, g.chainLen = 16 * m := by
    rw [hg, hdiv.width]
    exact ((h16.mul_left _).mul_right _).mul_right _
  have hpos : 0 < g.chainLen := by
    have hw := hc.width.1
    rw [hg]
    exact Nat.mul_pos (Nat.mul_pos (by omega) hc.gridY.1) hdiv.rb_pos
  obtain ⟨hquiet, hwires, hoe⟩ := pins_ready g.scanRows out
  have hready : Seen pin ((startPins g.scanRows ++ chipInitPins).foldl (bang pin) (out, chain))
      ⟨false, false, false⟩ _ := ⟨by rw [bangs_fst]; exact hwires pin hpin, rfl⟩
  have hcells : _ = 16 * m :=
    (congrArg List.length (bangs_cells pin (out, chain) hquiet)).trans (hlen.trans hm)
  have hseen := seen_chipInit hpin (by omega) hready hcells
  rw [← List.foldl_append, List.append_assoc, ← hm] at hseen
  have hdone : Seen pin done ⟨false, false, false⟩ _ := hseen
  have hmdiv : g.chainLen / 16 = m := by omega
  rw [hdone.chain, hmdiv]
  refine ⟨rfl, rfl, rfl, by omega, hdone.wires, fun ops hops => ?_⟩
  have hkept : lastLevel pinOe ops = none :=
    lastLevel_none fun op hop => fm6126a_oe g.chainLen op (hops.subset hop)
  rw [List.foldl_append, apply_lastLevel (by decide), hkept]
  exact hoe

/-- Any chips, after LAT has been up for five clocks. -/
def chainAny : Chain :=
  ⟨List.replicate (hub75Geometry hub75Default).chainLen true, [], [], [], 5⟩

theorem fm6126a_setup_default :
    ((startPins (hub75Geometry hub75Default).scanRows ++
        chipInit (hub75Geometry hub75Default).chainLen .fm6126a).foldl (bang 9)
        (0xFFFFFFFF, chainAny)).2.regs2 =
      (List.replicate ((hub75Geometry hub75Default).chainLen / 16) reg2.reverse).flatten :=
  (fm6126a_setup hub75DefaultText hub75Default rfl (by decide) (by decide) 9 (by decide) 0xFFFFFFFF
    chainAny (List.length_replicate ..)).2.1

end NodemFirmware.Hub75
