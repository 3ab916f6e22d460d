import NodemFirmware.Lib.ShiftRegister
import NodemFirmware.Hub75.Arena
import NodemFirmware.Hub75.Brightness

/-! # The pins while a shift goes out

`pwm_setup` and `shift_start`: what the two PWM instances put on the data lines, CLK and OE, tick
by tick, from the step buffers they play.

* `playedStep` is a step of the sequences, the blank filler first for the panels that are not
  driven; `output` is a channel's level, its GPIO's once the instance has stopped.
* `Timing` is what the code leaves open: how far PWM_B trails PWM_A, when each of the two stops
  after the data, and the heartbeat LED on R1's pin.
* `sampled_columns`: the panel's clock samples one column a step, the filler's and then the
  frame's, whatever the timing.  `oe_ticks`: OE is low for exactly the ticks of the plane. -/

namespace NodemFirmware.Hub75

open Pulse ShiftRegister

/-! ### The sequences -/

/-- `filler_a` and `filler_b`. -/
def fillerStep (g : Driver) : Step × Step :=
  ((stepWord pwmLow pwmLow, stepWord pwmLow (g.pwmTop / 2)),
    (stepWord pwmLow pwmLow, stepWord pwmLow pwmHigh))

/-- How often the filler is played: once and `repeats` times more, if it has a sequence
(`data_seq`). -/
def Driver.fillLen (g : Driver) : ℕ :=
  if g.drivePanels < g.totalPanels then g.chainLen - g.driveLen - 1 + 1 else 0

/-- Step `i` of a shift, in both instances: the filler, then the pair. -/
def playedStep (g : Driver) (p : Pair) (i : ℕ) : Step × Step :=
  if i < g.fillLen then fillerStep g else (p.a (i - g.fillLen), p.b (i - g.fillLen))

/-- The steps that clock a column. -/
def Driver.columns (g : Driver) : ℕ := g.fillLen + g.driveLen

/-- The value of a channel: two to a word, the first in its low half. -/
def channel (s : Step) : Fin 4 → ℕ
  | 0 => s.1.toNat % 2 ^ 16
  | 1 => (s.1 >>> 16).toNat
  | 2 => s.2.toNat % 2 ^ 16
  | 3 => (s.2 >>> 16).toNat

/-! ### The pins -/

/-- What a shift's timing leaves open: PWM_B starts `lag` ticks after PWM_A, the two stop after
`stopA` and `stopB` ticks of their own and the interrupt latches at `latch`; `led` is what the
heartbeat has put on R1's GPIO. -/
structure Timing where
  lag : ℕ
  stopA : ℕ
  stopB : ℕ
  latch : ℕ
  led : ℕ → Bool

/-- PWM_B trails by no more than a tick or two, less than half a period; both stop during the idle
steps, and the interrupt waits for both. -/
structure Timing.Ok (g : Driver) (tm : Timing) : Prop where
  lag : tm.lag ≤ g.pwmTop / 2
  dataA : g.columns * g.pwmTop ≤ tm.stopA
  endA : tm.stopA ≤ (g.columns + idleSteps) * g.pwmTop
  dataB : g.columns * g.pwmTop ≤ tm.stopB
  endB : tm.stopB ≤ (g.columns + idleSteps) * g.pwmTop
  latchA : tm.stopA ≤ tm.latch
  latchB : tm.lag + tm.stopB ≤ tm.latch

/-- The level of a channel: its GPIO's once the instance has stopped. -/
def output (top : ℕ) (words : ℕ → ℕ) (stop : ℕ) (gpio : Bool) (t : ℕ) : Bool :=
  if t < stop then !lowAt top words t else gpio

/-- Channel `ch` of PWM_A. -/
def pinA (g : Driver) (p : Pair) (tm : Timing) (ch : Fin 4) (gpio : Bool) (t : ℕ) : Bool :=
  output g.pwmTop (fun i => channel (playedStep g p i).1 ch) tm.stopA gpio t

/-- Channel `ch` of PWM_B, by PWM_A's ticks. -/
def pinB (g : Driver) (p : Pair) (tm : Timing) (ch : Fin 4) (gpio : Bool) (t : ℕ) : Bool :=
  if tm.lag ≤ t then
    output g.pwmTop (fun i => channel (playedStep g p i).2 ch) tm.stopB gpio (t - tm.lag)
  else gpio

/-- The six data lines at one time: R1 G1 B1 R2 G2 B2. -/
abbrev Column := Fin 6 → Bool

/-- `pins_a` and `pins_b`, but for CLK and OE; R1's GPIO is the heartbeat LED's. -/
def dataPins (g : Driver) (p : Pair) (tm : Timing) (t : ℕ) : Column
  | 0 => pinA g p tm 0 (tm.led t) t
  | 1 => pinA g p tm 1 false t
  | 2 => pinA g p tm 2 false t
  | 3 => pinB g p tm 0 false t
  | 4 => pinB g p tm 1 false t
  | 5 => pinB g p tm 2 false t

def clkPin (g : Driver) (p : Pair) (tm : Timing) (t : ℕ) : Bool := pinA g p tm 3 false t

def oePin (g : Driver) (p : Pair) (tm : Timing) (t : ℕ) : Bool := pinB g p tm 3 true t

/-! ### Words -/

theorem stepWord_lo {lo hi : ℕ} (hlo : lo < 2 ^ 16) (hhi : hi < 2 ^ 16) :
    (stepWord lo hi).toNat % 2 ^ 16 = lo := by
  unfold stepWord
  rw [BitVec.toNat_or, BitVec.toNat_shiftLeft, BitVec.toNat_ofNat, BitVec.toNat_ofNat,
    Nat.mod_eq_of_lt (show lo < 2 ^ 32 by omega), Nat.mod_eq_of_lt (show hi < 2 ^ 32 by omega),
    Nat.shiftLeft_eq, Nat.mod_eq_of_lt (show hi * 2 ^ 16 < 2 ^ 32 by omega),
    Nat.or_mod_two_pow, Nat.mul_mod_left, Nat.or_zero, Nat.mod_eq_of_lt hlo]

theorem lvl_lt (rgb bit : ℕ) : lvl rgb bit < 2 ^ 16 := by
  unfold lvl
  split_ifs <;> decide

/-- A data line's value for a bit is high or low all period. -/
theorem low_lvl {tick : ℕ} (h : tick < 2 ^ 15 - 1) (rgb bit : ℕ) :
    (!low (lvl rgb bit) tick) = rgb.testBit bit := by
  unfold lvl
  cases rgb.testBit bit with
  | true =>
      rw [if_pos rfl, low_pwmHigh h]
      rfl
  | false =>
      rw [if_neg Bool.false_ne_true, low_pwmLow]
      rfl

/-- What OE's share puts in the low half of its word: nothing. -/
theorem oeShare_lo (g : Driver) (plane i : ℕ) : (oeShare g plane i).toNat % 2 ^ 16 = 0 := by
  have hword : ∀ hi < 2 ^ 16, (stepWord 0 hi).toNat % 2 ^ 16 = 0 :=
    fun hi h => stepWord_lo (by decide) h
  unfold oeShare Driver.oePartial
  simp only
  split_ifs
  · exact hword _ (by decide)
  · refine hword _ ?_
    exact Nat.mod_lt _ (by decide)
  · exact hword _ (by decide)
  · exact hword _ (by decide)

/-! ### What is played -/

/-- The six bits of the frame that data step `i` of shift `seq` puts on the data lines. -/
def frameColumn (g : Driver) (frame : Frame) (seq i : ℕ) : Column := fun line =>
  (frame (seq / g.depth * g.driveLen * g.depth + seq % g.depth + i * g.depth)).toNat.testBit line

/-- Column `i` of a shift: blank in the filler, of the frame after it. -/
def column (g : Driver) (frame : Frame) (seq i : ℕ) : Column :=
  if i < g.fillLen then fun _ => false else frameColumn g frame seq (i - g.fillLen)

section Played

variable {g : Driver} (ho : OeOk g) (hr : Runs g) {p : Pair} {frame : Frame} {seq : ℕ}
  (hseq : seq < 256) (hp : Holds g p frame seq)

include hr hseq hp in
/-- The data steps of a pair that holds a rendering. -/
theorem holds_data {i : ℕ} (hi : i < g.driveLen) : p.a i = (dataStep g frame seq i).1 ∧
    p.b i = ((dataStep g frame seq i).2.1,
      (dataStep g frame seq i).2.2 ||| oeShare g (litPlane g seq) i) := by
  have h := hp i (Nat.lt_add_right _ hi)
  unfold rendering at h
  rwa [(renderRow_eq hr.depth.1 hr.depth.2 frame _ hseq i).1,
    (renderRow_eq hr.depth.1 hr.depth.2 frame _ hseq i).2, if_pos hi, if_pos hi] at h

include hr hseq hp in
/-- Its idle steps. -/
theorem holds_idle {i : ℕ} (hi : g.driveLen ≤ i) (hi' : i < g.driveLen + idleSteps) :
    p.a i = (stepWord pwmLow pwmLow, stepWord pwmLow pwmLow) ∧
      p.b i = (stepWord pwmLow pwmLow, stepWord pwmLow pwmHigh) := by
  have h := hp i hi'
  have hin : g.driveLen ≤ i ∧ i < g.driveLen + idleSteps := ⟨hi, hi'⟩
  unfold rendering idlePair at h
  rwa [(renderRow_eq hr.depth.1 hr.depth.2 frame _ hseq i).1,
    (renderRow_eq hr.depth.1 hr.depth.2 frame _ hseq i).2, if_neg (Nat.not_lt.mpr hi),
    if_neg (Nat.not_lt.mpr hi), (Pair.fill_eq _ _ _ _ _).1, (Pair.fill_eq _ _ _ _ _).2,
    if_pos hin, if_pos hin] at h

theorem pwmTop_half_lt (ho : OeOk g) : g.pwmTop / 2 < 2 ^ 16 := by
  have := ho.pwmTop.2
  omega

include ho in
/-- The data lines while step `i` of a pixel's byte plays. -/
theorem lut_levels {px tick : ℕ} (htick : tick < g.pwmTop) (w : BitVec 32)
    (hw : w.toNat % 2 ^ 16 = 0) :
    (∀ l : Fin 3, (!low (channel (lutPx g px).1 (Fin.castLE (by decide) l)) tick) =
        px.testBit l) ∧
      ∀ l : Fin 3, (!low (channel ((lutPx g px).2.1, (lutPx g px).2.2 ||| w)
        (Fin.castLE (by decide) l)) tick) = px.testBit (3 + l) := by
  have hmax := ho.pwmTop.2
  have hhalf := pwmTop_half_lt ho
  have hshort : tick < 2 ^ 15 - 1 := by omega
  have htop : ∀ b < 3, (px % 8).testBit b = px.testBit b := by
    intro b hb
    rw [show 8 = 2 ^ 3 from rfl, Nat.testBit_mod_two_pow, decide_eq_true hb, Bool.true_and]
  have hbottom : ∀ b < 3, (px / 8 % 8).testBit b = px.testBit (3 + b) := by
    intro b hb
    rw [show 8 = 2 ^ 3 from rfl, Nat.testBit_mod_two_pow, decide_eq_true hb, Bool.true_and,
      Nat.testBit_div_two_pow, Nat.add_comm]
  have hlast : ((lutPx g px).2.2 ||| w).toNat % 2 ^ 16 = lvl (px / 8 % 8) 2 := by
    rw [BitVec.toNat_or, Nat.or_mod_two_pow, hw, Nat.or_zero]
    exact stepWord_lo (lvl_lt _ _) (by decide)
  constructor
  · intro l
    fin_cases l
    · rw [← htop 0 (by decide), ← low_lvl hshort]
      exact congrArg (fun word => !low word tick) (stepWord_lo (lvl_lt _ _) (lvl_lt _ _))
    · rw [← htop 1 (by decide), ← low_lvl hshort]
      exact congrArg (fun word => !low word tick) (stepWord_hi (lvl_lt _ _) (lvl_lt _ _))
    · rw [← htop 2 (by decide), ← low_lvl hshort]
      exact congrArg (fun word => !low word tick) (stepWord_lo (lvl_lt _ _) hhalf)
  · intro l
    fin_cases l
    · rw [← hbottom 0 (by decide), ← low_lvl hshort]
      exact congrArg (fun word => !low word tick) (stepWord_lo (lvl_lt _ _) (lvl_lt _ _))
    · rw [← hbottom 1 (by decide), ← low_lvl hshort]
      exact congrArg (fun word => !low word tick) (stepWord_hi (lvl_lt _ _) (lvl_lt _ _))
    · rw [← hbottom 2 (by decide), ← low_lvl hshort]
      exact congrArg (fun word => !low word tick) hlast

include ho hr hseq hp in
/-- The data lines while a step plays: those of its column. -/
theorem played_levels {i tick : ℕ} (hi : i < g.columns) (htick : tick < g.pwmTop) :
    (∀ l : Fin 3, (!low (channel (playedStep g p i).1 (Fin.castLE (by decide) l)) tick) =
        column g frame seq i (Fin.castLE (by decide) l)) ∧
      ∀ l : Fin 3, (!low (channel (playedStep g p i).2 (Fin.castLE (by decide) l)) tick) =
        column g frame seq i (Fin.natAdd 3 l) := by
  unfold playedStep column
  by_cases hfill : i < g.fillLen
  · have hlow : (!low pwmLow tick) = false := by
      rw [low_pwmLow]
      rfl
    have hword : (stepWord pwmLow pwmLow).toNat % 2 ^ 16 = pwmLow ∧
        (stepWord pwmLow pwmLow >>> 16).toNat = pwmLow := by decide
    have hb : (stepWord pwmLow pwmHigh).toNat % 2 ^ 16 = pwmLow := by decide
    have ha : (stepWord pwmLow (g.pwmTop / 2)).toNat % 2 ^ 16 = pwmLow :=
      stepWord_lo (by decide) (pwmTop_half_lt ho)
    simp only [if_pos hfill]
    constructor
    · intro l
      fin_cases l
      · exact (congrArg (fun word => !low word tick) hword.1).trans hlow
      · exact (congrArg (fun word => !low word tick) hword.2).trans hlow
      · exact (congrArg (fun word => !low word tick) ha).trans hlow
    · intro l
      fin_cases l
      · exact (congrArg (fun word => !low word tick) hword.1).trans hlow
      · exact (congrArg (fun word => !low word tick) hword.2).trans hlow
      · exact (congrArg (fun word => !low word tick) hb).trans hlow
  · have hdata : i - g.fillLen < g.driveLen := by
      unfold Driver.columns at hi
      omega
    obtain ⟨ha, hb⟩ := holds_data hr hseq hp hdata
    simp only [if_neg hfill, ha, hb]
    exact lut_levels ho htick _ (oeShare_lo _ _ _)

theorem output_at {top stop i j : ℕ} (words : ℕ → ℕ) (gpio : Bool) (hj : j < top)
    (hstop : i * top + j < stop) :
    output top words stop gpio (i * top + j) = !low (words i) j := by
  rw [output, if_pos hstop, lowAt, MixedRadix.digits_div hj, MixedRadix.digits_mod hj]

variable {tm : Timing} (htm : tm.Ok g)

include htm in
theorem pinA_at {i j : ℕ} (ch : Fin 4) (gpio : Bool) (hi : i < g.columns) (hj : j < g.pwmTop) :
    pinA g p tm ch gpio (i * g.pwmTop + j) = !low (channel (playedStep g p i).1 ch) j :=
  output_at _ gpio hj ((MixedRadix.digits_lt hi hj).trans_le htm.dataA)

include htm in
theorem pinB_at {i j : ℕ} (ch : Fin 4) (gpio : Bool) (hi : i < g.columns) (hj : j < g.pwmTop)
    (hlag : tm.lag ≤ j) : pinB g p tm ch gpio (i * g.pwmTop + j) =
      !low (channel (playedStep g p i).2 ch) (j - tm.lag) := by
  have hle : tm.lag ≤ i * g.pwmTop + j := hlag.trans (Nat.le_add_left _ _)
  rw [pinB, if_pos hle, Nat.add_sub_assoc hlag]
  exact output_at _ gpio (by omega)
    ((MixedRadix.digits_lt hi (show j - tm.lag < g.pwmTop by omega)).trans_le htm.dataB)

include ho hr hseq hp htm in
/-- The clock's one edge a column. -/
theorem clkPin_at {i j : ℕ} (hi : i < g.columns) (hj : j < g.pwmTop) :
    clkPin g p tm (i * g.pwmTop + j) = decide (g.pwmTop / 2 ≤ j) := by
  have hhalf : g.pwmTop / 2 < 2 ^ 15 := by
    have := ho.pwmTop.2
    omega
  have hword : channel (playedStep g p i).1 3 = g.pwmTop / 2 := by
    unfold playedStep
    by_cases hfill : i < g.fillLen
    · rw [if_pos hfill]
      exact stepWord_hi (by decide) (pwmTop_half_lt ho)
    · have hdata : i - g.fillLen < g.driveLen := by
        unfold Driver.columns at hi
        omega
      rw [if_neg hfill, (holds_data hr hseq hp hdata).1]
      exact stepWord_hi (lvl_lt _ _) (pwmTop_half_lt ho)
  rw [clkPin, pinA_at htm 3 false hi hj, hword, low_of_lt hhalf, ← decide_not]
  simp only [Nat.not_lt]

include hr hseq hp htm in
/-- No edge after the last column. -/
theorem clkPin_idle {t : ℕ} (ht : g.columns * g.pwmTop ≤ t) : clkPin g p tm t = false := by
  unfold clkPin pinA output
  split_ifs with hstop
  · have hend := hstop.trans_le htm.endA
    have htop : 0 < g.pwmTop := by
      by_contra h0
      rw [Nat.eq_zero_of_not_pos h0, Nat.mul_zero] at hend
      omega
    have hlo : g.columns ≤ t / g.pwmTop := (Nat.le_div_iff_mul_le htop).mpr ht
    have hhi : t / g.pwmTop < g.columns + idleSteps := (Nat.div_lt_iff_lt_mul htop).mpr hend
    have hword : channel (playedStep g p (t / g.pwmTop)).1 3 = pwmLow := by
      unfold Driver.columns at hlo hhi
      rw [playedStep, if_neg (by omega),
        (holds_idle hr hseq hp (i := t / g.pwmTop - g.fillLen) (by omega) (by omega)).1]
      exact stepWord_hi (by decide) (by decide)
    rw [lowAt, hword, low_pwmLow]
    rfl
  · rfl

include ho hr hseq hp htm in
/-- The data lines as the clock rises. -/
theorem dataPins_at {i : ℕ} (hi : i < g.columns) :
    dataPins g p tm (i * g.pwmTop + g.pwmTop / 2) = column g frame seq i := by
  have htop := ho.pwmTop.1
  have hhalf : g.pwmTop / 2 < g.pwmTop := by omega
  have ha := (played_levels ho hr hseq hp hi hhalf).1
  have hb := (played_levels ho hr hseq hp hi
    (show g.pwmTop / 2 - tm.lag < g.pwmTop by omega)).2
  funext line
  fin_cases line
  · exact (pinA_at htm 0 _ hi hhalf).trans (ha 0)
  · exact (pinA_at htm 1 _ hi hhalf).trans (ha 1)
  · exact (pinA_at htm 2 _ hi hhalf).trans (ha 2)
  · exact (pinB_at htm 0 _ hi hhalf htm.lag).trans (hb 0)
  · exact (pinB_at htm 1 _ hi hhalf htm.lag).trans (hb 1)
  · exact (pinB_at htm 2 _ hi hhalf htm.lag).trans (hb 2)

include ho hr hseq hp htm in
/-- **What the panel samples**: a column a step, whatever the timing. -/
theorem sampled_columns : sampled (clkPin g p tm) (dataPins g p tm) tm.latch =
    (List.range g.columns).map (column g frame seq) := by
  have htop := ho.pwmTop.1
  have hend : g.columns * g.pwmTop ≤ tm.latch := htm.dataA.trans htm.latchA
  rw [sampled_quiet hend fun t ht _ => clkPin_idle hr hseq hp htm ht,
    sampled_periods (by omega) (by omega) fun i hi j hj =>
      clkPin_at ho hr hseq hp htm hi hj]
  exact List.map_congr_left fun i hi => dataPins_at ho hr hseq hp htm (List.mem_range.mp hi)

/-! ### OE -/

include ho hr hseq hp in
/-- OE in PWM_B's own ticks, until it stops: low for the ticks of the plane lit, from where the
data begins. -/
theorem oe_lowAt (hb : g.active.brightness ≤ brightnessMax) {t : ℕ}
    (ht : t < (g.columns + idleSteps) * g.pwmTop) :
    lowAt g.pwmTop (fun i => channel (playedStep g p i).2 3) t = true ↔
      g.fillLen * g.pwmTop ≤ t ∧
        t < g.fillLen * g.pwmTop + planeTicks g g.active.brightness (litPlane g seq) := by
  have hmin := ho.pwmTop.1
  have hmax := ho.pwmTop.2
  have htop : 0 < g.pwmTop := by omega
  have hk : litPlane g seq < g.depth := Nat.mod_lt _ (by have := ho.depth.1; omega)
  have hplane := OeOk.planeTicks_le (g := g) hb hk
  have htick := Nat.mod_lt t htop
  have hsplit := Nat.div_add_mod t g.pwmTop
  have hhigh : ∀ w : ℕ, w = pwmHigh → ¬ low w (t % g.pwmTop) = true := by
    rintro w rfl
    rw [low_pwmHigh (by omega)]
    exact Bool.false_ne_true
  rcases Nat.lt_or_ge (t / g.pwmTop) g.fillLen with hfill | hge
  · have hlt : t < g.fillLen * g.pwmTop := (Nat.div_lt_iff_lt_mul htop).mp hfill
    have hword : channel (playedStep g p (t / g.pwmTop)).2 3 = pwmHigh := by
      rw [playedStep, if_pos hfill]
      exact stepWord_hi (by decide) (by decide)
    exact iff_of_false (hhigh _ hword) (by omega)
  have hle : g.fillLen * g.pwmTop ≤ t := (Nat.le_div_iff_mul_le htop).mp hge
  obtain ⟨u, rfl⟩ := Nat.exists_eq_add_of_le hle
  have hdiv : (g.fillLen * g.pwmTop + u) / g.pwmTop = g.fillLen + u / g.pwmTop := by
    rw [Nat.add_comm, Nat.add_mul_div_right _ _ htop, Nat.add_comm]
  have hmod : (g.fillLen * g.pwmTop + u) % g.pwmTop = u % g.pwmTop := by
    rw [Nat.add_comm, Nat.add_mul_mod_self_right]
  have hword : channel (playedStep g p (g.fillLen + u / g.pwmTop)).2 3 =
      ((p.b (u / g.pwmTop)).2 >>> 16).toNat := by
    rw [playedStep, if_neg (Nat.not_lt.mpr (Nat.le_add_right _ _)), Nat.add_sub_cancel_left]
    rfl
  rw [lowAt, hdiv, hmod, hword]
  rw [hmod] at hhigh
  rcases Nat.lt_or_ge u (g.driveLen * g.pwmTop) with hdata | hidle
  · -- In the data steps the words are those of a rendered row.
    have hstep := holds_data hr hseq hp ((Nat.div_lt_iff_lt_mul htop).mpr hdata)
    have hrow : lowAt g.pwmTop (oeWord (renderRow (g.oeSet g.active.brightness) frame p seq)) u =
        true ↔ _ := ho.lowAt_renderRow hr hb hk hseq rfl hdata
    have heq := (renderRow_eq hr.depth.1 hr.depth.2 frame p hseq (u / g.pwmTop)).2
    rw [if_pos ((Nat.div_lt_iff_lt_mul htop).mpr hdata), ← hstep.2] at heq
    have hsame : oeWord (renderRow (g.oeSet g.active.brightness) frame p seq) (u / g.pwmTop) =
        ((p.b (u / g.pwmTop)).2 >>> 16).toNat := by
      rw [← heq]
      rfl
    rw [lowAt, hsame] at hrow
    rw [hrow]
    omega
  · have hlo : g.driveLen ≤ u / g.pwmTop := (Nat.le_div_iff_mul_le htop).mpr hidle
    have hhi : u / g.pwmTop < g.driveLen + idleSteps := by
      refine (Nat.div_lt_iff_lt_mul htop).mpr ?_
      unfold Driver.columns at ht
      rw [Nat.add_assoc, Nat.add_mul] at ht
      omega
    have hidleWord : ((p.b (u / g.pwmTop)).2 >>> 16).toNat = pwmHigh := by
      rw [(holds_idle hr hseq hp hlo hhi).2]
      exact stepWord_hi (by decide) (by decide)
    exact iff_of_false (hhigh _ hidleWord) (by omega)

/-- How many of the numbers below `n` are in an interval. -/
theorem countP_interval {a b n : ℕ} (hn : a + b ≤ n) {q : ℕ → Bool}
    (hq : ∀ t < n, q t = true ↔ a ≤ t ∧ t < a + b) : (List.range n).countP q = b := by
  obtain ⟨k, rfl⟩ := Nat.exists_eq_add_of_le hn
  rw [List.range_add, List.range_add, List.countP_append, List.countP_append,
    List.countP_eq_zero.mpr, List.countP_eq_length.mpr, List.countP_eq_zero.mpr]
  · simp
  · intro t ht
    obtain ⟨i, hi, rfl⟩ := List.mem_map.mp ht
    have := List.mem_range.mp hi
    rw [hq _ (by omega)]
    omega
  · intro t ht
    obtain ⟨i, hi, rfl⟩ := List.mem_map.mp ht
    have := List.mem_range.mp hi
    rw [hq _ (by omega)]
    omega
  · intro t ht
    have := List.mem_range.mp ht
    rw [hq _ (by omega)]
    omega

include ho hr hseq hp htm in
/-- **How long OE is low** from one latch to the next: exactly the ticks of the plane lit. -/
theorem oe_ticks (hb : g.active.brightness ≤ brightnessMax) :
    (List.range tm.latch).countP (fun t => !oePin g p tm t) =
      planeTicks g g.active.brightness (litPlane g seq) := by
  have hk : litPlane g seq < g.depth := Nat.mod_lt _ (by have := ho.depth.1; omega)
  have hplane := OeOk.planeTicks_le (g := g) hb hk
  have hcolumns : g.columns * g.pwmTop = g.fillLen * g.pwmTop + g.driveLen * g.pwmTop :=
    Nat.add_mul _ _ _
  have hdata := htm.dataB
  have hlatch := htm.latchB
  refine countP_interval (a := tm.lag + g.fillLen * g.pwmTop) (by omega) fun t _ => ?_
  unfold oePin pinB output
  split_ifs with hlag hstop
  · rw [Bool.not_not, oe_lowAt ho hr hseq hp hb (hstop.trans_le htm.endB)]
    omega
  · exact iff_of_false Bool.false_ne_true (by omega)
  · exact iff_of_false Bool.false_ne_true (by omega)

end Played

end NodemFirmware.Hub75
