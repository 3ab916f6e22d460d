import NodemFirmware.Lib.Pulse
import NodemFirmware.Hub75.Arena

/-! # The brightness

What `oe_set` makes of a brightness, and what `render_row` makes of that.

* `onTicks` and `planeTicks` are the ticks a plane is to be lit for, without any machine word.
* `oeTicks_eq`: with the bound the arena puts on `drive_len`, `oe_set` computes just these.
* `oe_exact`: no word overflows, the ticks are those of the full steps and the partial one, and in
  a rendered row OE is low for the first so many ticks of the data steps. -/

namespace NodemFirmware.Hub75

open CText Pulse

/-- `oe_set` with a brightness of its own: its tables are those of this config. -/
def Driver.oeSet (g : Driver) (brightness : ℕ) : Driver :=
  { g with active := { g.active with brightness := brightness } }

/-- The most significant plane's ticks: the brightness's share of the shift, rounded. -/
def onTicks (g : Driver) (brightness : ℕ) : ℕ :=
  (g.driveLen * g.pwmTop * brightness + brightnessMax / 2) / brightnessMax

/-- Plane `k`'s ticks: its binary share, rounded down. -/
def planeTicks (g : Driver) (brightness k : ℕ) : ℕ :=
  onTicks g brightness * 2 ^ k / 2 ^ (g.depth - 1)

/-- The word of OE in data step `i`. -/
def oeWord (p : Pair) (i : ℕ) : ℕ := ((p.b i).2 >>> 16).toNat

/-- The word of `oe_partial`. -/
def Driver.partialWord (g : Driver) (k : ℕ) : ℕ := (g.oePartial k >>> 16).toNat

/-! ### The words -/

theorem stepWord_hi {lo hi : ℕ} (hlo : lo < 2 ^ 16) (hhi : hi < 2 ^ 16) :
    (stepWord lo hi >>> 16).toNat = hi := by
  unfold stepWord
  rw [BitVec.toNat_ushiftRight, BitVec.toNat_or, BitVec.toNat_shiftLeft, BitVec.toNat_ofNat,
    BitVec.toNat_ofNat, Nat.mod_eq_of_lt (show lo < 2 ^ 32 by omega),
    Nat.mod_eq_of_lt (show hi < 2 ^ 32 by omega), Nat.shiftLeft_eq,
    Nat.mod_eq_of_lt (show hi * 2 ^ 16 < 2 ^ 32 by omega), Nat.shiftRight_or_distrib,
    Nat.shiftRight_eq_div_pow, Nat.shiftRight_eq_div_pow, Nat.div_eq_of_lt hlo,
    Nat.mul_div_cancel _ (by decide), Nat.zero_or]

theorem low_pwmLow (tick : ℕ) : low pwmLow tick = true := by
  have hbit : pwmLow.testBit 15 = true := by decide
  rw [low, if_pos hbit, show pwmLow % 2 ^ 15 = 0 from rfl]
  exact decide_eq_true (Nat.zero_le tick)

theorem low_pwmHigh {tick : ℕ} (h : tick < 2 ^ 15 - 1) : low pwmHigh tick = false := by
  have hbit : pwmHigh.testBit 15 = true := by decide
  rw [low, if_pos hbit]
  exact decide_eq_false (Nat.not_le_of_lt h)

/-! ### The bounds -/

variable {c : Config} {g : Driver} {brightness k : ℕ}

/-- The step buffers of the arena hold the data steps four times. -/
theorem driveLen_le (hg : hub75Alloc (hub75Geometry c) = some g) : g.driveLen ≤ 574 := by
  obtain ⟨d, ⟨⟨-, -, hfit⟩, -⟩, rfl⟩ := hub75AllocLoop_eq_some hg
  have hseq := le_align8 ((((hub75Geometry c).drive d).driveLen + idleSteps) * 8)
  have hlut : 2 * align8 (paintLutLen * 8) = 4096 := by decide
  unfold Driver.bufferBytes at hfit
  rw [hlut] at hfit
  unfold arenaSize at hfit
  unfold idleSteps at hfit hseq
  omega

/-- A period is an even number of ticks. -/
theorem pwmTop_bounds (hc : Accepted c) (hactive : g.active = c) :
    16 ≤ g.pwmTop ∧ g.pwmTop ≤ 160 ∧ g.pwmTop % 2 = 0 := by
  obtain ⟨hmin, hmax⟩ := hc.clock
  unfold clockMinKhz at hmin
  unfold clockMaxKhz at hmax
  have hle : pwmBaseKhz / c.clockKhz ≤ 160 := by
    unfold pwmBaseKhz
    exact (Nat.div_le_div_left hmin (by decide)).trans (by decide)
  have hge : 16 ≤ pwmBaseKhz / c.clockKhz := by
    unfold pwmBaseKhz
    exact (Nat.le_div_iff_mul_le (by omega)).mpr (by omega)
  unfold Driver.pwmTop u16
  rw [hactive]
  omega

/-- What the exact ticks need of the driver. -/
structure OeOk (g : Driver) : Prop where
  driveLen : g.driveLen ≤ 574
  pwmTop : 16 ≤ g.pwmTop ∧ g.pwmTop ≤ 160
  depth : 1 ≤ g.depth ∧ g.depth ≤ 8

theorem oeOk_of_alloc (hc : Accepted c) (hg : hub75Alloc (hub75Geometry c) = some g) : OeOk g := by
  have hactive : g.active = c := by
    obtain ⟨d, -, -, rfl⟩ := hub75Alloc_eq_some hg
    rfl
  obtain ⟨hmin, hmax, -⟩ := pwmTop_bounds hc hactive
  exact ⟨driveLen_le hg, ⟨hmin, hmax⟩, (runs_of_alloc hc hg).depth⟩

namespace OeOk

theorem rowTicks_le (h : OeOk g) : g.driveLen * g.pwmTop ≤ 574 * 160 :=
  Nat.mul_le_mul h.driveLen h.pwmTop.2

theorem product_lt (h : OeOk g) (hb : brightness ≤ brightnessMax) :
    g.driveLen * g.pwmTop * brightness + brightnessMax / 2 < 2 ^ 32 := by
  have hproduct := Nat.mul_le_mul h.rowTicks_le hb
  unfold brightnessMax at hproduct ⊢
  omega

theorem onTicks_le (hb : brightness ≤ brightnessMax) :
    onTicks g brightness ≤ g.driveLen * g.pwmTop := by
  have hproduct := Nat.mul_le_mul_left (g.driveLen * g.pwmTop) hb
  unfold onTicks
  unfold brightnessMax at hproduct ⊢
  omega

theorem shift_lt (h : OeOk g) (hb : brightness ≤ brightnessMax) (hk : k < g.depth) :
    onTicks g brightness * 2 ^ k < 2 ^ 32 := by
  have hpow : 2 ^ k ≤ 2 ^ 7 := Nat.pow_le_pow_right (by decide) (by have := h.depth; omega)
  have hle := Nat.mul_le_mul ((onTicks_le hb).trans h.rowTicks_le) hpow
  exact Nat.lt_of_le_of_lt hle (by decide)

/-- No plane is lit for longer than the most significant one. -/
theorem planeTicks_le (hb : brightness ≤ brightnessMax) (hk : k < g.depth) :
    planeTicks g brightness k ≤ g.driveLen * g.pwmTop := by
  refine le_trans ?_ (onTicks_le hb)
  unfold planeTicks
  have hpow : 2 ^ k ≤ 2 ^ (g.depth - 1) := Nat.pow_le_pow_right (by decide) (by omega)
  refine Nat.div_le_of_le_mul ?_
  rw [Nat.mul_comm]
  exact Nat.mul_le_mul_right _ hpow

/-- **`oe_set` computes the exact ticks**: none of its words overflows. -/
theorem oeTicks_eq (h : OeOk g) (hb : brightness ≤ brightnessMax) (hk : k < g.depth) :
    (g.oeSet brightness).oeTicks k = planeTicks g brightness k := by
  have hrow : g.driveLen * g.pwmTop < 2 ^ 32 := Nat.lt_of_le_of_lt h.rowTicks_le (by decide)
  have hshift := h.shift_lt hb hk
  unfold onTicks at hshift
  show u32 ((u32 (u32 (g.driveLen * g.pwmTop) * brightness + brightnessMax / 2) /
    brightnessMax) <<< k) >>> (g.depth - 1) = _
  unfold u32
  rw [Nat.mod_eq_of_lt hrow, Nat.mod_eq_of_lt (h.product_lt hb), Nat.shiftLeft_eq,
    Nat.mod_eq_of_lt hshift, Nat.shiftRight_eq_div_pow]
  rfl

/-- The quotient and the remainder fit their types. -/
theorem fullSteps_eq (h : OeOk g) (hb : brightness ≤ brightnessMax) (hk : k < g.depth) :
    planeTicks g brightness k / g.pwmTop < 2 ^ 16 ∧
      (g.oeSet brightness).oeFullSteps k = planeTicks g brightness k / g.pwmTop := by
  have hle : planeTicks g brightness k / g.pwmTop ≤ 574 * 160 / 16 :=
    Nat.div_le_div ((planeTicks_le hb hk).trans h.rowTicks_le) h.pwmTop.1 (by decide)
  have hlt : planeTicks g brightness k / g.pwmTop < 2 ^ 16 := Nat.lt_of_le_of_lt hle (by decide)
  refine ⟨hlt, ?_⟩
  show u16 ((g.oeSet brightness).oeTicks k / g.pwmTop) = _
  rw [h.oeTicks_eq hb hk, u16, Nat.mod_eq_of_lt hlt]

theorem partialWord_eq (h : OeOk g) (hb : brightness ≤ brightnessMax) (hk : k < g.depth) :
    (g.oeSet brightness).partialWord k =
      if planeTicks g brightness k % g.pwmTop ≠ 0 then planeTicks g brightness k % g.pwmTop
      else pwmHigh := by
  have hrest := Nat.mod_lt (planeTicks g brightness k)
    (show 0 < g.pwmTop by have := h.pwmTop; omega)
  have hmax := h.pwmTop.2
  have hhigh : pwmHigh < 2 ^ 16 := by decide
  show (stepWord 0 (if u16 ((g.oeSet brightness).oeTicks k % g.pwmTop) ≠ 0 then
    u16 ((g.oeSet brightness).oeTicks k % g.pwmTop) else pwmHigh) >>> 16).toNat = _
  rw [h.oeTicks_eq hb hk, u16, Nat.mod_eq_of_lt (b := 2 ^ 16) (by omega)]
  refine stepWord_hi (by decide) ?_
  split_ifs
  · omega
  · exact hhigh

/-- Whether OE is low at a tick of the partial step. -/
theorem low_partialWord (h : OeOk g) (hb : brightness ≤ brightnessMax) (hk : k < g.depth)
    {tick : ℕ} (ht : tick < g.pwmTop) :
    low ((g.oeSet brightness).partialWord k) tick = true ↔
      tick < planeTicks g brightness k % g.pwmTop := by
  have hrest := Nat.mod_lt (planeTicks g brightness k) (show 0 < g.pwmTop by omega)
  have hmax := h.pwmTop.2
  rw [h.partialWord_eq hb hk]
  split_ifs with hzero
  · rw [low_of_lt (by omega), decide_eq_true_iff]
  · rw [low_pwmHigh (by omega)]
    exact iff_of_false Bool.false_ne_true (by omega)

theorem lowTicks_partialWord (h : OeOk g) (hb : brightness ≤ brightnessMax) (hk : k < g.depth) :
    lowTicks g.pwmTop ((g.oeSet brightness).partialWord k) =
      planeTicks g brightness k % g.pwmTop := by
  have hmin := h.pwmTop.1
  have hmax := h.pwmTop.2
  have hrest := Nat.mod_lt (planeTicks g brightness k) (show 0 < g.pwmTop by omega)
  rw [h.partialWord_eq hb hk]
  split_ifs with hzero
  · exact lowTicks_of_lt (by omega) (Nat.le_of_lt hrest)
  · rw [lowTicks_of_never fun tick ht => low_pwmHigh (by omega)]
    omega

end OeOk

/-! ### The rendered row -/

namespace OeOk

/-- Which word a data step gets, from its place before, at or after the partial step. -/
theorem oeWord_eq (h : OeOk g) (hruns : Runs g) (hb : brightness ≤ brightnessMax)
    (hk : k < g.depth) {frame : Frame} {p : Pair} {seq : ℕ} (hseq : seq < 256)
    (hlit : litPlane g seq = k) {i : ℕ} (hi : i < g.driveLen) :
    oeWord (renderRow (g.oeSet brightness) frame p seq) i =
      if i < planeTicks g brightness k / g.pwmTop then pwmLow
      else if i = planeTicks g brightness k / g.pwmTop then (g.oeSet brightness).partialWord k
      else pwmHigh := by
  have hstep :=
    (renderRow_eq (g := g.oeSet brightness) hruns.depth.1 hruns.depth.2 frame p hseq i).2
  have hplane : litPlane (g.oeSet brightness) seq = k := hlit
  rw [if_pos (show i < (g.oeSet brightness).driveLen from hi), hplane] at hstep
  have hhalf : oeWord (renderRow (g.oeSet brightness) frame p seq) i =
      (oeShare (g.oeSet brightness) k i >>> 16).toNat := by
    unfold oeWord
    rw [hstep]
    exact congrArg BitVec.toNat (Runs.lut_oe_half _ _)
  rw [hhalf]
  unfold oeShare Driver.partialWord
  rw [(h.fullSteps_eq hb hk).2]
  have hlow : i < min (planeTicks g brightness k / g.pwmTop) (g.oeSet brightness).driveLen ↔
      i < planeTicks g brightness k / g.pwmTop := by
    rw [lt_min_iff]
    exact and_iff_left hi
  have hat : i = min (planeTicks g brightness k / g.pwmTop) (g.oeSet brightness).driveLen ↔
      i = planeTicks g brightness k / g.pwmTop := by
    have hlen : i < (g.oeSet brightness).driveLen := hi
    omega
  simp only [hlow, hat]
  split_ifs
  · rfl
  · rfl
  · rfl

/-- **OE in a rendered row** is low for the first ticks of the data steps, as many as the plane
gets. -/
theorem lowAt_renderRow (h : OeOk g) (hruns : Runs g) (hb : brightness ≤ brightnessMax)
    (hk : k < g.depth) {frame : Frame} {p : Pair} {seq : ℕ} (hseq : seq < 256)
    (hlit : litPlane g seq = k) {t : ℕ} (ht : t < g.driveLen * g.pwmTop) :
    lowAt g.pwmTop (oeWord (renderRow (g.oeSet brightness) frame p seq)) t = true ↔
      t < planeTicks g brightness k := by
  have hmin := h.pwmTop.1
  have hmax := h.pwmTop.2
  refine lowAt_iff (by omega) ?_ ?_ ?_ ht
  · intro i hi hfull tick _
    rw [h.oeWord_eq hruns hb hk hseq hlit hi, if_pos hfull]
    exact low_pwmLow tick
  · intro i hi hat tick htick
    rw [h.oeWord_eq hruns hb hk hseq hlit hi, if_neg (by omega), if_pos hat]
    exact h.low_partialWord hb hk htick
  · intro i hi hafter tick htick
    rw [h.oeWord_eq hruns hb hk hseq hlit hi, if_neg (by omega), if_neg (by omega)]
    exact low_pwmHigh (by omega)

end OeOk

/-! ### Brightness and planes -/

theorem planeTicks_mono {brightness' : ℕ} (h : brightness ≤ brightness') :
    planeTicks g brightness k ≤ planeTicks g brightness' k := by
  have hon : onTicks g brightness ≤ onTicks g brightness' :=
    Nat.div_le_div_right (Nat.add_le_add_right (Nat.mul_le_mul_left _ h) _)
  exact Nat.div_le_div_right (Nat.mul_le_mul_right _ hon)

/-- Rounding down twice a number loses at most one more. -/
theorem two_mul_div {d : ℕ} (hd : 0 < d) (n : ℕ) : 2 * n / d = 2 * (n / d) ∨
    2 * n / d = 2 * (n / d) + 1 := by
  have hn := Nat.div_add_mod n d
  have hr := Nat.mod_lt n hd
  have htwo : 2 * n = 2 * (n % d) + d * (2 * (n / d)) := by
    rw [Nat.mul_left_comm]
    omega
  rw [htwo, Nat.add_mul_div_left _ _ hd]
  have hlt : 2 * (n % d) / d < 2 := Nat.div_lt_of_lt_mul (by omega)
  generalize 2 * (n % d) / d = carry at hlt
  omega

theorem planeTicks_succ : planeTicks g brightness (k + 1) = 2 * planeTicks g brightness k ∨
    planeTicks g brightness (k + 1) = 2 * planeTicks g brightness k + 1 := by
  unfold planeTicks
  rw [Nat.pow_succ', Nat.mul_left_comm]
  exact two_mul_div (Nat.two_pow_pos _) _

/-- The light of plane `k`: no word of `oe_set` overflows, and what the tables and a rendered row
give is the exact share. -/
structure OeExact (g : Driver) (brightness k : ℕ) : Prop where
  rowTicks : g.driveLen * g.pwmTop < 2 ^ 32
  product : g.driveLen * g.pwmTop * brightness + brightnessMax / 2 < 2 ^ 32
  shift : onTicks g brightness * 2 ^ k < 2 ^ 32
  full : (g.oeSet brightness).oeTicks k / g.pwmTop < 2 ^ 16
  ticks : (g.oeSet brightness).oeFullSteps k * g.pwmTop +
    lowTicks g.pwmTop ((g.oeSet brightness).partialWord k) = planeTicks g brightness k
  limit : planeTicks g brightness k ≤ g.driveLen * g.pwmTop
  mono : ∀ brightness', brightness' ≤ brightness →
    planeTicks g brightness' k ≤ planeTicks g brightness k
  next : k + 1 < g.depth → planeTicks g brightness (k + 1) = 2 * planeTicks g brightness k ∨
    planeTicks g brightness (k + 1) = 2 * planeTicks g brightness k + 1
  row : ∀ (frame : Frame) (p : Pair) (seq : ℕ), seq < g.cycle → litPlane g seq = k →
    ∀ t < g.driveLen * g.pwmTop,
      (lowAt g.pwmTop (oeWord (renderRow (g.oeSet brightness) frame p seq)) t = true ↔
        t < planeTicks g brightness k)

/-- **The brightness is exact.**  For every config accepted, every brightness and every plane of
it. -/
theorem oe_exact (v : CStr) (c : Config) (hv : hub75ConfigParse v = .ok (some c)) (g : Driver)
    (hg : hub75Alloc (hub75Geometry c) = some g) (brightness : ℕ)
    (hb : brightness ≤ brightnessMax) : ∀ k < g.depth, OeExact g brightness k := by
  intro k hk
  have hc := hub75ConfigParse_accepted hv
  have hok := oeOk_of_alloc hc hg
  have hruns := runs_of_alloc hc hg
  obtain ⟨hfit, hfull⟩ := hok.fullSteps_eq hb hk
  refine
    { rowTicks := Nat.lt_of_le_of_lt hok.rowTicks_le (by decide)
      product := hok.product_lt hb
      shift := hok.shift_lt hb hk
      full := ?_
      ticks := ?_
      limit := OeOk.planeTicks_le hb hk
      mono := fun _ hle => planeTicks_mono hle
      next := fun _ => planeTicks_succ
      row := fun frame p seq hseq hlit t ht => ?_ }
  · rw [hok.oeTicks_eq hb hk]
    exact hfit
  · rw [hfull, hok.lowTicks_partialWord hb hk, Nat.mul_comm]
    exact Nat.div_add_mod _ _
  · have hcycle := hruns.cycle_bounds
    exact hok.lowAt_renderRow hruns hb hk (by omega) hlit ht

theorem oe_exact_default :
    OeExact ((hub75Geometry hub75Default).drive 1) (brightnessMax / 2) (depthDefault - 1) :=
  oe_exact hub75DefaultText hub75Default rfl ((hub75Geometry hub75Default).drive 1) rfl
    (brightnessMax / 2) (by decide) (depthDefault - 1) (by decide)

end NodemFirmware.Hub75
