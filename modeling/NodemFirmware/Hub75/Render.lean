import NodemFirmware.Hub75.Geometry

/-! # Rendering one shift

The step words the PWM instances play: `lutPx` of a frame byte, the OE share of each bit
plane, and `render_row`, which fills a pair of step buffers with one shift of the cycle.

`renderSpan_eq` is the loop in closed form and `renderRow_eq` the whole row: every data step
is written, with the OE of the plane of the shift before, and the idle steps are kept.  What
a pair holds after rendering therefore depends on the frame and the shift alone. -/

namespace NodemFirmware.Hub75

def pwmBaseKhz : ℕ := 16000

/-- `PWM_LOW` and `PWM_HIGH`: low or high all period. -/
def pwmLow : ℕ := 0x8000
def pwmHigh : ℕ := 0xFFFF

def u32 (n : ℕ) : ℕ := n % 2 ^ 32

/-- `STEP_WORD`. -/
def stepWord (lo hi : ℕ) : BitVec 32 := BitVec.ofNat 32 lo ||| BitVec.ofNat 32 hi <<< 16

/-- `step_t`: the two words of a step. -/
abbrev Step := BitVec 32 × BitVec 32

/-- A pair of step buffers, `seq_a[buf]` and `seq_b[buf]`. -/
structure Pair where
  a : ℕ → Step
  b : ℕ → Step

/-- Stores step `i` of both buffers. -/
def Pair.store (p : Pair) (i : ℕ) (s : Step × Step) : Pair where
  a := Function.update p.a i s.1
  b := Function.update p.b i s.2

/-- A loop storing steps `lo .. hi - 1`. -/
def Pair.fill (p : Pair) (lo hi : ℕ) (f : ℕ → Step × Step) : Pair :=
  (List.range' lo (hi - lo)).foldl (fun p i => p.store i (f i)) p

/-- The same steps up to `n`. -/
def Pair.Same (n : ℕ) (p q : Pair) : Prop := ∀ i < n, p.a i = q.a i ∧ p.b i = q.b i

/-! ### The tables of the running config -/

/-- `pwm_top`: even, so CLK can rise exactly halfway through. -/
def Driver.pwmTop (g : Driver) : ℕ := u16 (pwmBaseKhz / g.active.clockKhz / 2 * 2)

/-- `ticks` of `oe_set`: how long bit plane `k` is lit. -/
def Driver.oeTicks (g : Driver) (k : ℕ) : ℕ :=
  let rowTicks := u32 (g.driveLen * g.pwmTop)
  let onTicks := u32 (rowTicks * g.active.brightness + brightnessMax / 2) / brightnessMax
  u32 (onTicks <<< k) >>> (g.depth - 1)

/-- `oe_full_steps`. -/
def Driver.oeFullSteps (g : Driver) (k : ℕ) : ℕ := u16 (g.oeTicks k / g.pwmTop)

/-- `oe_partial`. -/
def Driver.oePartial (g : Driver) (k : ℕ) : BitVec 32 :=
  let rest := u16 (g.oeTicks k % g.pwmTop)
  stepWord 0 (if rest ≠ 0 then rest else pwmHigh)

/-- `LVL`. -/
def lvl (rgb bit : ℕ) : ℕ := if rgb.testBit bit then pwmHigh else pwmLow

/-- `lut_px`: the step of a frame byte in both buffers, OE's half empty. -/
def lutPx (g : Driver) (px : ℕ) : Step × Step :=
  let t := px % 8
  let u := px / 8 % 8
  ((stepWord (lvl t 0) (lvl t 1), stepWord (lvl t 2) (g.pwmTop / 2)),
    (stepWord (lvl u 0) (lvl u 1), stepWord (lvl u 2) 0))

/-- The idle steps `hub75_start` puts after the data. -/
def idlePair (g : Driver) (p : Pair) : Pair :=
  p.fill g.driveLen (g.driveLen + idleSteps) fun _ =>
    ((stepWord pwmLow pwmLow, stepWord pwmLow pwmLow),
      (stepWord pwmLow pwmLow, stepWord pwmLow pwmHigh))

/-! ### Rendering -/

/-- `render_span`: steps `lo .. hi - 1`, all with OE `oe`; `src` is the frame from the first
byte of the plane on. -/
def renderSpan (g : Driver) (p : Pair) (src : ℕ → UInt8) (stride lo hi : ℕ) (oe : BitVec 32) :
    Pair :=
  p.fill lo hi fun i =>
    let l := lutPx g (src (i * stride)).toNat
    (l.1, (l.2.1, l.2.2 ||| oe))

/-- `render_row`: shift `seq` of the cycle into the pair `p`. -/
def renderRow (g : Driver) (frame : Frame) (p : Pair) (seq : ℕ) : Pair :=
  let n := g.driveLen
  let row := u8 (seq / g.depth)
  let plane := u8 (seq % g.depth)
  let litPlane := u8 ((plane + g.depth - 1) % g.depth)
  let lit := min (g.oeFullSteps litPlane) n
  let src := fun i => frame (row * n * g.depth + plane + i)
  let p := renderSpan g p src g.depth 0 lit (stepWord 0 pwmLow)
  if lit < n then
    let p := renderSpan g p src g.depth lit (lit + 1) (g.oePartial litPlane)
    renderSpan g p src g.depth (lit + 1) n (stepWord 0 pwmHigh)
  else p

/-- The OE word of data step `i` while the shift lit is one of `plane`. -/
def oeShare (g : Driver) (plane i : ℕ) : BitVec 32 :=
  let lit := min (g.oeFullSteps plane) g.driveLen
  if i < lit then stepWord 0 pwmLow
  else if i = lit then g.oePartial plane
  else stepWord 0 pwmHigh

/-- The plane of the shift before `seq`, latched while `seq` goes out. -/
def litPlane (g : Driver) (seq : ℕ) : ℕ := (seq % g.depth + g.depth - 1) % g.depth

/-- The lookup of data step `i` of shift `seq`. -/
def dataStep (g : Driver) (frame : Frame) (seq i : ℕ) : Step × Step :=
  lutPx g (frame (seq / g.depth * g.driveLen * g.depth + seq % g.depth + i * g.depth)).toNat

theorem Pair.fill_eq (p : Pair) (lo hi : ℕ) (f : ℕ → Step × Step) (i : ℕ) :
    (p.fill lo hi f).a i = (if lo ≤ i ∧ i < hi then (f i).1 else p.a i) ∧
      (p.fill lo hi f).b i = (if lo ≤ i ∧ i < hi then (f i).2 else p.b i) := by
  unfold Pair.fill
  generalize hn : hi - lo = n
  induction n generalizing lo p with
  | zero =>
      have hout : ¬ (lo ≤ i ∧ i < hi) := by omega
      simp [hout]
  | succ n ih =>
      rw [List.range'_succ, List.foldl_cons, (ih _ (lo + 1) (by omega)).1,
        (ih _ (lo + 1) (by omega)).2]
      unfold Pair.store
      by_cases hi1 : i = lo
      · subst hi1
        have h1 : ¬ (i + 1 ≤ i ∧ i < hi) := by omega
        have h2 : i ≤ i ∧ i < hi := by omega
        simp [h2]
      · have h1 : (lo + 1 ≤ i ∧ i < hi) ↔ (lo ≤ i ∧ i < hi) := by omega
        simp only [h1, Function.update_of_ne hi1, and_self]

theorem Pair.Same.refl (n : ℕ) (p : Pair) : p.Same n p := fun _ _ => ⟨rfl, rfl⟩

/-- Three spans one after the other, the middle one a single step. -/
theorem Pair.fill_spans (p : Pair) {lit n : ℕ} (hl : lit < n) (f g h : ℕ → Step × Step) (i : ℕ) :
    (((p.fill 0 lit f).fill lit (lit + 1) g).fill (lit + 1) n h).a i =
        (if i < n then (if i < lit then f i else if i = lit then g i else h i).1 else p.a i) ∧
      (((p.fill 0 lit f).fill lit (lit + 1) g).fill (lit + 1) n h).b i =
        if i < n then (if i < lit then f i else if i = lit then g i else h i).2 else p.b i := by
  simp only [(Pair.fill_eq _ _ _ _ _).1, (Pair.fill_eq _ _ _ _ _).2]
  constructor <;> split_ifs <;> first | rfl | omega

/-- **A rendered row**: the data steps come from the frame, with the OE of the plane of the
shift before; the steps after them are kept. -/
theorem renderRow_eq {g : Driver} (hd : 1 ≤ g.depth) (hd8 : g.depth ≤ 8) (frame : Frame) (p : Pair)
    {seq : ℕ} (hseq : seq < 256) (i : ℕ) :
    (renderRow g frame p seq).a i =
        (if i < g.driveLen then (dataStep g frame seq i).1 else p.a i) ∧
      (renderRow g frame p seq).b i =
        if i < g.driveLen then ((dataStep g frame seq i).2.1,
          (dataStep g frame seq i).2.2 ||| oeShare g (litPlane g seq) i) else p.b i := by
  have hrow : u8 (seq / g.depth) = seq / g.depth :=
    u8_of_le ((Nat.div_le_self _ _).trans (by omega))
  have hmod := Nat.mod_lt seq (show 0 < g.depth by omega)
  have hplane : u8 (seq % g.depth) = seq % g.depth := u8_of_le (by omega)
  have hlp := Nat.mod_lt (seq % g.depth + g.depth - 1) (show 0 < g.depth by omega)
  have hlit : u8 ((seq % g.depth + g.depth - 1) % g.depth) = litPlane g seq := u8_of_le (by omega)
  unfold renderRow
  simp only [hrow, hplane, hlit]
  unfold renderSpan dataStep oeShare
  have hle : min (g.oeFullSteps (litPlane g seq)) g.driveLen ≤ g.driveLen := min_le_right ..
  generalize min (g.oeFullSteps (litPlane g seq)) g.driveLen = lit at hle
  by_cases hl : lit < g.driveLen
  · rw [if_pos hl, (Pair.fill_spans p hl _ _ _ i).1, (Pair.fill_spans p hl _ _ _ i).2]
    generalize lutPx g _ = l
    by_cases hlt : i < lit
    · simp only [hlt, if_true, and_self]
    · by_cases heq : i = lit
      · simp only [heq, lt_irrefl, if_true, if_false, and_self]
      · simp only [hlt, heq, if_false, and_self]
  · have hi : (0 ≤ i ∧ i < lit) ↔ i < g.driveLen := by omega
    rw [if_neg hl, (Pair.fill_eq _ _ _ _ _).1, (Pair.fill_eq _ _ _ _ _).2]
    simp only [hi, true_and]
    by_cases hlt : i < g.driveLen
    · have hlit : i < lit := by omega
      simp only [hlt, hlit, if_true]
    · simp only [hlt, if_false]

end NodemFirmware.Hub75
