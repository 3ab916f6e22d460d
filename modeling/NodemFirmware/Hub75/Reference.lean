import NodemFirmware.Hub75.Paint

/-! # The colour of a pixel by itself

`paint_of` fills a table that is shared by all the pixels of a draw, over what the last draw
left in it.

* `referenceAt` is the colour of a pixel from a table of its own.
* `effectAt_eq` says which entry a pixel looks up, `paintOf_fills` what is in it:
  `paintOf_reference` puts them together, for any table.
* `Small` holds of every colour: three bits in every plane's byte. -/

namespace NodemFirmware.Hub75

open Checked MixedRadix

/-- The colour of pixel `(x, y)`: `paint_of`, `paint_row` and `paint_at` over a blank table. -/
def referenceAt (g : Driver) (c : Color) (fxFrame x y : ℕ) : Option (BitVec 64) := do
  let (p, lut) ← paintOf g c fxFrame ⟨paintLutLen, fun _ => 0⟩
  paintAt g (paintRow g p y) lut x

/-- Byte `k` of a colour as `spread` makes it: the bits of plane `k`. -/
def planeByte (planes : BitVec 64) (k : ℕ) : ℕ := (planes >>> (8 * k)).toNat % 256

/-! ### Three bits a plane -/

/-- No byte has more than the bits of the three channels. -/
def Small (planes : BitVec 64) : Prop := ∀ i, planes.getLsbD i = true → i % 8 < 3

theorem small_zero : Small 0 := by
  intro i hi
  simp at hi

theorem small_or {a b : BitVec 64} (ha : Small a) (hb : Small b) : Small (a ||| b) := by
  intro i hi
  rw [BitVec.getLsbD_or, Bool.or_eq_true] at hi
  exact hi.elim (ha i) (hb i)

theorem small_byte {bits : ℕ} (h : bits < 8) (k : ℕ) :
    Small (BitVec.ofNat 64 bits <<< (8 * k)) := by
  intro i hi
  rw [BitVec.getLsbD_shiftLeft, BitVec.getLsbD_ofNat] at hi
  simp only [Bool.and_eq_true, decide_eq_true_eq, Bool.not_eq_true', decide_eq_false_iff_not] at hi
  obtain ⟨⟨-, hge⟩, -, hbit⟩ := hi
  have hlt : i - 8 * k < 3 := by
    by_contra hle
    have hzero := Nat.testBit_lt_two_pow (x := bits) (i := i - 8 * k)
      (h.trans_le (Nat.pow_le_pow_right (show 0 < 2 by decide) (Nat.le_of_not_lt hle)))
    rw [hzero] at hbit
    cases hbit
  omega

theorem channelBits_lt (a b c : ℕ) : (a % 2 ||| (b % 2) <<< 1 ||| (c % 2) <<< 2) < 8 := by
  rcases Nat.mod_two_eq_zero_or_one a with ha | ha <;>
    rcases Nat.mod_two_eq_zero_or_one b with hb | hb <;>
      rcases Nat.mod_two_eq_zero_or_one c with hc | hc <;> rw [ha, hb, hc] <;> decide

theorem spread_small (g : Driver) (rgb : ℕ) : Small (spread g rgb) := by
  have hfold : ∀ (ks : List ℕ) (bits : ℕ → ℕ) (planes : BitVec 64), (∀ k, bits k < 8) →
      Small planes →
      Small (ks.foldl
        (fun planes k => planes ||| BitVec.ofNat 64 (bits k) <<< (8 * k)) planes) := by
    intro ks bits planes hbits hplanes
    induction ks generalizing planes with
    | nil => exact hplanes
    | cons k ks ih => exact ih _ (small_or hplanes (small_byte (hbits k) k))
  exact hfold _ _ _ (fun _ => channelBits_lt _ _ _) small_zero

/-- The bits `frame_row_set` takes of a byte are all that is in it. -/
theorem planeByte_small {planes : BitVec 64} (h : Small planes) (k : ℕ) :
    (planes >>> (8 * k)).toNat % 8 = planeByte planes k := by
  have hlt : planeByte planes k < 2 ^ 3 := by
    refine Nat.lt_pow_two_of_testBit _ fun i hi => ?_
    rw [planeByte, show 256 = 2 ^ 8 from rfl, Nat.testBit_mod_two_pow]
    by_contra hne
    obtain ⟨hlt, hbit⟩ : i < 8 ∧ (planes >>> (8 * k)).toNat.testBit i = true := by
      simpa using hne
    have hsmall := h (8 * k + i) (by rw [← BitVec.getLsbD_ushiftRight]; exact hbit)
    omega
  rw [← Nat.mod_eq_of_lt (show planeByte planes k < 8 from hlt), planeByte,
    Nat.mod_mod_of_dvd _ (by decide)]

/-! ### Tables -/

/-- The entries of the table that the effect uses. -/
def Paint.tableLen (p : Paint) : ℕ :=
  match p.effect with
  | .none => 0
  | .cycle => 0
  | .fade => 0
  | .sparkle => p.n * sparkleSteps
  | _ => paintLutLen

/-- What `paint_of` puts into the table. -/
def Paint.table (g : Driver) (p : Paint) (i : ℕ) : BitVec 64 :=
  match p.effect with
  | .sparkle =>
      let c0 := p.pal.getD (i / sparkleSteps) 0
      spread g (blend c0 c0 0 (sparkleLevel (i % sparkleSteps)))
  | .fire => spread g ((p.pickRamp i).getD 0)
  | _ => spread g ((p.pick i).getD 0)

theorem Paint.table_small (g : Driver) (p : Paint) (i : ℕ) : Small (p.table g i) := by
  unfold Paint.table
  split <;> exact spread_small _ _

variable {g : Driver} {c : Color} {p : Paint}

/-- **What a pixel looks up:** nothing, or one entry that the effect uses. -/
theorem effectAt_eq (hpos : 0 < p.n) (hmax : p.n ≤ paletteMax) (x : ℕ) :
    (∀ lut, effectAt g p lut x = some p.uniform) ∨
      ∃ i < p.tableLen, ∀ lut : Buffer (BitVec 64), paintLutLen ≤ lut.size →
        effectAt g p lut x = some (lut.data i) := by
  have hload : ∀ {i : ℕ} {lut : Buffer (BitVec 64)}, i < paintLutLen → paintLutLen ≤ lut.size →
      lut.load i = some (lut.data i) := fun hi hlut => Buffer.load_nat (hi.trans_le hlut)
  unfold effectAt Paint.tableLen
  cases p.effect with
  | none => exact .inl fun _ => rfl
  | cycle => exact .inl fun _ => rfl
  | fade => exact .inl fun _ => rfl
  | plasma => exact .inr ⟨_, u8z_lt _, fun _ hlut => hload (u8z_lt _) hlut⟩
  | stripes => exact .inr ⟨_, u8z_lt _, fun _ hlut => hload (u8z_lt _) hlut⟩
  | wave => exact .inr ⟨_, u8z_lt _, fun _ hlut => hload (u8z_lt _) hlut⟩
  | scroll => exact .inr ⟨_, u8z_lt _, fun _ hlut => hload (u8z_lt _) hlut⟩
  | gradient => exact .inr ⟨_, u8z_lt _, fun _ hlut => hload (u8z_lt _) hlut⟩
  | ripple => exact .inr ⟨_, u8z_lt _, fun _ hlut => hload (u8z_lt _) hlut⟩
  | fire =>
      simp only
      generalize Int.tdiv _ _ + _ + _ = heat
      have hnat : max 0 (min heat 255) = ((max 0 (min heat 255)).toNat : ℤ) := by omega
      have hlt : (max 0 (min heat 255)).toNat < 256 := by omega
      refine .inr ⟨_, hlt, fun lut hlut => ?_⟩
      rw [hnat]
      exact hload hlt hlut
  | sparkle =>
      simp only
      generalize (hash3 _ _ _).toNat >>> 8 = r
      generalize u32 _ = start
      have hi : (r % 256 * p.n) >>> 8 < p.n := scaled_lt (Nat.mod_lt _ (by decide)) hpos
      have hs : start % sparkleSteps < sparkleSteps := Nat.mod_lt _ (by decide)
      have hin : (r % 256 * p.n) >>> 8 * sparkleSteps + start % sparkleSteps <
          p.n * sparkleSteps := by
        unfold sparkleSteps at hs ⊢
        omega
      have hlen : p.n * sparkleSteps ≤ paintLutLen := by
        unfold paletteMax at hmax
        unfold sparkleSteps paintLutLen
        omega
      exact .inr ⟨_, hin, fun lut hlut => hload (hin.trans_le hlen) hlut⟩

/-- What `paint_at` gives: the colour of all the pixels, or the entry of one. -/
theorem paintAt_eq (hpos : 0 < p.n) (hmax : p.n ≤ paletteMax) (x : ℕ) :
    (∀ lut, paintAt g p lut x = some p.uniform) ∨
      ∃ i < p.tableLen, ∀ lut : Buffer (BitVec 64), paintLutLen ≤ lut.size →
        paintAt g p lut x = some (lut.data i) := by
  unfold paintAt
  split_ifs
  · exact .inl fun _ => rfl
  · exact effectAt_eq hpos hmax x

/-- The `struct paint` of a colour before the switch of `paint_of`. -/
def paintHead (c : Color) (fxFrame : ℕ) : Paint where
  effect := c.effect
  uniform := 0
  t := u32 (fxFrame * c.speed)
  pal := effectPalette c
  zoom := if c.scale ≠ 0 then u16 ((scaleDefault <<< 8) / c.scale) else 256
  sy := 0
  row := 0

/-- What `paint_of` returns. -/
def paintBase (g : Driver) (c : Color) (fxFrame : ℕ) : Paint :=
  let p := paintHead c fxFrame
  let ph := u8 p.t
  match c.effect with
  | .none => { p with uniform := spread g (colorRgb24 c.rgb) }
  | .cycle => { p with uniform := spread g ((p.pick ph).getD 0) }
  | .fade =>
      let pos := ph * p.n
      let c0 := p.pal.getD (u8 (pos >>> 8)) 0
      let env := sin8 ((pos % 256) >>> 1)
      { p with uniform := spread g (blend c0 c0 0 (u8z ((env * 128).tdiv 127))) }
  | _ => p

theorem paintBase_small (g : Driver) (c : Color) (fxFrame : ℕ) :
    Small (paintBase g c fxFrame).uniform := by
  unfold paintBase
  simp only
  split
  · exact spread_small _ _
  · exact spread_small _ _
  · exact spread_small _ _
  · exact small_zero

theorem paintBase_frame (g : Driver) (c : Color) (fxFrame : ℕ) :
    (paintBase g c fxFrame).effect = c.effect ∧ (paintBase g c fxFrame).pal = effectPalette c := by
  unfold paintBase
  simp only
  split <;> exact ⟨rfl, rfl⟩

/-- The table of an effect along the palette. -/
theorem fill_table {rgb : ℕ → Option ℕ} {lut : Buffer (BitVec 64)}
    (hrgb : ∀ v < 256, Returns (rgb v) fun _ => True) (hlut : paintLutLen ≤ lut.size) :
    Returns (each 256 (fun v lut => do
      let rgb ← rgb v
      lut.store v (spread g rgb)) lut) fun lut' => lut'.size = lut.size ∧
        ∀ i < paintLutLen, lut'.data i = spread g ((rgb i).getD 0) := by
  refine (each_fills (o := 0) (v := fun v => spread g ((rgb v).getD 0))
    (by rw [Nat.zero_add]; exact hlut) ?_).mono ?_
  · intro v hv lut'
    obtain ⟨c0, hc0, -⟩ := hrgb v hv
    rw [hc0, Nat.zero_add]
    rfl
  · rintro lut' ⟨hsize, hat, -⟩
    refine ⟨hsize, fun i hi => ?_⟩
    rw [← hat i hi, Nat.zero_add]

/-- The table of "sparkle". -/
theorem fill_sparkle {pal : List ℕ} {lut : Buffer (BitVec 64)} (hmax : pal.length ≤ paletteMax)
    (hlut : paintLutLen ≤ lut.size) :
    Returns (each pal.length (fun i lut => each sparkleSteps (fun step lut => do
      let c0 ← pal[i]?
      lut.store (i * sparkleSteps + step : ℕ)
        (spread g (blend c0 c0 0 (sparkleLevel step)))) lut) lut) fun lut' =>
        lut'.size = lut.size ∧ ∀ i < pal.length * sparkleSteps, lut'.data i =
          spread g (blend (pal.getD (i / sparkleSteps) 0) (pal.getD (i / sparkleSteps) 0) 0
            (sparkleLevel (i % sparkleSteps))) := by
  have hroom : pal.length * sparkleSteps ≤ lut.size := by
    refine le_trans ?_ hlut
    unfold paletteMax at hmax
    unfold sparkleSteps paintLutLen
    omega
  refine Returns.each (fun j (lut' : Buffer (BitVec 64)) => lut'.size = lut.size ∧
    ∀ i < j * sparkleSteps, lut'.data i = spread g (blend (pal.getD (i / sparkleSteps) 0)
      (pal.getD (i / sparkleSteps) 0) 0 (sparkleLevel (i % sparkleSteps))))
    ⟨rfl, fun i hi => absurd hi (by omega)⟩ ?_
  rintro j hj lut' ⟨hsize, hfilled⟩
  have hnext : j * sparkleSteps + sparkleSteps ≤ pal.length * sparkleSteps := by
    rw [← Nat.succ_mul]
    exact Nat.mul_le_mul_right _ hj
  refine (each_fills (o := j * sparkleSteps)
    (v := fun step => spread g (blend (pal.getD j 0) (pal.getD j 0) 0 (sparkleLevel step)))
    (by omega) ?_).mono ?_
  · intro step hstep lut''
    rw [List.getD_eq_getElem?_getD, List.getElem?_eq_getElem hj]
    rfl
  · rintro lut'' ⟨hsize', hat, hother⟩
    refine ⟨hsize'.trans hsize, fun i hi => ?_⟩
    by_cases hlt : i < j * sparkleSteps
    · rw [hother i (.inl hlt)]
      exact hfilled i hlt
    · rw [Nat.succ_mul] at hi
      obtain ⟨step, rfl⟩ := Nat.exists_eq_add_of_le (Nat.le_of_not_lt hlt)
      have hstep : step < sparkleSteps := by omega
      rw [hat step hstep, digits_div hstep, digits_mod hstep]

/-- **`paint_of` fills its table**, and leaves nothing of what was there where the effect uses
it. -/
theorem paintOf_fills (hc : ColorOk c) (fxFrame : ℕ) {lut : Buffer (BitVec 64)}
    (hlut : paintLutLen ≤ lut.size) :
    Returns (paintOf g c fxFrame lut) fun r => r.1 = paintBase g c fxFrame ∧
      r.2.size = lut.size ∧
      ∀ i < (paintBase g c fxFrame).tableLen,
        r.2.data i = (paintBase g c fxFrame).table g i := by
  obtain ⟨hpos, hmax⟩ := effectPalette_length hc
  have hpick : ∀ v < 256, Returns ((paintHead c fxFrame).pick v) fun _ => True :=
    fun v hv => pick_returns (p := paintHead c fxFrame) hpos hv
  have hramp : ∀ v < 256, Returns ((paintHead c fxFrame).pickRamp v) fun _ => True :=
    fun v hv => pickRamp_returns (p := paintHead c fxFrame) hpos hv
  have hlookup := fill_table (g := g) hpick hlut
  have hfire := fill_table (g := g) hramp hlut
  have hsparkle := fill_sparkle (g := g) hmax hlut
  have hfade : u8 ((u8 (u32 (fxFrame * c.speed)) * (effectPalette c).length) >>> 8) <
      (effectPalette c).length :=
    (Nat.mod_le _ _).trans_lt (scaled_lt (u8_lt _) hpos)
  obtain ⟨c0, hc0, -⟩ := getElem?_returns hfade
  have hget : c0 = (effectPalette c).getD
      (u8 ((u8 (u32 (fxFrame * c.speed)) * (effectPalette c).length) >>> 8)) 0 := by
    rw [List.getD_eq_getElem?_getD, hc0]
    rfl
  obtain ⟨rgb, hrgb, -⟩ := hpick (u8 (paintHead c fxFrame).t) (u8_lt _)
  obtain ⟨effect, speed, palette, scale, rgb24⟩ := c
  cases effect with
  | none => exact .some ⟨rfl, rfl, fun i hi => absurd hi (Nat.not_lt_zero i)⟩
  | cycle =>
      refine ⟨_, congrArg (· >>= _) hrgb, ?_, rfl, fun i hi => absurd hi (Nat.not_lt_zero i)⟩
      simp only [paintBase, hrgb]
      rfl
  | fade =>
      subst hget
      exact ⟨_, congrArg (· >>= _) hc0, rfl, rfl, fun i hi => absurd hi (Nat.not_lt_zero i)⟩
  | sparkle => exact hsparkle.bind fun lut' h => .some ⟨rfl, h⟩
  | fire => exact hfire.bind fun lut' h => .some ⟨rfl, h⟩
  | plasma => exact hlookup.bind fun lut' h => .some ⟨rfl, h⟩
  | stripes => exact hlookup.bind fun lut' h => .some ⟨rfl, h⟩
  | wave => exact hlookup.bind fun lut' h => .some ⟨rfl, h⟩
  | scroll => exact hlookup.bind fun lut' h => .some ⟨rfl, h⟩
  | ripple => exact hlookup.bind fun lut' h => .some ⟨rfl, h⟩
  | gradient => exact hlookup.bind fun lut' h => .some ⟨rfl, h⟩

/-- **The colours of a draw are the reference's**, whatever its table held before. -/
theorem paintOf_reference (hc : ColorOk c) (fxFrame : ℕ) {lut : Buffer (BitVec 64)}
    (hlut : paintLutLen ≤ lut.size) :
    Returns (paintOf g c fxFrame lut) fun r => r.1.n ≤ paletteMax ∧ r.2.size = lut.size ∧
      ∀ x y, ∃ planes, Small planes ∧ referenceAt g c fxFrame x y = some planes ∧
        paintAt g (paintRow g r.1 y) r.2 x = some planes := by
  obtain ⟨hpos, hmax⟩ := effectPalette_length hc
  rw [← (paintBase_frame g c fxFrame).2] at hpos hmax
  have hblank : paintLutLen ≤ (⟨paintLutLen, fun _ => 0⟩ : Buffer (BitVec 64)).size := le_refl _
  obtain ⟨⟨_, lut₀⟩, hpaint₀, rfl, hsize₀, hfill₀⟩ := paintOf_fills (g := g) hc fxFrame hblank
  refine (paintOf_fills hc fxFrame hlut).mono ?_
  rintro ⟨_, lut'⟩ ⟨rfl, hsize, hfill⟩
  refine ⟨hmax, hsize, fun x y => ?_⟩
  have href : referenceAt g c fxFrame x y =
      paintAt g (paintRow g (paintBase g c fxFrame) y) lut₀ x := by
    unfold referenceAt
    rw [hpaint₀]
    rfl
  rw [href]
  rcases paintAt_eq (p := paintRow g (paintBase g c fxFrame) y) hpos hmax x with
      huniform | ⟨i, hi, hentry⟩
  · exact ⟨_, paintBase_small g c fxFrame, huniform lut₀, huniform lut'⟩
  · refine ⟨(paintBase g c fxFrame).table g i, Paint.table_small g _ i, ?_, ?_⟩
    · rw [hentry lut₀ (by rw [hsize₀]), hfill₀ i hi]
    · rw [hentry lut' (by rw [hsize]; exact hlut), hfill i hi]

end NodemFirmware.Hub75
