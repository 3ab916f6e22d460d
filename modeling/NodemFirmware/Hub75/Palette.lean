import NodemFirmware.Hub75.Grey

/-! # What a palette can light

Every effect paints with blends of the colours of its palette, which have each of red, green and
blue full or not at all.

* `PaintedIn` is a colour that a configured colour paints some pixel in some frame:
  `referenceAt_painted` says that it paints no other.
* `Config.Keeps` is a channel that all of a config's colours leave out, or all have in full.
* `palette_light`: while a run draws in these colours, in any frames of the effects and in any
  order, an LED of a channel that is left out never lights, and one of a channel that all have
  is lit in full from when its pixel has been drawn. -/

namespace NodemFirmware.Hub75

open CText Transition Checked MixedRadix BitWeights

/-! ### Blends -/

/-- The value of a channel that is full, or off. -/
def fullOrOff (b : Bool) : ℕ := if b then 255 else 0

/-- A colour that `c` paints a pixel, before `spread`: its own, or between two of its palette. -/
def PaintedIn (c : Color) (rgb : ℕ) : Prop :=
  if c.effect = .none then rgb = colorRgb24 c.rgb
  else ∃ c0 ∈ effectPalette c, ∃ c1 ∈ effectPalette c, ∃ f < 256, ∃ level ≤ 128,
    rgb = blend c0 c1 f level ∧ (c.effect ≠ .fade → c.effect ≠ .sparkle → level = 128)

/-- Channel `ch` of what `c` paints is full for `b`, and off otherwise. -/
def Color.Keeps (c : Color) (ch : ℕ) (b : Bool) : Prop :=
  if c.effect = .none then c.rgb >>> (8 * (2 - ch)) % 256 = fullOrOff b
  else (∀ stop ∈ effectPalette c, stop.testBit ch = b) ∧
    (b = true → c.effect ≠ .fade ∧ c.effect ≠ .sparkle)

instance (c : Color) (ch : ℕ) (b : Bool) : Decidable (c.Keeps ch b) :=
  inferInstanceAs (Decidable (ite (c.effect = .none) _ (_ ∧ _)))

theorem gamma8_fullOrOff (b : Bool) : gamma8 (fullOrOff b) = fullOrOff b := by
  cases b <;> decide

theorem gamma8_lt (v : ℕ) : gamma8 v < 256 := u8_lt _

/-- The channels of an `RGB24` colour. -/
theorem channelOf_rgb24 {r g b : ℕ} (hr : r < 256) (hg : g < 256) (hb : b < 256) {ch : ℕ}
    (hch : ch < 3) :
    channelOf (rgb24 r g b) ch = if ch = 0 then r else if ch = 1 then g else b := by
  have hhigh : ∀ {v : ℕ}, v < 256 → ∀ {i : ℕ}, 8 ≤ i → v.testBit i = false := fun hv _ hi =>
    Nat.testBit_lt_two_pow (hv.trans_le (Nat.pow_le_pow_right (show 0 < 2 by decide) hi))
  refine Nat.eq_of_testBit_eq fun i => ?_
  unfold channelOf rgb24
  rw [show 256 = 2 ^ 8 from rfl, Nat.testBit_mod_two_pow, Nat.testBit_shiftRight,
    Nat.testBit_or, Nat.testBit_or, Nat.testBit_shiftLeft, Nat.testBit_shiftLeft]
  by_cases hi : i < 8
  · interval_cases ch
    · simp [hi, show ¬ 16 ≤ i by omega, Nat.not_le.mpr hi]
    · simp [hi, hhigh hr (show 8 ≤ 8 + i by omega), show ¬ 16 ≤ 8 + i by omega]
    · simp [hi, hhigh hr (show 8 ≤ 16 + i by omega), hhigh hg (show 8 ≤ 16 + i - 8 by omega)]
  · have hge : 8 ≤ i := Nat.le_of_not_lt hi
    simp only [hi, decide_false, Bool.false_and]
    interval_cases ch
    · exact (hhigh hr hge).symm
    · exact (hhigh hg hge).symm
    · exact (hhigh hb hge).symm

/-- A channel that both colours of a blend have, or neither. -/
theorem channelOf_blend {c0 c1 f level ch : ℕ} {b : Bool} (hch : ch < 3) (h0 : c0.testBit ch = b)
    (h1 : c1.testBit ch = b) (hf : f < 256) (hlevel : b = true → level = 128) :
    channelOf (blend c0 c1 f level) ch = fullOrOff b := by
  have hout : channelOf (blend c0 c1 f level) ch =
      gamma8 (u8 ((((if c0.testBit ch then 255 else 0) * (256 - f) +
        (if c1.testBit ch then 255 else 0) * f) >>> 8 * level) >>> 7)) := by
    unfold blend
    rw [channelOf_rgb24 (gamma8_lt _) (gamma8_lt _) (gamma8_lt _) hch]
    interval_cases ch <;> rfl
  rw [hout, h0, h1]
  cases b with
  | false => simp [fullOrOff, gamma8, u8]
  | true =>
      have hsum : 255 * (256 - f) + 255 * f = 255 * 256 := by omega
      simp only [if_true, hsum, hlevel rfl]
      decide

/-- **A channel that a colour keeps**, in everything it paints. -/
theorem channelOf_painted {c : Color} {ch rgb : ℕ} {b : Bool} (hch : ch < 3)
    (hkeeps : c.Keeps ch b) (h : PaintedIn c rgb) : channelOf rgb ch = fullOrOff b := by
  unfold Color.Keeps at hkeeps
  unfold PaintedIn at h
  split_ifs at hkeeps h
  · have hvalue : channelOf rgb ch = gamma8 (c.rgb >>> (8 * (2 - ch)) % 256) := by
      rw [h, colorRgb24, channelOf_rgb24 (gamma8_lt _) (gamma8_lt _) (gamma8_lt _) hch]
      interval_cases ch <;> rfl
    rw [hvalue, hkeeps, gamma8_fullOrOff]
  · obtain ⟨c0, h0, c1, h1, f, hf, level, -, rfl, hlevel⟩ := h
    refine channelOf_blend hch (hkeeps.1 c0 h0) (hkeeps.1 c1 h1) hf fun hfull => ?_
    exact hlevel (hkeeps.2 hfull).1 (hkeeps.2 hfull).2

/-! ### What the effects paint -/

section Painted

variable {g : Driver} {c : Color} {p : Paint}

theorem getElem?_mem_of_lt {l : List ℕ} {i : ℕ} (h : i < l.length) :
    ∃ a ∈ l, l[i]? = some a :=
  ⟨l[i], List.getElem_mem h, List.getElem?_eq_getElem h⟩

/-- What `pick` gives is between two colours of the palette. -/
theorem pick_blend (hn : 0 < p.n) {v : ℕ} (hv : v < 256) :
    ∃ c0 ∈ p.pal, ∃ c1 ∈ p.pal, ∃ f < 256, p.pick v = some (blend c0 c1 f 128) := by
  obtain ⟨c0, h0, hc0⟩ := getElem?_mem_of_lt
    (show (v * p.n) >>> 8 < p.pal.length from scaled_lt hv hn)
  obtain ⟨c1, h1, hc1⟩ := getElem?_mem_of_lt
    (show ((v * p.n) >>> 8 + 1) % p.n < p.pal.length from Nat.mod_lt _ hn)
  refine ⟨c0, h0, c1, h1, v * p.n % 256, Nat.mod_lt _ (by decide), ?_⟩
  simp only [Paint.pick, hc0, hc1]
  rfl

theorem pickRamp_blend (hn : 0 < p.n) {v : ℕ} (hv : v < 256) :
    ∃ c0 ∈ p.pal, ∃ c1 ∈ p.pal, ∃ f < 256, p.pickRamp v = some (blend c0 c1 f 128) := by
  unfold Paint.pickRamp
  split_ifs with hone
  · obtain ⟨c0, h0, hc0⟩ := getElem?_mem_of_lt hn
    refine ⟨c0, h0, c0, h0, 0, by decide, ?_⟩
    rw [hc0]
    rfl
  · have hlt := scaled_lt hv (show 0 < p.n - 1 by omega)
    obtain ⟨c0, h0, hc0⟩ := getElem?_mem_of_lt (show (v * (p.n - 1)) >>> 8 < p.pal.length from
      hlt.trans_le (Nat.sub_le _ _))
    obtain ⟨c1, h1, hc1⟩ := getElem?_mem_of_lt
      (show min ((v * (p.n - 1)) >>> 8 + 1) (p.n - 1) < p.pal.length from
        (Nat.min_le_right _ _).trans_lt (Nat.sub_lt hn (by decide)))
    refine ⟨c0, h0, c1, h1, v * (p.n - 1) % 256, Nat.mod_lt _ (by decide), ?_⟩
    simp only [hc0, hc1]
    rfl

/-- Brightness rises to the full level and falls again. -/
theorem envelope_le : ∀ a < 128, u8z ((sin8 a * 128).tdiv 127) ≤ 128 := by decide +kernel

theorem sparkleLevel_le : ∀ step < sparkleSteps, sparkleLevel step ≤ 128 := by decide +kernel

/-- Every entry of an effect's table is painted. -/
theorem table_painted (hpos : 0 < (effectPalette c).length) (heff : p.effect = c.effect)
    (hpal : p.pal = effectPalette c) {i : ℕ} (hi : i < p.tableLen) :
    ∃ rgb, p.table g i = spread g rgb ∧ PaintedIn c rgb := by
  have hn : 0 < p.n := by
    rw [Paint.n, hpal]
    exact hpos
  have hnone : c.effect ≠ .none := by
    intro hnone
    simp [Paint.tableLen, heff, hnone] at hi
  have hbetween : ∀ {rgb : Option ℕ}, (∃ c0 ∈ p.pal, ∃ c1 ∈ p.pal, ∃ f < 256,
      rgb = some (blend c0 c1 f 128)) → PaintedIn c (rgb.getD 0) := by
    rintro _ ⟨c0, h0, c1, h1, f, hf, rfl⟩
    rw [hpal] at h0 h1
    rw [PaintedIn, if_neg hnone]
    exact ⟨c0, h0, c1, h1, f, hf, 128, le_refl _, rfl, fun _ _ => rfl⟩
  by_cases hsparkle : p.effect = .sparkle
  · simp only [Paint.tableLen, hsparkle] at hi
    have hstop : i / sparkleSteps < p.pal.length :=
      (Nat.div_lt_iff_lt_mul (by decide)).mpr hi
    obtain ⟨c0, h0, hc0⟩ := getElem?_mem_of_lt hstop
    have hgetD : p.pal.getD (i / sparkleSteps) 0 = c0 := by
      rw [List.getD_eq_getElem?_getD, hc0, Option.getD_some]
    rw [hpal] at h0
    refine ⟨blend c0 c0 0 (sparkleLevel (i % sparkleSteps)), ?_, ?_⟩
    · simp only [Paint.table, hsparkle, hgetD]
    · rw [PaintedIn, if_neg hnone]
      exact ⟨c0, h0, c0, h0, 0, by decide, _, sparkleLevel_le _ (Nat.mod_lt _ (by decide)), rfl,
        fun _ hne => absurd (heff.symm.trans hsparkle) hne⟩
  · have hlen : i < 256 := by
      refine hi.trans_le ?_
      unfold Paint.tableLen paintLutLen
      split <;> first | omega | exact absurd ‹_› hsparkle
    by_cases hfire : p.effect = .fire
    · exact ⟨_, by simp only [Paint.table, hfire], hbetween (pickRamp_blend hn hlen)⟩
    · refine ⟨_, ?_, hbetween (pick_blend hn hlen)⟩
      unfold Paint.table
      split <;> first | rfl | contradiction

/-- What "fade" paints: the colour whose turn it is, at the brightness of its half wave. -/
theorem fade_painted (hpos : 0 < (effectPalette c).length) (heff : c.effect = .fade) {ph : ℕ}
    (hph : ph < 256) :
    PaintedIn c (blend ((effectPalette c).getD (u8 ((ph * (effectPalette c).length) >>> 8)) 0)
      ((effectPalette c).getD (u8 ((ph * (effectPalette c).length) >>> 8)) 0) 0
      (u8z ((sin8 ((ph * (effectPalette c).length % 256) >>> 1) * 128).tdiv 127))) := by
  have hstop : u8 ((ph * (effectPalette c).length) >>> 8) < (effectPalette c).length :=
    (Nat.mod_le _ _).trans_lt (scaled_lt hph hpos)
  obtain ⟨c0, h0, hc0⟩ := getElem?_mem_of_lt hstop
  have hphase : (ph * (effectPalette c).length % 256) >>> 1 < 128 := by
    rw [Nat.shiftRight_eq_div_pow]
    omega
  rw [List.getD_eq_getElem?_getD, hc0, Option.getD_some, PaintedIn, if_neg (by simp [heff])]
  exact ⟨c0, h0, c0, h0, 0, by decide, _, envelope_le _ hphase, rfl, fun hne => absurd heff hne⟩

/-- An effect along its table looks up an entry for every pixel. -/
theorem paintAt_table (hpos : 0 < p.n) (hmax : p.n ≤ paletteMax)
    (heff : p.effect ≠ .none ∧ p.effect ≠ .cycle ∧ p.effect ≠ .fade) (x : ℕ) :
    ∃ i < p.tableLen, ∀ lut : Buffer (BitVec 64), paintLutLen ≤ lut.size →
      paintAt g p lut x = some (lut.data i) := by
  rcases paintAt_eq (g := g) hpos hmax x with huniform | htable
  · -- an empty table has no entry to look up
    have hempty : ∀ i, (⟨0, fun _ => 0⟩ : Buffer (BitVec 64)).load i = none := by
      intro i
      refine if_neg ?_
      rintro ⟨hge, hlt⟩
      have hlt : i < ((0 : ℕ) : ℤ) := hlt
      omega
    have hload := huniform ⟨0, fun _ => 0⟩
    obtain ⟨hnone, hcycle, hfade⟩ := heff
    rw [paintAt, if_neg hnone] at hload
    unfold effectAt at hload
    simp only [hempty] at hload
    split at hload <;> contradiction
  · exact htable

/-- **Every pixel is painted**, by every effect and in every frame. -/
theorem referenceAt_painted (hc : ColorOk c) (fxFrame x y : ℕ) :
    ∃ rgb, referenceAt g c fxFrame x y = some (spread g rgb) ∧ PaintedIn c rgb := by
  obtain ⟨hpos, hmax⟩ := effectPalette_length hc
  obtain ⟨heff, hpal⟩ := paintBase_frame g c fxFrame
  have hblank : paintLutLen ≤ (⟨paintLutLen, fun _ => 0⟩ : Buffer (BitVec 64)).size := le_refl _
  obtain ⟨⟨_, lut⟩, hpaint, rfl, hsize, hfill⟩ := paintOf_fills (g := g) hc fxFrame hblank
  have href : referenceAt g c fxFrame x y =
      paintAt g (paintRow g (paintBase g c fxFrame) y) lut x := by
    unfold referenceAt
    rw [hpaint]
    rfl
  rw [href]
  have hpos' : 0 < (paintRow g (paintBase g c fxFrame) y).n := by
    rw [← hpal] at hpos
    exact hpos
  have hmax' : (paintRow g (paintBase g c fxFrame) y).n ≤ paletteMax := by
    rw [← hpal] at hmax
    exact hmax
  by_cases htable : c.effect ≠ .none ∧ c.effect ≠ .cycle ∧ c.effect ≠ .fade
  · rw [← heff] at htable
    obtain ⟨i, hi, hentry⟩ := paintAt_table (p := paintRow g (paintBase g c fxFrame) y) hpos' hmax'
      htable x
    obtain ⟨rgb, hrgb, hpainted⟩ := table_painted (g := g) hpos heff hpal hi
    refine ⟨rgb, ?_, hpainted⟩
    rw [hentry lut (le_of_eq hsize.symm), hfill i hi, hrgb]
  · obtain ⟨effect, speed, palette, scale, rgb⟩ := c
    cases effect with
    | none => exact ⟨_, rfl, rfl⟩
    | cycle =>
        obtain ⟨c0, h0, c1, h1, f, hf, hpick⟩ := pick_blend
          (p := paintHead ⟨.cycle, speed, palette, scale, rgb⟩ fxFrame) hpos
          (u8_lt (paintHead ⟨.cycle, speed, palette, scale, rgb⟩ fxFrame).t)
        refine ⟨_, congrArg (fun r => some (spread g (Option.getD r 0))) hpick, ?_⟩
        exact ⟨c0, h0, c1, h1, f, hf, 128, le_refl _, rfl, fun _ _ => rfl⟩
    | fade =>
        have hpainted := fade_painted hpos rfl
          (u8_lt (paintHead ⟨.fade, speed, palette, scale, rgb⟩ fxFrame).t)
        exact ⟨_, rfl, hpainted⟩
    | _ => exact absurd ⟨nofun, nofun, nofun⟩ htable

end Painted

/-! ### What is lit -/

/-- Channel `ch` of plane `k` of a pixel is `b` in a frame, if its panel is driven. -/
def BitHeld (g : Driver) (frame : Frame) (x y k ch : ℕ) (b : Bool) : Prop :=
  ∀ bits, pixelBits g frame x y k = some bits → bits.testBit ch = b

/-- Both colours of a config keep the channel. -/
def Config.Keeps (c : Config) (ch : ℕ) (b : Bool) : Prop :=
  c.color.Keeps ch b ∧ c.offColor.Keeps ch b

instance (c : Config) (ch : ℕ) (b : Bool) : Decidable (c.Keeps ch b) :=
  inferInstanceAs (Decidable (_ ∧ _))

/-- A write of a draw: of a plane of either colour, in some frame of its effect. -/
def RefreshEvent.Paints (c : Config) (g : Driver) : RefreshEvent → Prop
  | write y x planes _ => ∃ lit fxFrame,
      referenceAt g (if lit = true then c.color else c.offColor) fxFrame x y = some planes
  | isr _ _ => True

section Kept

variable {c : Config} {g : Driver} (hr : Running c g) {x y : ℕ} (hx : x < g.active.width)
  (hy : y < g.active.height) {ch : ℕ} (hch : ch < 3) {b : Bool}

/-- A level's bits are all set, or none. -/
theorem greyLevel_fullOrOff (g : Driver) (b : Bool) :
    greyLevel g (fullOrOff b) = if b then 2 ^ g.depth - 1 else 0 := by
  have hpos := Nat.two_pow_pos g.depth
  cases b
  · simp [greyLevel, fullOrOff]
  · simp only [greyLevel, fullOrOff, if_true]
    omega

include hr hch in
/-- What a draw writes has the channel's bit in every plane, or in none. -/
theorem planeByte_painted (hkeeps : c.Keeps ch b) {lit : Bool} {fxFrame x y : ℕ}
    {planes : BitVec 64} (hplanes : referenceAt g (if lit = true then c.color else c.offColor)
      fxFrame x y = some planes) {k : ℕ} (hk : k < g.depth) :
    Small planes ∧ (planeByte planes k).testBit ch = b := by
  have hkept : (if lit = true then c.color else c.offColor).Keeps ch b := by
    split_ifs
    · exact hkeeps.1
    · exact hkeeps.2
  have hok : ColorOk (if lit = true then c.color else c.offColor) := by
    split_ifs
    · exact hr.accepted.color
    · exact hr.accepted.offColor
  obtain ⟨rgb, hrgb, hpainted⟩ := referenceAt_painted (g := g) hok fxFrame x y
  obtain rfl : planes = spread g rgb := Option.some.inj (hplanes.symm.trans hrgb)
  refine ⟨spread_small g rgb, ?_⟩
  rw [planeByte_spread hr.runs.depth.2 rgb hk hch, channelOf_painted hch hkept hpainted,
    greyLevel_fullOrOff]
  cases b
  · simp
  · simp [Nat.testBit_two_pow_sub_one, hk]

include hr hx hy hch in
/-- **A write of a draw** keeps the channel's bit, and sets it where it writes it. -/
theorem bitHeld_write (hkeeps : c.Keeps ch b) (frame : Frame) {x' y' j : ℕ} {planes : BitVec 64}
    (hx' : x' < g.active.width) (hy' : y' < g.active.height) (hj : j < g.depth)
    (hpaints : (RefreshEvent.write y' x' planes j).Paints c g) {k : ℕ} (hk : k < g.depth)
    (h : BitHeld g frame x y k ch b ∨ (x' = x ∧ y' = y) ∧ j = k) :
    BitHeld g (frameRowSetByte g frame (frameLocateRow g y') x' planes j) x y k ch b := by
  obtain ⟨lit, fxFrame, hplanes⟩ := hpaints
  obtain ⟨hsmall, hbit⟩ := planeByte_painted hr hch hkeeps hplanes hk
  intro bits hbits
  unfold pixelBits at hbits
  obtain ⟨slot, hslot, rfl⟩ := Option.map_eq_some_iff.mp hbits
  have hold : BitHeld g frame x y k ch b → (planeBits g frame slot k).testBit ch = b :=
    fun hheld => hheld _ (congrArg (Option.map _) hslot)
  cases hslot' : frameSlot g (frameLocateRow g y') x' with
  | none =>
      have hsame : frameRowSetByte g frame (frameLocateRow g y') x' planes j = frame := by
        simp only [frameRowSetByte, hslot']
      rw [hsame]
      rcases h with hheld | ⟨⟨rfl, rfl⟩, -⟩
      · exact hold hheld
      · rw [hslot] at hslot'
        cases hslot'
  | some slot' =>
      rw [planeBits_setByte hr hx' hy' hx hy frame hsmall hj hk hslot' hslot]
      split_ifs with hhere
      · exact hbit
      · rcases h with hheld | ⟨⟨rfl, rfl⟩, rfl⟩
        · exact hold hheld
        · exact absurd ⟨Option.some.inj (hslot.symm.trans hslot'), rfl⟩ hhere

/-- A run in which the channel's bit of the pixel is `b` in the frame and in every frame rendered
from shift `first` on. -/
structure ChannelHeld (g : Driver) (x y ch : ℕ) (b : Bool) (first : ℕ) (s : LitPanel)
    (h : History) : Prop where
  lit : Lit g s h
  frame : ∀ k < g.depth, BitHeld g h.frame x y k ch b
  rendered : ∀ j, first ≤ j → j < h.runs + 2 → ∀ k < g.depth, BitHeld g (h.rendered j) x y k ch b

variable {first : ℕ} {s s' : LitPanel} {h : History}

include hr hx hy hch in
theorem channelHeld_step (hkeeps : c.Keeps ch b) {e : RefreshEvent × Timing}
    (hs : ChannelHeld g x y ch b first s h)
    (hstep : Guarded (PanelStep g) (fun _ e => e.1.Paints c g) s e s') :
    ChannelHeld g x y ch b first s' (h.next g e.1) := by
  obtain ⟨hpaints, hstep⟩ := hstep
  have henabled := hstep.1.1
  have hlit := lit_step hr hs.lit hstep
  obtain ⟨e, tm⟩ := e
  cases e with
  | write y' x' planes j =>
      obtain ⟨hy', hx', hj⟩ := henabled
      exact ⟨hlit, fun k hk => bitHeld_write hr hx hy hch hkeeps h.frame hx' hy' hj hpaints hk
        (.inl (hs.frame k hk)), hs.rendered⟩
  | isr stuck again =>
      cases stuck with
      | true => exact ⟨hlit, hs.frame, hs.rendered⟩
      | false =>
          refine ⟨hlit, hs.frame, fun j hj hlt k hk => ?_⟩
          show BitHeld g (Function.update h.rendered (h.runs + 2) h.frame j) x y k ch b
          have hruns : (h.next g (.isr false again)).runs = h.runs + 1 := rfl
          rw [hruns] at hlt
          rcases Nat.lt_succ_iff_lt_or_eq.mp hlt with hold | rfl
          · rw [Function.update_of_ne (Nat.ne_of_lt hold)]
            exact hs.rendered j hj hold k hk
          · rw [Function.update_self]
            exact hs.frame k hk

include hr hx hy hch in
/-- The light of an LED whose channel is held: its whole brightness, or nothing. -/
theorem light_channel (hs : ChannelHeld g x y ch b first s h) {n : ℕ} (hfirst : first ≤ n)
    (hn : n + g.cycle < h.runs) :
    s.glass.light (n + 1) g.cycle (ledRow g y) (ledPos g x y) (ledLine g y ch) =
      if b = true ∧ ledPos g x y < g.driveLen then greyTicks g (2 ^ g.depth - 1) else 0 := by
  have hrow := ledRow_lt hr y
  have hbit : ∀ k < g.depth, ledBit g h (nextMod n g.cycle (ledRow g y * g.depth + k))
      (ledPos g x y) (ledLine g y ch) ↔ b = true ∧ ledPos g x y < g.driveLen := by
    intro k hk
    have hlt : ledRow g y * g.depth + k < g.cycle := digits_lt hrow hk
    obtain ⟨hge, hlt'⟩ := nextMod_bounds hlt n
    have hheld := hs.rendered (nextMod n g.cycle (ledRow g y * g.depth + k)) (by omega) (by omega)
      k hk
    have hpixel := ledBit_pixel hr hx hy h hk (nextMod_mod hlt n) hch
    constructor
    · intro hled
      obtain ⟨bits, hbits, htest⟩ := hpixel.mp hled
      exact ⟨(hheld bits hbits).symm.trans htest, hled.1⟩
    · rintro ⟨hb, hdriven⟩
      have hslot : ∃ bits, pixelBits g
          (h.rendered (nextMod n g.cycle (ledRow g y * g.depth + k))) x y k = some bits :=
        ⟨_, congrArg (Option.map _) (if_neg (Nat.not_le.mpr hdriven))⟩
      obtain ⟨bits, hbits⟩ := hslot
      exact hpixel.mpr ⟨bits, hbits, (hheld bits hbits).trans hb⟩
  rw [lit_light hr hs.lit hn hrow (ledPos_lt hr hx hy)]
  split_ifs with hfull
  · unfold greyTicks weighted
    refine Finset.sum_congr rfl fun k hk => ?_
    have hk := Finset.mem_range.mp hk
    rw [if_pos ((hbit k hk).mpr hfull), Nat.testBit_two_pow_sub_one, if_pos (decide_eq_true hk)]
  · refine Finset.sum_eq_zero fun k hk => if_neg fun hled => ?_
    exact hfull ((hbit k (Finset.mem_range.mp hk)).mp hled)

include hr hx hy hch in
/-- A plane of the pixel that a draw has written has the channel's bit. -/
theorem bitHeld_written (hkeeps : c.Keeps ch b) {s₀ : LitPanel}
    {es : List (RefreshEvent × Timing)}
    (hrun : Run (Guarded (PanelStep g) fun _ e => e.1.Paints c g) s₀ es s) {k : ℕ}
    (hk : k < g.depth) (hwritten : ∃ planes tm, (.write y x planes k, tm) ∈ es) :
    BitHeld g (historyOf g (es.map Prod.fst)).frame x y k ch b := by
  induction hrun with
  | nil =>
      obtain ⟨_, _, hmem⟩ := hwritten
      cases hmem
  | @snoc _ _ es e _ hstep ih =>
      obtain ⟨hpaints, ⟨henabled, -⟩, -⟩ := hstep
      obtain ⟨e, tm⟩ := e
      rw [List.map_append, historyOf, List.foldl_append]
      show BitHeld g ((historyOf g (es.map Prod.fst)).next g e).frame x y k ch b
      obtain ⟨planes, tm', hmem⟩ := hwritten
      rcases List.mem_append.mp hmem with hmem | hmem
      · have hheld := ih ⟨planes, tm', hmem⟩
        cases e with
        | write y' x' planes' j =>
            exact bitHeld_write hr hx hy hch hkeeps _ henabled.2.1 henabled.1 henabled.2.2 hpaints
              hk (.inl hheld)
        | isr stuck again => cases stuck <;> exact hheld
      · cases List.mem_singleton.mp hmem
        exact bitHeld_write hr hx hy hch hkeeps _ henabled.2.1 henabled.1 henabled.2.2 hpaints hk
          (.inr ⟨⟨rfl, rfl⟩, rfl⟩)

theorem bitHeld_zero (g : Driver) (x y k ch : ℕ) : BitHeld g (fun _ => 0) x y k ch false := by
  intro bits hbits
  unfold pixelBits at hbits
  obtain ⟨slot, -, rfl⟩ := Option.map_eq_some_iff.mp hbits
  simp [planeBits]

end Kept

/-! ### The result -/

/-- **Only the palettes' colours light up.**  In every run that draws pixels in the two configured
colours, in any frames of their effects and interleaved with the interrupts in any way: an LED of
a channel that both colours leave out is dark in every cycle; one of a channel that both have in
full is lit for the whole brightness in every cycle from the third interrupt after each plane of
its pixel was drawn, if its panel is driven. -/
theorem palette_light (v : CStr) (c : Config) (hv : hub75ConfigParse v = .ok (some c))
    (hrb : c.rowBlocks ≤ 255) (g : Driver) (hg : hub75Alloc (hub75Geometry c) = some g)
    (old : ℕ → Pair) (out : BitVec 32) (glass : Glass) (hreg : glass.reg.length = g.chainLen)
    (es₁ es₂ : List (RefreshEvent × Timing)) (s₁ s₂ : LitPanel)
    (h₁ : Run (Guarded (PanelStep g) fun _ e => e.1.Paints c g) (panelStarted g old out glass)
      es₁ s₁)
    (h₂ : Run (Guarded (PanelStep g) fun _ e => e.1.Paints c g) s₁ es₂ s₂) (x y : ℕ)
    (hx : x < g.active.width) (hy : y < g.active.height) (n : ℕ)
    (hn : n + g.cycle < (historyOf g ((es₁ ++ es₂).map Prod.fst)).runs) (ch : ℕ) (hch : ch < 3) :
    let light := s₂.glass.light (n + 1) g.cycle (ledRow g y) (ledPos g x y) (ledLine g y ch)
    (c.Keeps ch false → light = 0) ∧
    (c.Keeps ch true → (∀ k < g.depth, ∃ planes tm, (.write y x planes k, tm) ∈ es₁) →
      (historyOf g (es₁.map Prod.fst)).runs + 2 ≤ n → ledPos g x y < g.driveLen →
        light = greyTicks g (2 ^ g.depth - 1)) := by
  have hr : Running c g := ⟨hub75ConfigParse_accepted hv, hrb, hg⟩
  have hlit := lit_run hr hreg h₁.unguarded
  have hgoes : ∀ {b : Bool} {first : ℕ}, c.Keeps ch b →
      ChannelHeld g x y ch b first s₁ (historyOf g (es₁.map Prod.fst)) →
      ChannelHeld g x y ch b first s₂ (historyOf g ((es₁ ++ es₂).map Prod.fst)) := by
    intro b first hkeeps hheld
    have h := h₂.simulation (fun h e => h.next g e.1) (ChannelHeld g x y ch b first)
      (fun _ _ _ _ hs hstep => channelHeld_step hr hx hy hch hkeeps hs hstep) hheld
    unfold historyOf at h ⊢
    rwa [List.map_append, List.foldl_append, List.foldl_map (l := es₂)]
  refine ⟨fun hkeeps => ?_, fun hkeeps hwritten hsince hdriven => ?_⟩
  · have hstart : ChannelHeld g x y ch false 0 (panelStarted g old out glass) History.start :=
      ⟨lit_started old out hreg hr.runs, fun k _ => bitHeld_zero g x y k ch,
        fun _ _ _ k _ => bitHeld_zero g x y k ch⟩
    have hheld := h₁.simulation (fun h e => h.next g e.1) (ChannelHeld g x y ch false 0)
      (fun _ _ _ _ hs hstep => channelHeld_step hr hx hy hch hkeeps hs hstep) hstart
    rw [← List.foldl_map] at hheld
    rw [light_channel hr hx hy hch (hgoes hkeeps hheld) (Nat.zero_le n) hn]
    exact if_neg fun h => by cases h.1
  · have hheld : ChannelHeld g x y ch true ((historyOf g (es₁.map Prod.fst)).runs + 2) s₁
        (historyOf g (es₁.map Prod.fst)) :=
      ⟨hlit, fun k hk => bitHeld_written hr hx hy hch hkeeps h₁ hk (hwritten k hk),
        fun j hj hlt => by omega⟩
    rw [light_channel hr hx hy hch (hgoes hkeeps hheld) hsince hn]
    exact if_pos ⟨rfl, hdriven⟩

/-- Waves of red and magenta on red. -/
def hub75WavesText : CStr := cs "64:32:rt:1x1,8:n:500:shift:4,wave::rm,#ff0000,512"

def hub75Waves : Config :=
  { hub75Default with color := ⟨.wave, 4, [1, 5], 8, 0⟩, offColor := .fixed 0xff0000 }

def driverWaves : Driver := (hub75Geometry hub75Waves).drive 1

theorem running_waves : Running hub75Waves driverWaves where
  accepted := hub75ConfigParse_accepted (v := hub75WavesText) rfl
  rowBlocks := by decide
  alloc := rfl

/-- Pixel (3, 5) drawn once, unlit, and forty shifts: its red is lit in full and its green not at
all. -/
theorem palette_light_waves :
    ∃ s₁ s₂, Run (Guarded (PanelStep driverWaves) fun _ e => e.1.Paints hub75Waves driverWaves)
        (panelStarted driverWaves (fun _ => ⟨fun _ => (0, 0), fun _ => (0, 0)⟩) 0 glassBlank)
        (pixelWrites driverWaves 3 5 (colorRgb24 0xff0000) timingDefault) s₁ ∧
      Run (Guarded (PanelStep driverWaves) fun _ e => e.1.Paints hub75Waves driverWaves) s₁
        (List.replicate 40 (.isr false false, timingDefault)) s₂ ∧
      s₂.glass.light 3 driverWaves.cycle (ledRow driverWaves 5) (ledPos driverWaves 3 5)
          (ledLine driverWaves 5 0) = greyTicks driverWaves 15 ∧
      s₂.glass.light 3 driverWaves.cycle (ledRow driverWaves 5) (ledPos driverWaves 3 5)
          (ledLine driverWaves 5 1) = 0 := by
  have htiming : timingDefault.Ok driverWaves := by constructor <;> decide
  obtain ⟨s₁, hwrites, hirq, -⟩ := run_pixelWrites (g := driverWaves) (x := 3) (y := 5)
    (by decide) (by decide) (panelStarted driverWaves
      (fun _ => ⟨fun _ => (0, 0), fun _ => (0, 0)⟩) 0 glassBlank) (colorRgb24 0xff0000) htiming
  have h₁ := hwrites.guarded (C := fun _ e => e.1.Paints hub75Waves driverWaves) fun e he _ => by
    obtain ⟨k, -, rfl⟩ := List.mem_map.mp he
    exact ⟨false, 0, rfl⟩
  obtain ⟨s₂, h₂, -⟩ := run_interrupts
    (C := fun _ (e : RefreshEvent × Timing) => e.1.Paints hub75Waves driverWaves)
    (fun _ _ _ => trivial) (show s₁.refresh.irqOn = true from hirq) htiming 40
  have hlight := palette_light hub75WavesText hub75Waves rfl running_waves.rowBlocks driverWaves
    running_waves.alloc _ 0 glassBlank (List.length_replicate ..) _ _ s₁ s₂ h₁ h₂ 3 5 (by decide)
    (by decide) 2
    (by rw [List.map_append, historyOf, List.foldl_append, List.map_replicate, runs_interrupts]
        decide)
  refine ⟨s₁, s₂, h₁, h₂, (hlight 0 (by decide)).2 (by decide) (fun k hk => ?_) (by decide)
    (by decide +kernel), (hlight 1 (by decide)).1 (by decide)⟩
  exact ⟨_, _, List.mem_map.mpr ⟨k, List.mem_range.mpr hk, rfl⟩⟩

end NodemFirmware.Hub75
