import NodemFirmware.Lib.BitWeights
import NodemFirmware.Hub75.Glass
import NodemFirmware.Hub75.Picture

/-! # Levels of grey

How bright a pixel is for the colour it was drawn in.

* `greyLevel` is the level `spread` rounds a channel to, `greyTicks` the ticks its planes add up to.
* `pixel_light`: from the third interrupt after a pixel was drawn, and until it is drawn again,
  every cycle lights its three LEDs for just these ticks.
* `grey_order` and `grey_share`: a brighter channel is lit longer, by at least the least plane's
  ticks a level; and the ticks are the level's share of the brightness, but for a tick a plane. -/

namespace NodemFirmware.Hub75

open CText Transition MixedRadix BitWeights

/-- The level of a channel. -/
def greyLevel (g : Driver) (v : ℕ) : ℕ := (v * (2 ^ g.depth - 1) + 127) / 255

/-- What a level's planes add up to. -/
def greyTicks (g : Driver) (level : ℕ) : ℕ :=
  weighted (planeTicks g g.active.brightness) g.depth level

/-- Channel `ch` of a colour. -/
def channelOf (rgb ch : ℕ) : ℕ := rgb >>> (8 * ch) % 256

/-! ### The bits of a colour -/

theorem channelBits_testBit (a b c : ℕ) : ∀ ch < 3,
    (a % 2 ||| (b % 2) <<< 1 ||| (c % 2) <<< 2).testBit ch =
      decide ((if ch = 0 then a else if ch = 1 then b else c) % 2 = 1) := by
  intro ch hch
  have hmod := fun n : ℕ => Nat.mod_two_eq_zero_or_one n
  interval_cases ch <;> rcases hmod a with ha | ha <;> rcases hmod b with hb | hb <;>
    rcases hmod c with hc | hc <;> simp [ha, hb, hc] <;> decide

/-- Bytes laid side by side: bit `ch` of byte `k`. -/
theorem spreadBytes_getLsbD {bits : ℕ → ℕ} (hbits : ∀ k, bits k < 8) {n : ℕ} (hn : n ≤ 8)
    {k ch : ℕ} (hk : k < 8) (hch : ch < 3) :
    ((List.range n).foldl (fun planes j => planes ||| BitVec.ofNat 64 (bits j) <<< (8 * j))
      (0 : BitVec 64)).getLsbD (8 * k + ch) = (decide (k < n) && (bits k).testBit ch) := by
  induction n with
  | zero => simp
  | succ n ih =>
      have hin : 8 * k + ch < 64 := by omega
      rw [List.range_succ, List.foldl_append, List.foldl_cons, List.foldl_nil, BitVec.getLsbD_or,
        ih (by omega), BitVec.getLsbD_shiftLeft, BitVec.getLsbD_ofNat, decide_eq_true hin,
        Bool.true_and]
      rcases Nat.lt_trichotomy k n with hlt | rfl | hgt
      · have hbelow : 8 * k + ch < 8 * n := by omega
        rw [decide_eq_true hlt, decide_eq_true hbelow, decide_eq_true (by omega : k < n + 1)]
        simp
      · have hhere : ¬ 8 * k + ch < 8 * k := by omega
        have hsmall : ch < 64 := by omega
        rw [Nat.add_sub_cancel_left, decide_eq_false (Nat.lt_irrefl k), decide_eq_false hhere,
          decide_eq_true hsmall, decide_eq_true (Nat.lt_succ_self k)]
        simp
      · have hzero : (bits n).testBit (8 * k + ch - 8 * n) = false := by
          have hpow : 8 ≤ 2 ^ (8 * k + ch - 8 * n) :=
            Nat.pow_le_pow_right (show 0 < 2 by decide) (show 3 ≤ 8 * k + ch - 8 * n by omega)
          exact Nat.testBit_lt_two_pow ((hbits n).trans_le hpow)
        rw [hzero, decide_eq_false (by omega : ¬ k < n), decide_eq_false (by omega : ¬ k < n + 1)]
        simp

/-- The channel's bits in a colour's planes are those of its level. -/
theorem planeByte_spread {g : Driver} (hd : g.depth ≤ 8) (rgb : ℕ) {k ch : ℕ} (hk : k < g.depth)
    (hch : ch < 3) : (planeByte (spread g rgb) k).testBit ch =
      (greyLevel g (channelOf rgb ch)).testBit k := by
  have hbyte : (planeByte (spread g rgb) k).testBit ch = (spread g rgb).getLsbD (8 * k + ch) := by
    have hlow : ch < 8 := by omega
    rw [planeByte, show 256 = 2 ^ 8 from rfl, Nat.testBit_mod_two_pow, decide_eq_true hlow,
      Bool.true_and, BitVec.testBit_toNat, BitVec.getLsbD_ushiftRight]
  have hlevel : ∀ j, greyLevel g (channelOf rgb j) =
      ((rgb >>> (8 * j)) % 256 * (2 ^ g.depth - 1) + 127) / 255 := fun _ => rfl
  rw [hbyte, spread, spreadBytes_getLsbD (fun _ => channelBits_lt _ _ _) hd (by omega) hch,
    decide_eq_true hk, Bool.true_and, channelBits_testBit _ _ _ ch hch]
  rw [Nat.testBit_eq_decide_div_mod_eq]
  simp only [Nat.shiftRight_eq_div_pow, hlevel]
  interval_cases ch <;> simp

/-! ### The LEDs of a pixel -/

/-- The row address of a display row. -/
def ledRow (g : Driver) (y : ℕ) : ℕ := panelRow g y % (g.panelH / 2) % g.scanRows

/-- The position of a pixel's LEDs in the chain. -/
def ledPos (g : Driver) (x y : ℕ) : ℕ := framePos g (frameLocateRow g y) x

/-- The data line of channel `ch` in the half of a display row. -/
def ledLine (g : Driver) (y ch : ℕ) : Fin 6 := Fin.ofNat 6 ((frameLocateRow g y).shift + ch)

/-- The frame holds colour `rgb` for the pixel, if its panel is driven. -/
def Shows (g : Driver) (frame : Frame) (x y rgb : ℕ) : Prop :=
  ∀ k < g.depth, ∀ bits, pixelBits g frame x y k = some bits → bits = planeByte (spread g rgb) k

/-- Any event but a write to the pixel. -/
def RefreshEvent.Spares (x y : ℕ) : RefreshEvent → Prop
  | write y' x' _ _ => ¬ (x' = x ∧ y' = y)
  | isr _ _ => True

/-- A byte's bits of one half. -/
theorem half_testBit (b : UInt8) {shift : ℕ} (hs : shift = 0 ∨ shift = 3) {ch : ℕ} (hch : ch < 3) :
    (b >>> UInt8.ofNat shift &&& 7).toNat.testBit ch = b.toNat.testBit (shift + ch) := by
  have hall : ∀ b < 256, ∀ shift ∈ [0, 3], ∀ ch < 3,
      (UInt8.ofNat b >>> UInt8.ofNat shift &&& 7).toNat.testBit ch = b.testBit (shift + ch) := by
    decide +kernel
  have h := hall b.toNat b.toNat_lt shift (by rcases hs with rfl | rfl <;> decide) ch hch
  rwa [UInt8.ofNat_toNat] at h

section Pixel

variable {c : Config} {g : Driver} (hr : Running c g) {x y : ℕ} (hx : x < g.active.width)
  (hy : y < g.active.height)

include hr in
theorem ledRow_lt (y : ℕ) : ledRow g y < g.scanRows := by
  have hscan := hr.accepted.scan_pos
  rw [← hr.derived.scanRows] at hscan
  exact Nat.mod_lt _ (by omega)

include hr hx hy in
theorem ledPos_lt : ledPos g x y < g.chainLen := by
  have hg := hr.derived
  rw [hg.active] at hx hy
  obtain ⟨pieces, h⟩ := hr.accepted.divides
  have hseg : g.segW = if c.segment ≠ 0 then c.segment else c.width / c.gridX := by
    unfold Driver.segW
    rw [hg.active, hg.panelW]
  generalize (if c.segment ≠ 0 then c.segment else c.width / c.gridX) = segW at h hseg
  obtain ⟨t, rfl, rfl⟩ := exists_cell h hx hy
  have hpos := (t.pos_lt_iff (c.gridX * c.gridY)).mpr (by
    rw [Nat.mul_comm]
    exact digits_lt t.gridRow_lt t.panel_lt)
  have hchain : g.chainLen = c.gridX * c.gridY * (pieces * c.rowBlocks * segW) := by
    rw [hg.chainLen, h.width, h.pieces]
    ring
  rw [ledPos, framePos_cell hr.accepted hg h t hseg, hchain]
  exact hpos

include hr hx hy in
/-- What an LED of the pixel shows of a latch of its row. -/
theorem ledBit_pixel (h : History) {j k : ℕ} (hk : k < g.depth)
    (hj : j % g.cycle = ledRow g y * g.depth + k) {ch : ℕ} (hch : ch < 3) :
    ledBit g h j (ledPos g x y) (ledLine g y ch) ↔
      ∃ bits, pixelBits g (h.rendered j) x y k = some bits ∧ bits.testBit ch = true := by
  unfold ledBit pixelBits
  by_cases hdriven : ledPos g x y < g.driveLen
  · have hslot : frameSlot g (frameLocateRow g y) x =
        some ((frameLocateRow g y).endEntry - ledPos g x y, (frameLocateRow g y).shift) :=
      if_neg (Nat.not_le.mpr hdriven)
    have hshift := (hr.slot_bounds hx hy hslot).2.2
    have hentry : (((frameLocateRow g y).endEntry - ledPos g x y) * g.depth).toNat =
        (ledRow g y * g.driveLen + (g.driveLen - 1 - ledPos g x y)) * g.depth := by
      have hend : (frameLocateRow g y).endEntry - ledPos g x y =
          (ledRow g y * g.driveLen + (g.driveLen - 1 - ledPos g x y) : ℕ) := by
        show ((ledRow g y * g.driveLen + g.driveLen : ℕ) - (1 : ℤ)) - ledPos g x y = _
        omega
      rw [hend, ← Nat.cast_mul, Int.toNat_natCast]
    have hindex : (ledRow g y * g.depth + k) / g.depth * g.driveLen * g.depth +
        (ledRow g y * g.depth + k) % g.depth + (g.driveLen - 1 - ledPos g x y) * g.depth =
        (ledRow g y * g.driveLen + (g.driveLen - 1 - ledPos g x y)) * g.depth + k := by
      rw [digits_div hk, digits_mod hk]
      ring
    have hline : ((ledLine g y ch : Fin 6) : ℕ) = (frameLocateRow g y).shift + ch := by
      show ((frameLocateRow g y).shift + ch) % 6 = _
      rcases hshift with hs | hs <;> omega
    rw [hslot]
    simp only [hdriven, true_and, Option.map_some, Option.some.injEq, exists_eq_left']
    unfold planeBits frameColumn
    rw [hj, hindex, hentry, hline, half_testBit _ hshift hch]
  · have hslot : frameSlot g (frameLocateRow g y) x = none := if_pos (Nat.not_lt.mp hdriven)
    rw [hslot]
    simp [hdriven]

include hr hx hy in
/-- A pass of `frame_row_set`'s loop leaves every other pixel's bits. -/
theorem planeBits_setByte_ne (frame : Frame) (planes : BitVec 64) {x' y' : ℕ}
    (hx' : x' < g.active.width) (hy' : y' < g.active.height) (hne : ¬ (x' = x ∧ y' = y)) {j k : ℕ}
    (hj : j < g.depth) (hk : k < g.depth) :
    pixelBits g (frameRowSetByte g frame (frameLocateRow g y') x' planes j) x y k =
      pixelBits g frame x y k := by
  unfold pixelBits
  cases hs : frameSlot g (frameLocateRow g y) x with
  | none => rfl
  | some s =>
      rw [Option.map_some, Option.map_some]
      congr 1
      unfold frameRowSetByte planeBits
      cases hs' : frameSlot g (frameLocateRow g y') x' with
      | none => rfl
      | some s' =>
          obtain ⟨entry, shift⟩ := s
          obtain ⟨entry', shift'⟩ := s'
          obtain ⟨h0, -, hshift⟩ := hr.slot_bounds hx hy hs
          obtain ⟨h0', -, hshift'⟩ := hr.slot_bounds hx' hy' hs'
          obtain ⟨e, rfl⟩ := Int.eq_ofNat_of_zero_le h0
          obtain ⟨e', rfl⟩ := Int.eq_ofNat_of_zero_le h0'
          have hidx : ∀ a : ℕ, ((a : ℤ) * g.depth).toNat = a * g.depth := by
            intro a
            rw [← Nat.cast_mul, Int.toNat_natCast]
          simp only [hidx]
          by_cases hat : e * g.depth + k = e' * g.depth + j
          · obtain ⟨rfl, rfl⟩ := digits_inj hk hj hat
            have hhalf : shift ≠ shift' := by
              rintro rfl
              exact hne (hr.slot_inj hx' hy' hx hy hs' hs)
            rw [Function.update_self, setBits_get (Nat.mod_lt _ (by decide)) hshift' hshift,
              if_neg hhalf]
          · rw [Function.update_of_ne hat]

/-! ### From the drawing to the light -/

/-- A run since pixel `(x, y)` was drawn: the frame still shows it, and so does every frame that
was rendered since. -/
structure PixelDrawn (g : Driver) (x y rgb since : ℕ) (s : LitPanel) (h : History) : Prop where
  lit : Lit g s h
  frame : Shows g h.frame x y rgb
  rendered : ∀ j, since + 2 ≤ j → j < h.runs + 2 → Shows g (h.rendered j) x y rgb

include hr hx hy in
theorem pixelDrawn_step {rgb since : ℕ} {s s' : LitPanel} {h : History}
    {e : RefreshEvent × Timing} (hs : PixelDrawn g x y rgb since s h)
    (hstep : Guarded (PanelStep g) (fun _ e => e.1.Spares x y) s e s') :
    PixelDrawn g x y rgb since s' (h.next g e.1) := by
  obtain ⟨hspares, hstep⟩ := hstep
  have henabled := hstep.1.1
  have hlit := lit_step hr hs.lit hstep
  obtain ⟨e, tm⟩ := e
  cases e with
  | write y' x' planes j =>
      obtain ⟨hy', hx', hj⟩ := henabled
      refine ⟨hlit, fun k hk bits hbits => ?_, hs.rendered⟩
      refine hs.frame k hk bits ?_
      rw [← hbits]
      exact (planeBits_setByte_ne hr hx hy h.frame planes hx' hy' hspares hj hk).symm
  | isr stuck again =>
      cases stuck with
      | true => exact ⟨hlit, hs.frame, hs.rendered⟩
      | false =>
          refine ⟨hlit, hs.frame, fun j hj hlt => ?_⟩
          show Shows g (Function.update h.rendered (h.runs + 2) h.frame j) x y rgb
          rcases Nat.lt_or_ge j (h.runs + 2) with hold | hnew
          · rw [Function.update_of_ne (Nat.ne_of_lt hold)]
            exact hs.rendered j hj hold
          · obtain rfl : j = h.runs + 2 := by
              have hruns : (h.next g (.isr false again)).runs = h.runs + 1 := rfl
              rw [hruns] at hlt
              omega
            rw [Function.update_self]
            exact hs.frame

include hr hx hy in
/-- The light of an LED of a pixel that every frame rendered shows. -/
theorem light_pixel {rgb since n : ℕ} {s : LitPanel} {h : History}
    (hs : PixelDrawn g x y rgb since s h) (hsince : since + 2 ≤ n) (hn : n + g.cycle < h.runs)
    {ch : ℕ} (hch : ch < 3) :
    s.glass.light (n + 1) g.cycle (ledRow g y) (ledPos g x y) (ledLine g y ch) =
      if ledPos g x y < g.driveLen then greyTicks g (greyLevel g (channelOf rgb ch)) else 0 := by
  have hrow := ledRow_lt hr y
  rw [lit_light hr hs.lit hn hrow (ledPos_lt hr hx hy)]
  split_ifs with hdriven
  · unfold greyTicks weighted
    refine Finset.sum_congr rfl fun k hk => ?_
    have hk := Finset.mem_range.mp hk
    have hlt : ledRow g y * g.depth + k < g.cycle := digits_lt hrow hk
    obtain ⟨hge, hlt'⟩ := nextMod_bounds hlt n
    have hshows := hs.rendered (nextMod n g.cycle (ledRow g y * g.depth + k)) (by omega) (by omega)
    refine if_congr ?_ rfl rfl
    rw [ledBit_pixel hr hx hy h hk (nextMod_mod hlt n) hch]
    have hslot : ∃ bits, pixelBits g
        (h.rendered (nextMod n g.cycle (ledRow g y * g.depth + k))) x y k = some bits :=
      ⟨_, congrArg (Option.map _) (if_neg (Nat.not_le.mpr hdriven))⟩
    obtain ⟨bits, hbits⟩ := hslot
    rw [hbits, hshows k hk bits hbits]
    simp only [Option.some.injEq, exists_eq_left']
    rw [planeByte_spread hr.runs.depth.2 rgb hk hch]
  · refine Finset.sum_eq_zero fun k _ => if_neg fun hbit => hdriven hbit.1

include hr hx hy in
/-- The runs that spare a pixel, from where the frame shows it. -/
theorem pixelDrawn_run {old : ℕ → Pair} {out : BitVec 32} {glass : Glass}
    (hreg : glass.reg.length = g.chainLen) {es₁ es₂ : List (RefreshEvent × Timing)}
    {s₁ s₂ : LitPanel} (h₁ : Run (PanelStep g) (panelStarted g old out glass) es₁ s₁) {rgb : ℕ}
    (hshows : Shows g s₁.refresh.frame x y rgb) {C : LitPanel → RefreshEvent × Timing → Prop}
    (hspares : ∀ s e, C s e → e.1.Spares x y) (h₂ : Run (Guarded (PanelStep g) C) s₁ es₂ s₂) :
    PixelDrawn g x y rgb (historyOf g (es₁.map Prod.fst)).runs s₂
      (historyOf g ((es₁ ++ es₂).map Prod.fst)) := by
  have hlit := lit_run hr hreg h₁
  rw [hlit.refresh.frame] at hshows
  have hstart : PixelDrawn g x y rgb (historyOf g (es₁.map Prod.fst)).runs s₁
      (historyOf g (es₁.map Prod.fst)) := ⟨hlit, hshows, fun j hj hlt => by omega⟩
  have h := h₂.simulation (fun h e => h.next g e.1) (PixelDrawn g x y rgb _)
    (fun _ _ _ _ hs hstep => pixelDrawn_step hr hx hy hs ⟨hspares _ _ hstep.1, hstep.2⟩) hstart
  unfold historyOf at h ⊢
  rwa [List.map_append, List.foldl_append, List.foldl_map (l := es₂)]

end Pixel

section Draw

variable {c : Config} {g : Driver} (hr : Running c g) {x y : ℕ} (hx : x < g.active.width)
  (hy : y < g.active.height)

include hr hx hy in
/-- `frame_row_set` has the frame show its colour, and other pixels what they did. -/
theorem shows_rowSet (frame : Frame) (rgb : ℕ) :
    Shows g (frameRowSet g frame (frameLocateRow g y) x (spread g rgb)) x y rgb ∧
      ∀ x' y' rgb', x' < g.active.width → y' < g.active.height → ¬ (x' = x ∧ y' = y) →
        Shows g frame x' y' rgb' →
        Shows g (frameRowSet g frame (frameLocateRow g y) x (spread g rgb)) x' y' rgb' := by
  constructor
  · intro k hk bits hbits
    rw [pixelBits_rowSet hr hx hy hx hy frame (spread_small g rgb) hk, if_pos ⟨rfl, rfl⟩] at hbits
    obtain ⟨_, -, rfl⟩ := Option.map_eq_some_iff.mp hbits
    rfl
  · intro x' y' rgb' hx' hy' hne h k hk bits hbits
    rw [pixelBits_rowSet hr hx hy hx' hy' frame (spread_small g rgb) hk, if_neg hne] at hbits
    exact h k hk bits hbits

/-- The passes of one `frame_row_set`. -/
def pixelWrites (g : Driver) (x y rgb : ℕ) (tm : Timing) : List (RefreshEvent × Timing) :=
  (List.range g.depth).map fun k => (.write y x (spread g rgb) k, tm)

include hx hy in
theorem run_pixelWrites (s : LitPanel) (rgb : ℕ) {tm : Timing} (htm : tm.Ok g) :
    ∃ t, Run (PanelStep g) s (pixelWrites g x y rgb tm) t ∧ t.refresh.irqOn = s.refresh.irqOn ∧
      t.refresh.frame = frameRowSet g s.refresh.frame (frameLocateRow g y) x (spread g rgb) := by
  have hloop : ∀ n ≤ g.depth, ∃ t, Run (PanelStep g) s
      ((List.range n).map fun k => (RefreshEvent.write y x (spread g rgb) k, tm)) t ∧
      t.refresh.irqOn = s.refresh.irqOn ∧ t.refresh.frame = (List.range n).foldl
        (fun f k => frameRowSetByte g f (frameLocateRow g y) x (spread g rgb) k)
        s.refresh.frame := by
    intro n hn
    induction n with
    | zero => exact ⟨s, .nil s, rfl, rfl⟩
    | succ n ih =>
        obtain ⟨t, hrun, hirq, hframe⟩ := ih (by omega)
        refine ⟨t.next g (.write y x (spread g rgb) n, tm), ?_, hirq, ?_⟩
        · rw [List.range_succ, List.map_append]
          exact .snoc hrun ⟨⟨⟨hy, hx, hn⟩, htm⟩, rfl⟩
        · rw [List.range_succ, List.foldl_append, ← hframe]
          rfl
  exact hloop g.depth (le_refl _)

end Draw

/-! ### Order and share -/

section Levels

variable {g : Driver}

theorem greyLevel_lt {v : ℕ} (hv : v ≤ 255) : greyLevel g v < 2 ^ g.depth := by
  have hpow := Nat.two_pow_pos g.depth
  have hmul := Nat.mul_le_mul_right (2 ^ g.depth - 1) hv
  unfold greyLevel
  omega

theorem channelOf_le (rgb ch : ℕ) : channelOf rgb ch ≤ 255 :=
  Nat.le_of_lt_succ (Nat.mod_lt _ (by decide))

/-- A level's ticks are its share of the brightness's, but for a tick a plane. -/
theorem greyTicks_share {level : ℕ} (h : level < 2 ^ g.depth) :
    greyTicks g level * 2 ^ (g.depth - 1) ≤ onTicks g g.active.brightness * level ∧
      onTicks g g.active.brightness * level ≤ (greyTicks g level + g.depth) * 2 ^ (g.depth - 1) :=
  weighted_round (Nat.two_pow_pos _) h fun _ _ => rfl

end Levels

/-! ### The results -/

/-- **A drawn pixel's light.**  Once the frame shows a colour for a pixel, and as long as no event
writes the pixel, every cycle from the third interrupt on lights each of its LEDs for the ticks of
its channel's level: the level's share of the brightness, but for a tick a plane at most.  A
pixel of a panel that is not driven stays dark. -/
theorem pixel_light (v : CStr) (c : Config) (hv : hub75ConfigParse v = .ok (some c))
    (hrb : c.rowBlocks ≤ 255) (g : Driver) (hg : hub75Alloc (hub75Geometry c) = some g)
    (old : ℕ → Pair) (out : BitVec 32) (glass : Glass) (hreg : glass.reg.length = g.chainLen)
    (es₁ es₂ : List (RefreshEvent × Timing)) (s₁ s₂ : LitPanel)
    (h₁ : Run (PanelStep g) (panelStarted g old out glass) es₁ s₁) (x y rgb : ℕ)
    (hx : x < g.active.width) (hy : y < g.active.height)
    (hshows : Shows g s₁.refresh.frame x y rgb)
    (h₂ : Run (Guarded (PanelStep g) fun _ e => e.1.Spares x y) s₁ es₂ s₂) (n : ℕ)
    (hsince : (historyOf g (es₁.map Prod.fst)).runs + 2 ≤ n)
    (hn : n + g.cycle < (historyOf g ((es₁ ++ es₂).map Prod.fst)).runs) (ch : ℕ) (hch : ch < 3) :
    let level := greyLevel g (channelOf rgb ch)
    let light := s₂.glass.light (n + 1) g.cycle (ledRow g y) (ledPos g x y) (ledLine g y ch)
    (ledPos g x y < g.driveLen → light = greyTicks g level ∧
      light * 2 ^ (g.depth - 1) ≤ onTicks g g.active.brightness * level ∧
      onTicks g g.active.brightness * level ≤ (light + g.depth) * 2 ^ (g.depth - 1)) ∧
    (¬ ledPos g x y < g.driveLen → light = 0) := by
  have hr : Running c g := ⟨hub75ConfigParse_accepted hv, hrb, hg⟩
  have hdrawn := pixelDrawn_run hr hx hy hreg h₁ hshows (fun _ _ h => h) h₂
  have hlight := light_pixel hr hx hy hdrawn hsince hn hch
  refine ⟨fun hdriven => ?_, fun hdark => ?_⟩
  · rw [if_pos hdriven] at hlight
    refine ⟨hlight, ?_⟩
    rw [hlight]
    exact greyTicks_share (greyLevel_lt (channelOf_le rgb ch))
  · rwa [if_neg hdark] at hlight

/-- Pixel (3, 5) drawn in a light violet, and forty shifts. -/
theorem pixel_light_default :
    ∃ s₁ s₂, Run (PanelStep driverDefault) (panelStarted driverDefault
        (fun _ => ⟨fun _ => (0, 0), fun _ => (0, 0)⟩) 0 glassBlank)
        (pixelWrites driverDefault 3 5 0xff40c0 timingDefault) s₁ ∧
      Run (Guarded (PanelStep driverDefault) fun _ e => e.1.Spares 3 5) s₁
        (List.replicate 40 (.isr false false, timingDefault)) s₂ ∧
      s₂.glass.light 3 driverDefault.cycle (ledRow driverDefault 5) (ledPos driverDefault 3 5)
          (ledLine driverDefault 5 0) = greyTicks driverDefault 11 := by
  obtain ⟨s₁, h₁, hirq, hframe⟩ := run_pixelWrites (g := driverDefault) (x := 3) (y := 5)
    (by decide) (by decide) (panelStarted driverDefault
      (fun _ => ⟨fun _ => (0, 0), fun _ => (0, 0)⟩) 0 glassBlank) 0xff40c0 timingDefault_ok
  obtain ⟨s₂, h₂, -⟩ := run_interrupts
    (C := fun _ (e : RefreshEvent × Timing) => e.1.Spares 3 5) (fun _ _ _ => trivial)
    (show s₁.refresh.irqOn = true from hirq) timingDefault_ok 40
  have hshows : Shows driverDefault s₁.refresh.frame 3 5 0xff40c0 := by
    rw [hframe]
    exact (shows_rowSet running_default (by decide) (by decide) _ _).1
  refine ⟨s₁, s₂, h₁, h₂, ?_⟩
  exact ((pixel_light hub75DefaultText hub75Default rfl running_default.rowBlocks driverDefault
    running_default.alloc _ 0 glassBlank (List.length_replicate ..) _ _ s₁ s₂ h₁ 3 5 0xff40c0
    (by decide) (by decide) hshows h₂ 2 (by decide)
    (by rw [List.map_append, historyOf, List.foldl_append, List.map_replicate, runs_interrupts]
        decide) 0 (by decide)).1 (by decide +kernel)).1

end NodemFirmware.Hub75
