import NodemFirmware.Hub75.Reference
import NodemFirmware.Hub75.Draw

/-! # What a draw leaves in the frame

The pixels of the two halves share the bytes of the frame, and a draw sets them one after the
other.

* `pixelBits` reads a pixel back: the three bits at its entry, plane and half.
* `pixelBits_rowSet` is the effect of one `frame_row_set` on every pixel, and `Overlaid` that of
  many: the pixels drawn show what was drawn last, the others what they did before.
* `rowDraw_overlaid` and `nodemRow_overlaid` are a row of `frame_draw_nodem`,
  `frame_draw_reference` the two draws against the reference. -/

namespace NodemFirmware.Hub75

open Checked MixedRadix CText

/-- The three bits of a slot in plane `k`. -/
def planeBits (g : Driver) (frame : Frame) (s : ℤ × ℕ) (k : ℕ) : ℕ :=
  (frame ((s.1 * g.depth).toNat + k) >>> UInt8.ofNat s.2 &&& 7).toNat

/-- The three bits of pixel `(x, y)` in plane `k`, if its panel is driven. -/
def pixelBits (g : Driver) (frame : Frame) (x y k : ℕ) : Option ℕ :=
  (frameSlot g (frameLocateRow g y) x).map fun s => planeBits g frame s k

/-! ### One pixel -/

/-- What is set in one half of a byte is there, and the other half is as it was. -/
theorem setBits_get {old : UInt8} {b shift shift' : ℕ} (hb : b < 8)
    (hs : shift = 0 ∨ shift = 3) (hs' : shift' = 0 ∨ shift' = 3) :
    ((old &&& ~~~((7 : UInt8) <<< UInt8.ofNat shift) ||| UInt8.ofNat b <<< UInt8.ofNat shift) >>>
        UInt8.ofNat shift' &&& 7).toNat =
      if shift' = shift then b else (old >>> UInt8.ofNat shift' &&& 7).toNat := by
  have hall : ∀ o < 256, ∀ b < 8, ∀ s ∈ [0, 3], ∀ s' ∈ [0, 3],
      ((UInt8.ofNat o &&& ~~~((7 : UInt8) <<< UInt8.ofNat s) ||| UInt8.ofNat b <<<
        UInt8.ofNat s) >>> UInt8.ofNat s' &&& 7).toNat =
        if s' = s then b else (UInt8.ofNat o >>> UInt8.ofNat s' &&& 7).toNat := by
    decide +kernel
  have h := hall old.toNat old.toNat_lt b hb shift (by rcases hs with rfl | rfl <;> decide)
    shift' (by rcases hs' with rfl | rfl <;> decide)
  rwa [UInt8.ofNat_toNat] at h

section Pixel

variable {c : Config} {g : Driver} (hr : Running c g) {x y x' y' : ℕ} (hx : x < g.active.width)
  (hy : y < g.active.height) (hx' : x' < g.active.width) (hy' : y' < g.active.height)

include hr hx hy hx' hy' in
/-- A pass of the loop of `frame_row_set`, seen by any slot and plane. -/
theorem planeBits_setByte (frame : Frame) {planes : BitVec 64} (hplanes : Small planes)
    {j k : ℕ} (hj : j < g.depth) (hk : k < g.depth) {s s' : ℤ × ℕ}
    (hs : frameSlot g (frameLocateRow g y) x = some s)
    (hs' : frameSlot g (frameLocateRow g y') x' = some s') :
    planeBits g (frameRowSetByte g frame (frameLocateRow g y) x planes j) s' k =
      if s' = s ∧ k = j then planeByte planes k else planeBits g frame s' k := by
  obtain ⟨entry, shift⟩ := s
  obtain ⟨entry', shift'⟩ := s'
  obtain ⟨h0, -, hshift⟩ := hr.slot_bounds hx hy hs
  obtain ⟨h0', -, hshift'⟩ := hr.slot_bounds hx' hy' hs'
  obtain ⟨e, rfl⟩ := Int.eq_ofNat_of_zero_le h0
  obtain ⟨e', rfl⟩ := Int.eq_ofNat_of_zero_le h0'
  have hidx : ∀ a : ℕ, ((a : ℤ) * g.depth).toNat = a * g.depth := by
    intro a
    rw [← Nat.cast_mul, Int.toNat_natCast]
  simp only [planeBits, frameRowSetByte, hs, hidx]
  by_cases hat : e' * g.depth + k = e * g.depth + j
  · obtain ⟨rfl, rfl⟩ := digits_inj hk hj hat
    rw [Function.update_self, setBits_get (Nat.mod_lt _ (by decide)) hshift hshift',
      planeByte_small hplanes]
    simp only [Prod.mk.injEq, true_and, and_true]
  · rw [Function.update_of_ne hat, if_neg]
    rintro ⟨heq, rfl⟩
    rw [Prod.mk.injEq, Nat.cast_inj] at heq
    exact hat (by rw [heq.1])

include hr hx hy hx' hy' in
/-- **One `frame_row_set`**: its pixel shows its planes, every other pixel what it did. -/
theorem pixelBits_rowSet (frame : Frame) {planes : BitVec 64} (hplanes : Small planes) {k : ℕ}
    (hk : k < g.depth) :
    pixelBits g (frameRowSet g frame (frameLocateRow g y) x planes) x' y' k =
      if x' = x ∧ y' = y then (pixelBits g frame x' y' k).map fun _ => planeByte planes k
      else pixelBits g frame x' y' k := by
  unfold pixelBits
  cases hs' : frameSlot g (frameLocateRow g y') x' with
  | none => simp
  | some s' =>
      cases hs : frameSlot g (frameLocateRow g y) x with
      | none =>
          have hne : ¬ (x' = x ∧ y' = y) := by
            rintro ⟨rfl, rfl⟩
            rw [hs] at hs'
            cases hs'
          have hsame : frameRowSet g frame (frameLocateRow g y) x planes = frame := by
            unfold frameRowSet frameRowSetByte
            simp only [hs, List.foldl_const]
            exact Function.iterate_fixed rfl _
          rw [if_neg hne, hsame]
      | some s =>
          have hloop : ∀ n ≤ g.depth, planeBits g ((List.range n).foldl
              (fun f j => frameRowSetByte g f (frameLocateRow g y) x planes j) frame) s' k =
              if s' = s ∧ k < n then planeByte planes k else planeBits g frame s' k := by
            intro n hn
            induction n with
            | zero => simp
            | succ n ih =>
                rw [frameRowSet_succ, planeBits_setByte hr hx hy hx' hy' _ hplanes hn hk hs hs',
                  ih (by omega)]
                by_cases hslot : s' = s
                · simp only [hslot, true_and, Nat.lt_succ_iff_lt_or_eq]
                  by_cases hkn : k = n
                  · simp only [hkn, if_true, or_true]
                  · simp only [hkn, if_false, or_false]
                · simp only [hslot, false_and, if_false]
          have hsame : s' = s ↔ x' = x ∧ y' = y := by
            constructor
            · rintro rfl
              exact hr.slot_inj hx' hy' hx hy hs' hs
            · rintro ⟨rfl, rfl⟩
              rw [hs] at hs'
              exact (Option.some.inj hs').symm
          have hset := hloop g.depth (le_refl _)
          simp only [hk, and_true, hsame] at hset
          simp only [Option.map_some]
          show some (planeBits g (List.foldl _ _ _) s' k) = _
          rw [hset]
          split_ifs <;> rfl

end Pixel

/-! ### Many pixels -/

/-- `frame'` is `frame` with the pixels drawn for which `new` is a colour. -/
def Overlaid (g : Driver) (frame frame' : Frame) (new : ℕ → ℕ → Option (BitVec 64)) : Prop :=
  ∀ x < g.active.width, ∀ y < g.active.height, ∀ k < g.depth,
    pixelBits g frame' x y k =
      match new x y with
      | some planes => (pixelBits g frame x y k).map fun _ => planeByte planes k
      | none => pixelBits g frame x y k

namespace Overlaid

variable {g : Driver} {frame frame' frame'' : Frame} {new new' : ℕ → ℕ → Option (BitVec 64)}

theorem refl (g : Driver) (frame : Frame) : Overlaid g frame frame fun _ _ => none :=
  fun _ _ _ _ _ _ => rfl

theorem trans (h : Overlaid g frame frame' new) (h' : Overlaid g frame' frame'' new') :
    Overlaid g frame frame'' fun x y => (new' x y).or (new x y) := by
  intro x hx y hy k hk
  rw [h' x hx y hy k hk, h x hx y hy k hk]
  cases hnew : new' x y with
  | none => simp only [hnew, Option.none_or]
  | some planes =>
      simp only [hnew, Option.some_or]
      cases new x y <;> simp [Function.comp_def]

theorem congr (h : Overlaid g frame frame' new)
    (hnew : ∀ x < g.active.width, ∀ y < g.active.height, new x y = new' x y) :
    Overlaid g frame frame' new' := by
  intro x hx y hy k hk
  rw [h x hx y hy k hk, hnew x hx y hy]

/-- A pixel that was drawn shows its planes. -/
theorem shows (h : Overlaid g frame frame' new) {x y k : ℕ} (hx : x < g.active.width)
    (hy : y < g.active.height) (hk : k < g.depth) {planes : BitVec 64}
    (hnew : new x y = some planes) {s : ℤ × ℕ}
    (hs : frameSlot g (frameLocateRow g y) x = some s) :
    planeBits g frame' s k = planeByte planes k := by
  have hpixel := h x hx y hy k hk
  rw [hnew] at hpixel
  simpa [pixelBits, hs] using hpixel

end Overlaid

section Loops

variable {c : Config} {g : Driver} {m : Buffers}

/-- A loop that sets the pixels of a row one after the other. -/
theorem each_overlaid (hr : Running c g) (hm : Built g m) {y : ℕ} (hy : y < g.active.height)
    {planes : ℕ → BitVec 64} (hplanes : ∀ x, Small (planes x))
    {body : ℕ → Buffers → Option Buffers}
    (hbody : ∀ x < g.active.width, ∀ f,
      body x (m.withFrame f) = (m.withFrame f).frameRowSet g (frameLocateRow g y) x (planes x)) :
    Returns (each g.active.width body m) fun m' => ∃ f, m' = m.withFrame f ∧
      Overlaid g m.frame.data f fun x' y' => if y' = y then some (planes x') else none := by
  refine (Returns.each (fun j (m' : Buffers) => ∃ f, m' = m.withFrame f ∧
    Overlaid g m.frame.data f fun x' y' => if x' < j ∧ y' = y then some (planes x') else none)
    ⟨m.frame.data, rfl, (Overlaid.refl g _).congr fun x _ y _ => by simp⟩ ?_).mono ?_
  · rintro x hx _ ⟨f, rfl, hf⟩
    rw [hbody x hx, frameRowSet_checked hr (hm.withFrame f) hx hy]
    refine .some ⟨_, rfl, ?_⟩
    have hone : Overlaid g f (frameRowSet g f (frameLocateRow g y) x (planes x))
        fun x' y' => if x' = x ∧ y' = y then some (planes x) else none := by
      intro x' hx' y' hy' k hk
      rw [pixelBits_rowSet hr hx hy hx' hy' f (hplanes x) hk]
      dsimp only
      split_ifs <;> rfl
    refine (hf.trans hone).congr fun x' _ y' _ => ?_
    by_cases hy' : y' = y
    · rcases lt_trichotomy x' x with hlt | rfl | hgt
      · simp [hy', hlt, hlt.ne, hlt.trans (Nat.lt_succ_self x)]
      · simp [hy']
      · simp [hy', hgt.ne', hgt.not_gt, Nat.not_lt.mpr hgt]
    · simp [hy']
  · rintro m' ⟨f, hm', hf⟩
    exact ⟨f, hm', hf.congr fun x hx y _ => by simp [hx]⟩

end Loops

/-! ### Rows -/

/-- The reference colour of pixel `(x, y)`. -/
def reference (g : Driver) (fxFrame : ℕ) (lit : Bool) (x y : ℕ) : BitVec 64 :=
  (referenceAt g (if lit then g.active.color else g.active.offColor) fxFrame x y).getD 0

/-- The colours of a draw give the reference's pixels. -/
structure Paints (g : Driver) (m : Buffers) (fxFrame : ℕ) (on off : Paint) : Prop where
  lit : ∀ x y, paintAt g (paintRow g on y) (m.paintLuts litSlot) x =
    some (reference g fxFrame true x y)
  unlit : ∀ x y, paintAt g (paintRow g off y) (m.paintLuts unlitSlot) x =
    some (reference g fxFrame false x y)

/-- The colours of the config in force were accepted. -/
def Colored (g : Driver) : Prop := ∀ lit : Bool,
  ColorOk (if lit then g.active.color else g.active.offColor)

theorem colored_of_accepted {g : Driver} (hc : Accepted g.active) : Colored g := by
  intro lit
  split_ifs
  · exact hc.color
  · exact hc.offColor

theorem Running.colored {c : Config} {g : Driver} (hr : Running c g) : Colored g :=
  colored_of_accepted (hr.derived.active.symm ▸ hr.accepted)

theorem reference_small {g : Driver} (hc : Colored g) (fxFrame : ℕ) (lit : Bool) (x y : ℕ) :
    Small (reference g fxFrame lit x y) ∧
      referenceAt g (if lit then g.active.color else g.active.offColor) fxFrame x y =
        some (reference g fxFrame lit x y) := by
  obtain ⟨_, -, -, -, hcolors⟩ := paintOf_reference (g := g) (hc lit) fxFrame
    (show paintLutLen ≤ (⟨paintLutLen, fun _ => 0⟩ : Buffer (BitVec 64)).size from le_refl _)
  obtain ⟨planes, hsmall, href, -⟩ := hcolors x y
  have hplanes : reference g fxFrame lit x y = planes := congrArg (Option.getD · 0) href
  rw [hplanes]
  exact ⟨hsmall, href⟩

/-- `map_cols` as the loop at row 0 fills it. -/
def mapCol (g : Driver) (nodem : Nodem.Config) (x : ℕ) : ℤ :=
  let fx := Nodem.mapAxis x g.active.width nodem.width nodem.hub75.scaleX nodem.hub75.x
  if fx ≥ 0 ∧ fx < nodem.width then fx else -1

/-- Whether a row of `frame_draw_nodem` lights pixel `x`, through the columns `cols`. -/
def rowLit (g : Driver) (fb : ℕ → UInt8) (nodem : Nodem.Config) (cols : ℕ → ℤ) (y x : ℕ) : Bool :=
  let fy := Nodem.mapAxis y g.active.height nodem.height nodem.hub75.scaleY nodem.hub75.y
  if fy < 0 ∨ fy ≥ nodem.height then false
  else 0 ≤ cols x && fbBit fb (u32 (u32 (fy.toNat * nodem.width) + (cols x).toNat))

def Buffers.withCols (m : Buffers) (cols : ℕ → ℤ) : Buffers :=
  { m with mapCols := { m.mapCols with data := cols } }

theorem Built.withCols {g : Driver} {m : Buffers} (h : Built g m) (cols : ℕ → ℤ) :
    Built g (m.withCols cols) :=
  { h with }

section Rows

variable {c : Config} {g : Driver} (hr : Running c g) {m : Buffers} (hm : Built g m)
  {fxFrame : ℕ} {on off : Paint} (hpaints : Paints g m fxFrame on off) {y : ℕ}
  (hy : y < g.active.height)

include hpaints in
/-- `frame_row_set` with the colour of a lit or an unlit pixel. -/
theorem pixelSet_reference (f : Frame) (r : FrameRow) (x : ℕ) (lit : Bool) :
    (m.withFrame f).pixelSet g r (paintRow g on y) (paintRow g off y) x lit =
      (m.withFrame f).frameRowSet g r x (reference g fxFrame lit x y) := by
  have hlit := hpaints.lit x y
  have hunlit := hpaints.unlit x y
  unfold Buffers.pixelSet
  cases lit with
  | false =>
      simp only [Bool.false_eq_true, if_false]
      exact congrArg (· >>= _) hunlit
  | true =>
      simp only [if_true]
      exact congrArg (· >>= _) hlit

/-- Row 0 fills the columns. -/
theorem mapColsFill_eq (hm : Sized g m) (nodem : Nodem.Config) :
    Returns (m.mapColsFill g nodem) fun m' => ∃ cols, m' = m.withCols cols ∧
      ∀ x < g.active.width, cols x = mapCol g nodem x := by
  unfold Buffers.mapColsFill
  refine Returns.each (fun j (m' : Buffers) => ∃ cols, m' = m.withCols cols ∧
    ∀ x < j, cols x = mapCol g nodem x) ⟨m.mapCols.data, rfl, by simp⟩ ?_
  rintro x hx _ ⟨cols, rfl, hcols⟩
  have hin : x < (m.withCols cols).mapCols.size := hx.trans_le hm.cols_le
  simp only
  rw [Buffer.store_nat hin]
  refine .some ⟨_, rfl, ?_⟩
  intro x' hx'
  rcases Nat.lt_succ_iff_lt_or_eq.mp hx' with hlt | rfl
  · rw [Function.update_of_ne hlt.ne]
    exact hcols x' hlt
  · exact Function.update_self ..

include hr hm hpaints hy in
/-- **A row of `frame_draw_nodem`** draws all of its pixels, and no other. -/
theorem rowDraw_overlaid (fb : ℕ → UInt8) (nodem : Nodem.Config) :
    Returns (m.rowDraw g (paintRow g on y) (paintRow g off y) fb nodem y) fun m' =>
      ∃ f, m' = m.withFrame f ∧ Overlaid g m.frame.data f fun x' y' =>
        if y' = y then
          some (reference g fxFrame (rowLit g fb nodem m.mapCols.data y x') x' y)
        else none := by
  unfold Buffers.rowDraw rowLit
  simp only
  have hsmall := fun lit x => (reference_small hr.colored fxFrame lit x y).1
  split_ifs
  · exact each_overlaid hr hm hy (hsmall _) fun x _ f => pixelSet_reference hpaints f _ x false
  · refine each_overlaid hr hm hy (fun x => hsmall _ x) fun x hx f => ?_
    have hin : x < (m.withFrame f).mapCols.size := hx.trans_le hm.cols_le
    rw [Buffer.load_nat hin]
    exact pixelSet_reference hpaints f _ x _

include hr hm hpaints hy in
/-- **A pass of `frame_draw_nodem` over a row**, with what was submitted by then: row 0 sets the
columns, the rows below it keep them. -/
theorem nodemRow_overlaid {s : Submitted} {fb : ℕ → UInt8} (hfb : s.nodemFb = some fb)
    (hpresent : s.nodem.hub75.present = true) :
    Returns (m.nodemRow g on off s y) fun r => r.1 = true ∧ ∃ cols f,
      r.2 = (m.withCols cols).withFrame f ∧
      (∀ x < g.active.width, cols x = if y = 0 then mapCol g s.nodem x else m.mapCols.data x) ∧
      Overlaid g m.frame.data f fun x' y' =>
        if y' = y then some (reference g fxFrame (rowLit g fb s.nodem cols y x') x' y)
        else none := by
  simp only [Buffers.nodemRow, hfb, hpresent]
  have hfill : Returns (if y = 0 then m.mapColsFill g s.nodem else some m) fun m' =>
      ∃ cols, m' = m.withCols cols ∧
        ∀ x < g.active.width, cols x = if y = 0 then mapCol g s.nodem x else m.mapCols.data x := by
    split_ifs
    · exact mapColsFill_eq hm.toSized s.nodem
    · exact .some ⟨m.mapCols.data, rfl, fun _ _ => rfl⟩
  refine hfill.bind ?_
  rintro _ ⟨cols, rfl, hcols⟩
  have hpaints' : Paints g (m.withCols cols) fxFrame on off := ⟨hpaints.lit, hpaints.unlit⟩
  refine (rowDraw_overlaid hr (hm.withCols cols) hpaints' hy fb s.nodem).bind ?_
  rintro _ ⟨f, rfl, hf⟩
  exact .some ⟨rfl, cols, f, rfl, hcols, hf⟩

end Rows

/-! ### Draws -/

/-- Whether the framebuffer lights pixel `(x, y)` through its mapping. -/
def nodemLit (g : Driver) (fb : ℕ → UInt8) (nodem : Nodem.Config) (x y : ℕ) : Bool :=
  let fx := Nodem.mapAxis x g.active.width nodem.width nodem.hub75.scaleX nodem.hub75.x
  let fy := Nodem.mapAxis y g.active.height nodem.height nodem.hub75.scaleY nodem.hub75.y
  decide ((0 ≤ fx ∧ fx < nodem.width) ∧ 0 ≤ fy ∧ fy < nodem.height) &&
    fbBit fb (fy.toNat * nodem.width + fx.toNat)

/-- Whether the fallback lights pixel `(x, y)`: every other pixel of the edge. -/
def fallbackLit (g : Driver) (phase : ℤ) (x y : ℕ) : Bool :=
  decide ((x = 0 ∨ y = 0 ∨ x = g.active.width - 1 ∨ y = g.active.height - 1) ∧
    (x + y + phase : ℤ).tmod 2 = 0)

/-- The bits of an accepted framebuffer are below 2^32. -/
theorem u32_bit {nodem : Nodem.Config} (hok : nodem.Ok) {fx fy : ℕ} (hx : fx < nodem.width)
    (hy : fy < nodem.height) : u32 (u32 (fy * nodem.width) + fx) = fy * nodem.width + fx := by
  have hbit := digits_lt hy hx
  have hpixels := hok.pixels_le
  rw [Nat.mul_comm nodem.height] at hbit
  have hrow : u32 (fy * nodem.width) = fy * nodem.width := Nat.mod_eq_of_lt (by omega)
  rw [hrow]
  exact Nat.mod_eq_of_lt (by omega)

/-- Through the columns of its own config a row lights what the mapping does. -/
theorem rowLit_mapCol (g : Driver) (fb : ℕ → UInt8) {nodem : Nodem.Config} (hok : nodem.Ok)
    {cols : ℕ → ℤ} {x : ℕ} (hcols : cols x = mapCol g nodem x) (y : ℕ) :
    rowLit g fb nodem cols y x = nodemLit g fb nodem x y := by
  unfold rowLit nodemLit
  simp only [hcols, mapCol]
  generalize Nodem.mapAxis x _ _ _ _ = fx
  generalize Nodem.mapAxis y _ _ _ _ = fy
  by_cases hfy : fy < 0 ∨ fy ≥ nodem.height
  · have hout : ¬ (0 ≤ fy ∧ fy < nodem.height) := by omega
    simp [hfy, hout]
  · have hin : 0 ≤ fy ∧ fy < nodem.height := by omega
    by_cases hfx : fx ≥ 0 ∧ fx < nodem.width
    · have hx : fx.toNat < nodem.width := by omega
      have hy : fy.toNat < nodem.height := by omega
      have hbit := u32_bit hok hx hy
      simp [hfy, hfx, hin, hbit]
    · have hfx' : ¬ (0 ≤ fx ∧ fx < nodem.width) := hfx
      simp [hfy, hfx']

section Tables

variable {c : Config} {g : Driver} (hr : Running c g) {m : Buffers} (hm : Built g m)
  (fxFrame : ℕ)

/-- The buffers with another table in a slot. -/
def Buffers.withLut (m : Buffers) (slot : Fin 2) (lut : Buffer (BitVec 64)) : Buffers :=
  { m with paintLuts := Function.update m.paintLuts slot lut }

/-- The colour of the lit or the unlit pixels, into the table of a slot. -/
theorem paintOf_reference_sized (hc : Colored g) (hm : Sized g m) (lit : Bool) (slot : Fin 2) :
    Returns (m.paintOf g (if lit then g.active.color else g.active.offColor) slot fxFrame)
      fun r => ∃ lut, r.2 = m.withLut slot lut ∧ Sized g (m.withLut slot lut) ∧
        ∀ x y, paintAt g (paintRow g r.1 y) lut x = some (reference g fxFrame lit x y) := by
  refine (paintOf_reference (hc lit) fxFrame (hm.lut_le slot)).bind ?_
  rintro ⟨p, lut⟩ ⟨-, hsize, hcolors⟩
  refine .some ⟨lut, rfl, hm.withLut hsize, fun x y => ?_⟩
  obtain ⟨planes, -, href, hat⟩ := hcolors x y
  exact hat.trans (href.symm.trans (reference_small hc fxFrame lit x y).2)

include hr hm in
/-- The same with the chain's table built. -/
theorem paintOf_reference_slot (lit : Bool) (slot : Fin 2) :
    Returns (m.paintOf g (if lit then g.active.color else g.active.offColor) slot fxFrame)
      fun r => ∃ lut, r.2 = m.withLut slot lut ∧ Built g (m.withLut slot lut) ∧
        ∀ x y, paintAt g (paintRow g r.1 y) lut x = some (reference g fxFrame lit x y) := by
  refine (paintOf_reference_sized fxFrame hr.colored hm.toSized lit slot).mono ?_
  rintro _ ⟨lut, heq, hsized, hcolors⟩
  exact ⟨lut, heq, { hm with toSized := hsized }, hcolors⟩

/-- The two colours of a draw, one table after the other. -/
theorem paints_of {on off : Paint} {lut lut' : Buffer (BitVec 64)}
    (hlit : ∀ x y, paintAt g (paintRow g on y) lut x = some (reference g fxFrame true x y))
    (hunlit : ∀ x y, paintAt g (paintRow g off y) lut' x = some (reference g fxFrame false x y)) :
    Paints g ((m.withLut litSlot lut).withLut unlitSlot lut') fxFrame on off := by
  have hother : litSlot ≠ unlitSlot := by decide
  refine ⟨?_, ?_⟩
  · simp only [Buffers.withLut, Function.update_of_ne hother, Function.update_self]
    exact hlit
  · simp only [Buffers.withLut, Function.update_self]
    exact hunlit

end Tables

section Draws

variable {c : Config} {g : Driver} (hr : Running c g) {m : Buffers} (hm : Built g m)
  {fxFrame : ℕ} {on off : Paint} (hpaints : Paints g m fxFrame on off)

/-- Rows from the top, each drawn over what the rows above it have left. -/
theorem Overlaid.row {frame f f' : Frame} {y : ℕ} {pic : ℕ → ℕ → BitVec 64}
    (h : Overlaid g frame f fun x' y' => if y' < y then some (pic x' y') else none)
    (h' : Overlaid g f f' fun x' y' => if y' = y then some (pic x' y) else none) :
    Overlaid g frame f' fun x' y' => if y' < y + 1 then some (pic x' y') else none := by
  refine (h.trans h').congr fun x' _ y' _ => ?_
  rcases lt_trichotomy y' y with hlt | rfl | hgt
  · simp [hlt, hlt.ne, hlt.trans (Nat.lt_succ_self y)]
  · simp
  · simp [hgt.ne', hgt.not_gt, Nat.not_lt.mpr hgt]

include hr hm hpaints in
/-- The rows of `frame_draw_nodem` with one framebuffer and mapping. -/
theorem nodemRows_overlaid {s : Submitted} {fb : ℕ → UInt8} (hfb : s.nodemFb = some fb)
    (hpresent : s.nodem.hub75.present = true) (hok : s.nodem.Ok) :
    Returns (each g.active.height (fun y (r : Bool × Buffers) =>
      if r.1 then r.2.nodemRow g on off s y else some r) (true, m)) fun r => r.1 = true ∧
        Overlaid g m.frame.data r.2.frame.data fun x y => if y < g.active.height then
          some (reference g fxFrame (nodemLit g fb s.nodem x y) x y) else none := by
  refine (Returns.each (fun j (r : Bool × Buffers) => r.1 = true ∧ ∃ cols f,
    r.2 = (m.withCols cols).withFrame f ∧
    (0 < j → ∀ x < g.active.width, cols x = mapCol g s.nodem x) ∧
    Overlaid g m.frame.data f fun x y => if y < j then
      some (reference g fxFrame (nodemLit g fb s.nodem x y) x y) else none)
    ⟨rfl, m.mapCols.data, m.frame.data, rfl, nofun,
      (Overlaid.refl g _).congr fun _ _ y _ => by simp⟩ ?_).mono ?_
  · rintro y hy ⟨-, -⟩ ⟨rfl, cols, f, rfl, hcols, hf⟩
    have hpaints' : Paints g ((m.withCols cols).withFrame f) fxFrame on off :=
      ⟨hpaints.lit, hpaints.unlit⟩
    refine (nodemRow_overlaid hr ((hm.withCols cols).withFrame f) hpaints' hy hfb
      hpresent).mono ?_
    rintro ⟨-, -⟩ ⟨rfl, cols', f', rfl, hcols', hf'⟩
    have hmap : ∀ x < g.active.width, cols' x = mapCol g s.nodem x := by
      intro x hx
      rw [hcols' x hx]
      split_ifs with hzero
      · rfl
      · exact hcols (Nat.pos_of_ne_zero hzero) x hx
    refine ⟨rfl, cols', f', rfl, fun _ => hmap, hf.row (hf'.congr ?_)⟩
    intro x hx y' _
    rw [rowLit_mapCol g fb hok (hmap x hx)]
  · rintro ⟨-, -⟩ ⟨rfl, cols, f, rfl, -, hf⟩
    exact ⟨rfl, hf⟩

end Draws

section Whole

variable {c : Config} {g : Driver} (hr : Running c g) {m : Buffers} (hm : Built g m)
  (fxFrame : ℕ)

include hr hm in
/-- **`frame_draw_nodem`** over one framebuffer draws every pixel. -/
theorem frameDrawNodem_overlaid {s : Submitted} {fb : ℕ → UInt8} (hfb : s.nodemFb = some fb)
    (hpresent : s.nodem.hub75.present = true) (hok : s.nodem.Ok) (drawnHash : BitVec 32) :
    Returns (m.frameDrawNodem g fxFrame true s (fun _ => s) drawnHash) fun r => r.1 = true ∧
      Overlaid g m.frame.data r.2.2.frame.data fun x y =>
        some (reference g fxFrame (nodemLit g fb s.nodem x y) x y) := by
  unfold Buffers.frameDrawNodem
  refine (paintOf_reference_slot hr hm fxFrame true litSlot).bind ?_
  rintro ⟨on, _⟩ ⟨lut, rfl, hm', hlit⟩
  refine (paintOf_reference_slot hr hm' fxFrame false unlitSlot).bind ?_
  rintro ⟨off, _⟩ ⟨lut', rfl, hm'', hunlit⟩
  simp only [hfb, hpresent, Bool.not_true, Bool.false_and, Bool.false_eq_true, if_false]
  refine (nodemRows_overlaid hr hm'' (paints_of fxFrame hlit hunlit) hfb hpresent hok).bind ?_
  rintro ⟨ok, m'⟩ ⟨hok', hover⟩
  exact .some ⟨hok', hover.congr fun x _ y hy => if_pos hy⟩

include hr hm in
/-- **`frame_draw_fallback`** draws every pixel. -/
theorem frameDrawFallback_overlaid (phase : ℤ) :
    Returns (m.frameDrawFallback g fxFrame phase) fun m' =>
      Built g m' ∧ Overlaid g m.frame.data m'.frame.data fun x y =>
        some (reference g fxFrame (fallbackLit g phase x y) x y) := by
  unfold Buffers.frameDrawFallback
  refine (paintOf_reference_slot hr hm fxFrame true litSlot).bind ?_
  rintro ⟨on, _⟩ ⟨lut, rfl, hm₁, hlit⟩
  refine (paintOf_reference_slot hr hm₁ fxFrame false unlitSlot).bind ?_
  rintro ⟨off, _⟩ ⟨lut', rfl, hm', hunlit⟩
  have hpaints := paints_of (m := m) fxFrame hlit hunlit
  generalize hgen : (m.withLut litSlot lut).withLut unlitSlot lut' = m' at hm' hpaints
  have hframe : m'.frame = m.frame := by rw [← hgen]; rfl
  rw [← hframe]
  refine (Returns.each (fun j (m'' : Buffers) => ∃ f, m'' = m'.withFrame f ∧
    Overlaid g m'.frame.data f fun x y => if y < j then
      some (reference g fxFrame (fallbackLit g phase x y) x y) else none)
    ⟨m'.frame.data, rfl, (Overlaid.refl g _).congr fun _ _ y _ => by simp⟩ ?_).mono ?_
  · rintro y hy _ ⟨f, rfl, hf⟩
    have hpaints' : Paints g (m'.withFrame f) fxFrame on off := ⟨hpaints.lit, hpaints.unlit⟩
    have hsmall : ∀ x, Small (reference g fxFrame (fallbackLit g phase x y) x y) :=
      fun x => (reference_small hr.colored fxFrame _ x y).1
    refine (each_overlaid hr (hm'.withFrame f) hy hsmall ?_).mono ?_
    · intro x _ f'
      exact pixelSet_reference hpaints' f' _ x _
    · rintro _ ⟨f', rfl, hf'⟩
      exact ⟨f', rfl, hf.row hf'⟩
  · rintro _ ⟨f, rfl, hf⟩
    exact ⟨hm'.withFrame f, hf.congr fun x _ y hy => if_pos hy⟩

end Whole

/-- Every pixel of a panel that is driven shows `pic` in every plane. -/
def ShowsPicture (c : Config) (g : Driver) (frame : Frame) (pic : ℕ → ℕ → Option (BitVec 64)) :
    Prop :=
  ∀ x < c.width, ∀ y < c.height, panelIndex c x y < g.drivePanels →
    ∃ s, frameSlot g (frameLocateRow g y) x = some s ∧
      ∃ planes, pic x y = some planes ∧
        ∀ k < g.depth, planeBits g frame s k = planeByte planes k

theorem Overlaid.showsPicture {c : Config} {g : Driver} (hr : Running c g) {frame frame' : Frame}
    {fxFrame : ℕ} {lit : ℕ → ℕ → Bool}
    (h : Overlaid g frame frame' fun x y => some (reference g fxFrame (lit x y) x y)) :
    ShowsPicture c g frame' fun x y =>
      referenceAt g (if lit x y then c.color else c.offColor) fxFrame x y := by
  have hactive := hr.derived.active
  intro x hx y hy hdriven
  rw [← hactive] at hx hy ⊢
  obtain ⟨s, hs⟩ := Option.isSome_iff_exists.mp ((hr.slot_isSome hx hy).mpr hdriven)
  exact ⟨s, hs, _, (reference_small hr.colored fxFrame (lit x y) x y).2,
    fun k hk => h.shows hx hy hk rfl hs⟩

/-- **A draw equals the per-pixel reference**, whatever the frame held before: through the
mapping of the framebuffer, and with the pattern of the fallback. -/
theorem frame_draw_reference (v : CStr) (c : Config) (hv : hub75ConfigParse v = .ok (some c))
    (hrb : c.rowBlocks ≤ 255) (g : Driver)
    (hg : hub75Alloc (hub75Geometry c) = some g) (m : Buffers) (hm : Built g m) (fxFrame : ℕ) :
    (∀ (w : CStr) (nodem : Nodem.Config) (fb : ℕ → UInt8) (drawnHash : BitVec 32),
      Nodem.parse w = some nodem → nodem.hub75.present = true →
      Returns (m.frameDrawNodem g fxFrame true ⟨some fb, nodem⟩ (fun _ => ⟨some fb, nodem⟩)
        drawnHash) fun r => r.1 = true ∧ ShowsPicture c g r.2.2.frame.data fun x y =>
          referenceAt g (if nodemLit g fb nodem x y then c.color else c.offColor) fxFrame x y) ∧
    ∀ phase : ℤ, Returns (m.frameDrawFallback g fxFrame phase) fun m' =>
      ShowsPicture c g m'.frame.data fun x y =>
        referenceAt g (if fallbackLit g phase x y then c.color else c.offColor) fxFrame x y := by
  have hr : Running c g := ⟨hub75ConfigParse_accepted hv, hrb, hg⟩
  refine ⟨?_, ?_⟩
  · intro w nodem fb drawnHash hw hpresent
    refine (frameDrawNodem_overlaid hr hm fxFrame (s := ⟨some fb, nodem⟩) rfl hpresent
      (Nodem.parse_ok hw) drawnHash).mono ?_
    rintro r ⟨htrue, hover⟩
    exact ⟨htrue, hover.showsPicture hr⟩
  · intro phase
    exact (frameDrawFallback_overlaid hr hm fxFrame phase).mono fun m' h => h.2.showsPicture hr

/-- A framebuffer of the size of the default panel. -/
def nodemPanel : Nodem.Config := ⟨64, 32, 1, .zero, ⟨true, 0, 0, 1, 1⟩⟩

theorem frame_draw_reference_default :
    ∃ m : Buffers, Returns (m.frameDrawNodem ((hub75Geometry hub75Default).drive 1) 0 true
      ⟨some UInt8.ofNat, nodemPanel⟩ (fun _ => ⟨some UInt8.ofNat, nodemPanel⟩) 0) fun r =>
        r.1 = true ∧ ShowsPicture hub75Default ((hub75Geometry hub75Default).drive 1)
          r.2.2.frame.data fun x y => referenceAt ((hub75Geometry hub75Default).drive 1)
            (if nodemLit ((hub75Geometry hub75Default).drive 1) UInt8.ofNat nodemPanel x y then
              hub75Default.color else hub75Default.offColor) 0 x y := by
  have halloc : hub75Alloc (hub75Geometry hub75Default) =
      some ((hub75Geometry hub75Default).drive 1) := by rfl
  have hv : hub75ConfigParse hub75DefaultText = .ok (some hub75Default) := by rfl
  obtain ⟨m, -, hready, -⟩ :=
    hub75Start_checked ⟨hub75ConfigParse_accepted hv, by decide, halloc⟩ arenaBlank 0
  exact ⟨m, (frame_draw_reference hub75DefaultText hub75Default hv (by decide) _ halloc m
    hready.built 0).1 (cs "64:32:1,hub75:0:0:1:1") nodemPanel UInt8.ofNat 0 (by decide) rfl⟩

end NodemFirmware.Hub75
