import NodemFirmware.Nodem.Config
import NodemFirmware.Oled.Config

/-! # Building a page

`frame_prepare` and `build_page`: the framebuffer is mapped onto the panel through two tables
of bit offsets, one per panel column and one per panel row, kept until a config they were
built from changes.

`FrameMap.Fresh` says what the tables hold whenever they are marked valid; every call of
`frame_prepare` establishes it for the configs it is handed (`framePrepare_tables`), whatever
came before.  `buildPage_bit` is one bit of a page, and `oled_page_mapping` compares it with
the mapping as it is meant: view coordinates through `mapAxis`, and the view turned clockwise
on the glass. -/

namespace NodemFirmware.Oled

/-- The conversion to `int32_t`. -/
def i32 (v : ℤ) : ℤ := (BitVec.ofInt 32 v).toInt

theorem i32_of_le {v : ℤ} (h : -1 ≤ v ∧ v < 2 ^ 31) : i32 v = v := by
  unfold i32
  rw [BitVec.toInt_ofInt, Int.bmod_def]
  omega

/-- `fm`: the tables and what they were built from. -/
structure FrameMap where
  valid : Bool
  oc : Config
  fbWidth : ℕ
  fbHeight : ℕ
  map : Nodem.Mapping
  transposed : Bool
  viewW : ℕ
  viewH : ℕ
  colBit : ℕ → ℤ
  rowBit : ℕ → ℤ

/-- `fm` at boot. -/
def FrameMap.boot : FrameMap where
  valid := false
  oc := ⟨0, 0, 0, 0, 0⟩
  fbWidth := 0
  fbHeight := 0
  map := .zero
  transposed := false
  viewW := 0
  viewH := 0
  colBit := fun _ => 0
  rowBit := fun _ => 0

/-- `axis_bit`: the bit offset of coordinate `v` along an axis, or -1 outside it. -/
def axisBit (v : ℤ) (size stride : ℕ) : ℤ :=
  if v ≥ 0 ∧ v < size then i32 (i32 v * stride) else -1

/-- The size of the panel as nodem sees it: swapped when transposed. -/
def viewWidth (oc : Config) : ℕ := if rotationTransposes oc.rotation then oc.height else oc.width

def viewHeight (oc : Config) : ℕ := if rotationTransposes oc.rotation then oc.width else oc.height

/-- The bit offset of column `v` of the view. -/
def viewColBit (oc : Config) (nc : Nodem.Config) (v : ℕ) : ℤ :=
  axisBit (Nodem.mapAxis v (viewWidth oc) nc.width nc.oled.scaleX nc.oled.x) nc.width 1

/-- The bit offset of row `v` of the view. -/
def viewRowBit (oc : Config) (nc : Nodem.Config) (v : ℕ) : ℤ :=
  axisBit (Nodem.mapAxis v (viewHeight oc) nc.height nc.oled.scaleY nc.oled.y) nc.height nc.width

/-- Whether the tables were built from these configs. -/
def FrameMap.BuiltFrom (fm : FrameMap) (oc : Config) (nc : Nodem.Config) : Prop :=
  fm.valid = true ∧ fm.oc.width = oc.width ∧ fm.oc.height = oc.height ∧
    fm.oc.rotation = oc.rotation ∧ fm.fbWidth = nc.width ∧ fm.fbHeight = nc.height ∧
    fm.map.present = nc.oled.present ∧ fm.map.x = nc.oled.x ∧ fm.map.y = nc.oled.y ∧
    fm.map.scaleX = nc.oled.scaleX ∧ fm.map.scaleY = nc.oled.scaleY

instance (fm : FrameMap) (oc : Config) (nc : Nodem.Config) : Decidable (fm.BuiltFrom oc nc) := by
  unfold FrameMap.BuiltFrom
  infer_instance

/-- What `frame_prepare` records of the configs it builds the tables from. -/
def FrameMap.record (fm : FrameMap) (oc : Config) (nc : Nodem.Config) : FrameMap :=
  { fm with
    valid := true
    oc := oc
    fbWidth := nc.width
    fbHeight := nc.height
    map := nc.oled
    transposed := rotationTransposes oc.rotation
    viewW := viewWidth oc
    viewH := viewHeight oc }

/-- The loops of `frame_prepare` over the panel's columns and rows. -/
def FrameMap.fill (fm : FrameMap) (oc : Config) (nc : Nodem.Config) : FrameMap :=
  { fm with
    colBit := fun c =>
      if c < oc.width then
        if rotationTransposes oc.rotation then viewRowBit oc nc c else viewColBit oc nc c
      else fm.colBit c
    rowBit := fun r =>
      if r < oc.height then
        if rotationTransposes oc.rotation then viewColBit oc nc r else viewRowBit oc nc r
      else fm.rowBit r }

/-- `frame_prepare`. -/
def framePrepare (fm : FrameMap) (oc : Config) (nc : Nodem.Config) : FrameMap :=
  if fm.BuiltFrom oc nc then fm
  else if nc.oled.present then (fm.record oc nc).fill oc nc
  else fm.record oc nc

/-! ### The page -/

/-- `page_buf`: index 0 is room for the control byte. -/
abbrev PageBuf := ℕ → UInt8

/-- Columns `0 .. cols - 1` of the page, written into `page_buf[1 ..]`. -/
def writeColumns (buf : PageBuf) (cols : ℕ) (f : ℕ → UInt8) : PageBuf := fun i =>
  if 1 ≤ i ∧ i ≤ cols then f (i - 1) else buf i

/-- A byte with the bits of `l` set. -/
def orBits (l : List UInt8) : UInt8 := l.foldl (fun byte mask => byte ||| mask) 0

/-- `BIT(b)` of a byte. -/
def rowMask (b : ℕ) : UInt8 := 1 <<< UInt8.ofNat b

/-- `fb[bit >> 3] & (0x80 >> (bit & 7))`. -/
def fbBit (fb : ℕ → UInt8) (bit : ℕ) : Bool :=
  fb (bit / 8) &&& ((0x80 : UInt8) >>> UInt8.ofNat (bit % 8)) ≠ 0

/-- A byte of `build_fallback_page`: every other pixel around the edge. -/
def fallbackByte (fm : FrameMap) (phase px pg : ℕ) : UInt8 :=
  orBits ((List.range 8).map fun b =>
    let py := pg * 8 + b
    let vx := if fm.transposed then py else px
    let vy := if fm.transposed then px else py
    if (vx = 0 ∨ vy = 0 ∨ vx + 1 = fm.viewW ∨ vy + 1 = fm.viewH) ∧ (vx + vy + phase) % 2 = 0 then
      rowMask b
    else 0)

/-- `rows` and `row_mask`: the page's rows inside the framebuffer. -/
def pageRows (fm : FrameMap) (pg : ℕ) : List (ℤ × UInt8) :=
  (List.range 8).filterMap fun b =>
    if fm.rowBit (pg * 8 + b) ≥ 0 then some (fm.rowBit (pg * 8 + b), rowMask b) else none

/-- A byte of the mapped page. -/
def mappedByte (fm : FrameMap) (fb : ℕ → UInt8) (px pg : ℕ) : UInt8 :=
  if fm.colBit px ≥ 0 then
    orBits ((pageRows fm pg).map fun r =>
      if fbBit fb (i32 (fm.colBit px + r.1)).toNat then r.2 else 0)
  else 0

/-- `build_page`, after `frame_prepare`. -/
def buildPage (fm : FrameMap) (nc : Nodem.Config) (fb : ℕ → UInt8) (phase skip cols pg : ℕ)
    (buf : PageBuf) : PageBuf :=
  if !nc.oled.present then writeColumns buf cols (fun c => fallbackByte fm phase (skip + c) pg)
  else if pageRows fm pg = [] then writeColumns buf cols (fun _ => 0)
  else writeColumns buf cols (fun c => mappedByte fm fb (skip + c) pg)

/-! ### The tables -/

/-- The tables hold what their configs map to. -/
structure FrameMap.Holds (fm : FrameMap) (oc : Config) (nc : Nodem.Config) : Prop where
  col : ∀ c < oc.width, fm.colBit c =
    if rotationTransposes oc.rotation then viewRowBit oc nc c else viewColBit oc nc c
  row : ∀ r < oc.height, fm.rowBit r =
    if rotationTransposes oc.rotation then viewColBit oc nc r else viewRowBit oc nc r

/-- The configs that `frame_prepare` compares agree. -/
structure SameKey (oc oc' : Config) (nc nc' : Nodem.Config) : Prop where
  width : oc.width = oc'.width
  height : oc.height = oc'.height
  rotation : oc.rotation = oc'.rotation
  fbWidth : nc.width = nc'.width
  fbHeight : nc.height = nc'.height
  oled : nc.oled = nc'.oled

theorem FrameMap.Holds.congr {fm : FrameMap} {oc oc' : Config} {nc nc' : Nodem.Config}
    (h : fm.Holds oc nc) (hk : SameKey oc oc' nc nc') : fm.Holds oc' nc' := by
  have hcol : ∀ v, viewColBit oc nc v = viewColBit oc' nc' v := by
    intro v
    unfold viewColBit viewWidth
    rw [hk.width, hk.height, hk.rotation, hk.fbWidth, hk.oled]
  have hrow : ∀ v, viewRowBit oc nc v = viewRowBit oc' nc' v := by
    intro v
    unfold viewRowBit viewHeight
    rw [hk.width, hk.height, hk.rotation, hk.fbWidth, hk.fbHeight, hk.oled]
  constructor
  · intro c hc
    rw [h.col c (by rw [hk.width]; exact hc), hk.rotation, hrow, hcol]
  · intro r hr
    rw [h.row r (by rw [hk.height]; exact hr), hk.rotation, hrow, hcol]

/-- Valid tables hold what the configs they were built from map to. -/
def FrameMap.Fresh (fm : FrameMap) : Prop :=
  fm.valid = true → fm.map.present = true →
    ∃ nc : Nodem.Config, nc.width = fm.fbWidth ∧ nc.height = fm.fbHeight ∧ nc.oled = fm.map ∧
      fm.Holds fm.oc nc

theorem fresh_boot : FrameMap.boot.Fresh := fun h => by cases h

/-- **Whatever the tables were built from before**, after `frame_prepare` they hold what the
configs it was handed map to. -/
theorem framePrepare_tables {fm : FrameMap} (h : fm.Fresh) (oc : Config) (nc : Nodem.Config) :
    (framePrepare fm oc nc).Fresh ∧
      (nc.oled.present = true → (framePrepare fm oc nc).Holds oc nc) := by
  unfold framePrepare
  split_ifs with hkey hp
  · obtain ⟨hv, hw, hh, hr, hfw, hfh, hmp, hmx, hmy, hsx, hsy⟩ := hkey
    have hmap : fm.map = nc.oled := Nodem.Mapping.ext hmp hmx hmy hsx hsy
    refine ⟨h, ?_⟩
    intro hpres
    obtain ⟨nc', hnw, hnh, hno, hholds⟩ := h hv (by rw [hmp]; exact hpres)
    exact hholds.congr ⟨hw, hh, hr, hnw.trans hfw, hnh.trans hfh, hno.trans hmap⟩
  · have hholds : ((fm.record oc nc).fill oc nc).Holds oc nc :=
      ⟨fun c hc => if_pos hc, fun r hr => if_pos hr⟩
    exact ⟨fun _ _ => ⟨nc, rfl, rfl, rfl, hholds⟩, fun _ => hholds⟩
  · exact ⟨fun _ hpres => absurd hpres hp, fun hpres => absurd hpres hp⟩

theorem fresh_history (hist : List (Config × Nodem.Config)) :
    (hist.foldl (fun fm p => framePrepare fm p.1 p.2) FrameMap.boot).Fresh := by
  have hstep : ∀ (l : List (Config × Nodem.Config)) (fm : FrameMap), fm.Fresh →
      (l.foldl (fun fm p => framePrepare fm p.1 p.2) fm).Fresh := by
    intro l
    induction l with
    | nil => exact fun fm h => h
    | cons p l ih => exact fun fm h => ih _ (framePrepare_tables h p.1 p.2).1
  exact hstep hist _ fresh_boot

/-! ### One bit of a page -/

theorem testBit_foldl_or (l : List UInt8) (a : UInt8) (b : ℕ) :
    (l.foldl (fun byte mask => byte ||| mask) a).toNat.testBit b =
      (a.toNat.testBit b || l.any (fun m => m.toNat.testBit b)) := by
  induction l generalizing a with
  | nil => simp
  | cons m l ih =>
      rw [List.foldl_cons, ih, UInt8.toNat_or, Nat.testBit_or, List.any_cons, Bool.or_assoc]

theorem testBit_orBits (l : List UInt8) (b : ℕ) :
    (orBits l).toNat.testBit b = l.any (fun m => m.toNat.testBit b) := by
  unfold orBits
  rw [testBit_foldl_or]
  simp

theorem testBit_rowMask : ∀ i < 8, ∀ b < 8, (rowMask i).toNat.testBit b = decide (i = b) := by
  decide

/-- A bit of a mapped byte: its row and its column are inside the framebuffer, and the pixel
they meet at is set. -/
theorem mappedByte_bit (fm : FrameMap) (fb : ℕ → UInt8) (px pg : ℕ) {b : ℕ} (hb : b < 8) :
    (mappedByte fm fb px pg).toNat.testBit b = true ↔
      0 ≤ fm.colBit px ∧ 0 ≤ fm.rowBit (pg * 8 + b) ∧
        fbBit fb (i32 (fm.colBit px + fm.rowBit (pg * 8 + b))).toNat = true := by
  unfold mappedByte
  by_cases hcol : fm.colBit px ≥ 0
  · rw [if_pos hcol, testBit_orBits, List.any_map, List.any_eq_true]
    constructor
    · rintro ⟨r, hr, hbit⟩
      obtain ⟨i, hi, hri⟩ := List.mem_filterMap.mp hr
      rw [List.mem_range] at hi
      split_ifs at hri with hrow
      cases hri
      simp only [Function.comp_apply] at hbit
      split_ifs at hbit with hfb
      · rw [testBit_rowMask i hi b hb, decide_eq_true_eq] at hbit
        subst hbit
        exact ⟨hcol, hrow, hfb⟩
      · simp at hbit
    · rintro ⟨-, hrow, hfb⟩
      refine ⟨(fm.rowBit (pg * 8 + b), rowMask b), List.mem_filterMap.mpr
        ⟨b, List.mem_range.mpr hb, if_pos hrow⟩, ?_⟩
      simp only [Function.comp_apply, if_pos hfb, testBit_rowMask b hb b hb, decide_true]
  · rw [if_neg hcol]
    simp only [UInt8.toNat_zero, Nat.zero_testBit, Bool.false_eq_true, false_iff]
    rintro ⟨h, -⟩
    exact hcol h

theorem pageRows_eq_nil {fm : FrameMap} {pg : ℕ} (h : pageRows fm pg = []) {b : ℕ} (hb : b < 8) :
    ¬ 0 ≤ fm.rowBit (pg * 8 + b) := by
  intro hrow
  have hmem : (fm.rowBit (pg * 8 + b), rowMask b) ∈ pageRows fm pg :=
    List.mem_filterMap.mpr ⟨b, List.mem_range.mpr hb, if_pos hrow⟩
  rw [h] at hmem
  cases hmem

/-- The bits of a page built with a mapping. -/
theorem buildPage_bit (fm : FrameMap) {nc : Nodem.Config} (hp : nc.oled.present = true)
    (fb : ℕ → UInt8) (phase skip : ℕ) {cols c b : ℕ} (pg : ℕ) (buf : PageBuf) (hc : c < cols)
    (hb : b < 8) :
    (buildPage fm nc fb phase skip cols pg buf (1 + c)).toNat.testBit b = true ↔
      0 ≤ fm.colBit (skip + c) ∧ 0 ≤ fm.rowBit (pg * 8 + b) ∧
        fbBit fb (i32 (fm.colBit (skip + c) + fm.rowBit (pg * 8 + b))).toNat = true := by
  have hin : 1 ≤ 1 + c ∧ 1 + c ≤ cols := by omega
  unfold buildPage
  rw [hp, Bool.not_true, if_neg Bool.false_ne_true]
  split_ifs with hrows
  · simp only [writeColumns, if_pos hin, UInt8.toNat_zero, Nat.zero_testBit, Bool.false_eq_true,
      false_iff]
    rintro ⟨-, hrow, -⟩
    exact pageRows_eq_nil hrows hb hrow
  · simp only [writeColumns, if_pos hin, Nat.add_sub_cancel_left]
    exact mappedByte_bit fm fb (skip + c) pg hb

/-! ### The mapping as it is meant -/

/-- The view coordinates of panel pixel `(px, py)`. -/
def viewX (oc : Config) (px py : ℕ) : ℕ := if rotationTransposes oc.rotation then py else px

def viewY (oc : Config) (px py : ℕ) : ℕ := if rotationTransposes oc.rotation then px else py

/-- The framebuffer coordinates of a view pixel. -/
def fbX (oc : Config) (nc : Nodem.Config) (vx : ℕ) : ℤ :=
  Nodem.mapAxis vx (viewWidth oc) nc.width nc.oled.scaleX nc.oled.x

def fbY (oc : Config) (nc : Nodem.Config) (vy : ℕ) : ℤ :=
  Nodem.mapAxis vy (viewHeight oc) nc.height nc.oled.scaleY nc.oled.y

/-- Whether a view pixel is lit: it maps to a set pixel of the framebuffer. -/
def ViewLit (oc : Config) (nc : Nodem.Config) (fb : ℕ → UInt8) (vx vy : ℕ) : Prop :=
  (0 ≤ fbX oc nc vx ∧ fbX oc nc vx < nc.width) ∧ (0 ≤ fbY oc nc vy ∧ fbY oc nc vy < nc.height) ∧
    fbBit fb (fbY oc nc vy * nc.width + fbX oc nc vx).toNat = true

/-- Pixel `(vx, vy)` of a `w` by `h` view turned clockwise. -/
def turnClockwise (rotation w h vx vy : ℕ) : ℕ × ℕ :=
  if rotation = 90 then (h - 1 - vy, vx)
  else if rotation = 180 then (w - 1 - vx, h - 1 - vy)
  else if rotation = 270 then (vy, w - 1 - vx)
  else (vx, vy)

theorem glass_turned {oc : Config} (h : oc.rotation ∈ [0, 90, 180, 270]) (px py : ℕ) :
    (glassX oc px, glassY oc py) =
      turnClockwise oc.rotation (viewWidth oc) (viewHeight oc) (viewX oc px py)
        (viewY oc px py) := by
  simp only [List.mem_cons, List.not_mem_nil, or_false] at h
  unfold glassX glassY turnClockwise viewWidth viewHeight viewX viewY rotationFlipsCols
    rotationFlipsRows rotationTransposes
  rcases h with h | h | h | h <;> simp [h]

theorem axisBit_eq {v : ℤ} {size stride : ℕ} (h : size * stride ≤ 32768) (hs : 0 < stride) :
    axisBit v size stride = if 0 ≤ v ∧ v < size then v * stride else -1 := by
  unfold axisBit
  split_ifs with hv
  · obtain ⟨hv0, hvs⟩ := hv
    lift v to ℕ using hv0
    have hlt : v * stride < size * stride := Nat.mul_lt_mul_of_pos_right (by exact_mod_cast hvs) hs
    have hle : v ≤ v * stride := Nat.le_mul_of_pos_right v hs
    have hcast : (v : ℤ) * stride = (v * stride : ℕ) := by push_cast; rfl
    have hv1 : i32 (v : ℤ) = v := i32_of_le (by omega)
    have hv2 : i32 ((v * stride : ℕ) : ℤ) = (v * stride : ℕ) := i32_of_le (by omega)
    rw [hv1, hcast, hv2]
  · rfl

/-- The offsets of a row and a column inside the framebuffer add up to the pixel's bit. -/
theorem bitOffset_lt {fx fy : ℤ} {w h : ℕ} (hwh : w * h ≤ 32768) (hx : 0 ≤ fx ∧ fx < w)
    (hy : 0 ≤ fy ∧ fy < h) : 0 ≤ fy * w + fx ∧ fy * w + fx < 32768 := by
  obtain ⟨hx0, hxw⟩ := hx
  obtain ⟨hy0, hyh⟩ := hy
  lift fx to ℕ using hx0
  lift fy to ℕ using hy0
  have hlt : fy * w + fx < h * w := by
    calc fy * w + fx < fy * w + w := by omega
      _ = (fy + 1) * w := by ring
      _ ≤ h * w := Nat.mul_le_mul_right w (by omega)
  have hcast : (fy : ℤ) * w + fx = (fy * w + fx : ℕ) := by push_cast; rfl
  rw [Nat.mul_comm] at hwh
  rw [hcast]
  omega

theorem viewColBit_eq {oc : Config} {nc : Nodem.Config} (hnc : nc.Ok) (vx : ℕ) :
    viewColBit oc nc vx =
      if 0 ≤ fbX oc nc vx ∧ fbX oc nc vx < nc.width then fbX oc nc vx else -1 := by
  have hle : nc.width * 1 ≤ 32768 := by
    have := hnc.width
    unfold Nodem.maxDimension at this
    omega
  unfold viewColBit
  rw [axisBit_eq hle (by omega), Nat.cast_one, mul_one]
  rfl

theorem viewRowBit_eq {oc : Config} {nc : Nodem.Config} (hnc : nc.Ok) (vy : ℕ) :
    viewRowBit oc nc vy =
      if 0 ≤ fbY oc nc vy ∧ fbY oc nc vy < nc.height then fbY oc nc vy * nc.width else -1 := by
  have hle : nc.height * nc.width ≤ 32768 := by
    rw [Nat.mul_comm]
    exact hnc.pixels_le
  unfold viewRowBit
  rw [axisBit_eq hle hnc.width.1]
  rfl

/-- Two table entries and the pixel they meet at, whichever axis each is of. -/
theorem lit_of_offsets {oc : Config} {nc : Nodem.Config} (hnc : nc.Ok) (fb : ℕ → UInt8)
    (vx vy : ℕ) :
    (0 ≤ viewColBit oc nc vx ∧ 0 ≤ viewRowBit oc nc vy ∧
      fbBit fb (i32 (viewColBit oc nc vx + viewRowBit oc nc vy)).toNat = true) ↔
      ViewLit oc nc fb vx vy := by
  rw [viewColBit_eq hnc, viewRowBit_eq hnc]
  unfold ViewLit
  by_cases hx : 0 ≤ fbX oc nc vx ∧ fbX oc nc vx < nc.width
  · by_cases hy : 0 ≤ fbY oc nc vy ∧ fbY oc nc vy < nc.height
    · have hb := bitOffset_lt hnc.pixels_le hx hy
      have hrow : 0 ≤ fbY oc nc vy * (nc.width : ℤ) := mul_nonneg hy.1 (by omega)
      rw [if_pos hx, if_pos hy, add_comm (fbX oc nc vx), i32_of_le (by omega)]
      simp only [hx, hy, hrow, and_self, true_and]
    · rw [if_neg hy]
      simp [hy]
  · rw [if_neg hx]
    simp [hx]

/-- A bit of a mapped page, from any tables that are fresh. -/
theorem buildPage_lit {fm : FrameMap} (hfresh : fm.Fresh) {oc : Config} {nc : Nodem.Config}
    (hnc : nc.Ok) (hp : nc.oled.present = true) (fb : ℕ → UInt8) (phase : ℕ) {skip cols pg c b : ℕ}
    (buf : PageBuf) (hframe : skip + cols ≤ oc.width) (hc : c < cols)
    (hrow : 8 * pg + b < oc.height) (hb : b < 8) :
    (buildPage (framePrepare fm oc nc) nc fb phase skip cols pg buf (1 + c)).toNat.testBit b =
        true ↔
      ViewLit oc nc fb (viewX oc (skip + c) (8 * pg + b)) (viewY oc (skip + c) (8 * pg + b)) := by
  have hholds := (framePrepare_tables hfresh oc nc).2 hp
  have hcolBit := hholds.col (skip + c) (by omega)
  have hrowBit := hholds.row (8 * pg + b) hrow
  rw [buildPage_bit _ hp fb phase skip pg buf hc hb, Nat.mul_comm pg 8, hcolBit, hrowBit,
    ← lit_of_offsets hnc]
  unfold viewX viewY
  split_ifs
  · rw [add_comm (viewRowBit oc nc _)]
    exact and_left_comm
  · rfl

/-- **The page builder is the plain mapping.**  Whatever was prepared before, bit `b` of the
byte for panel column `skip + c` is lit if and only if the view pixel there maps to a set
pixel of the framebuffer, and the glass shows the view turned clockwise. -/
theorem oled_page_mapping (hist : List (Config × Nodem.Config)) (oc : Config) (hoc : oc.Ok)
    (nc : Nodem.Config) (hnc : nc.Ok) (hp : nc.oled.present = true) (fb : ℕ → UInt8)
    (phase skip cols pg c b : ℕ) (buf : PageBuf) (hframe : skip + cols ≤ oc.width) (hc : c < cols)
    (hpg : pg < oc.height / 8) (hb : b < 8) :
    ((buildPage (framePrepare (hist.foldl (fun fm p => framePrepare fm p.1 p.2) .boot) oc nc)
        nc fb phase skip cols pg buf (1 + c)).toNat.testBit b = true ↔
      ViewLit oc nc fb (viewX oc (skip + c) (8 * pg + b)) (viewY oc (skip + c) (8 * pg + b))) ∧
    (glassX oc (skip + c), glassY oc (8 * pg + b)) =
      turnClockwise oc.rotation (viewWidth oc) (viewHeight oc)
        (viewX oc (skip + c) (8 * pg + b)) (viewY oc (skip + c) (8 * pg + b)) := by
  have hrow : 8 * pg + b < oc.height := by omega
  exact ⟨buildPage_lit (fresh_history hist) hnc hp fb phase buf hframe hc hrow hb,
    glass_turned hoc.rotation _ _⟩

/-- One pixel of a framebuffer, set up for another panel before, on a panel mounted on its side. -/
theorem oled_page_mapping_turned :
    (buildPage (framePrepare
        (framePrepare .boot ⟨128, 32, 0, 0, 0⟩ ⟨64, 32, 1, ⟨true, 0, 0, 2, 2⟩, .zero⟩)
        ⟨128, 64, 0, 0, 90⟩ ⟨128, 64, 1, ⟨true, 0, 0, 1, 1⟩, .zero⟩)
        ⟨128, 64, 1, ⟨true, 0, 0, 1, 1⟩, .zero⟩ (fun i => if i = 48 then 0x10 else 0) 0 0 128 0
        (fun _ => 0) (1 + 35)).toNat.testBit 3 = true ∧
      (glassX ⟨128, 64, 0, 0, 90⟩ 35, glassY ⟨128, 64, 0, 0, 90⟩ 3) =
        turnClockwise 90 64 128 3 35 := by
  have h := oled_page_mapping [(⟨128, 32, 0, 0, 0⟩, ⟨64, 32, 1, ⟨true, 0, 0, 2, 2⟩, .zero⟩)]
    ⟨128, 64, 0, 0, 90⟩ (oledConfigParse_ok (s := CText.cs "ssd1306:128:64:0:0:90") rfl)
    ⟨128, 64, 1, ⟨true, 0, 0, 1, 1⟩, .zero⟩
    (Nodem.parse_ok (s := CText.cs "128:64:1,oled:0:0:1:1") rfl) rfl
    (fun i => if i = 48 then 0x10 else 0) 0 0 128 0 35 3 (fun _ => 0) (by decide) (by decide)
    (by decide) (by decide)
  have hlit : ViewLit ⟨128, 64, 0, 0, 90⟩ ⟨128, 64, 1, ⟨true, 0, 0, 1, 1⟩, .zero⟩
      (fun i => if i = 48 then 0x10 else 0) 3 35 := by
    unfold ViewLit
    decide
  exact ⟨h.1.mpr hlit, h.2⟩

end NodemFirmware.Oled
