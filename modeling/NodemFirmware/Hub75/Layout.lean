import NodemFirmware.Hub75.Geometry

/-! # The layout is a bijection

A `Cell` is a pixel by its digits: the row of panels, the panel in it, the half, the row
block and the row address of its row, the piece of the chain and the column in it.  Display
coordinates (`Cell.x`, `Cell.y`) and chain positions (`Cell.pos`) are both read off the
digits, and every mirroring runs one of them backwards.

* every pixel has a cell (`exists_cell`);
* `frame_locate_row` and `frame_row_set` find the cell's chain position (`framePos_cell`);
* the half, the address and the position determine the cell, and all of them occur
  (`Cell.eq_of_pos`, `exists_cell_pos`). -/

namespace NodemFirmware.Hub75

open CText MixedRadix

/-- The slot of a pixel when `d` panels are driven. -/
def slot (c : Config) (d x y : ℕ) : Option (ℤ × ℕ) :=
  frameSlot ((hub75Geometry c).drive d) (frameLocateRow ((hub75Geometry c).drive d) y) x

/-- The chain index of the panel that shows a pixel: the rows of panels in order after the
flip, within a row counted from the side the chain enters it. -/
def panelIndex (c : Config) (x y : ℕ) : ℕ :=
  let row := (if c.flipY then c.height - 1 - y else y) / (c.height / c.gridY)
  let col := x / (c.width / c.gridX)
  row * c.gridX +
    if c.flipX != (c.serpentine && row % 2 = 1) then c.gridX - 1 - col else col

/-- A pixel by its digits. -/
@[ext] structure Cell (c : Config) (pieces segW : ℕ) where
  gridRow : ℕ
  panel : ℕ
  half : ℕ
  block : ℕ
  addr : ℕ
  piece : ℕ
  off : ℕ
  gridRow_lt : gridRow < c.gridY
  panel_lt : panel < c.gridX
  half_lt : half < 2
  block_lt : block < c.rowBlocks
  addr_lt : addr < c.scan
  piece_lt : piece < pieces
  off_lt : off < segW

namespace Cell

variable {c : Config} {pieces segW : ℕ}

/-- Whether the cell's panel is mounted upside down. -/
def upside (t : Cell c pieces segW) : Bool := c.serpentine && t.gridRow % 2 = 1

/-- The column on the panel, counted from where the chain enters. -/
def px (t : Cell c pieces segW) : ℕ := t.piece * segW + t.off

/-- The row on the panel, as it is mounted. -/
def py (t : Cell c pieces segW) : ℕ :=
  t.half * (c.rowBlocks * c.scan) + (t.block * c.scan + t.addr)

/-- The column counted from where the chain enters the row of panels. -/
def col (t : Cell c pieces segW) : ℕ := t.panel * (c.width / c.gridX) + t.px

def x (t : Cell c pieces segW) : ℕ := mirror (c.flipX != t.upside) c.width t.col

def y (t : Cell c pieces segW) : ℕ :=
  mirror c.flipY c.height
    (t.gridRow * (c.height / c.gridY) + mirror t.upside (c.height / c.gridY) t.py)

/-- The piece of the panel's chain. -/
def seg (t : Cell c pieces segW) : ℕ :=
  t.piece * c.rowBlocks + mirror c.farFirst c.rowBlocks t.block

/-- The position in its piece. -/
def segOff (t : Cell c pieces segW) : ℕ :=
  mirror (c.zigzag && t.seg % 2 = 1) segW t.off

/-- The panel's index along the chain. -/
def index (t : Cell c pieces segW) : ℕ := t.gridRow * c.gridX + t.panel

/-- The position along the address's chain. -/
def pos (t : Cell c pieces segW) : ℕ :=
  t.index * (pieces * c.rowBlocks * segW) + (t.seg * segW + t.segOff)

theorem seg_lt (t : Cell c pieces segW) : t.seg < pieces * c.rowBlocks :=
  digits_lt t.piece_lt (mirror_lt _ t.block_lt)

theorem segOff_lt (t : Cell c pieces segW) : t.segOff < segW := mirror_lt _ t.off_lt

theorem py_lt (t : Cell c pieces segW) : t.py < 2 * (c.rowBlocks * c.scan) :=
  digits_lt t.half_lt (digits_lt t.block_lt t.addr_lt)

theorem px_lt (t : Cell c pieces segW) : t.px < pieces * segW := digits_lt t.piece_lt t.off_lt

/-- The position is in the part of the chain of the first `d` panels if the panel is. -/
theorem pos_lt_iff (t : Cell c pieces segW) (d : ℕ) :
    t.pos < d * (pieces * c.rowBlocks * segW) ↔ t.index < d :=
  digits_lt_iff (digits_lt t.seg_lt t.segOff_lt)

/-- **A cell is determined** by its half, its address and its chain position. -/
theorem eq_of_pos {t u : Cell c pieces segW} (hhalf : t.half = u.half) (haddr : t.addr = u.addr)
    (hpos : t.pos = u.pos) : t = u := by
  obtain ⟨hindex, hin⟩ := digits_inj (digits_lt t.seg_lt t.segOff_lt)
    (digits_lt u.seg_lt u.segOff_lt) hpos
  obtain ⟨hrow, hpanel⟩ := digits_inj t.panel_lt u.panel_lt hindex
  obtain ⟨hseg, hoff⟩ := digits_inj t.segOff_lt u.segOff_lt hin
  obtain ⟨hpiece, hblock⟩ := digits_inj (mirror_lt _ t.block_lt) (mirror_lt _ u.block_lt) hseg
  have hb := mirror_inj _ t.block_lt u.block_lt hblock
  unfold segOff at hoff
  rw [hseg] at hoff
  have ho := mirror_inj _ t.off_lt u.off_lt hoff
  exact Cell.ext hrow hpanel hhalf hb haddr hpiece ho

end Cell

/-- Every half, address and chain position is some cell's. -/
theorem exists_cell_pos (c : Config) {pieces segW half addr pos : ℕ} (hhalf : half < 2)
    (haddr : addr < c.scan) (hpos : pos < c.gridY * c.gridX * (pieces * c.rowBlocks * segW)) :
    ∃ t : Cell c pieces segW, t.half = half ∧ t.addr = addr ∧ t.pos = pos := by
  obtain ⟨index, hindex, rest, hrest, rfl⟩ := exists_digits hpos
  obtain ⟨gridRow, hrow, panel, hpanel, rfl⟩ := exists_digits hindex
  obtain ⟨seg, hseg, segOff, hsegOff, rfl⟩ := exists_digits hrest
  obtain ⟨piece, hpiece, order, horder, rfl⟩ := exists_digits hseg
  let t : Cell c pieces segW :=
    { gridRow := gridRow
      panel := panel
      half := half
      block := mirror c.farFirst c.rowBlocks order
      addr := addr
      piece := piece
      off := mirror (c.zigzag && (piece * c.rowBlocks + order) % 2 = 1) segW segOff
      gridRow_lt := hrow
      panel_lt := hpanel
      half_lt := hhalf
      block_lt := mirror_lt _ horder
      addr_lt := haddr
      piece_lt := hpiece
      off_lt := mirror_lt _ hsegOff }
  have hs : t.seg = piece * c.rowBlocks + order := by
    show piece * c.rowBlocks + mirror _ _ (mirror _ _ order) = _
    rw [mirror_mirror _ horder]
  have ho : t.segOff = segOff := by
    show mirror (c.zigzag && t.seg % 2 = 1) segW (mirror _ segW segOff) = _
    rw [hs, mirror_mirror _ hsegOff]
  refine ⟨t, rfl, rfl, ?_⟩
  unfold Cell.pos
  rw [hs, ho]
  rfl

variable {c : Config} {pieces segW : ℕ}

/-- **Every pixel has a cell.** -/
theorem exists_cell (h : Divides c (c.width / c.gridX) (c.height / c.gridY) c.rowBlocks segW pieces)
    {x y : ℕ} (hx : x < c.width) (hy : y < c.height) :
    ∃ t : Cell c pieces segW, t.x = x ∧ t.y = y := by
  have hyf := mirror_lt c.flipY hy
  obtain ⟨gridRow, hrow, py', hpy', hye⟩ :=
    exists_digits (m := c.gridY) (n := c.height / c.gridY) (by rw [← h.height]; exact hyf)
  have hpy := mirror_lt (c.serpentine && gridRow % 2 = 1) hpy'
  obtain ⟨half, hhalf, row, hrow', hpye⟩ :=
    exists_digits (m := 2) (n := c.rowBlocks * c.scan) (by rw [← h.rows]; exact hpy)
  obtain ⟨block, hblock, addr, haddr, hrowe⟩ := exists_digits hrow'
  have hxf := mirror_lt (c.flipX != (c.serpentine && gridRow % 2 = 1)) hx
  obtain ⟨panel, hpanel, px, hpx, hxe⟩ :=
    exists_digits (m := c.gridX) (n := c.width / c.gridX) (by rw [← h.width]; exact hxf)
  obtain ⟨piece, hpiece, off, hoff, hpxe⟩ :=
    exists_digits (m := pieces) (n := segW) (by rw [← h.pieces]; exact hpx)
  refine ⟨⟨gridRow, panel, half, block, addr, piece, off, hrow, hpanel, hhalf, hblock, haddr,
    hpiece, hoff⟩, ?_, ?_⟩
  · show mirror _ c.width (panel * (c.width / c.gridX) + (piece * segW + off)) = x
    rw [← hpxe, ← hxe]
    exact mirror_mirror _ hx
  · show mirror c.flipY c.height (gridRow * (c.height / c.gridY) + mirror _ (c.height / c.gridY)
      (half * (c.rowBlocks * c.scan) + (block * c.scan + addr))) = y
    rw [← hrowe, ← hpye]
    unfold Cell.upside
    rw [mirror_mirror _ hpy', ← hye]
    exact mirror_mirror _ hy

section Located

variable {g : Driver} (hc : Accepted c) (hg : Derived c g)
  (h : Divides c (c.width / c.gridX) (c.height / c.gridY) c.rowBlocks segW pieces)
  (t : Cell c pieces segW)

include h in
theorem cell_y_inner : mirror t.upside (c.height / c.gridY) t.py < c.height / c.gridY :=
  mirror_lt _ (by rw [h.rows]; exact t.py_lt)

include h in
theorem cell_col_lt : t.col < c.width := by
  rw [h.width]
  exact digits_lt t.panel_lt (by rw [h.pieces]; exact t.px_lt)

include h in
theorem cell_x_lt : t.x < c.width := mirror_lt _ (cell_col_lt h t)

include h in
theorem cell_chainRow_lt :
    t.gridRow * (c.height / c.gridY) + mirror t.upside (c.height / c.gridY) t.py < c.height := by
  have hlt := digits_lt t.gridRow_lt (cell_y_inner h t)
  rwa [← h.height] at hlt

include h in
theorem cell_y_lt : t.y < c.height := mirror_lt _ (cell_chainRow_lt h t)

include h in
theorem cell_chainRow : mirror c.flipY c.height t.y =
    t.gridRow * (c.height / c.gridY) + mirror t.upside (c.height / c.gridY) t.py :=
  mirror_mirror _ (cell_chainRow_lt h t)

include hg h in
theorem gridRow_cell : gridRow g t.y = t.gridRow := by
  unfold gridRow chainRow
  rw [hg.active, hg.panelH]
  show mirror c.flipY c.height t.y / _ = _
  rw [cell_chainRow h t, digits_div (cell_y_inner h t)]

include hg h in
theorem upsideDown_cell : upsideDown g t.y = t.upside := by
  unfold upsideDown
  rw [gridRow_cell hg h t, hg.active]
  rfl

include hg h in
theorem panelRow_cell : panelRow g t.y = t.py := by
  unfold panelRow chainRow
  rw [upsideDown_cell hg h t, hg.active, hg.panelH]
  show mirror t.upside _ (mirror c.flipY c.height t.y % _) = _
  rw [cell_chainRow h t, digits_mod (cell_y_inner h t)]
  exact mirror_mirror _ (by rw [h.rows]; exact t.py_lt)

include hg h in
/-- Where `frame_locate_row` finds the row of a cell. -/
theorem frameLocateRow_cell : frameLocateRow g t.y =
    { endEntry := (t.addr * g.driveLen + g.driveLen : ℕ) - (1 : ℤ)
      before := t.gridRow * c.width * c.rowBlocks
      pos := t.block * c.width
      reverse := c.flipX != t.upside
      shift := t.half * 3 } := by
  have hhalf : g.panelH / 2 = c.rowBlocks * c.scan := by
    rw [hg.panelH, h.rows]
    omega
  have hrow := digits_lt t.block_lt t.addr_lt
  unfold frameLocateRow blockIndex
  rw [panelRow_cell hg h t, gridRow_cell hg h t, upsideDown_cell hg h t, hhalf, hg.scanRows,
    hg.active, hg.rowBlocks]
  unfold Cell.py
  rw [digits_mod hrow, digits_mod t.addr_lt, digits_div t.addr_lt, digits_div hrow]

include hg h in
theorem chainPosition_cell (hseg : g.segW = segW) : chainPosition g t.block t.col =
    t.panel * (pieces * c.rowBlocks * segW) + (t.seg * segW + t.segOff) := by
  have hpx : t.px < c.width / c.gridX := by
    rw [h.pieces]
    exact t.px_lt
  unfold chainPosition
  simp only [hg.active, hg.panelW, hg.rowBlocks, hseg]
  unfold Cell.col
  rw [digits_div hpx, digits_mod hpx]
  unfold Cell.px
  rw [digits_div t.off_lt, digits_mod t.off_lt]
  show t.panel * (c.width / c.gridX) * c.rowBlocks + t.seg * segW + t.segOff = _
  rw [h.pieces]
  ring

include hc hg h in
/-- The chain position `frame_row_set` computes is the cell's. -/
theorem framePos_cell (hseg : g.segW = segW) :
    framePos g (frameLocateRow g t.y) t.x = t.pos := by
  rw [frameLocateRow_cell hg h t]
  unfold framePos
  simp only [hg.active]
  have hcol : (if (c.flipX != t.upside) = true then c.width - 1 - t.x else t.x) = t.col :=
    mirror_mirror _ (cell_col_lt h t)
  rw [hcol, chainPos_exact hc hg t.block_lt (cell_col_lt h t), chainPosition_cell hg h t hseg]
  unfold Cell.pos Cell.index
  rw [h.width, h.pieces]
  ring

include h in
theorem panelIndex_cell : panelIndex c t.x t.y = t.index := by
  have hpx : t.px < c.width / c.gridX := by
    rw [h.pieces]
    exact t.px_lt
  have hrow : (if c.flipY then c.height - 1 - t.y else t.y) / (c.height / c.gridY) =
      t.gridRow := by
    show mirror c.flipY c.height t.y / _ = _
    rw [cell_chainRow h t, digits_div (cell_y_inner h t)]
  have hcol : t.x / (c.width / c.gridX) = mirror (c.flipX != t.upside) c.gridX t.panel := by
    have hx : t.x = mirror (c.flipX != t.upside) (c.gridX * (c.width / c.gridX)) t.col := by
      rw [← h.width]
      rfl
    rw [hx]
    unfold Cell.col
    rw [mirror_digits _ t.panel_lt hpx, digits_div (mirror_lt _ hpx)]
  unfold panelIndex
  simp only [hrow, hcol]
  show t.gridRow * c.gridX + mirror (c.flipX != t.upside) c.gridX (mirror _ c.gridX t.panel) = _
  rw [mirror_mirror _ t.panel_lt]
  rfl

end Located

/-! ### The bijection -/

/-- The slot of a cell, and when it has one. -/
theorem slot_cell (hc : Accepted c) (hrb : c.rowBlocks ≤ 255) {d : ℕ}
    (hd : d ≤ c.gridX * c.gridY)
    (h : Divides c (c.width / c.gridX) (c.height / c.gridY) c.rowBlocks segW pieces)
    (hseg : (hub75Geometry c).segW = segW) (t : Cell c pieces segW) :
    slot c d t.x t.y =
      if t.index < d then
        some ((t.addr * ((hub75Geometry c).drive d).driveLen +
          ((hub75Geometry c).drive d).driveLen : ℕ) - (1 : ℤ) - t.pos, t.half * 3)
      else none := by
  have hg := (geometry_derived hc hrb).drive d
  have hlen : ((hub75Geometry c).drive d).driveLen = d * (pieces * c.rowBlocks * segW) := by
    rw [(drive_exact hc (geometry_derived hc hrb) hd).2, h.pieces]
    ring
  have hpos := t.pos_lt_iff d
  rw [← hlen] at hpos
  unfold slot frameSlot
  rw [framePos_cell hc hg h t hseg, frameLocateRow_cell hg h t]
  by_cases hlt : t.index < d
  · rw [if_neg (by have := hpos.mpr hlt; omega), if_pos hlt]
  · rw [if_pos (by have := hpos.not.mpr hlt; omega), if_neg hlt]

/-- The piece of the chain, as the tables have it. -/
theorem geometry_segW (hc : Accepted c) (hrb : c.rowBlocks ≤ 255) : (hub75Geometry c).segW =
    if c.segment ≠ 0 then c.segment else c.width / c.gridX := by
  have hg := geometry_derived hc hrb
  unfold Driver.segW
  rw [hg.active, hg.panelW]

/-- **A slot is in the frame**, and its bits are those of one half. -/
theorem slot_bounds (hc : Accepted c) (hrb : c.rowBlocks ≤ 255) {d : ℕ}
    (hd : d ≤ c.gridX * c.gridY) {x y : ℕ} (hx : x < c.width) (hy : y < c.height) {s : ℤ × ℕ}
    (hs : slot c d x y = some s) :
    0 ≤ s.1 ∧ s.1 < (c.scan * ((hub75Geometry c).drive d).driveLen : ℕ) ∧
      (s.2 = 0 ∨ s.2 = 3) := by
  obtain ⟨pieces, h⟩ := hc.divides
  have hseg := geometry_segW hc hrb
  generalize (if c.segment ≠ 0 then c.segment else c.width / c.gridX) = segW at h hseg
  obtain ⟨t, rfl, rfl⟩ := exists_cell h hx hy
  have hlen : ((hub75Geometry c).drive d).driveLen = d * (pieces * c.rowBlocks * segW) := by
    rw [(drive_exact hc (geometry_derived hc hrb) hd).2, h.pieces]
    ring
  rw [slot_cell hc hrb hd h hseg] at hs
  split_ifs at hs with ht
  cases hs
  have hpos := (t.pos_lt_iff d).mpr ht
  rw [← hlen] at hpos
  generalize ((hub75Geometry c).drive d).driveLen = len at hpos
  have hlt := digits_lt (m := c.scan) (n := len) (b := len - 1 - t.pos) t.addr_lt (by omega)
  have hentry : ((t.addr * len + len : ℕ) - (1 : ℤ) - t.pos) =
      (t.addr * len + (len - 1 - t.pos) : ℕ) := by omega
  have hhalf := t.half_lt
  simp only [hentry]
  refine ⟨by omega, by exact_mod_cast hlt, by omega⟩

/-- The pixels of the panels driven have a slot. -/
theorem slot_isSome (hc : Accepted c) (hrb : c.rowBlocks ≤ 255) {d : ℕ}
    (hd : d ≤ c.gridX * c.gridY) {x y : ℕ} (hx : x < c.width) (hy : y < c.height) :
    (slot c d x y).isSome ↔ panelIndex c x y < d := by
  obtain ⟨pieces, h⟩ := hc.divides
  have hseg := geometry_segW hc hrb
  generalize (if c.segment ≠ 0 then c.segment else c.width / c.gridX) = segW at h hseg
  obtain ⟨t, rfl, rfl⟩ := exists_cell h hx hy
  rw [slot_cell hc hrb hd h hseg, panelIndex_cell h]
  split_ifs with ht <;> simp [ht]

/-- **Two pixels have two slots.** -/
theorem slot_inj (hc : Accepted c) (hrb : c.rowBlocks ≤ 255) {d : ℕ}
    (hd : d ≤ c.gridX * c.gridY) {x y x' y' : ℕ} (hx : x < c.width) (hy : y < c.height)
    (hx' : x' < c.width) (hy' : y' < c.height) {s : ℤ × ℕ} (hs : slot c d x y = some s)
    (hs' : slot c d x' y' = some s) : x = x' ∧ y = y' := by
  obtain ⟨pieces, h⟩ := hc.divides
  have hseg := geometry_segW hc hrb
  generalize (if c.segment ≠ 0 then c.segment else c.width / c.gridX) = segW at h hseg
  obtain ⟨t, rfl, rfl⟩ := exists_cell h hx hy
  obtain ⟨u, rfl, rfl⟩ := exists_cell h hx' hy'
  have hlen : ((hub75Geometry c).drive d).driveLen = d * (pieces * c.rowBlocks * segW) := by
    rw [(drive_exact hc (geometry_derived hc hrb) hd).2, h.pieces]
    ring
  rw [slot_cell hc hrb hd h hseg] at hs hs'
  split_ifs at hs hs' with ht hu
  have htp := (t.pos_lt_iff d).mpr ht
  have hup := (u.pos_lt_iff d).mpr hu
  rw [← hlen] at htp hup
  generalize ((hub75Geometry c).drive d).driveLen = len at hs hs' htp hup
  have hentry : ∀ v : Cell c pieces segW, v.pos < len →
      ((v.addr * len + len : ℕ) - (1 : ℤ) - v.pos) = (v.addr * len + (len - 1 - v.pos) : ℕ) := by
    intro v hv
    omega
  rw [← hs', Option.some.injEq, Prod.mk.injEq, hentry t htp, hentry u hup, Nat.cast_inj] at hs
  obtain ⟨haddr, hp⟩ := digits_inj (n := len) (by omega) (by omega) hs.1
  have heq : t = u := Cell.eq_of_pos (by omega) haddr (by omega)
  rw [heq]
  exact ⟨rfl, rfl⟩

/-- **The layout is a bijection** between the pixels of the first `d` panels and the entries
of the frame's two halves. -/
theorem hub75_layout_bijection (v : CStr) (c : Config)
    (hv : hub75ConfigParse v = .ok (some c)) (hrb : c.rowBlocks ≤ 255)
    (d : ℕ) (hd : 1 ≤ d ∧ d ≤ c.gridX * c.gridY) :
    (∀ x < c.width, ∀ y < c.height, (slot c d x y).isSome ↔ panelIndex c x y < d) ∧
      (∀ x < c.width, ∀ y < c.height, ∀ x' < c.width, ∀ y' < c.height, ∀ s,
        slot c d x y = some s → slot c d x' y' = some s → x = x' ∧ y = y') ∧
      (∀ x < c.width, ∀ y < c.height, ∀ s, slot c d x y = some s →
        0 ≤ s.1 ∧ s.1 < (c.scan * ((hub75Geometry c).drive d).driveLen : ℕ) ∧
          (s.2 = 0 ∨ s.2 = 3)) ∧
      ∀ entry < c.scan * ((hub75Geometry c).drive d).driveLen, ∀ shift, shift = 0 ∨ shift = 3 →
        ∃ x < c.width, ∃ y < c.height, slot c d x y = some ((entry : ℤ), shift) := by
  have hc := hub75ConfigParse_accepted hv
  obtain ⟨pieces, h⟩ := hc.divides
  have hseg := geometry_segW hc hrb
  have hbounds := fun x (hx : x < c.width) y (hy : y < c.height) s =>
    slot_bounds (s := s) hc hrb hd.2 hx hy
  generalize (if c.segment ≠ 0 then c.segment else c.width / c.gridX) = segW at h hseg
  have hinj := fun x (hx : x < c.width) y (hy : y < c.height) x' (hx' : x' < c.width) y'
    (hy' : y' < c.height) s => slot_inj (s := s) hc hrb hd.2 hx hy hx' hy'
  have hslot := slot_cell hc hrb hd.2 h hseg
  have hlen : ((hub75Geometry c).drive d).driveLen = d * (pieces * c.rowBlocks * segW) := by
    rw [(drive_exact hc (geometry_derived hc hrb) hd.2).2, h.pieces]
    ring
  generalize ((hub75Geometry c).drive d).driveLen = len at hslot hlen hbounds
  have hpos : ∀ t : Cell c pieces segW, t.index < d → t.pos < len := by
    intro t ht
    rw [hlen]
    exact (t.pos_lt_iff d).mpr ht
  have hentry : ∀ t : Cell c pieces segW, t.index < d →
      ((t.addr * len + len : ℕ) - (1 : ℤ) - t.pos) = (t.addr * len + (len - 1 - t.pos) : ℕ) := by
    intro t ht
    have := hpos t ht
    omega
  refine ⟨fun x hx y hy => slot_isSome hc hrb hd.2 hx hy, hinj, hbounds, ?_⟩
  · intro entry hentry' shift hshift
    obtain ⟨addr, haddr, rest, hrest, rfl⟩ := exists_digits hentry'
    have hle : len ≤ c.gridY * c.gridX * (pieces * c.rowBlocks * segW) := by
      rw [hlen, Nat.mul_comm c.gridY]
      exact Nat.mul_le_mul_right _ hd.2
    obtain ⟨t, hhalf, hta, htp⟩ : ∃ t : Cell c pieces segW,
        t.half = shift / 3 ∧ t.addr = addr ∧ t.pos = len - 1 - rest :=
      exists_cell_pos c (by omega) haddr (by omega)
    have ht : t.index < d := by
      rw [← t.pos_lt_iff d, ← hlen]
      omega
    refine ⟨t.x, cell_x_lt h t, t.y, cell_y_lt h t, ?_⟩
    rw [hslot, if_pos ht, hentry t ht, hta, htp, hhalf]
    congr 2
    · congr 1
      omega
    · omega

theorem hub75_layout_bijection_default :
    (slot hub75Default 1 63 31).isSome ↔ panelIndex hub75Default 63 31 < 1 :=
  (hub75_layout_bijection hub75DefaultText hub75Default rfl (by decide) 1 (by decide)).1
    63 (by decide) 31 (by decide)

end NodemFirmware.Hub75
