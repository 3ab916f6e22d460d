import NodemFirmware.Lib.MixedRadix
import NodemFirmware.Hub75.Accepted

/-! # The driver's geometry

What `hub75_start` and `hub75_alloc` derive from a config, in the types they store it in,
and the tables and indices built on it: `chain_build`'s chain positions, `frame_locate_row`
and `frame_row_set`.

* `u8` and `u16` are the conversions to `uint8_t` and `uint16_t`; every store that narrows
  goes through one.
* `hub75Geometry` is the state before `hub75_alloc`, `Driver.drive d` the state in which its
  loop tries `d` panels.

The parser bounds the pixels, not the rows of a panel, so `row_blocks` may not fit its type:
`geometry_exact_iff` says that this is the only way any of it goes wrong. -/

namespace NodemFirmware.Hub75

open CText MixedRadix

def u8 (n : ℕ) : ℕ := n % 2 ^ 8
def u16 (n : ℕ) : ℕ := n % 2 ^ 16

def idleSteps : ℕ := 2
def arenaSize : ℕ := 22 * 1024
def paintLutLen : ℕ := 256

/-- The running config and what is derived from it. -/
structure Driver where
  active : Config
  scanRows : ℕ
  panelW : ℕ
  panelH : ℕ
  rowBlocks : ℕ
  chainLen : ℕ
  totalPanels : ℕ
  depth : ℕ
  drivePanels : ℕ
  driveLen : ℕ
deriving DecidableEq, Repr

/-- The geometry `hub75_start` works out before it allocates. -/
def hub75Geometry (c : Config) : Driver :=
  let panelH := u16 (c.height / c.gridY)
  let rowBlocks := u8 (panelH / 2 / c.scan)
  { active := c
    scanRows := u8 c.scan
    panelW := u16 (c.width / c.gridX)
    panelH := panelH
    rowBlocks := rowBlocks
    chainLen := u16 (c.width * c.gridY * rowBlocks)
    totalPanels := u8 (c.gridX * c.gridY)
    depth := u8 c.depth
    drivePanels := 0
    driveLen := 0 }

def align8 (n : ℕ) : ℕ := (n + 7) / 8 * 8

/-- `hub75_alloc` trying `d` panels. -/
def Driver.drive (g : Driver) (d : ℕ) : Driver :=
  { g with drivePanels := u8 d, driveLen := u16 (d * g.panelW * g.rowBlocks) }

/-- `total`: the bytes of every buffer. -/
def Driver.bufferBytes (g : Driver) : ℕ :=
  2 * align8 (paintLutLen * 8) + 4 * align8 ((g.driveLen + idleSteps) * 8) +
    align8 (g.rowBlocks * g.active.width * 2) + align8 (g.active.width * 2) +
    align8 (g.scanRows * g.driveLen * g.depth)

/-- The loop of `hub75_alloc`: as many panels as fit, `none` if not even one does. -/
def hub75AllocLoop (g : Driver) : ℕ → Option Driver
  | 0 => none
  | d + 1 =>
      if (g.drive (d + 1)).bufferBytes > arenaSize then hub75AllocLoop g d
      else some (g.drive (d + 1))

def hub75Alloc (g : Driver) : Option Driver := hub75AllocLoop g g.totalPanels

/-! ### The chain and the frame -/

/-- The width of a piece of the chain. -/
def Driver.segW (g : Driver) : ℕ := if g.active.segment ≠ 0 then g.active.segment else g.panelW

/-- The value of `chain_build`'s entry for row block `b` and column `x`. -/
def chainPosition (g : Driver) (b x : ℕ) : ℕ :=
  let order := if g.active.farFirst then g.rowBlocks - 1 - b else b
  let panel := x / g.panelW
  let px := x % g.panelW
  let seg := px / g.segW * g.rowBlocks + order
  let off := px % g.segW
  panel * g.panelW * g.rowBlocks + seg * g.segW +
    (if g.active.zigzag && seg % 2 = 1 then g.segW - 1 - off else off)

/-- `chain_build`: `chain_pos`, row block by row block. -/
def chainBuild (g : Driver) : List ℕ :=
  (List.range g.rowBlocks).flatMap fun b =>
    (List.range g.active.width).map fun x => u16 (chainPosition g b x)

/-- `struct frame_row`; `pos` is the offset of its table in `chain_pos`. -/
structure FrameRow where
  endEntry : ℤ
  before : ℕ
  pos : ℕ
  reverse : Bool
  shift : ℕ
deriving DecidableEq, Repr

/-- `y` after the flip. -/
def chainRow (g : Driver) (y : ℕ) : ℕ := if g.active.flipY then g.active.height - 1 - y else y

def gridRow (g : Driver) (y : ℕ) : ℕ := chainRow g y / g.panelH

def upsideDown (g : Driver) (y : ℕ) : Bool := g.active.serpentine && gridRow g y % 2 = 1

/-- `py`: the row on its panel, counted as the panel is mounted. -/
def panelRow (g : Driver) (y : ℕ) : ℕ :=
  if upsideDown g y then g.panelH - 1 - chainRow g y % g.panelH else chainRow g y % g.panelH

/-- `block`. -/
def blockIndex (g : Driver) (y : ℕ) : ℕ := panelRow g y % (g.panelH / 2) / g.scanRows

def frameLocateRow (g : Driver) (y : ℕ) : FrameRow where
  endEntry := (panelRow g y % (g.panelH / 2) % g.scanRows * g.driveLen + g.driveLen : ℕ) - (1 : ℤ)
  before := gridRow g y * g.active.width * g.rowBlocks
  pos := blockIndex g y * g.active.width
  reverse := g.active.flipX != upsideDown g y
  shift := panelRow g y / (g.panelH / 2) * 3

/-- `pos` of `frame_row_set`: the chain position of pixel `x`. -/
def framePos (g : Driver) (r : FrameRow) (x : ℕ) : ℕ :=
  r.before + (chainBuild g).getD
    (r.pos + if r.reverse then g.active.width - 1 - x else x) 0

/-- The entry and the bit shift `frame_row_set` writes pixel `x` at, unless its panel is not
driven. -/
def frameSlot (g : Driver) (r : FrameRow) (x : ℕ) : Option (ℤ × ℕ) :=
  if framePos g r x ≥ g.driveLen then none else some (r.endEntry - framePos g r x, r.shift)

/-- The bytes of `frame`. -/
abbrev Frame := ℕ → UInt8

/-- One pass of `frame_row_set`'s loop: byte `k` of the entry gets bit plane `k`. -/
def frameRowSetByte (g : Driver) (frame : Frame) (r : FrameRow) (x : ℕ) (planes : BitVec 64)
    (k : ℕ) : Frame :=
  match frameSlot g r x with
  | none => frame
  | some (entry, shift) =>
      let i := (entry * g.depth).toNat + k
      let keep := ~~~((7 : UInt8) <<< UInt8.ofNat shift)
      let bits := UInt8.ofNat ((planes >>> (8 * k)).toNat % 8) <<< UInt8.ofNat shift
      Function.update frame i (frame i &&& keep ||| bits)

def frameRowSet (g : Driver) (frame : Frame) (r : FrameRow) (x : ℕ) (planes : BitVec 64) :
    Frame :=
  (List.range g.depth).foldl (fun f k => frameRowSetByte g f r x planes k) frame

/-! ### Exact quantities -/

/-- The exact number of row blocks. -/
def Config.rowBlocks (c : Config) : ℕ := c.height / c.gridY / (2 * c.scan)

theorem FieldsOk.scan_pos {c : Config} (hc : FieldsOk c) : 2 ≤ c.scan ∧ c.scan ≤ 32 := by
  have h := hc.scan
  simp only [List.mem_cons, List.not_mem_nil, or_false] at h
  omega

/-- How an accepted display divides: panels, row blocks and pieces, all exactly. -/
structure Divides (c : Config) (panelW panelH rb segW pieces : ℕ) : Prop where
  width : c.width = c.gridX * panelW
  height : c.height = c.gridY * panelH
  rows : panelH = 2 * (rb * c.scan)
  pieces : panelW = pieces * segW
  panelW_pos : 0 < panelW
  rb_pos : 0 < rb
  segW_pos : 0 < segW

theorem Accepted.divides {c : Config} (hc : Accepted c) :
    ∃ pieces, Divides c (c.width / c.gridX) (c.height / c.gridY) c.rowBlocks
      (if c.segment ≠ 0 then c.segment else c.width / c.gridX) pieces := by
  obtain ⟨-, hw, hh, hs, hseg⟩ := hc.splits
  have hx := hc.gridX
  have hy := hc.gridY
  have hscan := hc.scan_pos
  have hwm : c.width = c.gridX * (c.width / c.gridX) :=
    (Nat.mul_div_cancel' (Nat.dvd_of_mod_eq_zero hw)).symm
  have hhm : c.height = c.gridY * (c.height / c.gridY) :=
    (Nat.mul_div_cancel' (Nat.dvd_of_mod_eq_zero hh)).symm
  have hrm : c.height / c.gridY = 2 * c.scan * c.rowBlocks :=
    (Nat.mul_div_cancel' (Nat.dvd_of_mod_eq_zero hs)).symm
  have hpw : 0 < c.width / c.gridX := by
    rcases Nat.eq_zero_or_pos (c.width / c.gridX) with h0 | h0
    · have := hc.width
      rw [hwm, h0] at this
      omega
    · exact h0
  have hrb : 0 < c.rowBlocks := by
    rcases Nat.eq_zero_or_pos c.rowBlocks with h0 | h0
    · have := hc.height
      rw [hhm, hrm, h0] at this
      omega
    · exact h0
  have hrows : c.height / c.gridY = 2 * (c.rowBlocks * c.scan) := by
    rw [hrm]
    ring
  by_cases h0 : c.segment = 0
  · rw [if_neg (by simpa using h0)]
    exact ⟨1, hwm, hhm, hrows, (Nat.one_mul _).symm, hpw, hrb, hpw⟩
  · rw [if_pos h0]
    exact ⟨c.width / c.gridX / c.segment, hwm, hhm, hrows,
      (Nat.div_mul_cancel (Nat.dvd_of_mod_eq_zero (hseg h0))).symm, hpw, hrb,
      Nat.pos_of_ne_zero h0⟩

/-- The chain of the whole display, in exact numbers: twice `scan` rows share each entry. -/
theorem Accepted.chain_pixels {c : Config} (hc : Accepted c) :
    c.width * c.gridY * c.rowBlocks * (2 * c.scan) = c.width * c.height := by
  obtain ⟨_, hd⟩ := hc.divides
  calc c.width * c.gridY * c.rowBlocks * (2 * c.scan)
      = c.width * (c.gridY * (2 * (c.rowBlocks * c.scan))) := by ring
    _ = c.width * c.height := by rw [← hd.rows, ← hd.height]

theorem Accepted.chain_le {c : Config} (hc : Accepted c) :
    c.width * c.gridY * c.rowBlocks ≤ maxPixels := by
  have hp := hc.chain_pixels
  have hs := hc.scan_pos
  have hmax : c.width * c.height ≤ maxPixels := hc.splits.1
  calc c.width * c.gridY * c.rowBlocks
      ≤ c.width * c.gridY * c.rowBlocks * (2 * c.scan) := Nat.le_mul_of_pos_right _ (by omega)
    _ ≤ maxPixels := by rw [hp]; exact hmax

theorem u8_of_le {n : ℕ} (h : n ≤ 255) : u8 n = n := Nat.mod_eq_of_lt (by omega)

theorem u16_of_le {n : ℕ} (h : n ≤ maxPixels) : u16 n = n :=
  Nat.mod_eq_of_lt (by unfold maxPixels at h; omega)

/-- The derived quantities of an accepted config whose row blocks fit. -/
structure Derived (c : Config) (g : Driver) : Prop where
  active : g.active = c
  scanRows : g.scanRows = c.scan
  panelW : g.panelW = c.width / c.gridX
  panelH : g.panelH = c.height / c.gridY
  rowBlocks : g.rowBlocks = c.rowBlocks
  chainLen : g.chainLen = c.width * c.gridY * c.rowBlocks
  totalPanels : g.totalPanels = c.gridX * c.gridY
  depth : g.depth = c.depth

theorem geometry_derived {c : Config} (hc : Accepted c) (hrb : c.rowBlocks ≤ 255) :
    Derived c (hub75Geometry c) := by
  have hscan := hc.scan_pos
  have hdepth := hc.depth
  unfold maxDepth at hdepth
  have hw : c.width / c.gridX ≤ maxPixels := (Nat.div_le_self _ _).trans hc.width.2
  have hh : c.height / c.gridY ≤ maxPixels := (Nat.div_le_self _ _).trans hc.height.2
  have hblocks : c.height / c.gridY / 2 / c.scan = c.rowBlocks := Nat.div_div_eq_div_mul ..
  have hpanels := hc.panels
  constructor
  · rfl
  · exact u8_of_le (by omega)
  · exact u16_of_le hw
  · exact u16_of_le hh
  · simp only [hub75Geometry, u16_of_le hh, hblocks, u8_of_le hrb]
  · simp only [hub75Geometry, u16_of_le hh, hblocks, u8_of_le hrb]
    exact u16_of_le hc.chain_le
  · exact u8_of_le (by omega)
  · exact u8_of_le (by omega)

theorem Derived.drive {c : Config} {g : Driver} (h : Derived c g) (d : ℕ) :
    Derived c (g.drive d) :=
  { h with }

theorem drive_exact {c : Config} {g : Driver} (hc : Accepted c) (h : Derived c g) {d : ℕ}
    (hd : d ≤ c.gridX * c.gridY) :
    (g.drive d).drivePanels = d ∧
      (g.drive d).driveLen = d * (c.width / c.gridX * c.rowBlocks) := by
  obtain ⟨_, hdiv⟩ := hc.divides
  have hpanels := hc.panels
  have hlen : d * (c.width / c.gridX) * c.rowBlocks ≤ maxPixels := by
    calc d * (c.width / c.gridX) * c.rowBlocks
        ≤ c.gridX * c.gridY * (c.width / c.gridX) * c.rowBlocks := by gcongr
      _ = c.gridX * (c.width / c.gridX) * c.gridY * c.rowBlocks := by ring
      _ = c.width * c.gridY * c.rowBlocks := by rw [← hdiv.width]
      _ ≤ maxPixels := hc.chain_le
  refine ⟨u8_of_le (by omega), ?_⟩
  simp only [Driver.drive, h.panelW, h.rowBlocks, u16_of_le hlen]
  ring

/-- What `hub75_alloc` settles on is one of the panel counts its loop tries. -/
theorem hub75Alloc_eq_some {g g' : Driver} (h : hub75Alloc g = some g') :
    ∃ d, 1 ≤ d ∧ d ≤ g.totalPanels ∧ g' = g.drive d := by
  have hloop : ∀ n, hub75AllocLoop g n = some g' → ∃ d, 1 ≤ d ∧ d ≤ n ∧ g' = g.drive d := by
    intro n
    induction n with
    | zero => exact fun h => by cases h
    | succ n ih =>
        intro h
        unfold hub75AllocLoop at h
        split_ifs at h
        · obtain ⟨d, h1, h2, h3⟩ := ih h
          exact ⟨d, h1, h2.trans (Nat.le_succ n), h3⟩
        · cases h
          exact ⟨n + 1, Nat.succ_pos n, le_refl _, rfl⟩
  exact hloop _ h

/-- The chain position within a row of panels, from its digits: the panel, the piece with
its row block, and the column of the piece. -/
theorem chainPosition_lt {c : Config} {g : Driver} (hc : Accepted c) (h : Derived c g) {b x : ℕ}
    (hb : b < c.rowBlocks) (hx : x < c.width) : chainPosition g b x < c.width * c.rowBlocks := by
  obtain ⟨pieces, hdiv⟩ := hc.divides
  have hseg : g.segW = if c.segment ≠ 0 then c.segment else c.width / c.gridX := by
    unfold Driver.segW
    rw [h.active, h.panelW]
  rw [← hseg] at hdiv
  generalize hpw : c.width / c.gridX = pw at hdiv
  obtain ⟨panel, hpanel, px, hpx, hxe⟩ :=
    exists_digits (m := c.gridX) (n := pw) (v := x) (by rw [← hdiv.width]; exact hx)
  obtain ⟨piece, hpiece, off, hoff, hpxe⟩ :=
    exists_digits (m := pieces) (n := g.segW) (v := px) (by rw [← hdiv.pieces]; exact hpx)
  have horder : (if c.farFirst then c.rowBlocks - 1 - b else b) < c.rowBlocks := by
    split_ifs <;> omega
  unfold chainPosition
  simp only [h.active, h.panelW, h.rowBlocks, hpw]
  rw [hxe, digits_div hpx, digits_mod hpx, hpxe, digits_div hoff, digits_mod hoff]
  generalize (if c.farFirst then c.rowBlocks - 1 - b else b) = order at horder
  have hseg2 := digits_lt hpiece horder
  generalize piece * c.rowBlocks + order = seg at hseg2
  have hoff2 : (if c.zigzag && decide (seg % 2 = 1) then g.segW - 1 - off else off) < g.segW := by
    split_ifs <;> omega
  generalize (if c.zigzag && decide (seg % 2 = 1) then g.segW - 1 - off else off) = off' at hoff2
  have hin := digits_lt hseg2 hoff2
  have hin' : seg * g.segW + off' < pw * c.rowBlocks := by
    calc seg * g.segW + off' < pieces * c.rowBlocks * g.segW := hin
      _ = pw * c.rowBlocks := by rw [hdiv.pieces]; ring
  calc panel * pw * c.rowBlocks + seg * g.segW + off'
      = panel * (pw * c.rowBlocks) + (seg * g.segW + off') := by ring
    _ < c.gridX * (pw * c.rowBlocks) := digits_lt hpanel hin'
    _ = c.width * c.rowBlocks := by rw [hdiv.width]; ring

theorem chainBuild_getD (g : Driver) {b x : ℕ} (hb : b < g.rowBlocks) (hx : x < g.active.width) :
    (chainBuild g).getD (b * g.active.width + x) 0 = u16 (chainPosition g b x) := by
  exact getD_table (fun b x => u16 (chainPosition g b x)) 0 hb hx

theorem chainPos_exact {c : Config} {g : Driver} (hc : Accepted c) (h : Derived c g) {b x : ℕ}
    (hb : b < c.rowBlocks) (hx : x < c.width) :
    (chainBuild g).getD (b * c.width + x) 0 = chainPosition g b x := by
  have hlt := chainPosition_lt hc h hb hx
  have hle : c.width * c.rowBlocks ≤ maxPixels := by
    have hy := hc.gridY.1
    calc c.width * c.rowBlocks ≤ c.width * c.gridY * c.rowBlocks := by
          gcongr
          exact Nat.le_mul_of_pos_right _ hy
      _ ≤ maxPixels := hc.chain_le
  have hget := chainBuild_getD g (b := b) (x := x) (by rw [h.rowBlocks]; exact hb)
    (by rw [h.active]; exact hx)
  rw [h.active] at hget
  rw [hget, u16_of_le (by omega)]

theorem blockIndex_lt {c : Config} {g : Driver} (hc : Accepted c) (h : Derived c g) (y : ℕ) :
    blockIndex g y < c.rowBlocks := by
  obtain ⟨_, hdiv⟩ := hc.divides
  have hs := hc.scan_pos
  have hhalf : g.panelH / 2 = c.rowBlocks * c.scan := by
    rw [h.panelH, hdiv.rows]
    omega
  have hpos : 0 < c.rowBlocks * c.scan := Nat.mul_pos hdiv.rb_pos (by omega)
  unfold blockIndex
  rw [hhalf, h.scanRows, Nat.div_lt_iff_lt_mul (by omega)]
  exact Nat.mod_lt _ hpos

/-! ### What is exact -/

/-- Every quantity stored in a narrow type has its exact value, and every row of the display
is in a row block that has a table. -/
structure ExactGeometry (c : Config) : Prop where
  panelW : (hub75Geometry c).panelW = c.width / c.gridX
  panelH : (hub75Geometry c).panelH = c.height / c.gridY
  rowBlocks : (hub75Geometry c).rowBlocks = c.height / c.gridY / (2 * c.scan)
  totalPanels : (hub75Geometry c).totalPanels = c.gridX * c.gridY
  depth : (hub75Geometry c).depth = c.depth
  chainLen : (hub75Geometry c).chainLen =
    c.width * c.gridY * (c.height / c.gridY / (2 * c.scan))
  chainLen_pixels : (hub75Geometry c).chainLen * 2 * c.scan = c.width * c.height
  drive : ∀ d ≤ c.gridX * c.gridY, ((hub75Geometry c).drive d).drivePanels = d ∧
    ((hub75Geometry c).drive d).driveLen =
      d * (c.width / c.gridX * (c.height / c.gridY / (2 * c.scan)))
  chainPos : ∀ b < (hub75Geometry c).rowBlocks, ∀ x < c.width,
    (chainBuild (hub75Geometry c)).getD (b * c.width + x) 0 = chainPosition (hub75Geometry c) b x
  block : ∀ y < c.height, blockIndex (hub75Geometry c) y < (hub75Geometry c).rowBlocks

/-- **The derived geometry is exact** if and only if a panel's row blocks fit `uint8_t`. -/
theorem geometry_exact_iff (v : CStr) (c : Config) (hv : hub75ConfigParse v = .ok (some c)) :
    ExactGeometry c ↔ c.rowBlocks ≤ 255 := by
  have hc := hub75ConfigParse_accepted hv
  constructor
  · intro h
    have hlt : (hub75Geometry c).rowBlocks < 2 ^ 8 := Nat.mod_lt _ (by decide)
    rw [Config.rowBlocks, ← h.rowBlocks]
    omega
  · intro hrb
    have hg := geometry_derived hc hrb
    exact
      { panelW := hg.panelW
        panelH := hg.panelH
        rowBlocks := hg.rowBlocks
        totalPanels := hg.totalPanels
        depth := hg.depth
        chainLen := hg.chainLen
        chainLen_pixels := by rw [hg.chainLen, Nat.mul_assoc]; exact hc.chain_pixels
        drive := fun d hd => drive_exact hc hg hd
        chainPos := fun b hb x hx => chainPos_exact hc hg (by rw [hg.rowBlocks] at hb; exact hb) hx
        block := fun y _ => by rw [hg.rowBlocks]; exact blockIndex_lt hc hg y }

theorem geometry_exact_default : ExactGeometry hub75Default :=
  (geometry_exact_iff hub75DefaultText hub75Default rfl).mpr (by decide)

/-- A panel of 4096 row blocks: `row_blocks` is 0, and the display starts all the same. -/
theorem geometry_truncates :
    ∃ c, hub75ConfigParse (cs "1:16384:lt,2") = .ok (some c) ∧ ¬ ExactGeometry c ∧
      (hub75Geometry c).rowBlocks = 0 ∧
      (hub75Alloc (hub75Geometry c)).map (·.drivePanels) = some (hub75Geometry c).totalPanels := by
  refine ⟨{ hub75Default with width := 1, height := 16384, flipX := false, scan := 2 }, by rfl,
    ?_, by decide, by decide⟩
  intro h
  exact absurd h.rowBlocks (by decide)

end NodemFirmware.Hub75
