import NodemFirmware.Nodem.Config
import NodemFirmware.Hub75.Paint
import NodemFirmware.Hub75.Arena

/-! # Drawing

`frame_draw_fallback` and `frame_draw_nodem` over the buffers of the arena, every index
checked, and the display's run: draws, single passes of `frame_row_set` and rendered shifts in
any order, as the interrupt may come in between.

`ArenaEvent.apply_ready` is the step and `hub75_arena_sound` the run: nothing the display does
leaves its region. -/

namespace NodemFirmware.Hub75

open Checked CText

/-- What `hub75_task_submit` left: the framebuffer, if any, and the config it is rendered
with. -/
structure Submitted where
  nodemFb : Option (ℕ → UInt8)
  nodem : Nodem.Config

/-- `nodem_hash`. -/
def nodemHash (fb : ℕ → UInt8) (nodem : Nodem.Config) : BitVec 32 :=
  let h := (List.range nodem.bufferLen).foldl
    (fun h i => (h ^^^ BitVec.ofNat 32 (fb i).toNat) * 16777619) 2166136261
  let geometry : List ℤ := [nodem.width, nodem.height, nodem.hub75.x, nodem.hub75.y,
    nodem.hub75.scaleX, nodem.hub75.scaleY]
  geometry.foldl (fun h v => (h ^^^ BitVec.ofInt 32 v) * 16777619) h

/-- Whether a framebuffer bit is set: row-major, MSB first. -/
def fbBit (fb : ℕ → UInt8) (bit : ℕ) : Bool :=
  fb (bit >>> 3) &&& ((0x80 : UInt8) >>> UInt8.ofNat (bit % 8)) ≠ 0

namespace Buffers

variable (g : Driver)

/-- `paint_of`, into the table of its slot. -/
def paintOf (c : Color) (slot : Fin 2) (fxFrame : ℕ) (m : Buffers) : Option (Paint × Buffers) := do
  let (p, lut) ← Hub75.paintOf g c fxFrame (m.paintLuts slot)
  some (p, { m with paintLuts := Function.update m.paintLuts slot lut })

/-- Sets pixel `x` of a row to the lit or the unlit colour. -/
def pixelSet (r : FrameRow) (on off : Paint) (x : ℕ) (lit : Bool) (m : Buffers) :
    Option Buffers := do
  let planes ← (if lit then paintAt g on (m.paintLuts litSlot) x
    else paintAt g off (m.paintLuts unlitSlot) x)
  m.frameRowSet g r x planes

/-- `frame_draw_fallback`. -/
def frameDrawFallback (fxFrame : ℕ) (phase : ℤ) (m : Buffers) : Option Buffers := do
  let w := g.active.width
  let h := g.active.height
  let (on, m) ← m.paintOf g g.active.color litSlot fxFrame
  let (off, m) ← m.paintOf g g.active.offColor unlitSlot fxFrame
  each h (fun y m => each w (fun x m =>
    let edge := x = 0 ∨ y = 0 ∨ x = w - 1 ∨ y = h - 1
    let lit := edge ∧ ((x + y + phase : ℤ)).tmod 2 = 0
    m.pixelSet g (frameLocateRow g y) (paintRow g on y) (paintRow g off y) x lit) m) m

/-- The loop of `frame_draw_nodem` that fills `map_cols`. -/
def mapColsFill (nodem : Nodem.Config) (m : Buffers) : Option Buffers :=
  each g.active.width (fun x m => do
    let fx := Nodem.mapAxis x g.active.width nodem.width nodem.hub75.scaleX nodem.hub75.x
    let mapCols ← m.mapCols.store x (if fx ≥ 0 ∧ fx < nodem.width then fx else -1)
    some { m with mapCols := mapCols }) m

/-- A row of `frame_draw_nodem` through the mapping. -/
def rowDraw (on off : Paint) (fb : ℕ → UInt8) (nodem : Nodem.Config) (y : ℕ) (m : Buffers) :
    Option Buffers :=
  let w := g.active.width
  let r := frameLocateRow g y
  let fy := Nodem.mapAxis y g.active.height nodem.height nodem.hub75.scaleY nodem.hub75.y
  if fy < 0 ∨ fy ≥ nodem.height then
    each w (fun x m => m.pixelSet g r on off x false) m
  else
    let rowBit := u32 (fy.toNat * nodem.width)
    each w (fun x m => do
      let fx ← m.mapCols.load x
      let lit := 0 ≤ fx && fbBit fb (u32 (rowBit + fx.toNat))
      m.pixelSet g r on off x lit) m

/-- A pass of the loop of `frame_draw_nodem` over the rows; false where the function returns,
with nothing submitted any more. -/
def nodemRow (on off : Paint) (s : Submitted) (y : ℕ) (m : Buffers) : Option (Bool × Buffers) :=
  match s.nodemFb, s.nodem.hub75.present with
  | some fb, true => do
      let m ← (if y = 0 then m.mapColsFill g s.nodem else some m)
      let m ← m.rowDraw g (paintRow g on y) (paintRow g off y) fb s.nodem y
      some (true, m)
  | _, _ => some (false, m)

/-- `frame_draw_nodem`, with what it returns and the hash it leaves; `first` and `rows y` are
what was submitted each time it takes the lock. -/
def frameDrawNodem (fxFrame : ℕ) (force : Bool) (first : Submitted) (rows : ℕ → Submitted)
    (drawnHash : BitVec 32) (m : Buffers) : Option (Bool × BitVec 32 × Buffers) := do
  let (on, m) ← m.paintOf g g.active.color litSlot fxFrame
  let (off, m) ← m.paintOf g g.active.offColor unlitSlot fxFrame
  match first.nodemFb, first.nodem.hub75.present with
  | some fb, true =>
      let hash := nodemHash fb first.nodem
      if !force && hash = drawnHash then some (true, drawnHash, m)
      else
        let (ok, m) ← each g.active.height (fun y (s : Bool × Buffers) =>
          if s.1 then s.2.nodemRow g on off (rows y) y else some s) (true, m)
        some (ok, hash, m)
  | _, _ => some (false, drawnHash, m)

end Buffers

/-- What happens to the arena while the display runs. -/
inductive ArenaEvent where
  | drawFallback (fxFrame : ℕ) (phase : ℤ)
  | drawNodem (fxFrame : ℕ) (force : Bool) (first : Submitted) (rows : ℕ → Submitted)
      (drawnHash : BitVec 32)
  | rowSet (y x : ℕ) (planes : BitVec 64)
  | rowSetByte (y x : ℕ) (planes : BitVec 64) (k : ℕ)
  | renderRow (buf : Fin 2) (seq : ℕ)

/-- Pixels are those of the display, passes those of the loop; `seq` is any number, taken round
the cycle as `hub75_isr` does. -/
def ArenaEvent.Valid (g : Driver) : ArenaEvent → Prop
  | drawFallback _ _ => True
  | drawNodem _ _ _ _ _ => True
  | rowSet y x _ => y < g.active.height ∧ x < g.active.width
  | rowSetByte y x _ k => y < g.active.height ∧ x < g.active.width ∧ k < g.depth
  | renderRow _ _ => True

def ArenaEvent.apply (g : Driver) (m : Buffers) : ArenaEvent → Option Buffers
  | drawFallback fxFrame phase => m.frameDrawFallback g fxFrame phase
  | drawNodem fxFrame force first rows drawnHash =>
      (m.frameDrawNodem g fxFrame force first rows drawnHash).map fun r => r.2.2
  | rowSet y x planes => m.frameRowSet g (frameLocateRow g y) x planes
  | rowSetByte y x planes k => do
      match ← m.frameEntry g (frameLocateRow g y) x with
      | none => some m
      | some e => m.entrySet (frameLocateRow g y) planes e k
  | renderRow buf seq => m.renderRow g buf (seq % u16 (g.scanRows * g.depth))

/-- A display from `hub75_start` on. -/
def arenaRun (g : Driver) (old : Buffers) (events : List ArenaEvent) : Option Buffers := do
  let m ← (g.buffers old).hub75Start g
  events.foldlM (ArenaEvent.apply g) m

/-! ### Drawing keeps the buffers -/

variable {c : Config} {g : Driver} {m : Buffers}

/-- Another table of the same size. -/
theorem Sized.withLut (h : Sized g m) {slot : Fin 2} {lut : Buffer (BitVec 64)}
    (hlut : lut.size = (m.paintLuts slot).size) :
    Sized g { m with paintLuts := Function.update m.paintLuts slot lut } := by
  refine { h with paintLuts := fun i => ?_ }
  rw [← h.paintLuts i]
  by_cases hi : i = slot
  · subst hi
    rw [← hlut]
    simp only [Function.update_self]
  · simp only [Function.update_of_ne hi]

theorem Ready.withLut (h : Ready g m) {slot : Fin 2} {lut : Buffer (BitVec 64)}
    (hlut : lut.size = (m.paintLuts slot).size) :
    Ready g { m with paintLuts := Function.update m.paintLuts slot lut } :=
  { h with toSized := h.toSized.withLut hlut }

theorem paintOf_ready (h : Ready g m) {col : Color} (hcol : ColorOk col) (slot : Fin 2)
    (fxFrame : ℕ) :
    Returns (m.paintOf g col slot fxFrame) fun r => r.1.n ≤ paletteMax ∧ Ready g r.2 := by
  unfold Buffers.paintOf
  refine (paintOf_returns hcol fxFrame (h.lut_le slot)).bind ?_
  rintro ⟨p, lut⟩ ⟨hn, hsize⟩
  exact .some ⟨hn, h.withLut hsize⟩

section Rows

variable (hr : Running c g) {on off : Paint} (hon : on.n ≤ paletteMax) (hoff : off.n ≤ paletteMax)
  {y : ℕ} (hy : y < g.active.height)

include hr hon hoff hy in
theorem pixelSet_ready (h : Ready g m) {x : ℕ} (hx : x < g.active.width) (lit : Bool) :
    Returns (m.pixelSet g (frameLocateRow g y) on off x lit) (Ready g) := by
  have hpaint : Returns (if lit then paintAt g on (m.paintLuts litSlot) x
      else paintAt g off (m.paintLuts unlitSlot) x) fun _ => True := by
    split_ifs
    · exact paintAt_returns hon (h.lut_le _) x
    · exact paintAt_returns hoff (h.lut_le _) x
  unfold Buffers.pixelSet
  refine hpaint.bind fun planes _ => ?_
  exact ⟨_, frameRowSet_checked hr h.built hx hy planes,
    h.withFrame (frameRowSet_lt hr hx hy h.bytes planes)⟩

/-- The part that depends on the row leaves the palette. -/
theorem paintRow_n (g : Driver) (p : Paint) (y : ℕ) : (paintRow g p y).n = p.n := rfl

theorem mapColsFill_ready (nodem : Nodem.Config) (h : Ready g m) :
    Returns (m.mapColsFill g nodem) (Ready g) := by
  unfold Buffers.mapColsFill
  refine Returns.each (fun _ => Ready g) h ?_
  intro x hx m hm
  have hin : x < m.mapCols.size := hx.trans_le hm.cols_le
  refine (Buffer.store_returns hin _).bind ?_
  rintro cols ⟨hsize, -, -⟩
  exact .some { hm with mapCols := hsize.trans hm.mapCols }

include hr hon hoff hy in
theorem rowDraw_ready (fb : ℕ → UInt8) (nodem : Nodem.Config) (h : Ready g m) :
    Returns (m.rowDraw g on off fb nodem y) (Ready g) := by
  unfold Buffers.rowDraw
  simp only
  split_ifs
  · refine Returns.each (fun _ => Ready g) h ?_
    intro x hx m hm
    exact pixelSet_ready hr hon hoff hy hm hx _
  · refine Returns.each (fun _ => Ready g) h ?_
    intro x hx m hm
    rw [Buffer.load_nat (hx.trans_le hm.cols_le)]
    exact pixelSet_ready hr hon hoff hy hm hx _

include hr hon hoff hy in
theorem nodemRow_ready (s : Submitted) (h : Ready g m) :
    Returns (m.nodemRow g on off s y) fun r => Ready g r.2 := by
  unfold Buffers.nodemRow
  split
  · have hfill : Returns (if y = 0 then m.mapColsFill g s.nodem else some m) (Ready g) := by
      split_ifs
      · exact mapColsFill_ready s.nodem h
      · exact .some h
    refine hfill.bind fun m hm => ?_
    rw [← paintRow_n g on y] at hon
    rw [← paintRow_n g off y] at hoff
    refine (rowDraw_ready hr hon hoff hy _ _ hm).bind fun m hm => ?_
    exact .some hm
  · exact .some h

end Rows

theorem frameDrawFallback_ready (hr : Running c g) (h : Ready g m) (fxFrame : ℕ) (phase : ℤ) :
    Returns (m.frameDrawFallback g fxFrame phase) (Ready g) := by
  have hc := hr.accepted
  rw [← hr.derived.active] at hc
  unfold Buffers.frameDrawFallback
  refine (paintOf_ready h hc.color litSlot fxFrame).bind ?_
  rintro ⟨on, m⟩ ⟨hon, h⟩
  refine (paintOf_ready h hc.offColor unlitSlot fxFrame).bind ?_
  rintro ⟨off, m⟩ ⟨hoff, h⟩
  refine Returns.each (fun _ => Ready g) h ?_
  intro y hy m hm
  refine Returns.each (fun _ => Ready g) hm ?_
  intro x hx m hm
  rw [← paintRow_n g on y] at hon
  rw [← paintRow_n g off y] at hoff
  exact pixelSet_ready hr hon hoff hy hm hx _

theorem frameDrawNodem_ready (hr : Running c g) (h : Ready g m) (fxFrame : ℕ) (force : Bool)
    (first : Submitted) (rows : ℕ → Submitted) (drawnHash : BitVec 32) :
    Returns (m.frameDrawNodem g fxFrame force first rows drawnHash) fun r => Ready g r.2.2 := by
  have hc := hr.accepted
  rw [← hr.derived.active] at hc
  unfold Buffers.frameDrawNodem
  refine (paintOf_ready h hc.color litSlot fxFrame).bind ?_
  rintro ⟨on, m⟩ ⟨hon, h⟩
  refine (paintOf_ready h hc.offColor unlitSlot fxFrame).bind ?_
  rintro ⟨off, m⟩ ⟨hoff, h⟩
  simp only
  split
  · split_ifs
    · exact .some h
    · have hrows : Returns (each g.active.height (fun y (s : Bool × Buffers) =>
          if s.1 then s.2.nodemRow g on off (rows y) y else some s) (true, m))
          fun s => Ready g s.2 := by
        refine Returns.each (fun _ (s : Bool × Buffers) => Ready g s.2) h ?_
        intro y hy s hs
        split_ifs
        · exact nodemRow_ready hr hon hoff hy (rows y) hs
        · exact .some hs
      refine hrows.bind ?_
      rintro ⟨ok, m⟩ hm
      exact .some hm
  · exact .some h

/-! ### The run -/

/-- **Steps:** whatever happens stays inside the buffers and keeps them ready. -/
theorem ArenaEvent.apply_ready (hr : Running c g) (h : Ready g m) {e : ArenaEvent}
    (he : e.Valid g) : Returns (e.apply g m) (Ready g) := by
  cases e with
  | drawFallback fxFrame phase => exact frameDrawFallback_ready hr h fxFrame phase
  | drawNodem fxFrame force first rows drawnHash =>
      obtain ⟨r, hr', hready⟩ := frameDrawNodem_ready hr h fxFrame force first rows drawnHash
      show Returns ((m.frameDrawNodem g fxFrame force first rows drawnHash).map _) _
      rw [hr']
      exact .some hready
  | rowSet y x planes =>
      exact ⟨_, frameRowSet_checked hr h.built he.2 he.1 planes,
        h.withFrame (frameRowSet_lt hr he.2 he.1 h.bytes planes)⟩
  | rowSetByte y x planes k =>
      obtain ⟨hy, hx, hk⟩ := he
      simp only [ArenaEvent.apply]
      rw [frameEntry_checked hr h.built hx]
      cases hs : frameSlot g (frameLocateRow g y) x with
      | none => exact .some h
      | some s =>
          refine ⟨_, entrySet_checked hr h.built hx hy hs planes hk, ?_⟩
          exact h.withFrame (frameRowSetByte_lt hr hx hy h.bytes planes k)
  | renderRow buf seq =>
      simp only [ArenaEvent.apply]
      rw [hr.runs.u16_cycle]
      have hcycle := hr.runs.cycle_bounds
      have hseq : seq % g.cycle < g.cycle := Nat.mod_lt _ (by omega)
      exact ⟨_, renderRow_checked hr.runs h buf hseq, h.withPair buf _⟩

/-- **Runs:** from `hub75_start` on nothing leaves its region. -/
theorem arenaRun_ready (hr : Running c g) (old : Buffers) {events : List ArenaEvent}
    (hvalid : ∀ e ∈ events, e.Valid g) : Returns (arenaRun g old events) (Ready g) := by
  unfold arenaRun
  refine (hub75Start_checked hr old 0).bind ?_
  rintro m ⟨hready, -, -⟩
  refine Returns.foldlM hready ?_
  intro e he m hm
  exact ArenaEvent.apply_ready hr hm (hvalid e he)

/-- **The arena is sound.**  `hub75_alloc` drives as many panels as fit, none if not even one
does; its regions are apart and inside the arena; and whatever the arena held before, nothing
that `hub75_start` and the display's draws and shifts access is outside of its region, nor is
any byte of the frame outside of `lut_px`. -/
theorem hub75_arena_sound (v : CStr) (c : Config) (hv : hub75ConfigParse v = .ok (some c))
    (hrb : c.rowBlocks ≤ 255) :
    (hub75Alloc (hub75Geometry c) = none ↔
      arenaSize < ((hub75Geometry c).drive 1).bufferBytes) ∧
    ∀ g, hub75Alloc (hub75Geometry c) = some g →
      (IsGreatest {d | 1 ≤ d ∧ d ≤ c.gridX * c.gridY ∧
          ((hub75Geometry c).drive d).bufferBytes ≤ arenaSize} g.drivePanels ∧
        g = (hub75Geometry c).drive g.drivePanels) ∧
      g.arena.regions.Pairwise Region.Apart ∧
      (∀ r ∈ g.arena.regions, r.stop ≤ arenaSize ∧
        ∀ width i, i < r.entries width → r.offset + (i + 1) * width ≤ r.stop) ∧
      ∀ (old : Buffers) (events : List ArenaEvent), (∀ e ∈ events, e.Valid g) →
        Returns (arenaRun g old events) fun m =>
          Sized g m ∧ ∀ i, (m.frame.data i).toNat < 64 := by
  have hc := hub75ConfigParse_accepted hv
  refine ⟨hub75Alloc_eq_none hc hrb, ?_⟩
  intro g hg
  have hgreatest := hub75Alloc_isGreatest hc hrb hg
  have hfits : g.bufferBytes ≤ arenaSize := by
    rw [hgreatest.2]
    exact hgreatest.1.1.2.2
  obtain ⟨hapart, hinside⟩ := arena_apart g
  refine ⟨hgreatest, hapart, ?_, ?_⟩
  · intro r hr
    exact ⟨(hinside r hr).trans hfits, fun _ _ hi => Region.entry_inside hi⟩
  · intro old events hvalid
    refine (arenaRun_ready ⟨hc, hrb, hg⟩ old hvalid).mono ?_
    exact fun m hm => ⟨hm.toSized, hm.bytes⟩

/-- The arena before anything was in it. -/
def arenaBlank : Buffers where
  paintLuts := fun _ => ⟨0, fun _ => 0⟩
  seqA := fun _ => ⟨0, fun _ => (0, 0)⟩
  seqB := fun _ => ⟨0, fun _ => (0, 0)⟩
  chainPos := ⟨0, fun _ => 0⟩
  mapCols := ⟨0, fun _ => 0⟩
  frame := ⟨0, fun _ => 0⟩

theorem hub75_arena_sound_default :
    hub75Alloc (hub75Geometry hub75Default) = some ((hub75Geometry hub75Default).drive 1) ∧
      Returns (arenaRun ((hub75Geometry hub75Default).drive 1) arenaBlank
        [.drawFallback 7 1, .rowSetByte 31 63 5 0, .renderRow 0 3]) fun m =>
          Sized ((hub75Geometry hub75Default).drive 1) m ∧ ∀ i, (m.frame.data i).toNat < 64 := by
  have halloc : hub75Alloc (hub75Geometry hub75Default) =
      some ((hub75Geometry hub75Default).drive 1) := by rfl
  obtain ⟨-, -, -, hrun⟩ :=
    (hub75_arena_sound hub75DefaultText hub75Default rfl (by decide)).2 _ halloc
  refine ⟨halloc, hrun arenaBlank _ ?_⟩
  intro e he
  simp only [List.mem_cons, List.not_mem_nil, or_false] at he
  rcases he with rfl | rfl | rfl
  · trivial
  · exact ⟨by decide, by decide, by decide⟩
  · trivial

end NodemFirmware.Hub75
