import NodemFirmware.Lib.Checked
import NodemFirmware.Hub75.Render

/-! # Colours and effects

What a configured colour paints: its table of colours for a frame (`paint_of`), the part of an
effect that depends on the row (`paint_row`) and the colour of a pixel (`effect_at`).

The tables lie in the arena and every access is checked: a lookup outside of a table or of a
palette does not return.  `paintOf_returns` and `effectAt_returns` say that none is made, for
any frame number, pixel and colour that the parser accepts. -/

namespace NodemFirmware.Hub75

open Checked

/-- The conversion of an `int` to `uint8_t`. -/
def u8z (v : ℤ) : ℕ := (v % 256).toNat

theorem u8z_lt (v : ℤ) : u8z v < 256 := by
  unfold u8z
  omega

theorem u8_lt (n : ℕ) : u8 n < 256 := Nat.mod_lt n (by decide)

/-! ### Colours on their way to the panel -/

def gamma8 (v : ℕ) : ℕ := u8 ((v * v + 254) / 255)

/-- `RGB24`. -/
def rgb24 (r g b : ℕ) : ℕ := r ||| g <<< 8 ||| b <<< 16

def colorRgb24 (rgb : ℕ) : ℕ :=
  rgb24 (gamma8 (u8 (rgb >>> 16))) (gamma8 (u8 (rgb >>> 8))) (gamma8 (u8 rgb))

/-- `spread`: bit `k` of every channel's level in byte `k`. -/
def spread (g : Driver) (rgb : ℕ) : BitVec 64 :=
  let top := 2 ^ g.depth - 1
  let level := fun ch => ((rgb >>> (8 * ch)) % 256 * top + 127) / 255
  (List.range g.depth).foldl (fun planes k =>
    let bits := (level 0 >>> k) % 2 ||| ((level 1 >>> k) % 2) <<< 1 ||| ((level 2 >>> k) % 2) <<< 2
    planes ||| BitVec.ofNat 64 bits <<< (8 * k)) 0

def sinQuarter : List ℤ :=
  [0, 3, 6, 9, 12, 16, 19, 22, 25, 28, 31, 34, 37, 40, 43, 46, 49,
    51, 54, 57, 60, 63, 65, 68, 71, 73, 76, 78, 81, 83, 85, 88, 90, 92,
    94, 96, 98, 100, 102, 104, 106, 107, 109, 111, 112, 113, 115, 116, 117, 118, 120,
    121, 122, 122, 123, 124, 125, 125, 126, 126, 126, 127, 127, 127, 127]

/-- `sin8`. -/
def sin8 (a : ℕ) : ℤ :=
  let i := a % 64
  match a / 64 % 4 with
  | 0 => sinQuarter.getD i 0
  | 1 => sinQuarter.getD (64 - i) 0
  | 2 => -sinQuarter.getD i 0
  | _ => -sinQuarter.getD (64 - i) 0

/-- `hash3`. -/
def hash3 (x y z : ℤ) : BitVec 32 :=
  let h := BitVec.ofInt 32 x * 0x9E3779B1 ^^^ BitVec.ofInt 32 y * 0x85EBCA77 ^^^
    BitVec.ofInt 32 z * 0xC2B2AE3D
  let h := (h ^^^ h >>> 16) * 0x7feb352d
  let h := (h ^^^ h >>> 15) * 0x846ca68b
  h ^^^ h >>> 16

/-! ### struct paint -/

def wheel : List ℕ := [1, 3, 2, 6, 4, 5]
def fireHeat : List ℕ := [0, 1, 3, 7]
def sparklePool : List ℕ := [1, 3, 2, 6, 4, 5, 7]

/-- `effect_palette`. -/
def effectPalette (c : Color) : List ℕ :=
  if c.palette.length ≠ 0 then c.palette
  else
    match c.effect with
    | .fire => fireHeat
    | .sparkle => sparklePool
    | _ => wheel

/-- `struct paint`, but for `lut`, which is passed along; `pal` is the array and its size. -/
structure Paint where
  effect : Effect
  uniform : BitVec 64
  t : ℕ
  pal : List ℕ
  zoom : ℕ
  sy : ℤ
  row : ℤ

def Paint.n (p : Paint) : ℕ := p.pal.length

/-- `blend`. -/
def blend (c0 c1 f level : ℕ) : ℕ :=
  let out := fun ch =>
    let a := if c0.testBit ch then 255 else 0
    let b := if c1.testBit ch then 255 else 0
    let v := (a * (256 - f) + b * f) >>> 8
    gamma8 (u8 ((v * level) >>> 7))
  rgb24 (out 0) (out 1) (out 2)

/-- `pick`. -/
def Paint.pick (p : Paint) (v : ℕ) : Option ℕ := do
  let pos := v * p.n
  let i := pos >>> 8
  let c0 ← p.pal[i]?
  let c1 ← p.pal[(i + 1) % p.n]?
  some (blend c0 c1 (pos % 256) 128)

/-- `pick_ramp`. -/
def Paint.pickRamp (p : Paint) (v : ℕ) : Option ℕ := do
  if p.n = 1 then
    let c0 ← p.pal[0]?
    some (blend c0 c0 0 128)
  else
    let pos := v * (p.n - 1)
    let i := pos >>> 8
    let c0 ← p.pal[i]?
    let c1 ← p.pal[min (i + 1) (p.n - 1)]?
    some (blend c0 c1 (pos % 256) 128)

def sparkleSteps : ℕ := 32

def sparkleLevel (step : ℕ) : ℕ := u8z ((sin8 (u8 (step * (128 / sparkleSteps))) * 128).tdiv 127)

/-- `paint_of`, and the table it leaves. -/
def paintOf (g : Driver) (c : Color) (fxFrame : ℕ) (lut : Buffer (BitVec 64)) :
    Option (Paint × Buffer (BitVec 64)) :=
  let p : Paint :=
    { effect := c.effect
      uniform := 0
      t := u32 (fxFrame * c.speed)
      pal := effectPalette c
      zoom := if c.scale ≠ 0 then u16 ((scaleDefault <<< 8) / c.scale) else 256
      sy := 0
      row := 0 }
  let ph := u8 p.t
  match c.effect with
  | .none => some ({ p with uniform := spread g (colorRgb24 c.rgb) }, lut)
  | .cycle => do
      let rgb ← p.pick ph
      some ({ p with uniform := spread g rgb }, lut)
  | .fade => do
      let pos := ph * p.n
      let c0 ← p.pal[u8 (pos >>> 8)]?
      let env := sin8 ((pos % 256) >>> 1)
      some ({ p with uniform := spread g (blend c0 c0 0 (u8z ((env * 128).tdiv 127))) }, lut)
  | .sparkle => do
      let lut ← each p.n (fun i lut => each sparkleSteps (fun step lut => do
        let c0 ← p.pal[i]?
        lut.store (i * sparkleSteps + step : ℕ)
          (spread g (blend c0 c0 0 (sparkleLevel step)))) lut) lut
      some (p, lut)
  | .fire => do
      let lut ← each 256 (fun v lut => do
        let rgb ← p.pickRamp v
        lut.store v (spread g rgb)) lut
      some (p, lut)
  | _ => do
      let lut ← each 256 (fun v lut => do
        let rgb ← p.pick v
        lut.store v (spread g rgb)) lut
      some (p, lut)

def Paint.zoomed (p : Paint) (v : ℤ) : ℤ := (v * p.zoom) >>> (8 : ℕ)

/-- `paint_row`. -/
def paintRow (g : Driver) (p : Paint) (y : ℕ) : Paint :=
  let ph := u8 p.t
  let sy := p.zoomed y
  { p with
    sy := sy
    row :=
      match p.effect with
      | .plasma => sin8 (u8z (sy * 7 - 2 * ph))
      | .fire => g.active.height - 1 - y
      | .ripple => p.zoomed |(y : ℤ) - g.active.height / 2|
      | _ => 0 }

/-- `effect_at`. -/
def effectAt (g : Driver) (p : Paint) (lut : Buffer (BitVec 64)) (x : ℕ) : Option (BitVec 64) :=
  let ph : ℤ := u8 p.t
  let sx := p.zoomed x
  let sy := p.sy
  match p.effect with
  | .plasma =>
      let v := sin8 (u8z (sx * 5 + ph)) + p.row + sin8 (u8z ((sx + sy) * 4 + ph))
      lut.load (u8z ((v >>> (1 : ℕ)) + ph))
  | .stripes => lut.load (u8z ((sx + sy) * 8 - ph))
  | .wave => lut.load (u8z (sy * 8 + (sin8 (u8z (sx * 8 + ph)) >>> (2 : ℕ))))
  | .scroll => lut.load (u8z (sx * 4 - ph))
  | .cycle => some p.uniform
  | .fade => some p.uniform
  | .gradient => lut.load (u8z ((sx + sy) * 4))
  | .ripple =>
      let dx := p.zoomed |(x : ℤ) - g.active.width / 2|
      let dy := p.row
      let d := max dx dy + (min dx dy * 3).tdiv 8
      lut.load (u8z (d * 12 - ph))
  | .fire =>
      let up := p.row
      let rise := p.t / 4
      let risen := (p.zoomed up + rise) % 2 ^ 32
      let cell := (hash3 (sx >>> (1 : ℕ)) (risen >>> (1 : ℕ)) 0).toNat % 256
      let flicker : ℤ := ((hash3 x up p.t).toNat % 64 : ℕ) - 32
      let heat := (cell * (g.active.height - up)).tdiv g.active.height + flicker +
        if up < 2 then 80 else 0
      lut.load (max 0 (min heat 255))
  | .sparkle =>
      let seed := hash3 sx sy 1
      let start := u32 (p.t + seed.toNat % 256)
      let r := hash3 sx sy (start / sparkleSteps + 2 : ℕ)
      let i := ((r.toNat >>> 8) % 256 * p.n) >>> 8
      lut.load (i * sparkleSteps + start % sparkleSteps : ℕ)
  | .none => some p.uniform

/-- `paint_at`. -/
def paintAt (g : Driver) (p : Paint) (lut : Buffer (BitVec 64)) (x : ℕ) : Option (BitVec 64) :=
  if p.effect = .none then some p.uniform else effectAt g p lut x

/-! ### Every lookup is in its table -/

variable {g : Driver} {c : Color} {p : Paint} {lut : Buffer (BitVec 64)}

theorem effectPalette_length (hc : ColorOk c) :
    0 < (effectPalette c).length ∧ (effectPalette c).length ≤ paletteMax := by
  unfold effectPalette
  split_ifs with hlen
  · refine ⟨Nat.pos_of_ne_zero hlen, ?_⟩
    cases hc with
    | fixed => exact absurd rfl hlen
    | effect _ _ hpal => exact hpal
  · cases c.effect <;> decide

theorem getElem?_returns {l : List ℕ} {i : ℕ} (h : i < l.length) :
    Returns l[i]? fun _ => True := ⟨l[i], List.getElem?_eq_getElem h, trivial⟩

/-- A value of 256 is scaled to below `n`. -/
theorem scaled_lt {v n : ℕ} (hv : v < 256) (hn : 0 < n) : (v * n) >>> 8 < n := by
  rw [Nat.shiftRight_eq_div_pow, Nat.div_lt_iff_lt_mul (by decide), Nat.mul_comm n]
  exact Nat.mul_lt_mul_of_pos_right hv hn

theorem pick_returns (hn : 0 < p.n) {v : ℕ} (hv : v < 256) : Returns (p.pick v) fun _ => True := by
  unfold Paint.pick
  refine (getElem?_returns (scaled_lt hv hn)).bind fun c0 _ => ?_
  refine (getElem?_returns (Nat.mod_lt _ hn)).bind fun c1 _ => ?_
  exact .some trivial

theorem pickRamp_returns (hn : 0 < p.n) {v : ℕ} (hv : v < 256) :
    Returns (p.pickRamp v) fun _ => True := by
  unfold Paint.pickRamp
  split_ifs with hone
  · exact (getElem?_returns hn).bind fun c0 _ => .some trivial
  · have hlt := scaled_lt hv (show 0 < p.n - 1 by omega)
    have h0 : (v * (p.n - 1)) >>> 8 < p.n := by omega
    have h1 : min ((v * (p.n - 1)) >>> 8 + 1) (p.n - 1) < p.n := by omega
    refine (getElem?_returns h0).bind fun c0 _ => ?_
    exact (getElem?_returns h1).bind fun c1 _ => .some trivial

/-- Filling the whole of a table. -/
theorem fill_returns {rgb : ℕ → Option ℕ} (hrgb : ∀ v < 256, Returns (rgb v) fun _ => True)
    (hlut : paintLutLen ≤ lut.size) :
    Returns (each 256 (fun v lut => do
      let rgb ← rgb v
      lut.store v (spread g rgb)) lut) fun lut' => lut'.size = lut.size := by
  refine Returns.each (fun _ (lut' : Buffer (BitVec 64)) => lut'.size = lut.size) rfl ?_
  intro v hv lut' hsize
  refine (hrgb v hv).bind fun c0 _ => ?_
  have hin : v < lut'.size := by
    rw [hsize]
    exact hv.trans_le hlut
  exact (Buffer.store_returns hin _).mono fun lut'' h => h.1.trans hsize

/-- **`paint_of` stays inside its table** and its palette. -/
theorem paintOf_returns (hc : ColorOk c) (fxFrame : ℕ) (hlut : paintLutLen ≤ lut.size) :
    Returns (paintOf g c fxFrame lut) fun r => r.1.n ≤ paletteMax ∧ r.2.size = lut.size := by
  obtain ⟨hpos, hmax⟩ := effectPalette_length hc
  unfold paintOf
  simp only
  split
  · exact .some ⟨hmax, rfl⟩
  · refine (pick_returns (by exact hpos) (u8_lt _)).bind fun rgb _ => ?_
    exact .some ⟨hmax, rfl⟩
  · have hi : u8 ((u8 (u32 (fxFrame * c.speed)) * (effectPalette c).length) >>> 8) <
        (effectPalette c).length :=
      (Nat.mod_le _ _).trans_lt (scaled_lt (u8_lt _) hpos)
    refine (getElem?_returns hi).bind fun c0 _ => ?_
    exact .some ⟨hmax, rfl⟩
  · -- i < n and step < 32: the table has room for 8 palette colours.
    have hloop : Returns (each (effectPalette c).length (fun i lut =>
        each sparkleSteps (fun step lut => do
          let c0 ← (effectPalette c)[i]?
          lut.store (i * sparkleSteps + step : ℕ)
            (spread g (blend c0 c0 0 (sparkleLevel step)))) lut) lut)
        fun lut' => lut'.size = lut.size := by
      refine Returns.each (fun _ (lut' : Buffer (BitVec 64)) => lut'.size = lut.size) rfl ?_
      intro i hi lut' hsize
      refine Returns.each (fun _ (lut'' : Buffer (BitVec 64)) => lut''.size = lut.size) hsize ?_
      intro step hstep lut'' hsize'
      refine (getElem?_returns hi).bind fun c0 _ => ?_
      have hin : i * sparkleSteps + step < lut''.size := by
        rw [hsize']
        refine lt_of_lt_of_le ?_ hlut
        unfold sparkleSteps at hstep ⊢
        unfold paletteMax at hmax
        unfold paintLutLen
        omega
      exact (Buffer.store_returns hin _).mono fun lut3 h => h.1.trans hsize'
    exact hloop.bind fun lut' hsize => .some ⟨hmax, hsize⟩
  · refine (fill_returns (fun v hv => pickRamp_returns (by exact hpos) hv) hlut).bind ?_
    exact fun lut' hsize => .some ⟨hmax, hsize⟩
  · refine (fill_returns (fun v hv => pick_returns (by exact hpos) hv) hlut).bind ?_
    exact fun lut' hsize => .some ⟨hmax, hsize⟩

/-- A lookup by a `uint8_t`. -/
theorem load_u8z (hlut : paintLutLen ≤ lut.size) (v : ℤ) :
    Returns (lut.load (u8z v)) fun _ => True := by
  rw [Buffer.load_nat ((u8z_lt v).trans_le hlut)]
  exact .some trivial

/-- **`effect_at` stays inside the table**, for every pixel and frame. -/
theorem effectAt_returns (hp : p.n ≤ paletteMax) (hlut : paintLutLen ≤ lut.size) (x : ℕ) :
    Returns (effectAt g p lut x) fun _ => True := by
  unfold effectAt
  cases p.effect with
  | none => exact .some trivial
  | plasma => exact load_u8z hlut _
  | stripes => exact load_u8z hlut _
  | wave => exact load_u8z hlut _
  | scroll => exact load_u8z hlut _
  | cycle => exact .some trivial
  | fade => exact .some trivial
  | gradient => exact load_u8z hlut _
  | ripple => exact load_u8z hlut _
  | fire =>
      simp only
      generalize Int.tdiv _ _ + _ + _ = heat
      have hnat : max 0 (min heat 255) = ((max 0 (min heat 255)).toNat : ℤ) := by omega
      have hlt : (max 0 (min heat 255)).toNat < 256 := by omega
      rw [hnat, Buffer.load_nat (hlt.trans_le hlut)]
      exact .some trivial
  | sparkle =>
      simp only
      generalize (hash3 _ _ _).toNat >>> 8 = r
      generalize u32 _ = start
      have hi : (r % 256 * p.n) >>> 8 < paletteMax := by
        unfold paletteMax at hp ⊢
        rw [Nat.shiftRight_eq_div_pow, Nat.div_lt_iff_lt_mul (by decide)]
        have hr := Nat.mod_lt r (show 0 < 256 by decide)
        calc r % 256 * p.n ≤ 255 * 8 := Nat.mul_le_mul (by omega) hp
          _ < 8 * 2 ^ 8 := by decide
      have hin : (r % 256 * p.n) >>> 8 * sparkleSteps + start % sparkleSteps < lut.size := by
        refine lt_of_lt_of_le ?_ hlut
        have hs := Nat.mod_lt start (show 0 < sparkleSteps by decide)
        unfold sparkleSteps at hs ⊢
        unfold paletteMax at hi
        unfold paintLutLen
        omega
      rw [Buffer.load_nat hin]
      exact .some trivial

theorem paintAt_returns (hp : p.n ≤ paletteMax) (hlut : paintLutLen ≤ lut.size) (x : ℕ) :
    Returns (paintAt g p lut x) fun _ => True := by
  unfold paintAt
  split_ifs
  · exact .some trivial
  · exact effectAt_returns hp hlut x

end NodemFirmware.Hub75
