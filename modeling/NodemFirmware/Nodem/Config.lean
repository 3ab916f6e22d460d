import NodemFirmware.Lib.Text

/-! # The "nodem" config

`nodem_config.c` and `nodem_config.h`: the shape of the framebuffer and where each driver
shows it.

* `parse` takes the geometry and then the devices, each driver mapped at most once; it is
  `none` where the C function returns false.  Its `next_field` is false when nothing is left,
  unlike the one of the "hub75" value.
* `mapAxis` is `nodem_map_axis`, the axis mapping every driver shares. -/

namespace NodemFirmware.Nodem

open CText

def fbMaxSize : ℕ := 4096
def maxDimension : ℕ := 1024
def maxScale : ℕ := 16

/-- `struct nodem_mapping`. -/
@[ext] structure Mapping where
  present : Bool
  x : ℤ
  y : ℤ
  scaleX : ℕ
  scaleY : ℕ
deriving DecidableEq, Repr

/-- `struct nodem_config`. -/
structure Config where
  width : ℕ
  height : ℕ
  bitsPerPixel : ℕ
  oled : Mapping
  hub75 : Mapping
deriving DecidableEq, Repr

def Mapping.zero : Mapping := ⟨false, 0, 0, 0, 0⟩

/-- `nodem_config_buffer_len`: bytes, pixels packed without padding. -/
def Config.bufferLen (c : Config) : ℕ := (c.width * c.height * c.bitsPerPixel + 7) / 8

/-- The conversion to `int16_t` of a value clamped to its range. -/
def clamp16 (v : ℤ) : ℤ := max (-32768) (min v 32767)

/-- `nodem_map_axis`: the framebuffer coordinate driver pixel `d` of `size` reads. -/
def mapAxis (d size fbSize scale shift : ℤ) : ℤ :=
  let margin := max ((size - fbSize * scale).tdiv 2) 0
  let rel := d - margin
  let q := if rel ≥ 0 then rel.tdiv scale else -((-rel + scale - 1).tdiv scale)
  clamp16 (shift + q)

/-! ### Parsing -/

/-- `next_field`: none left, or one that does not fit, is `none`. -/
def nextField (sep : UInt8) (bufLen : ℕ) : Option CStr → Option (CStr × Option CStr)
  | none => none
  | some s =>
      if (trim (cut sep s).1).length < bufLen then some (trim (cut sep s).1, (cut sep s).2)
      else none

/-- `next_num`: the next field as a whole decimal number in `lo .. hi`. -/
def nextNum (lo hi : ℤ) (s : Option CStr) : Option (ℤ × Option CStr) :=
  match nextField ':' 16 s with
  | some (field, rest) =>
      match strtol field with
      | some (v, []) => if lo ≤ v ∧ v ≤ hi then some (v, rest) else none
      | _ => none
  | none => none

/-- The mapping of a device entry after its driver's name. -/
def parseMapping (s : Option CStr) : Option Mapping := do
  let (x, s) ← nextNum (-32768) 32767 s
  let (y, s) ← nextNum (-32768) 32767 s
  let (scaleX, s) ← nextNum 1 maxScale s
  let (scaleY, s) ← nextNum 1 maxScale s
  if s.isSome then none else
  some { present := true, x := x, y := y, scaleX := scaleX.toNat, scaleY := scaleY.toNat }

/-- `parse_device`. -/
def parseDevice (s : CStr) (c : Config) : Option Config :=
  match nextField ':' 8 (some s) with
  | none => none
  | some (driver, s) =>
      if driver = cs "oled" then
        if c.oled.present then none
        else (parseMapping s).map (fun m => { c with oled := m })
      else if driver = cs "hub75" then
        if c.hub75.present then none
        else (parseMapping s).map (fun m => { c with hub75 := m })
      else none

/-- `parse` of the geometry entry. -/
def parseGeometry (s : CStr) : Option Config := do
  let (width, s) ← nextNum 1 maxDimension (some s)
  let (height, s) ← nextNum 1 maxDimension s
  let (bpp, s) ← nextNum 1 1 s
  if s.isSome then none else
  let c : Config := ⟨width.toNat, height.toNat, bpp.toNat, .zero, .zero⟩
  if c.bufferLen > fbMaxSize then none else some c

/-- One pass of the loop over the device entries: an empty one is skipped. -/
def parseEntry (c : Config) (entry : CStr) : Option Config :=
  if (trim entry).length ≥ 128 then none
  else if trim entry = [] then some c
  else parseDevice (trim entry) c

/-- `parse`: the geometry, then every device entry. -/
def parse (s : CStr) : Option Config :=
  match fields ',' s with
  | [] => none
  | geometry :: devices =>
      if (trim geometry).length ≥ 128 then none
      else (parseGeometry (trim geometry)).bind (fun c => devices.foldlM parseEntry c)

/-! ### What a parsed config satisfies -/

/-- A mapping as `parse_device` makes it, or none. -/
def Mapping.Ok (m : Mapping) : Prop :=
  m = .zero ∨ (m.present = true ∧ (-32768 ≤ m.x ∧ m.x ≤ 32767) ∧ (-32768 ≤ m.y ∧ m.y ≤ 32767) ∧
    (1 ≤ m.scaleX ∧ m.scaleX ≤ maxScale) ∧ (1 ≤ m.scaleY ∧ m.scaleY ≤ maxScale))

structure Config.Ok (c : Config) : Prop where
  width : 1 ≤ c.width ∧ c.width ≤ maxDimension
  height : 1 ≤ c.height ∧ c.height ≤ maxDimension
  bitsPerPixel : c.bitsPerPixel = 1
  fits : c.bufferLen ≤ fbMaxSize
  oled : c.oled.Ok
  hub75 : c.hub75.Ok

theorem nextNum_eq_some {lo hi v : ℤ} {s t : Option CStr} (h : nextNum lo hi s = some (v, t)) :
    lo ≤ v ∧ v ≤ hi := by
  unfold nextNum at h
  split at h
  · split at h
    · split_ifs at h with hv
      cases h
      exact hv
    · cases h
  · cases h

theorem parseMapping_ok {s : Option CStr} {m : Mapping} (h : parseMapping s = some m) : m.Ok := by
  simp only [parseMapping, Option.bind_eq_bind, Option.bind_eq_some_iff, Prod.exists] at h
  obtain ⟨x, _, hx, y, _, hy, sx, _, hsx, sy, _, hsy, h⟩ := h
  split_ifs at h
  cases h
  have h1 := nextNum_eq_some hsx
  have h2 := nextNum_eq_some hsy
  exact Or.inr ⟨rfl, nextNum_eq_some hx, nextNum_eq_some hy, by simp only; omega,
    by simp only; omega⟩

theorem parseEntry_ok {c c' : Config} {entry : CStr} (hc : c.Ok)
    (h : parseEntry c entry = some c') : c'.Ok := by
  unfold parseEntry at h
  split_ifs at h
  · cases h
    exact hc
  · unfold parseDevice at h
    split at h
    · cases h
    · split_ifs at h
      · obtain ⟨m, hm, rfl⟩ := Option.map_eq_some_iff.mp h
        exact { hc with oled := parseMapping_ok hm }
      · obtain ⟨m, hm, rfl⟩ := Option.map_eq_some_iff.mp h
        exact { hc with hub75 := parseMapping_ok hm }

theorem parseGeometry_ok {s : CStr} {c : Config} (h : parseGeometry s = some c) : c.Ok := by
  simp only [parseGeometry, Option.bind_eq_bind, Option.bind_eq_some_iff, Prod.exists] at h
  obtain ⟨w, _, hw, ht, _, hh, bpp, _, hb, h⟩ := h
  split_ifs at h with h1 h2
  cases h
  have hw := nextNum_eq_some hw
  have hh := nextNum_eq_some hh
  have hb := nextNum_eq_some hb
  exact
    { width := by simp only; omega
      height := by simp only; omega
      bitsPerPixel := by simp only; omega
      fits := not_lt.mp h2
      oled := Or.inl rfl
      hub75 := Or.inl rfl }

/-- **What `parse` accepts.** -/
theorem parse_ok {s : CStr} {c : Config} (h : parse s = some c) : c.Ok := by
  have hloop : ∀ (l : List CStr) (c c' : Config), c.Ok → l.foldlM parseEntry c = some c' →
      c'.Ok := by
    intro l
    induction l with
    | nil =>
        intro c c' hc h
        cases h
        exact hc
    | cons e l ih =>
        intro c c' hc h
        rw [List.foldlM_cons] at h
        obtain ⟨c₁, h₁, h₂⟩ := Option.bind_eq_some_iff.mp h
        exact ih c₁ c' (parseEntry_ok hc h₁) h₂
  unfold parse at h
  split at h
  · cases h
  · split_ifs at h
    obtain ⟨c₀, h₀, h₁⟩ := Option.bind_eq_some_iff.mp h
    exact hloop _ _ _ (parseGeometry_ok h₀) h₁

/-- The framebuffer's bits fit 32-bit indices by far. -/
theorem Config.Ok.pixels_le {c : Config} (h : c.Ok) : c.width * c.height ≤ 32768 := by
  have hf := h.fits
  unfold Config.bufferLen at hf
  rw [h.bitsPerPixel, Nat.mul_one] at hf
  unfold fbMaxSize at hf
  omega

end NodemFirmware.Nodem
