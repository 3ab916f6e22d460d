import NodemFirmware.Config.Store

/-! # The "oled" config

`display_task.c`'s panel config: the sizes it knows, the parser of the stored value, how each
rotation is split between the controller's flips and a transpose in software, and the window
in display RAM that the frame is drawn into.

`Window` is what the task keeps of a config while it draws: the columns of the frame before
`skip` are cut off at the edge of the RAM, the rest go to `col` and on. -/

namespace NodemFirmware.Oled

open CText

/-- `SSD1306_RAM_COLS`, `SSD1306_RAM_ROWS`. -/
def ramCols : ℕ := 128
def ramRows : ℕ := 64

/-- `struct oled_config`. -/
structure Config where
  width : ℕ
  height : ℕ
  x : ℕ
  y : ℕ
  rotation : ℕ
deriving DecidableEq, Repr

/-- `struct oled_size`. -/
structure Size where
  width : ℕ
  height : ℕ
  offsetX : ℕ
  comPins : UInt8
  iref : Bool
deriving DecidableEq, Repr

def oledSizes : List Size :=
  [⟨128, 64, 0, 0x12, false⟩, ⟨128, 32, 0, 0x02, false⟩, ⟨96, 16, 0, 0x02, false⟩,
    ⟨72, 40, 28, 0x12, true⟩, ⟨64, 48, 32, 0x12, false⟩, ⟨64, 32, 32, 0x12, false⟩]

def oledSizeFind (width height : ℕ) : Option Size :=
  oledSizes.find? (fun s => s.width = width ∧ s.height = height)

/-! ### Parsing -/

/-- `next_num_field`: a number, the blanks after it skipped, up to a `:` or the end. -/
def nextNumField : Option CStr → Option (ℤ × Option CStr)
  | none => none
  | some s =>
      match strtol s with
      | none => none
      | some (v, rest) =>
          match rest.dropWhile isBlank with
          | [] => some (v, none)
          | ch :: t => if ch = ':' then some (v, some t) else none

/-- The rotation field, 0 if there is none; nothing may follow it. -/
def parseRotation : Option CStr → Option ℤ
  | none => some 0
  | some s =>
      match nextNumField (some s) with
      | some (v, none) => some v
      | _ => none

/-- The numbers of an "ssd1306" value and their checks. -/
def parseNumbers (p : Option CStr) : Option Config := do
  let (width, p) ← nextNumField p
  let (height, p) ← nextNumField p
  let (x, p) ← nextNumField p
  let (y, p) ← nextNumField p
  let rotation ← parseRotation p
  if width < 0 ∨ width > 255 ∨ height < 0 ∨ height > 255 ∨
      oledSizeFind width.toNat height.toNat = none ∨ x < 0 ∨ x ≥ ramCols ∨ y < 0 ∨ y ≥ ramRows ∨
      (rotation ≠ 0 ∧ rotation ≠ 90 ∧ rotation ≠ 180 ∧ rotation ≠ 270) then none
  else some ⟨width.toNat, height.toNat, x.toNat, y.toNat, rotation.toNat⟩

/-- `oled_config_parse`: the config, nothing for any other protocol, or `-EINVAL`. -/
def oledConfigParse (s : CStr) : Except ℤ (Option Config) :=
  let s := s.dropWhile isBlank
  let proto := ((cut ':' s).1.reverse.dropWhile isBlank).reverse
  if proto ≠ cs "ssd1306" then .ok none
  else
    match parseNumbers (cut ':' s).2 with
    | some c => .ok (some c)
    | none => .error (-Errno.inval)

/-- A config as the parser makes it. -/
structure Config.Ok (c : Config) : Prop where
  size : ∃ s ∈ oledSizes, s.width = c.width ∧ s.height = c.height
  x : c.x < ramCols
  y : c.y < ramRows
  rotation : c.rotation ∈ [0, 90, 180, 270]

theorem parseNumbers_ok {p : Option CStr} {c : Config} (h : parseNumbers p = some c) : c.Ok := by
  simp only [parseNumbers, Option.bind_eq_bind, Option.bind_eq_some_iff, Prod.exists] at h
  obtain ⟨w, _, -, ht, _, -, x, _, -, y, _, -, r, -, h⟩ := h
  split_ifs at h with hbad
  cases h
  simp only [not_or, not_lt, not_and, not_le, ge_iff_le, gt_iff_lt] at hbad
  obtain ⟨-, -, -, -, hsize, hx0, hx, hy0, hy, hr⟩ := hbad
  obtain ⟨s, hs⟩ := Option.ne_none_iff_exists'.mp hsize
  refine ⟨⟨s, List.mem_of_find?_eq_some hs, ?_⟩, ?_, ?_, ?_⟩
  · simpa using List.find?_some hs
  · simp only
    unfold ramCols at hx ⊢
    omega
  · simp only
    unfold ramRows at hy ⊢
    omega
  · simp only [List.mem_cons, List.not_mem_nil, or_false]
    by_contra hne
    exact hr (by omega) (by omega) (by omega) (by omega)

/-- **What `oled_config_parse` accepts.** -/
theorem oledConfigParse_ok {s : CStr} {c : Config} (h : oledConfigParse s = .ok (some c)) :
    c.Ok := by
  unfold oledConfigParse at h
  simp only at h
  split_ifs at h
  · cases h
  · split at h
    · next hp =>
      cases h
      exact parseNumbers_ok hp
    · cases h

/-! ### The stored config -/

def oledKey : CStr := cs "oled"

def oledValueLen : ℕ := 128

def oledDefaultText : CStr := cs "ssd1306:128:64:0:0"

/-- `oled_config_parse(value, out) > 0`. -/
def parsedConfig (value : CStr) : Option Config :=
  match oledConfigParse value with
  | .ok c => c
  | .error _ => none

open ConfigStore in
/-- `oled_config_read`: the config, `none` if disabled.  A missing or malformed value is
replaced by the default; `err` is what saving that returns. -/
def oledConfigRead (st : Store) (err : ℤ) : Option Config × Store :=
  let value := configGetStr st.entries oledKey oledValueLen [1]
  let reset := (parsedConfig oledDefaultText, (configSetStr st oledKey oledDefaultText err).2)
  if value = [1] then reset
  else
    match oledConfigParse value with
    | .ok c => (c, st)
    | .error _ => reset

theorem parsedConfig_ok {value : CStr} {c : Config} (h : parsedConfig value = some c) : c.Ok := by
  unfold parsedConfig at h
  split at h
  · next hp =>
    subst h
    exact oledConfigParse_ok hp
  · cases h

/-- **Whatever is stored**, a config that is read is one the parser accepts. -/
theorem oledConfigRead_ok {st : ConfigStore.Store} {err : ℤ} {c : Config}
    (h : (oledConfigRead st err).1 = some c) : c.Ok := by
  have hdefault : parsedConfig oledDefaultText = some c → c.Ok := parsedConfig_ok
  unfold oledConfigRead at h
  simp only at h
  split_ifs at h
  · exact hdefault h
  · split at h
    · next hp =>
      simp only at h
      subst h
      exact oledConfigParse_ok hp
    · exact hdefault h

/-! ### Rotation -/

def rotationFlipsCols (rotation : ℕ) : Bool := rotation = 90 || rotation = 180

def rotationFlipsRows (rotation : ℕ) : Bool := rotation = 180 || rotation = 270

def rotationTransposes (rotation : ℕ) : Bool := rotation = 90 || rotation = 270

/-- Where on the glass column `px` of the frame shows, as the panel is mounted: the
controller's column flip runs the columns the other way. -/
def glassX (c : Config) (px : ℕ) : ℕ :=
  if rotationFlipsCols c.rotation then c.width - 1 - px else px

/-- Where row `py` of the frame shows. -/
def glassY (c : Config) (py : ℕ) : ℕ :=
  if rotationFlipsRows c.rotation then c.height - 1 - py else py

/-! ### The window -/

/-- The draw area in display RAM: its first column and their number, the frame's columns cut
off before it, and its pages. -/
structure Window where
  col : ℕ
  cols : ℕ
  skip : ℕ
  pages : ℕ
deriving DecidableEq, Repr

/-- The window of a config, as the task works it out. -/
def window (c : Config) (size : Size) : Window :=
  let start : ℤ :=
    if rotationFlipsCols c.rotation then (ramCols : ℤ) - (size.offsetX + c.x) - c.width
    else size.offsetX + c.x
  let skip := if start < 0 then -start else 0
  { col := (start + skip).toNat
    cols := (max (min (c.width : ℤ) (ramCols - start) - skip) 0).toNat
    skip := skip.toNat
    pages := c.height / 8 }

/-- A window inside the RAM and inside the frame of `c`. -/
structure Window.Fits (w : Window) (c : Config) : Prop where
  cols : w.cols = 0 ∨ w.col + w.cols ≤ ramCols
  pages : w.pages * 8 = c.height ∧ w.pages ≤ ramRows / 8
  frame : w.cols = 0 ∨ w.skip + w.cols ≤ c.width

theorem size_bounds : ∀ s ∈ oledSizes, 0 < s.width ∧ s.width ≤ ramCols ∧
    s.height ≤ ramRows ∧ s.height % 8 = 0 := by
  decide

theorem window_fits {c : Config} (hc : c.Ok) (size : Size) : (window c size).Fits c := by
  obtain ⟨s, hs, hw, hh⟩ := hc.size
  obtain ⟨h1, h2, h3, h4⟩ := size_bounds s hs
  rw [hw] at h1 h2
  rw [hh] at h3 h4
  have hcols : ((ramCols : ℕ) : ℤ) = 128 := rfl
  unfold ramCols at h2
  unfold ramRows at h3
  unfold window
  simp only [hcols]
  generalize (if rotationFlipsCols c.rotation then (128 : ℤ) - (size.offsetX + c.x) - c.width
    else size.offsetX + c.x) = start
  constructor
  · simp only
    unfold ramCols
    split_ifs <;> omega
  · simp only
    unfold ramRows
    omega
  · simp only
    split_ifs <;> omega

end NodemFirmware.Oled
