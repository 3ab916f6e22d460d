import NodemFirmware.Config.Store

/-! # The "hub75" config value

`hub75_task.c`'s config: a display's geometry, protocol, two colours and brightness, parsed
from and printed to the one-line value that `config_store` keeps.

* Fields are taken off the front of the text by `nextField`, which is `none` where the C
  function returns false; a parser that fails leaves no config, one that succeeds returns
  the whole config it was handed, updated.
* `hub75ConfigParse` is the config (`1`), nothing for an empty value (`0`), or `-EINVAL`.
* The printers cut at their buffer's size, as `snprintf` does; `Config.text` and the other
  texts are what they print before that. -/

namespace NodemFirmware.Hub75

open CText

def maxPixels : ℕ := 16384
def brightnessMax : ℕ := 0x7FFF
def clockMinKhz : ℕ := 100
def clockMaxKhz : ℕ := 1000
def maxDepth : ℕ := 8
def depthDefault : ℕ := 4
def effectSpeedMax : ℕ := 32
def paletteMax : ℕ := 8
def scaleMax : ℕ := 32
def scaleDefault : ℕ := 8

/-! ### The data -/

inductive Chip where
  | shift
  | fm6126a
deriving DecidableEq, Repr

/-- `chip_names`; the first name of each chip is the one stored. -/
def chipNames : List (CStr × Chip) :=
  [(cs "shift", .shift), (cs "fm6126a", .fm6126a), (cs "fm6124", .fm6126a),
    (cs "icn2038s", .fm6126a)]

def chipName (chip : Chip) : CStr :=
  match chipNames.find? (fun n => n.2 = chip) with
  | some n => n.1
  | none => cs "?"

inductive Effect where
  | none
  | plasma
  | stripes
  | wave
  | scroll
  | cycle
  | fade
  | fire
  | sparkle
  | ripple
  | gradient
deriving DecidableEq, Repr

/-- A line of `effects`: the name, the effect and its default speed, 0 for a static one. -/
structure EffectEntry where
  name : CStr
  effect : Effect
  speed : ℕ
deriving DecidableEq, Repr

def effects : List EffectEntry :=
  [⟨cs "plasma", .plasma, 2⟩, ⟨cs "rainbow", .plasma, 2⟩, ⟨cs "stripes", .stripes, 4⟩,
    ⟨cs "wave", .wave, 4⟩, ⟨cs "scroll", .scroll, 3⟩, ⟨cs "cycle", .cycle, 3⟩,
    ⟨cs "fade", .fade, 2⟩, ⟨cs "fire", .fire, 4⟩, ⟨cs "sparkle", .sparkle, 4⟩,
    ⟨cs "ripple", .ripple, 4⟩, ⟨cs "gradient", .gradient, 0⟩]

/-- `struct hub75_color`; `palette` is the first `palette_len` entries of the array. -/
structure Color where
  effect : Effect
  speed : ℕ
  palette : List ℕ
  scale : ℕ
  rgb : ℕ
deriving DecidableEq, Repr

/-- One fixed colour, `0xRRGGBB`. -/
def Color.fixed (rgb : ℕ) : Color := ⟨.none, 0, [], 0, rgb⟩

def paletteLetters : CStr := cs "krgybmcw"

/-- `struct hub75_config`. -/
structure Config where
  width : ℕ
  height : ℕ
  flipX : Bool
  flipY : Bool
  gridX : ℕ
  gridY : ℕ
  serpentine : Bool
  scan : ℕ
  farFirst : Bool
  segment : ℕ
  zigzag : Bool
  clockKhz : ℕ
  chip : Chip
  depth : ℕ
  color : Color
  offColor : Color
  brightness : ℕ
deriving DecidableEq, Repr

/-- `hub75_default`: what every empty or missing field falls back to. -/
def hub75Default : Config where
  width := 64
  height := 32
  flipX := true
  flipY := false
  gridX := 1
  gridY := 1
  serpentine := false
  scan := 8
  farFirst := false
  segment := 0
  zigzag := false
  clockKhz := 500
  chip := .shift
  depth := depthDefault
  color := .fixed 0xff0000
  offColor := .fixed 0x000000
  brightness := 512

/-! ### Parsing -/

/-- `next_field`: the next field without the blanks around it, and what is left of the text
(`none`: `*s` is NULL).  An empty field when nothing was left; `none` if it does not fit. -/
def nextField (sep : UInt8) (outLen : ℕ) : Option CStr → Option (CStr × Option CStr)
  | none => some ([], none)
  | some s =>
      if (trim (cut sep s).1).length < outLen then some (trim (cut sep s).1, (cut sep s).2)
      else none

/-- `parse_num`: a plain decimal number in `lo .. hi`. -/
def parseNum (s : CStr) (lo hi : ℕ) : Option ℕ :=
  match strtol s with
  | some (v, []) => if (lo : ℤ) ≤ v ∧ v ≤ (hi : ℤ) then some v.toNat else none
  | _ => none

/-- The loop of `parse_layout`, with `have_x` and `have_y`. -/
def parseLayoutLoop (haveX haveY : Bool) : CStr → Config → Option Config
  | [], c => some c
  | ch :: s, c =>
      if (ch = 'l' ∨ ch = 'r') ∧ haveX = false then
        parseLayoutLoop true haveY s { c with flipX := ch = 'r' }
      else if (ch = 't' ∨ ch = 'b') ∧ haveY = false then
        parseLayoutLoop haveX true s { c with flipY := ch = 'b' }
      else none

def parseLayout (s : CStr) (c : Config) : Option Config :=
  parseLayoutLoop false false s { c with flipX := false, flipY := false }

/-- The end of `parse_grid`: the `i` and the check of the panel count. -/
def parseGridEnd (cols rows : ℤ) (s : CStr) (c : Config) : Option Config :=
  let c' := { c with
    gridX := cols.toNat
    gridY := rows.toNat
    serpentine := if s.head? = some ('i' : UInt8) then true else c.serpentine }
  let s' := if s.head? = some ('i' : UInt8) then s.tail else s
  if s' ≠ [] ∨ cols * rows > 16 then none else some c'

def parseGrid (s : CStr) (c : Config) : Option Config :=
  match strtol s with
  | none => none
  | some (cols, s) =>
      if cols < 1 ∨ cols > 16 then none
      else if s.head? = some ('x' : UInt8) then
        match strtol s.tail with
        | none => none
        | some (rows, s) => if rows < 1 ∨ rows > 16 then none else parseGridEnd cols rows s c
      else parseGridEnd cols 1 s c

/-- What the parsers do with a part that may be left out: parse it unless it is empty. -/
def parsePart (parse : CStr → Config → Option Config) (field : CStr) (c : Config) :
    Option Config :=
  if field = [] then some c else parse field c

def parseGeometry (s : CStr) (c : Config) : Option Config := do
  let (field, s) ← nextField ':' 16 (some s)
  let width ← parseNum field 1 maxPixels
  let (field, s) ← nextField ':' 16 s
  let height ← parseNum field 1 maxPixels
  let (field, s) ← nextField ':' 16 s
  let c ← parseLayout field c
  let (field, s) ← nextField ':' 16 s
  if s.isSome then none else
  let c ← parsePart parseGrid field { c with gridX := 1, gridY := 1, serpentine := false }
  some { c with width := width, height := height }

/-- The end of `parse_chain`: the `z`. -/
def parseChainEnd (farFirst : Bool) (segment : ℕ) (s : CStr) (c : Config) : Option Config :=
  let zigzag := s.head? = some ('z' : UInt8)
  if (if zigzag then s.tail else s) = [] then
    some { c with farFirst := farFirst, segment := segment, zigzag := zigzag }
  else none

def parseChain (s : CStr) (c : Config) : Option Config :=
  match s with
  | [] => none
  | ch :: s =>
      if ch ≠ 'n' ∧ ch ≠ 'f' then none
      else if s.head?.any (fun d => ('1' : UInt8) ≤ d ∧ d ≤ ('9' : UInt8)) then
        match strtol s with
        | none => none
        | some (v, s) => if v > 255 then none else parseChainEnd (ch = 'f') v.toNat s c
      else parseChainEnd (ch = 'f') 0 s c

/-- `presets`: the name, `scan` and `far_first`. -/
def presets : List (CStr × ℕ × Bool) :=
  [(cs "4s", 4, false), (cs "8s", 8, false), (cs "8sf", 8, true), (cs "16s", 16, false),
    (cs "32s", 32, false)]

def parseScan (field : CStr) (c : Config) : Option Config :=
  match parseNum field 2 32 with
  | some v => if v &&& (v - 1) ≠ 0 then none else some { c with scan := v }
  | none => none

def parseClock (field : CStr) (c : Config) : Option Config :=
  (parseNum field clockMinKhz clockMaxKhz).map (fun v => { c with clockKhz := v })

def parseChip (field : CStr) (c : Config) : Option Config :=
  (chipNames.find? (fun n => n.1 = field)).map (fun n => { c with chip := n.2 })

def parseDepth (field : CStr) (c : Config) : Option Config :=
  (parseNum field 1 maxDepth).map (fun v => { c with depth := v })

/-- The part of `parse_protocol` after the presets. -/
def parseProtocolParts (s : CStr) (c : Config) : Option Config := do
  let (field, s) ← nextField ':' 16 (some s)
  let c ← parsePart parseScan field c
  let (field, s) ← nextField ':' 16 s
  let c ← parsePart parseChain field c
  let (field, s) ← nextField ':' 16 s
  let c ← parsePart parseClock field c
  let (field, s) ← nextField ':' 16 s
  let c ← parsePart parseChip field c
  let (field, s) ← nextField ':' 16 s
  if s.isSome then none else parsePart parseDepth field c

def parseProtocol (s : CStr) (c : Config) : Option Config :=
  match presets.find? (fun p => p.1 = s) with
  | some p => some { c with
      scan := p.2.1
      farFirst := p.2.2
      segment := 0
      zigzag := false
      clockKhz := 500
      chip := .shift
      depth := depthDefault }
  | none => parseProtocolParts s c

def hexVal (ch : UInt8) : Option ℕ :=
  if ('0' : UInt8) ≤ ch ∧ ch ≤ ('9' : UInt8) then some (ch.toNat - 48)
  else if ('a' : UInt8) ≤ ch ∧ ch ≤ ('f' : UInt8) then some (ch.toNat - 97 + 10)
  else if ('A' : UInt8) ≤ ch ∧ ch ≤ ('F' : UInt8) then some (ch.toNat - 65 + 10)
  else none

/-- The loop of `parse_color` over the digits: `n` of them have been read into `v`. -/
def parseHex : CStr → ℕ → ℕ → Option ℕ
  | [], _, v => some v
  | ch :: s, n, v =>
      match hexVal ch with
      | some d => parseHex s (n + 1) (v ||| d <<< (20 - 4 * n))
      | none => none

/-- The speed of an effect from its field: none for a static one. -/
def parseSpeed (e : EffectEntry) (speed : CStr) : Option ℕ :=
  if speed = [] then some e.speed
  else if e.speed = 0 then none
  else parseNum speed 1 effectSpeedMax

def parsePalette (palette : CStr) : Option (List ℕ) :=
  palette.mapM (fun l => paletteLetters.idxOf? l)

def parseScale (scale : CStr) : Option ℕ :=
  if scale = [] then some scaleDefault else parseNum scale 1 scaleMax

/-- `parse_color` of an effect. -/
def parseEffect (s : CStr) : Option Color := do
  let (name, s) ← nextField ':' 12 (some s)
  let (speed, s) ← nextField ':' 4 s
  let (palette, s) ← nextField ':' (paletteMax + 1) s
  let (scale, s) ← nextField ':' 4 s
  if s.isSome then none else
  let e ← effects.find? (fun e => e.name = name)
  let speed ← parseSpeed e speed
  let palette ← parsePalette palette
  let scale ← parseScale scale
  some ⟨e.effect, speed, palette, scale, 0⟩

def parseColor (s : CStr) : Option Color :=
  match s with
  | [] => parseEffect []
  | ch :: digits =>
      if ch ≠ '#' then parseEffect (ch :: digits)
      else if (ch :: digits).length > 7 then none
      else (parseHex digits 0 0).map Color.fixed

def parseBrightness (field : CStr) (c : Config) : Option Config :=
  (parseNum field 0 brightnessMax).map (fun v => { c with brightness := v })

/-- The five fields of a value, onto the default. -/
def parseFields (s : CStr) : Option Config := do
  let (field, s) ← nextField ',' 32 (some s)
  let c ← parsePart parseGeometry field hub75Default
  let (field, s) ← nextField ',' 32 s
  let c ← parsePart parseProtocol field c
  let (field, s) ← nextField ',' 32 s
  let c ← parsePart (fun f c => (parseColor f).map (fun col => { c with color := col })) field c
  let (field, s) ← nextField ',' 32 s
  let c ← parsePart (fun f c => (parseColor f).map (fun col => { c with offColor := col })) field c
  let (field, s) ← nextField ',' 32 s
  let c ← parsePart parseBrightness field c
  if s.isSome then none else some c

/-- The panels split the display evenly, every panel's halves are whole row blocks, and the
chain's pieces split its width evenly. -/
def Config.Splits (c : Config) : Prop :=
  c.width * c.height ≤ maxPixels ∧ c.width % c.gridX = 0 ∧ c.height % c.gridY = 0 ∧
    c.height / c.gridY % (2 * c.scan) = 0 ∧
    (c.segment ≠ 0 → c.width / c.gridX % c.segment = 0)

instance (c : Config) : Decidable c.Splits := by
  unfold Config.Splits
  infer_instance

/-- `hub75_config_parse`: the config, nothing for an empty value, or `-EINVAL`. -/
def hub75ConfigParse (value : CStr) : Except ℤ (Option Config) :=
  if value.dropWhile isBlank = [] then .ok none
  else
    match parseFields (value.dropWhile isBlank) with
    | none => .error (-Errno.inval)
    | some c => if c.Splits then .ok (some c) else .error (-Errno.inval)

/-! ### Printing -/

def speedText (e : EffectEntry) (c : Color) : CStr :=
  if c.speed ≠ e.speed then fmtU c.speed else []

def paletteText (c : Color) : CStr := c.palette.map (fun i => paletteLetters.getD i 0)

def scaleText (c : Color) : CStr := if c.scale ≠ scaleDefault then fmtU c.scale else []

/-- What `format_color` prints for an effect, its parts as far as one is not its default. -/
def effectText (name speed palette scale : CStr) : CStr :=
  if scale ≠ [] then joinWith ':' [name, speed, palette, scale]
  else if palette ≠ [] then joinWith ':' [name, speed, palette]
  else if speed ≠ [] then joinWith ':' [name, speed]
  else joinWith ':' [name]

/-- What `format_color` prints, its `speed`, `palette` and `scale` from their buffers. -/
def colorText (c : Color) : CStr :=
  if c.effect = .none then '#' :: fmtHex 6 c.rgb
  else
    match effects.find? (fun e => e.effect = c.effect) with
    | some e =>
        effectText e.name (clip 4 (speedText e c)) (clip (paletteMax + 1) (paletteText c))
          (clip 4 (scaleText c))
    | none => []

def formatColor (c : Color) (bufLen : ℕ) : CStr := clip bufLen (colorText c)

def layoutText (c : Config) : CStr :=
  [if c.flipX then 'r' else 'l', if c.flipY then 'b' else 't']

def gridText (c : Config) : CStr :=
  fmtU c.gridX ++ cs "x" ++ fmtU c.gridY ++ if c.serpentine then cs "i" else []

def geometryText (c : Config) : CStr :=
  joinWith ':' [fmtU c.width, fmtU c.height, layoutText c, gridText c]

def chainText (c : Config) : CStr :=
  (if c.farFirst then 'f' else 'n') ::
    ((if c.segment ≠ 0 then fmtU c.segment else []) ++ if c.zigzag then cs "z" else [])

/-- The protocol, its chain part from its 8-byte buffer. -/
def protocolText (c : Config) : CStr :=
  joinWith ':' [fmtU c.scan, clip 8 (chainText c), fmtU c.clockKhz, chipName c.chip, fmtU c.depth]

/-- What `hub75_config_format` prints, the colours from their 32-byte buffers. -/
def Config.text (c : Config) : CStr :=
  joinWith ',' [geometryText c, protocolText c, formatColor c.color 32,
    formatColor c.offColor 32, fmtU c.brightness]

def hub75ConfigFormat (c : Config) (bufLen : ℕ) : CStr := clip bufLen c.text

/-! ### Storing -/

def hub75Key : CStr := cs "hub75"
def hub75ValueLen : ℕ := 128

/-- `HUB75_DEFAULT`: `hub75_default()` is the same, parsed. -/
def hub75DefaultText : CStr := cs "64:32:rt:1x1,8:n:500:shift:4,#ff0000,#000000,512"

example : hub75ConfigParse hub75DefaultText = .ok (some hub75Default) := rfl

open ConfigStore in
/-- `hub75_config_set`; `err` is what saving the value returns. -/
def hub75ConfigSet (st : Store) (value : CStr) (err : ℤ) : ℤ × Store :=
  match hub75ConfigParse value with
  | .error e => (e, st)
  | .ok (some c) => configSetStr st hub75Key (hub75ConfigFormat c hub75ValueLen) err
  | .ok none => configSetStr st hub75Key [] err

/-- `hub75_config_parse(value, out) > 0`. -/
def parsedConfig (value : CStr) : Option Config :=
  match hub75ConfigParse value with
  | .ok c => c
  | .error _ => none

open ConfigStore in
/-- `hub75_config_read`: the config, `none` if disabled.  A missing or malformed value is
replaced by the default; `err` is what saving that returns. -/
def hub75ConfigRead (st : Store) (err : ℤ) : Option Config × Store :=
  let value := configGetStr st.entries hub75Key hub75ValueLen [1]
  let reset := (parsedConfig hub75DefaultText,
    (configSetStr st hub75Key hub75DefaultText err).2)
  if value = [1] then reset
  else
    match hub75ConfigParse value with
    | .ok c => (c, st)
    | .error _ => reset

end NodemFirmware.Hub75
