import NodemFirmware.Lib.Transition
import NodemFirmware.Lib.WindowRam
import NodemFirmware.Oled.Page

/-! # The display task

`display_task` pass by pass, with the panel's controller on the other side of the I2C bus.

* The controller is a RAM written through a window; `receive` is what a transfer does to it.
* The outcome of a transfer is an argument: `none` when it succeeded, or the controller it
  left behind when it failed, which may be any.
* A pass takes what its environment decides as a `PassInput`: the time, the config store it
  reads, every transfer's outcome, and for every page the frame it is built from.

`built` records what `build_page` last produced for each page; the program does not keep it. -/

namespace NodemFirmware.Oled

open Transition

abbrev Controller := WindowRam UInt8

/-! ### Transfers -/

/-- What a transfer's bytes do: data after the control byte 0x40, or the column and page
window; no other command touches the RAM. -/
def receive (ctl : Controller) : List UInt8 → Controller
  | [] => ctl
  | control :: rest =>
      if control = 0x40 then ctl.write rest
      else
        match rest with
        | [cmd, colLo, colHi, cmd', rowLo, rowHi] =>
            if cmd = 0x21 ∧ cmd' = 0x22 then
              ctl.setWindow colLo.toNat colHi.toNat rowLo.toNat rowHi.toNat
            else ctl
        | _ => ctl

/-- `i2c_write`: whether it failed, and the controller after it. -/
def i2cWrite (ctl : Controller) (bytes : List UInt8) (outcome : Option Controller) :
    Bool × Controller :=
  match outcome with
  | none => (false, receive ctl bytes)
  | some left => (true, left)

def writeCmd (ctl : Controller) (cmd : UInt8) (outcome : Option Controller) : Bool × Controller :=
  i2cWrite ctl [0x00, cmd] outcome

/-- The bytes of `ssd1306_init`, one transfer each. -/
def initCommands (size : Size) (config : Config) : List UInt8 :=
  [0xAE, 0x2E, 0xD5, 0x80, 0xA8, UInt8.ofNat (size.height - 1), 0xD3, UInt8.ofNat config.y, 0x40,
    0x8D, 0x14, 0x20, 0x00, if rotationFlipsCols config.rotation then 0xA0 else 0xA1,
    if rotationFlipsRows config.rotation then 0xC0 else 0xC8, 0xDA, size.comPins] ++
  (if size.iref then [0xAD, 0x30] else []) ++
  [0x81, 0xCF, 0xD9, 0xF1, 0xDB, 0x40, 0xA4, 0xA6, 0xAF]

/-- `ssd1306_init`: every command is sent, and any that failed makes it fail. -/
def ssd1306Init (ctl : Controller) (size : Size) (config : Config)
    (outcome : ℕ → Option Controller) : Bool × Controller :=
  (initCommands size config).zipIdx.foldl (fun st p =>
    let r := writeCmd st.2 p.1 (outcome p.2)
    (st.1 || r.1, r.2)) (false, ctl)

/-- `ssd1306_set_window`. -/
def ssd1306SetWindow (ctl : Controller) (col cols page pages : ℕ) (outcome : Option Controller) :
    Bool × Controller :=
  i2cWrite ctl [0x00, 0x21, UInt8.ofNat col, UInt8.ofNat (col + cols - 1), 0x22,
    UInt8.ofNat page, UInt8.ofNat (page + pages - 1)] outcome

/-- `ssd1306_write_page`: columns `first ..` of the page, the control byte put in front of
them for the transfer. -/
def ssd1306WritePage (buf : PageBuf) (ctl : Controller) (first len : ℕ)
    (outcome : Option Controller) : Bool × Controller × PageBuf :=
  let saved := buf first
  let buf' := Function.update buf first 0x40
  let r := i2cWrite ctl ((List.range (1 + len)).map fun i => buf' (first + i)) outcome
  (r.1, r.2, Function.update buf' first saved)

/-- What a read of the status byte gave: the byte, or a failure and the controller it left
behind, `none` if it left it as it was. -/
inductive StatusRead where
  | byte (status : UInt8)
  | failed (lost : Option Controller)

def StatusRead.ok : StatusRead → Bool
  | byte status => status &&& 0x40 = 0
  | failed _ => false

def StatusRead.after (ctl : Controller) : StatusRead → Controller
  | byte _ => ctl
  | failed lost => lost.getD ctl

/-! ### The task -/

structure Display where
  ctl : Controller
  pageBuf : PageBuf
  sent : ℕ → ℕ → UInt8
  sentValid : Bool
  fm : FrameMap
  oledGeneration : BitVec 32
  generation : BitVec 32
  config : Config
  size : Option Size
  enabled : Bool
  initialized : Bool
  statusCheck : Bool
  nextSetup : ℤ
  nextCheck : ℤ
  win : Window
  dirty : Bool
  built : ℕ → ℕ → UInt8

/-- What a pass meets. -/
structure PassInput where
  now : ℤ
  store : ConfigStore.Store
  saved : ℤ
  off : Option Controller
  init : ℕ → Option Controller
  clearWindow : Option Controller
  clearPage : ℕ → Option Controller
  probe : StatusRead
  check : StatusRead
  source : ℕ → Option (Nodem.Config × (ℕ → UInt8) × ℕ)
  flushWindow : ℕ → Option Controller
  flushPage : ℕ → Option Controller

/-- The pages of `ssd1306_clear`, until one fails. -/
def clearPages (inp : PassInput) : List ℕ → Controller × PageBuf → Bool × Controller × PageBuf
  | [], st => (false, st.1, st.2)
  | pg :: l, st =>
      let r := ssd1306WritePage st.2 st.1 0 ramCols (inp.clearPage pg)
      if r.1 then r else clearPages inp l r.2

/-- `ssd1306_clear`. -/
def ssd1306Clear (st : Display) (inp : PassInput) : Bool × Display :=
  let w := ssd1306SetWindow st.ctl 0 ramCols 0 (ramRows / 8) inp.clearWindow
  let buf := writeColumns st.pageBuf ramCols (fun _ => 0)
  let r := if w.1 then (true, w.2, buf) else clearPages inp (List.range (ramRows / 8)) (w.2, buf)
  (r.1, { st with ctl := r.2.1, pageBuf := r.2.2, sent := fun _ _ => 0, sentValid := !r.1 })

/-- `panel_setup`: the init, the clear if that worked, and the status probe if both did. -/
def panelSetup (st : Display) (size : Size) (inp : PassInput) : Bool × Display :=
  let i := ssd1306Init st.ctl size st.config inp.init
  let st := { st with ctl := i.2 }
  if i.1 then (true, { st with statusCheck := false })
  else
    let r := ssd1306Clear st inp
    if r.1 then (true, { r.2 with statusCheck := false })
    else (false, { r.2 with ctl := inp.probe.after r.2.ctl, statusCheck := inp.probe.ok })

/-- The start of a pass: a changed config is read, and the panel switched off. -/
def configure (st : Display) (inp : PassInput) : Display :=
  if st.oledGeneration = st.generation then st
  else
    let ctl := if st.initialized then (writeCmd st.ctl 0xAE inp.off).2 else st.ctl
    let read := (oledConfigRead inp.store inp.saved).1
    let st := { st with
      ctl := ctl
      generation := st.oledGeneration
      initialized := false
      sentValid := false
      enabled := read.isSome }
    match read with
    | none => st
    | some config =>
        match oledSizeFind config.width config.height with
        | none => { st with config := config, size := none, nextSetup := 0 }
        | some size => { st with
            config := config
            size := some size
            win := window config size
            nextSetup := 0 }

/-- An enabled panel that is not working is set up again when it is time. -/
def setup (st : Display) (inp : PassInput) : Display :=
  match st.size with
  | none => st
  | some size =>
      if st.enabled && !st.initialized && st.nextSetup ≤ inp.now then
        let r := panelSetup st size inp
        { r.2 with
          initialized := !r.1
          nextSetup := inp.now + 1000
          nextCheck := inp.now + 1000
          dirty := if r.1 then r.2.dirty else true }
      else st

/-- The health check, and whether it found the panel lost. -/
def healthCheck (st : Display) (inp : PassInput) : Bool × Display :=
  if st.initialized && st.statusCheck && st.nextCheck ≤ inp.now then
    let st := { st with ctl := inp.check.after st.ctl, nextCheck := inp.now + 1000 }
    if inp.check.ok then (false, st)
    else (true, { st with initialized := false, sentValid := false, nextSetup := inp.now })
  else (false, st)

/-! ### Flushing -/

/-- `while (first < cols && same(first)) first++`, with `n` columns left. -/
def firstChanged (same : ℕ → Bool) : ℕ → ℕ → ℕ
  | 0, first => first
  | n + 1, first => if same first then firstChanged same n (first + 1) else first

/-- `while (same(last)) last--`. -/
def lastChanged (same : ℕ → Bool) : ℕ → ℕ
  | 0 => 0
  | last + 1 => if same (last + 1) then lastChanged same last else last + 1

/-- Page `pg` built into `page_buf`: from the frame, or blank before there is one. -/
def buildInto (st : Display) (inp : PassInput) (pg : ℕ) : Display :=
  let st := match inp.source pg with
    | some (nc, fb, phase) =>
        let fm := framePrepare st.fm st.config nc
        { st with
          fm := fm
          pageBuf := buildPage fm nc fb phase st.win.skip st.win.cols pg st.pageBuf }
    | none => { st with pageBuf := writeColumns st.pageBuf st.win.cols (fun _ => 0) }
  { st with built := Function.update st.built pg fun c => st.pageBuf (1 + c) }

/-- Sends columns `first .. last` of page `pg` and notes them as sent. -/
def sendColumns (st : Display) (inp : PassInput) (pg first last : ℕ) : Bool × Display :=
  let len := last - first + 1
  let w := ssd1306SetWindow st.ctl (st.win.col + first) len pg 1 (inp.flushWindow pg)
  if w.1 then (true, { st with ctl := w.2 })
  else
    let r := ssd1306WritePage st.pageBuf w.2 first len (inp.flushPage pg)
    let st := { st with ctl := r.2.1, pageBuf := r.2.2 }
    if r.1 then (true, st)
    else (false, { st with
      sent := Function.update st.sent pg fun c =>
        if first ≤ c ∧ c < first + len then st.pageBuf (1 + c) else st.sent pg c })

/-- One page of a flush: built, compared with what was sent, and sent from its first to its
last changed column. -/
def flushOne (st : Display) (inp : PassInput) (pg : ℕ) : Bool × Display :=
  let st := buildInto st inp pg
  let same := fun c => decide (st.pageBuf (1 + c) = st.sent pg c)
  if st.sentValid then
    let first := firstChanged same st.win.cols 0
    if first = st.win.cols then (false, st)
    else sendColumns st inp pg first (lastChanged same (st.win.cols - 1))
  else sendColumns st inp pg 0 (st.win.cols - 1)

/-- The pages of a flush, until one fails. -/
def flushPages (inp : PassInput) : List ℕ → Display → Bool × Display
  | [], st => (false, st)
  | pg :: l, st =>
      let r := flushOne st inp pg
      if r.1 then r else flushPages inp l r.2

/-- A flush of the whole window. -/
def flushAll (st : Display) (inp : PassInput) : Bool × Display :=
  flushPages inp (if 0 < st.win.cols then List.range st.win.pages else [])
    { st with dirty := false }

/-- The end of a flush pass: a failed one sets the panel up again right away. -/
def flush (st : Display) (inp : PassInput) : Display :=
  let r := flushAll st inp
  if r.1 then { r.2 with initialized := false, sentValid := false, nextSetup := inp.now }
  else { r.2 with sentValid := if 0 < r.2.win.cols then true else r.2.sentValid }

/-- A pass up to the flush, and whether it gets to one. -/
def beforeFlush (st : Display) (inp : PassInput) : Bool × Display :=
  let r := healthCheck (setup (configure st inp) inp) inp
  (!r.1 && r.2.initialized && r.2.dirty, r.2)

/-- One pass of `display_task`'s loop. -/
def displayPass (st : Display) (inp : PassInput) : Display :=
  let r := beforeFlush st inp
  if r.1 then flush r.2 inp else r.2

/-- A config set (`oled_generation` bumped), a frame submitted, or a pass of the loop. -/
inductive DisplayEvent where
  | oledSet
  | submit
  | pass (inp : PassInput)

def DisplayEvent.apply (st : Display) : DisplayEvent → Display
  | oledSet => { st with oledGeneration := st.oledGeneration + 1 }
  | submit => { st with dirty := true }
  | pass inp => displayPass st inp

/-- The steps of the task and of what it shares. -/
def DisplayStep (st : Display) (e : DisplayEvent) (st' : Display) : Prop := st' = e.apply st

/-- The task before its first pass, with whatever is in the controller. -/
def Display.boot (ctl : Controller) (generation : BitVec 32) : Display where
  ctl := ctl
  pageBuf := fun _ => 0
  sent := fun _ _ => 0
  sentValid := false
  fm := .boot
  oledGeneration := generation
  generation := generation - 1
  config := ⟨0, 0, 0, 0, 0⟩
  size := none
  enabled := false
  initialized := false
  statusCheck := false
  nextSetup := 0
  nextCheck := 0
  win := ⟨0, 0, 0, 0⟩
  dirty := false
  built := fun _ _ => 0

end NodemFirmware.Oled
