import NodemFirmware.Lib.Text
import NodemFirmware.Lib.Transition

/-! # Uploads

`control.rs`'s `IControlLoader`: what nodem-rs calls while a package or a firmware image is
uploaded, over `pkg_store.c` and `ota_store.c`.

* Bytes are staged in `loader_buf` and flushed 512 at a time; `loader_mode` says which upload
  they belong to.
* `Platform` is what is outside of it: Zephyr's `flash_img` and the partitions.
* Every call's outcome is an argument.

The last fields of `Loader` record what was called and delivered; the program does not keep
them. -/

namespace NodemFirmware.Upload

open CText

abbrev Partition := ℕ → UInt8

/-- `flash_img`, and the sizes of the flash. -/
structure Platform where
  Ctx : Type
  Outcome : Type
  init : Outcome → Ctx → ℤ × Ctx
  bufferedWrite : Outcome → Ctx → Partition → List UInt8 → Bool → ℤ × Ctx × Partition
  bytesWritten : Ctx → ℕ
  secondarySize : ℕ
  secondaryPage : ℕ
  pkgSize : ℕ
  pkgPage : Option ℕ
  pkgWriteBlock : ℕ

/-- A flash call that failed, and the partition it left. -/
structure FlashFailure where
  err : ℤ
  left : Partition
  failed : err ≠ 0

/-- The outcomes of the calls an upload step makes. -/
structure FlashInput (p : Platform) where
  img : ℕ → p.Outcome
  opened : ℕ → ℤ
  failed : ℕ → Option FlashFailure
  read : ℤ
  upgrade : ℤ × Partition

inductive ControlMode where
  | lineMode
  | pkgMode
  | otaMode
deriving DecidableEq, Repr

inductive LoaderRet where
  | ok
  | pkgFailed
  | unsupportedMode
deriving DecidableEq, Repr

/-- A call of `ota_store_write` or the final flush, or of `pkg_store_write`. -/
structure WriteCall where
  offset : ℕ
  data : List UInt8
  err : ℤ
deriving DecidableEq, Repr

/-- What an image was armed with: the upload, and the slot when its header was checked. -/
structure Arming where
  announced : ℕ
  delivered : List UInt8
  calls : List WriteCall
  slot : Partition

structure Loader (p : Platform) where
  restart : Bool
  loaderMode : ControlMode
  loaderBuf : ℕ → UInt8
  loaderBufLen : ℕ
  pkgWritten : ℕ
  pkgReady : Bool
  otaFailed : Bool
  ctx : p.Ctx
  expectedLen : ℕ
  slot : Partition
  pkg : Partition
  returned : ℕ
  announced : ℕ
  delivered : List UInt8
  calls : List WriteCall
  requests : List Arming
  restarts : List (Option Arming)

variable {p : Platform}

def loaderChunkLen : ℕ := 512

/-- The bytes staged in `loader_buf`. -/
def Loader.staged (st : Loader p) : List UInt8 := (List.range st.loaderBufLen).map st.loaderBuf

/-- One byte into `loader_buf`. -/
def Loader.stage (st : Loader p) (byte : UInt8) : Loader p :=
  { st with
    loaderBuf := Function.update st.loaderBuf st.loaderBufLen byte
    loaderBufLen := st.loaderBufLen + 1
    delivered := st.delivered ++ [byte] }

/-! ### pkg_store.c -/

def pkgStoreMaxChunk : ℕ := 512

def alignUp (val align : ℕ) : ℕ := (val + align - 1) / align * align

/-- `pkg_store_erase`. -/
def pkgStoreErase (st : Loader p) (len : ℕ) (inp : FlashInput p) : ℤ × Loader p :=
  let eraseLen := alignUp len (p.pkgPage.getD 4096)
  if inp.opened 0 ≠ 0 then (inp.opened 0, st)
  else if p.pkgSize < eraseLen then (-Errno.nospc, st)
  else
    match inp.failed 0 with
    | some f => (f.err, { st with pkg := f.left })
    | none => (0, { st with pkg := fun i => if i < eraseLen then 0xFF else st.pkg i })

/-- Flash written: bits can only be cleared. -/
def program (flash : Partition) (offset : ℕ) (data : List UInt8) : Partition := fun i =>
  if offset ≤ i ∧ i < offset + data.length then flash i &&& data.getD (i - offset) 0xFF
  else flash i

/-- `pkg_store_write`, on the partition. -/
def pkgStoreWrite (pkg : Partition) (offset : ℕ) (data : List UInt8) (inp : FlashInput p)
    (k : ℕ) : ℤ × Partition :=
  if pkgStoreMaxChunk < data.length then (-Errno.inval, pkg)
  else if inp.opened k ≠ 0 then (inp.opened k, pkg)
  else
    match inp.failed k with
    | some f => (f.err, f.left)
    | none =>
        let alignedLen := alignUp data.length p.pkgWriteBlock
        (0, program pkg offset (data ++ List.replicate (alignedLen - data.length) 0xFF))

/-- A call of it with the staged bytes. -/
def pkgFlush (st : Loader p) (offset : ℕ) (inp : FlashInput p) (k : ℕ) : ℤ × Loader p :=
  let r := pkgStoreWrite st.pkg offset st.staged inp k
  (r.1, { st with pkg := r.2, calls := st.calls ++ [⟨offset, st.staged, r.1⟩] })

/-! ### Package uploads -/

def pkgStart (st : Loader p) (len : ℕ) (inp : FlashInput p) : ℕ × Loader p :=
  let st := { st with pkgWritten := 0 }
  if p.pkgSize < len then (0, st)
  else
    let r := pkgStoreErase st len inp
    if r.1 ≠ 0 then (0, r.2) else (p.pkgSize, r.2)

/-- The body of `pkg_data`'s loop, byte `i` of the call. -/
def pkgByte (st : Loader p) (byte : UInt8) (pos i : ℕ) (inp : FlashInput p) : Loader p :=
  let st := st.stage byte
  if st.loaderBufLen = loaderChunkLen then
    let offset := pos + i + 1 - loaderChunkLen
    { (pkgFlush st offset inp i).2 with
      loaderBufLen := 0, pkgWritten := offset + loaderChunkLen }
  else st

def pkgData (st : Loader p) (buf : List UInt8) (pos : ℕ) (inp : FlashInput p) : Loader p :=
  buf.zipIdx.foldl (fun st b => pkgByte st b.1 pos b.2 inp) st

def pkgEnd (st : Loader p) (inp : FlashInput p) : LoaderRet × Loader p :=
  if 0 < st.loaderBufLen then
    let r := pkgFlush st st.pkgWritten inp 0
    if r.1 ≠ 0 then (.pkgFailed, { r.2 with loaderBufLen := 0 })
    else (.ok, { r.2 with
      pkgWritten := r.2.pkgWritten + r.2.loaderBufLen, loaderBufLen := 0, pkgReady := true })
  else (.ok, { st with pkgReady := true })

/-! ### ota_store.c -/

/-- `OTA_IMAGE_MAGIC`. -/
def otaImageMagic : ℕ := 0x96f3b83d

/-- The first word of the slot. -/
def headerMagic (slot : Partition) : ℕ :=
  (slot 0).toNat + 2 ^ 8 * (slot 1).toNat + 2 ^ 16 * (slot 2).toNat + 2 ^ 24 * (slot 3).toNat

/-- `ota_store_start`. -/
def otaStoreStart (st : Loader p) (len : ℕ) (inp : FlashInput p) : ℤ × Loader p :=
  if p.secondarySize < len then (-Errno.nospc, st)
  else
    let r := p.init (inp.img 0) st.ctx
    if r.1 ≠ 0 then (r.1, { st with ctx := r.2 })
    else (0, { st with ctx := r.2, expectedLen := len })

/-- `flash_img_buffered_write`, recorded. -/
def imgWrite (st : Loader p) (data : List UInt8) (flush : Bool) (outcome : p.Outcome) :
    ℤ × Loader p :=
  let r := p.bufferedWrite outcome st.ctx st.slot data flush
  (r.1, { st with
    ctx := r.2.1, slot := r.2.2
    calls := st.calls ++ [⟨0, data, r.1⟩] })

/-- `ota_store_write`. -/
def otaStoreWrite (st : Loader p) (data : List UInt8) (outcome : p.Outcome) : ℤ × Loader p :=
  imgWrite st data false outcome

/-- `ota_store_finish`, and what it armed. -/
def otaStoreFinish (st : Loader p) (inp : FlashInput p) : ℤ × Option Arming × Loader p :=
  let r := imgWrite st [] true (inp.img 1)
  let st := r.2
  if r.1 ≠ 0 then (r.1, none, st)
  else if p.bytesWritten st.ctx ≠ st.expectedLen then (-Errno.io, none, st)
  else if inp.opened 0 ≠ 0 then (inp.opened 0, none, st)
  else if inp.read ≠ 0 then (inp.read, none, st)
  else if headerMagic st.slot ≠ otaImageMagic then (-Errno.inval, none, st)
  else
    let arming := ⟨st.announced, st.delivered, st.calls, st.slot⟩
    (inp.upgrade.1, some arming,
      { st with slot := inp.upgrade.2, requests := st.requests ++ [arming] })

/-! ### Firmware uploads -/

def otaStart (st : Loader p) (len : ℕ) (inp : FlashInput p) : ℕ × Loader p :=
  let st := { st with otaFailed := false }
  if p.secondarySize < len then (0, st)
  else
    let r := otaStoreStart st len inp
    if r.1 ≠ 0 then (0, r.2) else (p.secondarySize, r.2)

def otaFlush (st : Loader p) (outcome : p.Outcome) : Loader p :=
  if st.loaderBufLen = 0 ∨ st.otaFailed = true then { st with loaderBufLen := 0 }
  else
    let r := otaStoreWrite st st.staged outcome
    { r.2 with loaderBufLen := 0, otaFailed := if r.1 ≠ 0 then true else r.2.otaFailed }

def otaByte (st : Loader p) (byte : UInt8) (outcome : p.Outcome) : Loader p :=
  let st := st.stage byte
  if st.loaderBufLen = loaderChunkLen then otaFlush st outcome else st

def otaData (st : Loader p) (buf : List UInt8) (inp : FlashInput p) : Loader p :=
  buf.zipIdx.foldl (fun st b => otaByte st b.1 (inp.img b.2)) st

def otaEnd (st : Loader p) (inp : FlashInput p) : LoaderRet × Loader p :=
  let st := otaFlush st (inp.img 0)
  if st.otaFailed = true then (.pkgFailed, st)
  else
    let r := otaStoreFinish st inp
    if r.1 ≠ 0 then (.pkgFailed, r.2.2)
    else (.ok, { r.2.2 with restart := true, restarts := r.2.2.restarts ++ [r.2.1] })

/-! ### IControlLoader -/

def processLoaderStart (st : Loader p) (mode : ControlMode) (len : ℕ) (inp : FlashInput p) :
    ℕ × Loader p :=
  let st := { st with
    loaderMode := mode, loaderBufLen := 0, announced := len, delivered := [], calls := [] }
  let r := match mode with
    | .pkgMode => pkgStart st len inp
    | .otaMode => otaStart st len inp
    | .lineMode => (0, st)
  (r.1, { r.2 with returned := r.1 })

def processLoaderData (st : Loader p) (buf : List UInt8) (pos : ℕ) (inp : FlashInput p) :
    Loader p :=
  match st.loaderMode with
  | .pkgMode => pkgData st buf pos inp
  | .otaMode => otaData st buf inp
  | .lineMode => st

def processLoaderEnd (st : Loader p) (inp : FlashInput p) : LoaderRet × Loader p :=
  let mode := st.loaderMode
  let st := { st with loaderMode := .lineMode }
  match mode with
  | .pkgMode => pkgEnd st inp
  | .otaMode => otaEnd st inp
  | .lineMode => (.unsupportedMode, st)

/-- `take_restart`. -/
def takeRestart (st : Loader p) : Bool × Loader p := (st.restart, { st with restart := false })

/-- `take_pkg_ready`. -/
def takePkgReady (st : Loader p) : Bool × Loader p := (st.pkgReady, { st with pkgReady := false })

/-- What nodem-rs and the tasks call; `reset` is the "#reset" command. -/
inductive LoaderEvent (p : Platform) where
  | start (mode : ControlMode) (len : ℕ) (inp : FlashInput p)
  | data (buf : List UInt8) (pos : ℕ) (inp : FlashInput p)
  | finish (inp : FlashInput p)
  | reset
  | takeRestart
  | takePkgReady

def LoaderEvent.apply (st : Loader p) : LoaderEvent p → Loader p
  | start mode len inp => (processLoaderStart st mode len inp).2
  | data buf pos inp => processLoaderData st buf pos inp
  | finish inp => (processLoaderEnd st inp).2
  | reset => { st with restart := true }
  | takeRestart => (Upload.takeRestart st).2
  | takePkgReady => (Upload.takePkgReady st).2

/-- Data and the end only follow a start that did not return 0. -/
def LoaderEvent.Allowed (st : Loader p) : LoaderEvent p → Prop
  | data _ _ _ => st.returned ≠ 0
  | finish _ => st.returned ≠ 0
  | _ => True

instance (st : Loader p) : (e : LoaderEvent p) → Decidable (e.Allowed st)
  | .data _ _ _ => inferInstanceAs (Decidable (st.returned ≠ 0))
  | .finish _ => inferInstanceAs (Decidable (st.returned ≠ 0))
  | .start _ _ _ => .isTrue trivial
  | .reset => .isTrue trivial
  | .takeRestart => .isTrue trivial
  | .takePkgReady => .isTrue trivial

def LoaderStep (st : Loader p) (e : LoaderEvent p) (st' : Loader p) : Prop :=
  e.Allowed st ∧ st' = e.apply st

/-- `ZephyrControl::new`, and whatever is in flash. -/
def Loader.new (ctx : p.Ctx) (slot pkg : Partition) : Loader p where
  restart := false
  loaderMode := .lineMode
  loaderBuf := fun _ => 0
  loaderBufLen := 0
  pkgWritten := 0
  pkgReady := false
  otaFailed := false
  ctx := ctx
  expectedLen := 0
  slot := slot
  pkg := pkg
  returned := 0
  announced := 0
  delivered := []
  calls := []
  requests := []
  restarts := []

end NodemFirmware.Upload
