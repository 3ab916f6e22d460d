import NodemFirmware.Config.Sound
import NodemFirmware.Hub75.RoundTrip
import NodemFirmware.Nodem.Stored
import NodemFirmware.Oled.Stored

/-! # The settings as calls of the config store

`display_oled_set`, `hub75_config_set` and `nodem_config_set` with their readers, and
`modem_ws_ping_interval_s`, as programs that several threads run on one config store: every call
of the store is a step of its own, and so is the increment of a generation.

Run alone they are the functions of the modules of each setting (`run_displayOledSet` and on). -/

namespace NodemFirmware.Control

open CText Calls ConfigStore

/-- The settings whose changes are counted. -/
inductive Output where
  | oled
  | hub75
  | nodem
deriving DecidableEq, Repr

/-- What the threads share: the config store, and `oled_generation`, `hub75_generation` and
`generation` of `nodem_config.c`. -/
structure Settings where
  store : Store
  generation : Output → BitVec 32

/-- A call of the store, or an increment of a generation. -/
inductive Op where
  | store (op : StoreOp)
  | changed (output : Output)
deriving DecidableEq, Repr

def Op.Res : Op → Type
  | store op => op.Res
  | changed _ => Unit

/-- One of them; `err` is what saving returns. -/
def Op.exec (err : ℤ) (op : Op) (s : Settings) : op.Res × Settings :=
  match op with
  | store op => ((op.exec err s.store).1, { s with store := (op.exec err s.store).2 })
  | changed output => ((), { s with
      generation := Function.update s.generation output (s.generation output + 1) })

abbrev Program := Prog Op Op.Res

def configGetStr (key : CStr) (bufLen : ℕ) (defaultVal : CStr) : Program CStr :=
  .one (Op.store (.getStr key bufLen defaultVal))

def configGetI32 (key : CStr) (defaultVal : BitVec 32) : Program (BitVec 32) :=
  .one (Op.store (.getI32 key defaultVal))

def configSetStr (key val : CStr) : Program ℤ := .one (Op.store (.setStr key val))

def configSetI32 (key : CStr) (val : BitVec 32) : Program ℤ := .one (Op.store (.setI32 key val))

/-- `config_list` into `bufLen` bytes: those that it counts. -/
def configList (bufLen : ℕ) : Program (List UInt8) := .one (Op.store (.list bufLen))

/-- `atomic_inc` of a generation. -/
def changed (output : Output) : Program Unit := .one (Op.changed output)

/-! ### Source -/

/-- What the three setters end with: the value is stored and, if that went well, announced. -/
def storeSetting (output : Output) (key val : CStr) : Program ℤ := do
  let err ← configSetStr key val
  if err = 0 then
    changed output
    pure err
  else pure err

/-- `display_oled_set`. -/
def displayOledSet (value : CStr) : Program ℤ :=
  match Oled.oledConfigParse value with
  | .error err => pure err
  | .ok (some c) => storeSetting .oled Oled.oledKey (Oled.oledConfigFormat c Oled.oledValueLen)
  | .ok none => storeSetting .oled Oled.oledKey value

/-- `hub75_config_set`, which also gives `hub75_wake`. -/
def hub75ConfigSet (value : CStr) : Program ℤ :=
  match Hub75.hub75ConfigParse value with
  | .error err => pure err
  | .ok (some c) =>
      storeSetting .hub75 Hub75.hub75Key (Hub75.hub75ConfigFormat c Hub75.hub75ValueLen)
  | .ok none => storeSetting .hub75 Hub75.hub75Key []

/-- `nodem_config_set`. -/
def nodemConfigSet (value : CStr) : Program ℤ :=
  let value := value.dropWhile isBlank
  match Nodem.parse (if value ≠ [] then value else Nodem.nodemDefault) with
  | none => pure (-Errno.inval)
  | some c => storeSetting .nodem Nodem.nodemKey (Nodem.format c Nodem.nodemValueLen).1

/-- `oled_config_read`: the config, `none` if disabled. -/
def oledConfigRead : Program (Option Oled.Config) := do
  let value ← configGetStr Oled.oledKey Oled.oledValueLen [1]
  let reset : Program (Option Oled.Config) := do
    let _ ← configSetStr Oled.oledKey Oled.oledDefaultText
    pure (Oled.parsedConfig Oled.oledDefaultText)
  if value = [1] then reset
  else
    match Oled.oledConfigParse value with
    | .ok c => pure c
    | .error _ => reset

/-- `hub75_config_read`. -/
def hub75ConfigRead : Program (Option Hub75.Config) := do
  let value ← configGetStr Hub75.hub75Key Hub75.hub75ValueLen [1]
  let reset : Program (Option Hub75.Config) := do
    let _ ← configSetStr Hub75.hub75Key Hub75.hub75DefaultText
    pure (Hub75.parsedConfig Hub75.hub75DefaultText)
  if value = [1] then reset
  else
    match Hub75.hub75ConfigParse value with
    | .ok c => pure c
    | .error _ => reset

/-- `nodem_config_get` into `out`. -/
def nodemConfigGet (out : Nodem.Config) : Program Nodem.Config := do
  let value ← configGetStr Nodem.nodemKey Nodem.nodemValueLen []
  match Nodem.parse value with
  | some c => pure c
  | none => do
      let _ ← configSetStr Nodem.nodemKey Nodem.nodemDefault
      pure ((Nodem.parse Nodem.nodemDefault).getD out)

def pingKey : CStr := cs "ping"
def modemWsPingDefaultS : ℕ := 60
def modemWsPingMaxS : ℕ := 3600

/-- `modem_ws_ping_interval_s`: a value out of range is replaced by the default. -/
def modemWsPingIntervalS : Program ℕ := do
  let secs ← configGetI32 pingKey 0
  if 1 ≤ secs.toInt ∧ secs.toInt ≤ modemWsPingMaxS then pure secs.toNat
  else
    let _ ← configSetI32 pingKey (BitVec.ofNat 32 modemWsPingDefaultS)
    pure modemWsPingDefaultS

/-! ### Run alone -/

variable (err : ℤ) (s : Settings)

@[simp] theorem run_configGetStr (key : CStr) (bufLen : ℕ) (d : CStr) :
    (configGetStr key bufLen d).run (Op.exec err) s =
      (ConfigStore.configGetStr s.store.entries key bufLen d, s) := rfl

@[simp] theorem run_configGetI32 (key : CStr) (d : BitVec 32) :
    (configGetI32 key d).run (Op.exec err) s =
      (ConfigStore.configGetI32 s.store.entries key d, s) := rfl

@[simp] theorem run_configSetStr (key val : CStr) :
    (configSetStr key val).run (Op.exec err) s =
      ((ConfigStore.configSetStr s.store key val err).1,
        { s with store := (ConfigStore.configSetStr s.store key val err).2 }) := rfl

@[simp] theorem run_configSetI32 (key : CStr) (val : BitVec 32) :
    (configSetI32 key val).run (Op.exec err) s =
      ((ConfigStore.configSetI32 s.store key val err).1,
        { s with store := (ConfigStore.configSetI32 s.store key val err).2 }) := rfl

@[simp] theorem run_changed (output : Output) :
    (changed output).run (Op.exec err) s = ((), { s with
      generation := Function.update s.generation output (s.generation output + 1) }) := rfl

/-- A setting stored: the store's result, and the generation if that is 0. -/
theorem run_storeSetting (output : Output) (key val : CStr) :
    let r := ConfigStore.configSetStr s.store key val err
    (storeSetting output key val).run (Op.exec err) s =
      (r.1, ⟨r.2, if r.1 = 0
        then Function.update s.generation output (s.generation output + 1) else s.generation⟩) := by
  intro r
  unfold storeSetting
  rw [Prog.run_bind, run_configSetStr]
  dsimp only
  split_ifs <;> rfl

theorem run_displayOledSet (value : CStr) :
    let r := Oled.displayOledSet s.store (s.generation .oled) value err
    (displayOledSet value).run (Op.exec err) s =
      (r.1, ⟨r.2.1, Function.update s.generation .oled r.2.2⟩) := by
  unfold displayOledSet Oled.displayOledSet
  cases hparse : Oled.oledConfigParse value with
  | error e => simp
  | ok parsed => cases parsed <;> simp only [run_storeSetting] <;> split_ifs <;> simp

theorem run_hub75ConfigSet (value : CStr) :
    let r := Hub75.hub75ConfigSet s.store value err
    (hub75ConfigSet value).run (Op.exec err) s = (r.1, ⟨r.2, if r.1 = 0
      then Function.update s.generation .hub75 (s.generation .hub75 + 1) else s.generation⟩) := by
  unfold hub75ConfigSet Hub75.hub75ConfigSet
  cases hparse : Hub75.hub75ConfigParse value with
  | error e =>
      have he : e ≠ 0 := by
        unfold Hub75.hub75ConfigParse at hparse
        split_ifs at hparse
        split at hparse
        · cases hparse
          decide
        · split_ifs at hparse
          cases hparse
          decide
      simp [he]
  | ok parsed => cases parsed <;> simp only [run_storeSetting]

theorem run_nodemConfigSet (value : CStr) :
    let r := Nodem.nodemConfigSet s.store (s.generation .nodem) value err
    (nodemConfigSet value).run (Op.exec err) s =
      (r.1, ⟨r.2.1, Function.update s.generation .nodem r.2.2⟩) := by
  unfold nodemConfigSet Nodem.nodemConfigSet
  dsimp only
  cases Nodem.parse (if value.dropWhile isBlank ≠ [] then value.dropWhile isBlank
      else Nodem.nodemDefault) with
  | none => simp
  | some c =>
      simp only [run_storeSetting]
      split_ifs <;> simp

theorem run_oledConfigRead :
    oledConfigRead.run (Op.exec err) s = ((Oled.oledConfigRead s.store err).1,
      { s with store := (Oled.oledConfigRead s.store err).2 }) := by
  unfold oledConfigRead Oled.oledConfigRead
  rw [Prog.run_bind, run_configGetStr]
  dsimp only
  split_ifs
  · simp
  · cases Oled.oledConfigParse
      (ConfigStore.configGetStr s.store.entries Oled.oledKey Oled.oledValueLen [1]) <;> simp

theorem run_hub75ConfigRead :
    hub75ConfigRead.run (Op.exec err) s = ((Hub75.hub75ConfigRead s.store err).1,
      { s with store := (Hub75.hub75ConfigRead s.store err).2 }) := by
  unfold hub75ConfigRead Hub75.hub75ConfigRead
  rw [Prog.run_bind, run_configGetStr]
  dsimp only
  split_ifs
  · simp
  · cases Hub75.hub75ConfigParse
      (ConfigStore.configGetStr s.store.entries Hub75.hub75Key Hub75.hub75ValueLen [1]) <;> simp

theorem run_nodemConfigGet (out : Nodem.Config) :
    (nodemConfigGet out).run (Op.exec err) s = ((Nodem.nodemConfigGet s.store err out).1,
      { s with store := (Nodem.nodemConfigGet s.store err out).2 }) := by
  unfold nodemConfigGet Nodem.nodemConfigGet
  rw [Prog.run_bind, run_configGetStr]
  dsimp only
  cases Nodem.parse (ConfigStore.configGetStr s.store.entries Nodem.nodemKey Nodem.nodemValueLen [])
    <;> simp

end NodemFirmware.Control
