import NodemFirmware.Cloud.Response
import NodemFirmware.Control.Values

/-! # The threads that use the config store

The programs that each thread runs on the store: `nodem_task` the command interpreter and
`nodem_config_get`, `display_task` and `hub75_task` the readers of their settings, `modem_task`
the registration and the ping interval, `modem_status_task` what it shows.

Every one of them follows the schema of the settings, and sets the keys of its thread only
(`Starts.follows`).  So whatever order their calls are made in, whichever saves fail and whenever
the device is reset, the store holds the schema's values and nothing else (`settings_keep`).

A `Reader` is a setting whose reader stores a default in place of a value that it cannot use. -/

namespace NodemFirmware.Control

open CText Calls ConfigStore Str Transition
open Cloud hiding Key registrationPending deviceRegistered

/-! ### Source -/

/-- What `step_register` meets besides the store: whether there is a connection, the modem's answer
to the IMEI's command, `g_cloud_host`, and the calls of its request. -/
structure Attempt where
  connected : Bool
  imeiResp : CStr
  host : CStr
  calls : HttpCalls

/-- `step_register`. -/
def stepRegister (a : Attempt) : Program Unit := do
  let pending ← registrationPending
  if !pending then pure ()
  else
    let code ← configGetStr regCodeKey (regCodeLen + 1) []
    let name ← configGetStr deviceNameKey (regNameMaxLen + 1) []
    if name.length < regNameMinLen ∨ regNameMaxLen < name.length then
      let _ ← configSetStr regCodeKey []
      pure ()
    else if !a.connected then pure ()
    else
      let request := fun imei => registerHttpRequest a.host code imei name a.calls
      match (getImei a.imeiResp).map request with
      | some (0, reply) =>
          let _ ← configSetStr deviceIdKey reply.id
          let _ ← configSetStr deviceSecretKey reply.secret
          let _ ← configSetStr deviceNameKey reply.verifiedName
          let _ ← configSetStr regCodeKey []
          pure ()
      | _ =>
          let _ ← configSetStr regCodeKey regCodeRejected
          pure ()

def modemStatusShowDefault : BitVec 32 := 1

/-- What a round of `modem_status_task` reads: whether the status is shown, and in its cloud line
whether the device is registered, and if not its code. -/
def modemStatusReads : Program (Bool × Option CStr) := do
  let show_ ← configGetI32 statusKey modemStatusShowDefault
  let registered ← deviceRegistered
  if registered then pure (show_ ≠ 0, none)
  else
    let code ← configGetStr regCodeKey (regCodeLen + 1) []
    pure (show_ ≠ 0, some code)

inductive Thread where
  | nodem
  | display
  | hub75
  | modem
  | modemStatus
deriving DecidableEq, Repr

/-- A program whose result is no longer needed. -/
def finish {α : Type} (p : Program α) : Program Unit := do
  let _ ← p
  pure ()

/-- The output arrays hold C strings. -/
structure StringsIn (reply : Reply) : Prop where
  id : (0 : UInt8) ∉ reply.id
  secret : (0 : UInt8) ∉ reply.secret
  verifiedName : (0 : UInt8) ∉ reply.verifiedName

variable (statText : StatReads → List UInt8)

/-- The programs a thread may begin. -/
inductive Starts : Thread → Program Unit → Prop where
  | line (line : Chars) : Starts .nodem (finish (processLine statText line))
  | nodemConfig (out : Nodem.Config) : Starts .nodem (finish (nodemConfigGet out))
  | oledConfig : Starts .display (finish oledConfigRead)
  | hub75Config : Starts .hub75 (finish hub75ConfigRead)
  | register (a : Attempt) (h : StringsIn a.calls.stack) : Starts .modem (stepRegister a)
  | ping : Starts .modem (finish modemWsPingIntervalS)
  | status : Starts .modemStatus (finish modemStatusReads)

/-! ### Programs that follow the schema -/

/-- The key that a call sets. -/
def Op.setKey : Op → Option Key
  | store (.setStr key _) => some (.str, key)
  | store (.setI32 key _) => some (.i32, key)
  | _ => none

/-- The keys that a registration sets. -/
def registrationKeys : List Key :=
  [(.str, regCodeKey), (.str, deviceIdKey), (.str, deviceSecretKey), (.str, deviceNameKey)]

/-- The keys that the programs of a thread set. -/
def Thread.keys : Thread → List Key
  | nodem => settingKeys
  | display => [(.str, Oled.oledKey)]
  | hub75 => [(.str, Hub75.hub75Key)]
  | modem => (.i32, pingKey) :: registrationKeys
  | modemStatus => []

/-- A call that sets no key, or one of some keys to one of the schema's values. -/
structure Op.Follows (keys : List Key) (op : Op) : Prop where
  schema : ∀ sop, op = .store sop → sop.Follows settings
  keys : ∀ k, op.setKey = some k → k ∈ keys

/-- All the calls do, whatever they return. -/
def Follows {α : Type} (keys : List Key) (p : Program α) : Prop :=
  p.Meets (Op.Follows keys) (fun _ _ => True) fun _ => True

section follows

variable {keys : List Key}

theorem Op.Follows.get {sop : StoreOp} (hset : (Op.store sop).setKey = none)
    (hfollows : sop.Follows settings) : (Op.store sop).Follows keys :=
  ⟨fun _ h => by cases h; exact hfollows, fun _ h => by rw [hset] at h; cases h⟩

/-- The keys of the schema are those of its values. -/
theorem SettingOk.mem_keys {k : Key} {v : Value} (h : SettingOk k v) : k ∈ settingKeys := by
  cases h <;> decide

theorem Op.Follows.setStr {key val : CStr} (hkey : (.str, key) ∈ keys)
    (h : SettingOk (.str, key) (.str val)) : (Op.store (.setStr key val)).Follows keys :=
  ⟨fun _ hop => by cases hop; exact ⟨h.mem_keys, h⟩, fun _ hk => by cases hk; exact hkey⟩

theorem Op.Follows.setI32 {key : CStr} {val : BitVec 32} (hkey : (.i32, key) ∈ keys)
    (h : SettingOk (.i32, key) (.i32 val)) : (Op.store (.setI32 key val)).Follows keys :=
  ⟨fun _ hop => by cases hop; exact ⟨h.mem_keys, h⟩, fun _ hk => by cases hk; exact hkey⟩

theorem follows_pure {α : Type} (a : α) : Follows keys (pure a) := trivial

theorem Follows.bind {α β : Type} {p : Program α} {f : α → Program β} (hp : Follows keys p)
    (hf : ∀ a, Follows keys (f a)) : Follows keys (p >>= f) := Prog.Meets.bind hp hf

theorem follows_configGetStr (key : CStr) (bufLen : ℕ) (d : CStr) :
    Follows keys (configGetStr key bufLen d) := ⟨.get rfl trivial, fun _ _ => trivial⟩

theorem follows_configGetI32 (key : CStr) (d : BitVec 32) : Follows keys (configGetI32 key d) :=
  ⟨.get rfl trivial, fun _ _ => trivial⟩

theorem follows_changed (output : Output) : Follows keys (changed output) :=
  ⟨⟨(fun _ h => by cases h), fun _ h => by cases h⟩, fun _ _ => trivial⟩

theorem follows_configList (bufLen : ℕ) : Follows keys (configList bufLen) :=
  ⟨.get rfl trivial, fun _ _ => trivial⟩

theorem follows_configSetStr {key val : CStr} (hkey : (.str, key) ∈ keys)
    (h : SettingOk (.str, key) (.str val)) : Follows keys (configSetStr key val) :=
  ⟨.setStr hkey h, fun _ _ => trivial⟩

theorem follows_configSetI32 {key : CStr} {val : BitVec 32} (hkey : (.i32, key) ∈ keys)
    (h : SettingOk (.i32, key) (.i32 val)) : Follows keys (configSetI32 key val) :=
  ⟨.setI32 hkey h, fun _ _ => trivial⟩

theorem follows_storeSetting (output : Output) {key val : CStr}
    (h : SettingOk (.str, key) (.str val)) : Follows settingKeys (storeSetting output key val) := by
  refine (follows_configSetStr h.mem_keys h).bind fun err => ?_
  split_ifs
  · exact (follows_changed output).bind fun _ => follows_pure _
  · exact follows_pure _

theorem Follows.finish {α : Type} {p : Program α} (h : Follows keys p) : Follows keys (finish p) :=
  h.bind fun _ => follows_pure _

end follows

/-! ### The setters and readers -/

/-- What a command hands to a setter. -/
structure Given (value : CStr) : Prop where
  trimmed : Trimmed value
  length : value.length < valBufLen
  no_nul : (0 : UInt8) ∉ value

theorem Given.trim {t : Chars} (h : Given (encode t)) : Str.trim t = t := by
  obtain ⟨t', ht', heq⟩ := h.trimmed
  rw [encode_inj heq, ht']

theorem follows_displayOledSet {value : CStr} (h : Given value) :
    Follows settingKeys (displayOledSet value) := by
  unfold displayOledSet
  split
  · exact follows_pure _
  · next c hparse =>
    have hc := Oled.oledConfigParse_ok hparse
    rw [Oled.oledConfigFormat_eq hc]
    exact follows_storeSetting _ (.oled hc)
  · next hparse => exact follows_storeSetting _ (.oledOff ⟨h.trimmed, hparse, h.length, h.no_nul⟩)

theorem follows_hub75ConfigSet (value : CStr) : Follows settingKeys (hub75ConfigSet value) := by
  unfold hub75ConfigSet
  split
  · exact follows_pure _
  · next c hparse =>
    have hc := Hub75.hub75ConfigParse_accepted hparse
    rw [(Hub75.hub75ConfigParse_format hc).1]
    exact follows_storeSetting _ (.hub75 hc)
  · exact follows_storeSetting _ .hub75Off

theorem follows_nodemConfigSet (value : CStr) : Follows settingKeys (nodemConfigSet value) := by
  unfold nodemConfigSet
  dsimp only
  split
  · exact follows_pure _
  · next c hparse =>
    have hc := Nodem.parse_ok hparse
    rw [(Nodem.format_eq hc).1]
    exact follows_storeSetting _ (.nodem hc)

theorem oledDefaultText_eq : Oled.oledDefaultText = Oled.Config.text ⟨128, 64, 0, 0, 0⟩ := by rfl

theorem hub75DefaultText_eq : Hub75.hub75DefaultText = Hub75.hub75Default.text := by rfl

/-- The defaults are values of the schema. -/
theorem settingOk_oledDefault : SettingOk (.str, Oled.oledKey) (.str Oled.oledDefaultText) := by
  rw [oledDefaultText_eq]
  exact .oled (Oled.parsedConfig_ok Oled.parsedConfig_default)

theorem settingOk_hub75Default :
    SettingOk (.str, Hub75.hub75Key) (.str Hub75.hub75DefaultText) := by
  have hparse : Hub75.hub75ConfigParse Hub75.hub75DefaultText = .ok (some Hub75.hub75Default) := rfl
  have haccepted := Hub75.hub75ConfigParse_accepted hparse
  rw [hub75DefaultText_eq]
  exact .hub75 haccepted

theorem settingOk_nodemDefault : SettingOk (.str, Nodem.nodemKey) (.str Nodem.nodemDefault) := by
  obtain ⟨c, hparse, hformat⟩ := Nodem.parse_nodemDefault
  have hc := Nodem.parse_ok hparse
  rw [← hformat, (Nodem.format_eq hc).1]
  exact .nodem hc

/-- The settings whose readers store a default in place of a value that they cannot use. -/
inductive Reader where
  | oled
  | hub75
  | nodem
  | ping
deriving DecidableEq, Repr

namespace Reader

def key : Reader → Key
  | oled => (.str, Oled.oledKey)
  | hub75 => (.str, Hub75.hub75Key)
  | nodem => (.str, Nodem.nodemKey)
  | ping => (.i32, pingKey)

/-- The call that reads the value. -/
def get : Reader → Op
  | oled => .store (.getStr Oled.oledKey Oled.oledValueLen [1])
  | hub75 => .store (.getStr Hub75.hub75Key Hub75.hub75ValueLen [1])
  | nodem => .store (.getStr Nodem.nodemKey Nodem.nodemValueLen [])
  | ping => .store (.getI32 pingKey 0)

/-- The call that stores the default. -/
def reset : Reader → Op
  | oled => .store (.setStr Oled.oledKey Oled.oledDefaultText)
  | hub75 => .store (.setStr Hub75.hub75Key Hub75.hub75DefaultText)
  | nodem => .store (.setStr Nodem.nodemKey Nodem.nodemDefault)
  | ping => .store (.setI32 pingKey (BitVec.ofNat 32 modemWsPingDefaultS))

/-- The values that are of no use. -/
def Rejects : (rd : Reader) → rd.get.Res → Prop
  | oled => fun value : CStr => value = [1] ∨ ∃ err, Oled.oledConfigParse value = .error err
  | hub75 => fun value : CStr => value = [1] ∨ ∃ err, Hub75.hub75ConfigParse value = .error err
  | nodem => fun value : CStr => Nodem.parse value = none
  | ping => fun secs : BitVec 32 => ¬ (1 ≤ secs.toInt ∧ secs.toInt ≤ modemWsPingMaxS)

/-- What a reader does: it reads the value, and stores the default if that is of no use. -/
def Does {α : Type} (rd : Reader) (p : Program α) : Prop :=
  ∃ f : rd.get.Res → Program α, p = .one rd.get >>= f ∧ ∀ r, (∃ a, f r = pure a) ∨
    rd.Rejects r ∧ ∃ a, f r = do
      let _ ← .one rd.reset
      pure a

theorem oledConfigRead_does : oled.Does oledConfigRead := by
  refine ⟨_, rfl, fun value => ?_⟩
  dsimp only
  split_ifs with hmark
  · exact .inr ⟨.inl hmark, _, rfl⟩
  · split
    · exact .inl ⟨_, rfl⟩
    · next err hparse => exact .inr ⟨.inr ⟨err, hparse⟩, _, rfl⟩

theorem hub75ConfigRead_does : hub75.Does hub75ConfigRead := by
  refine ⟨_, rfl, fun value => ?_⟩
  dsimp only
  split_ifs with hmark
  · exact .inr ⟨.inl hmark, _, rfl⟩
  · split
    · exact .inl ⟨_, rfl⟩
    · next err hparse => exact .inr ⟨.inr ⟨err, hparse⟩, _, rfl⟩

theorem nodemConfigGet_does (out : Nodem.Config) : nodem.Does (nodemConfigGet out) := by
  refine ⟨_, rfl, fun value => ?_⟩
  split
  · exact .inl ⟨_, rfl⟩
  · next hparse => exact .inr ⟨hparse, _, rfl⟩

theorem modemWsPingIntervalS_does : ping.Does modemWsPingIntervalS := by
  refine ⟨_, rfl, fun secs => ?_⟩
  split_ifs with hrange
  · exact .inl ⟨_, rfl⟩
  · exact .inr ⟨hrange, _, rfl⟩

variable {rd : Reader} {α : Type} {p : Program α}

/-- A reader's calls. -/
theorem Does.meets (h : rd.Does p) {P : Op → Prop} {R : (op : Op) → op.Res → Prop}
    (hget : P rd.get) (hreset : ∀ r, R rd.get r → rd.Rejects r → P rd.reset) :
    p.Meets P R fun _ => True := by
  obtain ⟨f, rfl, hf⟩ := h
  refine Prog.meets_bind (Q := R rd.get) ⟨hget, fun _ => id⟩ fun r hr => ?_
  rcases hf r with ⟨a, ha⟩ | ⟨hrejects, a, ha⟩
  · rw [ha]
    trivial
  · rw [ha]
    exact ⟨hreset r hr hrejects, fun _ _ => trivial⟩

/-- The ways through a reader. -/
inductive Way (rd : Reader) : List (Made Op Op.Res) → Prop
  | used (r : rd.get.Res) : Way rd [⟨rd.get, r⟩]
  | replaced {r : rd.get.Res} (h : rd.Rejects r) (err : rd.reset.Res) :
      Way rd [⟨rd.get, r⟩, ⟨rd.reset, err⟩]

theorem Does.way (h : rd.Does p) {l : List (Made Op Op.Res)} {a : α} (hpath : p.Path l a) :
    rd.Way l := by
  obtain ⟨f, rfl, hf⟩ := h
  obtain ⟨l₁, r, l₂, h₁, h₂, rfl⟩ := Prog.path_bind.mp hpath
  rw [Prog.path_one] at h₁
  subst h₁
  rcases hf r with ⟨b, hb⟩ | ⟨hrejects, b, hb⟩
  · rw [hb] at h₂
    obtain ⟨rfl, -⟩ := Prog.path_pure.mp h₂
    exact .used r
  · rw [hb] at h₂
    obtain ⟨l₃, err, l₄, h₃, h₄, rfl⟩ := Prog.path_bind.mp h₂
    obtain ⟨rfl, -⟩ := Prog.path_pure.mp h₄
    rw [Prog.path_one] at h₃
    subst h₃
    exact .replaced hrejects err

end Reader

section follows

variable {keys : List Key}

theorem follows_oledConfigRead (h : Reader.oled.key ∈ keys) : Follows keys oledConfigRead :=
  Reader.oledConfigRead_does.meets (.get rfl trivial) fun _ _ _ => .setStr h settingOk_oledDefault

theorem follows_hub75ConfigRead (h : Reader.hub75.key ∈ keys) : Follows keys hub75ConfigRead :=
  Reader.hub75ConfigRead_does.meets (.get rfl trivial) fun _ _ _ =>
    .setStr h settingOk_hub75Default

theorem follows_nodemConfigGet (h : Reader.nodem.key ∈ keys) (out : Nodem.Config) :
    Follows keys (nodemConfigGet out) :=
  (Reader.nodemConfigGet_does out).meets (.get rfl trivial) fun _ _ _ =>
    .setStr h settingOk_nodemDefault

theorem follows_modemWsPingIntervalS (h : Reader.ping.key ∈ keys) :
    Follows keys modemWsPingIntervalS :=
  Reader.modemWsPingIntervalS_does.meets (.get rfl trivial) fun _ _ _ =>
    .setI32 h (.ping (by decide))

end follows

/-! ### The commands -/

theorem toCstr_eq_some {s : Chars} {bufLen : ℕ} {value : CStr} (h : toCstr s bufLen = some value) :
    value = encode s ∧ value.length < bufLen ∧ (0 : UInt8) ∉ value := by
  unfold toCstr at h
  split_ifs at h with hfits
  rw [not_or, not_le] at hfits
  cases h
  exact ⟨rfl, hfits⟩

theorem follows_settingLine {set : CStr → Program ℤ}
    (hset : ∀ value, Given value → Follows settingKeys (set value)) (args : Chars) :
    Follows settingKeys (settingLine set args) := by
  unfold settingLine
  split
  · exact follows_pure _
  · next value hvalue =>
    obtain ⟨rfl, hlen, hnul⟩ := toCstr_eq_some hvalue
    exact (hset _ ⟨trimmed_trim args, hlen, hnul⟩).bind fun _ => follows_pure _

/-- The code and the name that a "#reg" stores. -/
theorem regArgs_ok {args : Chars} {code name : CStr} (h : regArgs args = some (code, name)) :
    SettingOk (.str, regCodeKey) (.str code) ∧ SettingOk (.str, deviceNameKey) (.str name) := by
  unfold regArgs at h
  dsimp only at h
  split_ifs at h with hlen
  split at h
  · next code' name' hcode hname =>
    cases h
    rw [not_or, not_not, not_not] at hlen
    obtain ⟨rfl, -, hnul⟩ := toCstr_eq_some hcode
    obtain ⟨rfl, -, hnul'⟩ := toCstr_eq_some hname
    refine ⟨.regCode (.inr (.inr hlen.1)) hnul, .deviceName ?_ hnul'⟩
    have hmax := hlen.2.2
    unfold regNameMaxLen len at hmax
    unfold regVerifiedNameLen
    omega
  · cases h

theorem hostArgs_ok {args : Chars} {host : CStr} (h : hostArgs args = some host) :
    SettingOk (.str, cloudHostKey) (.str host) := by
  unfold hostArgs at h
  dsimp only at h
  split_ifs at h
  · cases h
    exact .cloudHost (by decide) (by decide)
  · obtain ⟨-, hlen, hnul⟩ := toCstr_eq_some h
    exact .cloudHost hlen hnul

theorem pingArgs_ok {args : Chars} {v : ℤ} (h : pingArgs args = some v) :
    SettingOk (.i32, pingKey) (.i32 (BitVec.ofInt 32 v)) := by
  have hrange : 1 ≤ v ∧ v ≤ modemWsPingMaxS := by
    unfold pingArgs at h
    dsimp only at h
    split_ifs at h
    · cases h
      decide
    · simpa using (Option.filter_eq_some_iff.mp h).2
  unfold modemWsPingMaxS at hrange
  refine .ping ?_
  rw [BitVec.toInt_ofInt, Int.bmod_eq_of_le (by omega) (by omega)]
  exact hrange

theorem statusArgs_ok {args : Chars} {v : ℤ} (h : statusArgs args = some v) :
    SettingOk (.i32, statusKey) (.i32 (BitVec.ofInt 32 v)) := by
  unfold statusArgs at h
  split at h
  · cases h
    exact .status (.inr rfl)
  · cases h
    exact .status (.inr rfl)
  · cases h
    exact .status (.inl rfl)
  · cases h

theorem follows_regLine (args : Chars) : Follows settingKeys (regLine args) := by
  unfold regLine
  split
  · exact follows_pure _
  · next code name hargs =>
    obtain ⟨hcode, hname⟩ := regArgs_ok hargs
    exact (follows_configSetStr hcode.mem_keys hcode).bind fun _ =>
      (follows_configSetStr hname.mem_keys hname).bind fun _ => follows_pure _

theorem follows_hostLine (args : Chars) : Follows settingKeys (hostLine args) := by
  unfold hostLine
  split
  · exact follows_pure _
  · next host hargs =>
    have hhost := hostArgs_ok hargs
    refine (follows_configSetStr hhost.mem_keys hhost).bind fun err => ?_
    split_ifs
    · exact follows_pure _
    · exact (follows_configSetStr (by decide) (.deviceId (by decide) (by decide))).bind fun _ =>
        (follows_configSetStr (by decide) (.deviceSecret (by decide) (by decide))).bind fun _ =>
          follows_pure _

theorem follows_numberLine {key : CStr} {value : Option ℤ}
    (h : ∀ v, value = some v → SettingOk (.i32, key) (.i32 (BitVec.ofInt 32 v))) :
    Follows settingKeys (numberLine key value) := by
  cases value with
  | none => exact follows_pure _
  | some v => exact (follows_configSetI32 (h v rfl).mem_keys (h v rfl)).bind fun _ => follows_pure _

theorem follows_registrationPending {keys : List Key} : Follows keys registrationPending :=
  (follows_configGetStr _ _ _).bind fun _ => follows_pure _

theorem follows_deviceRegistered {keys : List Key} : Follows keys deviceRegistered :=
  (follows_configGetStr _ _ _).bind fun _ => follows_pure _

theorem follows_statReads : Follows settingKeys statReads := by
  have hunless : ∀ pending, Follows settingKeys (registeredUnless pending) := by
    intro pending
    cases pending with
    | true => exact follows_pure _
    | false => exact follows_deviceRegistered
  exact (follows_modemWsPingIntervalS (by decide)).bind fun _ =>
    (follows_configGetStr _ _ _).bind fun _ =>
    follows_registrationPending.bind fun pending => (hunless pending).bind fun _ =>
      (follows_configGetStr _ _ _).bind fun _ => (follows_configGetStr _ _ _).bind fun _ =>
        follows_pure _

theorem follows_cfgText : Follows settingKeys cfgText := by
  have hentry : ∀ key, Follows settingKeys (cfgEntry key) := fun key =>
    (follows_configGetStr _ _ _).bind fun _ => follows_pure _
  exact (hentry _).bind fun _ => (hentry _).bind fun _ => (hentry _).bind fun _ => follows_pure _

variable {statText}

/-- **Every command follows the schema.** -/
theorem follows_processCommand (args : Chars) (command : Option Command) :
    Follows settingKeys (processCommand statText args command) := by
  have hreplies : ∀ {p : Program Ret}, Follows settingKeys p → Follows settingKeys (replies p) :=
    fun h => h.bind fun _ => follows_pure _
  have hwrites : ∀ {p : Program (List UInt8)}, Follows settingKeys p →
      Follows settingKeys (writes p) :=
    fun h => h.bind fun _ => follows_pure _
  cases command with
  | none => exact follows_pure _
  | some command =>
      cases command with
      | reset => exact follows_pure _
      | reg => exact hreplies (follows_regLine args)
      | host => exact hreplies (follows_hostLine args)
      | ping => exact hreplies (follows_numberLine fun _ => pingArgs_ok)
      | status => exact hreplies (follows_numberLine fun _ => statusArgs_ok)
      | nvs => exact hwrites ((follows_configList _).bind fun _ => follows_pure _)
      | stat => exact hwrites (follows_statReads.bind fun _ => follows_pure _)
      | oled => exact hreplies (follows_settingLine (fun _ => follows_displayOledSet) args)
      | hub75 => exact hreplies (follows_settingLine (fun v _ => follows_hub75ConfigSet v) args)
      | nodem => exact hreplies (follows_settingLine (fun v _ => follows_nodemConfigSet v) args)
      | cfg => exact hwrites follows_cfgText

theorem follows_processLine (line : Chars) : Follows settingKeys (processLine statText line) := by
  unfold processLine
  split
  · exact follows_pure _
  · exact (follows_processCommand _ _).bind fun _ => follows_pure _

/-! ### The registration -/

/-- The fields of a response are parts of it. -/
theorem replyFields_subset {s id secret r : CStr}
    (h : replyFields s = some ((id, secret), r)) : id ⊆ s ∧ secret ⊆ s ∧ r ⊆ s := by
  simp only [replyFields, Option.bind_eq_bind, Option.bind_eq_some_iff, Option.some.injEq,
    Prod.exists, Prod.mk.injEq] at h
  obtain ⟨_, body, hbody, _, line, hline, _, rest, hid, _, rest', hsecret, ⟨rfl, rfl⟩, rfl⟩ := h
  have hline := ((Split.splitOnce_suffix hline).trans (Split.splitOnce_suffix hbody)).subset
  have hrest := (Split.splitOnce_suffix hid).subset
  refine ⟨fun c hc => hline ?_, fun c hc => hline (hrest ?_),
    fun c hc => hline (hrest ((Split.splitOnce_suffix hsecret).subset hc))⟩
  · rw [Split.splitOnce_eq_append hid]
    exact List.mem_append_left _ (List.mem_append_left _ hc)
  · rw [Split.splitOnce_eq_append hsecret]
    exact List.mem_append_left _ (List.mem_append_left _ hc)

/-- A NUL ends what is read of a response. -/
theorem zero_not_mem_ofBytes (l : List UInt8) : (0 : UInt8) ∉ ofBytes l := by
  intro h
  have := List.mem_takeWhile_imp h
  simp at this

theorem registerResponse_strings {received : List UInt8} {reply : Reply}
    (h : registerResponse received = .ok reply) : StringsIn reply := by
  unfold registerResponse at h
  dsimp only at h
  split at h
  · cases h
  · split_ifs at h
    rw [parse_eq] at h
    cases hfields : replyFields (ofBytes received) with
    | none =>
        rw [hfields] at h
        cases h
    | some p =>
        obtain ⟨⟨id, secret⟩, r⟩ := p
        rw [hfields] at h
        cases h
        obtain ⟨hid, hsecret, hr⟩ := replyFields_subset hfields
        have hnul := zero_not_mem_ofBytes received
        exact ⟨fun h0 => hnul (hid (List.mem_of_mem_take h0)),
          fun h0 => hnul (hsecret (List.mem_of_mem_take h0)),
          fun h0 => hnul (hr ((List.takeWhile_prefix _).subset (List.mem_of_mem_take h0)))⟩

theorem registerHttpRequest_strings (host code imei name : CStr) {calls : HttpCalls}
    (h : StringsIn calls.stack) : StringsIn (registerHttpRequest host code imei name calls).2 := by
  unfold registerHttpRequest
  split
  · exact h
  · next reply hreply =>
    unfold registerExchange at hreply
    dsimp only at hreply
    split_ifs at hreply
    split at hreply
    · cases hreply
    · exact registerResponse_strings hreply

theorem follows_stepRegister {keys : List Key} (hkeys : registrationKeys ⊆ keys) {a : Attempt}
    (h : StringsIn a.calls.stack) : Follows keys (stepRegister a) := by
  have hset := fun {key val} (hkey : (.str, key) ∈ registrationKeys)
    (hval : SettingOk (.str, key) (.str val)) => follows_configSetStr (hkeys hkey) hval
  have hcode := fun {val} (hval : SettingOk (.str, regCodeKey) (.str val)) =>
    (hset (by decide) hval).bind fun _ => follows_pure ()
  have hempty : SettingOk (.str, regCodeKey) (.str []) := .regCode (.inl rfl) (by decide)
  have hrejected : SettingOk (.str, regCodeKey) (.str regCodeRejected) :=
    .regCode (.inr (.inl rfl)) (by decide)
  unfold stepRegister
  refine follows_registrationPending.bind fun pending => ?_
  split
  · exact follows_pure _
  · refine (follows_configGetStr _ _ _).bind fun code =>
      (follows_configGetStr _ _ _).bind fun name => ?_
    split_ifs
    · exact hcode hempty
    · exact follows_pure _
    · dsimp only
      split
      · next reply hreply =>
        obtain ⟨imei, -, hcall⟩ := Option.map_eq_some_iff.mp hreply
        have hstrings := registerHttpRequest_strings a.host code imei name h
        rw [hcall] at hstrings
        exact (hset (by decide) (.deviceId reply.id_fits hstrings.id)).bind fun _ =>
          (hset (by decide) (.deviceSecret reply.secret_fits hstrings.secret)).bind fun _ =>
            (hset (by decide) (.deviceName reply.name_fits hstrings.verifiedName)).bind fun _ =>
              hcode hempty
      · exact hcode hrejected

/-- **Every program of every thread** follows the schema, and sets the thread's keys only. -/
theorem Starts.follows {i : Thread} {p : Program Unit} (h : Starts statText i p) :
    Follows i.keys p := by
  cases h with
  | line line => exact (follows_processLine line).finish
  | nodemConfig out => exact (follows_nodemConfigGet (by decide) out).finish
  | oledConfig => exact (follows_oledConfigRead (by decide)).finish
  | hub75Config => exact (follows_hub75ConfigRead (by decide)).finish
  | register a h => exact follows_stepRegister (List.subset_cons_self _ _) h
  | ping => exact (follows_modemWsPingIntervalS (by decide)).finish
  | status =>
      refine Follows.finish ((follows_configGetI32 _ _).bind fun _ =>
        follows_deviceRegistered.bind fun _ => ?_)
      split_ifs
      · exact follows_pure _
      · exact (follows_configGetStr _ _ _).bind fun _ => follows_pure _

/-! ### Any interleaving -/

/-- A reset: the generations start over, and the saved keys are loaded in some order. -/
def Settings.reset (order : List CStr) (s : Settings) : Settings :=
  ⟨reboot s.store order, fun _ => 0⟩

/-- Erased flash. -/
def Settings.factory : Settings := ⟨Store.empty, fun _ => 0⟩

abbrev SettingsPool := Pool Thread Op Op.Res Settings

/-- With what saving returns in a call, and the keys that a reset loads, in their order. -/
abbrev SettingsEvent := Calls.Event Thread ℤ (List CStr) Op Op.Res

variable (statText) in
/-- The threads' steps: the calls of their programs interleaved, and resets. -/
def SettingsStep : SettingsPool → SettingsEvent → SettingsPool → Prop :=
  Pool.Step Op.exec Settings.reset (Starts statText)

/-- Calls that follow the schema keep the store sound. -/
theorem Op.Follows.sound {keys : List Key} {op : Op} (h : op.Follows keys) {s : Settings}
    (hs : s.store.Sound settings) (err : ℤ) : (op.exec err s).2.store.Sound settings := by
  cases op with
  | store op => exact (h.schema op rfl).sound hs err
  | changed output => exact hs

/-- A call that does not set a key leaves it, in RAM and in flash. -/
theorem Op.Follows.leaves {keys : List Key} {op : Op} (h : op.Follows keys) {s : Settings}
    (hs : s.store.Sound settings) {k : Key} (hk : k ∈ settingKeys) (hne : op.setKey ≠ some k)
    (err : ℤ) :
    (op.exec err s).2.store.entries.lookup k = s.store.entries.lookup k ∧
      (op.exec err s).2.store.flash (fullKey k) = s.store.flash (fullKey k) := by
  have hset : ∀ {key : CStr} {v : Value} {r : ℤ × Store}, SetTo s.store key v err r →
      (v.type, key) ∈ settingKeys → (v.type, key) ≠ k →
        r.2.entries.lookup k = s.store.entries.lookup k ∧
          r.2.flash (fullKey k) = s.store.flash (fullKey k) := by
    intro key v r hto hkey hne
    refine ⟨by rw [hto.lookup, if_neg hne], ?_⟩
    rw [hto.flash]
    split_ifs
    · exact if_neg fun hfull : fullKey k = fullKey (v.type, key) =>
        hne (fullKey_inj (settings.validKey _ hkey).length_le (settings.validKey k hk).length_le
          hfull.symm)
    · rfl
  rcases op with (_ | _ | ⟨key, val⟩ | ⟨key, val⟩ | _) | _
  · exact ⟨rfl, rfl⟩
  · exact ⟨rfl, rfl⟩
  · have hsop := h.schema _ rfl
    exact hset (hs.configSetStr hsop.1 hsop.2 err).1 hsop.1 fun heq => hne (congrArg some heq)
  · have hsop := h.schema _ rfl
    exact hset (hs.configSetI32 hsop.1 hsop.2 err).1 hsop.1 fun heq => hne (congrArg some heq)
  · exact ⟨rfl, rfl⟩
  · exact ⟨rfl, rfl⟩

theorem settings_keep : Keeps Op.exec Settings.reset (Starts statText)
    (fun i op => op.Follows i.keys) (fun _ _ => True) fun s => s.store.Sound settings where
  exec _ err _ _ h hop := ⟨hop.sound h err, trivial⟩
  reset order _ h := h.reboot order
  starts _ _ h := h.follows

/-- What holds of every pool that is reached: the store is sound, and the threads' programs go on
as they began. -/
def Reached (p : SettingsPool) : Prop :=
  p.Sound (fun i op => op.Follows i.keys) (fun _ _ => True) fun s => s.store.Sound settings

theorem Reached.run {es : List SettingsEvent} {p q : SettingsPool} (h : Reached p)
    (hrun : Run (SettingsStep statText) p es q) : Reached q := Calls.Run.sound hrun settings_keep h

theorem reached_factory : Reached (.idle .factory) := .idle .empty

/-- A program that a thread runs while the others do nothing. -/
theorem run_alone (err : ℤ) (s : Settings) {i : Thread} {prog : Program Unit}
    (h : Starts statText i prog) :
    Run (SettingsStep statText) (.idle s) (.start i prog :: aloneEvents Op.exec err i prog s)
      (.idle (prog.run (Op.exec err) s).2) :=
  Calls.Run.alone err rfl h

/-! ### The readers -/

variable {st : Store}

/-- What is read of a key: the default if it was never set, or a value of the schema. -/
theorem read_setting (h : st.Sound settings) (key d : CStr) :
    st.entries.lookup (.str, key) = none ∧
        ConfigStore.configGetStr st.entries key 128 d = clip 128 d ∨
      ∃ s, st.entries.lookup (.str, key) = some ⟨key, .str s⟩ ∧ SettingOk (.str, key) (.str s) ∧
        ConfigStore.configGetStr st.entries key 128 d = s := by
  rcases h.configGetStr key 128 d with hnone | ⟨s, hs, -, hok, hget⟩
  · exact .inl hnone
  · have hlen := (SettingOk.valid hok).length_le
    unfold maxStrLen at hlen
    exact .inr ⟨s, hs, hok, hget.trans (clip_of_lt (by omega))⟩

theorem parse_oledSetting {s : CStr} (h : SettingOk (.str, Oled.oledKey) (.str s)) :
    ∃ c, Oled.oledConfigParse s = .ok c := by
  generalize hk : (EntryType.str, Oled.oledKey) = k at h
  generalize hv : Value.str s = v at h
  cases h with
  | oled hc =>
      cases hv
      exact ⟨_, Oled.oledConfigParse_text hc⟩
  | oledOff hoff =>
      cases hv
      exact ⟨_, hoff.parse⟩
  | _ => exact absurd hk (by decide)

theorem parse_hub75Setting {s : CStr} (h : SettingOk (.str, Hub75.hub75Key) (.str s)) :
    ∃ c, Hub75.hub75ConfigParse s = .ok c := by
  generalize hk : (EntryType.str, Hub75.hub75Key) = k at h
  generalize hv : Value.str s = v at h
  cases h with
  | hub75 hc =>
      cases hv
      exact ⟨_, (Hub75.hub75ConfigParse_format hc).2⟩
  | hub75Off =>
      cases hv
      exact ⟨none, rfl⟩
  | _ => exact absurd hk (by decide)

theorem parse_nodemSetting {s : CStr} (h : SettingOk (.str, Nodem.nodemKey) (.str s)) :
    ∃ c, Nodem.parse s = some c := by
  generalize hk : (EntryType.str, Nodem.nodemKey) = k at h
  generalize hv : Value.str s = v at h
  cases h with
  | nodem hc =>
      cases hv
      exact ⟨_, Nodem.parse_text hc⟩
  | _ => exact absurd hk (by decide)

end NodemFirmware.Control
