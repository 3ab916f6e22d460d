import NodemFirmware.Cloud.Provision
import NodemFirmware.Control.Settings

/-! # The command interpreter

`process_line` of `control.rs`, command by command, as a program that calls the config store.

An `Outcome` is what a command writes before its reply code, the code, and whether it asks for a
reset.  What "#stat" writes depends on more than the store and is given (`statText`), for what it
reads of the store.

A line is split at its first comma (`splitLine`); the text before it names the command
(`commandOf`), and what follows are the arguments, which each command takes apart itself. -/

namespace NodemFirmware.Control

open CText Calls ConfigStore Str
open Cloud hiding Key

/-! ### Source -/

/-- What a command writes, its reply code, and `restart`. -/
structure Outcome where
  text : List UInt8
  ret : Ret
  restart : Bool
deriving DecidableEq, Repr

def pingDefaultSecs : ℤ := 60

/-- `str::parse::<i32>`. -/
def parseI32 (s : Chars) : Option ℤ :=
  let (negative, digits) : Bool × Chars :=
    match s with
    | '-' :: digits => (true, digits)
    | '+' :: digits => (false, digits)
    | digits => (false, digits)
  if digits = [] ∨ digits.any (fun c => !c.isDigit) then none
  else
    let n : ℤ := digits.foldl (fun n c => 10 * n + (c.toNat - '0'.toNat : ℕ)) 0
    let v := if negative then -n else n
    if -2 ^ 31 ≤ v ∧ v < 2 ^ 31 then some v else none

/-- `from_utf8(..).unwrap_or("")`. -/
def utf8OrEmpty (bytes : List UInt8) : List UInt8 :=
  if ByteArray.validateUTF8 ⟨bytes.toArray⟩ then bytes else []

def regCodeKey : CStr := cs "reg_code"
def deviceNameKey : CStr := cs "device_name"
def cloudHostKey : CStr := cs "cloud_host"
def deviceIdKey : CStr := cs "device_id"
def deviceSecretKey : CStr := cs "device_secret"
def statusKey : CStr := cs "status"

/-- "#reg,<code>,<name>". -/
def regLine (args : Chars) : Program Ret :=
  match regArgs args with
  | none => pure .malformedValue
  | some (code, name) => do
      let errCode ← configSetStr regCodeKey code
      let errName ← configSetStr deviceNameKey name
      pure (if errCode ≠ 0 ∨ errName ≠ 0 then .error else .ok)

/-- "#host,<host>". -/
def hostLine (args : Chars) : Program Ret :=
  match hostArgs args with
  | none => pure .malformedValue
  | some host => do
      let storeErr ← configSetStr cloudHostKey host
      if storeErr ≠ 0 then pure .error
      else
        -- what these two return is discarded
        let _ ← configSetStr deviceIdKey []
        let _ ← configSetStr deviceSecretKey []
        pure .ok

/-- A command that stores one number, if its argument is one. -/
def numberLine (key : CStr) : Option ℤ → Program Ret
  | none => pure .malformedValue
  | some v => do
      let err ← configSetI32 key (BitVec.ofInt 32 v)
      pure (if err ≠ 0 then .error else .ok)

/-- The seconds of a "#ping". -/
def pingArgs (args : Chars) : Option ℤ :=
  let arg := Str.trim args
  if arg = [] then some pingDefaultSecs
  else (parseI32 arg).filter fun s => 1 ≤ s ∧ s ≤ modemWsPingMaxS

/-- "#ping,<seconds>". -/
def pingLine (args : Chars) : Program Ret := numberLine pingKey (pingArgs args)

/-- Whether a "#status" shows the status. -/
def statusArgs (args : Chars) : Option ℤ :=
  match Str.trim args with
  | [] => some 1
  | ['1'] => some 1
  | ['0'] => some 0
  | _ => none

/-- "#status,<0|1>". -/
def statusLine (args : Chars) : Program Ret := numberLine statusKey (statusArgs args)

/-- "#oled", "#hub75" and "#nodem": the setter's result as a reply code. -/
def settingLine (set : CStr → Program ℤ) (args : Chars) : Program Ret :=
  match toCstr (Str.trim args) valBufLen with
  | none => pure .malformedValue
  | some value => do
      let err ← set value
      pure (if err = 0 then .ok else if err = -Errno.inval then .malformedValue else .error)

def oledLine : Chars → Program Ret := settingLine displayOledSet
def hub75Line : Chars → Program Ret := settingLine hub75ConfigSet
def nodemLine : Chars → Program Ret := settingLine nodemConfigSet

/-- "#nvs": the entries, as far as they fit 512 bytes. -/
def nvsText : Program (List UInt8) := do
  let bytes ← configList 512
  pure (utf8OrEmpty bytes)

/-- A line of "#cfg". -/
def cfgEntry (key : CStr) : Program (List UInt8) := do
  let value ← configGetStr key valBufLen []
  pure (key ++ cs "=" ++ utf8OrEmpty value ++ cs "\r\n")

/-- "#cfg". -/
def cfgText : Program (List UInt8) := do
  let oled ← cfgEntry Oled.oledKey
  let hub75 ← cfgEntry Hub75.hub75Key
  let nodem ← cfgEntry Nodem.nodemKey
  pure (oled ++ hub75 ++ nodem)

/-- `registration_pending`. -/
def registrationPending : Program Bool := do
  let code ← configGetStr regCodeKey (regCodeLen + 1) []
  pure (code ≠ [] && code ≠ regCodeRejected)

/-- `device_registered`. -/
def deviceRegistered : Program Bool := do
  let id ← configGetStr deviceIdKey regIdLen []
  pure (id ≠ [])

/-- What "#stat" reads of the store; `registered` only if no registration is pending. -/
structure StatReads where
  pingInterval : ℕ
  code : CStr
  pending : Bool
  registered : Bool
  host : CStr
  name : CStr

/-- The second case of `reg_state`, which is only come to if no registration is pending. -/
def registeredUnless : Bool → Program Bool
  | true => pure false
  | false => deviceRegistered

/-- The reads of "#stat": `modem_ws_ping_interval_s` and those of `modem_stat_format`. -/
def statReads : Program StatReads := do
  let pingInterval ← modemWsPingIntervalS
  let code ← configGetStr regCodeKey (regCodeLen + 1) []
  let pending ← registrationPending
  let registered ← registeredUnless pending
  let host ← configGetStr cloudHostKey cloudHostLen []
  let name ← configGetStr deviceNameKey (regNameMaxLen + 1) []
  pure ⟨pingInterval, code, pending, registered, host, name⟩

variable (statText : StatReads → List UInt8)

/-- A command that writes nothing before its reply code. -/
def replies (command : Program Ret) : Program Outcome := do
  let ret ← command
  pure ⟨[], ret, false⟩

/-- One that only writes. -/
def writes (command : Program (List UInt8)) : Program Outcome := do
  let text ← command
  pure ⟨text, .ok, false⟩

/-- The commands by their names. -/
inductive Command where
  | reset
  | reg
  | host
  | ping
  | status
  | nvs
  | stat
  | oled
  | hub75
  | nodem
  | cfg
deriving DecidableEq, Repr

def commandNames : List (String × Command) :=
  [("reset", .reset), ("reg", .reg), ("host", .host), ("ping", .ping), ("status", .status),
    ("nvs", .nvs), ("stat", .stat), ("oled", .oled), ("hub75", .hub75), ("nodem", .nodem),
    ("cfg", .cfg)]

def commandOf (name : Chars) : Option Command :=
  (commandNames.find? fun p => p.1.toList = name).map (·.2)

/-- The arms of `process_line`. -/
def processCommand (args : Chars) : Option Command → Program Outcome
  | some .reset => pure ⟨[], .ok, true⟩
  | some .reg => replies (regLine args)
  | some .host => replies (hostLine args)
  | some .ping => replies (pingLine args)
  | some .status => replies (statusLine args)
  | some .nvs => writes nvsText
  | some .stat => writes (statText <$> statReads)
  | some .oled => replies (oledLine args)
  | some .hub75 => replies (hub75Line args)
  | some .nodem => replies (nodemLine args)
  | some .cfg => writes cfgText
  | none => pure ⟨[], .error, false⟩

/-- The command and the arguments of a line that starts with "#". -/
def splitLine : Chars → Option (Option Command × Chars)
  | '#' :: rest =>
      let (command, args) := splitOnce ',' rest
      some (commandOf (Str.trim command), args.getD [])
  | _ => none

/-- `process_line`: nothing for a line that is no command. -/
def processLine (line : Chars) : Program (Option Outcome) :=
  match splitLine line with
  | none => pure none
  | some (command, args) => do
      let outcome ← processCommand statText args command
      pure (some outcome)

end NodemFirmware.Control
