import NodemFirmware.Lib.Str
import NodemFirmware.Cloud.Task

/-! # "#reg" and "#host"

The two commands of `process_line` that write several keys, from the argument string on:
splitting, trimming, the checks, `to_cstr`, the writes and the reply.

What `config_set_str` returns for each key is given (`results`); a call that fails leaves its
key, one that succeeds stores the value.  `ConfigCalls.written` records the calls.

`AllOrNothing` fails in two ways: "#reg" replies 1 when one of its two writes has been made
(`regCommandLine_whole_iff`), "#host" replies 0 when it could not clear the credentials
(`hostCommandLine_whole_iff`). -/

namespace NodemFirmware.Cloud

open CText Str

def keyBufLen : ℕ := 16

/-- The reply code of a command. -/
inductive Ret where
  | ok
  | error
  | malformedValue
deriving DecidableEq, Repr

def Ret.code : Ret → ℕ
  | ok => 0
  | error => 1
  | malformedValue => 2

/-- `to_cstr`: the bytes, if they fit a buffer with their NUL and have none of their own. -/
def toCstr (s : Chars) (bufLen : ℕ) : Option CStr :=
  if bufLen ≤ len s ∨ (0 : UInt8) ∈ encode s then none else some (encode s)

/-- The keys, and the calls of `config_set_str` made so far with what they returned. -/
structure ConfigCalls where
  keys : Keys
  written : List (Key × ℤ)

variable (results : Key → ℤ)

/-- `config_set_str`, where a call that fails leaves the key as it was. -/
def ConfigCalls.configSetStr (p : ConfigCalls) (key : Key) (val : CStr) : ℤ × ConfigCalls :=
  (results key,
    ⟨if results key = 0 then Function.update p.keys key val else p.keys,
      p.written ++ [(key, results key)]⟩)

/-- The code and the name of a "#reg" that are written, if its arguments pass the checks. -/
def regArgs (args : Chars) : Option (CStr × CStr) :=
  let (code, rest) := splitOnce ',' args
  let code := Str.trim code
  let name := Str.trim (rest.getD [])
  if len code ≠ regCodeLen ∨ ¬ (regNameMinLen ≤ len name ∧ len name ≤ regNameMaxLen) then none
  else
    match toCstr code keyBufLen, toCstr name valBufLen with
    | some code, some name => some (code, name)
    | _, _ => none

/-- The host that a "#host" writes: "" names the default. -/
def hostArgs (args : Chars) : Option CStr :=
  let host := Str.trim args
  if host = [] then some [] else toCstr host valBufLen

/-- "#reg". -/
def regCommandLine (p : ConfigCalls) (args : Chars) : Ret × ConfigCalls :=
  match regArgs args with
  | none => (.malformedValue, p)
  | some (code, name) =>
      let (errCode, p) := p.configSetStr results .regCode code
      let (errName, p) := p.configSetStr results .deviceName name
      (if errCode ≠ 0 ∨ errName ≠ 0 then .error else .ok, p)

/-- "#host". -/
def hostCommandLine (p : ConfigCalls) (args : Chars) : Ret × ConfigCalls :=
  match hostArgs args with
  | none => (.malformedValue, p)
  | some host =>
      let (storeErr, p) := p.configSetStr results .cloudHost host
      if storeErr ≠ 0 then (.error, p)
      else
        -- what these two return is discarded
        let (_, p) := p.configSetStr results .deviceId []
        let (_, p) := p.configSetStr results .deviceSecret []
        (.ok, p)

/-- The keys that a command writes. -/
def regKeys : List Key := [.regCode, .deviceName]
def hostKeys : List Key := [.cloudHost, .deviceId, .deviceSecret]

/-- The reply is 0 exactly when every key was written, and else none has changed. -/
structure AllOrNothing (written : List Key) (keys : Keys) (r : Ret × ConfigCalls) : Prop where
  zero : r.1.code = 0 ↔ ∀ k ∈ written, (k, 0) ∈ r.2.written
  other : r.1.code ≠ 0 → ∀ k ∈ written, r.2.keys k = keys k

/-! ### The commands of the modem task's model -/

theorem toCstr_eq (s : Chars) (bufLen : ℕ) :
    toCstr s bufLen = if fitsCstr (encode s) bufLen then some (encode s) else none := by
  unfold toCstr fitsCstr len
  by_cases hlen : (encode s).length < bufLen <;> by_cases hnul : (0 : UInt8) ∈ encode s <;>
    simp [hlen, hnul]

/-- "#reg" writes what `regCommand` is about to, given the trimmed arguments. -/
theorem regCommand_eq (m : Modem) (args : Chars) :
    regCommand m (encode (Str.trim (splitOnce ',' args).1))
        (encode (Str.trim ((splitOnce ',' args).2.getD []))) =
      match regArgs args with
      | none => m
      | some (code, name) => { m with command := .regStoreCode code name } := by
  unfold regCommand regArgs
  simp only [toCstr_eq, len]
  generalize encode (Str.trim (splitOnce ',' args).1) = code
  generalize encode (Str.trim ((splitOnce ',' args).2.getD [])) = name
  by_cases hlen : code.length ≠ regCodeLen ∨ ¬ (regNameMinLen ≤ name.length ∧
      name.length ≤ regNameMaxLen)
  · rw [if_pos hlen, if_pos (hlen.imp id (by omega))]
  · rw [if_neg hlen, if_neg (by rw [not_or] at hlen ⊢; omega)]
    have hkey : fitsCstr code 16 = fitsCstr code keyBufLen := rfl
    rw [hkey]
    cases fitsCstr code keyBufLen <;> cases fitsCstr name valBufLen <;> rfl

/-- "#host" writes what `hostCommand` is about to. -/
theorem hostCommand_eq (m : Modem) (args : Chars) :
    hostCommand m (encode (Str.trim args)) =
      match hostArgs args with
      | none => m
      | some host => { m with command := .hostStore host } := by
  unfold hostCommand hostArgs
  simp only [toCstr_eq]
  by_cases hempty : Str.trim args = []
  · rw [hempty, if_pos rfl]
    rfl
  · rw [if_neg hempty]
    cases fitsCstr (encode (Str.trim args)) valBufLen <;> rfl

/-! ### When a command is all-or-nothing -/

/-- The arguments are refused, the two writes go the same way, or the one that was made stored
what its key had. -/
def RegWhole (keys : Keys) (args : Chars) : Prop :=
  match regArgs args with
  | none => True
  | some (code, name) =>
      (results .regCode = 0 ↔ results .deviceName = 0) ∨
        results .regCode = 0 ∧ keys .regCode = code ∨
        results .deviceName = 0 ∧ keys .deviceName = name

/-- The arguments are refused, the host is not stored, or the credentials are cleared. -/
def HostWhole (args : Chars) : Prop :=
  hostArgs args = none ∨ results .cloudHost ≠ 0 ∨
    results .deviceId = 0 ∧ results .deviceSecret = 0

/-- A command that was refused wrote nothing. -/
theorem allOrNothing_refused {written : List Key} (hwritten : written ≠ []) (keys : Keys) :
    AllOrNothing written keys (.malformedValue, ⟨keys, []⟩) := by
  refine ⟨⟨(fun h => nomatch h), fun h => ?_⟩, fun _ _ _ => rfl⟩
  obtain ⟨k, hk⟩ := List.exists_mem_of_ne_nil written hwritten
  cases h k hk

/-- One that replies with an error is all-or-nothing if a write failed and no key changed. -/
theorem allOrNothing_error {written : List Key} {keys : Keys} {p : ConfigCalls} :
    AllOrNothing written keys (.error, p) ↔
      (∃ k ∈ written, (k, 0) ∉ p.written) ∧ ∀ k ∈ written, p.keys k = keys k := by
  constructor
  · rintro ⟨hzero, hother⟩
    refine ⟨?_, hother (fun h => nomatch h)⟩
    have hnot := mt hzero.mpr (fun h => nomatch h)
    push Not at hnot
    exact hnot
  · rintro ⟨⟨k, hk, hfailed⟩, hsame⟩
    refine ⟨⟨(fun h => nomatch h), fun hall => absurd (hall k hk) hfailed⟩, fun _ => hsame⟩

/-- One that replies 0 is if every write was made. -/
theorem allOrNothing_ok {written : List Key} {keys : Keys} {p : ConfigCalls} :
    AllOrNothing written keys (.ok, p) ↔ ∀ k ∈ written, (k, 0) ∈ p.written :=
  ⟨fun h => h.zero.mp rfl, fun hall => ⟨iff_of_true rfl hall, fun hne => absurd rfl hne⟩⟩

/-- **"#reg" is all-or-nothing** exactly when its arguments are refused, its two writes go the
same way, or the only one made changed nothing. -/
theorem regCommandLine_whole_iff (keys : Keys) (args : Chars) :
    AllOrNothing regKeys keys (regCommandLine results ⟨keys, []⟩ args) ↔
      RegWhole results keys args := by
  unfold regCommandLine RegWhole
  cases hargs : regArgs args with
  | none => exact iff_of_true (allOrNothing_refused (by decide) keys) trivial
  | some parsed =>
      obtain ⟨code, name⟩ := parsed
      simp only [ConfigCalls.configSetStr]
      by_cases hcode : results .regCode = 0 <;> by_cases hname : results .deviceName = 0
      · simp [hcode, hname, allOrNothing_ok, regKeys]
      · simp [hcode, hname, allOrNothing_error, regKeys, Function.update, eq_comm]
      · simp [hcode, hname, allOrNothing_error, regKeys, Function.update, eq_comm]
      · simp [hcode, hname, allOrNothing_error, regKeys, eq_comm]

/-- **"#host" is all-or-nothing** exactly when its argument is refused, the host is not stored,
or both credentials are cleared. -/
theorem hostCommandLine_whole_iff (keys : Keys) (args : Chars) :
    AllOrNothing hostKeys keys (hostCommandLine results ⟨keys, []⟩ args) ↔
      HostWhole results args := by
  unfold hostCommandLine HostWhole
  cases hargs : hostArgs args with
  | none => exact iff_of_true (allOrNothing_refused (by decide) keys) (.inl rfl)
  | some host =>
      simp only [ConfigCalls.configSetStr]
      by_cases hhost : results .cloudHost = 0
      · simp [hhost, allOrNothing_ok, hostKeys, eq_comm]
      · simp [hhost, allOrNothing_error, hostKeys, eq_comm]

/-- **Which commands are all-or-nothing**, for every argument string, store and pattern of
results. -/
theorem commands_whole_iff (keys : Keys) (args : Chars) :
    (AllOrNothing regKeys keys (regCommandLine results ⟨keys, []⟩ args) ↔
      RegWhole results keys args) ∧
    (AllOrNothing hostKeys keys (hostCommandLine results ⟨keys, []⟩ args) ↔
      HostWhole results args) :=
  ⟨regCommandLine_whole_iff results keys args, hostCommandLine_whole_iff results keys args⟩

/-- "#reg,ABCDEF,lamp" with a name that cannot be stored leaves the code behind, and
"#host,h" with an id that cannot be cleared replies 0. -/
theorem commands_half_done :
    (¬ ∀ (results : Key → ℤ) (keys : Keys) (args : Chars),
      AllOrNothing regKeys keys (regCommandLine results ⟨keys, []⟩ args)) ∧
    ¬ ∀ (results : Key → ℤ) (keys : Keys) (args : Chars),
      AllOrNothing hostKeys keys (hostCommandLine results ⟨keys, []⟩ args) := by
  constructor
  · intro h
    have hreg := (regCommandLine_whole_iff _ _ _).mp
      (h (fun k => if k = .deviceName then -Errno.io else 0) (fun _ => [])
        ['A', 'B', 'C', 'D', 'E', 'F', ',', 'l', 'a', 'm', 'p'])
    have hargs : regArgs ['A', 'B', 'C', 'D', 'E', 'F', ',', 'l', 'a', 'm', 'p'] =
        some (cs "ABCDEF", cs "lamp") := by decide
    rw [RegWhole, hargs] at hreg
    revert hreg
    decide
  · intro h
    have hhost := (hostCommandLine_whole_iff _ _ _).mp
      (h (fun k => if k = .deviceId then -Errno.io else 0) (fun _ => []) ['h'])
    revert hhost
    unfold HostWhole
    decide

end NodemFirmware.Cloud
