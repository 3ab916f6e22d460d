import NodemFirmware.Cloud.Receive
import NodemFirmware.Control.Threads

/-! # The cloud's keys in both models

`Cloud.Task` steps `modem_task` and the commands over the five string keys of the cloud; the
programs of this directory call the config store.  They are two views of one thing:

* `Agrees`: the keys, in RAM and saved, are what the store holds under their names.
* `commandRest` is what is left of the program of a "#reg" or "#host" where the command thread is,
  and `registerRest` what is left of `step_register` where `modem_task` is.  A step of either thread
  is the next call of its program, or makes none (`commandStep_calls`, `registerStep_calls`,
  `registerStep_quiet`); what the other threads call leaves the keys (`Agrees.other`).
* Alone, `step_register` ends as the machine does (`run_stepRegister`), and the two commands reply
  and save as in `Cloud.Provision` (`run_regLine`, `run_hostLine`). -/

namespace NodemFirmware.Control

open CText Calls ConfigStore Str
open Cloud hiding Key registrationPending deviceRegistered modemWsPingIntervalS

/-! ### The keys of a store -/

def keyName : Cloud.Key → CStr
  | .cloudHost => cloudHostKey
  | .deviceId => deviceIdKey
  | .deviceSecret => deviceSecretKey
  | .deviceName => deviceNameKey
  | .regCode => regCodeKey

/-- What the table holds under the cloud's keys. -/
def ramKeys (st : Store) : Keys := fun k =>
  ((st.entries.lookup (.str, keyName k)).map (·.value.asStr)).getD []

/-- What is saved under them. -/
def flashKeys (st : Store) : Keys := fun k =>
  ((st.flash (fullKey (.str, keyName k))).map ofBytes).getD []

theorem keyName_inj {k k' : Cloud.Key} (h : keyName k = keyName k') : k = k' := by
  cases k <;> cases k' <;> first | rfl | exact absurd h (by decide)

theorem keyName_mem (k : Cloud.Key) : (.str, keyName k) ∈ settingKeys := by
  cases k <;> decide

@[simp] theorem configGetStr_keyName (st : Store) (k : Cloud.Key) (bufLen : ℕ) :
    ConfigStore.configGetStr st.entries (keyName k) bufLen [] = clip bufLen (ramKeys st k) := by
  unfold ConfigStore.configGetStr ramKeys
  rw [entryAt_findEntry]

/-- What the machine is told of a save that returned `err`; no set of these keys is refused. -/
def saveOutcome (err : ℤ) : SaveOutcome := if err = 0 then .saved else .unsaved

/-- A value that is set: in RAM, and in flash if it was saved. -/
theorem keys_set {st : Store} {k : Cloud.Key} {val : CStr} {err : ℤ} {r : ℤ × Store}
    (h : SetTo st (keyName k) (.str val) err r) (hnul : (0 : UInt8) ∉ val) :
    ramKeys r.2 = Function.update (ramKeys st) k val ∧
      flashKeys r.2 = if err = 0 then Function.update (flashKeys st) k val else flashKeys st := by
  constructor
  · funext k'
    unfold ramKeys
    rw [h.lookup]
    by_cases hk : k' = k
    · subst hk
      simp [Value.type, Value.asStr]
    · have hne : ((EntryType.str, keyName k) : Key) ≠ (.str, keyName k') := fun heq =>
        hk (keyName_inj (congrArg Prod.snd heq).symm)
      simp [Value.type, hk, hne]
  · rw [show flashKeys r.2 = fun k' =>
      ((r.2.flash (fullKey (.str, keyName k'))).map ofBytes).getD [] from rfl, h.flash]
    split_ifs
    · funext k'
      by_cases hk : k' = k
      · subst hk
        simp [Value.type, Value.bytes, ofBytes_append_zero hnul]
      · have hne : fullKey (.str, keyName k') ≠ fullKey (.str, keyName k) := fun heq =>
          hk (keyName_inj (congrArg Prod.snd (fullKey_inj
            (settings.validKey _ (keyName_mem k')).length_le
            (settings.validKey _ (keyName_mem k)).length_le heq)))
        simp [Value.type, hk, hne, flashKeys]
    · rfl

/-- The machine's keys are those of the store. -/
structure Agrees (m : Modem) (s : Settings) : Prop where
  sound : s.store.Sound settings
  ram : m.ram = ramKeys s.store
  flash : m.flash = flashKeys s.store

section agrees

variable {m : Modem} {s : Settings}

/-- A step of the machine that sets no key. -/
theorem Agrees.same (h : Agrees m s) {m' : Modem} (hram : m'.ram = m.ram)
    (hflash : m'.flash = m.flash) : Agrees m' s :=
  ⟨h.sound, hram.trans h.ram, hflash.trans h.flash⟩

/-- **A read** of one of the cloud's keys. -/
theorem Agrees.get (h : Agrees m s) (k : Cloud.Key) (bufLen : ℕ) :
    ConfigStore.configGetStr s.store.entries (keyName k) bufLen [] = clip bufLen (m.ram k) := by
  rw [configGetStr_keyName, h.ram]

/-- **A set** of one, in both. -/
theorem Agrees.set (h : Agrees m s) {k : Cloud.Key} {val : CStr}
    (hok : SettingOk (.str, keyName k) (.str val)) (err : ℤ) :
    (ConfigStore.configSetStr s.store (keyName k) val err).1 = err ∧
      Agrees (m.setStr k val (saveOutcome err))
        { s with store := (ConfigStore.configSetStr s.store (keyName k) val err).2 } := by
  obtain ⟨hset, hsound⟩ := h.sound.configSetStr (keyName_mem k) hok err
  obtain ⟨hram, hflash⟩ := keys_set hset hok.valid.no_nul
  refine ⟨hset.result, hsound, ?_, ?_⟩
  · rw [hram, ← h.ram]
    unfold Modem.setStr saveOutcome
    by_cases herr : err = 0 <;> simp [herr]
  · rw [hflash, ← h.flash]
    unfold Modem.setStr saveOutcome
    by_cases herr : err = 0 <;> simp [herr]

/-- A call that sets none of the cloud's keys. -/
theorem Agrees.other (h : Agrees m s) {keys : List Key} {op : Op} (hop : op.Follows keys)
    (hkeys : ∀ k, op.setKey ≠ some (.str, keyName k)) (err : ℤ) : Agrees m (op.exec err s).2 := by
  have hleaves := fun k => hop.leaves h.sound (keyName_mem k) (hkeys k) err
  refine ⟨hop.sound h.sound err, h.ram.trans ?_, h.flash.trans ?_⟩
  · funext k
    unfold ramKeys
    rw [(hleaves k).1]
  · funext k
    unfold flashKeys
    rw [(hleaves k).2]

end agrees

/-! ### Readers -/

variable (err : ℤ) (s : Settings)

theorem run_registrationPending : registrationPending.run (Op.exec err) s =
    (Cloud.registrationPending (ramKeys s.store), s) := by
  unfold registrationPending Cloud.registrationPending
  rw [Prog.run_bind, run_configGetStr, ← show keyName .regCode = regCodeKey from rfl,
    configGetStr_keyName]
  simp

theorem run_deviceRegistered : deviceRegistered.run (Op.exec err) s =
    (Cloud.deviceRegistered (ramKeys s.store), s) := by
  unfold deviceRegistered Cloud.deviceRegistered
  rw [Prog.run_bind, run_configGetStr, ← show keyName .deviceId = deviceIdKey from rfl,
    configGetStr_keyName]
  simp

/-- The interval is the one of the value stored, which is replaced if it is out of range. -/
theorem run_modemWsPingIntervalS :
    let secs := ConfigStore.configGetI32 s.store.entries pingKey 0
    modemWsPingIntervalS.run (Op.exec err) s = (Cloud.modemWsPingIntervalS secs.toInt,
      if 1 ≤ secs.toInt ∧ secs.toInt ≤ modemWsPingMaxS then s else
        { s with store := (ConfigStore.configSetI32 s.store pingKey
          (BitVec.ofNat 32 modemWsPingDefaultS) err).2 }) := by
  unfold modemWsPingIntervalS Cloud.modemWsPingIntervalS
  rw [Prog.run_bind, run_configGetI32, show (modemWsPingMaxS : ℤ) = 3600 from rfl]
  dsimp only
  generalize ConfigStore.configGetI32 s.store.entries pingKey 0 = secs
  by_cases hrange : 1 ≤ secs.toInt ∧ secs.toInt ≤ 3600
  · have hnat : secs.toNat = secs.toInt.toNat := by
      have hpos := hrange.1
      rw [BitVec.toInt_eq_toNat_cond] at hpos ⊢
      split_ifs at hpos ⊢ <;> omega
    rw [if_pos hrange, if_pos hrange, if_pos hrange, hnat]
    rfl
  · rw [if_neg hrange, if_neg hrange, if_neg hrange]
    rfl

/-! ### "#reg" and "#host" -/

/-- What is left of the program of a command. -/
def commandRest : CommandPc → Program Unit
  | .idle => pure ()
  | .hostStore host => do
      let storeErr ← configSetStr cloudHostKey host
      if storeErr ≠ 0 then pure ()
      else
        let _ ← configSetStr deviceIdKey []
        let _ ← configSetStr deviceSecretKey []
        pure ()
  | .hostClearId _ => do
      let _ ← configSetStr deviceIdKey []
      let _ ← configSetStr deviceSecretKey []
      pure ()
  | .hostClearSecret _ => do
      let _ ← configSetStr deviceSecretKey []
      pure ()
  | .regStoreCode code name => do
      let _ ← configSetStr regCodeKey code
      let _ ← configSetStr deviceNameKey name
      pure ()
  | .regStoreName name => do
      let _ ← configSetStr deviceNameKey name
      pure ()

/-- A command begins in both. -/
theorem commandRest_regCommand {m : Modem} (hidle : m.command = .idle) (args : Chars) :
    commandRest (regCommand m (encode (Str.trim (splitOnce ',' args).1))
      (encode (Str.trim ((splitOnce ',' args).2.getD [])))).command = finish (regLine args) := by
  rw [regCommand_eq]
  unfold regLine
  cases regArgs args with
  | none =>
      dsimp only
      rw [hidle]
      rfl
  | some parsed => rfl

theorem commandRest_hostCommand {m : Modem} (hidle : m.command = .idle) (args : Chars) :
    commandRest (hostCommand m (encode (Str.trim args))).command = finish (hostLine args) := by
  rw [hostCommand_eq]
  unfold hostLine
  cases hostArgs args with
  | none =>
      dsimp only
      rw [hidle]
      rfl
  | some host =>
      refine congrArg (Prog.call _) (funext fun (storeErr : ℤ) => ?_)
      show (if storeErr ≠ (0 : ℤ) then _ else _) = finish (if storeErr ≠ (0 : ℤ) then _ else _)
      rw [apply_ite finish]
      rfl

/-- The calls, with what saving returns for each key. -/
def execSaving (results : CStr → ℤ) (op : Op) (s : Settings) : op.Res × Settings :=
  op.exec (match op with
    | .store (.setStr key _) => results key
    | _ => 0) s

/-- A set, and what is done with what it returned: what is saved is what `ConfigCalls` has. -/
theorem run_set {s : Settings} (h : s.store.Sound settings) {keys : List Key} {k : Cloud.Key}
    {val : CStr} (hop : (Op.store (.setStr (keyName k) val)).Follows keys) (results : CStr → ℤ) :
    ∃ s' : Settings, s'.store.Sound settings ∧
      flashKeys s'.store = (if results (keyName k) = 0
        then Function.update (flashKeys s.store) k val else flashKeys s.store) ∧
      ∀ {α : Type} (f : ℤ → Program α),
        (configSetStr (keyName k) val >>= f).run (execSaving results) s =
          (f (results (keyName k))).run (execSaving results) s' := by
  have hok := (hop.schema _ rfl).2
  obtain ⟨hset, hsound⟩ := h.configSetStr (keyName_mem k) hok (results (keyName k))
  refine ⟨{ s with store := (ConfigStore.configSetStr s.store (keyName k) val
    (results (keyName k))).2 }, hsound, (keys_set hset hok.valid.no_nul).2, fun f => ?_⟩
  rw [Prog.run_bind]
  exact congrArg (fun err => (f err).run (execSaving results) _) hset.result

/-- **"#reg" alone** replies and saves as its two writes do. -/
theorem run_regLine {s : Settings} (h : s.store.Sound settings) (results : CStr → ℤ)
    (args : Chars) :
    let r := regCommandLine (fun k => results (keyName k)) ⟨flashKeys s.store, []⟩ args
    ((regLine args).run (execSaving results) s).1 = r.1 ∧
      flashKeys ((regLine args).run (execSaving results) s).2.store = r.2.keys := by
  have hfollows := follows_regLine args
  unfold regCommandLine regLine at *
  cases hargs : regArgs args with
  | none => exact ⟨rfl, rfl⟩
  | some parsed =>
      obtain ⟨code, name⟩ := parsed
      rw [hargs] at hfollows
      obtain ⟨hcode, hrest⟩ := hfollows
      obtain ⟨s₁, hsound, hsaved, hrun⟩ := run_set (k := .regCode) h hcode results
      obtain ⟨s₂, -, hsaved', hrun'⟩ := run_set (k := .deviceName) hsound
        (hrest (0 : ℤ) trivial).1 results
      rw [hsaved] at hsaved'
      simp only [keyName] at hrun hrun'
      dsimp only
      rw [hrun, hrun']
      exact ⟨rfl, hsaved'⟩

/-- **"#host" alone.** -/
theorem run_hostLine {s : Settings} (h : s.store.Sound settings) (results : CStr → ℤ)
    (args : Chars) :
    let r := hostCommandLine (fun k => results (keyName k)) ⟨flashKeys s.store, []⟩ args
    ((hostLine args).run (execSaving results) s).1 = r.1 ∧
      flashKeys ((hostLine args).run (execSaving results) s).2.store = r.2.keys := by
  have hfollows := follows_hostLine args
  unfold hostCommandLine hostLine at *
  cases hargs : hostArgs args with
  | none => exact ⟨rfl, rfl⟩
  | some host =>
      rw [hargs] at hfollows
      obtain ⟨hhost, hrest⟩ := hfollows
      obtain ⟨s₁, hsound, hsaved, hrun⟩ := run_set (k := .cloudHost) h hhost results
      simp only [ConfigCalls.configSetStr, ← show keyName .cloudHost = cloudHostKey from rfl,
        ← show keyName .deviceId = deviceIdKey from rfl,
        ← show keyName .deviceSecret = deviceSecretKey from rfl]
      rw [hrun]
      by_cases herr : results (keyName .cloudHost) ≠ 0
      · rw [if_pos herr, if_pos herr]
        exact ⟨rfl, hsaved⟩
      · obtain ⟨hid, hrest'⟩ := hrest (0 : ℤ) trivial
        obtain ⟨s₂, hsound', hsaved', hrun'⟩ := run_set (k := .deviceId) hsound hid results
        obtain ⟨s₃, -, hsaved'', hrun''⟩ := run_set (k := .deviceSecret) hsound'
          (hrest' (0 : ℤ) trivial).1 results
        rw [hsaved', hsaved] at hsaved''
        rw [if_neg herr, if_neg herr, hrun', hrun'']
        exact ⟨rfl, hsaved''⟩

/-- A call that sets one of the cloud's keys. -/
theorem Agrees.exec {m : Modem} {s : Settings} (h : Agrees m s) {keys : List Key} {k : Cloud.Key}
    {val : CStr} (hop : (Op.store (.setStr (keyName k) val)).Follows keys) (err : ℤ) :
    Agrees (m.setStr k val (saveOutcome err))
        ((Op.store (.setStr (keyName k) val)).exec err s).2 :=
  (h.set (hop.schema _ rfl).2 err).2

/-- **A step of the command thread** is the next call of what is left of its program. -/
theorem commandStep_calls {m : Modem} {s : Settings} (h : Agrees m s) {op : Op}
    {k : op.Res → Program Unit} (hnext : commandRest m.command = .call op k) {keys : List Key}
    (hop : op.Follows keys) (err : ℤ) :
    Agrees (commandStep m (saveOutcome err)) (op.exec err s).2 ∧
      commandRest (commandStep m (saveOutcome err)).command = k (op.exec err s).1 := by
  unfold commandStep
  cases hpc : m.command with
  | idle =>
      rw [hpc] at hnext
      cases hnext
  | hostStore host =>
      rw [hpc] at hnext
      cases hnext
      refine ⟨(h.exec (k := .cloudHost) hop err).same rfl rfl, ?_⟩
      have hres : (ConfigStore.configSetStr s.store cloudHostKey host err).1 = err :=
        (h.set (k := .cloudHost) (hop.schema _ rfl).2 err).1
      show _ = (if (ConfigStore.configSetStr s.store cloudHostKey host err).1 ≠ 0 then _ else _)
      rw [hres]
      by_cases herr : err = 0
      · subst herr
        rfl
      · rw [if_pos herr]
        unfold saveOutcome
        rw [if_neg herr]
        rfl
  | hostClearId before =>
      rw [hpc] at hnext
      cases hnext
      exact ⟨(h.exec (k := .deviceId) hop err).same rfl rfl, rfl⟩
  | hostClearSecret before =>
      rw [hpc] at hnext
      cases hnext
      exact ⟨(h.exec (k := .deviceSecret) hop err).same rfl rfl, rfl⟩
  | regStoreCode code name =>
      rw [hpc] at hnext
      cases hnext
      exact ⟨(h.exec (k := .regCode) hop err).same rfl rfl, rfl⟩
  | regStoreName name =>
      rw [hpc] at hnext
      cases hnext
      exact ⟨(h.exec (k := .deviceName) hop err).same rfl rfl, rfl⟩

/-! ### `step_register` -/

def rejectRest : Program Unit := do
  let _ ← configSetStr regCodeKey regCodeRejected
  pure ()

def consumeRest : Program Unit := do
  let _ ← configSetStr regCodeKey []
  pure ()

def storeRest (reply : Reply) : Program Unit := do
  let _ ← configSetStr deviceIdKey reply.id
  let _ ← configSetStr deviceSecretKey reply.secret
  let _ ← configSetStr deviceNameKey reply.verifiedName
  consumeRest

/-- From what the request came to, if there was an IMEI to send. -/
def replyRest : Option (ℤ × Reply) → Program Unit
  | some (0, reply) => storeRest reply
  | _ => rejectRest

theorem replyRest_some (r : ℤ × Reply) :
    replyRest (some r) = if r.1 ≠ 0 then rejectRest else storeRest r.2 := by
  obtain ⟨err, reply⟩ := r
  by_cases herr : err = 0
  · subst herr
    rfl
  · rw [if_pos herr]
    unfold replyRest
    split
    · next heq => exact absurd (congrArg Prod.fst (Option.some.inj heq)) herr
    · rfl

def requestRest (a : Attempt) (code name : CStr) : Program Unit :=
  replyRest ((getImei a.imeiResp).map fun imei => registerHttpRequest a.host code imei name a.calls)

def nameRest (a : Attempt) (code name : CStr) : Program Unit :=
  if name.length < regNameMinLen ∨ regNameMaxLen < name.length then consumeRest
  else if !a.connected then pure ()
  else requestRest a code name

/-- What is left of `step_register` where `modem_task` is. -/
def registerRest (a : Attempt) : ModemPc → Program Unit
  | .top .register => stepRegister a
  | .regCode => do
      let code ← configGetStr regCodeKey (regCodeLen + 1) []
      let name ← configGetStr deviceNameKey (regNameMaxLen + 1) []
      nameRest a code name
  | .regName code => do
      let name ← configGetStr deviceNameKey (regNameMaxLen + 1) []
      nameRest a code name
  | .regDrop => consumeRest
  | .regImei _ code name => requestRest a code name
  | .regRequest _ code name imei =>
      replyRest (some (registerHttpRequest a.host code imei name a.calls))
  | .regStoreId _ reply => storeRest reply
  | .regStoreSecret _ reply => do
      let _ ← configSetStr deviceSecretKey reply.secret
      let _ ← configSetStr deviceNameKey reply.verifiedName
      consumeRest
  | .regStoreName _ reply => do
      let _ ← configSetStr deviceNameKey reply.verifiedName
      consumeRest
  | .regConsume _ => consumeRest
  | .regClose _ failed => if failed then rejectRest else pure ()
  | .regReject => rejectRest
  | _ => pure ()

/-- What the machine attempts, if the modem answers `imeiResp` and the request's calls return
`calls`. -/
def attempt (imeiResp : CStr) (calls : HttpCalls) (m : Modem) : Attempt :=
  ⟨m.gTlsFd.isSome, imeiResp, m.gCloudHost, calls⟩

/-- The places in `step_register`. -/
inductive Registering : ModemPc → Prop where
  | top : Registering (.top .register)
  | code : Registering .regCode
  | name (code : CStr) : Registering (.regName code)
  | drop : Registering .regDrop
  | imei (fd : ℕ) (code name : CStr) : Registering (.regImei fd code name)
  | request (fd : ℕ) (code name imei : CStr) : Registering (.regRequest fd code name imei)
  | storeId (fd : ℕ) (reply : Reply) : Registering (.regStoreId fd reply)
  | storeSecret (fd : ℕ) (reply : Reply) : Registering (.regStoreSecret fd reply)
  | storeName (fd : ℕ) (reply : Reply) : Registering (.regStoreName fd reply)
  | consume (fd : ℕ) : Registering (.regConsume fd)
  | close (fd : ℕ) (failed : Bool) : Registering (.regClose fd failed)
  | reject : Registering .regReject

/-- How many steps `step_register` takes at most from where the task is. -/
def registerLeft : ModemPc → ℕ
  | .top .register => 11
  | .regCode => 10
  | .regName _ => 9
  | .regImei _ _ _ => 8
  | .regRequest _ _ _ _ => 7
  | .regStoreId _ _ => 6
  | .regStoreSecret _ _ => 5
  | .regStoreName _ _ => 4
  | .regConsume _ => 3
  | .regClose _ _ => 2
  | .regReject => 1
  | .regDrop => 1
  | _ => 0

/-- The places where the next step reads or sets a key. -/
def registerCalls : ModemPc → Bool
  | .regImei _ _ _ => false
  | .regRequest _ _ _ _ => false
  | .regClose _ _ => false
  | _ => true

/-- A step is told what the modem and the server answer. -/
structure Answers (imeiResp : CStr) (calls : HttpCalls) (inp : ModemInput) : Prop where
  imei : (if inp.err ≠ 0 then none else getImei inp.cgsn) = getImei imeiResp
  http : inp.http = calls

section register

variable {m : Modem} {s : Settings} {imeiResp : CStr} {calls : HttpCalls} {inp : ModemInput}

/-- `step_register` gets on, and `modem_task` with it at the end. -/
theorem registerStep_left (inp : ModemInput) (hreg : Registering m.modem) :
    registerLeft (modemStep m inp).modem < registerLeft m.modem ∧
      (Registering (modemStep m inp).modem ∨ (modemStep m inp).modem = .top .pdn) := by
  unfold modemStep
  generalize m.modem = pc at hreg ⊢
  cases hreg with
  | top =>
      unfold modemTop
      dsimp only
      split_ifs
      · exact ⟨(by decide : 10 < 11), .inl .code⟩
      · exact ⟨(by decide : 0 < 11), .inr rfl⟩
  | code => exact ⟨(by decide : 9 < 10), .inl (.name _)⟩
  | name code =>
      dsimp only
      split_ifs
      · exact ⟨(by decide : 1 < 9), .inl .drop⟩
      · cases m.gTlsFd with
        | none => exact ⟨(by decide : 0 < 9), .inr rfl⟩
        | some fd => exact ⟨(by decide : 8 < 9), .inl (.imei fd _ _)⟩
  | drop => exact ⟨(by decide : 0 < 1), .inr rfl⟩
  | imei fd code name =>
      dsimp only
      split_ifs
      · exact ⟨(by decide : 2 < 8), .inl (.close fd true)⟩
      · cases getImei inp.cgsn with
        | none => exact ⟨(by decide : 2 < 8), .inl (.close fd true)⟩
        | some imei => exact ⟨(by decide : 7 < 8), .inl (.request fd _ _ _)⟩
  | request fd code name imei =>
      unfold registerRequest
      dsimp only
      split_ifs
      · exact ⟨(by decide : 2 < 7), .inl (.close fd true)⟩
      · exact ⟨(by decide : 6 < 7), .inl (.storeId fd _)⟩
  | storeId fd reply => exact ⟨(by decide : 5 < 6), .inl (.storeSecret fd reply)⟩
  | storeSecret fd reply => exact ⟨(by decide : 4 < 5), .inl (.storeName fd reply)⟩
  | storeName fd reply => exact ⟨(by decide : 3 < 4), .inl (.consume fd)⟩
  | consume fd => exact ⟨(by decide : 2 < 3), .inl (.close fd false)⟩
  | close fd failed =>
      cases failed
      · exact ⟨(by decide : 0 < 2), .inr rfl⟩
      · exact ⟨(by decide : 1 < 2), .inl .reject⟩
  | reject => exact ⟨(by decide : 0 < 1), .inr rfl⟩

/-- A step that makes no call of the store. -/
theorem registerStep_quiet (h : Agrees m s) (hreg : Registering m.modem)
    (hcalls : registerCalls m.modem = false) (hinp : Answers imeiResp calls inp) :
    Agrees (modemStep m inp) s ∧
      registerRest (attempt imeiResp calls (modemStep m inp)) (modemStep m inp).modem =
        registerRest (attempt imeiResp calls m) m.modem := by
  generalize hpc : m.modem = pc at hreg hcalls ⊢
  cases hreg with
  | imei fd code name =>
      have hquiet : Quiet m (modemStep m inp) := modemStep_quiet (by rw [hpc]; rfl)
      refine ⟨h.same hquiet.ram hquiet.flash, ?_⟩
      unfold modemStep
      rw [hpc]
      dsimp only
      have himei := hinp.imei
      show _ = replyRest ((getImei imeiResp).map _)
      rw [← himei]
      split_ifs
      · rfl
      · cases getImei inp.cgsn <;> rfl
  | request fd code name imei =>
      have hstep : modemStep m inp = registerRequest m fd code name imei inp := by
        unfold modemStep
        rw [hpc]
      have hquiet := registerRequest_quiet (m := m) fd code name imei inp
      obtain ⟨hram, hflash, -⟩ := answered_rest (m.asked fd code name imei) (m.peer fd)
        (registerExchange m.gCloudHost code imei name inp.http)
      rw [hstep]
      refine ⟨h.same (hquiet.ram.trans hram) (hquiet.flash.trans hflash), ?_⟩
      rw [registerRequest_modem, hinp.http]
      show registerRest _ (if (registerHttpRequest m.gCloudHost code imei name calls).1 ≠ 0
        then _ else _) = replyRest (some _)
      rw [replyRest_some]
      show _ = if (registerHttpRequest m.gCloudHost code imei name calls).1 ≠ 0 then _ else _
      split_ifs <;> rfl
  | close fd failed =>
      have hquiet : Quiet m (modemStep m inp) := modemStep_quiet (by rw [hpc]; rfl)
      refine ⟨h.same hquiet.ram hquiet.flash, ?_⟩
      unfold modemStep
      rw [hpc]
      cases failed <;> rfl
  | _ => cases hcalls

/-- The machine goes from `m` to `m'` with the next call of what is left of `step_register`. -/
def NextCall (imeiResp : CStr) (calls : HttpCalls) (err : ℤ) (s : Settings) (m m' : Modem) : Prop :=
  ∃ op k, registerRest (attempt imeiResp calls m) m.modem = .call op k ∧
    Agrees m' (op.exec err s).2 ∧
    registerRest (attempt imeiResp calls m') m'.modem = k (op.exec err s).1

theorem Agrees.pending (h : Agrees m s) : Cloud.registrationPending m.ram =
    (decide (ConfigStore.configGetStr s.store.entries regCodeKey (regCodeLen + 1) [] ≠ []) &&
      decide (ConfigStore.configGetStr s.store.entries regCodeKey (regCodeLen + 1) [] ≠
        regCodeRejected)) := by
  have hcode := h.get .regCode (regCodeLen + 1)
  unfold Cloud.registrationPending
  rw [← hcode]
  rfl

/-- The first step reads whether a registration is pending. -/
theorem registerTop_calls (h : Agrees m s) (hpc : m.modem = .top .register) (err : ℤ) :
    NextCall imeiResp calls err s m (modemStep m inp) := by
  have hstep : modemStep m inp = if Cloud.registrationPending m.ram
      then (m.setStatus .register .running 0).goto .regCode
      else (m.setStatus .register .running 0).registerDone := by
    unfold modemStep
    rw [hpc]
    rfl
  unfold NextCall
  rw [hstep, hpc]
  refine ⟨_, _, rfl, ?_, ?_⟩
  · split_ifs <;> exact h.same rfl rfl
  · show _ = if !(decide
      (ConfigStore.configGetStr s.store.entries regCodeKey (regCodeLen + 1) [] ≠ []) &&
        decide (ConfigStore.configGetStr s.store.entries regCodeKey (regCodeLen + 1) [] ≠
          regCodeRejected)) then _ else _
    rw [← h.pending]
    cases Cloud.registrationPending m.ram <;> rfl

/-- The name decides whether there is anything to request. -/
theorem registerName_calls (h : Agrees m s) {code : CStr} (hpc : m.modem = .regName code)
    (err : ℤ) : NextCall imeiResp calls err s m (modemStep m inp) := by
  have hquiet : Quiet m (modemStep m inp) := modemStep_quiet (by rw [hpc]; rfl)
  unfold NextCall
  rw [hpc]
  refine ⟨_, _, rfl, h.same hquiet.ram hquiet.flash, ?_⟩
  show _ = nameRest (attempt imeiResp calls m) code
    (ConfigStore.configGetStr s.store.entries (keyName .deviceName) _ [])
  rw [h.get]
  unfold modemStep nameRest
  rw [hpc]
  dsimp only
  split_ifs with hlen hconnected
  · rfl
  · have hnone : m.gTlsFd = none := by simpa [attempt] using hconnected
    rw [hnone]
    rfl
  · have hsome : m.gTlsFd ≠ none := by simpa [attempt] using hconnected
    obtain ⟨fd, hfd⟩ := Option.ne_none_iff_exists'.mp hsome
    rw [hfd]
    rfl

/-- The steps that set a key. -/
theorem registerSets_calls (h : Agrees m s) (hreg : Registering m.modem)
    (hsets : m.modem.sets.isSome = true) {keys : List Key}
    (hfollows : Follows keys (registerRest (attempt imeiResp calls m) m.modem)) {err : ℤ}
    (hsave : inp.save = saveOutcome err) : NextCall imeiResp calls err s m (modemStep m inp) := by
  have hset : ∀ (key : Cloud.Key) {val : CStr} {k : ℤ → Program Unit},
      Follows keys (.call (Op.store (.setStr (keyName key) val)) k) →
      Agrees (m.setStr key val inp.save) ((Op.store (.setStr (keyName key) val)).exec err s).2 := by
    intro key val k hfollows
    rw [hsave]
    exact h.exec hfollows.1 err
  unfold NextCall modemStep
  generalize m.modem = pc at hreg hsets hfollows ⊢
  cases hreg with
  | drop => exact ⟨_, _, rfl, (hset .regCode hfollows).same rfl rfl, rfl⟩
  | storeId fd reply => exact ⟨_, _, rfl, (hset .deviceId hfollows).same rfl rfl, rfl⟩
  | storeSecret fd reply => exact ⟨_, _, rfl, (hset .deviceSecret hfollows).same rfl rfl, rfl⟩
  | storeName fd reply => exact ⟨_, _, rfl, (hset .deviceName hfollows).same rfl rfl, rfl⟩
  | consume fd => exact ⟨_, _, rfl, (hset .regCode hfollows).same rfl rfl, rfl⟩
  | reject => exact ⟨_, _, rfl, (hset .regCode hfollows).same rfl rfl, rfl⟩
  | _ => cases hsets

/-- **A step of `step_register`** that makes a call is its program's next one. -/
theorem registerStep_calls (h : Agrees m s) (hreg : Registering m.modem)
    (hcalls : registerCalls m.modem = true) {keys : List Key}
    (hfollows : Follows keys (registerRest (attempt imeiResp calls m) m.modem)) {err : ℤ}
    (hsave : inp.save = saveOutcome err) : NextCall imeiResp calls err s m (modemStep m inp) := by
  have hsets := fun hsets => registerSets_calls h hreg hsets hfollows hsave
  generalize hpc : m.modem = pc at hreg hcalls hsets
  cases hreg with
  | top => exact registerTop_calls h hpc err
  | code =>
      unfold NextCall modemStep
      rw [hpc]
      refine ⟨_, _, rfl, h.same rfl rfl, ?_⟩
      show _ = registerRest (attempt imeiResp calls m)
        (.regName (ConfigStore.configGetStr s.store.entries (keyName .regCode) _ []))
      rw [h.get]
      rfl
  | name code => exact registerName_calls h hpc err
  | imei fd code name => cases hcalls
  | request fd code name imei => cases hcalls
  | close fd failed => cases hcalls
  | _ => exact hsets rfl

/-- **`step_register` alone**: the machine comes to the end of the program, with the same keys. -/
theorem run_registerRest (h : Agrees m s) (hreg : Registering m.modem) {keys : List Key}
    (hfollows : Follows keys (registerRest (attempt imeiResp calls m) m.modem)) {err : ℤ}
    (hsave : inp.save = saveOutcome err) (hinp : Answers imeiResp calls inp) :
    ∃ n, ((fun m => modemStep m inp)^[n] m).modem = .top .pdn ∧
      Agrees ((fun m => modemStep m inp)^[n] m)
        ((registerRest (attempt imeiResp calls m) m.modem).run (Op.exec err) s).2 := by
  induction hn : registerLeft m.modem using Nat.strong_induction_on generalizing m s with
  | _ left ih =>
      subst hn
      obtain ⟨hless, hnext⟩ := registerStep_left inp hreg
      -- the step leaves a state that agrees, with a program that ends as this one does
      obtain ⟨s', hagrees, hfollows', hrun⟩ : ∃ s', Agrees (modemStep m inp) s' ∧
          Follows keys (registerRest (attempt imeiResp calls (modemStep m inp))
            (modemStep m inp).modem) ∧
          (registerRest (attempt imeiResp calls m) m.modem).run (Op.exec err) s =
            (registerRest (attempt imeiResp calls (modemStep m inp))
              (modemStep m inp).modem).run (Op.exec err) s' := by
        cases hcalls : registerCalls m.modem with
        | false =>
            obtain ⟨hagrees, hrest⟩ := registerStep_quiet h hreg hcalls hinp
            exact ⟨s, hagrees, by rw [hrest]; exact hfollows, by rw [hrest]⟩
        | true =>
            obtain ⟨op, k, hcall, hagrees, hrest⟩ := registerStep_calls h hreg hcalls hfollows hsave
            rw [hcall] at hfollows ⊢
            exact ⟨_, hagrees, by rw [hrest]; exact hfollows.2 _ trivial, by rw [hrest]; rfl⟩
      rw [hrun]
      rcases hnext with hreg' | hdone
      · obtain ⟨n, hn⟩ := ih _ hless hagrees hreg' hfollows' rfl
        exact ⟨n + 1, hn⟩
      · refine ⟨1, hdone, ?_⟩
        rw [hdone]
        exact hagrees

/-- From its start. -/
theorem run_stepRegister (h : Agrees m s) (hstart : m.modem = .top .register) (a : Attempt)
    (hconnected : m.gTlsFd.isSome = a.connected) (hhost : m.gCloudHost = a.host)
    (hstack : StringsIn a.calls.stack) {err : ℤ} (hsave : inp.save = saveOutcome err)
    (hinp : Answers a.imeiResp a.calls inp) :
    ∃ n, ((fun m => modemStep m inp)^[n] m).modem = .top .pdn ∧
      Agrees ((fun m => modemStep m inp)^[n] m) ((stepRegister a).run (Op.exec err) s).2 := by
  have hattempt : attempt a.imeiResp a.calls m = a := by
    unfold attempt
    rw [hconnected, hhost]
  have hfollows := follows_stepRegister (List.Subset.refl registrationKeys) hstack
  have hfollows' : Follows registrationKeys
      (registerRest (attempt a.imeiResp a.calls m) m.modem) := by
    rw [hattempt, hstart]
    exact hfollows
  have hrun := run_registerRest h (by rw [hstart]; exact .top) hfollows' hsave hinp
  rw [hattempt, hstart] at hrun
  exact hrun

end register

end NodemFirmware.Control
