import NodemFirmware.Cloud.Task

/-! # The code and the name of a "#reg"

"#reg" posts a code and then a name, `step_register` reads the code and then the name, and the
outcome of the request is written over both.

* `Posted` keeps what each "#reg" gave, and what was stored since an attempt read its code.
* `InStep` is the invariant: what the mailbox holds, once it is full, one "#reg" gave. -/

namespace NodemFirmware.Cloud

open CText Transition

/-- `given` lists the codes and names of the "#reg"s, the one in flash at the start first.
`codeNew` and `nameNew` say that a code, and the name after it, were stored after
`step_register` last read `reg_code`, and `discarded` that an outcome was written over one. -/
structure Posted where
  modem : Modem
  given : List (CStr × CStr)
  codeNew : Bool
  nameNew : Bool
  discarded : Bool

/-- The code and the name as `step_register` reads them. -/
def mailCode (keys : Keys) : CStr := clip (regCodeLen + 1) (keys .regCode)

def mailName (keys : Keys) : CStr := clip (regNameMaxLen + 1) (keys .deviceName)

def Posted.start (flash : Keys) : Posted :=
  ⟨.start flash, [(mailCode flash, mailName flash)], false, false, false⟩

/-- `step_register` is about to read `reg_code`. -/
def ModemPc.readsCode : ModemPc → Bool
  | regCode => true
  | _ => false

/-- A step of `modem_task`. -/
def Posted.task (p : Posted) (inp : ModemInput) : Posted :=
  { modem := modemStep p.modem inp
    given := p.given
    codeNew := p.codeNew && !p.modem.modem.readsCode
    nameNew := p.nameNew && !p.modem.modem.readsCode
    discarded := p.discarded || (p.codeNew && p.modem.modem.sets = some .regCode) ||
      (p.nameNew && p.modem.modem.sets = some .deviceName) }

/-- A step of a command. -/
def Posted.command (p : Posted) (save : SaveOutcome) : Posted :=
  let p' : Posted := { p with modem := commandStep p.modem save }
  match p.modem.command with
  | .regStoreCode code name => { p' with given := p.given ++ [(code, name)], codeNew := true }
  | .regStoreName _ => { p' with nameNew := p.nameNew || p.codeNew }
  | _ => p'

def Posted.apply (p : Posted) : ModemEvent → Posted
  | .task inp => p.task inp
  | .command save => p.command save
  | e => { p with modem := e.apply p.modem }

/-- The writes of a "#reg" are saved, and the device is not reset. -/
def ModemEvent.Successful (m : Modem) : ModemEvent → Prop
  | command save => m.command.sets = some .regCode ∨ m.command.sets = some .deviceName →
      save = .saved
  | reset => False
  | _ => True

def PostedTrans (p : Posted) (e : ModemEvent) (p' : Posted) : Prop :=
  (e.Possible p.modem ∧ e.Successful p.modem) ∧ p' = p.apply e

/-! ### What a step must meet -/

/-- From the read of the code to the outcome's write of `reg_code`. -/
def ModemPc.attempts : ModemPc → Bool
  | regName _ => true
  | regDrop => true
  | regImei _ _ _ => true
  | regRequest _ _ _ _ => true
  | regStoreId _ _ => true
  | regStoreSecret _ _ => true
  | regStoreName _ _ => true
  | regConsume _ => true
  | regClose _ failed => failed
  | regReject => true
  | _ => false

/-- The name that a "#reg" has yet to store. -/
def CommandPc.nameLeft : CommandPc → Option CStr
  | regStoreName name => some name
  | _ => none

/-- No code is stored while an attempt is running, and no name is read before it is stored. -/
def ModemEvent.InTurn (m : Modem) : ModemEvent → Prop
  | task _ => ∀ name ∈ m.command.nameLeft, m.modem.readsName = true → mailName m.ram = name
  | command _ => m.command.sets = some .regCode → m.modem.attempts = false
  | _ => True

instance (m : Modem) : (e : ModemEvent) → Decidable (e.InTurn m)
  | .task _ => inferInstanceAs (Decidable (∀ name ∈ m.command.nameLeft, _))
  | .command _ => inferInstanceAs (Decidable (_ → _))
  | .host _ => .isTrue trivial
  | .reg _ _ => .isTrue trivial
  | .lte _ _ => .isTrue trivial
  | .reset => .isTrue trivial

instance (m : Modem) : (e : ModemEvent) → Decidable (e.Successful m)
  | .task _ => .isTrue trivial
  | .command _ => inferInstanceAs (Decidable (_ → _))
  | .host _ => .isTrue trivial
  | .reg _ _ => .isTrue trivial
  | .lte _ _ => .isTrue trivial
  | .reset => .isFalse id

/-- Every request is one "#reg"'s, and no outcome was written over a later one. -/
def Posted.Unmixed (p : Posted) : Prop :=
  (∀ r ∈ p.modem.requests, (r.code, r.name) ∈ p.given) ∧ p.discarded = false

/-! ### What the mailbox holds -/

/-- The name that the mailbox holds, or will once the "#reg" under way has stored it. -/
def Modem.nameToBe (m : Modem) : CStr := m.command.nameLeft.getD (mailName m.ram)

/-- The name of a "#reg" under way. -/
def CommandPc.regName : CommandPc → Option CStr
  | regStoreCode _ name => some name
  | regStoreName name => some name
  | _ => none

/-- The verified name has been written and the code has not been taken out. -/
def ModemPc.consumes : ModemPc → Bool
  | regConsume _ => true
  | _ => false

/-- What was read for a request. -/
def ModemPc.mail : ModemPc → Option (CStr × CStr)
  | regImei _ code name => some (code, name)
  | regRequest _ code name _ => some (code, name)
  | _ => none

structure InStep (p : Posted) : Prop where
  registering : Registering p.modem
  code : CodeFits p.modem
  name : ∀ name ∈ p.modem.command.regName, clip (regNameMaxLen + 1) name = name
  posted : p.modem.modem.consumes = false → registrationPending p.modem.ram = true →
    (mailCode p.modem.ram, p.modem.nameToBe) ∈ p.given
  read : ∀ code, p.modem.modem = .regName code → mailCode p.modem.ram = code
  asks : ∀ q ∈ p.modem.modem.mail, q ∈ p.given
  requests : ∀ r ∈ p.modem.requests, (r.code, r.name) ∈ p.given
  older : p.modem.modem.attempts = true → p.codeNew = false ∧ p.nameNew = false
  kept : p.discarded = false

/-! ### Steps of modem_task -/

variable {m : Modem} {p : Posted}

theorem mailCode_congr {keys keys' : Keys} (h : keys' .regCode = keys .regCode) :
    mailCode keys' = mailCode keys := by
  unfold mailCode
  rw [h]

theorem mailName_congr {keys keys' : Keys} (h : keys' .deviceName = keys .deviceName) :
    mailName keys' = mailName keys := by
  unfold mailName
  rw [h]

theorem nextPc_regName {inp : ModemInput} {code : CStr} (h : m.nextPc inp = .regName code) :
    m.modem.readsCode = true ∧ m.modem.sets = none ∧ mailCode m.ram = code := by
  have hfrom := m.nextPc_enters inp
  rw [h] at hfrom
  obtain ⟨hpc, hread⟩ := hfrom
  rw [hpc]
  exact ⟨rfl, rfl, hread.symm⟩

/-- What is sent was read before. -/
theorem nextPc_mail {inp : ModemInput} {q : CStr × CStr} (h : q ∈ (m.nextPc inp).mail) :
    q ∈ m.modem.mail ∨ ∃ code, m.modem = .regName code ∧ q = (code, mailName m.ram) := by
  have hfrom := m.nextPc_enters inp
  cases hnext : m.nextPc inp <;> rw [hnext] at h hfrom <;> cases h
  case regImei fd code name =>
    obtain ⟨hpc, hread⟩ := hfrom
    exact .inr ⟨code, hpc, by rw [hread]; rfl⟩
  case regRequest fd code name imei =>
    rw [show m.modem = .regImei fd code name from hfrom]
    exact .inl rfl

theorem nextPc_attempts {inp : ModemInput} (h : (m.nextPc inp).attempts = true) :
    m.modem.readsCode = true ∨ m.modem.attempts = true := by
  have hfrom := m.nextPc_enters inp
  cases hnext : m.nextPc inp <;> rw [hnext] at h hfrom
  case regName code =>
    rw [hfrom.1]
    exact .inl rfl
  case regDrop =>
    obtain ⟨code, hpc, -⟩ := hfrom
    rw [hpc]
    exact .inr rfl
  case regImei fd code name =>
    rw [hfrom.1]
    exact .inr rfl
  case regRequest fd code name imei =>
    rw [show m.modem = .regImei fd code name from hfrom]
    exact .inr rfl
  case regStoreId fd reply =>
    obtain ⟨code, name, imei, hpc, -⟩ := hfrom
    rw [hpc]
    exact .inr rfl
  case regStoreSecret fd reply =>
    rw [show m.modem = .regStoreId fd reply from hfrom]
    exact .inr rfl
  case regStoreName fd reply =>
    rw [show m.modem = .regStoreSecret fd reply from hfrom]
    exact .inr rfl
  case regConsume fd =>
    obtain ⟨reply, hpc⟩ := hfrom
    rw [hpc]
    exact .inr rfl
  case regClose fd failed =>
    rcases hfrom with ⟨hok, -⟩ | ⟨code, name, hpc⟩ | ⟨code, name, imei, hpc⟩
    · rw [hok] at h
      cases h
    · rw [hpc]
      exact .inr rfl
    · rw [hpc]
      exact .inr rfl
  case regReject =>
    obtain ⟨fd, hpc⟩ := hfrom
    rw [hpc]
    exact .inr rfl
  all_goals cases h

/-- The name is overwritten just before the code is taken out. -/
theorem nextPc_consumes {inp : ModemInput} (h : m.modem.sets = some .deviceName) :
    (m.nextPc inp).consumes = true := by
  unfold Modem.nextPc
  cases hpc : m.modem with
  | regStoreName fd reply => rfl
  | _ =>
      rw [hpc] at h
      cases h

theorem not_consumes {pc : ModemPc} (h : pc.sets ≠ some .regCode) : pc.consumes = false := by
  cases pc with
  | regConsume fd => exact absurd rfl h
  | _ => rfl

/-- The outcome takes the code out. -/
theorem modemStep_outcome {inp : ModemInput} (h : m.modem.sets = some .regCode)
    (hposs : (ModemEvent.task inp).Possible m) :
    registrationPending (modemStep m inp).ram = false := by
  have hval : ∀ keys : Keys, keys .regCode = [] ∨ keys .regCode = regCodeRejected →
      registrationPending keys = false := by
    rintro keys (hempty | hrejected)
    · unfold registrationPending
      rw [hempty]
      rfl
    · unfold registrationPending
      rw [hrejected]
      rfl
  refine hval _ ?_
  rw [modemStep_ram, h]
  simp only
  split_ifs with hram
  · rw [Function.update_self]
    cases hpc : m.modem with
    | regReject => exact .inr rfl
    | regDrop => exact .inl rfl
    | regConsume fd => exact .inl rfl
    | _ =>
        rw [hpc] at h
        cases h
  · have hrefused : inp.save = .refused := by
      cases hsave : inp.save <;> rw [hsave] at hram <;> first | rfl | exact absurd rfl hram
    exact .inl (hposs hrefused .regCode h).1

/-! ### The invariant -/

/-- A read of the name reads the name of the "#reg" that stored the code. -/
theorem InStep.reads (h : InStep p) {inp : ModemInput} {code : CStr}
    (hturn : (ModemEvent.task inp).InTurn p.modem) (hpc : p.modem.modem = .regName code) :
    (code, mailName p.modem.ram) ∈ p.given := by
  have hposted := h.posted (by rw [hpc]; rfl) (h.registering (by rw [hpc]; rfl))
  rw [h.read code hpc] at hposted
  unfold Modem.nameToBe at hposted
  cases hleft : p.modem.command.nameLeft with
  | none =>
      rw [hleft] at hposted
      exact hposted
  | some name =>
      rw [hleft] at hposted
      rw [hturn name hleft (by rw [hpc]; rfl)]
      exact hposted

theorem InStep.task (h : InStep p) {inp : ModemInput}
    (hposs : (ModemEvent.task inp).Possible p.modem)
    (hturn : (ModemEvent.task inp).InTurn p.modem) : InStep (p.task inp) := by
  have hmodem : (modemStep p.modem inp).modem = p.modem.nextPc inp := modemStep_modem p.modem inp
  have hcommand := (modemStep_threads p.modem inp).1
  refine ⟨h.registering.step inp, h.code.apply (.task inp), ?_, ?_, ?_, ?_, ?_, ?_, ?_⟩
  · show ∀ name ∈ (modemStep p.modem inp).command.regName, _
    rw [hcommand]
    exact h.name
  · show (modemStep p.modem inp).modem.consumes = false →
      registrationPending (modemStep p.modem inp).ram = true →
      (mailCode (modemStep p.modem inp).ram, (modemStep p.modem inp).nameToBe) ∈ p.given
    intro hconsumes hpend
    by_cases hcode : p.modem.modem.sets = some .regCode
    · rw [modemStep_outcome hcode hposs] at hpend
      cases hpend
    · have hname : p.modem.modem.sets ≠ some .deviceName := by
        intro hset
        rw [hmodem, nextPc_consumes hset] at hconsumes
        cases hconsumes
      have hsame := modemStep_other hcode inp
      rw [registrationPending_congr hsame] at hpend
      unfold Modem.nameToBe
      rw [mailCode_congr hsame, mailName_congr (modemStep_other hname inp), hcommand]
      exact h.posted (not_consumes hcode) hpend
  · intro code hpc
    change (modemStep p.modem inp).modem = .regName code at hpc
    rw [hmodem] at hpc
    obtain ⟨-, hset, hread⟩ := nextPc_regName hpc
    show mailCode (modemStep p.modem inp).ram = code
    rw [(modemStep_keys hset).1]
    exact hread
  · show ∀ q ∈ (modemStep p.modem inp).modem.mail, q ∈ p.given
    rw [hmodem]
    intro q hq
    rcases nextPc_mail hq with hold | ⟨code, hpc, rfl⟩
    · exact h.asks q hold
    · exact h.reads hturn hpc
  · show ∀ r ∈ (modemStep p.modem inp).requests, (r.code, r.name) ∈ p.given
    rcases modemStep_requests p.modem inp with hsame | ⟨fd, code, name, imei, hpc, hsent⟩
    · rw [hsame]
      exact h.requests
    · rw [hsent]
      intro r hr
      rcases List.mem_append.mp hr with hold | hnew
      · exact h.requests r hold
      · rw [List.mem_singleton.mp hnew]
        exact h.asks (code, name) (by rw [hpc]; rfl)
  · intro hattempts
    change (modemStep p.modem inp).modem.attempts = true at hattempts
    rw [hmodem] at hattempts
    unfold Posted.task
    rcases nextPc_attempts hattempts with hreads | hold
    · simp [hreads]
    · simp [h.older hold]
  · -- The outcome is written in an attempt, since whose read nothing was stored.
    have hold : ∀ key, p.modem.modem.sets = some key → key = .regCode ∨ key = .deviceName →
        p.codeNew = false ∧ p.nameNew = false := by
      intro key hset hkey
      refine h.older ?_
      cases hpc : p.modem.modem with
      | regStoreId fd reply => rfl
      | regStoreSecret fd reply => rfl
      | regStoreName fd reply => rfl
      | regConsume fd => rfl
      | regDrop => rfl
      | regReject => rfl
      | _ =>
          rw [hpc] at hset
          cases hset
    unfold Posted.task
    simp only [Bool.or_eq_false_iff, Bool.and_eq_false_iff, decide_eq_false_iff_not]
    refine ⟨⟨h.kept, ?_⟩, ?_⟩
    · by_cases hset : p.modem.modem.sets = some .regCode
      · exact .inl (hold _ hset (.inl rfl)).1
      · exact .inr hset
    · by_cases hset : p.modem.modem.sets = some .deviceName
      · exact .inl (hold _ hset (.inr rfl)).2
      · exact .inr hset

/-- Steps of others that leave the mailbox and what is posted to it. -/
theorem InStep.other (h : InStep p) {e : ModemEvent} (he : e.byOthers = true)
    (hcode : (e.apply p.modem).ram .regCode = p.modem.ram .regCode)
    (hname : (e.apply p.modem).ram .deviceName = p.modem.ram .deviceName)
    (hleft : (e.apply p.modem).command.nameLeft = p.modem.command.nameLeft)
    (hfits : ∀ name ∈ (e.apply p.modem).command.regName, clip (regNameMaxLen + 1) name = name) :
    InStep { p with modem := e.apply p.modem } := by
  have hs : SameTask p.modem (e.apply p.modem) := other_sameTask he
  refine ⟨h.registering.other h.code he, h.code.apply e, hfits, ?_, ?_, ?_, ?_, ?_, h.kept⟩
  · show (e.apply p.modem).modem.consumes = false →
      registrationPending (e.apply p.modem).ram = true →
      (mailCode (e.apply p.modem).ram, (e.apply p.modem).nameToBe) ∈ p.given
    unfold Modem.nameToBe
    rw [hs.modem, registrationPending_congr hcode, mailCode_congr hcode, mailName_congr hname,
      hleft]
    exact h.posted
  · show ∀ code, (e.apply p.modem).modem = .regName code → mailCode (e.apply p.modem).ram = code
    rw [hs.modem, mailCode_congr hcode]
    exact h.read
  · show ∀ q ∈ (e.apply p.modem).modem.mail, q ∈ p.given
    rw [hs.modem]
    exact h.asks
  · show ∀ r ∈ (e.apply p.modem).requests, (r.code, r.name) ∈ p.given
    rw [hs.requests]
    exact h.requests
  · show (e.apply p.modem).modem.attempts = true → _
    rw [hs.modem]
    exact h.older

/-- "#reg" stores its code. -/
theorem InStep.storeCode (h : InStep p) {code name : CStr}
    (hc : p.modem.command = .regStoreCode code name) (hidle : p.modem.modem.attempts = false) :
    InStep (p.command .saved) := by
  have hs : SameTask p.modem (commandStep p.modem .saved) := commandStep_sameTask p.modem .saved
  have hset : p.modem.command.sets = some .regCode := by rw [hc]; rfl
  have hval : (commandStep p.modem .saved).ram .regCode = code := by
    rw [(commandStep_sets hset).1, hc]
    exact Function.update_self Key.regCode code p.modem.ram
  have hcommand : (commandStep p.modem .saved).command = .regStoreName name := by
    unfold commandStep
    rw [hc]
  have hread : mailCode (commandStep p.modem .saved).ram = code := by
    unfold mailCode
    rw [hval]
    refine clip_of_lt ?_
    rw [h.code code name hc]
    exact Nat.lt_succ_self _
  unfold Posted.command
  rw [hc]
  refine ⟨h.registering.other (e := .command .saved) h.code rfl,
    h.code.apply (.command .saved), ?_, ?_, ?_, ?_, ?_, ?_, h.kept⟩
  · show ∀ left ∈ (commandStep p.modem .saved).command.regName, _
    rw [hcommand]
    intro left hleft
    exact h.name left (by rw [hc]; exact hleft)
  · show _ → _ → (mailCode (commandStep p.modem .saved).ram, _) ∈ p.given ++ [(code, name)]
    intro _ _
    unfold Modem.nameToBe
    rw [hread, hcommand]
    exact List.mem_append_right _ List.mem_cons_self
  · show ∀ c, (commandStep p.modem .saved).modem = .regName c → _
    rw [hs.modem]
    intro c hpc
    rw [hpc] at hidle
    cases hidle
  · show ∀ q ∈ (commandStep p.modem .saved).modem.mail, q ∈ p.given ++ [(code, name)]
    rw [hs.modem]
    exact fun q hq => List.mem_append_left _ (h.asks q hq)
  · show ∀ r ∈ (commandStep p.modem .saved).requests, (r.code, r.name) ∈ p.given ++ [(code, name)]
    rw [hs.requests]
    exact fun r hr => List.mem_append_left _ (h.requests r hr)
  · show (commandStep p.modem .saved).modem.attempts = true → _
    rw [hs.modem, hidle]
    intro hattempts
    cases hattempts

/-- It stores its name. -/
theorem InStep.storeName (h : InStep p) {name : CStr}
    (hc : p.modem.command = .regStoreName name) : InStep (p.command .saved) := by
  have hs : SameTask p.modem (commandStep p.modem .saved) := commandStep_sameTask p.modem .saved
  have hset : p.modem.command.sets = some .deviceName := by rw [hc]; rfl
  have hval : (commandStep p.modem .saved).ram .deviceName = name := by
    rw [(commandStep_sets hset).1, hc]
    exact Function.update_self Key.deviceName name p.modem.ram
  have hcode : (commandStep p.modem .saved).ram .regCode = p.modem.ram .regCode := by
    rw [(commandStep_sets hset).1]
    exact (setStr_other p.modem (by decide) _ .saved).1
  have hcommand : (commandStep p.modem .saved).command = .idle := by
    unfold commandStep
    rw [hc]
  have hread : mailName (commandStep p.modem .saved).ram = name := by
    unfold mailName
    rw [hval]
    exact h.name name (by rw [hc]; rfl)
  have hposted := h.posted
  unfold Modem.nameToBe at hposted
  rw [hc] at hposted
  unfold Posted.command
  rw [hc]
  refine ⟨h.registering.other (e := .command .saved) h.code rfl,
    h.code.apply (.command .saved), ?_, ?_, ?_, ?_, ?_, ?_, h.kept⟩
  · show ∀ left ∈ (commandStep p.modem .saved).command.regName, _
    rw [hcommand]
    intro left hleft
    cases hleft
  · show (commandStep p.modem .saved).modem.consumes = false →
      registrationPending (commandStep p.modem .saved).ram = true →
      (mailCode (commandStep p.modem .saved).ram,
        (commandStep p.modem .saved).command.nameLeft.getD
          (mailName (commandStep p.modem .saved).ram)) ∈ p.given
    rw [hs.modem, registrationPending_congr hcode, mailCode_congr hcode, hread, hcommand]
    exact hposted
  · show ∀ code, (commandStep p.modem .saved).modem = .regName code →
      mailCode (commandStep p.modem .saved).ram = code
    rw [hs.modem, mailCode_congr hcode]
    exact h.read
  · show ∀ q ∈ (commandStep p.modem .saved).modem.mail, q ∈ p.given
    rw [hs.modem]
    exact h.asks
  · show ∀ r ∈ (commandStep p.modem .saved).requests, (r.code, r.name) ∈ p.given
    rw [hs.requests]
    exact h.requests
  · show (commandStep p.modem .saved).modem.attempts = true → p.codeNew = false ∧
      (p.nameNew || p.codeNew) = false
    rw [hs.modem]
    intro hattempts
    obtain ⟨hcodeNew, hnameNew⟩ := h.older hattempts
    rw [hcodeNew, hnameNew]
    exact ⟨rfl, rfl⟩

theorem CommandPc.nameLeft_of_sets {pc : CommandPc} (h : pc.sets ≠ some .deviceName) :
    pc.nameLeft = none := by
  cases pc with
  | regStoreName name => exact absurd rfl h
  | _ => rfl

theorem CommandPc.nameLeft_of_regName {pc : CommandPc} (h : pc.regName = none) :
    pc.nameLeft = none := by
  cases pc with
  | regStoreName name => cases h
  | _ => rfl

/-- The steps of a "#host". -/
theorem commandStep_noName {save : SaveOutcome} (hcode : m.command.sets ≠ some .regCode) :
    (commandStep m save).command.regName = none := by
  unfold commandStep
  cases hc : m.command with
  | idle =>
      simp only [hc]
      rfl
  | hostStore host =>
      simp only
      split_ifs <;> rfl
  | regStoreCode code name =>
      rw [hc] at hcode
      exact absurd rfl hcode
  | _ => rfl

theorem InStep.command (h : InStep p) {save : SaveOutcome}
    (hsuccess : (ModemEvent.command save).Successful p.modem)
    (hturn : (ModemEvent.command save).InTurn p.modem) : InStep (p.command save) := by
  by_cases hcode : p.modem.command.sets = some .regCode
  · have hsaved : save = .saved := hsuccess (.inl hcode)
    subst hsaved
    cases hc : p.modem.command with
    | regStoreCode code name => exact h.storeCode hc (hturn hcode)
    | _ =>
        rw [hc] at hcode
        cases hcode
  · by_cases hname : p.modem.command.sets = some .deviceName
    · have hsaved : save = .saved := hsuccess (.inr hname)
      subst hsaved
      cases hc : p.modem.command with
      | regStoreName name => exact h.storeName hc
      | _ =>
          rw [hc] at hname
          cases hname
    · have hcalm : p.command save = { p with modem := commandStep p.modem save } := by
        unfold Posted.command
        cases hc : p.modem.command with
        | regStoreCode code name =>
            rw [hc] at hcode
            exact absurd rfl hcode
        | regStoreName name =>
            rw [hc] at hname
            exact absurd rfl hname
        | _ => rfl
      have hkeep : ∀ key, p.modem.command.sets ≠ some key →
          (commandStep p.modem save).ram key = p.modem.ram key := by
        intro key hkey
        cases hset : p.modem.command.sets with
        | none => rw [commandStep_idle hset]
        | some key' =>
            have hne : key ≠ key' := by
              rintro rfl
              exact hkey hset
            rw [(commandStep_sets hset).1]
            exact (setStr_other p.modem hne _ save).1
      have hno : (commandStep p.modem save).command.regName = none := commandStep_noName hcode
      rw [hcalm]
      refine h.other (e := .command save) rfl (hkeep _ hcode) (hkeep _ hname) ?_ ?_
      · exact (CommandPc.nameLeft_of_regName hno).trans (CommandPc.nameLeft_of_sets hname).symm
      · show ∀ name ∈ (commandStep p.modem save).command.regName, _
        rw [hno]
        intro name hmem
        cases hmem

/-- A "#host" is taken up. -/
theorem hostCommand_noName {host : CStr} (hidle : m.command = .idle) :
    (hostCommand m host).command.regName = none := by
  unfold hostCommand
  split_ifs
  · rfl
  · rw [hidle]
    rfl

/-- A "#reg" is taken up, with a name that fits. -/
theorem regCommand_name (hidle : m.command = .idle) (code name : CStr) :
    (regCommand m code name).command.nameLeft = none ∧
      ∀ left ∈ (regCommand m code name).command.regName,
        clip (regNameMaxLen + 1) left = left := by
  unfold regCommand
  split_ifs with hlen
  · rw [hidle]
    exact ⟨rfl, fun left hleft => by cases hleft⟩
  · refine ⟨rfl, ?_⟩
    intro left hleft
    cases hleft
    push Not at hlen
    exact clip_of_lt (Nat.lt_succ_of_le hlen.2.2)
  · rw [hidle]
    exact ⟨rfl, fun left hleft => by cases hleft⟩

theorem InStep.apply (h : InStep p) {e : ModemEvent} (hposs : e.Possible p.modem)
    (hsuccess : e.Successful p.modem) (hturn : e.InTurn p.modem) : InStep (p.apply e) := by
  cases e with
  | task inp => exact h.task hposs hturn
  | command save => exact h.command hsuccess hturn
  | host host =>
      have hidle : p.modem.command = .idle := hposs
      have hno : (hostCommand p.modem host).command.regName = none := hostCommand_noName hidle
      have hram := (hostCommand_keys p.modem host).1
      refine h.other (e := .host host) rfl (congrFun hram _) (congrFun hram _) ?_ ?_
      · rw [hidle]
        exact CommandPc.nameLeft_of_regName hno
      · show ∀ name ∈ (hostCommand p.modem host).command.regName, _
        rw [hno]
        intro name hmem
        cases hmem
  | reg code name =>
      have hidle : p.modem.command = .idle := hposs
      have hname := regCommand_name hidle code name
      have hram := (regCommand_keys p.modem code name).1
      refine h.other (e := .reg code name) rfl (congrFun hram _) (congrFun hram _) ?_ hname.2
      rw [hidle]
      exact hname.1
  | lte cid event =>
      obtain ⟨hram, -, hcommand⟩ := lteLcEvtHandler_keys p.modem cid event
      refine h.other (e := .lte cid event) rfl (congrFun hram _) (congrFun hram _) ?_ ?_
      · exact congrArg CommandPc.nameLeft hcommand
      · show ∀ name ∈ (lteLcEvtHandler p.modem cid event).command.regName, _
        rw [hcommand]
        exact h.name
  | reset => exact absurd hsuccess id

theorem start_inStep (flash : Keys) : InStep (.start flash) := by
  refine ⟨?_, ?_, ?_, ?_, ?_, ?_, ?_, ?_, rfl⟩
  · intro hreg
    cases hreg
  · intro code name hcmd
    cases hcmd
  · intro name hname
    cases hname
  · intro _ _
    exact List.mem_cons_self
  · intro code hpc
    cases hpc
  · intro q hq
    cases hq
  · intro r hr
    cases hr
  · intro hattempts
    cases hattempts

/-- **Registrations are not mixed up** in a run in which no code is stored while an attempt is
running and no name is read before it is stored. -/
theorem registrations_unmixed {flash : Keys} {events : List ModemEvent}
    (h : Run (Guarded PostedTrans fun p e => e.InTurn p.modem) (.start flash) events p) :
    p.Unmixed := by
  have hin : InStep p := h.invariant (I := InStep)
    (fun s e t hs hr => by
      obtain ⟨hturn, ⟨hposs, hsuccess⟩, rfl⟩ := hr
      exact hs.apply hposs hsuccess hturn)
    (start_inStep flash)
  exact ⟨hin.requests, hin.kept⟩

/-- A second "#reg" after the first registration is through, and its attempt. -/
def registersTwice : List ModemEvent :=
  registered ++ List.replicate 6 (.task answers) ++
    [.reg (cs "GHIJKL") (cs "lamp two"), .command .saved, .command .saved] ++
    List.replicate 12 (.task answers)

theorem registrations_unmixed_twice :
    (registersTwice.foldl Posted.apply (.start fun _ => [])).modem.requests.length = 2 ∧
      (registersTwice.foldl Posted.apply (.start fun _ => [])).Unmixed := by
  have hrun : Run (Guarded PostedTrans fun p e => e.InTurn p.modem) (.start fun _ => [])
      registersTwice (registersTwice.foldl Posted.apply (.start fun _ => [])) :=
    Run.of_along Posted.apply
      (fun p e => e.InTurn p.modem ∧ e.Possible p.modem ∧ e.Successful p.modem)
      (fun _ _ h => ⟨h.1, h.2, rfl⟩) (by decide +kernel)
  exact ⟨by decide +kernel, registrations_unmixed hrun⟩

/-- A second "#reg" while the request of the first is out. -/
def secondOverFirst : List ModemEvent :=
  registered ++ [.reg (cs "GHIJKL") (cs "lamp two"), .command .saved, .command .saved] ++
    List.replicate 4 (.task answers)

/-- **The outcome of a request discards a later code.** -/
theorem later_code_discarded :
    Run PostedTrans (.start fun _ => []) secondOverFirst
        (secondOverFirst.foldl Posted.apply (.start fun _ => [])) ∧
      (secondOverFirst.foldl Posted.apply (.start fun _ => [])).modem.ram .regCode = [] ∧
      ¬ (secondOverFirst.foldl Posted.apply (.start fun _ => [])).Unmixed := by
  have hdiscarded : (secondOverFirst.foldl Posted.apply (.start fun _ => [])).discarded = true := by
    decide +kernel
  refine ⟨Run.of_along Posted.apply (fun p e => e.Possible p.modem ∧ e.Successful p.modem)
    (fun _ _ h => ⟨h, rfl⟩) (by decide +kernel), by decide +kernel, ?_⟩
  intro hunmixed
  rw [hunmixed.2] at hdiscarded
  cases hdiscarded

end NodemFirmware.Cloud
