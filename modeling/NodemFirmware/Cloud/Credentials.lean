import NodemFirmware.Cloud.Task

/-! # Credentials and the host that issued them

A device id or secret is `Owned` by a host if a registration against that host returned it.

`Bound` is the invariant of the two threads: the credentials in RAM are owned by the host RAM
names, those in flash by the host flash names, and those a connection will send by the host
it was opened to, except for what a "#host" on its way still has to clear.

Neither thread keeps the other from breaking it; `ModemEvent.Safe` is what a step must meet
for the credentials to stay bound. -/

namespace NodemFirmware.Cloud

open CText Transition

/-! ### Ownership -/

inductive Credential where
  | id
  | secret
deriving DecidableEq, Repr

def Credential.key : Credential → Key
  | id => .deviceId
  | secret => .deviceSecret

def Credential.reply : Credential → Reply → CStr
  | id, r => r.id
  | secret, r => r.secret

def Credential.sent : Credential → Handshake → CStr
  | id, h => h.id
  | secret, h => h.secret

/-- A value that is empty, or that a registration against `host` returned. -/
def Modem.Owned (m : Modem) (c : Credential) (host value : CStr) : Prop :=
  value = [] ∨ ∃ i ∈ m.issued, i.host = host ∧ c.reply i.reply = value

/-- What a "#host" on its way remembers, while it still has to clear `c`. -/
def CommandPc.clears (c : Credential) : CommandPc → Option Before
  | hostClearId before => some before
  | hostClearSecret before => if c = .secret then some before else none
  | _ => none

/-- The host in RAM is `host`, or was before the "#host" that still has to clear `c`. -/
def Modem.RamFor (m : Modem) (c : Credential) (host : CStr) : Prop :=
  getCloudHost m.ram = host ∨ ∃ b ∈ m.command.clears c, b.ram = host

/-- The same of the saved host. -/
def Modem.FlashFor (m : Modem) (c : Credential) (host : CStr) : Prop :=
  getCloudHost m.flash = host ∨ ∃ b ∈ m.command.clears c, b.flash = host

/-! ### What a step must meet -/

/-- The credential the next step of `modem_task` stores. -/
def ModemPc.stores : ModemPc → Option Credential
  | regStoreId _ _ => some .id
  | regStoreSecret _ _ => some .secret
  | _ => none

/-- The credential the next step of `modem_task` reads. -/
def ModemPc.reads : ModemPc → Option Credential
  | top .websocket => some .id
  | wsSecret _ _ => some .secret
  | _ => none

/-- The code, the IMEI and the name that the next step of `modem_task` sends. -/
def ModemPc.asks : ModemPc → Option (CStr × CStr × CStr)
  | regRequest _ code name imei => some (code, imei, name)
  | _ => none

/-- The host the next step of a command stores. -/
def CommandPc.newHost : CommandPc → Option CStr
  | hostStore host => some host
  | _ => none

/-- The credential the next step of a command clears. -/
def CommandPc.clearsNow : CommandPc → Option Credential
  | hostClearId _ => some .id
  | hostClearSecret _ => some .secret
  | _ => none

/-- A reply is stored under the host that gave it. -/
def Modem.StoreSafe (m : Modem) (c : Credential) (save : SaveOutcome) : Prop :=
  (save ≠ .refused → m.RamFor c m.gCloudHost) ∧ (save = .saved → m.FlashFor c m.gCloudHost)

/-- A credential that is still to be cleared is read over a connection to its old host. -/
def Modem.ReadSafe (m : Modem) (c : Credential) : Prop :=
  ∀ b ∈ m.command.clears c, b.ram = m.gCloudHost ∨ m.ram c.key = []

/-- A credential that stays in flash while it is cleared in RAM is the new host's too. -/
def Modem.StaysSafe (m : Modem) (c : Credential) : Prop :=
  ∀ b ∈ m.command.clears c, b.flash = getCloudHost m.flash ∨ m.flash c.key = []

/-- A new host that RAM keeps but flash does not is the old one, or finds nothing to clear. -/
def Modem.HostSafe (m : Modem) (host : CStr) : Prop :=
  getCloudHost (Function.update m.ram .cloudHost host) = getCloudHost m.ram ∨
    (m.ram .deviceId = [] ∧ m.ram .deviceSecret = [])

/-- A request whose calls fall short leaves `errno` set. -/
def Modem.RequestSafe (m : Modem) (http : HttpCalls) : Prop :=
  ∀ q ∈ m.modem.asks, http.errno ≠ 0 ∨ http.Complete m.gCloudHost q.1 q.2.1 q.2.2

/-- The condition on the next step of `modem_task`. -/
def Modem.TaskSafe (m : Modem) (inp : ModemInput) : Prop :=
  (∀ c ∈ m.modem.stores, m.StoreSafe c inp.save) ∧ (∀ c ∈ m.modem.reads, m.ReadSafe c) ∧
    m.RequestSafe inp.http

/-- The condition on the next step of a command, when it cannot be saved. -/
def Modem.CommandSafe (m : Modem) : Prop :=
  (∀ host ∈ m.command.newHost, m.HostSafe host) ∧ ∀ c ∈ m.command.clearsNow, m.StaysSafe c

/-- **The condition under which the credentials stay bound.** -/
def ModemEvent.Safe (m : Modem) : ModemEvent → Prop
  | task inp => m.TaskSafe inp
  | command save => save = .unsaved → m.CommandSafe
  | reset => m.StaysSafe .id ∧ m.StaysSafe .secret
  | _ => True

/-! ### The invariant -/

/-- From the read of the host to the read of the credentials. -/
def ModemPc.connected : ModemPc → Bool
  | tlsConnect => true
  | tlsChoose => true
  | top .websocket => true
  | wsSecret _ _ => true
  | _ => false

/-- A reply that is being stored. -/
def ModemPc.reply : ModemPc → Option Reply
  | regStoreId _ reply => some reply
  | regStoreSecret _ reply => some reply
  | _ => none

/-- A credential that was read. -/
def ModemPc.has (c : Credential) : ModemPc → Option CStr
  | wsSecret _ id => if c = .id then some id else none
  | wsConnect _ id secret => if c = .id then some id else some secret
  | _ => none

/-- The socket that will be used. -/
def ModemPc.fd : ModemPc → Option ℕ
  | regImei fd _ _ => some fd
  | regRequest fd _ _ _ => some fd
  | wsSecret fd _ => some fd
  | wsConnect fd _ _ => some fd
  | _ => none

/-- The socket that will be used is the one in `g_tls_fd`. -/
def ModemPc.usesTlsFd : ModemPc → Bool
  | tlsChoose => true
  | top .register => true
  | top .websocket => true
  | retry .register => true
  | regCode => true
  | regName _ => true
  | _ => false

/-- One credential, in RAM, in flash and for the connection that is being set up. -/
structure Modem.Keeps (m : Modem) (c : Credential) : Prop where
  ram : ∃ host, m.RamFor c host ∧ m.Owned c host (m.ram c.key)
  flash : ∃ host, m.FlashFor c host ∧ m.Owned c host (m.flash c.key)
  connected : m.modem.connected = true → m.Owned c m.gCloudHost (m.ram c.key) ∨
    ∃ b ∈ m.command.clears c, m.Owned c b.ram (m.ram c.key)

/-- The invariant of the two threads. -/
structure Bound (m : Modem) : Prop where
  keeps : ∀ c, m.Keeps c
  reply : ∀ r, m.modem.reply = some r → ⟨m.gCloudHost, r⟩ ∈ m.issued
  has : ∀ c v, m.modem.has c = some v → m.Owned c m.gCloudHost v
  peer : ∀ fd, m.modem.fd = some fd → m.peer fd = m.gCloudHost
  tlsFd : m.modem.usesTlsFd = true → ∀ fd, m.gTlsFd = some fd → m.peer fd = m.gCloudHost
  sent : ∀ h ∈ m.handshakes, ∀ c : Credential, m.Owned c h.host (c.sent h)

theorem Modem.Owned.mono {m m' : Modem} {c : Credential} {host value : CStr}
    (h : m.Owned c host value) (hsub : m.issued ⊆ m'.issued) : m'.Owned c host value := by
  rcases h with h | ⟨i, hi, hhost, hval⟩
  · exact .inl h
  · exact .inr ⟨i, hsub hi, hhost, hval⟩

theorem Modem.Owned.length_lt {m : Modem} {c : Credential} {host value : CStr}
    (h : m.Owned c host value) : value.length < 64 := by
  rcases h with rfl | ⟨i, -, -, rfl⟩
  · decide
  · cases c with
    | id => exact i.reply.id_fits
    | secret => exact i.reply.secret_fits

/-- The parts of the state that the credentials in RAM and in flash depend on. -/
structure SameKeys (m m' : Modem) : Prop where
  ram : ∀ c : Credential, m'.ram c.key = m.ram c.key
  flash : ∀ c : Credential, m'.flash c.key = m.flash c.key
  ramHost : getCloudHost m'.ram = getCloudHost m.ram
  flashHost : getCloudHost m'.flash = getCloudHost m.flash
  command : m'.command = m.command
  issued : m.issued ⊆ m'.issued

theorem Quiet.sameKeys {m m' : Modem} (h : Quiet m m') : SameKeys m m' := by
  refine ⟨?_, ?_, ?_, ?_, h.command, ?_⟩
  · intro c
    rw [h.ram]
  · intro c
    rw [h.flash]
  · rw [h.ram]
  · rw [h.flash]
  · rw [h.issued]
    exact List.Subset.refl _

/-- The same, for what one credential depends on. -/
structure SameCredential (c : Credential) (m m' : Modem) : Prop where
  ram : m'.ram c.key = m.ram c.key
  flash : m'.flash c.key = m.flash c.key
  ramHost : getCloudHost m'.ram = getCloudHost m.ram
  flashHost : getCloudHost m'.flash = getCloudHost m.flash
  clears : m'.command.clears c = m.command.clears c
  issued : m.issued ⊆ m'.issued

theorem SameKeys.credential {m m' : Modem} (h : SameKeys m m') (c : Credential) :
    SameCredential c m m' :=
  ⟨h.ram c, h.flash c, h.ramHost, h.flashHost, by rw [h.command], h.issued⟩

theorem SameCredential.ramKept {m m' : Modem} {c : Credential} (h : SameCredential c m m')
    (hk : m.Keeps c) : ∃ host, m'.RamFor c host ∧ m'.Owned c host (m'.ram c.key) := by
  obtain ⟨host, hfor, hown⟩ := hk.ram
  unfold Modem.RamFor at hfor ⊢
  rw [h.ram, h.ramHost, h.clears]
  exact ⟨host, hfor, hown.mono h.issued⟩

theorem SameCredential.flashKept {m m' : Modem} {c : Credential} (h : SameCredential c m m')
    (hk : m.Keeps c) : ∃ host, m'.FlashFor c host ∧ m'.Owned c host (m'.flash c.key) := by
  obtain ⟨host, hfor, hown⟩ := hk.flash
  unfold Modem.FlashFor at hfor ⊢
  rw [h.flash, h.flashHost, h.clears]
  exact ⟨host, hfor, hown.mono h.issued⟩

theorem SameCredential.keeps {m m' : Modem} {c : Credential} (h : SameCredential c m m')
    (hk : m.Keeps c)
    (hconn : m'.modem.connected = true → m.modem.connected = true ∧ m'.gCloudHost = m.gCloudHost) :
    m'.Keeps c := by
  refine ⟨h.ramKept hk, h.flashKept hk, ?_⟩
  intro hc
  obtain ⟨hc', hg⟩ := hconn hc
  rw [h.ram, hg, h.clears]
  rcases hk.connected hc' with hown | ⟨b, hb, hown⟩
  · exact .inl (hown.mono h.issued)
  · exact .inr ⟨b, hb, hown.mono h.issued⟩

/-- A place where nothing of a connection is held. -/
structure ModemPc.Plain (pc : ModemPc) : Prop where
  connected : pc.connected = false
  reply : pc.reply = none
  has : ∀ c, pc.has c = none
  fd : pc.fd = none
  usesTlsFd : pc.usesTlsFd = false

/-- A step to such a place, with the credentials untouched. -/
theorem Bound.plain {m m' : Modem} (h : Bound m) (hs : SameKeys m m') (hp : m'.modem.Plain)
    (hsent : m'.handshakes = m.handshakes) : Bound m' := by
  refine ⟨fun c => (hs.credential c).keeps (h.keeps c) (fun hc => ?_), ?_, ?_, ?_, ?_, ?_⟩
  · rw [hp.connected] at hc
    cases hc
  · intro r hr
    rw [hp.reply] at hr
    cases hr
  · intro c v hv
    rw [hp.has] at hv
    cases hv
  · intro fd hfd
    rw [hp.fd] at hfd
    cases hfd
  · intro hu
    rw [hp.usesTlsFd] at hu
    cases hu
  · rw [hsent]
    exact fun hs' hmem c => (h.sent hs' hmem c).mono hs.issued

/-- Such a step that leaves the keys, the record and the commands as they are. -/
theorem Bound.quiet {m m' : Modem} (h : Bound m) (hq : Quiet m m') (hp : m'.modem.Plain) :
    Bound m' :=
  h.plain hq.sameKeys hp hq.handshakes

/-- A step that moves on with what it has, or with a credential it has just read. -/
theorem Bound.moved {m m' : Modem} (h : Bound m) (hq : Quiet m m')
    (hsockets : m'.sockets = m.sockets) (htls : m'.gTlsFd = m.gTlsFd)
    (hconn : m'.modem.connected = true → m.modem.connected = true)
    (hreply : m'.modem.reply = none)
    (hhas : ∀ c v, m'.modem.has c = some v → m.Owned c m.gCloudHost v)
    (hfd : ∀ fd, m'.modem.fd = some fd → m.peer fd = m.gCloudHost)
    (huses : m'.modem.usesTlsFd = true → m.modem.usesTlsFd = true) : Bound m' := by
  have hs := hq.sameKeys
  have hg := hq.gCloudHost
  have hpeer : ∀ fd, m'.peer fd = m.peer fd := by
    intro fd
    unfold Modem.peer
    rw [hsockets]
  refine ⟨fun c => (hs.credential c).keeps (h.keeps c) (fun hc => ⟨hconn hc, hg⟩), ?_, ?_, ?_, ?_,
      ?_⟩
  · intro r hr
    rw [hreply] at hr
    cases hr
  · intro c v hv
    rw [hg]
    exact (hhas c v hv).mono hs.issued
  · intro fd hfd'
    rw [hpeer, hg]
    exact hfd fd hfd'
  · intro hu fd hfd'
    rw [hpeer, hg]
    rw [htls] at hfd'
    exact h.tlsFd (huses hu) fd hfd'
  · rw [hq.handshakes]
    exact fun hs' hmem c => (h.sent hs' hmem c).mono hs.issued

/-- A place where only the connection in `g_tls_fd` is held. -/
structure ModemPc.OnTlsFd (pc : ModemPc) : Prop where
  connected : pc.connected = false
  reply : pc.reply = none
  has : ∀ c, pc.has c = none
  fd : pc.fd = none

/-- A step that goes on with the connection in `g_tls_fd`. -/
theorem Bound.onTlsFd {m m' : Modem} (h : Bound m) (hq : Quiet m m')
    (hsockets : m'.sockets = m.sockets) (htls : m'.gTlsFd = m.gTlsFd) (hp : m'.modem.OnTlsFd)
    (huses : m.modem.usesTlsFd = true) : Bound m' := by
  apply h.moved hq hsockets htls
  · intro hc
    rw [hp.connected] at hc
    cases hc
  · exact hp.reply
  · intro c v hv
    rw [hp.has] at hv
    cases hv
  · intro fd hfd
    rw [hp.fd] at hfd
    cases hfd
  · intro _
    exact huses

/-- Setting a key that holds neither the host nor a credential. -/
theorem setStr_sameKeys (m : Modem) {key : Key} (hkey : key = .regCode ∨ key = .deviceName)
    (val : CStr) (save : SaveOutcome) : SameKeys m (m.setStr key val save) := by
  have hcred : ∀ (keys : Keys) (c : Credential),
      Function.update keys key val c.key = keys c.key := by
    intro keys c
    apply Function.update_of_ne
    rcases hkey with rfl | rfl <;> cases c <;> decide
  have hhost : ∀ keys : Keys, getCloudHost (Function.update keys key val) = getCloudHost keys := by
    intro keys
    unfold getCloudHost
    rw [Function.update_of_ne (by rcases hkey with rfl | rfl <;> decide)]
  cases save with
  | saved => exact ⟨hcred m.ram, hcred m.flash, hhost m.ram, hhost m.flash, rfl, fun _ => id⟩
  | unsaved => exact ⟨hcred m.ram, fun _ => rfl, hhost m.ram, rfl, rfl, fun _ => id⟩
  | refused => exact (Quiet.refl m).sameKeys

/-! ### Steps of the modem task -/

/-- A credential that is read is owned by the host of the connection. -/
theorem Modem.Keeps.read {m : Modem} {c : Credential} (h : m.Keeps c)
    (hconn : m.modem.connected = true) (hsafe : m.ReadSafe c) :
    m.Owned c m.gCloudHost (clip 64 (m.ram c.key)) := by
  have hown : m.Owned c m.gCloudHost (m.ram c.key) := by
    rcases h.connected hconn with hown | ⟨b, hb, hown⟩
    · exact hown
    · rcases hsafe b hb with hhost | hempty
      · rw [← hhost]
        exact hown
      · exact .inl hempty
  rw [clip_of_lt hown.length_lt]
  exact hown

/-- `step_tls_connect` reads the host: RAM's credentials are its own, but for what a "#host"
still has to clear. -/
theorem Bound.readHost {m m' : Modem} (h : Bound m) (hs : SameKeys m m')
    (hg : m'.gCloudHost = getCloudHost m.ram) (hpc : m'.modem = .tlsConnect)
    (hsent : m'.handshakes = m.handshakes) : Bound m' := by
  have hkept := fun c => (hs.credential c).ramKept (h.keeps c)
  have hflash := fun c => (hs.credential c).flashKept (h.keeps c)
  refine ⟨fun c => ⟨hkept c, hflash c, fun _ => ?_⟩, ?_, ?_, ?_, ?_, ?_⟩
  · obtain ⟨host, hfor, hown⟩ := (hs.credential c).ramKept (h.keeps c)
    rcases hfor with hram | ⟨b, hb, hhost⟩
    · rw [hg, ← hs.ramHost, hram]
      exact .inl hown
    · exact .inr ⟨b, hb, by rw [hhost]; exact hown⟩
  · intro r hr
    rw [hpc] at hr
    cases hr
  · intro c v hv
    rw [hpc] at hv
    cases hv
  · intro fd hfd
    rw [hpc] at hfd
    cases hfd
  · intro hu
    rw [hpc] at hu
    cases hu
  · rw [hsent]
    exact fun hs' hmem c => (h.sent hs' hmem c).mono hs.issued

theorem modemTop_bound {m : Modem} {step : ModemStep} {inp : ModemInput} (h : Bound m)
    (hpc : m.modem = .top step) (hsafe : m.TaskSafe inp) : Bound (modemTop m step inp) := by
  cases step with
  | init =>
      refine h.quiet (modemTop_quiet (by decide) inp) ?_
      unfold modemTop
      simp only
      split_ifs <;> exact ⟨rfl, rfl, fun _ => rfl, rfl, rfl⟩
  | sim =>
      refine h.quiet (modemTop_quiet (by decide) inp) ?_
      unfold modemTop
      simp only
      split_ifs <;> exact ⟨rfl, rfl, fun _ => rfl, rfl, rfl⟩
  | pdn =>
      refine h.quiet (modemTop_quiet (by decide) inp) ?_
      unfold modemTop
      simp only
      split_ifs <;> exact ⟨rfl, rfl, fun _ => rfl, rfl, rfl⟩
  | tls =>
      have hq := (modemTop_tls (m := m) inp).sameKeys
      exact h.readHost ⟨hq.ram, hq.flash, hq.ramHost, hq.flashHost, hq.command, hq.issued⟩ rfl rfl
        rfl
  | register =>
      have hq : Quiet m (modemTop m .register inp) := modemTop_quiet (by decide) inp
      unfold modemTop at hq ⊢
      simp only at hq ⊢
      split_ifs at hq ⊢
      · exact h.onTlsFd hq rfl rfl ⟨rfl, rfl, fun _ => rfl, rfl⟩ (by rw [hpc]; rfl)
      · exact h.quiet hq ⟨rfl, rfl, fun _ => rfl, rfl, rfl⟩
  | websocket =>
      have hq : Quiet m (modemTop m .websocket inp) := modemTop_quiet (by decide) inp
      unfold modemTop at hq ⊢
      simp only at hq ⊢
      split at hq
      · exact h.quiet hq ⟨rfl, rfl, fun _ => rfl, rfl, rfl⟩
      · next fd hfd =>
        have hconn : m.modem.connected = true := by rw [hpc]; rfl
        have hown := (h.keeps .id).read hconn (hsafe.2.1 .id (by rw [hpc]; rfl))
        refine h.moved hq rfl rfl (fun _ => hconn) rfl
          (fun c v hv => ?_) (fun fd' hfd' => ?_) (fun hu => by cases hu)
        · cases c with
          | id =>
              cases hv
              exact hown
          | secret => cases hv
        · cases hfd'
          exact h.tlsFd (by rw [hpc]; rfl) fd hfd

theorem getCloudHost_update (keys : Keys) {key : Key} (hkey : key ≠ .cloudHost) (val : CStr) :
    getCloudHost (Function.update keys key val) = getCloudHost keys := by
  unfold getCloudHost
  rw [Function.update_of_ne hkey.symm]

theorem Credential.key_ne_host (c : Credential) : c.key ≠ .cloudHost := by
  cases c <;> decide

theorem Credential.key_injective {c c' : Credential} (h : c'.key = c.key) : c' = c := by
  cases c <;> cases c' <;> first | rfl | cases h

/-- Setting one credential leaves the other. -/
theorem setCredential_other {m : Modem} {c c' : Credential} {pc : CommandPc} (hne : c' ≠ c)
    (val : CStr) (save : SaveOutcome) (hclears : pc.clears c' = m.command.clears c') :
    SameCredential c' m { m.setStr c.key val save with command := pc } := by
  have hkey : ∀ keys : Keys, Function.update keys c.key val c'.key = keys c'.key :=
    fun keys => Function.update_of_ne (fun hk => hne (Credential.key_injective hk)) _ _
  have hhost : ∀ keys : Keys, getCloudHost (Function.update keys c.key val) =
      getCloudHost keys := fun keys => getCloudHost_update keys c.key_ne_host val
  cases save with
  | saved =>
      exact ⟨hkey m.ram, hkey m.flash, hhost m.ram, hhost m.flash, hclears, List.Subset.refl _⟩
  | unsaved => exact ⟨hkey m.ram, rfl, hhost m.ram, rfl, hclears, List.Subset.refl _⟩
  | refused => exact ⟨rfl, rfl, rfl, rfl, hclears, List.Subset.refl _⟩

/-- Storing a credential of the connection's host. -/
theorem storeCredential_kept {m : Modem} {c : Credential} {val : CStr} {save : SaveOutcome}
    (hown : m.Owned c m.gCloudHost val) (hsafe : m.StoreSafe c save) (c' : Credential)
    (hk : m.Keeps c') :
    (∃ host, (m.setStr c.key val save).RamFor c' host ∧
      m.Owned c' host ((m.setStr c.key val save).ram c'.key)) ∧
    ∃ host, (m.setStr c.key val save).FlashFor c' host ∧
      m.Owned c' host ((m.setStr c.key val save).flash c'.key) := by
  have hhost : ∀ keys : Keys, getCloudHost (Function.update keys c.key val) =
      getCloudHost keys := fun keys => getCloudHost_update keys c.key_ne_host val
  by_cases hc : c' = c
  · subst hc
    have hself : ∀ keys : Keys,
        m.Owned c' m.gCloudHost (Function.update keys c'.key val c'.key) := by
      intro keys
      rw [Function.update_self]
      exact hown
    cases save with
    | refused => exact ⟨hk.ram, hk.flash⟩
    | saved =>
        exact ⟨⟨m.gCloudHost, (hsafe.1 (by decide)).imp_left (hhost m.ram).trans, hself m.ram⟩,
          ⟨m.gCloudHost, (hsafe.2 rfl).imp_left (hhost m.flash).trans, hself m.flash⟩⟩
    | unsaved =>
        exact ⟨⟨m.gCloudHost, (hsafe.1 (by decide)).imp_left (hhost m.ram).trans, hself m.ram⟩,
          hk.flash⟩
  · have hs : SameCredential c' m { m.setStr c.key val save with command := m.command } :=
      setCredential_other hc val save rfl
    cases save <;> exact ⟨hs.ramKept hk, hs.flashKept hk⟩

/-- What `config_set_str` leaves alone. -/
theorem setStr_rest (m : Modem) (key : Key) (val : CStr) (save : SaveOutcome) :
    (m.setStr key val save).issued = m.issued ∧
      (m.setStr key val save).gCloudHost = m.gCloudHost ∧
      (m.setStr key val save).handshakes = m.handshakes ∧
      (m.setStr key val save).command = m.command := by
  cases save <;> exact ⟨rfl, rfl, rfl, rfl⟩

/-- `step_register` stores a credential and goes on. -/
theorem Bound.stored {m : Modem} {c : Credential} {r : Reply} {save : SaveOutcome} {pc : ModemPc}
    (h : Bound m) (hr : m.modem.reply = some r) (hsafe : m.StoreSafe c save)
    (hreply : ∀ r', pc.reply = some r' → r' = r) (hconn : pc.connected = false)
    (hhas : ∀ c, pc.has c = none) (hfd : pc.fd = none) (huses : pc.usesTlsFd = false) :
    Bound ((m.setStr c.key (c.reply r) save).goto pc) := by
  have hmem := h.reply r hr
  have hown : m.Owned c m.gCloudHost (c.reply r) := .inr ⟨_, hmem, rfl, rfl⟩
  obtain ⟨hissued, hg, hsent, -⟩ := setStr_rest m c.key (c.reply r) save
  have howned : ∀ {c' host val}, m.Owned c' host val →
      ((m.setStr c.key (c.reply r) save).goto pc).Owned c' host val := by
    intro c' host val ho
    exact ho.mono (by
      show m.issued ⊆ (m.setStr c.key (c.reply r) save).issued
      rw [hissued]
      exact List.Subset.refl _)
  refine ⟨fun c' => ⟨?_, ?_, fun hc => ?_⟩, ?_, ?_, ?_, ?_, ?_⟩
  · obtain ⟨host, hfor, ho⟩ := (storeCredential_kept hown hsafe c' (h.keeps c')).1
    exact ⟨host, hfor, howned ho⟩
  · obtain ⟨host, hfor, ho⟩ := (storeCredential_kept hown hsafe c' (h.keeps c')).2
    exact ⟨host, hfor, howned ho⟩
  · exact absurd (hconn.symm.trans hc) (by decide)
  · intro r' hr'
    rw [hreply r' hr']
    show ⟨(m.setStr c.key (c.reply r) save).gCloudHost, r⟩ ∈
      (m.setStr c.key (c.reply r) save).issued
    rw [hg, hissued]
    exact hmem
  · intro c' v hv
    exact absurd ((hhas c').symm.trans hv) (by simp)
  · intro fd hfd'
    exact absurd (hfd.symm.trans hfd') (by simp)
  · intro hu
    exact absurd (huses.symm.trans hu) (by decide)
  · intro hs hmem' c'
    have hmem'' : hs ∈ (m.setStr c.key (c.reply r) save).handshakes := hmem'
    rw [hsent] at hmem''
    exact howned (h.sent hs hmem'' c')

/-- A registration that was answered. -/
theorem Bound.answered {m m' : Modem} {fd : ℕ} {reply : Reply} (h : Bound m)
    (hpeer : m.peer fd = m.gCloudHost) (hs : SameKeys m m') (hg : m'.gCloudHost = m.gCloudHost)
    (hissued : m'.issued = m.issued ++ [⟨m.peer fd, reply⟩])
    (hpc : m'.modem = .regStoreId fd reply) (hsent : m'.handshakes = m.handshakes) :
    Bound m' := by
  refine ⟨fun c => (hs.credential c).keeps (h.keeps c) (fun hc => ?_), ?_, ?_, ?_, ?_, ?_⟩
  · rw [hpc] at hc
    cases hc
  · intro r hr
    rw [hpc] at hr
    cases hr
    rw [hg, hissued, hpeer]
    exact List.mem_append_right _ List.mem_cons_self
  · intro c v hv
    rw [hpc] at hv
    cases hv
  · intro fd' hfd'
    rw [hpc] at hfd'
    cases hfd'
  · intro hu
    rw [hpc] at hu
    cases hu
  · rw [hsent]
    exact fun hs' hmem c => (h.sent hs' hmem c).mono hs.issued

theorem registerRequest_bound {m : Modem} {fd : ℕ} {code name imei : CStr} {inp : ModemInput}
    (h : Bound m) (hpc : m.modem = .regRequest fd code name imei)
    (hset : inp.http.errno ≠ 0 ∨ inp.http.Complete m.gCloudHost code imei name) :
    Bound (registerRequest m fd code name imei inp) := by
  have hpeer : m.peer fd = m.gCloudHost := h.peer fd (by rw [hpc]; rfl)
  have hq := registerRequest_quiet (m := m) fd code name imei inp
  cases hx : registerExchange m.gCloudHost code imei name inp.http with
  | error err =>
      have herr : err ≠ 0 := by
        rintro rfl
        obtain ⟨hzero, hnot⟩ := registerExchange_zero hx
        exact hset.elim (fun h0 => h0 hzero) hnot
      rw [hx] at hq
      have hs := hq.sameKeys
      refine h.plain ⟨hs.ram, hs.flash, hs.ramHost, hs.flashHost, hs.command, hs.issued⟩ ?_
        hq.handshakes
      unfold registerRequest
      simp only [registerHttpRequest_error hx, if_pos herr]
      exact ⟨rfl, rfl, fun _ => rfl, rfl, rfl⟩
  | ok reply =>
      rw [hx] at hq
      have hsub : m.issued ⊆ (registerRequest m fd code name imei inp).issued := by
        rw [hq.issued]
        exact List.subset_append_left _ _
      have hs := hq.sameKeys
      refine h.answered hpeer ⟨hs.ram, hs.flash, hs.ramHost, hs.flashHost, hs.command, hsub⟩
        hq.gCloudHost hq.issued ?_ hq.handshakes
      unfold registerRequest
      simp only [registerHttpRequest_ok hx, ne_eq, not_true, if_false]
      rfl

/-- **A handshake** sends what was read to the host of the connection. -/
theorem Bound.handshake {m m' : Modem} {fd : ℕ} {id secret : CStr} (h : Bound m)
    (hpc : m.modem = .wsConnect fd id secret) (hs : SameKeys m m') (hp : m'.modem.Plain)
    (hsent : m'.handshakes = m.handshakes ++ [⟨m.peer fd, id, secret⟩]) : Bound m' := by
  have hkept : Bound { m' with handshakes := m.handshakes } :=
    h.plain ⟨hs.ram, hs.flash, hs.ramHost, hs.flashHost, hs.command, hs.issued⟩ hp rfl
  refine ⟨fun c => ⟨(hkept.keeps c).ram, (hkept.keeps c).flash, (hkept.keeps c).connected⟩,
      hkept.reply, hkept.has, hkept.peer, hkept.tlsFd, ?_⟩
  intro hs' hmem c
  rw [hsent] at hmem
  rcases List.mem_append.mp hmem with hmem | hmem
  · exact hkept.sent hs' hmem c
  · rw [List.mem_singleton.mp hmem]
    have hown : m.Owned c m.gCloudHost (c.sent ⟨m.peer fd, id, secret⟩) :=
      h.has c _ (by rw [hpc]; cases c <;> rfl)
    have hpeer : m.peer fd = m.gCloudHost := h.peer fd (by rw [hpc]; rfl)
    rw [← hpeer] at hown
    exact hown.mono hs.issued

theorem websocketConnect_bound {m : Modem} {fd : ℕ} {id secret : CStr} {inp : ModemInput}
    (h : Bound m) (hpc : m.modem = .wsConnect fd id secret) :
    Bound (websocketConnect m fd id secret inp) := by
  have hq := websocketConnect_quiet (m := m) fd id secret inp
  have hs := hq.sameKeys
  refine h.handshake hpc ⟨hs.ram, hs.flash, hs.ramHost, hs.flashHost, hs.command, hs.issued⟩ ?_
    hq.handshakes
  unfold websocketConnect
  simp only
  split_ifs <;> exact ⟨rfl, rfl, fun _ => rfl, rfl, rfl⟩

theorem peer_of_kind {m : Modem} {fd : ℕ} {host : CStr}
    (h : m.sockets.kind fd = some (.tls host)) : m.peer fd = host := by
  unfold Modem.peer
  rw [h]

/-- `step_tls_connect`, from the read of the host on. -/
theorem tlsConnect_bound {m : Modem} {inp : ModemInput} (h : Bound m)
    (hpc : m.modem = .tlsConnect) : Bound (tlsConnect m inp) := by
  have hq := tlsConnect_quiet (m := m) inp
  unfold tlsConnect at hq ⊢
  simp only at hq ⊢
  split_ifs at hq ⊢
  · exact h.quiet hq ⟨rfl, rfl, fun _ => rfl, rfl, rfl⟩
  · exact h.quiet hq ⟨rfl, rfl, fun _ => rfl, rfl, rfl⟩
  · refine ⟨fun c => (hq.sameKeys.credential c).keeps (h.keeps c)
        (fun _ => ⟨by rw [hpc]; rfl, rfl⟩), ?_, ?_, ?_, ?_, ?_⟩
    · intro r hr
      cases hr
    · intro c v hv
      cases hv
    · intro fd hfd
      cases hfd
    · intro _ fd hfd
      cases hfd
      exact peer_of_kind (Function.update_self m.sockets.next _ m.sockets.kind)
    · rw [hq.handshakes]
      exact fun hs' hmem c => (h.sent hs' hmem c).mono hq.sameKeys.issued

theorem superviseCall_plain {m : Modem} {ws : ℕ} {inp : ModemInput} {next : ModemPc}
    (hnext : next.Plain) : (superviseCall m ws inp next).modem.Plain := by
  unfold superviseCall
  split_ifs
  · exact ⟨rfl, rfl, fun _ => rfl, rfl, rfl⟩
  · exact hnext

theorem plain_done {m : Modem} : m.registerDone.modem.Plain :=
  ⟨rfl, rfl, fun _ => rfl, rfl, rfl⟩

/-- A step that sets a key that is not a credential, and goes where nothing is held. -/
theorem Bound.setOther {m m' : Modem} (h : Bound m) {key : Key}
    (hkey : key = .regCode ∨ key = .deviceName) {val : CStr} {save : SaveOutcome}
    (hq : Quiet (m.setStr key val save) m') (hp : m'.modem.Plain) : Bound m' := by
  have hs := setStr_sameKeys m hkey val save
  have hs' := hq.sameKeys
  refine h.plain ⟨?_, ?_, ?_, ?_, hs'.command.trans hs.command,
      List.Subset.trans hs.issued hs'.issued⟩ hp
    (hq.handshakes.trans (setStr_rest m key val save).2.2.1)
  · exact fun c => (hs'.ram c).trans (hs.ram c)
  · exact fun c => (hs'.flash c).trans (hs.flash c)
  · exact hs'.ramHost.trans hs.ramHost
  · exact hs'.flashHost.trans hs.flashHost

/-- The steps that hold the connection in `g_tls_fd`. -/
theorem modemStep_bound_connection {m : Modem} {inp : ModemInput} (h : Bound m)
    (hpc : m.modem = .tlsChoose ∨ m.modem = .regCode ∨ ∃ code, m.modem = .regName code) :
    Bound (modemStep m inp) := by
  have hq : Quiet m (modemStep m inp) :=
    modemStep_quiet (by rcases hpc with hpc | hpc | ⟨code, hpc⟩ <;> rw [hpc] <;> rfl)
  rcases hpc with hpc | hpc | ⟨code, hpc⟩
  · simp only [modemStep, hpc] at hq ⊢
    split_ifs at hq ⊢
    · exact h.onTlsFd hq rfl rfl ⟨rfl, rfl, fun _ => rfl, rfl⟩ (by rw [hpc]; rfl)
    · exact h.moved hq rfl rfl (fun _ => by rw [hpc]; rfl) rfl (fun c v hv => by cases hv)
        (fun fd hfd => by cases hfd) (fun _ => by rw [hpc]; rfl)
  · simp only [modemStep, hpc] at hq ⊢
    exact h.onTlsFd hq rfl rfl ⟨rfl, rfl, fun _ => rfl, rfl⟩ (by rw [hpc]; rfl)
  · simp only [modemStep, hpc] at hq ⊢
    split_ifs at hq ⊢
    · exact h.quiet hq ⟨rfl, rfl, fun _ => rfl, rfl, rfl⟩
    · split at hq
      · exact h.quiet hq plain_done
      · next fd hfd =>
        refine h.moved hq rfl rfl (fun hc => by cases hc) rfl (fun c v hv => by cases hv)
          (fun fd' hfd' => ?_) (fun hu => by cases hu)
        cases hfd'
        exact h.tlsFd (by rw [hpc]; rfl) fd hfd

/-- A place that is left for one where nothing of a connection is held. -/
def ModemPc.leaves : ModemPc → Bool
  | pdnCheck => true
  | pdnWait => true
  | pdnPoll => true
  | pdnPending => true
  | pdnRegistered => true
  | regClose _ _ => true
  | supervise _ => true
  | superviseLink _ => true
  | supervisePing _ => true
  | superviseSend _ => true
  | superviseRecv _ => true
  | _ => false

theorem modemStep_plain {m : Modem} {inp : ModemInput} (h : m.modem.leaves = true) :
    (modemStep m inp).modem.Plain := by
  unfold modemStep
  cases hpc : m.modem with
  | pdnCheck =>
      simp only
      split_ifs <;> exact ⟨rfl, rfl, fun _ => rfl, rfl, rfl⟩
  | pdnWait =>
      simp only
      split_ifs
      · exact ⟨rfl, rfl, fun _ => rfl, rfl, rfl⟩
      · exact ⟨rfl, rfl, fun _ => rfl, rfl, rfl⟩
      · rw [hpc]
        exact ⟨rfl, rfl, fun _ => rfl, rfl, rfl⟩
  | pdnPoll =>
      simp only
      split_ifs <;> exact ⟨rfl, rfl, fun _ => rfl, rfl, rfl⟩
  | pdnPending =>
      simp only
      split_ifs <;> exact ⟨rfl, rfl, fun _ => rfl, rfl, rfl⟩
  | pdnRegistered =>
      simp only
      split_ifs <;> exact ⟨rfl, rfl, fun _ => rfl, rfl, rfl⟩
  | regClose fd failed =>
      simp only
      split_ifs <;> exact ⟨rfl, rfl, fun _ => rfl, rfl, rfl⟩
  | supervise ws =>
      simp only
      split_ifs <;> exact ⟨rfl, rfl, fun _ => rfl, rfl, rfl⟩
  | superviseLink ws =>
      simp only
      split_ifs <;> exact ⟨rfl, rfl, fun _ => rfl, rfl, rfl⟩
  | supervisePing ws =>
      simp only
      split_ifs
      · exact superviseCall_plain ⟨rfl, rfl, fun _ => rfl, rfl, rfl⟩
      · exact ⟨rfl, rfl, fun _ => rfl, rfl, rfl⟩
  | superviseSend ws =>
      simp only
      split_ifs
      · exact superviseCall_plain ⟨rfl, rfl, fun _ => rfl, rfl, rfl⟩
      · exact ⟨rfl, rfl, fun _ => rfl, rfl, rfl⟩
  | superviseRecv ws => exact superviseCall_plain ⟨rfl, rfl, fun _ => rfl, rfl, rfl⟩
  | _ =>
      rw [hpc] at h
      cases h

theorem ModemPc.movesOn_of_leaves {pc : ModemPc} (h : pc.leaves = true) : pc.movesOn = true := by
  cases pc <;> first | rfl | cases h

/-- **A step of `modem_task`** that meets the condition keeps the credentials bound. -/
theorem modemStep_bound {m : Modem} {inp : ModemInput} (h : Bound m)
    (hsafe : m.TaskSafe inp) : Bound (modemStep m inp) := by
  by_cases hleaves : m.modem.leaves = true
  · exact h.quiet (modemStep_quiet (ModemPc.movesOn_of_leaves hleaves)) (modemStep_plain hleaves)
  cases hpc : m.modem with
  | top step =>
      simp only [modemStep, hpc]
      exact modemTop_bound h hpc hsafe
  | retry step =>
      have hq : Quiet m (modemStep m inp) := modemStep_quiet (by rw [hpc]; rfl)
      simp only [modemStep, hpc] at hq ⊢
      cases step with
      | register =>
          exact h.onTlsFd hq rfl rfl ⟨rfl, rfl, fun _ => rfl, rfl⟩ (by rw [hpc]; rfl)
      | _ => exact h.quiet hq ⟨rfl, rfl, fun _ => rfl, rfl, rfl⟩
  | tlsConnect =>
      simp only [modemStep, hpc]
      exact tlsConnect_bound h hpc
  | tlsChoose => exact modemStep_bound_connection h (.inl hpc)
  | regCode => exact modemStep_bound_connection h (.inr (.inl hpc))
  | regName code => exact modemStep_bound_connection h (.inr (.inr ⟨code, hpc⟩))
  | regDrop =>
      refine h.setOther (.inl rfl) (modemStep_sets (by rw [hpc]; rfl)) ?_
      simp only [modemStep, hpc]
      exact plain_done
  | regImei fd code name =>
      have hq : Quiet m (modemStep m inp) := modemStep_quiet (by rw [hpc]; rfl)
      simp only [modemStep, hpc] at hq ⊢
      split_ifs at hq ⊢
      · exact h.quiet hq ⟨rfl, rfl, fun _ => rfl, rfl, rfl⟩
      · split at hq
        · exact h.quiet hq ⟨rfl, rfl, fun _ => rfl, rfl, rfl⟩
        · refine h.moved hq rfl rfl (fun hc => by cases hc) rfl (fun c v hv => by cases hv)
            (fun fd' hfd' => ?_) (fun hu => by cases hu)
          cases hfd'
          exact h.peer fd (by rw [hpc]; rfl)
  | regRequest fd code name imei =>
      simp only [modemStep, hpc]
      exact registerRequest_bound h hpc (hsafe.2.2 (code, imei, name) (by rw [hpc]; rfl))
  | regStoreId fd reply =>
      simp only [modemStep, hpc]
      exact h.stored (c := .id) (r := reply) (by rw [hpc]; rfl) (hsafe.1 .id (by rw [hpc]; rfl))
        (fun r' hr' => by cases hr'; rfl) rfl (fun _ => rfl) rfl rfl
  | regStoreSecret fd reply =>
      simp only [modemStep, hpc]
      exact h.stored (c := .secret) (r := reply) (by rw [hpc]; rfl)
        (hsafe.1 .secret (by rw [hpc]; rfl)) (fun r' hr' => by cases hr') rfl (fun _ => rfl) rfl rfl
  | regStoreName fd reply =>
      refine h.setOther (.inr rfl) (modemStep_sets (by rw [hpc]; rfl)) ?_
      simp only [modemStep, hpc]
      exact ⟨rfl, rfl, fun _ => rfl, rfl, rfl⟩
  | regConsume fd =>
      refine h.setOther (.inl rfl) (modemStep_sets (by rw [hpc]; rfl)) ?_
      simp only [modemStep, hpc]
      exact ⟨rfl, rfl, fun _ => rfl, rfl, rfl⟩
  | regReject =>
      refine h.setOther (.inl rfl) (modemStep_sets (by rw [hpc]; rfl)) ?_
      simp only [modemStep, hpc]
      exact plain_done
  | wsSecret fd id =>
      have hq : Quiet m (modemStep m inp) := modemStep_quiet (by rw [hpc]; rfl)
      simp only [modemStep, hpc] at hq ⊢
      have hown := (h.keeps .secret).read (by rw [hpc]; rfl)
        (hsafe.2.1 .secret (by rw [hpc]; rfl))
      refine h.moved hq rfl rfl (fun hc => by cases hc) rfl (fun c v hv => ?_)
        (fun fd' hfd' => ?_) (fun hu => by cases hu)
      · cases c with
        | id =>
            cases hv
            exact h.has .id id (by rw [hpc]; rfl)
        | secret =>
            cases hv
            exact hown
      · cases hfd'
        exact h.peer fd (by rw [hpc]; rfl)
  | wsConnect fd id secret =>
      simp only [modemStep, hpc]
      exact websocketConnect_bound h hpc
  | _ =>
      rw [hpc] at hleaves
      exact absurd rfl hleaves

/-! ### Steps of the commands -/

theorem Modem.Owned.congr {m m' : Modem} {c : Credential} {host value : CStr}
    (h : m.Owned c host value) (hissued : m'.issued = m.issued) : m'.Owned c host value :=
  h.mono (by rw [hissued]; exact List.Subset.refl _)

/-- A step of a command only has to keep the credentials. -/
theorem Bound.command {m m' : Modem} (h : Bound m) (hs : SameTask m m')
    (hkeeps : ∀ c, m'.Keeps c) : Bound m' := by
  have hpeer : ∀ fd, m'.peer fd = m.peer fd := by
    intro fd
    unfold Modem.peer
    rw [hs.sockets]
  refine ⟨hkeeps, ?_, ?_, ?_, ?_, ?_⟩
  · rw [hs.modem, hs.gCloudHost, hs.issued]
    exact h.reply
  · rw [hs.modem, hs.gCloudHost]
    exact fun c v hv => (h.has c v hv).congr hs.issued
  · rw [hs.modem, hs.gCloudHost]
    exact fun fd hfd => (hpeer fd).trans (h.peer fd hfd)
  · rw [hs.modem, hs.gCloudHost, hs.gTlsFd]
    exact fun hu fd hfd => (hpeer fd).trans (h.tlsFd hu fd hfd)
  · rw [hs.handshakes]
    exact fun hand hmem c => (h.sent hand hmem c).congr hs.issued

/-- With no "#host" on its way the hosts are the ones the keys name. -/
theorem Modem.Keeps.settled {m : Modem} {c : Credential} (h : m.Keeps c)
    (hnone : m.command.clears c = none) :
    m.Owned c (getCloudHost m.ram) (m.ram c.key) ∧
      m.Owned c (getCloudHost m.flash) (m.flash c.key) ∧
      (m.modem.connected = true → m.Owned c m.gCloudHost (m.ram c.key)) := by
  refine ⟨?_, ?_, ?_⟩
  · obtain ⟨host, hfor | ⟨b, hb, -⟩, hown⟩ := h.ram
    · rw [hfor]
      exact hown
    · rw [hnone] at hb
      cases hb
  · obtain ⟨host, hfor | ⟨b, hb, -⟩, hown⟩ := h.flash
    · rw [hfor]
      exact hown
    · rw [hnone] at hb
      cases hb
  · intro hc
    rcases h.connected hc with hown | ⟨b, hb, -⟩
    · exact hown
    · rw [hnone] at hb
      cases hb

/-- "#host" writes the host. -/
theorem hostStore_keeps {m : Modem} {host : CStr} (save : SaveOutcome) (h : Bound m)
    (hpc : m.command = .hostStore host) (hsafe : save = .unsaved → m.HostSafe host)
    (c : Credential) : (commandStep m save).Keeps c := by
  obtain ⟨hram, hflash, hconn⟩ := (h.keeps c).settled (by rw [hpc]; rfl)
  have hkey : ∀ keys : Keys, Function.update keys .cloudHost host c.key = keys c.key :=
    fun keys => Function.update_of_ne c.key_ne_host _ _
  cases save with
  | saved =>
      simp only [commandStep, hpc]
      refine ⟨⟨_, .inr ⟨_, rfl, rfl⟩, ?_⟩, ⟨_, .inr ⟨_, rfl, rfl⟩, ?_⟩, fun hc => .inl ?_⟩
      · show m.Owned c (getCloudHost m.ram) (Function.update m.ram .cloudHost host c.key)
        rw [hkey]
        exact hram
      · show m.Owned c (getCloudHost m.flash) (Function.update m.flash .cloudHost host c.key)
        rw [hkey]
        exact hflash
      · show m.Owned c m.gCloudHost (Function.update m.ram .cloudHost host c.key)
        rw [hkey]
        exact hconn hc
  | unsaved =>
      simp only [commandStep, hpc]
      refine ⟨⟨_, .inl rfl, ?_⟩, ⟨_, .inl rfl, hflash⟩, fun hc => .inl ?_⟩
      · show m.Owned c (getCloudHost (Function.update m.ram .cloudHost host))
          (Function.update m.ram .cloudHost host c.key)
        rw [hkey]
        rcases hsafe rfl with hsame | hempty
        · rw [hsame]
          exact hram
        · cases c with
          | id => exact .inl hempty.1
          | secret => exact .inl hempty.2
      · show m.Owned c m.gCloudHost (Function.update m.ram .cloudHost host c.key)
        rw [hkey]
        exact hconn hc
  | refused =>
      simp only [commandStep, hpc]
      exact ⟨⟨_, .inl rfl, hram⟩, ⟨_, .inl rfl, hflash⟩, fun hc => .inl (hconn hc)⟩

/-- What is in flash when a credential has been cleared, saved or not. -/
theorem Modem.Keeps.flashStays {m : Modem} {c : Credential} (h : m.Keeps c)
    (hsafe : m.StaysSafe c) : m.Owned c (getCloudHost m.flash) (m.flash c.key) := by
  obtain ⟨host, hfor | ⟨b, hb, hhost⟩, hown⟩ := h.flash
  · rw [hfor]
    exact hown
  · rcases hsafe b hb with hflash | hempty
    · rw [← hflash, hhost]
      exact hown
    · exact .inl hempty

/-- "#host" clears a credential. -/
theorem clear_owned {m : Modem} {c : Credential} {save : SaveOutcome} (h : m.Keeps c)
    (hsafe : save = .unsaved → m.StaysSafe c)
    (hrefused : save = .refused → m.ram c.key = [] ∧ m.flash c.key = []) :
    (m.setStr c.key [] save).ram c.key = [] ∧
      m.Owned c (getCloudHost (m.setStr c.key [] save).flash)
        ((m.setStr c.key [] save).flash c.key) := by
  cases save with
  | saved => exact ⟨Function.update_self _ _ _, .inl (Function.update_self _ _ _)⟩
  | unsaved => exact ⟨Function.update_self _ _ _, h.flashStays (hsafe rfl)⟩
  | refused => exact ⟨(hrefused rfl).1, .inl (hrefused rfl).2⟩

/-- While "#host" clears one credential the other stays as it is. -/
theorem clearOther_keeps {m : Modem} {c c' : Credential} {save : SaveOutcome} {pc : CommandPc}
    (h : Bound m) (hne : c' ≠ c) (hclears : pc.clears c' = m.command.clears c') :
    { m.setStr c.key [] save with command := pc }.Keeps c' := by
  have htask := setStr_sameTask m c.key [] save pc
  apply (setCredential_other hne [] save hclears).keeps (h.keeps c')
  intro hc
  rw [htask.modem] at hc
  exact ⟨hc, htask.gCloudHost⟩

/-- A credential that has been cleared, with nothing left to clear of it. -/
theorem cleared_keeps {m m' : Modem} {c : Credential} {save : SaveOutcome} (h : Bound m)
    (hsafe : save = .unsaved → m.StaysSafe c)
    (hrefused : save = .refused → m.ram c.key = [] ∧ m.flash c.key = [])
    (hram : m'.ram = (m.setStr c.key [] save).ram)
    (hflash : m'.flash = (m.setStr c.key [] save).flash) (hissued : m'.issued = m.issued) :
    m'.Keeps c := by
  obtain ⟨hempty, hown⟩ := clear_owned (h.keeps c) hsafe hrefused
  rw [← hram] at hempty
  rw [← hflash] at hown
  exact ⟨⟨_, .inl rfl, .inl hempty⟩, ⟨_, .inl rfl, hown.congr hissued⟩, fun _ => .inl (.inl hempty)⟩

/-- "#reg" sets keys that hold no credential. -/
theorem regStore_keeps {m : Modem} {key : Key} {val : CStr} {save : SaveOutcome} {pc : CommandPc}
    (h : Bound m) (hkey : key = .regCode ∨ key = .deviceName)
    (hclears : ∀ c, pc.clears c = m.command.clears c) (c : Credential) :
    { m.setStr key val save with command := pc }.Keeps c := by
  have hs := setStr_sameKeys m hkey val save
  have htask := setStr_sameTask m key val save pc
  have hsame : SameCredential c m { m.setStr key val save with command := pc } :=
    ⟨hs.ram c, hs.flash c, hs.ramHost, hs.flashHost, hclears c, hs.issued⟩
  refine hsame.keeps (h.keeps c) (fun hc => ⟨?_, htask.gCloudHost⟩)
  rw [← htask.modem]
  exact hc

/-- **A step of a command** that meets the condition keeps the credentials bound. -/
theorem commandStep_bound {m : Modem} {save : SaveOutcome} (h : Bound m)
    (hposs : m.MayRefuse m.command.sets save) (hsafe : save = .unsaved → m.CommandSafe) :
    Bound (commandStep m save) := by
  cases hpc : m.command with
  | idle =>
      simp only [commandStep, hpc]
      exact h
  | hostStore host =>
      have hkeeps := hostStore_keeps save h hpc
        (fun hs => (hsafe hs).1 host (by rw [hpc]; rfl))
      simp only [commandStep, hpc] at hkeeps ⊢
      exact h.command (setStr_sameTask m _ _ save _) hkeeps
  | hostClearId b =>
      have hsecret : (commandStep m save).Keeps .secret := by
        simp only [commandStep, hpc]
        exact clearOther_keeps (c := .id) h (by decide) (by rw [hpc]; rfl)
      have hid : (commandStep m save).Keeps .id := by
        simp only [commandStep, hpc]
        exact cleared_keeps h (fun hs => (hsafe hs).2 _ (by rw [hpc]; rfl))
          (fun hs => hposs hs _ (by rw [hpc]; rfl)) rfl rfl (setStr_rest m _ _ save).1
      simp only [commandStep, hpc] at hid hsecret ⊢
      exact h.command (setStr_sameTask m _ _ save _) (fun c => by
        cases c with
        | id => exact hid
        | secret => exact hsecret)
  | hostClearSecret b =>
      have hid : (commandStep m save).Keeps .id := by
        simp only [commandStep, hpc]
        exact clearOther_keeps (c := .secret) h (by decide) (by rw [hpc]; rfl)
      have hsecret : (commandStep m save).Keeps .secret := by
        simp only [commandStep, hpc]
        exact cleared_keeps h (fun hs => (hsafe hs).2 _ (by rw [hpc]; rfl))
          (fun hs => hposs hs _ (by rw [hpc]; rfl)) rfl rfl (setStr_rest m _ _ save).1
      simp only [commandStep, hpc] at hid hsecret ⊢
      exact h.command (setStr_sameTask m _ _ save _) (fun c => by
        cases c with
        | id => exact hid
        | secret => exact hsecret)
  | regStoreCode code name =>
      simp only [commandStep, hpc]
      exact h.command (setStr_sameTask m _ _ save _)
        (regStore_keeps h (.inl rfl) (fun c => by rw [hpc]; rfl))
  | regStoreName name =>
      simp only [commandStep, hpc]
      exact h.command (setStr_sameTask m _ _ save _)
        (regStore_keeps h (.inr rfl) (fun c => by rw [hpc]; rfl))

/-! ### Runs -/

/-- A command begins. -/
theorem Bound.begin {m : Modem} {pc : CommandPc} (h : Bound m) (hidle : m.command = .idle)
    (hclears : ∀ c, pc.clears c = none) : Bound { m with command := pc } := by
  refine h.command ⟨rfl, rfl, rfl, rfl, rfl, rfl, rfl⟩ (fun c => ?_)
  have hsame : SameCredential c m { m with command := pc } :=
    ⟨rfl, rfl, rfl, rfl, by rw [hidle]; exact hclears c, List.Subset.refl _⟩
  exact hsame.keeps (h.keeps c) (fun hc => ⟨hc, rfl⟩)

theorem lteLcEvtHandler_bound {m : Modem} (h : Bound m) (cid : ℕ) (event : PdnEvent) :
    Bound (lteLcEvtHandler m cid event) := by
  have hpdn : ∀ up sem, Bound { m with gPdnUp := up, pdnSem := sem } := by
    intro up sem
    refine h.command ⟨rfl, rfl, rfl, rfl, rfl, rfl, rfl⟩ (fun c => ?_)
    have hsame : SameCredential c m { m with gPdnUp := up, pdnSem := sem } :=
      ⟨rfl, rfl, rfl, rfl, rfl, List.Subset.refl _⟩
    exact hsame.keeps (h.keeps c) (fun hc => ⟨hc, rfl⟩)
  unfold lteLcEvtHandler
  split_ifs
  · exact h
  · cases event with
    | activated => exact hpdn true true
    | deactivated => exact hpdn false m.pdnSem
    | networkDetach => exact hpdn false m.pdnSem
    | ctxDestroyed => exact hpdn false m.pdnSem
    | other => exact h

/-- After a reset RAM holds what flash held. -/
theorem reset_bound {m : Modem} (h : Bound m) (hsafe : ∀ c, m.StaysSafe c) : Bound m.reset := by
  refine ⟨?_, ?_, ?_, ?_, ?_, h.sent⟩
  · intro c
    have hown := (h.keeps c).flashStays (hsafe c)
    exact ⟨⟨_, .inl rfl, hown⟩, ⟨_, .inl rfl, hown⟩, fun hc => by cases hc⟩
  · intro r hr
    cases hr
  · intro c v hv
    cases hv
  · intro fd hfd
    cases hfd
  · intro hu
    cases hu

theorem start_bound : Bound (.start fun _ => []) := by
  refine ⟨fun c => ⟨⟨_, .inl rfl, .inl rfl⟩, ⟨_, .inl rfl, .inl rfl⟩, fun hc => by cases hc⟩, ?_,
      ?_, ?_, ?_, ?_⟩
  · intro r hr
    cases hr
  · intro c v hv
    cases hv
  · intro fd hfd
    cases hfd
  · intro hu
    cases hu
  · intro hs hmem
    cases hmem

instance (m : Modem) (c : Credential) (host value : CStr) : Decidable (m.Owned c host value) :=
  inferInstanceAs (Decidable (_ ∨ _))

instance (m : Modem) (c : Credential) (host : CStr) : Decidable (m.RamFor c host) :=
  inferInstanceAs (Decidable (_ ∨ _))

instance (m : Modem) (c : Credential) (host : CStr) : Decidable (m.FlashFor c host) :=
  inferInstanceAs (Decidable (_ ∨ _))

instance (m : Modem) (c : Credential) (save : SaveOutcome) : Decidable (m.StoreSafe c save) :=
  inferInstanceAs (Decidable (_ ∧ _))

instance (m : Modem) (c : Credential) : Decidable (m.ReadSafe c) :=
  inferInstanceAs (Decidable (∀ b ∈ m.command.clears c, _))

instance (m : Modem) (c : Credential) : Decidable (m.StaysSafe c) :=
  inferInstanceAs (Decidable (∀ b ∈ m.command.clears c, _))

instance (m : Modem) (host : CStr) : Decidable (m.HostSafe host) :=
  inferInstanceAs (Decidable (_ ∨ _))

instance (m : Modem) (http : HttpCalls) : Decidable (m.RequestSafe http) :=
  inferInstanceAs (Decidable (∀ q ∈ m.modem.asks, _))

instance (m : Modem) (inp : ModemInput) : Decidable (m.TaskSafe inp) :=
  inferInstanceAs (Decidable (_ ∧ _))

instance (m : Modem) : Decidable m.CommandSafe :=
  inferInstanceAs (Decidable (_ ∧ _))

instance (m : Modem) : (e : ModemEvent) → Decidable (e.Safe m)
  | .task inp => inferInstanceAs (Decidable (m.TaskSafe inp))
  | .command save => inferInstanceAs (Decidable (save = .unsaved → m.CommandSafe))
  | .reset => inferInstanceAs (Decidable (_ ∧ _))
  | .host _ => .isTrue trivial
  | .reg _ _ => .isTrue trivial
  | .lte _ _ => .isTrue trivial

/-- "#host", every key saved. -/
def newHost : List ModemEvent := .host (cs "other") :: List.replicate 3 (.command .saved)

/-- **Credentials stay bound to the host that issued them.**  In every run of the two threads
all of whose steps meet the condition, whatever fails to be saved and wherever a reset comes,
a handshake sends a host only what a registration against that host returned. -/
theorem credentials_bound {events : List ModemEvent} {m : Modem}
    (h : Run (Guarded ModemTrans ModemEvent.Safe) (.start fun _ => []) events m) :
    ∀ hs ∈ m.handshakes, ∀ c : Credential, m.Owned c hs.host (c.sent hs) := by
  have hbound : Bound m := h.invariant (I := Bound)
    (fun s e t hs hr => by
      obtain ⟨hsafe, hposs, rfl⟩ := hr
      cases e with
      | task inp => exact modemStep_bound hs hsafe
      | command save => exact commandStep_bound hs hposs hsafe
      | host host =>
          show Bound (hostCommand s host)
          unfold hostCommand
          split_ifs
          · exact hs.begin hposs (fun _ => rfl)
          · exact hs
      | reg code name =>
          show Bound (regCommand s code name)
          unfold regCommand
          split_ifs
          · exact hs
          · exact hs.begin hposs (fun _ => rfl)
          · exact hs
      | lte cid event => exact lteLcEvtHandler_bound hs cid event
      | reset =>
          exact reset_bound hs (fun c => by
            cases c with
            | id => exact hsafe.1
            | secret => exact hsafe.2))
    start_bound
  exact hbound.sent

theorem credentials_bound_connected :
    ((registered ++ connects).foldl ModemEvent.apply factory).handshakes.length = 1 ∧
      ∀ hs ∈ ((registered ++ connects).foldl ModemEvent.apply factory).handshakes,
        ∀ c : Credential, Modem.Owned ((registered ++ connects).foldl ModemEvent.apply factory) c
          hs.host (c.sent hs) := by
  have hrun : Run (Guarded ModemTrans ModemEvent.Safe) factory (registered ++ connects)
      ((registered ++ connects).foldl ModemEvent.apply factory) :=
    Run.of_along ModemEvent.apply (fun m e => e.Safe m ∧ e.Possible m)
      (fun _ _ h => ⟨h.1, h.2, rfl⟩) (by decide +kernel)
  exact ⟨by decide +kernel, credentials_bound hrun⟩

/-- A "#host" while a registration is answered hands its credentials to the new host. -/
theorem registration_outlives_host :
    ¬ ∀ (events : List ModemEvent) (m : Modem), Run ModemTrans factory events m →
      ∀ hs ∈ m.handshakes, ∀ c : Credential, m.Owned c hs.host (c.sent hs) := by
  intro h
  have hrun : Run ModemTrans factory (registered ++ newHost ++ connects)
      ((registered ++ newHost ++ connects).foldl ModemEvent.apply factory) :=
    Run.of_along ModemEvent.apply (fun m e => e.Possible m) (fun _ _ hp => ⟨hp, rfl⟩)
      (by decide +kernel)
  have hall : ∀ hs ∈ ((registered ++ newHost ++ connects).foldl ModemEvent.apply
      factory).handshakes, Modem.Owned ((registered ++ newHost ++ connects).foldl
        ModemEvent.apply factory) .id hs.host hs.id :=
    fun hs hmem => h _ _ hrun hs hmem .id
  revert hall
  decide +kernel

end NodemFirmware.Cloud
