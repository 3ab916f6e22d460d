import NodemFirmware.Cloud.Credentials

/-! # A device id and its secret

`step_register` writes the two halves of a reply one after the other, to RAM and to flash, and
either write to flash may fail; after a reset RAM holds what flash does.

* `Copy` follows what was written of the pair in one of the two.
* `Copy.Inv` is the invariant of a copy; its lemmas are about the keys of either. -/

namespace NodemFirmware.Cloud

open CText Transition

/-- There is no id in `keys`, or one reply had the id and the secret. -/
def Modem.PairedIn (m : Modem) (keys : Keys) : Prop :=
  keys .deviceId = [] ∨
    ∃ i ∈ m.issued, i.reply.id = keys .deviceId ∧ i.reply.secret = keys .deviceSecret

/-- The stored credentials are a pair, unless a code is pending. -/
def CredentialsPaired (m : Modem) : Prop :=
  (registrationPending m.ram = false → m.PairedIn m.ram) ∧
    (registrationPending m.flash = false → m.PairedIn m.flash)

/-! ### What was written -/

/-- `whole` unless the last attempt to write one half there left the other as it was; `idNew` if
the attempt under way has written its id. -/
structure Copy where
  whole : Bool
  idNew : Bool

/-- A step of `modem_task` whose write reached the copy, or did not. -/
def Copy.task (c : Copy) (pc : ModemPc) (written : Bool) : Copy :=
  match pc with
  | .regStoreId _ _ => ⟨c.whole && !written, written⟩
  | .regStoreSecret _ _ => { c with whole := if written then c.idNew else c.whole }
  | _ => c

/-- A step of a command. -/
def Copy.command (c : Copy) (pc : CommandPc) (written : Bool) : Copy :=
  match pc with
  | .hostClearSecret _ => { c with whole := c.whole && !written }
  | _ => c

/-- The modem task with both copies followed. -/
structure Halves where
  modem : Modem
  ram : Copy
  flash : Copy

def Halves.apply (p : Halves) : ModemEvent → Halves
  | .task inp =>
      { modem := modemStep p.modem inp
        ram := p.ram.task p.modem.modem inp.save.inRam
        flash := p.flash.task p.modem.modem inp.save.ok }
  | .command save =>
      { modem := commandStep p.modem save
        ram := p.ram.command p.modem.command save.inRam
        flash := p.flash.command p.modem.command save.ok }
  | .reset => ⟨p.modem.reset, p.flash, p.flash⟩
  | e => { p with modem := e.apply p.modem }

def HalvesTrans (p : Halves) (e : ModemEvent) (p' : Halves) : Prop :=
  e.Possible p.modem ∧ p' = p.apply e

/-- A new device. -/
def Halves.factory : Halves := ⟨Cloud.factory, ⟨true, false⟩, ⟨true, false⟩⟩

/-! ### What a step must meet -/

/-- Both halves were written there, or there is no id. -/
def Copy.Whole (c : Copy) (keys : Keys) : Prop := c.whole = true ∨ keys .deviceId = []

/-- A half is written where the code is still pending, or a secret where there is no id. -/
def HalfSafe (keys : Keys) : Option Key → Prop
  | some .deviceId => registrationPending keys = true
  | some .deviceSecret => registrationPending keys = true ∨ keys .deviceId = []
  | _ => True

/-- A pending code is taken out where both halves were written. -/
def Copy.LeaveSafe (c : Copy) (keys : Keys) (key : Option Key) : Prop :=
  key = some .regCode → registrationPending keys = true → c.Whole keys

/-- A secret is cleared where there is no id, or a code is pending. -/
def ClearSafe (keys : Keys) (key : Option Key) : Prop :=
  key = some .deviceSecret → registrationPending keys = true ∨ keys .deviceId = []

/-- **The condition under which the credentials stay a pair.** -/
def ModemEvent.PairSafe (p : Halves) : ModemEvent → Prop
  | task inp =>
      p.modem.RequestSafe inp.http ∧
      (inp.save.ok = true → HalfSafe p.modem.flash p.modem.modem.sets) ∧
      (inp.save.inRam = true → p.ram.LeaveSafe p.modem.ram p.modem.modem.sets) ∧
      (inp.save.ok = true → p.flash.LeaveSafe p.modem.flash p.modem.modem.sets)
  | command save =>
      (save.inRam = true → ClearSafe p.modem.ram p.modem.command.sets) ∧
      (save.ok = true → ClearSafe p.modem.flash p.modem.command.sets)
  | _ => True

/-! ### The invariant of a copy -/

variable {c : Copy} {m m' : Modem} {keys keys' : Keys}

structure Copy.Inv (c : Copy) (m : Modem) (keys : Keys) : Prop where
  paired : c.whole = true → m.PairedIn keys
  settled : registrationPending keys = false → c.Whole keys
  half : ∀ fd reply, m.modem = .regStoreSecret fd reply → c.idNew = true →
    keys .deviceId = reply.id ∨ keys .deviceId = []

theorem Copy.Inv.pairedIn (h : c.Inv m keys) (hpend : registrationPending keys = false) :
    m.PairedIn keys := by
  rcases h.settled hpend with hwhole | hid
  · exact h.paired hwhole
  · exact .inl hid

/-- Steps that leave the two halves. -/
theorem Copy.Inv.mono (h : c.Inv m keys) (hid : keys' .deviceId = keys .deviceId)
    (hsecret : keys' .deviceSecret = keys .deviceSecret) (hissued : m.issued ⊆ m'.issued)
    (hsettled : registrationPending keys' = false → c.Whole keys)
    (hhalf : ∀ fd reply, m'.modem = .regStoreSecret fd reply →
      m.modem = .regStoreSecret fd reply) : c.Inv m' keys' := by
  refine ⟨?_, ?_, ?_⟩
  · intro hwhole
    unfold Modem.PairedIn
    rw [hid, hsecret]
    rcases h.paired hwhole with hnone | ⟨i, hmem, hi⟩
    · exact .inl hnone
    · exact .inr ⟨i, hissued hmem, hi⟩
  · intro hpend
    unfold Copy.Whole
    rw [hid]
    exact hsettled hpend
  · intro fd reply hpc hnew
    rw [hid]
    exact h.half fd reply (hhalf fd reply hpc) hnew

/-- `step_register` writes an id. -/
theorem Copy.Inv.storeId {fd : ℕ} {reply : Reply} {written : Bool} (h : c.Inv m keys)
    (hkeys : keys' = if written then Function.update keys .deviceId reply.id else keys)
    (hpend : written = true → registrationPending keys = true) (hissued : m.issued ⊆ m'.issued)
    (hpc : m'.modem = .regStoreSecret fd reply) :
    (c.task (.regStoreId fd reply) written).Inv m' keys' := by
  cases written with
  | true =>
      rw [if_pos rfl] at hkeys
      have hid : keys' .deviceId = reply.id := by rw [hkeys, Function.update_self]
      have hcode : registrationPending keys' = true := by
        have hsame : keys' .regCode = keys .regCode := by
          rw [hkeys, Function.update_of_ne (by decide)]
        rw [registrationPending_congr hsame]
        exact hpend rfl
      refine ⟨?_, ?_, ?_⟩
      · intro hwhole
        simp [Copy.task] at hwhole
      · intro hnot
        rw [hcode] at hnot
        cases hnot
      · intro fd' reply' hpc' _
        rw [hpc] at hpc'
        cases hpc'
        exact .inl hid
  | false =>
      rw [if_neg (by decide)] at hkeys
      subst hkeys
      refine ⟨?_, ?_, ?_⟩
      · intro hwhole
        rcases h.paired (by simpa [Copy.task] using hwhole) with hnone | ⟨i, hmem, hi⟩
        · exact .inl hnone
        · exact .inr ⟨i, hissued hmem, hi⟩
      · intro hnot
        have hwhole := h.settled hnot
        unfold Copy.Whole at hwhole ⊢
        simpa [Copy.task] using hwhole
      · intro fd' reply' _ hnew
        cases hnew

/-- It writes the secret. -/
theorem Copy.Inv.storeSecret {fd : ℕ} {reply : Reply} {written : Bool} (h : c.Inv m keys)
    (hold : m.modem = .regStoreSecret fd reply)
    (hkeys : keys' = if written then Function.update keys .deviceSecret reply.secret else keys)
    (hsafe : written = true → registrationPending keys = true ∨ keys .deviceId = [])
    (hreply : ∃ i ∈ m.issued, i.reply = reply) (hissued : m.issued ⊆ m'.issued)
    (hpc : m'.modem = .regStoreName fd reply) :
    (c.task (.regStoreSecret fd reply) written).Inv m' keys' := by
  cases written with
  | true =>
      rw [if_pos rfl] at hkeys
      have hid : keys' .deviceId = keys .deviceId := by
        rw [hkeys, Function.update_of_ne (by decide)]
      have hsecret : keys' .deviceSecret = reply.secret := by rw [hkeys, Function.update_self]
      have hcode : registrationPending keys' = registrationPending keys := by
        apply registrationPending_congr
        rw [hkeys, Function.update_of_ne (by decide)]
      refine ⟨?_, ?_, ?_⟩
      · intro hnew
        unfold Modem.PairedIn
        rw [hid, hsecret]
        rcases h.half fd reply hold hnew with hown | hnone
        · obtain ⟨i, hmem, rfl⟩ := hreply
          exact .inr ⟨i, hissued hmem, hown.symm, rfl⟩
        · exact .inl hnone
      · intro hnot
        rw [hcode] at hnot
        rcases hsafe rfl with hpend | hnone
        · rw [hpend] at hnot
          cases hnot
        · exact .inr (hid.trans hnone)
      · intro fd' reply' hpc' _
        rw [hpc] at hpc'
        cases hpc'
  | false =>
      rw [if_neg (by decide)] at hkeys
      subst hkeys
      refine h.mono rfl rfl hissued h.settled ?_
      intro fd' reply' hpc'
      rw [hpc] at hpc'
      cases hpc'

/-- It takes the code out. -/
theorem Copy.Inv.leave {val : CStr} {written : Bool} (h : c.Inv m keys)
    (hkeys : keys' = if written then Function.update keys .regCode val else keys)
    (hsafe : written = true → registrationPending keys = true → c.Whole keys)
    (hissued : m.issued ⊆ m'.issued)
    (hpc : ∀ fd reply, m'.modem ≠ .regStoreSecret fd reply) : c.Inv m' keys' := by
  cases written with
  | true =>
      rw [if_pos rfl] at hkeys
      refine h.mono ?_ ?_ hissued ?_ (fun fd reply h' => absurd h' (hpc fd reply))
      · rw [hkeys, Function.update_of_ne (by decide)]
      · rw [hkeys, Function.update_of_ne (by decide)]
      · intro _
        cases hpend : registrationPending keys with
        | true => exact hsafe rfl hpend
        | false => exact h.settled hpend
  | false =>
      rw [if_neg (by decide)] at hkeys
      subst hkeys
      exact h.mono rfl rfl hissued h.settled (fun fd reply h' => absurd h' (hpc fd reply))

/-! ### Both copies -/

theorem Copy.command_not_written (c : Copy) (pc : CommandPc) : c.command pc false = c := by
  cases pc <;> first | rfl | (unfold Copy.command; simp)

theorem Copy.command_of_idle (c : Copy) {pc : CommandPc} (h : pc.sets = none) (written : Bool) :
    c.command pc written = c := by
  cases pc with
  | idle => rfl
  | _ => cases h

/-- **A step of a command.** -/
theorem Copy.Inv.command {key : Key} {written : Bool} (h : c.Inv m keys) (hcode : CodeFits m)
    (hset : m.command.sets = some key)
    (hkeys : keys' = if written then Function.update keys key m.command.value else keys)
    (hsafe : written = true → ClearSafe keys (some key)) (hs : SameTask m m') :
    (c.command m.command written).Inv m' keys' := by
  have hissued : m.issued ⊆ m'.issued := by
    rw [hs.issued]
    exact List.Subset.refl _
  have hhalf : ∀ fd reply, m'.modem = .regStoreSecret fd reply →
      m.modem = .regStoreSecret fd reply := by
    intro fd reply hpc
    exact hs.modem.symm.trans hpc
  cases written with
  | false =>
      rw [if_neg (by decide)] at hkeys
      subst hkeys
      rw [Copy.command_not_written]
      exact h.mono rfl rfl hissued h.settled hhalf
  | true =>
      rw [if_pos rfl] at hkeys
      have hother : ∀ k, k ≠ key → keys' k = keys k := by
        intro k hk
        rw [hkeys, Function.update_of_ne hk]
      have hself : keys' key = m.command.value := by rw [hkeys, Function.update_self]
      cases hc : m.command with
      | idle =>
          rw [hc] at hset
          cases hset
      | hostStore host =>
          rw [hc] at hset
          cases hset
          refine h.mono (hother _ (by decide)) (hother _ (by decide)) hissued ?_ hhalf
          rw [registrationPending_congr (hother .regCode (by decide))]
          exact h.settled
      | hostClearId before =>
          rw [hc] at hset hself
          cases hset
          exact ⟨fun _ => .inl hself, fun _ => .inr hself, fun _ _ _ _ => .inr hself⟩
      | hostClearSecret before =>
          rw [hc] at hset
          cases hset
          have hid := hother .deviceId (by decide)
          refine ⟨?_, ?_, ?_⟩
          · intro hwhole
            simp [Copy.command] at hwhole
          · intro hnot
            rw [registrationPending_congr (hother .regCode (by decide))] at hnot
            rcases hsafe rfl rfl with hpend | hnone
            · rw [hpend] at hnot
              cases hnot
            · exact .inr (hid.trans hnone)
          · intro fd reply hpc hnew
            rw [hid]
            exact h.half fd reply (hhalf fd reply hpc) hnew
      | regStoreCode code name =>
          rw [hc] at hset hself
          cases hset
          refine h.mono (hother _ (by decide)) (hother _ (by decide)) hissued ?_ hhalf
          intro hnot
          rw [registrationPending_of_length (by rw [hself]; exact hcode code name hc)] at hnot
          cases hnot
      | regStoreName name =>
          rw [hc] at hset
          cases hset
          refine h.mono (hother _ (by decide)) (hother _ (by decide)) hissued ?_ hhalf
          rw [registrationPending_congr (hother .regCode (by decide))]
          exact h.settled

theorem nextPc_regStoreSecret {inp : ModemInput} {fd : ℕ} {reply : Reply}
    (h : m.nextPc inp = .regStoreSecret fd reply) : m.modem = .regStoreId fd reply := by
  have hfrom := m.nextPc_enters inp
  rwa [h] at hfrom

/-- The reply that is stored was given. -/
theorem nextPc_regStoreId {inp : ModemInput} {fd : ℕ} {reply : Reply}
    (h : m.nextPc inp = .regStoreId fd reply) (hsafe : m.RequestSafe inp.http) :
    ∃ i ∈ (modemStep m inp).issued, i.reply = reply := by
  have hfrom := m.nextPc_enters inp
  rw [h] at hfrom
  obtain ⟨code, name, imei, hpc, hreturn⟩ := hfrom
  cases hx : registerExchange m.gCloudHost code imei name inp.http with
  | error err =>
      rw [registerHttpRequest_error hx] at hreturn
      cases hreturn
      obtain ⟨hzero, hnot⟩ := registerExchange_zero hx
      rcases hsafe (code, imei, name) (by rw [hpc]; rfl) with hne | hcomplete
      · exact absurd hzero hne
      · exact absurd hcomplete hnot
  | ok reply' =>
      rw [registerHttpRequest_ok hx] at hreturn
      cases hreturn
      have hstep : modemStep m inp = registerRequest m fd code name imei inp := by
        unfold modemStep
        rw [hpc]
      rw [hstep, (registerRequest_quiet fd code name imei inp).issued, hx]
      exact ⟨⟨m.peer fd, reply⟩, List.mem_append_right _ List.mem_cons_self, rfl⟩

/-- The invariant of both copies; RAM keeps the code until the reply has been stored. -/
structure Halved (p : Halves) : Prop where
  ram : p.ram.Inv p.modem p.modem.ram
  flash : p.flash.Inv p.modem p.modem.flash
  reply : ∀ r ∈ p.modem.modem.reply, ∃ i ∈ p.modem.issued, i.reply = r
  registers : Registering p.modem
  code : CodeFits p.modem

variable {p : Halves}

theorem Copy.task_of_sets {pc : ModemPc} (c : Copy) (hid : pc.sets ≠ some .deviceId)
    (hsecret : pc.sets ≠ some .deviceSecret) (written : Bool) : c.task pc written = c := by
  cases pc with
  | regStoreId fd reply => exact absurd rfl hid
  | regStoreSecret fd reply => exact absurd rfl hsecret
  | _ => rfl

/-- **A step of `modem_task`**, for one of the copies. -/
theorem Copy.Inv.task {inp : ModemInput} {written : Bool} (h : c.Inv m keys)
    (hkeys : keys' = match m.modem.sets with
      | some key => if written then Function.update keys key m.modem.value else keys
      | none => keys)
    (hhalf : written = true → HalfSafe keys m.modem.sets)
    (hleave : written = true → c.LeaveSafe keys m.modem.sets)
    (hreply : ∀ r ∈ m.modem.reply, ∃ i ∈ m.issued, i.reply = r) :
    (c.task m.modem written).Inv (modemStep m inp) keys' := by
  have hissued := modemStep_issued m inp
  have hmodem := modemStep_modem m inp
  -- MODEM_STEP_REGISTER's second store comes after its first alone.
  have hpc : ∀ fd reply, (modemStep m inp).modem = .regStoreSecret fd reply →
      m.modem = .regStoreId fd reply := by
    intro fd reply h'
    exact nextPc_regStoreSecret (hmodem.symm.trans h')
  have hnever : m.modem.sets ≠ some .deviceId →
      ∀ fd reply, (modemStep m inp).modem ≠ .regStoreSecret fd reply := by
    intro hne fd reply h'
    rw [hpc fd reply h'] at hne
    exact hne rfl
  cases hset : m.modem.sets with
  | none =>
      rw [hset] at hkeys
      simp only at hkeys
      subst hkeys
      rw [c.task_of_sets (by rw [hset]; decide) (by rw [hset]; decide)]
      exact h.mono rfl rfl hissued h.settled
        (fun fd reply h' => absurd h' (hnever (by rw [hset]; decide) fd reply))
  | some key =>
      rw [hset] at hkeys hhalf hleave
      simp only at hkeys
      cases key with
      | deviceId =>
          cases hm : m.modem with
          | regStoreId fd reply =>
              rw [hm] at hkeys
              exact h.storeId hkeys hhalf hissued (by rw [hmodem]; unfold Modem.nextPc; rw [hm])
          | _ =>
              rw [hm] at hset
              cases hset
      | deviceSecret =>
          cases hm : m.modem with
          | regStoreSecret fd reply =>
              rw [hm] at hkeys hreply
              exact h.storeSecret hm hkeys hhalf (hreply reply rfl) hissued
                (by rw [hmodem]; unfold Modem.nextPc; rw [hm])
          | _ =>
              rw [hm] at hset
              cases hset
      | regCode =>
          rw [c.task_of_sets (by rw [hset]; decide) (by rw [hset]; decide)]
          exact h.leave hkeys (fun hw => hleave hw rfl) hissued
            (hnever (by rw [hset]; decide))
      | deviceName =>
          rw [c.task_of_sets (by rw [hset]; decide) (by rw [hset]; decide)]
          have hother : ∀ k, k ≠ .deviceName → keys' k = keys k := by
            intro k hk
            rw [hkeys]
            split_ifs
            · exact Function.update_of_ne hk _ _
            · rfl
          refine h.mono (hother _ (by decide)) (hother _ (by decide)) hissued ?_
            (fun fd reply h' => absurd h' (hnever (by rw [hset]; decide) fd reply))
          rw [registrationPending_congr (hother .regCode (by decide))]
          exact h.settled
      | cloudHost =>
          cases hm : m.modem with
          | _ =>
              rw [hm] at hset
              cases hset

/-- In RAM a half is only ever written with the code still pending. -/
theorem Halved.ramHalf (h : Halved p) : HalfSafe p.modem.ram p.modem.modem.sets := by
  cases hm : p.modem.modem with
  | regStoreId fd reply => exact h.registers (by rw [hm]; rfl)
  | regStoreSecret fd reply => exact .inl (h.registers (by rw [hm]; rfl))
  | _ => trivial

theorem Halved.task (h : Halved p) {inp : ModemInput}
    (hsafe : (ModemEvent.task inp).PairSafe p) : Halved (p.apply (.task inp)) := by
  obtain ⟨hrequest, hflash, hramLeave, hflashLeave⟩ := hsafe
  have hmodem := modemStep_modem p.modem inp
  refine ⟨?_, ?_, ?_, ?_, h.code.apply (.task inp)⟩
  · exact h.ram.task (modemStep_ram p.modem inp) (fun _ => h.ramHalf) hramLeave h.reply
  · exact h.flash.task (modemStep_flash p.modem inp) hflash hflashLeave h.reply
  · intro r hr
    change r ∈ (modemStep p.modem inp).modem.reply at hr
    rw [hmodem] at hr
    cases hnext : p.modem.nextPc inp with
    | regStoreId fd reply =>
        rw [hnext] at hr
        cases hr
        exact nextPc_regStoreId hnext hrequest
    | regStoreSecret fd reply =>
        rw [hnext] at hr
        cases hr
        obtain ⟨i, hmem, hi⟩ := h.reply r (by rw [nextPc_regStoreSecret hnext]; rfl)
        exact ⟨i, modemStep_issued p.modem inp hmem, hi⟩
    | _ =>
        rw [hnext] at hr
        cases hr
  · exact h.registers.apply h.code (.task inp)

theorem Halved.command (h : Halved p) {save : SaveOutcome}
    (hsafe : (ModemEvent.command save).PairSafe p) : Halved (p.apply (.command save)) := by
  have hs : SameTask p.modem (commandStep p.modem save) := commandStep_sameTask p.modem save
  obtain ⟨hram, hflash⟩ := hsafe
  refine ⟨?_, ?_, ?_, ?_, h.code.apply (.command save)⟩
  · show (p.ram.command p.modem.command save.inRam).Inv (commandStep p.modem save)
      (commandStep p.modem save).ram
    cases hset : p.modem.command.sets with
    | none =>
        rw [commandStep_idle hset, Copy.command_of_idle _ hset]
        exact h.ram
    | some key =>
        rw [hset] at hram
        refine h.ram.command h.code hset ?_ hram hs
        rw [(commandStep_sets hset).1, setStr_ram]
  · show (p.flash.command p.modem.command save.ok).Inv (commandStep p.modem save)
      (commandStep p.modem save).flash
    cases hset : p.modem.command.sets with
    | none =>
        rw [commandStep_idle hset, Copy.command_of_idle _ hset]
        exact h.flash
    | some key =>
        rw [hset] at hflash
        refine h.flash.command h.code hset ?_ hflash hs
        rw [(commandStep_sets hset).2, setStr_flash]
  · show ∀ r ∈ (commandStep p.modem save).modem.reply, _
    rw [hs.modem]
    intro r hr
    obtain ⟨i, hmem, hi⟩ := h.reply r hr
    refine ⟨i, ?_, hi⟩
    show i ∈ (commandStep p.modem save).issued
    rw [hs.issued]
    exact hmem
  · exact h.registers.apply h.code (.command save)

/-- What the other events have to keep. -/
theorem Halved.other (h : Halved p) {e : ModemEvent} (he : e.byOthers = true)
    (hram : (e.apply p.modem).ram = p.modem.ram)
    (hflash : (e.apply p.modem).flash = p.modem.flash) :
    Halved { p with modem := e.apply p.modem } := by
  have hs : SameTask p.modem (e.apply p.modem) := other_sameTask he
  have hissued : p.modem.issued ⊆ (e.apply p.modem).issued := by
    rw [hs.issued]
    exact List.Subset.refl _
  have hhalf : ∀ fd reply, (e.apply p.modem).modem = .regStoreSecret fd reply →
      p.modem.modem = .regStoreSecret fd reply := by
    rw [hs.modem]
    exact fun _ _ h' => h'
  refine ⟨?_, ?_, ?_, ?_, h.code.apply e⟩
  · show p.ram.Inv (e.apply p.modem) (e.apply p.modem).ram
    rw [hram]
    exact h.ram.mono rfl rfl hissued h.ram.settled hhalf
  · show p.flash.Inv (e.apply p.modem) (e.apply p.modem).flash
    rw [hflash]
    exact h.flash.mono rfl rfl hissued h.flash.settled hhalf
  · show ∀ r ∈ (e.apply p.modem).modem.reply, ∃ i ∈ (e.apply p.modem).issued, i.reply = r
    rw [hs.modem, hs.issued]
    exact h.reply
  · exact h.registers.apply h.code e

theorem Halved.apply (h : Halved p) {e : ModemEvent} (hsafe : e.PairSafe p) :
    Halved (p.apply e) := by
  cases e with
  | task inp => exact h.task hsafe
  | command save => exact h.command hsafe
  | host host =>
      have hkeys := hostCommand_keys p.modem host
      exact h.other (e := .host host) rfl hkeys.1 hkeys.2
  | reg code name =>
      have hkeys := regCommand_keys p.modem code name
      exact h.other (e := .reg code name) rfl hkeys.1 hkeys.2
  | lte cid event =>
      have hkeys := lteLcEvtHandler_keys p.modem cid event
      exact h.other (e := .lte cid event) rfl hkeys.1 hkeys.2.1
  | reset =>
      have hfresh : p.flash.Inv p.modem.reset p.modem.flash :=
        h.flash.mono rfl rfl (List.Subset.refl _) h.flash.settled (fun _ _ h' => by cases h')
      refine ⟨hfresh, hfresh, ?_, h.registers.apply h.code .reset, h.code.apply .reset⟩
      intro r hr
      cases hr

theorem factory_halved : Halved Halves.factory := by
  have hcopy : Copy.Inv ⟨true, false⟩ factory fun _ => [] :=
    ⟨fun _ => .inl rfl, fun _ => .inl rfl, fun _ _ h' => by cases h'⟩
  refine ⟨hcopy, hcopy, ?_, ?_, ?_⟩
  · intro r hr
    cases hr
  · intro hreg
    cases hreg
  · intro code name hcmd
    cases hcmd

/-- **The stored credentials are a pair** in a run in which no half is left behind. -/
theorem credentials_paired {events : List ModemEvent}
    (h : Run (Guarded HalvesTrans ModemEvent.PairSafe) .factory events p) :
    CredentialsPaired p.modem := by
  have hhalved : Halved p := h.invariant (I := Halved)
    (fun s e t hs hr => by
      obtain ⟨hsafe, -, rfl⟩ := hr
      exact hs.apply hsafe)
    factory_halved
  exact ⟨hhalved.ram.pairedIn, hhalved.flash.pairedIn⟩

/-! ### Two runs -/

instance (m : Modem) (keys : Keys) : Decidable (m.PairedIn keys) :=
  inferInstanceAs (Decidable (_ ∨ _))

instance (m : Modem) : Decidable (CredentialsPaired m) := inferInstanceAs (Decidable (_ ∧ _))

instance (c : Copy) (keys : Keys) : Decidable (c.Whole keys) := inferInstanceAs (Decidable (_ ∨ _))

instance (keys : Keys) : (key : Option Key) → Decidable (HalfSafe keys key)
  | some .deviceId => inferInstanceAs (Decidable (_ = _))
  | some .deviceSecret => inferInstanceAs (Decidable (_ ∨ _))
  | some .cloudHost => .isTrue trivial
  | some .deviceName => .isTrue trivial
  | some .regCode => .isTrue trivial
  | none => .isTrue trivial

instance (c : Copy) (keys : Keys) (key : Option Key) : Decidable (c.LeaveSafe keys key) :=
  inferInstanceAs (Decidable (_ → _))

instance (keys : Keys) (key : Option Key) : Decidable (ClearSafe keys key) :=
  inferInstanceAs (Decidable (_ → _))

instance (p : Halves) : (e : ModemEvent) → Decidable (e.PairSafe p)
  | .task _ => inferInstanceAs (Decidable (_ ∧ _))
  | .command _ => inferInstanceAs (Decidable (_ ∧ _))
  | .host _ => .isTrue trivial
  | .reg _ _ => .isTrue trivial
  | .lte _ _ => .isTrue trivial
  | .reset => .isTrue trivial

/-- A reset after the id has been stored, and the first steps of the next attempt. -/
def resetBetween : List ModemEvent :=
  registered ++ [.task answers, .reset, .lte 0 .activated]

/-- The server takes the code again. -/
def takenAgain : List ModemEvent := resetBetween ++ List.replicate 18 (.task answers)

theorem credentials_paired_again :
    CredentialsPaired (takenAgain.foldl Halves.apply .factory).modem ∧
      (takenAgain.foldl Halves.apply .factory).modem.flash .deviceId = cs "7f" := by
  have hrun : Run (Guarded HalvesTrans ModemEvent.PairSafe) .factory takenAgain
      (takenAgain.foldl Halves.apply .factory) :=
    Run.of_along Halves.apply (fun p e => e.PairSafe p ∧ e.Possible p.modem)
      (fun _ _ h => ⟨h.1, h.2, rfl⟩) (by decide +kernel)
  exact ⟨credentials_paired hrun, by decide +kernel⟩

/-- The server refuses the code. -/
def refuses : ModemInput :=
  { answers with
    http := { answers.http with received := [some (cs "HTTP/1.1 403 Forbidden\r\n\r\n")] } }

def thenRefused : List ModemEvent := resetBetween ++ List.replicate 16 (.task refuses)

/-- **An id is left without its secret** when the server does not take a used code again. -/
theorem half_left_behind :
    Run HalvesTrans .factory thenRefused (thenRefused.foldl Halves.apply .factory) ∧
      (thenRefused.foldl Halves.apply .factory).modem.ram .deviceSecret = [] ∧
      ¬ CredentialsPaired (thenRefused.foldl Halves.apply .factory).modem :=
  ⟨Run.of_along Halves.apply (fun p e => e.Possible p.modem) (fun _ _ h => ⟨h, rfl⟩)
    (by decide +kernel), by decide +kernel, by decide +kernel⟩

end NodemFirmware.Cloud
