import NodemFirmware.Cloud.Task

/-! # The live channel

What `modem_task` may count on between its look at the keys in `MODEM_STEP_PDN` and the
handshake of `step_websocket_connect`, which reads them again.

* `ModemPc.Relies` lists it, place by place.
* `Kept` says which steps and commands leave it as it is. -/

namespace NodemFirmware.Cloud

open CText Transition

/-- `step_websocket_connect` finds an id and a secret. -/
def Provisioned (keys : Keys) : Prop :=
  clip regIdLen (keys .deviceId) ≠ [] ∧ clip regSecretLen (keys .deviceSecret) ≠ []

/-- There is something to connect for. -/
def HasWork (keys : Keys) : Prop := registrationPending keys = true ∨ Provisioned keys

instance (keys : Keys) : Decidable (Provisioned keys) := inferInstanceAs (Decidable (_ ∧ _))

instance (keys : Keys) : Decidable (HasWork keys) := inferInstanceAs (Decidable (_ ∨ _))

/-- `MODEM_STEP_TLS`. -/
def ModemPc.opens : ModemPc → Bool
  | top step => step = .tls
  | tlsConnect => true
  | tlsChoose => true
  | _ => false

/-- The credentials that the websocket step has yet to read. -/
def ModemPc.unread : ModemPc → List Key
  | top step => if step = .websocket then [.deviceId, .deviceSecret] else []
  | wsSecret _ _ => [.deviceSecret]
  | _ => []

/-- The task goes back to `MODEM_STEP_TLS` without a look at the keys. -/
def Modem.reenters (m : Modem) (inp : ModemInput) : Bool :=
  match m.modem with
  | .retry step => step = .tls || step = .websocket
  | .supervisePing _ => inp.due && inp.err ≠ 0
  | .superviseSend _ => inp.due && inp.err ≠ 0
  | .superviseRecv _ => inp.err ≠ 0
  | _ => false

/-- `MODEM_STEP_PDN` looks at the id alone. -/
def ModemPc.looksAtId : ModemPc → Bool
  | pdnRegistered => true
  | _ => false

/-- What has to hold before a step: the task finds a secret beside the id, goes back to
`MODEM_STEP_TLS` only for something, and no credential is cleared on its way to the handshake. -/
def ModemEvent.Kept (m : Modem) : ModemEvent → Prop
  | task inp => (m.reenters inp = true → HasWork m.ram) ∧
      (m.modem.looksAtId = true → deviceRegistered m.ram = true → Provisioned m.ram)
  | command _ => ∀ key ∈ m.command.sets, key = .deviceId ∨ key = .deviceSecret →
      (m.modem.opens = true → registrationPending m.ram = true) ∧ key ∉ m.modem.unread
  | _ => True

instance (m : Modem) : (e : ModemEvent) → Decidable (e.Kept m)
  | .task _ => inferInstanceAs (Decidable (_ ∧ _))
  | .command _ => inferInstanceAs (Decidable (∀ key ∈ m.command.sets, _))
  | .host _ => .isTrue trivial
  | .reg _ _ => .isTrue trivial
  | .lte _ _ => .isTrue trivial
  | .reset => .isTrue trivial

/-- Handshakes carry an id and a secret, and `MODEM_STEP_TLS` is for a pending registration or a
registered device. -/
def RegisteredOnly (m : Modem) : Prop :=
  (∀ h ∈ m.handshakes, h.id ≠ [] ∧ h.secret ≠ []) ∧
    (m.modem.opens = true → registrationPending m.ram = true ∨ deviceRegistered m.ram = true)

/-! ### What the task counts on -/

/-- What the task counts on in a place. -/
def ModemPc.Relies (keys : Keys) : ModemPc → Prop
  | top .tls => HasWork keys
  | tlsConnect => HasWork keys
  | tlsChoose => HasWork keys
  | top .websocket => Provisioned keys
  | wsSecret _ id => id ≠ [] ∧ clip regSecretLen (keys .deviceSecret) ≠ []
  | wsConnect _ id secret => id ≠ [] ∧ secret ≠ []
  | _ => True

variable {m : Modem}

theorem ModemPc.relies_of_opens {pc : ModemPc} {keys : Keys} (h : pc.Relies keys)
    (hopens : pc.opens = true) : HasWork keys := by
  cases pc with
  | top step =>
      cases step with
      | tls => exact h
      | _ => cases hopens
  | tlsConnect => exact h
  | tlsChoose => exact h
  | _ => cases hopens

/-- **A step of `modem_task`**, as far as it leaves the keys. -/
theorem nextPc_relies {inp : ModemInput} (h : m.modem.Relies m.ram)
    (hkept : (ModemEvent.task inp).Kept m) : (m.nextPc inp).Relies m.ram := by
  obtain ⟨hreenters, hlooks⟩ := hkept
  unfold Modem.reenters at hreenters
  unfold Modem.nextPc
  cases hpc : m.modem with
  | top step =>
      rw [hpc] at h
      cases step with
      | tls => exact h
      | websocket =>
          simp only
          split
          · trivial
          · exact h
      | register =>
          simp only
          split_ifs <;> trivial
      | _ =>
          simp only
          split_ifs <;> trivial
  | retry step =>
      rw [hpc] at hreenters
      cases step with
      | tls => exact hreenters rfl
      | websocket => exact hreenters rfl
      | _ => trivial
  | pdnCheck =>
      simp only
      split_ifs <;> trivial
  | pdnWait =>
      simp only
      split_ifs <;> trivial
  | pdnPoll =>
      simp only
      split_ifs <;> trivial
  | pdnPending =>
      simp only
      split_ifs with hpend
      · exact .inl hpend
      · trivial
  | pdnRegistered =>
      simp only
      split_ifs with hreg
      · exact .inr (hlooks (by rw [hpc]; rfl) hreg)
      · trivial
  | tlsConnect =>
      rw [hpc] at h
      simp only
      split_ifs
      · trivial
      · exact h
  | tlsChoose =>
      rw [hpc] at h
      simp only
      split_ifs with hpend
      · trivial
      · exact h.resolve_left hpend
  | wsSecret fd id =>
      rw [hpc] at h
      exact h
  | wsConnect fd id secret =>
      simp only
      split_ifs <;> trivial
  | supervise ws =>
      simp only
      split_ifs with hpend
      · exact .inl hpend
      · trivial
  | superviseLink ws =>
      simp only
      split_ifs <;> trivial
  | supervisePing ws =>
      simp only [hpc, Bool.and_eq_true, decide_eq_true_eq] at hreenters
      simp only
      split_ifs with hfails
      · exact hreenters hfails
      · trivial
  | superviseSend ws =>
      simp only [hpc, Bool.and_eq_true, decide_eq_true_eq] at hreenters
      simp only
      split_ifs with hfails
      · exact hreenters hfails
      · trivial
  | superviseRecv ws =>
      simp only [hpc, decide_eq_true_eq] at hreenters
      simp only
      split_ifs with hfails
      · exact hreenters hfails
      · trivial
  | regName code =>
      simp only
      split_ifs
      · trivial
      · split <;> trivial
  | regImei fd code name =>
      simp only
      split_ifs
      · trivial
      · split <;> trivial
  | regRequest fd code name imei =>
      simp only
      split_ifs <;> trivial
  | regClose fd failed =>
      simp only
      split_ifs <;> trivial
  | _ => trivial

/-- A step that sets a key counts on nothing afterwards. -/
theorem nextPc_relies_sets {inp : ModemInput} {key : Key} (h : m.modem.sets = some key)
    (keys : Keys) : (m.nextPc inp).Relies keys := by
  unfold Modem.nextPc
  cases hpc : m.modem with
  | regDrop => trivial
  | regStoreId fd reply => trivial
  | regStoreSecret fd reply => trivial
  | regStoreName fd reply => trivial
  | regConsume fd => trivial
  | regReject => trivial
  | _ =>
      rw [hpc] at h
      cases h

/-- The task counts on what is there, and the handshakes so far had an id and a secret. -/
structure Relied (m : Modem) : Prop where
  relies : m.modem.Relies m.ram
  sent : ∀ h ∈ m.handshakes, h.id ≠ [] ∧ h.secret ≠ []
  code : CodeFits m

theorem Relied.step (h : Relied m) {inp : ModemInput} (hkept : (ModemEvent.task inp).Kept m) :
    Relied (modemStep m inp) := by
  refine ⟨?_, ?_, h.code.apply (.task inp)⟩
  · rw [modemStep_modem]
    cases hsets : m.modem.sets with
    | some key => exact nextPc_relies_sets hsets _
    | none =>
        rw [(modemStep_keys hsets).1]
        exact nextPc_relies h.relies hkept
  · rcases modemStep_handshakes m inp with hsame | ⟨fd, id, secret, hpc, hsent⟩
    · rw [hsame]
      exact h.sent
    · rw [hsent]
      intro k hk
      rcases List.mem_append.mp hk with hold | hnew
      · exact h.sent k hold
      · have hrelies := h.relies
        rw [hpc] at hrelies
        rw [List.mem_singleton.mp hnew]
        exact hrelies

/-- What the task counts on stays when the keys it has yet to read do. -/
theorem ModemPc.Relies.mono {pc : ModemPc} {keys keys' : Keys} (h : pc.Relies keys)
    (hwork : pc.opens = true → HasWork keys → HasWork keys')
    (hunread : ∀ key ∈ pc.unread, keys' key = keys key) : pc.Relies keys' := by
  cases pc with
  | top step =>
      cases step with
      | tls => exact hwork rfl h
      | websocket =>
          have hid := hunread .deviceId (by decide)
          have hsecret := hunread .deviceSecret (by decide)
          show Provisioned keys'
          unfold Provisioned
          rw [hid, hsecret]
          exact h
      | _ => trivial
  | tlsConnect => exact hwork rfl h
  | tlsChoose => exact hwork rfl h
  | wsSecret fd id =>
      have hsecret := hunread .deviceSecret (List.mem_singleton.mpr rfl)
      refine ⟨h.1, ?_⟩
      rw [hsecret]
      exact h.2
  | wsConnect fd id secret => exact h
  | _ => trivial

theorem ModemPc.unread_credential {pc : ModemPc} {key : Key} (h : key ∈ pc.unread) :
    key = .deviceId ∨ key = .deviceSecret := by
  cases pc with
  | top step =>
      cases step with
      | websocket =>
          revert h
          cases key <;> decide
      | _ => cases h
  | wsSecret fd id => exact .inr (List.mem_singleton.mp h)
  | _ => cases h

theorem Relied.other (h : Relied m) {e : ModemEvent} (he : e.byOthers = true)
    (hkept : e.Kept m) : Relied (e.apply m) := by
  have hs : SameTask m (e.apply m) := other_sameTask he
  refine ⟨?_, ?_, h.code.apply e⟩
  · rw [hs.modem]
    rcases other_keys (m := m) he with ⟨hram, -⟩ | ⟨save, key, rfl, hset, hram, -⟩
    · rw [hram]
      exact h.relies
    · -- A credential that is cleared is not one the task counts on.
      have hcleared := hkept key hset
      have hother : ∀ k, k ≠ key → ((ModemEvent.command save).apply m).ram k = m.ram k := by
        intro k hk
        rw [hram]
        exact (setStr_other m hk m.command.value save).1
      refine h.relies.mono ?_ ?_
      · rintro hopens (hpend | ⟨hid, hsecret⟩)
        · exact .inl (other_pending h.code he hpend)
        · by_cases hkey : key = .deviceId ∨ key = .deviceSecret
          · exact .inl (other_pending h.code he ((hcleared hkey).1 hopens))
          · push Not at hkey
            refine .inr ⟨?_, ?_⟩
            · rw [hother .deviceId hkey.1.symm]
              exact hid
            · rw [hother .deviceSecret hkey.2.symm]
              exact hsecret
      · intro k hk
        refine hother k ?_
        rintro rfl
        exact (hcleared (ModemPc.unread_credential hk)).2 hk
  · rw [hs.handshakes]
    exact h.sent

theorem Relied.apply (h : Relied m) {e : ModemEvent} (hkept : e.Kept m) :
    Relied (e.apply m) := by
  cases e with
  | task inp => exact h.step hkept
  | reset => exact ⟨trivial, h.sent, h.code.apply .reset⟩
  | _ => exact h.other rfl hkept

theorem start_relied (flash : Keys) : Relied (.start flash) := by
  refine ⟨trivial, ?_, ?_⟩
  · intro k hk
    cases hk
  · intro code name hcmd
    cases hcmd

/-- **The live channel is for a registered device** in a run in which what the task counts on is
kept. -/
theorem live_channel_registered {flash : Keys} {events : List ModemEvent}
    (h : Run (Guarded ModemTrans ModemEvent.Kept) (.start flash) events m) :
    RegisteredOnly m := by
  have hrelied : Relied m := h.invariant (I := Relied)
    (fun s e t hs hr => by
      obtain ⟨hkept, -, rfl⟩ := hr
      exact hs.apply hkept)
    (start_relied flash)
  refine ⟨hrelied.sent, ?_⟩
  intro hopens
  rcases ModemPc.relies_of_opens hrelied.relies hopens with hpend | ⟨hid, -⟩
  · exact .inl hpend
  · refine .inr ?_
    unfold deviceRegistered
    rw [decide_eq_true_eq]
    exact hid

theorem live_channel_registered_connected :
    ((registered ++ connects).foldl ModemEvent.apply factory).handshakes.length = 1 ∧
      RegisteredOnly ((registered ++ connects).foldl ModemEvent.apply factory) := by
  have hrun : Run (Guarded ModemTrans ModemEvent.Kept) factory (registered ++ connects)
      ((registered ++ connects).foldl ModemEvent.apply factory) :=
    Run.of_along ModemEvent.apply (fun m e => e.Kept m ∧ e.Possible m)
      (fun _ _ h => ⟨h.1, h.2, rfl⟩) (by decide +kernel)
  exact ⟨by decide +kernel, live_channel_registered hrun⟩

/-- "#host" while the channel is open, which then breaks. -/
def hostOverChannel : List ModemEvent :=
  registered ++ connects ++ .host [] :: List.replicate 3 (.command .saved) ++
    List.replicate 4 (.task answers) ++ .task { answers with err := -Errno.notconn } ::
    List.replicate 6 (.task answers)

/-- **A device without an id is connected.** -/
theorem handshake_unregistered :
    Run ModemTrans factory hostOverChannel (hostOverChannel.foldl ModemEvent.apply factory) ∧
      (∃ h ∈ (hostOverChannel.foldl ModemEvent.apply factory).handshakes,
        h.id = [] ∧ h.secret = []) ∧
      ¬ RegisteredOnly (hostOverChannel.foldl ModemEvent.apply factory) := by
  have hempty : ∃ h ∈ (hostOverChannel.foldl ModemEvent.apply factory).handshakes,
      h.id = [] ∧ h.secret = [] := by
    decide +kernel
  refine ⟨Run.of_along ModemEvent.apply (fun m e => e.Possible m) (fun _ _ h => ⟨h, rfl⟩)
    (by decide +kernel), hempty, ?_⟩
  obtain ⟨h, hmem, hid, -⟩ := hempty
  exact fun honly => (honly.1 h hmem).1 hid

end NodemFirmware.Cloud
