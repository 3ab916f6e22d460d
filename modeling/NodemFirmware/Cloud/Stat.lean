import NodemFirmware.Cloud.Provision
import NodemFirmware.Hub75.Overload

/-! # "#stat"

`process_line`'s "stat" with `modem_stat_format` and `hub75_stat_format`, from what they read to
the bytes of the reply: the fields' buffers, the answers of the modem taken apart, the text that
is written only if it is UTF-8.

* `StatInput` is what is read, `statReply` the reply.
* `Parses` says what a reader of the reply expects: five lines, and in all but "pkg" the fields
  at the commas.
* `Plain` are the values that can be told from the separators around them.

A reply can be parsed exactly when the host, the name and what the modem answered are plain and
the name fits its buffer (`parses_iff`).  Commands and registrations that store such values keep
it so; the commands' own checks, of the length alone, do not (`stat_not_parsed`). -/

namespace NodemFirmware.Cloud

open CText Str Transition

/-! ### What is read -/

/-- What "#stat" reads; `cgdcont` and `cesq` are the answers to the AT commands, `temp` what
`modem_core_temp` gives (none where the call fails). -/
structure StatInput where
  status : ModemStep → StepState × ℤ
  gPdnUp : Bool
  cgdcont : Option CStr
  cesq : Option CStr
  keys : Keys
  temp : Option ℤ
  pingInterval : ℕ
  heapFree : ℕ
  pkgSize : ℕ
  pkgCapacity : ℕ
  pkgMeta : Chars
  statState : Hub75.StatState
  statWidth : UInt16
  statHeight : UInt16
  statDriven : UInt8
  statPanels : UInt8

/-- `step_name`. -/
def ModemStep.name : ModemStep → CStr
  | init => cs "init"
  | sim => cs "sim"
  | pdn => cs "pdn"
  | tls => cs "tls"
  | register => cs "reg"
  | websocket => cs "ws"

/-- The steps of the modem's side and of the cloud's. -/
def modemSteps : List ModemStep := [.init, .sim, .pdn]
def cloudSteps : List ModemStep := [.tls, .register, .websocket]

/-- `step_error_str` into 24 bytes. -/
def stepErrorStr (status : ModemStep → StepState × ℤ) (steps : List ModemStep) : CStr :=
  match steps.find? fun step => (status step).1 = .error with
  | none => []
  | some step => clip 24 (step.name ++ cs "(" ++ fmtD (status step).2 ++ cs ")")

/-- `quoted_field`, on a line up to its end: the `n`th quoted text of it. -/
def quotedText : ℕ → CStr → Option CStr
  | n, s => do
      let start ← (cut '"' s).2
      let (text, rest) := cut '"' start
      let rest ← rest
      match n with
      | 0 => some text
      | n + 1 => quotedText n rest

/-- `quoted_field` into `bufLen` bytes. -/
def quotedField (line : CStr) (n bufLen : ℕ) : CStr :=
  match quotedText n (line.takeWhile fun c => c ≠ 13 && c ≠ 10) with
  | none => []
  | some text => if text.length < bufLen then text else []

/-- `atoi`. -/
def atoi (s : CStr) : ℤ := ((strtol s).map (·.1)).getD 0

/-- `strchr(p + 1, ',')` for `n` times. -/
def skipFields : ℕ → CStr → Option CStr
  | 0, s => some s
  | n + 1, s => (cut ',' s).2.bind (skipFields n)

/-- `modem_rsrp_dbm`, from the answer to AT+CESQ. -/
def modemRsrpDbm (resp : Option CStr) : Option ℤ := do
  let s ← resp
  let rsrp := (((cut ':' s).2.bind (skipFields 5)).map atoi).getD (-1)
  if 0 ≤ rsrp ∧ rsrp ≤ 97 then some (rsrp - 140) else none

/-! ### modem_stat_format -/

namespace StatInput

variable (s : StatInput)

def modemErr : CStr := stepErrorStr s.status modemSteps

def modemState : CStr :=
  if modemSteps.all fun step => (s.status step).1 = .ok then cs "connected"
  else if s.modemErr ≠ [] then cs "failed" else cs "connecting"

/-- The line of the answer to AT+CGDCONT? that is for the default context. -/
def cgdcontLine : Option CStr :=
  if s.gPdnUp then s.cgdcont.bind (strstr (cs "+CGDCONT: 0,")) else none

def apn : CStr := (s.cgdcontLine.map fun line => quotedField line 1 64).getD []

/-- The first of the addresses. -/
def ip : CStr := (s.cgdcontLine.map fun line => (cut ' ' (quotedField line 2 48)).1).getD []

def quality : CStr :=
  if s.gPdnUp then ((modemRsrpDbm s.cesq).map fun dbm => clip 8 (fmtD dbm)).getD [] else []

/-- `reg_state`, and `cloud_err` with it. -/
def registration : CStr × CStr :=
  let cloudErr := stepErrorStr s.status cloudSteps
  if registrationPending s.keys then
    (if cloudErr ≠ [] then cs "reg_failed" else cs "registering", cloudErr)
  else if deviceRegistered s.keys then (cs "registered", cloudErr)
  else if clip (regCodeLen + 1) (s.keys .regCode) = regCodeRejected then
    (cs "reg_failed", if cloudErr = [] then cs "rejected" else cloudErr)
  else (cs "no_reg", cloudErr)

def connState : CStr :=
  if (s.status .websocket).1 = .ok then cs "connected"
  else if cloudSteps.any fun step => (s.status step).1 = .running then cs "connecting"
  else cs "disconnected"

/-- `name`: what its buffer holds of the device's name. -/
def shownName : CStr := clip (regNameMaxLen + 1) (s.keys .deviceName)

/-- What `modem_stat_format` prints. -/
def modemStatText : CStr :=
  cs "modem," ++ s.modemState ++ cs "," ++ s.apn ++ cs "," ++ s.ip ++ cs "," ++ s.quality ++
    cs "," ++ s.modemErr ++ cs "\r\n" ++
  cs "cloud," ++ s.registration.1 ++ cs "," ++ s.connState ++ cs "," ++ getCloudHost s.keys ++
    cs "," ++ s.shownName ++ cs "," ++ s.registration.2 ++ cs "\r\n"

/-- What `hub75_stat_format` prints. -/
def hub75StatText : CStr :=
  let size := fmtU s.statWidth.toNat ++ cs "x" ++ fmtU s.statHeight.toNat
  match s.statState with
  | .disabled => cs "hub75,0,,"
  | .lowMem => cs "hub75,1," ++ size ++ cs ",low_mem " ++ fmtU s.statDriven.toNat ++ cs "/" ++
      fmtU s.statPanels.toNat ++ cs " panels"
  | .ok => cs "hub75,1," ++ size ++ cs "," ++ cs "ok"
  | .noMem => cs "hub75,1," ++ size ++ cs "," ++ cs "no_mem"
  | .overload => cs "hub75,1," ++ size ++ cs "," ++ cs "overload"

/-! ### process_line -/

/-- `from_utf8(&buf[..n])` of a text printed into `bufLen` bytes, "" where it is not UTF-8; `n` is
the length that was printed, or what the buffer has. -/
def utf8OfBuf (bufLen : ℕ) (text : CStr) : CStr :=
  let bytes := (clip bufLen text).take (min text.length (bufLen - 1))
  if ByteArray.validateUTF8 ⟨bytes.toArray⟩ then bytes else []

/-- The meta text, with line breaks turned into spaces. -/
def metaText : CStr :=
  if 0 < s.pkgSize then encode (s.pkgMeta.map fun c => if c = '\r' ∨ c = '\n' then ' ' else c)
  else []

def tempText : CStr := (s.temp.map fun t => fmtD t ++ cs ".0").getD []

/-- The reply to "#stat". -/
def statReply : CStr :=
  cs "dev," ++ fmtU s.pingInterval ++ cs "," ++ fmtU s.heapFree ++ cs "," ++ s.tempText ++
    cs "\r\n" ++
  cs "pkg," ++ fmtU s.pkgSize ++ cs "," ++ fmtU s.pkgCapacity ++ cs "," ++ s.metaText ++
    cs "\r\n" ++
  utf8OfBuf 512 s.modemStatText ++
  utf8OfBuf 64 s.hub75StatText ++ cs "\r\n"

/-! ### What a reader expects -/

def devFields : List CStr := [cs "dev", fmtU s.pingInterval, fmtU s.heapFree, s.tempText]

/-- The fields of "pkg" before the meta text. -/
def pkgFields : List CStr := [cs "pkg", fmtU s.pkgSize, fmtU s.pkgCapacity]

def modemFields : List CStr :=
  [cs "modem", s.modemState, s.apn, s.ip, s.quality, s.modemErr]

def cloudFields (name : CStr) : List CStr :=
  [cs "cloud", s.registration.1, s.connState, getCloudHost s.keys, name, s.registration.2]

def hub75Fields : List CStr :=
  let size := fmtU s.statWidth.toNat ++ cs "x" ++ fmtU s.statHeight.toNat
  match s.statState with
  | .disabled => [cs "hub75", cs "0", [], []]
  | .lowMem => [cs "hub75", cs "1", size,
      cs "low_mem " ++ fmtU s.statDriven.toNat ++ cs "/" ++ fmtU s.statPanels.toNat ++
        cs " panels"]
  | .ok => [cs "hub75", cs "1", size, cs "ok"]
  | .noMem => [cs "hub75", cs "1", size, cs "no_mem"]
  | .overload => [cs "hub75", cs "1", size, cs "overload"]

end StatInput

/-- A reply that can be parsed: the five lines, and their fields at the commas with the device's
name among them.  Only what is after the third comma of "pkg" has commas of its own. -/
structure ParsedLines (s : StatInput) (name dev pkg modem cloud hub75 : CStr) : Prop where
  dev : fields ',' dev = s.devFields
  pkg : fields ',' pkg = s.pkgFields ++ fields ',' s.metaText
  modem : fields ',' modem = s.modemFields
  cloud : fields ',' cloud = s.cloudFields name
  hub75 : fields ',' hub75 = s.hub75Fields

def Parses (s : StatInput) (name : CStr) : Prop :=
  ∃ dev pkg modem cloud hub75, textLines s.statReply = [dev, pkg, modem, cloud, hub75] ∧
    ParsedLines s name dev pkg modem cloud hub75

/-- A value that can be told from the separators around it. -/
structure Plain (t : CStr) : Prop where
  valid : Valid t
  comma : (',' : UInt8) ∉ t
  cr : (13 : UInt8) ∉ t
  lf : (10 : UInt8) ∉ t

instance (t : CStr) : Decidable (Plain t) :=
  decidable_of_iff (Valid t ∧ (',' : UInt8) ∉ t ∧ (13 : UInt8) ∉ t ∧ (10 : UInt8) ∉ t)
    ⟨fun h => ⟨h.1, h.2.1, h.2.2.1, h.2.2.2⟩, fun h => ⟨h.valid, h.comma, h.cr, h.lf⟩⟩

/-- A text in one line. -/
def Unbroken (t : CStr) : Prop := (13 : UInt8) ∉ t ∧ (10 : UInt8) ∉ t

/-! ### Joined fields -/

theorem valid_joinWith {sep : UInt8} (hsep : sep < 128) (l : List CStr) :
    Valid (joinWith sep l) ↔ ∀ f ∈ l, Valid f := by
  induction l with
  | nil => exact iff_of_true valid_nil fun f hf => nomatch hf
  | cons f l ih =>
      cases l with
      | nil => rw [joinWith_singleton, List.forall_mem_singleton]
      | cons g l => rw [joinWith_cons_cons, valid_append_cons hsep, ih, ← List.forall_mem_cons]

theorem unbroken_joinWith {l : List CStr} :
    Unbroken (joinWith ',' l) ↔ ∀ f ∈ l, Unbroken f :=
  ⟨fun h _ hf => ⟨fun hc => h.1 (mem_joinWith hf hc), fun hc => h.2 (mem_joinWith hf hc)⟩,
    fun h => ⟨not_mem_joinWith (by decide) fun f hf => (h f hf).1,
      not_mem_joinWith (by decide) fun f hf => (h f hf).2⟩⟩

/-- A line of fields and what follows it. -/
theorem textLines_joinWith {l : List CStr} {f : CStr} (hf : f ∈ l) (hne : f ≠ [])
    (h : ∀ g ∈ l, Unbroken g) (t : CStr) :
    textLines (joinWith ',' l ++ 13 :: 10 :: t) = joinWith ',' l :: textLines t := by
  obtain ⟨hcr, hlf⟩ := unbroken_joinWith.mpr h
  obtain ⟨c, hc⟩ := List.exists_mem_of_ne_nil f hne
  exact textLines_append (List.ne_nil_of_mem (mem_joinWith hf hc)) hcr hlf t

theorem fields_joinWith_of_mem {l : List CStr} {f : CStr} (hf : f ∈ l)
    (h : ∀ g ∈ l, (',' : UInt8) ∉ g) : fields ',' (joinWith ',' l) = l := by
  cases l with
  | nil => cases hf
  | cons g l => exact fields_joinWith h

/-! ### Texts of the firmware's own -/

/-- ASCII without a separator. -/
def tameByte (b : UInt8) : Bool := b < 128 && b ≠ ',' && b ≠ 13 && b ≠ 10

def Tame (t : CStr) : Prop := ∀ b ∈ t, tameByte b = true

instance (t : CStr) : Decidable (Tame t) := List.decidableBAll _ t

theorem Tame.append {t u : CStr} (ht : Tame t) (hu : Tame u) : Tame (t ++ u) := by
  intro b hb
  exact (List.mem_append.mp hb).elim (ht b) (hu b)

theorem Tame.clip {t : CStr} (h : Tame t) (cap : ℕ) : Tame (clip cap t) :=
  fun b hb => h b (List.mem_of_mem_take hb)

theorem Tame.plain {t : CStr} (h : Tame t) : Plain t := by
  have hsep (b : UInt8) (hb : tameByte b = false) : b ∉ t := by
    intro hmem
    rw [h b hmem] at hb
    cases hb
  refine ⟨valid_of_ascii fun b hb => ?_, hsep _ rfl, hsep _ rfl, hsep _ rfl⟩
  have hbyte := h b hb
  simp only [tameByte, Bool.and_eq_true, decide_eq_true_eq] at hbyte
  exact hbyte.1.1.1

theorem Plain.unbroken {t : CStr} (h : Plain t) : Unbroken t := ⟨h.cr, h.lf⟩

theorem tameByte_of_isdigit {b : UInt8} (h : isdigit b = true) : tameByte b = true := by
  have hsep (c : UInt8) (hc : isdigit c = false) : b ≠ c := by
    rintro rfl
    rw [hc] at h
    cases h
  have hlow : b < 128 := by
    simp only [isdigit, Bool.and_eq_true, decide_eq_true_eq] at h
    exact UInt8.lt_of_le_of_lt h.2 (by decide)
  simp only [tameByte, Bool.and_eq_true, decide_eq_true_eq]
  exact ⟨⟨⟨hlow, hsep _ (by decide)⟩, hsep _ (by decide)⟩, hsep _ (by decide)⟩

theorem tame_fmtU (n : ℕ) : Tame (fmtU n) :=
  fun _ hb => tameByte_of_isdigit (isdigit_of_mem_fmtU hb)

theorem tame_fmtD (i : ℤ) : Tame (fmtD i) := by
  unfold fmtD
  split_ifs
  · exact Tame.append (t := [('-' : UInt8)]) (by decide) (tame_fmtU _)
  · exact tame_fmtU _

theorem ModemStep.tame_name (step : ModemStep) : Tame step.name := by
  cases step <;> decide

theorem tame_stepErrorStr (status : ModemStep → StepState × ℤ) (steps : List ModemStep) :
    Tame (stepErrorStr status steps) := by
  unfold stepErrorStr
  split
  · decide
  · next step _ =>
    exact (((step.tame_name.append (by decide)).append (tame_fmtD _)).append (by decide)).clip 24

theorem stepErrorStr_length (status : ModemStep → StepState × ℤ) (steps : List ModemStep) :
    (stepErrorStr status steps).length < 24 := by
  unfold stepErrorStr
  split
  · decide
  · exact clip_length_lt (by decide) _

theorem quotedField_length (line : CStr) (n : ℕ) {bufLen : ℕ} (h : 0 < bufLen) :
    (quotedField line n bufLen).length < bufLen := by
  unfold quotedField
  split
  · exact h
  · split_ifs with hlen
    · exact hlen
    · exact h

theorem getCloudHost_length (keys : Keys) : (getCloudHost keys).length < 128 := by
  unfold getCloudHost
  simp only
  split_ifs <;> exact clip_length_lt (by decide) _

namespace StatInput

variable (s : StatInput)

theorem tame_modemErr : Tame s.modemErr := tame_stepErrorStr _ _

theorem tame_modemState : Tame s.modemState := by
  unfold modemState
  split_ifs <;> decide

theorem modemState_length : s.modemState.length ≤ 10 := by
  unfold modemState
  split_ifs <;> decide

theorem tame_quality : Tame s.quality := by
  unfold quality
  split_ifs
  · cases modemRsrpDbm s.cesq with
    | none => decide
    | some dbm => exact (tame_fmtD dbm).clip 8
  · decide

theorem quality_length : s.quality.length < 8 := by
  unfold quality
  split_ifs
  · cases modemRsrpDbm s.cesq with
    | none => decide
    | some dbm => exact clip_length_lt (by decide) _
  · decide

/-- The two fields are among the texts of the source, or the second is the error's. -/
theorem registration_cases : s.registration.1 ∈ [cs "reg_failed", cs "registering",
      cs "registered", cs "no_reg"] ∧
    s.registration.2 ∈ [stepErrorStr s.status cloudSteps, cs "rejected"] := by
  unfold registration
  simp only
  split_ifs <;> simp

theorem tame_registration : Tame s.registration.1 ∧ Tame s.registration.2 := by
  obtain ⟨hstate, herr⟩ := s.registration_cases
  have hall : ∀ t ∈ [cs "reg_failed", cs "registering", cs "registered", cs "no_reg"], Tame t := by
    decide
  refine ⟨hall _ hstate, ?_⟩
  rcases List.mem_pair.mp herr with herr | herr <;> rw [herr]
  · exact tame_stepErrorStr _ _
  · decide

theorem registration_length :
    s.registration.1.length ≤ 11 ∧ s.registration.2.length < 24 := by
  obtain ⟨hstate, herr⟩ := s.registration_cases
  have hall : ∀ t ∈ [cs "reg_failed", cs "registering", cs "registered", cs "no_reg"],
      t.length ≤ 11 := by decide
  refine ⟨hall _ hstate, ?_⟩
  rcases List.mem_pair.mp herr with herr | herr <;> rw [herr]
  · exact stepErrorStr_length _ _
  · decide

theorem tame_connState : Tame s.connState := by
  unfold connState
  split_ifs <;> decide

theorem connState_length : s.connState.length ≤ 12 := by
  unfold connState
  split_ifs <;> decide

theorem tame_tempText : Tame s.tempText := by
  unfold tempText
  cases s.temp with
  | none => decide
  | some t => exact (tame_fmtD t).append (by decide)

/-- The fields of "dev", of "pkg" before the meta text, and of "hub75". -/
theorem tame_devFields : ∀ f ∈ s.devFields, Tame f := by
  simp only [devFields, List.forall_mem_cons]
  exact ⟨by decide, tame_fmtU _, tame_fmtU _, s.tame_tempText, fun _ hf => nomatch hf⟩

theorem tame_pkgFields : ∀ f ∈ s.pkgFields, Tame f := by
  simp only [pkgFields, List.forall_mem_cons]
  exact ⟨by decide, tame_fmtU _, tame_fmtU _, fun _ hf => nomatch hf⟩

theorem tame_hub75Fields : ∀ f ∈ s.hub75Fields, Tame f := by
  have hsize : Tame (fmtU s.statWidth.toNat ++ cs "x" ++ fmtU s.statHeight.toNat) :=
    ((tame_fmtU _).append (by decide)).append (tame_fmtU _)
  unfold hub75Fields
  cases s.statState <;> simp only [List.forall_mem_cons]
  case lowMem =>
    refine ⟨by decide, by decide, hsize, ?_, fun _ hf => nomatch hf⟩
    exact Tame.append (((Tame.append (by decide) (tame_fmtU _)).append (by decide)).append
      (tame_fmtU _)) (by decide)
  case disabled => exact ⟨by decide, by decide, by decide, by decide, fun _ hf => nomatch hf⟩
  all_goals exact ⟨by decide, by decide, hsize, by decide, fun _ hf => nomatch hf⟩

/-! ### Lengths -/

theorem apn_length : s.apn.length < 64 := by
  unfold apn
  cases s.cgdcontLine with
  | none => decide
  | some line => exact quotedField_length line 1 (by decide)

theorem ip_length : s.ip.length < 48 := by
  unfold ip
  cases s.cgdcontLine with
  | none => decide
  | some line => exact (cut_length_le _ _).trans_lt (quotedField_length line 2 (by decide))

theorem shownName_length : s.shownName.length ≤ 64 :=
  Nat.le_of_lt_succ (clip_length_lt (Nat.succ_pos regNameMaxLen) _)

/-- The two lines fit their buffer. -/
theorem modemStatText_length : s.modemStatText.length < 512 := by
  have hstate := s.modemState_length
  have hapn := s.apn_length
  have hip := s.ip_length
  have hquality := s.quality_length
  have herr : s.modemErr.length < 24 := stepErrorStr_length _ _
  have hreg := s.registration_length
  have hconn := s.connState_length
  have hhost := getCloudHost_length s.keys
  have hname := s.shownName_length
  have hmodem : (cs "modem,").length = 6 := rfl
  have hcloud : (cs "cloud,").length = 6 := rfl
  have hcomma : (cs ",").length = 1 := rfl
  have hend : (cs "\r\n").length = 2 := rfl
  unfold modemStatText
  generalize s.registration = registration at hreg ⊢
  obtain ⟨regState, cloudErr⟩ := registration
  simp only [List.length_append] at hreg ⊢
  omega

theorem hub75StatText_length : s.hub75StatText.length < 64 := by
  have hwidth : (fmtU s.statWidth.toNat).length ≤ 5 :=
    fmtU_length_le (by decide) (s.statWidth.toNat_lt.trans (by decide))
  have hheight : (fmtU s.statHeight.toNat).length ≤ 5 :=
    fmtU_length_le (by decide) (s.statHeight.toNat_lt.trans (by decide))
  have hdriven : (fmtU s.statDriven.toNat).length ≤ 3 :=
    fmtU_length_le (by decide) (s.statDriven.toNat_lt.trans (by decide))
  have hpanels : (fmtU s.statPanels.toNat).length ≤ 3 :=
    fmtU_length_le (by decide) (s.statPanels.toNat_lt.trans (by decide))
  have hon : (cs "hub75,1,").length = 8 := rfl
  have hx : (cs "x").length = 1 := rfl
  have hcomma : (cs ",").length = 1 := rfl
  have hlow : (cs ",low_mem ").length = 9 := rfl
  have hslash : (cs "/").length = 1 := rfl
  have hend : (cs " panels").length = 7 := rfl
  have hok : (cs "ok").length = 2 := rfl
  have hno : (cs "no_mem").length = 6 := rfl
  have hover : (cs "overload").length = 8 := rfl
  unfold hub75StatText
  cases s.statState with
  | disabled => exact (by decide : (cs "hub75,0,,").length < 64)
  | _ =>
      simp only [List.length_append]
      omega

/-! ### The lines of the reply -/

theorem modemStatText_eq : s.modemStatText = joinWith ',' s.modemFields ++
    13 :: 10 :: (joinWith ',' (s.cloudFields s.shownName) ++ [13, 10]) := by
  have hmodem : cs "modem," = cs "modem" ++ [(',' : UInt8)] := rfl
  have hcloud : cs "cloud," = cs "cloud" ++ [(',' : UInt8)] := rfl
  have hcomma : cs "," = [(',' : UInt8)] := rfl
  have hend : cs "\r\n" = [13, 10] := rfl
  unfold modemStatText modemFields cloudFields
  generalize s.registration = registration
  obtain ⟨regState, cloudErr⟩ := registration
  simp only [hmodem, hcloud, hcomma, hend, joinWith_cons_cons, joinWith_singleton,
    List.append_assoc, List.cons_append, List.nil_append]

theorem hub75StatText_eq : s.hub75StatText = joinWith ',' s.hub75Fields := by
  have hoff : cs "hub75,0,," = cs "hub75" ++ [(',' : UInt8)] ++ cs "0" ++ [(',' : UInt8), ','] :=
    rfl
  have hon : cs "hub75,1," = cs "hub75" ++ [(',' : UInt8)] ++ cs "1" ++ [(',' : UInt8)] := rfl
  have hlow : cs ",low_mem " = [(',' : UInt8)] ++ cs "low_mem " := rfl
  have hcomma : cs "," = [(',' : UInt8)] := rfl
  unfold hub75StatText hub75Fields
  cases s.statState <;>
    simp only [hoff, hon, hlow, hcomma, joinWith_cons_cons, joinWith_singleton,
      List.append_assoc, List.cons_append, List.nil_append]

/-- What is printed is UTF-8 if the values in it are that are not the firmware's own. -/
theorem valid_modemStatText : Valid s.modemStatText ↔
    (Valid s.apn ∧ Valid s.ip) ∧ Valid (getCloudHost s.keys) ∧ Valid s.shownName := by
  have hlf (t : CStr) : Valid (10 :: t) ↔ Valid t := by
    rw [← List.nil_append (10 :: t), valid_append_cons (by decide)]
    exact and_iff_right valid_nil
  have hown {t : CStr} (ht : Tame t) {p : Prop} : Valid t ∧ p ↔ p := and_iff_right ht.plain.valid
  rw [modemStatText_eq, valid_append_cons (by decide), hlf, valid_append_cons (by decide), hlf,
    valid_joinWith (by decide), valid_joinWith (by decide)]
  simp only [modemFields, cloudFields, List.forall_mem_cons]
  rw [hown (by decide), hown s.tame_modemState, hown s.tame_quality,
    hown s.tame_modemErr, hown (t := cs "cloud") (by decide), hown s.tame_registration.1,
    hown s.tame_connState, hown s.tame_registration.2]
  simp [valid_nil, and_assoc]

theorem unbroken_metaText : Unbroken s.metaText := by
  have hall (b : UInt8) (hb : b < 128) (hbreak : b = 13 ∨ b = 10) : b ∉ s.metaText := by
    intro hmem
    unfold metaText at hmem
    split_ifs at hmem
    · obtain ⟨c, hc, hbyte⟩ := mem_of_mem_encode hb hmem
      obtain ⟨d, -, rfl⟩ := List.mem_map.mp hc
      split_ifs at hbyte with hd
      · rcases hbreak with rfl | rfl <;> cases hbyte
      · refine hd (hbreak.imp ?_ ?_) <;> rintro rfl <;> exact Char.toNat_inj.mp hbyte
    · cases hmem
  exact ⟨hall _ (by decide) (.inl rfl), hall _ (by decide) (.inr rfl)⟩

theorem utf8OfBuf_eq {bufLen : ℕ} {text : CStr} (hlen : text.length < bufLen) :
    (Valid text → utf8OfBuf bufLen text = text) ∧ (¬ Valid text → utf8OfBuf bufLen text = []) := by
  have hbytes : (clip bufLen text).take (min text.length (bufLen - 1)) = text := by
    rw [clip_of_lt hlen]
    exact List.take_of_length_le (by omega)
  unfold utf8OfBuf
  simp only
  rw [hbytes, valid_iff]
  exact ⟨fun h => if_pos h, fun h => if_neg h⟩

/-- The reply, without the fields of the two lines of `modem_stat_format`. -/
theorem textLines_statReply : textLines s.statReply =
    joinWith ',' s.devFields :: joinWith ',' (s.pkgFields ++ [s.metaText]) ::
      textLines (utf8OfBuf 512 s.modemStatText ++
        (joinWith ',' s.hub75Fields ++ 13 :: 10 :: [])) := by
  have hdev : cs "dev," = cs "dev" ++ [(',' : UInt8)] := rfl
  have hpkg : cs "pkg," = cs "pkg" ++ [(',' : UInt8)] := rfl
  have hcomma : cs "," = [(',' : UInt8)] := rfl
  have hend : cs "\r\n" = [13, 10] := rfl
  have hvalid : Valid s.hub75StatText := by
    rw [hub75StatText_eq, valid_joinWith (by decide)]
    exact fun f hf => (s.tame_hub75Fields f hf).plain.valid
  have hreply : s.statReply = joinWith ',' s.devFields ++ 13 :: 10 ::
      (joinWith ',' (s.pkgFields ++ [s.metaText]) ++ 13 :: 10 ::
        (utf8OfBuf 512 s.modemStatText ++ (joinWith ',' s.hub75Fields ++ 13 :: 10 :: []))) := by
    unfold statReply devFields pkgFields
    rw [(utf8OfBuf_eq s.hub75StatText_length).1 hvalid, hub75StatText_eq]
    simp only [hdev, hpkg, hcomma, hend, joinWith_cons_cons, joinWith_singleton,
      List.append_assoc, List.cons_append, List.nil_append]
  have hunbroken : ∀ f ∈ s.pkgFields ++ [s.metaText], Unbroken f := by
    intro f hf
    rcases List.mem_append.mp hf with hf | hf
    · exact (s.tame_pkgFields f hf).plain.unbroken
    · rw [List.mem_singleton.mp hf]
      exact s.unbroken_metaText
  have hdevMem : cs "dev" ∈ s.devFields := List.mem_cons_self
  have hpkgMem : cs "pkg" ∈ s.pkgFields ++ [s.metaText] := List.mem_cons_self
  rw [hreply, textLines_joinWith hdevMem (by decide) fun f hf =>
      (s.tame_devFields f hf).plain.unbroken,
    textLines_joinWith hpkgMem (by decide) hunbroken]

theorem mem_hub75Fields : cs "hub75" ∈ s.hub75Fields := by
  unfold hub75Fields
  cases s.statState <;> exact List.mem_cons_self

theorem textLines_hub75 : textLines (joinWith ',' s.hub75Fields ++ 13 :: 10 :: []) =
    [joinWith ',' s.hub75Fields] := by
  rw [textLines_joinWith s.mem_hub75Fields (by decide) fun f hf =>
      (s.tame_hub75Fields f hf).plain.unbroken,
    textLines_nil]

/-- **Where the two lines are not UTF-8** they are not in the reply. -/
theorem textLines_of_not_valid (h : ¬ Valid s.modemStatText) : textLines s.statReply =
    [joinWith ',' s.devFields, joinWith ',' (s.pkgFields ++ [s.metaText]),
      joinWith ',' s.hub75Fields] := by
  rw [textLines_statReply, (utf8OfBuf_eq s.modemStatText_length).2 h, List.nil_append,
    textLines_hub75]

theorem textLines_of_valid (h : Valid s.modemStatText) : textLines s.statReply =
    joinWith ',' s.devFields :: joinWith ',' (s.pkgFields ++ [s.metaText]) ::
      textLines (joinWith ',' s.modemFields ++ 13 :: 10 ::
        (joinWith ',' (s.cloudFields s.shownName) ++ 13 :: 10 ::
          (joinWith ',' s.hub75Fields ++ 13 :: 10 :: []))) := by
  rw [textLines_statReply, (utf8OfBuf_eq s.modemStatText_length).1 h, modemStatText_eq]
  simp only [List.append_assoc, List.cons_append, List.nil_append]

/-- The two lines where their fields are unbroken. -/
theorem textLines_of_unbroken (h : Valid s.modemStatText) (hmodem : ∀ f ∈ s.modemFields, Unbroken f)
    (hcloud : ∀ f ∈ s.cloudFields s.shownName, Unbroken f) : textLines s.statReply =
      [joinWith ',' s.devFields, joinWith ',' (s.pkgFields ++ [s.metaText]),
        joinWith ',' s.modemFields, joinWith ',' (s.cloudFields s.shownName),
        joinWith ',' s.hub75Fields] := by
  have hmodemMem : cs "modem" ∈ s.modemFields := List.mem_cons_self
  have hcloudMem : cs "cloud" ∈ s.cloudFields s.shownName := List.mem_cons_self
  rw [textLines_of_valid s h, textLines_joinWith hmodemMem (by decide) hmodem,
    textLines_joinWith hcloudMem (by decide) hcloud, textLines_hub75]

/-! ### When a reply can be parsed -/

/-- The values in the two lines that come from elsewhere are plain, and the name is all shown. -/
structure Shown : Prop where
  apn : Plain s.apn
  ip : Plain s.ip
  host : Plain (getCloudHost s.keys)
  name : Plain (s.keys .deviceName)
  fits : (s.keys .deviceName).length ≤ regNameMaxLen

variable {s}

theorem Shown.shownName_eq (h : s.Shown) : s.shownName = s.keys .deviceName :=
  clip_of_lt (Nat.lt_succ_of_le h.fits)

theorem plain_modemFields (hapn : Plain s.apn) (hip : Plain s.ip) :
    ∀ f ∈ s.modemFields, Plain f := by
  simp only [modemFields, List.forall_mem_cons]
  exact ⟨Tame.plain (by decide), s.tame_modemState.plain, hapn, hip, s.tame_quality.plain,
    s.tame_modemErr.plain, fun _ hf => nomatch hf⟩

theorem plain_cloudFields (hhost : Plain (getCloudHost s.keys)) {name : CStr}
    (hname : Plain name) : ∀ f ∈ s.cloudFields name, Plain f := by
  simp only [cloudFields, List.forall_mem_cons]
  exact ⟨Tame.plain (by decide), s.tame_registration.1.plain, s.tame_connState.plain, hhost, hname,
    s.tame_registration.2.plain, fun _ hf => nomatch hf⟩

/-- **A reply can be parsed** if the values in it are plain. -/
theorem Shown.parses (h : s.Shown) : Parses s (s.keys .deviceName) := by
  have hname := h.shownName_eq
  have hmodem := plain_modemFields h.apn h.ip
  have hcloud := plain_cloudFields h.host h.name
  have hvalid : Valid s.modemStatText := by
    rw [valid_modemStatText, hname]
    exact ⟨⟨h.apn.valid, h.ip.valid⟩, h.host.valid, h.name.valid⟩
  refine ⟨_, _, _, _, _, s.textLines_of_unbroken hvalid (fun f hf => (hmodem f hf).unbroken)
    (hname ▸ fun f hf => (hcloud f hf).unbroken), ?_⟩
  refine ⟨?_, ?_, ?_, ?_, ?_⟩
  · exact fields_joinWith_of_mem List.mem_cons_self
      fun f hf => (s.tame_devFields f hf).plain.comma
  · exact fields_joinWith_append (fun f hf => (s.tame_pkgFields f hf).plain.comma) _
  · exact fields_joinWith_of_mem List.mem_cons_self fun f hf => (hmodem f hf).comma
  · rw [hname]
    exact fields_joinWith_of_mem List.mem_cons_self fun f hf => (hcloud f hf).comma
  · exact fields_joinWith_of_mem s.mem_hub75Fields
      fun f hf => (s.tame_hub75Fields f hf).plain.comma

end StatInput

/-- Without a separator. -/
def Whole (t : CStr) : Prop := (',' : UInt8) ∉ t ∧ Unbroken t

/-- The fields of a line have none. -/
theorem whole_of_line {text line : CStr} (hline : line ∈ textLines text) :
    ∀ f ∈ fields ',' line, Whole f := by
  intro f hf
  refine ⟨not_mem_of_mem_fields hf, ?_⟩
  have hunbroken := not_mem_of_mem_textLines hline
  rw [← joinWith_fields ',' line] at hunbroken
  exact unbroken_joinWith.mp hunbroken f hf

theorem Whole.plain {t : CStr} (h : Whole t) (hvalid : Valid t) : Plain t :=
  ⟨hvalid, h.1, h.2.1, h.2.2⟩

theorem Whole.clip {t : CStr} (h : Whole t) (cap : ℕ) : Whole (clip cap t) :=
  ⟨fun hc => h.1 (List.mem_of_mem_take hc), fun hc => h.2.1 (List.mem_of_mem_take hc),
    fun hc => h.2.2 (List.mem_of_mem_take hc)⟩

namespace StatInput

variable {s : StatInput}

theorem valid_of_parses {name : CStr} (h : Parses s name) : Valid s.modemStatText := by
  obtain ⟨dev, pkg, modem, cloud, hub75, hlines, -⟩ := h
  by_contra hnot
  rw [s.textLines_of_not_valid hnot] at hlines
  have hlen := congrArg List.length hlines
  cases hlen

theorem whole_of_parses {name : CStr} (h : Parses s name) :
    (∀ f ∈ s.modemFields, Whole f) ∧ ∀ f ∈ s.cloudFields name, Whole f := by
  obtain ⟨dev, pkg, modem, cloud, hub75, hlines, hparsed⟩ := h
  rw [← hparsed.modem, ← hparsed.cloud]
  exact ⟨whole_of_line (by rw [hlines]; simp), whole_of_line (by rw [hlines]; simp)⟩

theorem whole_cloudFields {name : CStr} (h : ∀ f ∈ s.cloudFields name, Whole f) :
    Whole (getCloudHost s.keys) ∧ Whole name := by
  simp only [cloudFields, List.forall_mem_cons] at h
  exact ⟨h.2.2.2.1, h.2.2.2.2.1⟩

theorem cloudFields_replace {name name' : CStr} (h : ∀ f ∈ s.cloudFields name, Whole f)
    (hname' : Whole name') : ∀ f ∈ s.cloudFields name', Whole f := by
  simp only [cloudFields, List.forall_mem_cons] at h ⊢
  exact ⟨h.1, h.2.1, h.2.2.1, h.2.2.2.1, hname', h.2.2.2.2.2⟩

/-- Then the name is all shown. -/
theorem shownName_of_parses (h : Parses s (s.keys .deviceName)) :
    s.shownName = s.keys .deviceName := by
  have hvalid := valid_of_parses h
  obtain ⟨hmodem, hcloud⟩ := whole_of_parses h
  have hshown : ∀ f ∈ s.cloudFields s.shownName, Whole f :=
    cloudFields_replace hcloud ((whole_cloudFields hcloud).2.clip _)
  obtain ⟨dev, pkg, modem, cloud, hub75, hlines, hparsed⟩ := h
  rw [s.textLines_of_unbroken hvalid (fun f hf => (hmodem f hf).2)
    fun f hf => (hshown f hf).2] at hlines
  -- the fourth line is the one that was printed, and it is taken apart into what was
  have hline : joinWith ',' (s.cloudFields s.shownName) = cloud := by
    simp only [List.cons.injEq] at hlines
    exact hlines.2.2.2.1
  have hfields : s.cloudFields s.shownName = s.cloudFields (s.keys .deviceName) := by
    rw [← hparsed.cloud, ← hline]
    exact (fields_joinWith_of_mem List.mem_cons_self fun f hf => (hshown f hf).1).symm
  simp only [cloudFields, List.cons.injEq] at hfields
  exact hfields.2.2.2.2.1

/-- **The values in a reply that can be parsed are plain.** -/
theorem shown_of_parses (h : Parses s (s.keys .deviceName)) : s.Shown := by
  obtain ⟨⟨hapn, hip⟩, hhost, hname⟩ := s.valid_modemStatText.mp (valid_of_parses h)
  obtain ⟨hmodem, hcloud⟩ := whole_of_parses h
  obtain ⟨hhostWhole, hnameWhole⟩ := whole_cloudFields hcloud
  have hshown := shownName_of_parses h
  rw [hshown] at hname
  simp only [modemFields, List.forall_mem_cons] at hmodem
  exact ⟨hmodem.2.2.1.plain hapn, hmodem.2.2.2.1.plain hip, hhostWhole.plain hhost,
    hnameWhole.plain hname, hshown ▸ s.shownName_length⟩

end StatInput

/-- **When a reply can be parsed.** -/
theorem parses_iff (s : StatInput) : Parses s (s.keys .deviceName) ↔ s.Shown :=
  ⟨StatInput.shown_of_parses, StatInput.Shown.parses⟩

/-! ### Runs -/

/-- The key an event sets, and to what. -/
def ModemEvent.sets (m : Modem) : ModemEvent → Option (Key × CStr)
  | task _ => m.modem.sets.map fun key => (key, m.modem.value)
  | command _ => m.command.sets.map fun key => (key, m.command.value)
  | _ => none

/-- A host or a name that "#stat" can show. -/
def Key.Shows (value : CStr) : Key → Prop
  | cloudHost => Plain value
  | deviceName => Plain value ∧ value.length ≤ regNameMaxLen
  | _ => True

instance (value : CStr) : (key : Key) → Decidable (key.Shows value)
  | .cloudHost => inferInstanceAs (Decidable (Plain value))
  | .deviceName => inferInstanceAs (Decidable (_ ∧ _))
  | .deviceId => .isTrue trivial
  | .deviceSecret => .isTrue trivial
  | .regCode => .isTrue trivial

/-- **The condition on a step**: what it sets can be shown. -/
def ModemEvent.Shows (m : Modem) (e : ModemEvent) : Prop := ∀ p ∈ e.sets m, p.1.Shows p.2

instance (m : Modem) (e : ModemEvent) : Decidable (e.Shows m) :=
  inferInstanceAs (Decidable (∀ p ∈ e.sets m, _))

/-- Keys whose values can be shown. -/
structure Displayable (keys : Keys) : Prop where
  shows : ∀ key : Key, key.Shows (keys key)
  fits : (keys .cloudHost).length < cloudHostLen

theorem Displayable.host {keys : Keys} (h : Displayable keys) : Plain (getCloudHost keys) := by
  unfold getCloudHost
  simp only
  rw [clip_of_lt h.fits]
  split_ifs
  · exact Tame.plain (by decide)
  · exact h.shows .cloudHost

theorem Displayable.update {keys : Keys} (h : Displayable keys) {key : Key} {value : CStr}
    (hshows : key.Shows value) (hfits : key = .cloudHost → value.length < cloudHostLen) :
    Displayable (Function.update keys key value) := by
  constructor
  · intro k
    rcases eq_or_ne k key with rfl | hk
    · rw [Function.update_self]
      exact hshows
    · rw [Function.update_of_ne hk]
      exact h.shows k
  · rcases eq_or_ne Key.cloudHost key with rfl | hk
    · rw [Function.update_self]
      exact hfits rfl
    · rw [Function.update_of_ne hk]
      exact h.fits

/-- "#host" is about to store a host that fits. -/
def HostFits (m : Modem) : Prop := ∀ host, m.command = .hostStore host → host.length < cloudHostLen

variable {m : Modem}

theorem hostCommand_host {host host' : CStr}
    (h : (hostCommand m host).command = .hostStore host') :
    m.command = .hostStore host' ∨ host'.length < cloudHostLen := by
  unfold hostCommand at h
  split_ifs at h with hfits
  · cases h
    simp only [fitsCstr, Bool.and_eq_true, decide_eq_true_eq] at hfits
    exact .inr hfits.1
  · exact .inl h

theorem regCommand_host {code name host : CStr}
    (h : (regCommand m code name).command = .hostStore host) :
    m.command = .hostStore host := by
  unfold regCommand at h
  split_ifs at h
  · exact h
  · exact h

theorem HostFits.apply (h : HostFits m) (e : ModemEvent) : HostFits (e.apply m) := by
  intro host hcmd
  cases e with
  | task inp => exact h host ((modemStep_threads m inp).1.symm.trans hcmd)
  | command save => exact absurd hcmd (commandStep_ne rfl)
  | host host' => exact (hostCommand_host hcmd).elim (h host) id
  | reg code name => exact h host (regCommand_host hcmd)
  | lte cid event => exact h host ((lteLcEvtHandler_keys m cid event).2.2.symm.trans hcmd)
  | reset => cases hcmd

/-- The keys after an event: it sets one, or it loses what was not saved. -/
theorem ModemEvent.keys (m : Modem) (e : ModemEvent) :
    (∃ key value save, e.sets m = some (key, value) ∧
      (e.apply m).ram = (m.setStr key value save).ram ∧
      (e.apply m).flash = (m.setStr key value save).flash) ∨
    ((e.apply m).ram = m.ram ∨ (e.apply m).ram = m.flash) ∧ (e.apply m).flash = m.flash := by
  by_cases hothers : e.byOthers = true
  · rcases other_keys hothers with ⟨hram, hflash⟩ | ⟨save, key, rfl, hsets, hram, hflash⟩
    · exact .inr ⟨.inl hram, hflash⟩
    · refine .inl ⟨key, m.command.value, save, ?_, hram, hflash⟩
      simp [ModemEvent.sets, hsets]
  · cases e with
    | task inp =>
        cases hsets : m.modem.sets with
        | none =>
            obtain ⟨hram, hflash⟩ := modemStep_keys hsets
            exact .inr ⟨.inl hram, hflash⟩
        | some key =>
            have hq : Quiet _ (modemStep m inp) := modemStep_sets hsets
            refine .inl ⟨key, m.modem.value, inp.save, ?_, hq.ram, hq.flash⟩
            simp [ModemEvent.sets, hsets]
    | reset => exact .inr ⟨.inr rfl, rfl⟩
    | _ => exact absurd rfl hothers

/-- "#host" alone sets the host. -/
theorem HostFits.sets (h : HostFits m) {e : ModemEvent} {value : CStr}
    (hsets : e.sets m = some (.cloudHost, value)) : value.length < cloudHostLen := by
  cases e with
  | task inp =>
      cases hpc : m.modem <;> simp [ModemEvent.sets, ModemPc.sets, hpc] at hsets
  | command save =>
      cases hpc : m.command <;> simp [ModemEvent.sets, CommandPc.sets, hpc] at hsets
      case hostStore host =>
        rw [← hsets]
        exact h host hpc
  | _ => cases hsets

/-- What a run keeps: the keys, in RAM and saved, can be shown. -/
structure DisplayInv (m : Modem) : Prop where
  ram : Displayable m.ram
  flash : Displayable m.flash
  host : HostFits m

/-- **A step keeps it** if what it sets can be shown. -/
theorem DisplayInv.apply (h : DisplayInv m) {e : ModemEvent} (hshows : e.Shows m) :
    DisplayInv (e.apply m) := by
  refine ⟨?_, ?_, h.host.apply e⟩ <;>
    rcases ModemEvent.keys m e with ⟨key, value, save, hsets, hram, hflash⟩ | ⟨hram, hflash⟩
  · rw [hram, setStr_ram]
    split_ifs
    · exact h.ram.update (hshows _ hsets) fun hkey => h.host.sets (hkey ▸ hsets)
    · exact h.ram
  · rcases hram with hram | hram <;> rw [hram]
    · exact h.ram
    · exact h.flash
  · rw [hflash, setStr_flash]
    split_ifs
    · exact h.flash.update (hshows _ hsets) fun hkey => h.host.sets (hkey ▸ hsets)
    · exact h.flash
  · rw [hflash]
    exact h.flash

theorem displayInv_factory : DisplayInv factory := by
  have hkeys : Displayable fun _ => [] :=
    ⟨fun key => by cases key <;> decide +kernel, by decide⟩
  exact ⟨hkeys, hkeys, fun host hcmd => by cases hcmd⟩

/-- **After every run** whose steps set values that can be shown. -/
theorem displayable_of_run {es : List ModemEvent}
    (h : Run (Guarded ModemTrans ModemEvent.Shows) factory es m) : Displayable m.ram := by
  refine (h.invariant (I := DisplayInv) ?_ displayInv_factory).ram
  rintro s e t hs ⟨hshows, -, rfl⟩
  exact hs.apply hshows

/-- **When "#stat" can be parsed**, whatever is stored, whatever the meta text, and whatever the
modem answers; and in the stores that are reached. -/
theorem stat_parses (s : StatInput) :
    (Parses s (s.keys .deviceName) ↔ s.Shown) ∧
    ∀ es m, Run (Guarded ModemTrans ModemEvent.Shows) factory es m → s.keys = m.ram →
      Plain s.apn → Plain s.ip → Parses s (s.keys .deviceName) := by
  refine ⟨parses_iff s, fun es m hrun hkeys hapn hip => ?_⟩
  have hdisplay := displayable_of_run hrun
  rw [← hkeys] at hdisplay
  obtain ⟨hname, hfits⟩ := hdisplay.shows .deviceName
  exact (parses_iff s).mpr ⟨hapn, hip, hdisplay.host, hname, hfits⟩

/-- A device whose modem is up, with nothing on its display. -/
def StatInput.of (keys : Keys) : StatInput where
  status := fun _ => (.ok, 0)
  gPdnUp := true
  cgdcont := some (cs "+CGDCONT: 0,\"IP\",\"iot.apn\",\"10.0.0.1\",0,0\r\nOK\r\n")
  cesq := some (cs "+CESQ: 99,99,255,255,20,50\r\nOK\r\n")
  keys := keys
  temp := some 24
  pingInterval := 30
  heapFree := 20000
  pkgSize := 0
  pkgCapacity := 262144
  pkgMeta := []
  statState := .disabled
  statWidth := 0
  statHeight := 0
  statDriven := 0
  statPanels := 0

theorem StatInput.of_keys (keys : Keys) : (StatInput.of keys).keys = keys := rfl

theorem stat_parses_registered :
    Parses (.of (registered.foldl ModemEvent.apply factory).ram)
      ((StatInput.of (registered.foldl ModemEvent.apply factory).ram).keys .deviceName) := by
  have hrun : Run (Guarded ModemTrans ModemEvent.Shows) factory registered
      (registered.foldl ModemEvent.apply factory) :=
    Run.of_along ModemEvent.apply (fun m e => e.Shows m ∧ e.Possible m)
      (fun _ _ h => ⟨h.1, h.2, rfl⟩) (by decide +kernel)
  exact (stat_parses (.of _)).2 _ _ hrun (StatInput.of_keys _) (by decide +kernel)
    (by decide +kernel)

/-- A name with a comma. -/
def namedWithComma : List ModemEvent :=
  [.reg (cs "ABCDEF") (cs "kitchen,lamp"), .command .saved, .command .saved]

/-- A name with its 64th byte inside a character. -/
def acrossByte : CStr := List.replicate 63 ('a' : UInt8) ++ [0xC3, 0xA9]

/-- A registration that is answered with it. -/
def namedAcrossByte : List ModemEvent :=
  registered.dropLast ++ List.replicate 6 (.task { answers with
    http := { answers.http with
      received := [some (cs "HTTP/1.1 200 OK\r\n\r\n#id,7f,s3cret," ++ acrossByte)] } })

/-- The first cannot be parsed, the second leaves three lines. -/
theorem stat_not_parsed :
    (¬ ∀ es m, Run ModemTrans factory es m →
      Valid (m.ram .deviceName) → Valid (m.ram .cloudHost) →
        ∀ s : StatInput, s.keys = m.ram → Parses s (s.keys .deviceName)) ∧
    ∃ es m, Run ModemTrans factory es m ∧
      Valid (m.ram .deviceName) ∧ Valid (m.ram .cloudHost) ∧
        ∃ s : StatInput, s.keys = m.ram ∧ (textLines s.statReply).length = 3 := by
  constructor
  · intro h
    have hrun : Run ModemTrans factory namedWithComma
        (namedWithComma.foldl ModemEvent.apply factory) :=
      Run.of_along ModemEvent.apply (fun m e => e.Possible m) (fun _ _ h => ⟨h, rfl⟩)
        (by decide +kernel)
    have hparses := h _ _ hrun (by decide +kernel) (by decide +kernel) (.of _)
      (StatInput.of_keys _)
    have hname := ((parses_iff _).mp hparses).name.comma
    revert hname
    decide +kernel
  · have hrun : Run ModemTrans factory namedAcrossByte
        (namedAcrossByte.foldl ModemEvent.apply factory) :=
      Run.of_along ModemEvent.apply (fun m e => e.Possible m) (fun _ _ h => ⟨h, rfl⟩)
        (by decide +kernel)
    have hname : (namedAcrossByte.foldl ModemEvent.apply factory).ram .deviceName = acrossByte := by
      decide +kernel
    have hhost : (namedAcrossByte.foldl ModemEvent.apply factory).ram .cloudHost = [] := by
      decide +kernel
    generalize namedAcrossByte.foldl ModemEvent.apply factory = m at hrun hname hhost
    have hcut : ¬ Valid (StatInput.of m.ram).shownName := by
      unfold StatInput.shownName
      rw [StatInput.of_keys, hname]
      decide +kernel
    refine ⟨_, m, hrun, ?_, ?_, .of m.ram, StatInput.of_keys _, ?_⟩
    · rw [hname]
      decide +kernel
    · rw [hhost]
      exact valid_nil
    · rw [StatInput.textLines_of_not_valid _ fun h =>
        hcut ((StatInput.valid_modemStatText _).mp h).2.2]
      simp only [List.length_cons, List.length_nil]

end NodemFirmware.Cloud
