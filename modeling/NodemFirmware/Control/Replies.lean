import NodemFirmware.Control.Threads

/-! # What a reply says

`process_line`'s reply code against the calls that the command made: on every way through a
command, whatever its calls returned, and so in every interleaving with the other threads
(`replies_say`).

`Obeys` is the contract.  A command sets its own keys only.  A reply of 0 means that each of them
was set and saved, of 1 that a set failed or the command is unknown, of 2 that nothing was set or
that the save of its only value gave `-EINVAL`; what "#host" and "#stat" discard aside
(`Command.discards`).  A setting is announced exactly if it was stored, and after that. -/

namespace NodemFirmware.Control

open CText Calls ConfigStore Str Transition
open Cloud hiding Key registrationPending deviceRegistered

/-! ### The contract -/

/-- The keys that a command sets. -/
def Command.keys : Command → List Key
  | reg => [(.str, regCodeKey), (.str, deviceNameKey)]
  | host => [(.str, cloudHostKey), (.str, deviceIdKey), (.str, deviceSecretKey)]
  | ping => [(.i32, pingKey)]
  | status => [(.i32, statusKey)]
  | stat => [(.i32, pingKey)]
  | oled => [(.str, Oled.oledKey)]
  | hub75 => [(.str, Hub75.hub75Key)]
  | nodem => [(.str, Nodem.nodemKey)]
  | _ => []

/-- Those of them whose result it discards. -/
def Command.discards : Command → List Key
  | host => [(.str, deviceIdKey), (.str, deviceSecretKey)]
  | stat => [(.i32, pingKey)]
  | _ => []

def Output.key : Output → CStr
  | oled => Oled.oledKey
  | hub75 => Hub75.hub75Key
  | nodem => Nodem.nodemKey

/-- A call that sets a key, and what it returned. -/
def setOf : Made Op Op.Res → Option (Key × ℤ)
  | ⟨.store (.setStr key _), err⟩ => some ((.str, key), err)
  | ⟨.store (.setI32 key _), err⟩ => some ((.i32, key), err)
  | _ => none

/-- The sets among some calls, in their order. -/
def setsOf (l : List (Made Op Op.Res)) : List (Key × ℤ) := l.filterMap setOf

def changeOf : Made Op Op.Res → Option Output
  | ⟨.changed output, _⟩ => some output
  | _ => none

/-- The settings that are announced among some calls. -/
def changesOf (l : List (Made Op Op.Res)) : List Output := l.filterMap changeOf

/-- A setting that was stored, and then announced. -/
def storedAndAnnounced (output : Output) (val : CStr) : List (Made Op Op.Res) :=
  [⟨.store (.setStr output.key val), (0 : ℤ)⟩, ⟨.changed output, ()⟩]

/-- What the reply code says about the sets that the command made. -/
structure Reports (command : Option Command) (sets : List (Key × ℤ)) (ret : Ret) : Prop where
  keys : ∀ p ∈ sets, ∃ c ∈ command, p.1 ∈ c.keys
  once : (sets.map Prod.fst).Nodup
  ok : ret = .ok → ∀ c ∈ command, ∀ k ∈ c.keys, k ∉ c.discards → (k, 0) ∈ sets
  error : ret = .error → command = none ∨ ∃ p ∈ sets, p.2 ≠ 0
  malformed : ret = .malformedValue → sets = [] ∨ ∃ k, sets = [(k, -Errno.inval)]

/-- What the outcome of a command says about the calls that it made. -/
structure Obeys (command : Option Command) (l : List (Made Op Op.Res)) (o : Outcome) : Prop where
  restart : o.restart = true ↔ command = some .reset
  reports : Reports command (setsOf l) o.ret
  announced : (∃ output val, l = storedAndAnnounced output val) ∨ ∀ output,
    ⟨.changed output, ()⟩ ∉ l ∧ ∀ val, ⟨.store (.setStr output.key val), (0 : ℤ)⟩ ∉ l

variable {l : List (Made Op Op.Res)}

/-! ### The ways through a command -/

@[simp] theorem path_configSetStr {key val : CStr} {err : ℤ} :
    (configSetStr key val).Path l err ↔ l = [⟨.store (.setStr key val), err⟩] := Prog.path_one

@[simp] theorem path_configSetI32 {key : CStr} {val : BitVec 32} {err : ℤ} :
    (configSetI32 key val).Path l err ↔ l = [⟨.store (.setI32 key val), err⟩] := Prog.path_one

@[simp] theorem path_changed {output : Output} {r : Unit} :
    (changed output).Path l r ↔ l = [⟨.changed output, ()⟩] := Prog.path_one

/-- What a setter has done when it returns `err`. -/
inductive SetterDone (output : Output) : List (Made Op Op.Res) → ℤ → Prop where
  | refused : SetterDone output [] (-Errno.inval)
  | stored (val : CStr) : SetterDone output (storedAndAnnounced output val) 0
  | failed (val : CStr) {err : ℤ} (h : err ≠ 0) :
      SetterDone output [⟨.store (.setStr output.key val), err⟩] err

/-- A value is stored, and announced if it was saved. -/
theorem storeSetting_path {output : Output} {key val : CStr} {err : ℤ}
    (h : (storeSetting output key val).Path l err) :
    l = ⟨.store (.setStr key val), err⟩ :: if err = 0 then [⟨.changed output, ()⟩] else [] := by
  obtain ⟨l₁, err', l₂, h₁, h₂, rfl⟩ := Prog.path_bind.mp h
  rw [path_configSetStr] at h₁
  subst h₁
  split_ifs at h₂ with herr
  · obtain ⟨l₃, _, l₄, h₃, h₄, rfl⟩ := Prog.path_bind.mp h₂
    obtain ⟨rfl, rfl⟩ := Prog.path_pure.mp h₄
    rw [path_changed] at h₃
    subst h₃
    rw [if_pos herr]
    rfl
  · obtain ⟨rfl, rfl⟩ := Prog.path_pure.mp h₂
    rw [if_neg herr]
    rfl

theorem storeSetting_done {output : Output} {val : CStr} {err : ℤ}
    (h : (storeSetting output output.key val).Path l err) : SetterDone output l err := by
  rw [storeSetting_path h]
  by_cases herr : err = 0
  · rw [if_pos herr, herr]
    exact .stored val
  · rw [if_neg herr]
    exact .failed val herr

theorem pure_inval_done {output : Output} {err : ℤ}
    (h : (pure (-Errno.inval) : Program ℤ).Path l err) : SetterDone output l err := by
  obtain ⟨rfl, rfl⟩ := Prog.path_pure.mp h
  exact .refused

theorem displayOledSet_done {value : CStr} {err : ℤ} (h : (displayOledSet value).Path l err) :
    SetterDone .oled l err := by
  unfold displayOledSet at h
  split at h
  · next e hparse =>
    have he : e = -Errno.inval := by
      unfold Oled.oledConfigParse at hparse
      dsimp only at hparse
      split_ifs at hparse
      split at hparse <;> cases hparse
      rfl
    subst he
    exact pure_inval_done h
  · exact storeSetting_done h
  · exact storeSetting_done h

theorem hub75ConfigSet_done {value : CStr} {err : ℤ} (h : (hub75ConfigSet value).Path l err) :
    SetterDone .hub75 l err := by
  unfold hub75ConfigSet at h
  split at h
  · next e hparse =>
    have he : e = -Errno.inval := by
      unfold Hub75.hub75ConfigParse at hparse
      split_ifs at hparse
      split at hparse
      · cases hparse
        rfl
      · split_ifs at hparse
        cases hparse
        rfl
    subst he
    exact pure_inval_done h
  · exact storeSetting_done h
  · exact storeSetting_done h

theorem nodemConfigSet_done {value : CStr} {err : ℤ} (h : (nodemConfigSet value).Path l err) :
    SetterDone .nodem l err := by
  unfold nodemConfigSet at h
  dsimp only at h
  split at h
  · exact pure_inval_done h
  · exact storeSetting_done h

/-! ### The commands -/

/-- A command that was refused. -/
theorem reports_refused (command : Option Command) : Reports command [] .malformedValue where
  keys _ hp := nomatch hp
  once := List.nodup_nil
  ok h := nomatch h
  error h := nomatch h
  malformed _ := .inl rfl

/-- One that sets nothing. -/
theorem reports_reads {command : Command} (h : command.keys = []) :
    Reports (some command) [] .ok where
  keys _ hp := nomatch hp
  once := List.nodup_nil
  ok _ c hc k hk := by
    cases hc
    rw [h] at hk
    cases hk
  error h := nomatch h
  malformed h := nomatch h

/-- One that sets one key. -/
theorem reports_single {command : Command} {k : Key} (hkeys : command.keys = [k]) {err : ℤ}
    {ret : Ret} (hok : ret = .ok → err = 0) (herror : ret = .error → err ≠ 0)
    (hmalformed : ret = .malformedValue → err = -Errno.inval) :
    Reports (some command) [(k, err)] ret where
  keys p hp := by
    rw [List.mem_singleton.mp hp]
    exact ⟨command, rfl, by rw [hkeys]; exact List.mem_singleton_self k⟩
  once := List.nodup_singleton k
  ok h c hc k' hk' _ := by
    cases hc
    rw [hkeys, List.mem_singleton] at hk'
    rw [hk', hok h]
    exact List.mem_singleton_self _
  error h := .inr ⟨_, List.mem_singleton_self _, herror h⟩
  malformed h := .inr ⟨k, by rw [hmalformed h]⟩

/-- Nothing is announced, and nothing that should be. -/
theorem unannounced (hchanges : changesOf l = [])
    (hsets : ∀ p ∈ setsOf l, p.2 = 0 → ∀ output : Output, p.1 ≠ (.str, output.key)) :
    ∀ output, ⟨.changed output, ()⟩ ∉ l ∧
      ∀ val, ⟨.store (.setStr output.key val), (0 : ℤ)⟩ ∉ l := by
  refine fun output => ⟨fun hmem => ?_, fun val hmem => ?_⟩
  · have hchange : output ∈ changesOf l := List.mem_filterMap.mpr ⟨_, hmem, rfl⟩
    rw [hchanges] at hchange
    cases hchange
  · have hset : ((.str, output.key), (0 : ℤ)) ∈ setsOf l :=
      List.mem_filterMap.mpr ⟨_, hmem, rfl⟩
    exact hsets _ hset rfl output rfl

theorem not_restart {command : Command} (hreset : command ≠ .reset) :
    false = true ↔ some command = some .reset :=
  ⟨(fun h => nomatch h), fun h => absurd (Option.some.inj h) hreset⟩

/-- A command that is refused without a call. -/
theorem obeys_refused {command : Command} (hreset : command ≠ .reset) :
    Obeys (some command) [] ⟨[], .malformedValue, false⟩ where
  restart := not_restart hreset
  reports := reports_refused _
  announced := .inr fun _ => ⟨(fun h => nomatch h), fun _ h => nomatch h⟩

/-- A setting's command: its setter's result as a reply code. -/
theorem obeys_settingLine {set : CStr → Program ℤ} {output : Output} {command : Command}
    (hset : ∀ {value l err}, (set value).Path l err → SetterDone output l err)
    (hkeys : command.keys = [(.str, output.key)]) (hreset : command ≠ .reset) {args : Chars}
    {ret : Ret} (h : (settingLine set args).Path l ret) :
    Obeys (some command) l ⟨[], ret, false⟩ := by
  unfold settingLine at h
  split at h
  · obtain ⟨rfl, rfl⟩ := Prog.path_pure.mp h
    exact obeys_refused hreset
  · obtain ⟨l₁, err, l₂, h₁, h₂, rfl⟩ := Prog.path_bind.mp h
    obtain ⟨rfl, rfl⟩ := Prog.path_pure.mp h₂
    rw [List.append_nil]
    have hrestart := not_restart hreset
    cases hset h₁ with
    | refused => exact obeys_refused hreset
    | stored val =>
        exact ⟨hrestart, reports_single hkeys (fun _ => rfl) (fun h => nomatch h)
          (fun h => nomatch h), .inl ⟨output, val, rfl⟩⟩
    | failed val herr =>
        rw [if_neg herr]
        refine ⟨hrestart, reports_single hkeys ?_ (fun _ => herr) ?_, .inr (unannounced rfl ?_)⟩
        · intro hok
          split_ifs at hok
        · intro hmalformed
          split_ifs at hmalformed with hinval
          exact hinval
        · intro p hp hzero
          rw [List.mem_singleton.mp hp] at hzero
          exact absurd hzero herr

/-- A number's command. -/
theorem obeys_numberLine {key : CStr} {value : Option ℤ} {command : Command}
    (hkeys : command.keys = [(.i32, key)]) (hreset : command ≠ .reset) {ret : Ret}
    (h : (numberLine key value).Path l ret) : Obeys (some command) l ⟨[], ret, false⟩ := by
  cases value with
  | none =>
      obtain ⟨rfl, rfl⟩ := Prog.path_pure.mp h
      exact obeys_refused hreset
  | some v =>
      obtain ⟨l₁, err, l₂, h₁, h₂, rfl⟩ := Prog.path_bind.mp h
      obtain ⟨rfl, rfl⟩ := Prog.path_pure.mp h₂
      rw [path_configSetI32] at h₁
      subst h₁
      refine ⟨not_restart hreset, reports_single hkeys ?_ ?_ ?_, .inr (unannounced rfl ?_)⟩
      · intro hok
        split_ifs at hok with herr
        exact not_not.mp herr
      · intro herror
        split_ifs at herror with herr
        exact herr
      · intro hmalformed
        split_ifs at hmalformed
      · intro p hp _ output hkey
        rw [List.mem_singleton.mp hp] at hkey
        cases hkey

/-- The cloud's keys are no settings of a driver. -/
theorem cloudKeys_ne (output : Output) :
    output.key ∉ [regCodeKey, deviceNameKey, cloudHostKey, deviceIdKey, deviceSecretKey] := by
  cases output <;> decide

theorem obeys_regLine {args : Chars} {ret : Ret} (h : (regLine args).Path l ret) :
    Obeys (some .reg) l ⟨[], ret, false⟩ := by
  unfold regLine at h
  split at h
  · obtain ⟨rfl, rfl⟩ := Prog.path_pure.mp h
    exact obeys_refused (by decide)
  · next code name _ =>
    obtain ⟨l₁, errCode, l₂, h₁, h₂, rfl⟩ := Prog.path_bind.mp h
    obtain ⟨l₃, errName, l₄, h₃, h₄, rfl⟩ := Prog.path_bind.mp h₂
    obtain ⟨rfl, rfl⟩ := Prog.path_pure.mp h₄
    rw [path_configSetStr] at h₁ h₃
    subst h₁ h₃
    have hsets : setsOf ([⟨.store (.setStr regCodeKey code), errCode⟩] ++
        ([⟨.store (.setStr deviceNameKey name), errName⟩] ++ [])) =
          [((.str, regCodeKey), errCode), ((.str, deviceNameKey), errName)] := rfl
    refine ⟨not_restart (by decide), ?_, .inr (unannounced rfl ?_)⟩
    · rw [hsets]
      refine ⟨?_, ?_, ?_, ?_, ?_⟩
      · intro p hp
        refine ⟨.reg, rfl, ?_⟩
        exact List.mem_map_of_mem (f := Prod.fst) hp
      · show [((EntryType.str, regCodeKey) : Key), (.str, deviceNameKey)].Nodup
        decide
      · intro hok c hc k hk _
        cases hc
        split_ifs at hok with herr
        push Not at herr
        rw [herr.1, herr.2]
        simpa [Command.keys] using hk
      · intro herror
        split_ifs at herror with herr
        exact .inr (herr.elim (fun h => ⟨_, List.mem_cons_self, h⟩)
          fun h => ⟨_, List.mem_cons_of_mem _ List.mem_cons_self, h⟩)
      · intro hmalformed
        split_ifs at hmalformed
    · rw [hsets]
      intro p hp _ output hkey
      have hne := cloudKeys_ne output
      simp only [List.mem_cons, List.not_mem_nil, or_false] at hp hne
      rcases hp with rfl | rfl
      · exact hne (.inl (congrArg Prod.snd hkey).symm)
      · exact hne (.inr (.inl (congrArg Prod.snd hkey).symm))

theorem obeys_hostLine {args : Chars} {ret : Ret} (h : (hostLine args).Path l ret) :
    Obeys (some .host) l ⟨[], ret, false⟩ := by
  have hne := cloudKeys_ne
  simp only [List.mem_cons, List.not_mem_nil, or_false, not_or] at hne
  unfold hostLine at h
  split at h
  · obtain ⟨rfl, rfl⟩ := Prog.path_pure.mp h
    exact obeys_refused (by decide)
  · next host _ =>
    obtain ⟨l₁, err, l₂, h₁, h₂, rfl⟩ := Prog.path_bind.mp h
    rw [path_configSetStr] at h₁
    subst h₁
    split_ifs at h₂ with herr
    · obtain ⟨rfl, rfl⟩ := Prog.path_pure.mp h₂
      refine ⟨not_restart (by decide), ⟨?_, List.nodup_singleton _, (fun h => by cases h),
        fun _ => .inr ⟨_, List.mem_singleton_self _, herr⟩, fun h => by cases h⟩,
        .inr (unannounced rfl ?_)⟩
      · intro p hp
        rw [List.mem_singleton.mp hp]
        exact ⟨.host, rfl, List.mem_cons_self⟩
      · intro p hp hzero
        rw [List.mem_singleton.mp hp] at hzero
        exact absurd hzero herr
    · rw [not_not] at herr
      subst herr
      obtain ⟨l₃, errId, l₄, h₃, h₄, rfl⟩ := Prog.path_bind.mp h₂
      obtain ⟨l₅, errSecret, l₆, h₅, h₆, rfl⟩ := Prog.path_bind.mp h₄
      obtain ⟨rfl, rfl⟩ := Prog.path_pure.mp h₆
      rw [path_configSetStr] at h₃ h₅
      subst h₃ h₅
      have hsets : setsOf ([⟨.store (.setStr cloudHostKey host), (0 : ℤ)⟩] ++
          ([⟨.store (.setStr deviceIdKey []), errId⟩] ++
            ([⟨.store (.setStr deviceSecretKey []), errSecret⟩] ++ []))) =
          [((.str, cloudHostKey), 0), ((.str, deviceIdKey), errId),
            ((.str, deviceSecretKey), errSecret)] := rfl
      refine ⟨not_restart (by decide), ?_, .inr (unannounced rfl ?_)⟩
      · rw [hsets]
        refine ⟨?_, ?_, ?_, (fun h => by cases h), fun h => by cases h⟩
        · intro p hp
          exact ⟨.host, rfl, List.mem_map_of_mem (f := Prod.fst) hp⟩
        · show [((EntryType.str, cloudHostKey) : Key), (.str, deviceIdKey),
            (.str, deviceSecretKey)].Nodup
          decide
        · intro _ c hc k hk hdiscard
          cases hc
          rcases List.mem_cons.mp hk with rfl | hk
          · exact List.mem_cons_self
          · exact absurd hk hdiscard
      · rw [hsets]
        intro p hp _ output hkey
        obtain ⟨-, -, hhost, hid, hsecret⟩ := hne output
        simp only [List.mem_cons, List.not_mem_nil, or_false] at hp
        rcases hp with rfl | rfl | rfl
        · exact hhost (congrArg Prod.snd hkey).symm
        · exact hid (congrArg Prod.snd hkey).symm
        · exact hsecret (congrArg Prod.snd hkey).symm

/-! ### The commands that read -/

/-- A call that sets nothing and announces nothing. -/
def Op.Reads : Op → Prop
  | store (.getStr _ _ _) => True
  | store (.getI32 _ _) => True
  | store (.list _) => True
  | _ => False

theorem setsOf_append (l₁ l₂ : List (Made Op Op.Res)) :
    setsOf (l₁ ++ l₂) = setsOf l₁ ++ setsOf l₂ := List.filterMap_append

theorem changesOf_append (l₁ l₂ : List (Made Op Op.Res)) :
    changesOf (l₁ ++ l₂) = changesOf l₁ ++ changesOf l₂ := List.filterMap_append

/-- A program that only reads. -/
def Reads {α : Type} (p : Program α) : Prop := p.Meets Op.Reads (fun _ _ => True) fun _ => True

theorem Reads.bind {α β : Type} {p : Program α} {f : α → Program β} (hp : Reads p)
    (hf : ∀ a, Reads (f a)) : Reads (p >>= f) := Prog.Meets.bind hp hf

theorem reads_pure {α : Type} (a : α) : Reads (pure a) := trivial

theorem reads_configGetStr (key : CStr) (bufLen : ℕ) (d : CStr) :
    Reads (configGetStr key bufLen d) := ⟨trivial, fun _ _ => trivial⟩

theorem Reads.path {α : Type} {p : Program α} (hp : Reads p) {a : α} (h : p.Path l a) :
    setsOf l = [] ∧ changesOf l = [] := by
  have hreads := (Prog.Meets.path hp h fun _ _ => trivial).1
  have hnone : ∀ c ∈ l, setOf c = none ∧ changeOf c = none := by
    rintro ⟨op, r⟩ hc
    have := hreads _ hc
    rcases op with (_ | _ | _ | _ | _) | _
    · exact ⟨rfl, rfl⟩
    · exact ⟨rfl, rfl⟩
    · exact this.elim
    · exact this.elim
    · exact ⟨rfl, rfl⟩
    · exact this.elim
  exact ⟨List.filterMap_eq_nil_iff.mpr fun c hc => (hnone c hc).1,
    List.filterMap_eq_nil_iff.mpr fun c hc => (hnone c hc).2⟩

/-- A command that only writes what it reads. -/
theorem obeys_reads {command : Command} {p : Program (List UInt8)} (hp : Reads p)
    (hkeys : command.keys = []) (hreset : command ≠ .reset) {o : Outcome}
    (h : (writes p).Path l o) : Obeys (some command) l o := by
  obtain ⟨l₁, text, l₂, h₁, h₂, rfl⟩ := Prog.path_bind.mp h
  obtain ⟨rfl, rfl⟩ := Prog.path_pure.mp h₂
  rw [List.append_nil]
  obtain ⟨hsets, hchanges⟩ := hp.path h₁
  refine ⟨not_restart hreset, ?_, .inr (unannounced hchanges ?_)⟩
  · rw [hsets]
    exact reports_reads hkeys
  · simp [hsets]

theorem reads_registrationPending : Reads registrationPending :=
  (reads_configGetStr _ _ _).bind fun _ => reads_pure _

theorem reads_registeredUnless (pending : Bool) : Reads (registeredUnless pending) := by
  cases pending with
  | true => exact reads_pure _
  | false => exact (reads_configGetStr _ _ _).bind fun _ => reads_pure _

theorem reads_nvsText : Reads nvsText :=
  Reads.bind ⟨trivial, fun _ _ => trivial⟩ fun _ => reads_pure _

theorem reads_cfgText : Reads cfgText := by
  have hentry : ∀ key, Reads (cfgEntry key) := fun key =>
    (reads_configGetStr _ _ _).bind fun _ => reads_pure _
  exact (hentry _).bind fun _ => (hentry _).bind fun _ => (hentry _).bind fun _ => reads_pure _

/-- "#stat" reads the ping interval, which may store its default, and then reads on. -/
theorem statReads_path {r : StatReads} (h : statReads.Path l r) :
    ∃ l₁ l₂, l = l₁ ++ l₂ ∧ Reader.ping.Way l₁ ∧ setsOf l₂ = [] ∧ changesOf l₂ = [] := by
  obtain ⟨l₁, secs, l₂, h₁, h₂, rfl⟩ := Prog.path_bind.mp h
  have hrest : Reads (do
      let code ← configGetStr regCodeKey (regCodeLen + 1) []
      let pending ← registrationPending
      let registered ← registeredUnless pending
      let host ← configGetStr cloudHostKey cloudHostLen []
      let name ← configGetStr deviceNameKey (regNameMaxLen + 1) []
      pure (⟨secs, code, pending, registered, host, name⟩ : StatReads)) :=
    (reads_configGetStr _ _ _).bind fun _ => reads_registrationPending.bind fun pending =>
      (reads_registeredUnless pending).bind fun _ => (reads_configGetStr _ _ _).bind fun _ =>
        (reads_configGetStr _ _ _).bind fun _ => reads_pure _
  exact ⟨l₁, l₂, rfl, Reader.modemWsPingIntervalS_does.way h₁, hrest.path h₂⟩

theorem statReads_sets {r : StatReads} (h : statReads.Path l r) :
    (setsOf l = [] ∨ ∃ err, setsOf l = [((.i32, pingKey), err)]) ∧ changesOf l = [] := by
  obtain ⟨l₁, l₂, rfl, hway, hsets, hchanges⟩ := statReads_path h
  rw [setsOf_append, changesOf_append, hsets, hchanges, List.append_nil, List.append_nil]
  cases hway with
  | used r => exact ⟨.inl rfl, rfl⟩
  | replaced _ err => exact ⟨.inr ⟨err, rfl⟩, rfl⟩

variable (statText : StatReads → List UInt8)

theorem obeys_stat {o : Outcome} (h : (writes (statText <$> statReads)).Path l o) :
    Obeys (some .stat) l o := by
  obtain ⟨l₁, text, l₂, h₁, h₂, rfl⟩ := Prog.path_bind.mp h
  obtain ⟨rfl, rfl⟩ := Prog.path_pure.mp h₂
  obtain ⟨l₃, r, l₄, h₃, h₄, rfl⟩ := Prog.path_bind.mp h₁
  obtain ⟨rfl, rfl⟩ := Prog.path_pure.mp h₄
  rw [List.append_nil, List.append_nil]
  obtain ⟨hsets, hchanges⟩ := statReads_sets h₃
  have hdiscards : ∀ k ∈ Command.stat.keys, k ∈ Command.stat.discards := fun _ hk => hk
  rcases hsets with hsets | ⟨err, hsets⟩
  · refine ⟨not_restart (by decide), ?_, .inr (unannounced hchanges ?_)⟩
    · rw [hsets]
      refine ⟨(fun _ hp => nomatch hp), List.nodup_nil, ?_, (fun h => nomatch h),
        fun h => nomatch h⟩
      intro _ c hc k hk hdiscard
      cases hc
      exact absurd (hdiscards k hk) hdiscard
    · simp [hsets]
  · refine ⟨not_restart (by decide), ?_, .inr (unannounced hchanges ?_)⟩
    · rw [hsets]
      refine ⟨?_, List.nodup_singleton _, ?_, (fun h => nomatch h), fun h => nomatch h⟩
      · intro p hp
        rw [List.mem_singleton.mp hp]
        exact ⟨.stat, rfl, List.mem_singleton_self _⟩
      · intro _ c hc k hk hdiscard
        cases hc
        exact absurd (hdiscards k hk) hdiscard
    · intro p hp _ output hkey
      rw [hsets] at hp
      rw [List.mem_singleton.mp hp] at hkey
      cases hkey

/-- **Every command** obeys the contract on every way through it. -/
theorem obeys_processCommand {args : Chars} {command : Option Command} {o : Outcome}
    (h : (processCommand statText args command).Path l o) : Obeys command l o := by
  have hreplies : ∀ {p : Program Ret} {command : Command},
      (replies p).Path l o →
        (∀ {l ret}, p.Path l ret → Obeys (some command) l ⟨[], ret, false⟩) →
          Obeys (some command) l o := by
    intro p command h hp
    obtain ⟨l₁, ret, l₂, h₁, h₂, rfl⟩ := Prog.path_bind.mp h
    obtain ⟨rfl, rfl⟩ := Prog.path_pure.mp h₂
    rw [List.append_nil]
    exact hp h₁
  cases command with
  | none =>
      obtain ⟨rfl, rfl⟩ := Prog.path_pure.mp h
      refine ⟨⟨(fun h => nomatch h), fun h => nomatch h⟩, ⟨(fun _ hp => nomatch hp),
        List.nodup_nil, (fun h => nomatch h), fun _ => .inl rfl, fun h => nomatch h⟩, .inr ?_⟩
      exact fun _ => ⟨(fun h => nomatch h), fun _ h => nomatch h⟩
  | some command =>
      cases command with
      | reset =>
          obtain ⟨rfl, rfl⟩ := Prog.path_pure.mp h
          exact ⟨⟨fun _ => rfl, fun _ => rfl⟩, reports_reads rfl,
            .inr fun _ => ⟨(fun h => nomatch h), fun _ h => nomatch h⟩⟩
      | reg => exact hreplies h obeys_regLine
      | host => exact hreplies h obeys_hostLine
      | ping => exact hreplies h (obeys_numberLine rfl (by decide))
      | status => exact hreplies h (obeys_numberLine rfl (by decide))
      | nvs => exact obeys_reads reads_nvsText rfl (by decide) h
      | stat => exact obeys_stat statText h
      | oled => exact hreplies h (obeys_settingLine displayOledSet_done rfl (by decide))
      | hub75 => exact hreplies h (obeys_settingLine hub75ConfigSet_done rfl (by decide))
      | nodem => exact hreplies h (obeys_settingLine nodemConfigSet_done rfl (by decide))
      | cfg => exact obeys_reads reads_cfgText rfl (by decide) h

/-! ### In any interleaving -/

/-- A line that has been run, with the calls that it made. -/
inductive Replied (line : Chars) : List (Made Op Op.Res) → Prop
  | ignored (h : splitLine line = none) : Replied line []
  | replied {command : Option Command} {args : Chars} {l : List (Made Op Op.Res)} {o : Outcome}
      (h : splitLine line = some (command, args))
      (hpath : (processLine statText line).Path l (some o)) (hobeys : Obeys command l o) :
      Replied line l

theorem processLine_replied {line : Chars} {r : Option Outcome}
    (h : (processLine statText line).Path l r) : Replied statText line l := by
  have hline := h
  unfold processLine at h
  split at h
  · next hsplit =>
    obtain ⟨rfl, rfl⟩ := Prog.path_pure.mp h
    exact .ignored hsplit
  · next command args hsplit =>
    obtain ⟨l₁, o, l₂, h₁, h₂, rfl⟩ := Prog.path_bind.mp h
    obtain ⟨rfl, rfl⟩ := Prog.path_pure.mp h₂
    rw [List.append_nil] at hline ⊢
    exact .replied hsplit hline (obeys_processCommand statText h₁)

/-- **What a reply says**, in any interleaving: from a line's start until `nodem_task` is done with
it, the calls that it made in between are those that its reply speaks of. -/
theorem replies_say {line : Chars} {es : List SettingsEvent} {p p' : SettingsPool}
    (hstart : p.threads .nodem = finish (processLine statText line))
    (hrun : Run (SettingsStep statText) p es p') (hkeeps : ∀ e ∈ es, e.Keeps .nodem)
    (hdone : p'.threads .nodem = pure ()) : Replied statText line (callsOf .nodem es) := by
  have hrest : (p'.threads .nodem).Path [] () := by
    rw [hdone]
    exact .ret ()
  have hpath := Calls.Run.path hrun hkeeps hrest
  rw [hstart, List.append_nil] at hpath
  obtain ⟨l₁, r, l₂, h₁, h₂, hl⟩ := Prog.path_bind.mp hpath
  obtain ⟨rfl, -⟩ := Prog.path_pure.mp h₂
  rw [hl, List.append_nil]
  exact processLine_replied statText h₁

/-- "#ping,5" whose value cannot be saved, while `display_task` begins to read its config. -/
theorem replies_say_ping : ∃ (es : List SettingsEvent) (c : Made Op Op.Res),
    setOf c = some ((.i32, pingKey), -Errno.io) ∧ callsOf .nodem es = [c] ∧
      Replied (fun _ => []) ['#', 'p', 'i', 'n', 'g', ',', '5'] (callsOf .nodem es) := by
  let line : Program Unit := finish (processLine (fun _ => []) ['#', 'p', 'i', 'n', 'g', ',', '5'])
  let threads : Thread → Program Unit := Function.update (fun _ => pure ()) .nodem line
  have hfirst : ∃ k, line = .call (.store (.setI32 pingKey 5)) k ∧ ∀ r, k r = pure () :=
    ⟨_, by rfl, fun _ => rfl⟩
  obtain ⟨k, hk, hlast⟩ := hfirst
  have hread : SettingsStep (fun _ => []) ⟨.factory, threads⟩ (.start .display _) _ :=
    .start rfl .oledConfig
  have hnext : Function.update threads .display (finish oledConfigRead) .nodem =
      .call (.store (.setI32 pingKey 5)) k := hk
  have hcall : Pool.Step Op.exec Settings.reset (Starts fun _ => [])
      ⟨.factory, Function.update threads .display (finish oledConfigRead)⟩ _ _ :=
    .call (i := .nodem) hnext (-Errno.io)
  have hrun : Run (SettingsStep fun _ => []) _ _ _ := .snoc (.snoc (.nil _) hread) hcall
  refine ⟨_, ⟨.store (.setI32 pingKey 5), (-Errno.io : ℤ)⟩, rfl, ?_,
    replies_say (fun _ => []) rfl hrun ?_ ?_⟩
  · rfl
  · simp [Calls.Event.Keeps]
  · simp [hlast]

end NodemFirmware.Control
