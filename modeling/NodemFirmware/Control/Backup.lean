import NodemFirmware.Control.Session

/-! # "#cfg" as a backup

"#cfg" prints the values of "oled", "hub75" and "nodem" as they are stored; a command with each of
them sets it again.  What is stored is what a setter makes of itself (`displayOledSet_setting` and
its like), so the commands made from the "#cfg" of one device set another to the same
(`cfg_restores`), once the drivers of both have read their settings, and whatever their other
threads do meanwhile. -/

namespace NodemFirmware.Control

open CText Calls ConfigStore Str Transition
open Cloud hiding Key registrationPending deviceRegistered

variable {statText : StatReads → List UInt8}

/-! ### Setting what is stored -/

theorem displayOledSet_setting {s : CStr} (h : SettingOk (.str, Oled.oledKey) (.str s)) :
    displayOledSet s = storeSetting .oled Oled.oledKey s := by
  unfold displayOledSet
  generalize hk : (EntryType.str, Oled.oledKey) = k at h
  generalize hv : Value.str s = v at h
  cases h with
  | oled hc =>
      cases hv
      simp only [Oled.oledConfigParse_text hc, Oled.oledConfigFormat_eq hc]
  | oledOff hoff =>
      cases hv
      simp only [hoff.parse]
  | _ => exact absurd hk (by decide)

theorem hub75ConfigSet_setting {s : CStr} (h : SettingOk (.str, Hub75.hub75Key) (.str s)) :
    hub75ConfigSet s = storeSetting .hub75 Hub75.hub75Key s := by
  unfold hub75ConfigSet
  generalize hk : (EntryType.str, Hub75.hub75Key) = k at h
  generalize hv : Value.str s = v at h
  cases h with
  | hub75 hc =>
      cases hv
      obtain ⟨hformat, hparse⟩ := Hub75.hub75ConfigParse_format hc
      simp only [hparse, hformat]
  | hub75Off =>
      cases hv
      rfl
  | _ => exact absurd hk (by decide)

theorem nodemConfigSet_setting {s : CStr} (h : SettingOk (.str, Nodem.nodemKey) (.str s)) :
    nodemConfigSet s = storeSetting .nodem Nodem.nodemKey s := by
  unfold nodemConfigSet
  generalize hk : (EntryType.str, Nodem.nodemKey) = k at h
  generalize hv : Value.str s = v at h
  cases h with
  | @nodem c hc =>
      cases hv
      have hprint := c.text_printable
      have hblank : (' ' : UInt8) ∉ c.text := fun hmem => absurd (hprint _ hmem).1 (by decide)
      have hne : c.text ≠ [] := by
        intro hnil
        have hparse := Nodem.parse_text hc
        rw [hnil] at hparse
        cases hparse
      simp only [dropWhile_eq_of_not_mem hblank, if_pos hne, Nodem.parse_text hc,
        (Nodem.format_eq hc).1]
  | _ => exact absurd hk (by decide)

/-- A value of one of the three settings is text with nothing to trim, and goes into the buffers
it passes. -/
theorem given_setting {key s : CStr} (hkey : key ∈ [Oled.oledKey, Hub75.hub75Key, Nodem.nodemKey])
    (h : SettingOk (.str, key) (.str s)) : Given s := by
  have hvalid := h.valid
  have hlen := hvalid.length_le
  refine ⟨?_, by unfold maxStrLen at hlen; unfold valBufLen; omega, hvalid.no_nul⟩
  generalize hk : (EntryType.str, key) = k at h
  generalize hv : Value.str s = v at h
  cases h with
  | @oled c hc =>
      cases hv
      exact c.text_printable.trimmed
  | oledOff hoff =>
      cases hv
      exact hoff.trimmed
  | hub75 hc =>
      cases hv
      exact (Hub75.Config.text_printable hc.toFieldsOk).trimmed
  | hub75Off =>
      cases hv
      exact Printable.nil.trimmed
  | @nodem c hc =>
      cases hv
      exact c.text_printable.trimmed
  | ping => cases hk
  | status => cases hk
  | _ =>
      cases hk
      exact absurd hkey (by decide)

/-! ### One command -/

variable {l : List (Made Op Op.Res)}

/-- The command that sets `key` to `value`. -/
def cfgCommand (key : Chars) (value : Chars) : Chars := '#' :: key ++ ',' :: value

/-- A line whose setter stores `s` for the value it is given. -/
structure Stores (statText : StatReads → List UInt8) (line : Chars) (output : Output) (s : CStr) :
    Prop where
  path : ∀ {l o}, (processLine statText line).Path l o →
    ∃ err : ℤ, l = ⟨.store (.setStr output.key s), err⟩ ::
      (if err = 0 then [⟨.changed output, ()⟩] else []) ∧
        (err = 0 → o = some ⟨[], .ok, false⟩)
  meets : ∀ {P : Op → Prop}, P (.store (.setStr output.key s)) → P (.changed output) →
    (processLine statText line).Meets P (fun _ _ => True) fun _ => True

theorem cfgCommand_stores (name : Chars) (command : Command) {set : CStr → Program ℤ}
    {output : Output} {s : CStr} {t : Chars}
    (hname : splitLine (cfgCommand name t) = some (some command, t))
    (hcommand : processCommand statText t (some command) = replies (settingLine set t))
    (hgiven : Given (encode t)) (hset : set (encode t) = storeSetting output output.key s) :
    Stores statText (cfgCommand name t) output s := by
  have hcstr : toCstr (Str.trim t) valBufLen = some (encode t) := by
    unfold toCstr
    rw [hgiven.trim, if_neg]
    rw [not_or, not_le]
    exact ⟨hgiven.length, hgiven.no_nul⟩
  have hline : settingLine set t = storeSetting output output.key s >>= fun err =>
      pure (if err = 0 then .ok else if err = -Errno.inval then .malformedValue else .error) := by
    unfold settingLine
    simp only [hcstr, hset]
  have hprocess : processLine statText (cfgCommand name t) =
      replies (settingLine set t) >>= fun outcome => pure (some outcome) := by
    unfold processLine
    simp only [hname, hcommand]
  constructor
  · intro l o h
    rw [hprocess, hline] at h
    obtain ⟨l₁, outcome, l₂, h₁, h₂, rfl⟩ := Prog.path_bind.mp h
    obtain ⟨rfl, rfl⟩ := Prog.path_pure.mp h₂
    obtain ⟨l₃, ret, l₄, h₃, h₄, rfl⟩ := Prog.path_bind.mp h₁
    obtain ⟨rfl, rfl⟩ := Prog.path_pure.mp h₄
    obtain ⟨l₅, err, l₆, h₅, h₆, rfl⟩ := Prog.path_bind.mp h₃
    obtain ⟨rfl, rfl⟩ := Prog.path_pure.mp h₆
    simp only [List.append_nil]
    exact ⟨err, storeSetting_path h₅, fun herr => by rw [if_pos herr]⟩
  · intro P hstore hchanged
    have hstored : (storeSetting output output.key s).Meets P (fun _ _ => True) fun _ => True := by
      refine Prog.Meets.bind ⟨hstore, fun _ _ => trivial⟩ fun err => ?_
      split_ifs
      · exact Prog.Meets.bind ⟨hchanged, fun _ _ => trivial⟩ fun _ => trivial
      · trivial
    rw [hprocess, hline]
    refine Prog.Meets.bind (Prog.Meets.bind (hstored.bind fun _ => ?_) fun _ => ?_) fun _ => ?_ <;>
      trivial

/-! ### What "#cfg" prints -/

theorem configGetStr_congr {st st' : Store} {key : CStr}
    (h : st.entries.lookup (.str, key) = st'.entries.lookup (.str, key)) (bufLen : ℕ) (d : CStr) :
    ConfigStore.configGetStr st.entries key bufLen d =
      ConfigStore.configGetStr st'.entries key bufLen d := by
  unfold ConfigStore.configGetStr
  rw [entryAt_findEntry, entryAt_findEntry, h]

/-- The value that "#cfg" prints for a key. -/
def shown (st : Store) (key : CStr) : List UInt8 :=
  utf8OrEmpty (ConfigStore.configGetStr st.entries key valBufLen [])

/-- It is nothing for a key that was never set, and the value of one that was. -/
theorem shown_setting {st : Store} (h : st.Sound settings) (key : CStr)
    (hkey : key ∈ [Oled.oledKey, Hub75.hub75Key, Nodem.nodemKey]) :
    st.entries.lookup (.str, key) = none ∧ shown st key = [] ∨
      ∃ s, st.entries.lookup (.str, key) = some ⟨key, .str s⟩ ∧ SettingOk (.str, key) (.str s) ∧
        shown st key = s := by
  have hlen : valBufLen = 128 := rfl
  unfold shown
  rw [hlen]
  rcases read_setting h key [] with ⟨hnone, hget⟩ | ⟨s, hs, hok, hget⟩
  · exact .inl ⟨hnone, by rw [hget]; rfl⟩
  · obtain ⟨t, -, rfl⟩ := (given_setting hkey hok).trimmed
    refine .inr ⟨_, hs, hok, ?_⟩
    rw [hget, utf8OrEmpty, if_pos ((valid_iff _).mp ⟨t, rfl⟩)]

/-- "nodem" that was never set is set by the empty value it is printed as, to the default. -/
theorem shown_nodem {st : Store} (h : st.Sound settings) :
    ∃ s, Given (shown st Nodem.nodemKey) ∧
      nodemConfigSet (shown st Nodem.nodemKey) = storeSetting .nodem Nodem.nodemKey s ∧
      (st.entries.lookup (.str, Nodem.nodemKey) = some ⟨Nodem.nodemKey, .str s⟩ ∨
        st.entries.lookup (.str, Nodem.nodemKey) = none ∧ s = Nodem.nodemDefault) := by
  have hkey : Nodem.nodemKey ∈ [Oled.oledKey, Hub75.hub75Key, Nodem.nodemKey] := by decide
  rcases shown_setting h _ hkey with ⟨hnone, hshown⟩ | ⟨s, hs, hok, hshown⟩
  · have hset : nodemConfigSet [] = nodemConfigSet Nodem.nodemDefault := by rfl
    rw [hshown]
    exact ⟨Nodem.nodemDefault, ⟨Printable.nil.trimmed, by decide, by decide⟩,
      hset.trans (nodemConfigSet_setting settingOk_nodemDefault), .inr ⟨hnone, rfl⟩⟩
  · rw [hshown]
    exact ⟨s, given_setting hkey hok, nodemConfigSet_setting hok, .inl hs⟩

/-- The text of "#cfg", for the three values. -/
def cfgOutput (oled hub75 nodem : List UInt8) : List UInt8 :=
  cs "oled=" ++ oled ++ cs "\r\n" ++ cs "hub75=" ++ hub75 ++ cs "\r\n" ++ cs "nodem=" ++ nodem ++
    cs "\r\n"

/-- "#cfg" reads the three values and prints them. -/
theorem cfgLine_path {o : Option Outcome}
    (h : (processLine statText ['#', 'c', 'f', 'g']).Path l o) : ∃ oled hub75 nodem : CStr,
      l = [⟨.store (.getStr Oled.oledKey valBufLen []), oled⟩,
        ⟨.store (.getStr Hub75.hub75Key valBufLen []), hub75⟩,
        ⟨.store (.getStr Nodem.nodemKey valBufLen []), nodem⟩] ∧
      o = some ⟨cfgOutput (utf8OrEmpty oled) (utf8OrEmpty hub75) (utf8OrEmpty nodem), .ok,
        false⟩ := by
  have hline : splitLine ['#', 'c', 'f', 'g'] = some (some .cfg, []) := by rfl
  have hentry : ∀ {key : CStr} {l : List (Made Op Op.Res)} {text : List UInt8},
      (cfgEntry key).Path l text → ∃ value : CStr,
        l = [⟨.store (.getStr key valBufLen []), value⟩] ∧
          text = key ++ cs "=" ++ utf8OrEmpty value ++ cs "\r\n" := by
    intro key l text h
    obtain ⟨l₁, value, l₂, h₁, h₂, rfl⟩ := Prog.path_bind.mp h
    obtain ⟨rfl, rfl⟩ := Prog.path_pure.mp h₂
    exact ⟨value, by rw [List.append_nil, Prog.path_one.mp h₁], rfl⟩
  unfold processLine at h
  rw [hline] at h
  obtain ⟨l₁, outcome, l₂, h₁, h₂, rfl⟩ := Prog.path_bind.mp h
  obtain ⟨rfl, rfl⟩ := Prog.path_pure.mp h₂
  obtain ⟨l₃, text, l₄, h₃, h₄, rfl⟩ := Prog.path_bind.mp h₁
  obtain ⟨rfl, rfl⟩ := Prog.path_pure.mp h₄
  obtain ⟨l₅, text₁, l₆, h₅, h₆, rfl⟩ := Prog.path_bind.mp h₃
  obtain ⟨l₇, text₂, l₈, h₇, h₈, rfl⟩ := Prog.path_bind.mp h₆
  obtain ⟨l₉, text₃, l₁₀, h₉, h₁₀, rfl⟩ := Prog.path_bind.mp h₈
  obtain ⟨rfl, rfl⟩ := Prog.path_pure.mp h₁₀
  obtain ⟨oled, rfl, rfl⟩ := hentry h₅
  obtain ⟨hub75, rfl, rfl⟩ := hentry h₇
  obtain ⟨nodem, rfl, rfl⟩ := hentry h₉
  refine ⟨oled, hub75, nodem, rfl, ?_⟩
  have hkeys : Oled.oledKey ++ cs "=" = cs "oled=" ∧ Hub75.hub75Key ++ cs "=" = cs "hub75=" ∧
      Nodem.nodemKey ++ cs "=" = cs "nodem=" := ⟨by rfl, by rfl, by rfl⟩
  rw [hkeys.1, hkeys.2.1, hkeys.2.2]
  simp only [cfgOutput, List.append_assoc]

theorem reads_cfgLine : Reads (processLine statText ['#', 'c', 'f', 'g']) := by
  have hline : splitLine ['#', 'c', 'f', 'g'] = some (some .cfg, []) := by rfl
  unfold processLine
  rw [hline]
  exact (reads_cfgText.bind fun _ => reads_pure _).bind fun _ => reads_pure _

/-- "#cfg" from its start to its end, while the other threads make any calls. -/
structure Printing (statText : StatReads → List UInt8) (p : SettingsPool)
    (es : List SettingsEvent) (q : SettingsPool) : Prop where
  run : Run (SettingsStep statText) p es q
  started : p.threads .nodem = finish (processLine statText ['#', 'c', 'f', 'g'])
  going : ∀ e ∈ es, e.Keeps .nodem
  done : q.threads .nodem = pure ()

theorem setKey_of_reads {op : Op} (h : op.Reads) : op.setKey = none := by
  rcases op with (_ | _ | _ | _ | _) | _
  · rfl
  · rfl
  · exact h.elim
  · exact h.elim
  · rfl
  · exact h.elim

/-- **What "#cfg" prints**, whatever the other threads do: the values as they were when it began. -/
theorem Printing.output {p q : SettingsPool} {es : List SettingsEvent} (hp : Reached p)
    (hread : DriversRead p) (h : Printing statText p es q) :
    (processLine statText ['#', 'c', 'f', 'g']).Path (callsOf .nodem es)
      (some ⟨cfgOutput (shown p.shared.store Oled.oledKey) (shown p.shared.store Hub75.hub75Key)
        (shown p.shared.store Nodem.nodemKey), .ok, false⟩) := by
  have hreset : ∀ order, .reset order ∉ es := fun order hmem => h.going _ hmem
  have hrest : (q.threads .nodem).Path [] () := by
    rw [h.done]
    exact .ret ()
  have hpath := Calls.Run.path h.run h.going hrest
  rw [h.started, List.append_nil] at hpath
  obtain ⟨o, hline⟩ := path_of_finish hpath
  have hmarks : ∀ op : Op, op.Reads → op ≠ Op.marks := by
    rintro op hop rfl
    exact hop
  obtain ⟨hsettled, -⟩ := session_settled h.run hp hread hreset
    (by
      rw [h.started]
      exact Prog.Meets.bind (reads_cfgLine.mono hmarks (fun _ _ => id) fun _ => id)
        fun _ => trivial)
    fun prog hmem => absurd rfl (h.going _ hmem)
  have hreads := (Prog.Meets.path reads_cfgLine hline fun _ _ => trivial).1
  have hno : ∀ k ∈ cfgKeys, ∀ i op err r, .call i op err r ∈ es → op.setKey ≠ some k := by
    intro k hk i op err r hmem hkey
    have hi := (hsettled i op err r hmem).nodem_of_cfg hkey hk
    subst hi
    rw [setKey_of_reads (hreads _ (mem_callsOf hmem))] at hkey
    cases hkey
  -- each value is read when it is still what it was
  have hvalue : ∀ (key : CStr) {value : CStr}, (.str, key) ∈ cfgKeys →
      (⟨.store (.getStr key valBufLen []), value⟩ : Made Op Op.Res) ∈ callsOf .nodem es →
        utf8OrEmpty value = shown p.shared.store key := by
    intro key value hkey hmem
    obtain ⟨l, l', hcalls⟩ := List.append_of_mem hmem
    obtain ⟨pre, err, post, rfl, -, -⟩ := callsOf_eq_append_cons hcalls
    obtain ⟨q₁, q₂, hbefore, hstep, -⟩ := h.run.step_of_append
    have hkept := kept_of_run hbefore hp
      (fun order hmem => hreset order (List.mem_append_left _ hmem)) (cfgKeys_subset hkey)
      fun i op err r hmem => hno _ hkey i op err r (List.mem_append_left _ hmem)
    cases hstep with
    | call _ err => exact congrArg utf8OrEmpty (configGetStr_congr hkept.1 _ _)
  obtain ⟨oled, hub75, nodem, hcalls, rfl⟩ := cfgLine_path hline
  have hmem := fun {c} (hc : c ∈ _) => (hcalls ▸ hc : c ∈ callsOf .nodem es)
  rw [hvalue Oled.oledKey (by decide) (hmem List.mem_cons_self),
    hvalue Hub75.hub75Key (by decide) (hmem (List.mem_cons_of_mem _ List.mem_cons_self)),
    hvalue Nodem.nodemKey (by decide)
      (hmem (List.mem_cons_of_mem _ (List.mem_cons_of_mem _ List.mem_cons_self)))] at hline
  exact hline

/-! ### From one device to another -/

/-- A command that stored its value. -/
def okOutcome : Option Outcome := some ⟨[], .ok, false⟩

theorem Stores.done {line : Chars} {output : Output} {s : CStr}
    (h : Stores statText line output s) {o : Option Outcome}
    (hpath : (processLine statText line).Path l o)
    (hsaved : ∀ {key val : CStr} {err : ℤ},
      (⟨.store (.setStr key val), err⟩ : Made Op Op.Res) ∈ l → err = 0) :
    l = storedAndAnnounced output s ∧ o = okOutcome := by
  obtain ⟨err, rfl, ho⟩ := h.path hpath
  have herr := hsaved List.mem_cons_self
  subst herr
  exact ⟨rfl, ho rfl⟩

/-- A command line, and the setting that it stores. -/
structure StoringLine where
  line : Chars
  output : Output
  value : CStr

def StoringLine.answer (c : StoringLine) : Chars × Option Outcome := (c.line, okOutcome)

theorem Output.key_inj {o o' : Output} (h : o.key = o'.key) : o = o' := by
  cases o <;> cases o' <;> first | rfl | exact absurd h (by decide)

def StoringLine.key (c : StoringLine) : Key := (.str, c.output.key)

/-- A later command stores another setting, and is not read over: a read of the config in between
may store nodem's. -/
def Apart (c c' : StoringLine) : Prop := c.output ≠ c'.output ∧ c.output ≠ .nodem

/-- **The calls of such commands**, one after the other: each stores its value, and what comes after
sets other keys. -/
theorem Answered.stored {cmds : List StoringLine} {answers : List (Chars × Option Outcome)}
    {progs : List (Program Unit)} {calls : List (Made Op Op.Res)}
    (h : Answered statText answers progs calls)
    (hlines : answers.map Prod.fst = cmds.map (·.line))
    (hstores : ∀ c ∈ cmds, Stores statText c.line c.output c.value) (hapart : cmds.Pairwise Apart)
    (hsaved : ∀ {key val : CStr} {err : ℤ},
      (⟨.store (.setStr key val), err⟩ : Made Op Op.Res) ∈ calls → err = 0) :
    answers = cmds.map StoringLine.answer ∧
      SetsOnly (cmds.flatMap fun c => [Reader.nodem.key, c.key]) calls ∧
      ∀ c ∈ cmds, ∃ before after,
        calls = before ++ (storedAndAnnounced c.output c.value ++ after) ∧
          ∀ x ∈ after, x.1.setKey ≠ some c.key := by
  induction cmds generalizing answers progs calls with
  | nil =>
      rw [List.map_nil, List.map_eq_nil_iff] at hlines
      subst hlines
      cases h
      exact ⟨rfl, (fun _ hc => by cases hc), fun _ hc => by cases hc⟩
  | cons c cmds ih =>
      rw [List.map_cons] at hlines
      obtain ⟨⟨line, o⟩, answers, rfl, hline, htail⟩ := List.map_eq_cons_iff.mp hlines
      cases hline
      obtain ⟨reads, l, _, calls, rfl, hreads, hpath, hrest⟩ := h.next
      obtain ⟨rfl, rfl⟩ := (hstores c List.mem_cons_self).done hpath fun hmem =>
        hsaved (List.mem_append_right _ (List.mem_append_left _ hmem))
      obtain ⟨hfirst, hapart⟩ := List.pairwise_cons.mp hapart
      obtain ⟨rfl, hsets, hstored⟩ := ih hrest htail
        (fun c hc => hstores c (List.mem_cons_of_mem _ hc)) hapart
        fun hmem => hsaved (List.mem_append_right _ (List.mem_append_right _ hmem))
      have hothers : ∀ x ∈ calls, x.1.setKey ≠ some c.key := by
        intro x hx hkey
        obtain ⟨c', hc', hk⟩ := List.mem_flatMap.mp (hsets x hx _ hkey)
        obtain ⟨hne, hnodem⟩ := hfirst c' hc'
        simp only [List.mem_cons, List.not_mem_nil, or_false] at hk
        rcases hk with hk | hk
        · exact hnodem (Output.key_inj (show c.output.key = Output.nodem.key from
            congrArg Prod.snd hk))
        · exact hne (Output.key_inj (congrArg Prod.snd hk))
      refine ⟨rfl, ?_, ?_⟩
      · refine setsOnly_append (hreads.mono ?_) (setsOnly_append
          ((setsOnly_stored _ _).mono ?_) (hsets.mono ?_))
        · exact fun k hk => List.mem_append_left _ (List.mem_singleton.mp hk ▸ List.mem_cons_self)
        · exact fun k hk => List.mem_append_left _ (List.mem_cons_of_mem _ hk)
        · exact fun k hk => List.mem_append_right _ hk
      · intro c' hc'
        rcases List.mem_cons.mp hc' with rfl | hc'
        · exact ⟨reads, calls, rfl, hothers⟩
        · obtain ⟨before, after, hcalls, hafter⟩ := hstored c' hc'
          refine ⟨reads ++ (storedAndAnnounced c.output c.value ++ before), after, ?_, hafter⟩
          rw [hcalls]
          simp

section session

variable {p q : SettingsPool} {es : List SettingsEvent}

/-- The value that the interpreter stored last is what the key holds. -/
theorem Session.holds {lines : List Chars} (hp : Reached p) (h : Session statText p es q lines)
    (hsettled : ∀ i op err r, .call i op err r ∈ es → i.SettledCalls op) {output : Output}
    {s : CStr} (hkey : (.str, output.key) ∈ cfgKeys) {before after : List (Made Op Op.Res)}
    (hcalls : callsOf .nodem es = before ++ (storedAndAnnounced output s ++ after))
    (hafter : ∀ c ∈ after, c.1.setKey ≠ some (.str, output.key)) :
    Holds q.shared.store (.str, output.key) (.str s) := by
  have hset : callsOf .nodem es = before ++ ⟨.store (.setStr output.key s), (0 : ℤ)⟩ ::
      (⟨.changed output, ()⟩ :: after) := hcalls
  obtain ⟨pre, err, post, rfl, -, hpost⟩ := callsOf_eq_append_cons hset
  have herr := h.saved _ _ _ (List.mem_append_right pre List.mem_cons_self)
  subst herr
  have hlater : ∀ e ∈ post, e ∈ pre ++ .call .nodem (.store (.setStr output.key s)) 0 (0 : ℤ) ::
      post := fun e he => List.mem_append_right _ (List.mem_cons_of_mem _ he)
  refine holds_of_set h.run hp (fun order hmem => h.noReset order (hlater _ hmem)) ?_
  intro i op err r hmem hset
  have hi := (hsettled i op err r (hlater _ hmem)).nodem_of_cfg hset hkey
  subst hi
  have hcall := mem_callsOf hmem
  rw [hpost] at hcall
  rcases List.mem_cons.mp hcall with heq | hcall
  · cases heq
    cases hset
  · exact hafter _ hcall hset

/-- **Commands that store values** are answered 0, and their keys hold the values at the end, saved;
nothing else is set by the interpreter. -/
theorem Session.stores {cmds : List StoringLine} (hp : Reached p) (hread : DriversRead p)
    (h : Session statText p es q (cmds.map (·.line)))
    (hstores : ∀ c ∈ cmds, Stores statText c.line c.output c.value)
    (hmark : ∀ c ∈ cmds, c.output = .oled → c.value ≠ [1]) (hapart : cmds.Pairwise Apart) :
    Answered statText (cmds.map StoringLine.answer) (startsOf .nodem es) (callsOf .nodem es) ∧
      SetsOnly cfgKeys (callsOf .nodem es) ∧
      ∀ c ∈ cmds, Holds q.shared.store c.key (.str c.value) := by
  have hcfg : ∀ output : Output, (.str, output.key) ∈ cfgKeys := by
    intro output
    cases output <;> decide
  have hunmarking : ∀ prog, .start .nodem prog ∈ es → Unmarking prog := by
    intro prog hmem
    have hfinish : ∀ {α : Type} {p : Program α},
        p.Meets (· ≠ Op.marks) (fun _ _ => True) (fun _ => True) → Unmarking (finish p) :=
      fun hmeets => hmeets.bind fun _ => trivial
    rcases h.fed.of_mem (mem_startsOf hmem) with ⟨line, hline, rfl⟩ | ⟨out, rfl⟩
    · obtain ⟨⟨line, output, value⟩, hc, rfl⟩ := List.mem_map.mp hline
      refine hfinish ((hstores _ hc).meets (fun heq => ?_) fun heq => by cases heq)
      cases output <;> cases heq
      exact hmark _ hc rfl rfl
    · exact hfinish ((Reader.nodemConfigGet_does out).meets (by decide) fun _ _ _ => by decide)
  obtain ⟨hsettled, -⟩ := session_settled h.run hp hread h.noReset (by rw [h.idle]; trivial)
    hunmarking
  have hsaved : ∀ {key val : CStr} {err : ℤ},
      (⟨.store (.setStr key val), err⟩ : Made Op Op.Res) ∈ callsOf .nodem es → err = 0 := by
    intro key val err hmem
    obtain ⟨l, l', hcalls⟩ := List.append_of_mem hmem
    obtain ⟨pre, w, post, rfl, -, -⟩ := callsOf_eq_append_cons hcalls
    have hcall := List.mem_append_right pre (List.mem_cons_self (l := post)
      (a := (.call .nodem (.store (.setStr key val)) w err : SettingsEvent)))
    exact (notRefused_of_run h.run hp _ hcall).trans (h.saved _ _ _ hcall)
  obtain ⟨ls, hls, hflatten⟩ := Calls.Run.paths h.run h.idle h.noReset
    (l := []) (by rw [h.done]; exact .ret ())
  obtain ⟨answers, hlines, hanswered⟩ := h.fed.answered hls
  rw [List.append_nil] at hflatten
  rw [← hflatten] at hanswered
  obtain ⟨rfl, hsets, hstored⟩ := hanswered.stored hlines hstores hapart hsaved
  refine ⟨hanswered, hsets.mono ?_, fun c hc => ?_⟩
  · intro k hk
    obtain ⟨c, -, hk⟩ := List.mem_flatMap.mp hk
    rcases List.mem_cons.mp hk with rfl | hk
    · exact hcfg .nodem
    · rw [List.mem_singleton.mp hk]
      exact hcfg c.output
  · obtain ⟨before, after, hcalls, hafter⟩ := hstored c hc
    exact h.holds hp hsettled (hcfg c.output) hcalls hafter

end session

/-- The readers of a device with the store `st` take the same configs as those of one with `src`. -/
structure Restored (src st : Store) : Prop where
  oled : ∀ err, (Oled.oledConfigRead st err).1 = (Oled.oledConfigRead src err).1
  hub75 : ∀ err, (Hub75.hub75ConfigRead st err).1 = (Hub75.hub75ConfigRead src err).1
  nodem : ∀ err out, (Nodem.nodemConfigGet st err out).1 = (Nodem.nodemConfigGet src err out).1

theorem oledConfigRead_congr {st st' : Store}
    (h : st.entries.lookup (.str, Oled.oledKey) = st'.entries.lookup (.str, Oled.oledKey))
    (err : ℤ) : (Oled.oledConfigRead st err).1 = (Oled.oledConfigRead st' err).1 := by
  unfold Oled.oledConfigRead
  rw [configGetStr_congr h]
  dsimp only
  split_ifs
  · rfl
  · split <;> rfl

theorem hub75ConfigRead_congr {st st' : Store}
    (h : st.entries.lookup (.str, Hub75.hub75Key) = st'.entries.lookup (.str, Hub75.hub75Key))
    (err : ℤ) : (Hub75.hub75ConfigRead st err).1 = (Hub75.hub75ConfigRead st' err).1 := by
  unfold Hub75.hub75ConfigRead
  rw [configGetStr_congr h]
  dsimp only
  split_ifs
  · rfl
  · split <;> rfl

/-- A key with the value of the other store, or with the default where the other has none. -/
theorem nodemConfigGet_congr {st st' : Store} {s : CStr}
    (hs : st.entries.lookup (.str, Nodem.nodemKey) = some ⟨Nodem.nodemKey, .str s⟩)
    (h : st'.entries.lookup (.str, Nodem.nodemKey) = some ⟨Nodem.nodemKey, .str s⟩ ∨
      st'.entries.lookup (.str, Nodem.nodemKey) = none ∧ s = Nodem.nodemDefault)
    (err : ℤ) (out : Nodem.Config) :
    (Nodem.nodemConfigGet st err out).1 = (Nodem.nodemConfigGet st' err out).1 := by
  unfold Nodem.nodemConfigGet
  rcases h with h | ⟨h, rfl⟩
  · rw [configGetStr_congr (hs.trans h.symm)]
    dsimp only
    split <;> rfl
  · obtain ⟨c, hparse, -⟩ := Nodem.parse_nodemDefault
    have hget : ConfigStore.configGetStr st.entries Nodem.nodemKey Nodem.nodemValueLen [] =
        Nodem.nodemDefault := by
      unfold ConfigStore.configGetStr
      rw [entryAt_findEntry, hs]
      rfl
    have hnone :
        ConfigStore.configGetStr st'.entries Nodem.nodemKey Nodem.nodemValueLen [] = [] := by
      unfold ConfigStore.configGetStr
      rw [entryAt_findEntry, h]
      rfl
    have hempty : Nodem.parse [] = none := by rfl
    simp only [hget, hnone, hparse, hempty, Option.getD_some]

/-- The three values that "#cfg" prints, as text. -/
structure Printed (st : Store) (oled hub75 nodem : Chars) : Prop where
  oled : encode oled = shown st Oled.oledKey
  hub75 : encode hub75 = shown st Hub75.hub75Key
  nodem : encode nodem = shown st Nodem.nodemKey

theorem exists_printed {st : Store} (h : st.Sound settings) :
    ∃ oled hub75 nodem, Printed st oled hub75 nodem := by
  have hvalid : ∀ key ∈ [Oled.oledKey, Hub75.hub75Key, Nodem.nodemKey],
      ∃ t, encode t = shown st key := by
    intro key hkey
    rcases shown_setting h key hkey with ⟨-, hshown⟩ | ⟨s, -, hok, hshown⟩
    · exact ⟨[], hshown.symm⟩
    · obtain ⟨t, -, rfl⟩ := (given_setting hkey hok).trimmed
      exact ⟨t, hshown.symm⟩
  obtain ⟨oled, holed⟩ := hvalid Oled.oledKey (by decide)
  obtain ⟨hub75, hhub75⟩ := hvalid Hub75.hub75Key (by decide)
  obtain ⟨nodem, hnodem⟩ := hvalid Nodem.nodemKey (by decide)
  exact ⟨oled, hub75, nodem, holed, hhub75, hnodem⟩

/-- The commands made of what is printed store what the device has. -/
theorem Printed.stores (statText : StatReads → List UInt8) {st : Store} {oled hub75 nodem : Chars}
    (h : Printed st oled hub75 nodem) (hs : st.Sound settings) (holed : ¬ Reader.oled.Unset st)
    (hhub75 : ¬ Reader.hub75.Unset st) :
    ∃ s₁ s₂ s₃ : CStr,
      (st.entries.lookup (.str, Oled.oledKey) = some ⟨Oled.oledKey, .str s₁⟩ ∧ s₁ ≠ [1] ∧
        Stores statText (cfgCommand ['o', 'l', 'e', 'd'] oled) .oled s₁) ∧
      (st.entries.lookup (.str, Hub75.hub75Key) = some ⟨Hub75.hub75Key, .str s₂⟩ ∧
        Stores statText (cfgCommand ['h', 'u', 'b', '7', '5'] hub75) .hub75 s₂) ∧
      (st.entries.lookup (.str, Nodem.nodemKey) = some ⟨Nodem.nodemKey, .str s₃⟩ ∨
          st.entries.lookup (.str, Nodem.nodemKey) = none ∧ s₃ = Nodem.nodemDefault) ∧
        Stores statText (cfgCommand ['n', 'o', 'd', 'e', 'm'] nodem) .nodem s₃ := by
  obtain ⟨s₁, hs₁, hok₁, hshown₁⟩ := (shown_setting hs Oled.oledKey
    (by decide)).resolve_left fun hnone => holed (.inl hnone.1)
  obtain ⟨s₂, hs₂, hok₂, hshown₂⟩ := (shown_setting hs Hub75.hub75Key
    (by decide)).resolve_left fun hnone => hhub75 (.inl hnone.1)
  obtain ⟨s₃, hgiven₃, hset₃, hs₃⟩ := shown_nodem hs
  refine ⟨s₁, s₂, s₃, ⟨hs₁, ?_, ?_⟩, ⟨hs₂, ?_⟩, hs₃, ?_⟩
  · rintro rfl
    exact holed (.inr ⟨rfl, hs₁⟩)
  · have hencode := h.oled.trans hshown₁
    refine cfgCommand_stores _ .oled (by rfl) rfl ?_ ?_
    · rw [hencode]
      exact given_setting (by decide) hok₁
    · rw [hencode]
      exact displayOledSet_setting hok₁
  · have hencode := h.hub75.trans hshown₂
    refine cfgCommand_stores _ .hub75 (by rfl) rfl ?_ ?_
    · rw [hencode]
      exact given_setting (by decide) hok₂
    · rw [hencode]
      exact hub75ConfigSet_setting hok₂
  · refine cfgCommand_stores _ .nodem (by rfl) rfl ?_ ?_
    · rw [h.nodem]
      exact hgiven₃
    · rw [h.nodem]
      exact hset₃

/-- **"#cfg" is a backup.**  On a device whose drivers have read their settings, "#cfg" prints three
values; given as commands to any device whose drivers have read theirs, they are answered 0, set
nothing else, and make its readers take the configs of the first, also after a reset.  Meanwhile the
other threads of both devices do as they like. -/
theorem cfg_restores {es cfg es' session : List SettingsEvent} {p q p' q' : SettingsPool}
    {oled hub75 nodem : Chars} (hrun : Run (SettingsStep statText) (.idle .factory) es p)
    (hread : DriversRead p) (hcfg : Printing statText p cfg q)
    (hprinted : Printed p.shared.store oled hub75 nodem)
    (hrun' : Run (SettingsStep statText) (.idle .factory) es' p') (hread' : DriversRead p')
    (hsession : Session statText p' session q' [cfgCommand ['o', 'l', 'e', 'd'] oled,
      cfgCommand ['h', 'u', 'b', '7', '5'] hub75, cfgCommand ['n', 'o', 'd', 'e', 'm'] nodem]) :
    (processLine statText ['#', 'c', 'f', 'g']).Path (callsOf .nodem cfg)
        (some ⟨cfgOutput (encode oled) (encode hub75) (encode nodem), .ok, false⟩) ∧
      Answered statText [(cfgCommand ['o', 'l', 'e', 'd'] oled, okOutcome),
        (cfgCommand ['h', 'u', 'b', '7', '5'] hub75, okOutcome),
        (cfgCommand ['n', 'o', 'd', 'e', 'm'] nodem, okOutcome)]
        (startsOf .nodem session) (callsOf .nodem session) ∧
      SetsOnly cfgKeys (callsOf .nodem session) ∧
      Restored p.shared.store q'.shared.store ∧
      ∀ order, (∀ k ∈ cfgKeys, fullKey k ∈ order) →
        Restored p.shared.store (reboot q'.shared.store order) := by
  have hp := reached_factory.run hrun
  have hp' := reached_factory.run hrun'
  obtain ⟨s₁, s₂, s₃, ⟨hs₁, hmark, holed⟩, ⟨hs₂, hhub75⟩, hs₃, hnodem⟩ :=
    hprinted.stores statText hp.shared hread.oled hread.hub75
  let cmds : List StoringLine := [⟨cfgCommand ['o', 'l', 'e', 'd'] oled, .oled, s₁⟩,
    ⟨cfgCommand ['h', 'u', 'b', '7', '5'] hub75, .hub75, s₂⟩,
    ⟨cfgCommand ['n', 'o', 'd', 'e', 'm'] nodem, .nodem, s₃⟩]
  have hsession' : Session statText p' session q' (cmds.map (·.line)) := hsession
  obtain ⟨hanswered, hsets, hholds⟩ := hsession'.stores hp' hread'
    (by simpa [cmds] using ⟨holed, hhub75, hnodem⟩) (by simpa [cmds] using hmark)
    (by simp [cmds, Apart])
  have hholds₁ : Holds q'.shared.store (.str, Oled.oledKey) (.str s₁) :=
    hholds _ List.mem_cons_self
  have hholds₂ : Holds q'.shared.store (.str, Hub75.hub75Key) (.str s₂) :=
    hholds _ (List.mem_cons_of_mem _ List.mem_cons_self)
  have hholds₃ : Holds q'.shared.store (.str, Nodem.nodemKey) (.str s₃) :=
    hholds _ (List.mem_cons_of_mem _ (List.mem_cons_of_mem _ List.mem_cons_self))
  have hreaders : ∀ st : Store, st.entries.lookup (.str, Oled.oledKey) = some ⟨_, .str s₁⟩ →
      st.entries.lookup (.str, Hub75.hub75Key) = some ⟨_, .str s₂⟩ →
        st.entries.lookup (.str, Nodem.nodemKey) = some ⟨_, .str s₃⟩ →
          Restored p.shared.store st := fun st h₁ h₂ h₃ =>
    ⟨oledConfigRead_congr (h₁.trans hs₁.symm), hub75ConfigRead_congr (h₂.trans hs₂.symm),
      nodemConfigGet_congr h₃ hs₃⟩
  have hq' := (hp'.run hsession.run).shared
  have hloaded : ∀ {k : Key} {v : Value}, Holds q'.shared.store k v → ∀ {order : List CStr},
      fullKey k ∈ order → (reboot q'.shared.store order).entries.lookup k = some ⟨k.2, v⟩ :=
    fun hholds _ hmem => by
      obtain ⟨hk, hok⟩ := hq'.table.entry _ _ hholds.lookup
      exact hq'.lookup_reboot hk hok hholds.saved hmem
  refine ⟨?_, hanswered, hsets, hreaders _ hholds₁.lookup hholds₂.lookup hholds₃.lookup,
    fun order horder => hreaders _ (hloaded hholds₁ (horder _ (by decide)))
      (hloaded hholds₂ (horder _ (by decide))) (hloaded hholds₃ (horder _ (by decide)))⟩
  rw [hprinted.oled, hprinted.hub75, hprinted.nodem]
  exact hcfg.output hp hread

/-- "#cfg" while no other thread does anything. -/
theorem printing_alone (statText : StatReads → List UInt8) (s : Settings) :
    ∃ es q, Printing statText ⟨s, Function.update (fun _ => pure ()) .nodem
      (finish (processLine statText ['#', 'c', 'f', 'g']))⟩ es q := by
  refine ⟨_, _, Calls.Run.go_alone 0 (i := .nodem) rfl, rfl, fun e he => ?_, by rfl⟩
  obtain ⟨op, r, rfl⟩ := call_of_mem_aloneEvents he
  trivial

/-- A device that has started: its drivers have read their settings, one after the other. -/
def oledBooted : Settings := ((finish oledConfigRead).run (Op.exec 0) .factory).2
def settingsBooted : Settings := ((finish hub75ConfigRead).run (Op.exec 0) oledBooted).2

/-- The same with another panel. -/
def panelChanged : Settings :=
  ((finish (processLine (fun _ => []) "#oled,ssd1306:128:32:0:0:180".toList)).run (Op.exec 0)
    settingsBooted).2

theorem run_settingsBooted :
    ∃ es, Run (SettingsStep fun _ => []) (.idle .factory) es (.idle settingsBooted) := by
  have holed : Starts (fun _ => []) .display (finish oledConfigRead) := .oledConfig
  have hhub75 : Starts (fun _ => []) .hub75 (finish hub75ConfigRead) := .hub75Config
  exact ⟨_, (run_alone 0 .factory holed).append (run_alone 0 oledBooted hhub75)⟩

theorem not_unset_booted : (¬ Reader.oled.Unset settingsBooted.store ∧
    ¬ Reader.hub75.Unset settingsBooted.store) ∧
    ¬ Reader.oled.Unset panelChanged.store ∧ ¬ Reader.hub75.Unset panelChanged.store := by
  unfold Reader.Unset
  decide +kernel

/-- The panel of one device given to another. -/
theorem cfg_restores_panel : ∃ (cfg session : List SettingsEvent) (q' : SettingsPool)
    (oled hub75 nodem : Chars), Printed panelChanged.store oled hub75 nodem ∧
      (processLine (fun _ => []) ['#', 'c', 'f', 'g']).Path (callsOf .nodem cfg)
        (some ⟨cfgOutput (encode oled) (encode hub75) (encode nodem), .ok, false⟩) ∧
      Answered (fun _ => []) [(cfgCommand ['o', 'l', 'e', 'd'] oled, okOutcome),
        (cfgCommand ['h', 'u', 'b', '7', '5'] hub75, okOutcome),
        (cfgCommand ['n', 'o', 'd', 'e', 'm'] nodem, okOutcome)]
        (startsOf .nodem session) (callsOf .nodem session) ∧
      SetsOnly cfgKeys (callsOf .nodem session) ∧
      Restored panelChanged.store q'.shared.store ∧
      ∀ order, (∀ k ∈ cfgKeys, fullKey k ∈ order) →
        Restored panelChanged.store (reboot q'.shared.store order) := by
  obtain ⟨es, hrun⟩ := run_settingsBooted
  have hchanged := hrun.append (run_alone 0 settingsBooted
    (.line "#oled,ssd1306:128:32:0:0:180".toList : Starts (fun _ => []) .nodem _))
  have hstarted := hchanged.snoc (.start (i := .nodem) rfl (.line ['#', 'c', 'f', 'g']))
  obtain ⟨cfg, q, hcfg⟩ := printing_alone (fun _ => []) panelChanged
  obtain ⟨⟨holed, hhub75⟩, holed', hhub75'⟩ := not_unset_booted
  obtain ⟨oled, hub75, nodem, hprinted⟩ := exists_printed (reached_factory.run hchanged).shared
  obtain ⟨session, s', hsession⟩ := session_alone (fun _ => [])
    [cfgCommand ['o', 'l', 'e', 'd'] oled, cfgCommand ['h', 'u', 'b', '7', '5'] hub75,
      cfgCommand ['n', 'o', 'd', 'e', 'm'] nodem] settingsBooted
  exact ⟨cfg, session, .idle s', oled, hub75, nodem, hprinted,
    cfg_restores hstarted ⟨holed', hhub75', rfl, rfl⟩ hcfg hprinted hrun
      ⟨holed, hhub75, rfl, rfl⟩ hsession⟩

end NodemFirmware.Control
