import NodemFirmware.Control.Replies

/-! # Who sets a key

Every call that sets a key, in any interleaving of the threads, is made by a command for that key,
by a registration, or by a reader that has just found nothing set there (`SetBy`).  A reader stores
its default a call later than it read, whatever was set in between.

`settings_sound` says so, together with what the store holds (`SettingsHeld`). -/

namespace NodemFirmware.Control

open CText Calls ConfigStore Str Transition
open Cloud hiding Key registrationPending deviceRegistered

variable {statText : StatReads → List UInt8} {st : Store}

/-! ### What a reader has no use for -/

/-- Nothing was set, as the reader sees it: `oled_config_read` takes the single byte 0x01 for a
value that was never set. -/
def Reader.Unset (rd : Reader) (st : Store) : Prop :=
  st.entries.lookup rd.key = none ∨
    rd = .oled ∧ st.entries.lookup rd.key = some ⟨Oled.oledKey, .str [1]⟩

theorem configGetI32_eq (st : Store) (key : CStr) (d : BitVec 32) :
    ConfigStore.configGetI32 st.entries key d =
      ((st.entries.lookup (.i32, key)).map (·.value.asI32)).getD d := by
  unfold ConfigStore.configGetI32
  rw [entryAt_findEntry]

/-- Every value of the schema is of use to its reader, but for that byte. -/
theorem Reader.unset_of_rejects (h : st.Sound settings) {rd : Reader} {generation err : _}
    (hrejects : rd.Rejects (rd.get.exec err ⟨st, generation⟩).1) : rd.Unset st := by
  cases rd with
  | oled =>
      rcases read_setting h Oled.oledKey [1] with ⟨hnone, -⟩ | ⟨s, hs, hok, hget⟩
      · exact .inl hnone
      · have hget' : (Reader.oled.get.exec err ⟨st, generation⟩).1 = s := hget
        rw [hget'] at hrejects
        rcases hrejects with rfl | ⟨e, hparse⟩
        · exact .inr ⟨rfl, hs⟩
        · obtain ⟨c, hc⟩ := parse_oledSetting hok
          cases hc.symm.trans hparse
  | hub75 =>
      rcases read_setting h Hub75.hub75Key [1] with ⟨hnone, -⟩ | ⟨s, hs, hok, hget⟩
      · exact .inl hnone
      · have hget' : (Reader.hub75.get.exec err ⟨st, generation⟩).1 = s := hget
        obtain ⟨c, hc⟩ := parse_hub75Setting hok
        rw [hget'] at hrejects
        rcases hrejects with rfl | ⟨e, hparse⟩
        · cases hc
        · cases hc.symm.trans hparse
  | nodem =>
      rcases read_setting h Nodem.nodemKey [] with ⟨hnone, -⟩ | ⟨s, hs, hok, hget⟩
      · exact .inl hnone
      · have hget' : (Reader.nodem.get.exec err ⟨st, generation⟩).1 = s := hget
        obtain ⟨c, hc⟩ := parse_nodemSetting hok
        rw [hget'] at hrejects
        cases hc.symm.trans hrejects
  | ping =>
      cases hlookup : st.entries.lookup (.i32, pingKey) with
      | none => exact .inl hlookup
      | some e =>
          obtain ⟨-, hok⟩ := h.table.entry _ e hlookup
          have hget : (Reader.ping.get.exec err ⟨st, generation⟩).1 = e.value.asI32 := by
            show ConfigStore.configGetI32 st.entries pingKey 0 = _
            rw [configGetI32_eq, hlookup]
            rfl
          rw [hget] at hrejects
          generalize hk : ((EntryType.i32, pingKey) : Key) = k at hok
          generalize e.value = v at hok hrejects
          cases hok with
          | ping hrange => exact absurd hrange hrejects
          | _ => exact absurd hk (by decide)

/-! ### The sets on a way -/

theorem mem_setsOf {l : List (Made Op Op.Res)} {op : Op} {r : op.Res} {k : Key}
    (hmem : ⟨op, r⟩ ∈ l) (hkey : op.setKey = some k) : ∃ err, (k, err) ∈ setsOf l := by
  rcases op with (_ | _ | ⟨key, val⟩ | ⟨key, val⟩ | _) | _ <;> cases hkey
  · exact ⟨r, List.mem_filterMap.mpr ⟨_, hmem, rfl⟩⟩
  · exact ⟨r, List.mem_filterMap.mpr ⟨_, hmem, rfl⟩⟩

/-- The set on a way through a reader, before calls that set nothing: its default, after it has
read what is of no use. -/
theorem Reader.Way.set {rd : Reader} {way rest before after : List (Made Op Op.Res)}
    (hway : rd.Way way) (hrest : setsOf rest = []) {op : Op} {r : op.Res} {k : Key}
    (heq : way ++ rest = before ++ ⟨op, r⟩ :: after) (hkey : op.setKey = some k) :
    op = rd.reset ∧ ∃ value, rd.Rejects value ∧ before = [⟨rd.get, value⟩] := by
  have hout : ∀ l, rest ≠ l ++ ⟨op, r⟩ :: after := by
    rintro l rfl
    obtain ⟨err, hmem⟩ := mem_setsOf (List.mem_append_right l List.mem_cons_self) hkey
    rw [hrest] at hmem
    cases hmem
  have hfirst : ∀ value : rd.get.Res, (⟨rd.get, value⟩ : Made Op Op.Res) ≠ ⟨op, r⟩ := by
    rintro value heq
    cases heq
    cases rd <;> cases hkey
  cases hway with
  | used value =>
      rcases before with _ | ⟨b, before⟩
      · exact absurd (List.cons.inj heq).1 (hfirst value)
      · exact absurd (List.cons.inj heq).2 (hout before)
  | replaced hrejects err =>
      rcases before with _ | ⟨b, _ | ⟨b', before⟩⟩
      · exact absurd (List.cons.inj heq).1 (hfirst _)
      · obtain ⟨rfl, hrest'⟩ := List.cons.inj heq
        cases (List.cons.inj hrest').1
        exact ⟨rfl, _, hrejects, rfl⟩
      · exact absurd (List.cons.inj (List.cons.inj heq).2).2 (hout before)

/-! ### In any interleaving -/

variable (statText) in
/-- Who makes a call that sets `k`, after the events `before`. -/
inductive SetBy (before : List SettingsEvent) (i : Thread) (op : Op) (k : Key) : Prop
  | command {line : Chars} {c : Command} {args : Chars} {pre post : List SettingsEvent}
      (hthread : i = .nodem)
      (hbefore : before = pre ++ .start .nodem (finish (processLine statText line)) :: post)
      (hsince : ∀ e ∈ post, e.Keeps .nodem) (hline : splitLine line = some (some c, args))
      (hstat : c ≠ .stat) (hkey : k ∈ c.keys)
  | registration {a : Attempt} {pre post : List SettingsEvent} (hthread : i = .modem)
      (hbefore : before = pre ++ .start .modem (stepRegister a) :: post)
      (hsince : ∀ e ∈ post, e.Keeps .modem) (hkey : k ∈ registrationKeys)
  | reader {rd : Reader} {pre post : List SettingsEvent} {err : ℤ} {value : rd.get.Res}
      {q : SettingsPool} (hop : op = rd.reset) (hkey : k = rd.key)
      (hbefore : before = pre ++ .call i rd.get err value :: post)
      (hsince : ∀ e ∈ post, e.Keeps i) (hnext : callsOf i post = [])
      (hreached : Run (SettingsStep statText) (.idle .factory) pre q)
      (hunset : rd.Unset q.shared.store)

instance (op : Op) : Nonempty op.Res := by
  rcases op with (_ | _ | _ | _ | _) | _
  · exact ⟨([] : CStr)⟩
  · exact ⟨(0 : BitVec 32)⟩
  · exact ⟨(0 : ℤ)⟩
  · exact ⟨(0 : ℤ)⟩
  · exact ⟨([] : List UInt8)⟩
  · exact ⟨()⟩

/-- The calls of a program whose result is not needed are its own. -/
theorem path_of_finish {α : Type} {p : Program α} {l : List (Made Op Op.Res)}
    (h : (finish p).Path l ()) : ∃ a, p.Path l a := by
  obtain ⟨l₁, a, l₂, h₁, h₂, rfl⟩ := Prog.path_bind.mp h
  obtain ⟨rfl, -⟩ := Prog.path_pure.mp h₂
  rw [List.append_nil]
  exact ⟨a, h₁⟩

/-- The calls of "#stat" are those of its reads. -/
theorem statLine_path {line args : Chars} {l : List (Made Op Op.Res)} {r : Option Outcome}
    (hline : splitLine line = some (some .stat, args)) (h : (processLine statText line).Path l r) :
    ∃ reads, statReads.Path l reads := by
  unfold processLine at h
  rw [hline] at h
  obtain ⟨l₁, o, l₂, h₁, h₂, rfl⟩ := Prog.path_bind.mp h
  obtain ⟨rfl, -⟩ := Prog.path_pure.mp h₂
  obtain ⟨l₃, text, l₄, h₃, h₄, rfl⟩ := Prog.path_bind.mp h₁
  obtain ⟨rfl, -⟩ := Prog.path_pure.mp h₄
  obtain ⟨l₅, reads, l₆, h₅, h₆, rfl⟩ := Prog.path_bind.mp h₃
  obtain ⟨rfl, -⟩ := Prog.path_pure.mp h₆
  simp only [List.append_nil]
  exact ⟨reads, h₅⟩

/-- A reader's default, where what it read is of the run. -/
theorem SetBy.of_way {pre post after : List SettingsEvent} {i : Thread} {op : Op} {err : ℤ}
    {r : op.Res} {p : SettingsPool} {prog : Program Unit}
    (hrun : Run (SettingsStep statText) (.idle .factory)
      (pre ++ .start i prog :: post ++ .call i op err r :: after) p)
    (hsince : ∀ e ∈ post, e.Keeps i) {rd : Reader} {way rest l : List (Made Op Op.Res)}
    (hway : rd.Way way) (hrest : setsOf rest = [])
    (heq : way ++ rest = callsOf i post ++ ⟨op, r⟩ :: l) {k : Key} (hkey : op.setKey = some k) :
    SetBy statText (pre ++ .start i prog :: post) i op k := by
  obtain ⟨rfl, value, hrejects, hcalls⟩ := hway.set hrest heq hkey
  have hfirst : callsOf i post = [] ++ ⟨rd.get, value⟩ :: [] := hcalls
  obtain ⟨post₁, w, post₂, rfl, -, hnext⟩ := callsOf_eq_append_cons hfirst
  have hsplit : pre ++ .start i prog :: (post₁ ++ .call i rd.get w value :: post₂) =
      (pre ++ .start i prog :: post₁) ++ .call i rd.get w value :: post₂ := by simp
  rw [hsplit, List.append_assoc, List.cons_append] at hrun
  obtain ⟨q, q', hreached, hstep, -⟩ := hrun.step_of_append
  have hsound := (reached_factory.run hreached).shared
  have hkey' : k = rd.key := by
    cases rd <;> exact (Option.some.inj hkey).symm
  cases hstep with
  | call _ w =>
      exact .reader rfl hkey' hsplit (fun e he => hsince e (List.mem_append_right _
        (List.mem_cons_of_mem _ he))) hnext hreached (Reader.unset_of_rejects hsound hrejects)

/-- **Who sets a key.** -/
theorem setBy_of_run {es : List SettingsEvent} {p : SettingsPool}
    (hrun : Run (SettingsStep statText) (.idle .factory) es p)
    {before after : List SettingsEvent} {i : Thread} {op : Op} {err : ℤ} {r : op.Res}
    (hes : es = before ++ .call i op err r :: after) {k : Key} (hkey : op.setKey = some k) :
    SetBy statText before i op k := by
  subst hes
  obtain ⟨pre, prog, post, l, rfl, hprog, hsince, hpath⟩ := Calls.Run.call_began hrun rfl
  have hmem : (⟨op, r⟩ : Made Op Op.Res) ∈ callsOf i post ++ ⟨op, r⟩ :: l :=
    List.mem_append_right _ List.mem_cons_self
  have hway : ∀ {rd : Reader}, rd.Way (callsOf i post ++ ⟨op, r⟩ :: l) →
      SetBy statText (pre ++ .start i prog :: post) i op k := fun hway =>
    .of_way hrun hsince hway (show setsOf ([] : List (Made Op Op.Res)) = [] from rfl)
      (List.append_nil _) hkey
  cases hprog with
  | line line =>
      obtain ⟨o, hline⟩ := path_of_finish hpath
      generalize hl : callsOf .nodem post ++ ⟨op, r⟩ :: l = calls at hline hmem
      cases processLine_replied statText hline with
      | ignored => cases hmem
      | @replied command args _ o hsplit hline hobeys =>
          obtain ⟨e, he⟩ := mem_setsOf hmem hkey
          obtain ⟨c, hc, hkeys⟩ := hobeys.reports.keys _ he
          cases hc
          by_cases hstat : c = .stat
          · subst hstat
            obtain ⟨reads, hreads⟩ := statLine_path hsplit hline
            obtain ⟨way, rest, hl', hway', hrest, -⟩ := statReads_path hreads
            exact .of_way hrun hsince hway' hrest (hl'.symm.trans hl.symm) hkey
          · exact .command rfl rfl hsince hsplit hstat hkeys
  | nodemConfig out =>
      obtain ⟨c, hread⟩ := path_of_finish hpath
      exact hway ((Reader.nodemConfigGet_does out).way hread)
  | oledConfig =>
      obtain ⟨c, hread⟩ := path_of_finish hpath
      exact hway (Reader.oledConfigRead_does.way hread)
  | hub75Config =>
      obtain ⟨c, hread⟩ := path_of_finish hpath
      exact hway (Reader.hub75ConfigRead_does.way hread)
  | register a hstrings =>
      have hfollows := follows_stepRegister (List.Subset.refl registrationKeys) hstrings
      exact .registration rfl rfl hsince
        (((Prog.Meets.path hfollows hpath fun _ _ => trivial).1 _ hmem).keys k hkey)
  | ping =>
      obtain ⟨c, hread⟩ := path_of_finish hpath
      exact hway (Reader.modemWsPingIntervalS_does.way hread)
  | status =>
      have hfollows := (Starts.status : Starts statText _ _).follows
      have hnone := ((Prog.Meets.path hfollows hpath fun _ _ => trivial).1 _ hmem).keys k hkey
      cases hnone

/-! ### The settings in any interleaving -/

/-- What holds of the store: it has, in RAM and in flash, only settings and only values of theirs,
and `last_page` reads as never stored. -/
structure SettingsHeld (st : Store) : Prop where
  stored : ∀ k e, st.entries.lookup k = some e → SettingOk k e.value
  saved : ∀ name b, st.flash name = some b →
    ∃ k v, SettingOk k v ∧ name = fullKey k ∧ b = v.bytes
  lastPage : ∀ bufLen d, ConfigStore.configGetStr st.entries (cs "last_page") bufLen d =
    clip bufLen d

theorem SettingsHeld.of_sound (h : st.Sound settings) : SettingsHeld st where
  stored k e he := (h.table.entry k e he).2
  saved name b hb := by
    obtain ⟨k, -, v, hv, hname, hbytes⟩ := h.flash name b hb
    exact ⟨k, v, hv, hname, hbytes⟩
  lastPage bufLen d := by
    rcases h.configGetStr (cs "last_page") bufLen d with ⟨-, hget⟩ | ⟨s, -, hkey, -⟩
    · exact hget
    · exact absurd hkey (by decide)

/-- A call that sets a key came to what saving the value came to: it was not refused. -/
def NotRefused : SettingsEvent → Prop
  | .call _ (.store (.setStr _ _)) err r => r = err
  | .call _ (.store (.setI32 _ _)) err r => r = err
  | _ => True

theorem notRefused_of_run {es : List SettingsEvent} {p p' : SettingsPool}
    (hrun : Run (SettingsStep statText) p es p') (hp : Reached p) : ∀ e ∈ es, NotRefused e := by
  rintro (⟨i, prog⟩ | ⟨i, op, err, r⟩ | order) he
  · trivial
  · obtain ⟨hop, s, hs, rfl⟩ := Calls.Run.call_of_mem hrun settings_keep hp he
    rcases op with (_ | _ | _ | _ | _) | output
    · trivial
    · trivial
    · have hset := hop.schema _ rfl
      exact (hs.configSetStr hset.1 hset.2 err).1.result
    · have hset := hop.schema _ rfl
      exact (hs.configSetI32 hset.1 hset.2 err).1.result
    · trivial
    · trivial
  · trivial

/-- **The settings in any interleaving** of the threads, with any saves failing and any resets:
the store holds settings only, no set is ever refused, and each is made by a command for its key,
by a registration, or by a reader that has just read the key when nothing was set there. -/
theorem settings_sound {es : List SettingsEvent} {p : SettingsPool}
    (hrun : Run (SettingsStep statText) (.idle .factory) es p) :
    SettingsHeld p.shared.store ∧ (∀ e ∈ es, NotRefused e) ∧
      ∀ before i op err r after, es = before ++ .call i op err r :: after →
        ∀ k, op.setKey = some k → SetBy statText before i op k :=
  ⟨.of_sound (reached_factory.run hrun).shared, notRefused_of_run hrun reached_factory,
    fun _ _ _ _ _ _ hes _ hkey => setBy_of_run hrun hes hkey⟩

/-- `display_task` finds nothing set, and stores its default over what "#oled" has set since. -/
theorem settings_sound_raced : ∃ (es : List SettingsEvent) (p : SettingsPool), es.length = 6 ∧
    p.shared.store.entries.lookup (.str, Oled.oledKey) =
      some ⟨Oled.oledKey, .str Oled.oledDefaultText⟩ ∧
    SettingsHeld p.shared.store ∧ (∀ e ∈ es, NotRefused e) ∧
      ∀ before i op err r after, es = before ++ .call i op err r :: after →
        ∀ k, op.setKey = some k → SetBy (fun _ => []) before i op k := by
  have hread : Run (SettingsStep fun _ => []) (.idle .factory) _ _ :=
    .snoc (.nil _) (.start (i := .display) rfl .oledConfig)
  have hget := hread.snoc (.call (i := .display) rfl 0)
  have hline := hget.snoc (.start (i := .nodem) rfl (.line ['#', 'o', 'l', 'e', 'd']))
  have hset := hline.snoc (.call (i := .nodem) rfl 0)
  have hchanged := hset.snoc (.call (i := .nodem) rfl 0)
  have hdefault := hchanged.snoc (.call (i := .display) rfl 0)
  exact ⟨_, _, rfl, by decide +kernel, settings_sound hdefault⟩

end NodemFirmware.Control
