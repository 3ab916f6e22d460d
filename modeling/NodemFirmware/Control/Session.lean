import NodemFirmware.Control.Account

/-! # Lines given to a running device

`nodem_task` is given some lines, one after the other, and reads its config now and then, while the
other threads go on (`Session`).  Once the drivers have read their settings (`DriversRead`), none of
the others sets what "#cfg" prints, as long as the interpreter does not mark "oled" as never set
(`session_settled`): a driver stores a default only if it finds nothing.

So a key that the interpreter set holds that value, saved, at the end (`holds_of_set`). -/

namespace NodemFirmware.Control

open CText Calls ConfigStore Str Transition
open Cloud hiding Key registrationPending deviceRegistered

variable {statText : StatReads → List UInt8}

/-! ### The drivers' settings -/

/-- Both are set, to what the drivers have a use for. -/
structure DriversSet (s : Settings) : Prop where
  sound : s.store.Sound settings
  oled : ¬ Reader.oled.Unset s.store
  hub75 : ¬ Reader.hub75.Unset s.store

/-- The drivers have read their settings, and are not in the middle of reading them again. -/
structure DriversRead (p : SettingsPool) : Prop where
  oled : ¬ Reader.oled.Unset p.shared.store
  hub75 : ¬ Reader.hub75.Unset p.shared.store
  displayIdle : p.threads .display = pure ()
  hub75Idle : p.threads .hub75 = pure ()

/-- What "oled" must not be set to for its reader to keep it. -/
def Op.marks : Op := .store (.setStr Oled.oledKey [1])

/-- What the threads call while the drivers' settings are set. -/
def Thread.SettledCalls : Thread → Op → Prop
  | nodem => fun op => op.Follows settingKeys ∧ op ≠ Op.marks
  | modem => Op.Follows Thread.modem.keys
  | _ => Op.Follows []

/-- What a driver reads is of use to it. -/
def OfUse (op : Op) (r : op.Res) : Prop :=
  ∀ rd ∈ [Reader.oled, Reader.hub75], ∀ value : rd.get.Res,
    (⟨op, r⟩ : Made Op Op.Res) = ⟨rd.get, value⟩ → ¬ rd.Rejects value

theorem Thread.SettledCalls.follows {i : Thread} {op : Op} (h : i.SettledCalls op) :
    op.Follows i.keys := by
  cases i with
  | nodem => exact h.1
  | modem => exact h
  | display => exact ⟨h.schema, fun k hk => by cases h.keys k hk⟩
  | hub75 => exact ⟨h.schema, fun k hk => by cases h.keys k hk⟩
  | modemStatus => exact h

/-- The keys that "#cfg" prints. -/
def cfgKeys : List Key :=
  [(.str, Oled.oledKey), (.str, Hub75.hub75Key), (.str, Nodem.nodemKey)]

/-- Only the interpreter sets them. -/
theorem Thread.SettledCalls.nodem_of_cfg {i : Thread} {op : Op} (h : i.SettledCalls op) {k : Key}
    (hkey : op.setKey = some k) (hcfg : k ∈ cfgKeys) : i = .nodem := by
  have hmodem : ∀ k ∈ Thread.modem.keys, k ∉ cfgKeys := by decide
  cases i with
  | nodem => rfl
  | modem => exact absurd hcfg (hmodem k (h.keys k hkey))
  | display => cases h.keys k hkey
  | hub75 => cases h.keys k hkey
  | modemStatus => cases h.keys k hkey

/-! ### What a call leaves -/

section calls

variable {keys : List Key} {op : Op} {s : Settings}

/-- A key is set to a value and saved. -/
structure Holds (st : Store) (k : Key) (v : Value) : Prop where
  lookup : st.entries.lookup k = some ⟨k.2, v⟩
  saved : st.flash (fullKey k) = some v.bytes

theorem Op.Follows.holds {key val : CStr} (h : (Op.store (.setStr key val)).Follows keys)
    (hs : s.store.Sound settings) :
    Holds ((Op.store (.setStr key val)).exec 0 s).2.store (.str, key) (.str val) := by
  have hsop := h.schema _ rfl
  have hto := (hs.configSetStr hsop.1 hsop.2 0).1
  exact ⟨(hto.lookup _).trans (if_pos rfl), by
    show (ConfigStore.configSetStr s.store key val 0).2.flash _ = _
    rw [hto.flash, if_pos rfl]
    exact if_pos rfl⟩

theorem cfgKeys_subset : cfgKeys ⊆ settingKeys := by decide

/-- **A call** of a thread keeps the drivers' settings set. -/
theorem settled_exec {i : Thread} (h : DriversSet s) (hop : i.SettledCalls op) (err : ℤ) :
    DriversSet (op.exec err s).2 ∧ OfUse op (op.exec err s).1 := by
  have hkeep : ∀ rd : Reader, rd.key ∈ cfgKeys → ¬ rd.Unset s.store →
      ¬ rd.Unset (op.exec err s).2.store := by
    intro rd hcfg hset
    by_cases hkey : op.setKey = some rd.key
    · have hi := hop.nodem_of_cfg hkey hcfg
      subst hi
      obtain ⟨hfollows, hmark⟩ := hop
      rcases op with (_ | _ | ⟨key, val⟩ | ⟨key, val⟩ | _) | _
      · cases hkey
      · cases hkey
      · have hsop := hfollows.schema _ rfl
        have hlookup := ((h.sound.configSetStr hsop.1 hsop.2 err).1.lookup _).trans (if_pos rfl)
        have hkey' : ((EntryType.str, key) : Key) = rd.key := Option.some.inj hkey
        rintro (hnone | ⟨rfl, hval⟩)
        · rw [← hkey'] at hnone
          cases hlookup.symm.trans hnone
        · cases hkey'
          cases hlookup.symm.trans hval
          exact hmark rfl
      · rw [← Option.some.inj hkey] at hcfg
        simp [cfgKeys] at hcfg
      · cases hkey
      · cases hkey
    · have hsame := (hop.follows.leaves h.sound (cfgKeys_subset hcfg) hkey err).1
      unfold Reader.Unset
      rw [hsame]
      exact hset
  refine ⟨⟨hop.follows.sound h.sound err, hkeep .oled (by decide) h.oled,
    hkeep .hub75 (by decide) h.hub75⟩, ?_⟩
  rintro rd hrd value heq hrejects
  cases heq
  have hunset := Reader.unset_of_rejects h.sound hrejects
  rcases List.mem_cons.mp hrd with rfl | hrd
  · exact h.oled hunset
  · rw [List.mem_singleton.mp hrd] at hunset
    exact h.hub75 hunset

end calls

/-! ### Runs without a reset -/

section runs

variable {es : List SettingsEvent} {p q : SettingsPool}

/-- A key that no call sets is as it was. -/
theorem kept_of_run (hrun : Run (SettingsStep statText) p es q) (hp : Reached p)
    (hreset : ∀ order, .reset order ∉ es) {k : Key} (hk : k ∈ settingKeys)
    (hno : ∀ i op err r, .call i op err r ∈ es → op.setKey ≠ some k) :
    q.shared.store.entries.lookup k = p.shared.store.entries.lookup k ∧
      q.shared.store.flash (fullKey k) = p.shared.store.flash (fullKey k) := by
  induction hrun with
  | nil => exact ⟨rfl, rfl⟩
  | @snoc q q' es e hrun hstep ih =>
      have hold := ih (fun order h => hreset order (List.mem_append_left _ h))
        fun i op err r h => hno i op err r (List.mem_append_left _ h)
      have hmem : e ∈ es ++ [e] := List.mem_append_right _ List.mem_cons_self
      cases hstep with
      | start hidle hprog => exact hold
      | @call i op f hnext err =>
          have hq := hp.run hrun
          have hmeets := hq.threads i
          rw [hnext] at hmeets
          have hleft := hmeets.1.leaves hq.shared hk (hno _ _ _ _ hmem) err
          exact ⟨hleft.1.trans hold.1, hleft.2.trans hold.2⟩
      | reset order => exact absurd hmem (hreset order)

/-- **The last set** of a key, if it was saved, is what the key holds. -/
theorem holds_of_set {pre post : List SettingsEvent} {i : Thread} {key val : CStr} {r : ℤ}
    (hrun : Run (SettingsStep statText) p
      (pre ++ .call i (.store (.setStr key val)) 0 r :: post) q) (hp : Reached p)
    (hreset : ∀ order, .reset order ∉ post)
    (hno : ∀ i op err r, .call i op err r ∈ post → op.setKey ≠ some (.str, key)) :
    Holds q.shared.store (.str, key) (.str val) := by
  obtain ⟨q₁, q₂, hbefore, hstep, hafter⟩ := hrun.step_of_append
  have hq₁ := hp.run hbefore
  have hq₂ := hstep.sound settings_keep hq₁
  cases hstep with
  | call hnext =>
      have hmeets := hq₁.threads i
      rw [hnext] at hmeets
      have hholds := hmeets.1.holds hq₁.shared
      have hkept := kept_of_run hafter hq₂ hreset (hmeets.1.schema _ rfl).1 hno
      exact ⟨hkept.1.trans hholds.lookup, hkept.2.trans hholds.saved⟩

/-- A program of the interpreter that does not mark "oled" as never set. -/
def Unmarking (prog : Program Unit) : Prop :=
  prog.Meets (· ≠ Op.marks) (fun _ _ => True) fun _ => True

/-- **While the drivers' settings are set**, the other threads set nothing that "#cfg" prints. -/
theorem session_settled (hrun : Run (SettingsStep statText) p es q) (hp : Reached p)
    (hread : DriversRead p) (hreset : ∀ order, .reset order ∉ es)
    (hnodem : Unmarking (p.threads .nodem))
    (hprogs : ∀ prog, .start .nodem prog ∈ es → Unmarking prog) :
    (∀ i op err r, .call i op err r ∈ es → i.SettledCalls op) ∧ DriversSet q.shared := by
  have hfinish : ∀ {α : Type} {prog : Program α} {i : Thread},
      prog.Meets i.SettledCalls OfUse (fun _ => True) →
        (finish prog).Meets i.SettledCalls OfUse fun _ => True :=
    fun h => h.bind fun _ => trivial
  have hinterpreter : ∀ {prog : Program Unit}, Follows settingKeys prog → Unmarking prog →
      prog.Meets Thread.nodem.SettledCalls OfUse fun _ => True := fun hfollows hunmarking =>
    (hfollows.and hunmarking).mono (fun _ => id) (fun _ _ _ => trivial) fun _ _ => trivial
  have hothers : ∀ {prog : Program Unit} {keys : List Key}, Follows keys prog →
      prog.Meets (Op.Follows keys) OfUse fun _ => True := fun hfollows =>
    hfollows.mono (fun _ => id) (fun _ _ _ => trivial) fun _ => id
  let starts : Thread → Program Unit → Prop := fun i prog =>
    Starts statText i prog ∧ (i = .nodem → Unmarking prog)
  have hrun' : Run (Pool.Step Op.exec (fun (_ : List CStr) s => s) starts) p es q :=
    Calls.Run.restrict hrun (fun i prog hmem hprog => ⟨hprog, by rintro rfl; exact hprogs _ hmem⟩)
      hreset
  have hkeeps : Keeps Op.exec (fun (_ : List CStr) s => s) starts Thread.SettledCalls OfUse
      DriversSet := by
    refine ⟨fun i err op s hs hop => settled_exec hs hop err, fun _ _ hs => hs, ?_⟩
    rintro i prog ⟨hprog, hunmarking⟩
    have hfollows := hprog.follows
    cases hprog with
    | line line => exact hinterpreter hfollows (hunmarking rfl)
    | nodemConfig out => exact hinterpreter hfollows (hunmarking rfl)
    | oledConfig =>
        exact hfinish (Reader.oledConfigRead_does.meets (.get rfl trivial) fun r hr hrejects =>
          absurd hrejects (hr .oled List.mem_cons_self r rfl))
    | hub75Config =>
        exact hfinish (Reader.hub75ConfigRead_does.meets (.get rfl trivial) fun r hr hrejects =>
          absurd hrejects (hr .hub75 (by decide) r rfl))
    | register a h => exact hothers hfollows
    | ping => exact hothers hfollows
    | status => exact hothers hfollows
  have hstart : p.Sound Thread.SettledCalls OfUse DriversSet := by
    refine ⟨⟨hp.shared, hread.oled, hread.hub75⟩, fun i => ?_⟩
    cases i with
    | nodem => exact hinterpreter (hp.threads .nodem) hnodem
    | display => rw [hread.displayIdle]; trivial
    | hub75 => rw [hread.hub75Idle]; trivial
    | modem => exact hothers (hp.threads .modem)
    | modemStatus => exact hothers (hp.threads .modemStatus)
  exact ⟨fun i op err r hmem => (Calls.Run.call_of_mem hrun' hkeeps hstart hmem).1,
    (Calls.Run.sound hrun' hkeeps hstart).shared⟩

end runs

/-! ### Sessions -/

variable (statText)

/-- What `nodem_task` begins when it is given some lines: it processes one after the other, and may
read its config before each. -/
inductive Fed : List Chars → List (Program Unit) → Prop
  | done : Fed [] []
  | line {line : Chars} {lines : List Chars} {progs : List (Program Unit)} (h : Fed lines progs) :
      Fed (line :: lines) (finish (processLine statText line) :: progs)
  | config {line : Chars} {lines : List Chars} {progs : List (Program Unit)} (out : Nodem.Config)
      (h : Fed (line :: lines) progs) : Fed (line :: lines) (finish (nodemConfigGet out) :: progs)

/-- The same with the calls that it makes, and what the lines come to. -/
inductive Answered :
    List (Chars × Option Outcome) → List (Program Unit) → List (Made Op Op.Res) → Prop
  | done : Answered [] [] []
  | line {line : Chars} {o : Option Outcome} {answers : List (Chars × Option Outcome)}
      {progs : List (Program Unit)} {l calls : List (Made Op Op.Res)}
      (hline : (processLine statText line).Path l o) (h : Answered answers progs calls) :
      Answered ((line, o) :: answers) (finish (processLine statText line) :: progs) (l ++ calls)
  | config {a : Chars × Option Outcome} {answers : List (Chars × Option Outcome)}
      {progs : List (Program Unit)} {out c : Nodem.Config} {l calls : List (Made Op Op.Res)}
      (hread : (nodemConfigGet out).Path l c) (h : Answered (a :: answers) progs calls) :
      Answered (a :: answers) (finish (nodemConfigGet out) :: progs) (l ++ calls)

/-- `nodem_task` is given some lines and is done with them, and all that it saves is saved, while
the other threads make any calls; there is no reset. -/
structure Session (p : SettingsPool) (es : List SettingsEvent) (q : SettingsPool)
    (lines : List Chars) : Prop where
  run : Run (SettingsStep statText) p es q
  idle : p.threads .nodem = pure ()
  done : q.threads .nodem = pure ()
  noReset : ∀ order, .reset order ∉ es
  fed : Fed statText lines (startsOf .nodem es)
  saved : ∀ op err r, .call .nodem op err r ∈ es → err = 0

variable {statText} {lines : List Chars} {progs : List (Program Unit)}
  {answers : List (Chars × Option Outcome)} {calls : List (Made Op Op.Res)}

/-- Lines that are processed while no other thread does anything. -/
theorem session_alone (statText : StatReads → List UInt8) (lines : List Chars) (s : Settings) :
    ∃ es s', Session statText (.idle s) es (.idle s') lines := by
  induction lines generalizing s with
  | nil =>
      exact ⟨[], s, .nil _, rfl, rfl, (fun _ h => by cases h), .done, fun _ _ _ h => by cases h⟩
  | cons line lines ih =>
      have hfirst := run_alone 0 s (.line line : Starts statText .nodem _)
      obtain ⟨es, s', h⟩ := ih ((finish (processLine statText line)).run (Op.exec 0) s).2
      refine ⟨_, s', hfirst.append h.run, rfl, rfl, fun order hmem => ?_, ?_,
        fun op err r hmem => ?_⟩
      · rcases List.mem_append.mp hmem with hmem | hmem
        · rcases List.mem_cons.mp hmem with heq | hmem
          · cases heq
          · obtain ⟨op, r, heq⟩ := call_of_mem_aloneEvents hmem
            cases heq
        · exact h.noReset order hmem
      · have hstarts : startsOf .nodem (.start .nodem (finish (processLine statText line)) ::
            aloneEvents Op.exec 0 .nodem (finish (processLine statText line)) s :
              List SettingsEvent) = [finish (processLine statText line)] :=
          congrArg (_ :: ·) (startsOf_aloneEvents _ _)
        rw [startsOf_append, hstarts]
        exact .line h.fed
      · rcases List.mem_append.mp hmem with hmem | hmem
        · rcases List.mem_cons.mp hmem with heq | hmem
          · cases heq
          · obtain ⟨op, r, heq⟩ := call_of_mem_aloneEvents hmem
            cases heq
            rfl
        · exact h.saved op err r hmem

/-- What is begun for the lines is theirs, or reads the config. -/
theorem Fed.of_mem (h : Fed statText lines progs) {prog : Program Unit} (hmem : prog ∈ progs) :
    (∃ line ∈ lines, prog = finish (processLine statText line)) ∨
      ∃ out, prog = finish (nodemConfigGet out) := by
  induction h with
  | done => cases hmem
  | @line line lines progs h ih =>
      rcases List.mem_cons.mp hmem with rfl | hmem
      · exact .inl ⟨line, List.mem_cons_self, rfl⟩
      · exact (ih hmem).imp_left fun ⟨l, hl, heq⟩ => ⟨l, List.mem_cons_of_mem _ hl, heq⟩
  | config out h ih =>
      rcases List.mem_cons.mp hmem with rfl | hmem
      · exact .inr ⟨out, rfl⟩
      · exact ih hmem

/-- Ways through what is begun answer the lines. -/
theorem Fed.answered (h : Fed statText lines progs) {ls : List (List (Made Op Op.Res))}
    (hls : List.Forall₂ (fun prog l => prog.Path l ()) progs ls) :
    ∃ answers, answers.map Prod.fst = lines ∧ Answered statText answers progs ls.flatten := by
  induction h generalizing ls with
  | done =>
      cases hls
      exact ⟨[], rfl, .done⟩
  | @line line lines progs h ih =>
      cases hls with
      | cons hpath hrest =>
          obtain ⟨o, ho⟩ := path_of_finish hpath
          obtain ⟨answers, rfl, hanswers⟩ := ih hrest
          exact ⟨(line, o) :: answers, rfl, .line ho hanswers⟩
  | config out h ih =>
      cases hls with
      | cons hpath hrest =>
          obtain ⟨c, hc⟩ := path_of_finish hpath
          obtain ⟨_ | ⟨a, answers⟩, heq, hanswers⟩ := ih hrest
          · cases heq
          · exact ⟨a :: answers, heq, .config hc hanswers⟩

/-- All the keys that some calls set are among some. -/
def SetsOnly (keys : List Key) (l : List (Made Op Op.Res)) : Prop :=
  ∀ c ∈ l, ∀ k, c.1.setKey = some k → k ∈ keys

section sets

variable {keys keys' : List Key} {l l' : List (Made Op Op.Res)}

theorem setsOnly_append (h : SetsOnly keys l) (h' : SetsOnly keys l') : SetsOnly keys (l ++ l') :=
  fun c hc => (List.mem_append.mp hc).elim (h c) (h' c)

theorem SetsOnly.mono (h : SetsOnly keys l) (hsub : keys ⊆ keys') : SetsOnly keys' l :=
  fun c hc k hk => hsub (h c hc k hk)

theorem setsOnly_stored (output : Output) (s : CStr) :
    SetsOnly [(.str, output.key)] (storedAndAnnounced output s) := by
  intro c hc k hk
  simp only [storedAndAnnounced, List.mem_cons, List.not_mem_nil, or_false] at hc
  rcases hc with rfl | rfl <;> cases hk
  exact List.mem_singleton_self _

end sets

/-- The first line's calls are between reads of the config and the rest. -/
theorem Answered.next {line : Chars} {o : Option Outcome}
    (h : Answered statText ((line, o) :: answers) progs calls) :
    ∃ reads l progs' calls', calls = reads ++ (l ++ calls') ∧
      SetsOnly [Reader.nodem.key] reads ∧ (processLine statText line).Path l o ∧
        Answered statText answers progs' calls' := by
  generalize hall : (line, o) :: answers = all at h
  induction h with
  | done => cases hall
  | @line line' o' answers' progs' l calls' hline h =>
      cases hall
      exact ⟨[], l, progs', calls', rfl, (fun c hc => by cases hc), hline, h⟩
  | @config a answers' progs' out c l calls' hread h ih =>
      obtain ⟨reads, l', progs'', calls'', rfl, hreads, hline, hrest⟩ := ih hall
      have hfollows : Follows [Reader.nodem.key] (nodemConfigGet out) :=
        follows_nodemConfigGet (List.mem_singleton_self _) out
      have hread' : SetsOnly [Reader.nodem.key] l := fun x hx =>
        ((Prog.Meets.path hfollows hread fun _ _ => trivial).1 x hx).keys
      exact ⟨l ++ reads, l', progs'', calls'', by simp, setsOnly_append hread' hreads, hline, hrest⟩

end NodemFirmware.Control
