import NodemFirmware.Hub75.Task

/-! # Changes of the "hub75" config

A change is stored, counted and given in three steps, while `hub75_task` reads the count twice,
the stored value once, and then waits.

* `Task.Notices` is what every step keeps: a change that was counted after the loop read the count
  is seen before the loop waits, or wakes it.
* `changes_applied`: a loop that is blocked with nothing left to notice has applied the config that
  is stored, as long as the count does not come round while it is not looked at.
* `changes_lost_while_held`: while the panel is held it is not looked at, so it may. -/

namespace NodemFirmware.Hub75

open CText ConfigStore Semaphore Transition

/-! ### The stored config -/

/-- The default is read back, whether it could be stored or not. -/
theorem storedConfig_reset (st : Store) (err : ℤ) :
    storedConfig (configSetStr st hub75Key hub75DefaultText err).2 =
      parsedConfig hub75DefaultText := by
  have hkey : hub75Key.length ≤ maxKeyLen := by decide
  have hlen : ¬ (maxKeyLen < hub75Key.length ∨ maxStrLen < hub75DefaultText.length) := by decide
  have hclip : clip (maxStrLen + 1) hub75DefaultText = hub75DefaultText := by decide
  rw [configSetStr, if_neg hlen, hclip, configSet_eq]
  split
  next hnone =>
    have hmissing := ((put_eq_none hkey).mp hnone).1
    have hget : configGetStr st.entries hub75Key hub75ValueLen [1] = [1] := by
      unfold configGetStr
      rw [entryAt_findEntry, show st.entries.lookup (.str, hub75Key) = none from hmissing]
      rfl
    simp only [storedConfig, hub75ConfigRead, hget, if_true]
  next t ht =>
    have hlookup := lookup_put hkey ht (.str, hub75Key)
    rw [if_pos (by rfl)] at hlookup
    have hget : configGetStr t hub75Key hub75ValueLen [1] = hub75DefaultText := by
      unfold configGetStr
      rw [entryAt_findEntry, hlookup]
      rfl
    simp only [storedConfig, hub75ConfigRead, hget]
    rfl

/-- A value that is well formed is the config. -/
theorem storedConfig_of_parse {st : Store} {c : Option Config}
    (hset : configGetStr st.entries hub75Key hub75ValueLen [1] ≠ [1])
    (hparse : hub75ConfigParse (configGetStr st.entries hub75Key hub75ValueLen [1]) = .ok c) :
    storedConfig st = c := by
  simp only [storedConfig, hub75ConfigRead, if_neg hset, hparse]

namespace Task

/-! ### What is still to be noticed -/

/-- The loop is about to look at the hold and at the count. -/
def Awake (s : Task) : Prop := s.pc = .top ∨ s.pc = .wake ∧ s.hub75Wake.pending = false

/-- The loop is about to look at the count. -/
def Looks (s : Task) : Prop :=
  s.Awake ∨ s.pc = .holdStop ∨ s.pc = .release ∨ s.pc = .check ∨ s.pc = .readGeneration

/-- The config that is applied, or about to be. -/
def Applies (s : Task) (c : Option Config) : Prop :=
  match s.pc with
  | .readConfig | .resetConfig => True
  | .applyStop | .apply => s.config = c
  | _ => s.applied = some c

structure Notices (s : Task) : Prop where
  wake : s.hub75Wake.Ok hub75WakeLimit
  pending : s.hub75Wake.pending = true → s.pc = .wake
  generation : s.hub75Generation = s.generation + BitVec.ofNat 32 s.changes
  stored : s.bumps = 0 → s.changes = 0 → s.Applies (storedConfig s.store)
  counted : 0 < s.changes → s.held = false → s.Looks ∨ 0 < s.hub75Wake.count ∨ 0 < s.gives
  hold : s.held ≠ s.hub75Hold → s.Awake ∨ 0 < s.hub75Wake.count ∨ 0 < s.holdGives

variable {s : Task}

theorem start_notices (store : Store) (hub75Generation : BitVec 32) (active : Config) :
    (start store hub75Generation active).Notices where
  wake := Sem.empty_ok
  pending := nofun
  generation := by
    show hub75Generation = hub75Generation - 1 + 1
    rw [BitVec.sub_add_cancel]
  stored := nofun
  counted := fun _ _ => .inl (.inl (.inl rfl))
  hold := fun h => absurd rfl h

/-- What the loop shares with the calls of the other threads, but for the store. -/
def counts (s : Task) : BitVec 32 × BitVec 32 × ℕ × Bool × Bool × Sem × ℕ × ℕ × ℕ :=
  (s.hub75Generation, s.generation, s.changes, s.held, s.hub75Hold, s.hub75Wake, s.bumps, s.gives,
    s.holdGives)

theorem applyConfig_counts (s : Task) (started : Bool) :
    (s.applyConfig started).counts = s.counts ∧
      (s.applyConfig started).applied = some s.config ∧
      (s.applyConfig started).store = s.store ∧ (s.applyConfig started).pc = .overload := by
  unfold applyConfig
  cases s.config with
  | none => exact ⟨rfl, rfl, rfl, rfl⟩
  | some c => cases started <;> exact ⟨rfl, rfl, rfl, rfl⟩

/-- The loop is past its look at the count, and does not wait. -/
def Late (s : Task) : Prop := ¬ s.Looks ∧ s.pc ≠ .wake

namespace Notices

variable {t : Task}

/-- A give is kept, or wakes the loop. -/
theorem given (h : s.Notices) :
    0 < (s.hub75Wake.give hub75WakeLimit).count ∨ s.pc = .wake := by
  cases hpending : s.hub75Wake.pending with
  | true => exact .inr (h.pending hpending)
  | false => exact .inl (Sem.give_count (by decide) hpending)

/-- After a give there is nothing that the loop would not notice. -/
theorem giveWake (h : s.Notices) (gives holdGives : ℕ) :
    { s.giveWake with gives := gives, holdGives := holdGives }.Notices where
  wake := h.wake.give
  pending := fun hpending =>
    absurd ((Sem.give_pending _ _).symm.trans hpending) Bool.false_ne_true
  generation := h.generation
  stored := h.stored
  counted := fun _ _ => by
    rcases h.given with hcount | hpc
    · exact .inr (.inl hcount)
    · exact .inl (.inl (.inr ⟨hpc, Sem.give_pending _ _⟩))
  hold := fun _ => by
    rcases h.given with hcount | hpc
    · exact .inr (.inl hcount)
    · exact .inl (.inr ⟨hpc, Sem.give_pending _ _⟩)

/-- The hold is looked at. -/
theorem readHold (h : s.Notices) (hpc : s.pc = .top) : s.readHold.Notices := by
  have hstored : s.bumps = 0 → s.changes = 0 → s.applied = some (storedConfig s.store) := by
    simpa only [Applies, hpc] using h.stored
  have hpending : s.hub75Wake.pending = true → ∀ {p : Prop}, p := fun hp => by
    cases hpc.symm.trans (h.pending hp)
  unfold Task.readHold
  split_ifs with hchanged hhold hrunning
  · exact { h with
      pending := fun hp => hpending hp
      stored := hstored
      counted := fun _ => nofun
      hold := fun hne => absurd hhold.symm hne }
  · exact { h with
      pending := fun hp => hpending hp
      stored := hstored
      counted := fun _ => nofun
      hold := fun hne => absurd hhold.symm hne }
  · exact { h with
      pending := fun hp => hpending hp
      stored := hstored
      counted := fun _ _ => .inl (.inr (.inr (.inl rfl)))
      hold := fun hne => absurd (by simpa using hhold) hne.symm }
  · exact { h with
      pending := fun hp => hpending hp
      stored := hstored
      counted := fun _ _ => .inl (.inr (.inr (.inr (.inl rfl))))
      hold := fun hne => absurd (not_not.mp hchanged).symm hne }

/-- The count is looked at: it differs if there was any change. -/
theorem check (h : s.Notices) (hpc : s.pc = .check) (hfew : s.changes < 2 ^ 32) :
    (if s.hub75Generation ≠ s.generation ∧ s.held = false then { s with pc := .readGeneration }
      else { s with pc := .overload }).Notices := by
  have hstored : s.bumps = 0 → s.changes = 0 → s.applied = some (storedConfig s.store) := by
    simpa only [Applies, hpc] using h.stored
  have hpending : s.hub75Wake.pending = true → ∀ {p : Prop}, p := fun hp => by
    cases hpc.symm.trans (h.pending hp)
  have hnot : ¬ s.Awake := by
    rintro (hp | ⟨hp, -⟩) <;> cases hpc.symm.trans hp
  have hhold : ∀ {t : Task}, s.held ≠ s.hub75Hold →
      t.Awake ∨ 0 < s.hub75Wake.count ∨ 0 < s.holdGives :=
    fun hne => .inr ((h.hold hne).resolve_left hnot)
  split_ifs with hchanged
  · exact { h with
      pending := fun hp => hpending hp
      stored := hstored
      counted := fun _ _ => .inl (.inr (.inr (.inr (.inr rfl))))
      hold := hhold }
  · refine { h with
      pending := fun hp => hpending hp
      stored := hstored
      counted := fun hcount hheld => ?_
      hold := hhold }
    have hsame : s.generation + BitVec.ofNat 32 s.changes = s.generation := by
      rw [← h.generation]
      by_contra hne
      exact hchanged ⟨hne, hheld⟩
    have hzero : BitVec.ofNat 32 s.changes = 0#32 := by
      simpa using hsame
    have hval := congrArg BitVec.toNat hzero
    rw [BitVec.toNat_ofNat, Nat.mod_eq_of_lt hfew] at hval
    exact absurd hval (Nat.ne_of_gt hcount)

/-- Between the look at the count and the wait, the loop changes nothing that others count on. -/
theorem moves (h : s.Notices) (hlate : s.Late) (hsame : t.counts = s.counts)
    (hstored : s.bumps = 0 → s.changes = 0 → t.Applies (storedConfig t.store)) : t.Notices := by
  obtain ⟨hlooks, hpc⟩ := hlate
  simp only [counts, Prod.mk.injEq] at hsame
  obtain ⟨hg, hl, hc, hheld, hhold, hwake, hb, hgives, hhg⟩ := hsame
  refine ⟨?_, ?_, ?_, ?_, ?_, ?_⟩
  · rw [hwake]
    exact h.wake
  · rw [hwake]
    intro hp
    exact absurd (h.pending hp) hpc
  · rw [hg, hl, hc]
    exact h.generation
  · rw [hb, hc]
    exact hstored
  · rw [hc, hheld, hwake, hgives]
    exact fun hcount hoff => .inr ((h.counted hcount hoff).resolve_left hlooks)
  · rw [hheld, hhold, hwake, hhg]
    exact fun hne => .inr ((h.hold hne).resolve_left fun ha => hlooks (.inl ha))

theorem gotConfig (h : s.Notices) (hlate : s.Late) {c : Option Config}
    (hc : storedConfig s.store = c) : (s.gotConfig c).Notices := by
  refine h.moves hlate rfl fun _ _ => ?_
  unfold Task.gotConfig Applies
  split_ifs <;> exact hc.symm

theorem readConfig (h : s.Notices) (hpc : s.pc = .readConfig) : s.readConfig.Notices := by
  have hlate : s.Late := by simp [Late, Looks, Awake, hpc]
  have hreset : { s with pc := .resetConfig }.Notices := h.moves hlate rfl fun _ _ => trivial
  unfold Task.readConfig
  simp only
  split_ifs with hunset
  · exact hreset
  · split
    next c hparse => exact h.gotConfig hlate (storedConfig_of_parse hunset hparse)
    next => exact hreset

theorem resetConfig (h : s.Notices) (hpc : s.pc = .resetConfig) (err : ℤ) :
    (s.resetConfig err).Notices := by
  have hlate : s.Late := by simp [Late, Looks, Awake, hpc]
  refine h.moves hlate rfl fun _ _ => ?_
  unfold Task.resetConfig Task.gotConfig Applies
  split_ifs <;> exact (storedConfig_reset s.store err).symm

/-- The loop waits only if nothing was given since it looked. -/
theorem takeWake (h : s.Notices) (hpc : s.pc = .take) : s.takeWake.Notices := by
  have hlooks : ¬ s.Looks := by simp [Looks, Awake, hpc]
  have hidle : s.hub75Wake.pending = false := by
    by_contra hp
    cases hpc.symm.trans (h.pending (by simpa using hp))
  have hawake : 0 < s.hub75Wake.count → s.takeWake.Awake := by
    intro hcount
    refine .inr ⟨rfl, ?_⟩
    by_contra hp
    exact Nat.ne_of_gt hcount ((Sem.take_pending hidle).mp (Bool.of_not_eq_false hp))
  refine
    { wake := h.wake.take hidle
      pending := fun _ => rfl
      generation := h.generation
      stored := fun hb hc => ?_
      counted := fun hc hheld => ?_
      hold := fun hne => ?_ }
  · have hstored := h.stored hb hc
    simp only [Applies, hpc] at hstored
    exact hstored
  · rcases (h.counted hc hheld).resolve_left hlooks with hcount | hgives
    · exact .inl (.inl (hawake hcount))
    · exact .inr (.inr hgives)
  · rcases (h.hold hne).resolve_left fun ha => hlooks (.inl ha) with hcount | hgives
    · exact .inl (hawake hcount)
    · exact .inr (.inr hgives)

/-- **A step of the loop**, unless the count has come round. -/
theorem task (h : s.Notices) (err : ℤ) (started : Bool) (hfew : s.changes < 2 ^ 32)
    (hposs : s.pc = .wake → s.hub75Wake.pending = false) : (s.task err started).Notices := by
  have hidle : s.hub75Wake.pending = false := by
    by_contra hp
    exact hp (hposs (h.pending (Bool.of_not_eq_false hp)))
  have hpending : s.hub75Wake.pending = true → ∀ {p : Prop}, p :=
    fun hp => absurd (hidle.symm.trans hp) Bool.false_ne_true
  have happlied := h.stored
  have hhold : ¬ s.Awake → s.held ≠ s.hub75Hold → 0 < s.hub75Wake.count ∨ 0 < s.holdGives :=
    fun ha hne => (h.hold hne).resolve_left ha
  unfold Task.task
  cases hpc : s.pc with
  | top =>
      have htop : { s with passChanges := 0 }.Notices :=
        { h with stored := h.stored, counted := h.counted, hold := h.hold }
      exact htop.readHold hpc
  | holdStop =>
      simp only [Applies, hpc] at happlied
      exact { h with
        pending := fun hp => hpending hp
        stored := happlied
        counted := fun _ _ => .inl (.inr (.inr (.inr (.inl rfl))))
        hold := fun hne => .inr (hhold (by simp [Awake, hpc]) hne) }
  | release =>
      simp only [Applies, hpc] at happlied
      exact { h with
        pending := fun hp => hpending hp
        generation := by
          show s.hub75Generation + 1 = s.generation + BitVec.ofNat 32 (s.changes + 1)
          rw [h.generation, BitVec.ofNat_add, BitVec.add_assoc]
          rfl
        stored := fun _ => nofun
        counted := fun _ _ => .inl (.inr (.inr (.inr (.inl rfl))))
        hold := fun hne => .inr (hhold (by simp [Awake, hpc]) hne) }
  | check => exact h.check hpc hfew
  | readGeneration =>
      exact { h with
        pending := fun hp => hpending hp
        generation := by
          show s.hub75Generation = s.hub75Generation + 0#32
          rw [BitVec.add_zero]
        stored := fun _ _ => trivial
        counted := fun hc => absurd hc (Nat.lt_irrefl 0)
        hold := fun hne => .inr (hhold (by simp [Awake, hpc]) hne) }
  | readConfig => exact h.readConfig hpc
  | resetConfig => exact h.resetConfig hpc err
  | applyStop =>
      simp only [Applies, hpc] at happlied
      exact h.moves (by simp [Late, Looks, Awake, hpc]) rfl happlied
  | apply =>
      simp only [Applies, hpc] at happlied
      obtain ⟨hcounts, hset, hstore, hpc'⟩ := applyConfig_counts s started
      refine h.moves (by simp [Late, Looks, Awake, hpc]) hcounts fun hb hc => ?_
      simp only [Applies, hpc', hset, hstore, happlied hb hc]
  | overload =>
      simp only [Applies, hpc] at happlied
      exact h.moves (by simp [Late, Looks, Awake, hpc]) rfl happlied
  | clock =>
      simp only [Applies, hpc] at happlied
      refine h.moves (by simp [Late, Looks, Awake, hpc]) ?_ fun hb hc => ?_
      · simp only [readClock]
        split_ifs <;> rfl
      · simp only [readClock, afterTrip, Applies]
        split_ifs <;> exact happlied hb hc
  | tripStop =>
      simp only [Applies, hpc] at happlied
      refine h.moves (by simp [Late, Looks, Awake, hpc]) rfl fun hb hc => ?_
      simp only [tripStop, afterTrip, Applies]
      split_ifs <;> exact happlied hb hc
  | restart =>
      simp only [Applies, hpc] at happlied
      have hlate : s.Late := by simp [Late, Looks, Awake, hpc]
      cases started <;> exact h.moves hlate rfl happlied
  | take => exact h.takeWake hpc
  | wake =>
      simp only [Applies, hpc] at happlied
      exact { h with
        pending := fun hp => hpending hp
        stored := happlied
        counted := fun _ _ => .inl (.inl (.inl rfl))
        hold := fun _ => .inl (.inl rfl) }

end Notices

/-! ### Runs -/

/-- The calls of `hub75_config_set` succeed. -/
def SetSucceeds (s : Task) : TaskStep → Prop
  | .set value err => (hub75ConfigSet s.store value err).1 = 0
  | _ => True

instance (s : Task) : (e : TaskStep) → Decidable (s.SetSucceeds e)
  | .set _ _ => inferInstanceAs (Decidable (_ = _))
  | .task _ _ | .timeout | .bump | .give | .hold _ | .holdGive | .submit | .trip _ | .elapse _ =>
      .isTrue trivial

/-- Sets succeed, and fewer than `2 ^ 32` changes are counted after a look at the count. -/
def FewChanges (s : Task) (e : TaskStep) : Prop :=
  s.SetSucceeds e ∧ (s.apply e).changes < 2 ^ 32

/-- Sets succeed, and fewer than `2 ^ 32` changes are counted after the start of a pass. -/
def FewInPass (s : Task) (e : TaskStep) : Prop :=
  s.SetSucceeds e ∧ (s.apply e).passChanges < 2 ^ 32

instance (s : Task) (e : TaskStep) : Decidable (s.FewChanges e) :=
  inferInstanceAs (Decidable (_ ∧ _))

instance (s : Task) (e : TaskStep) : Decidable (s.FewInPass e) :=
  inferInstanceAs (Decidable (_ ∧ _))

theorem Notices.apply (h : s.Notices) (e : TaskStep) (hfew : s.changes < 2 ^ 32)
    (hset : s.SetSucceeds e) (hposs : s.Possible e) : (s.apply e).Notices := by
  cases e with
  | task err started => exact h.task err started hfew hposs
  | timeout =>
      exact { h with
        wake := h.wake.timeout
        pending := nofun
        stored := h.stored
        counted := fun _ _ => .inl (.inl (.inr ⟨hposs.1, rfl⟩))
        hold := fun _ => .inl (.inr ⟨hposs.1, rfl⟩) }
  | set value err =>
      refine { h with
        stored := fun hb => ?_
        counted := h.counted
        hold := h.hold }
      have hok : (hub75ConfigSet s.store value err).1 = 0 := hset
      have hcalls : (if (hub75ConfigSet s.store value err).1 = 0 then s.bumps + 1 else s.bumps) =
          0 := hb
      rw [if_pos hok] at hcalls
      cases hcalls
  | bump =>
      exact { h with
        generation := by
          show s.hub75Generation + 1 = s.generation + BitVec.ofNat 32 (s.changes + 1)
          rw [h.generation, BitVec.ofNat_add, BitVec.add_assoc]
          rfl
        stored := fun _ => nofun
        counted := fun _ _ => .inr (.inr (Nat.succ_pos _))
        hold := h.hold }
  | give => exact h.giveWake _ _
  | hold hold =>
      refine { h with
        stored := h.stored
        counted := h.counted
        hold := fun hne => ?_ }
      show _ ∨ _ ∨ 0 < if s.hub75Hold ≠ hold then s.holdGives + 1 else s.holdGives
      split_ifs with hchanged
      · exact .inr (.inr (Nat.succ_pos _))
      · rw [← not_not.mp hchanged] at hne
        exact h.hold hne
  | holdGive => exact h.giveWake _ _
  | submit => exact h.giveWake _ _
  | trip why =>
      have hgiven := h.giveWake s.gives s.holdGives
      exact { hgiven with
        stored := hgiven.stored
        counted := hgiven.counted
        hold := hgiven.hold }
  | elapse ms =>
      exact { h with
        stored := h.stored
        counted := h.counted
        hold := h.hold }

/-- The loop is blocked in `k_sem_take`, nothing is given, and no call is partway. -/
def Quiet (s : Task) : Prop :=
  s.pc = .wake ∧ s.hub75Wake = ⟨0, true⟩ ∧ s.hub75Hold = false ∧ s.bumps = 0 ∧ s.gives = 0 ∧
    s.holdGives = 0

/-- A quiet loop has nothing left to notice. -/
theorem Notices.applied (h : s.Notices) (hquiet : s.Quiet) :
    s.applied = some (storedConfig s.store) := by
  obtain ⟨hpc, hwake, hfree, hbumps, hgives, hholdGives⟩ := hquiet
  have hasleep : ¬ s.Awake := by
    rintro (htop | ⟨-, hidle⟩)
    · cases hpc.symm.trans htop
    · rw [hwake] at hidle
      cases hidle
  have hcount : ¬ 0 < s.hub75Wake.count := by
    rw [hwake]
    exact Nat.lt_irrefl 0
  have hheld : s.held = false := by
    by_contra hne
    rw [← hfree] at hne
    rcases h.hold hne with ha | hc | hg
    · exact hasleep ha
    · exact hcount hc
    · exact Nat.ne_of_gt hg hholdGives
  have hchanges : s.changes = 0 := by
    by_contra hne
    rcases h.counted (Nat.pos_of_ne_zero hne) hheld with ha | hc | hg
    · rcases ha with ha | ha | ha | ha | ha
      · exact hasleep ha
      all_goals cases hpc.symm.trans ha
    · exact hcount hc
    · exact Nat.ne_of_gt hg hgives
  have hstored := h.stored hbumps hchanges
  simp only [Applies, hpc] at hstored
  exact hstored

end Task

/-- **No config change is lost.**  Whenever the loop is blocked with the panel not held and no call
partway, the config it applied last is the one stored, as long as fewer than `2 ^ 32` changes are
counted after each look at the count. -/
theorem changes_applied (store : Store) (hub75Generation : BitVec 32) (active : Config)
    {steps : List TaskStep} {s : Task}
    (h : Run (Guarded TaskTrans Task.FewChanges) (.start store hub75Generation active) steps s)
    (hquiet : s.Quiet) : s.applied = some (storedConfig s.store) := by
  have hinv : s.Notices ∧ s.changes < 2 ^ 32 :=
    h.invariant (I := fun s => s.Notices ∧ s.changes < 2 ^ 32)
      (fun s e t ⟨hn, hfew⟩ ⟨hok, hposs, hr⟩ => by
        subst hr
        exact ⟨hn.apply e hfew hok.1 hposs, hok.2⟩)
      ⟨Task.start_notices store hub75Generation active, by show 1 < 2 ^ 32; decide⟩
  exact hinv.1.applied hquiet

/-- The default panel runs; another one is configured, counted and given. -/
def changeOnce : List TaskStep :=
  List.replicate 9 (.task 0 true) ++ [.set (cs "128:32") 0, .bump, .give] ++
    List.replicate 10 (.task 0 true)

theorem changes_applied_once :
    (changeOnce.foldl Task.apply (.start .empty 0 hub75Default)).applied ≠
        some (some hub75Default) ∧
      (changeOnce.foldl Task.apply (.start .empty 0 hub75Default)).applied =
        some (storedConfig (changeOnce.foldl Task.apply (.start .empty 0 hub75Default)).store) := by
  have hrun : Run (Guarded TaskTrans Task.FewChanges) (.start .empty 0 hub75Default) changeOnce
      (changeOnce.foldl Task.apply (.start .empty 0 hub75Default)) :=
    Run.of_along Task.apply (fun s e => s.FewChanges e ∧ s.Possible e)
      (fun _ _ h => ⟨h.1, h.2, rfl⟩) (by decide +kernel)
  exact ⟨by decide +kernel,
    changes_applied .empty 0 hub75Default hrun (by unfold Task.Quiet; decide +kernel)⟩

/-! ### A count that comes round -/

/-- A value that was set can be set again, and nothing changes. -/
theorem configSetStr_again {st st' : Store} {key val : CStr}
    (h : configSetStr st key val 0 = (0, st')) : configSetStr st' key val 0 = (0, st') := by
  unfold configSetStr at h ⊢
  split_ifs at h ⊢ with hlen
  · exact absurd (congrArg Prod.fst h) (by simp [Errno.inval])
  · obtain ⟨hkey, -⟩ := not_or.mp hlen
    have hkey := Nat.le_of_not_lt hkey
    rw [configSet_eq] at h ⊢
    split at h
    · exact absurd (congrArg Prod.fst h) (by simp [Errno.nomem])
    next t ht =>
      obtain ⟨-, rfl⟩ := Prod.mk.inj h
      have hfound := lookup_put hkey ht (EntryType.str, key)
      rw [if_pos (by rfl)] at hfound
      rw [(put_eq_self hkey).mpr hfound]
      simp only [if_true, Prod.mk.injEq, true_and, Store.mk.injEq]
      funext name
      split_ifs <;> rfl

namespace Task

/-- Blocked while held, with the panel set to be disabled, and nobody partway. -/
structure Parked (s : Task) : Prop where
  pc : s.pc = .wake
  wake : s.hub75Wake = ⟨0, true⟩
  hold : s.hub75Hold = true
  held : s.held = true
  running : s.running = false
  restart : s.restartAt = 0
  bumps : s.bumps = 0
  gives : s.gives = 0
  holdGives : s.holdGives = 0
  passChanges : s.passChanges = 0
  overload : s.hub75Overload = .none
  tripped : s.tripped = .none
  takenFrom : s.takenFrom = s.raisedBy
  now : s.now = s.uptime
  stored : hub75ConfigSet s.store [] 0 = (0, s.store)

/-- The steps of a run that counts few changes in every pass. -/
abbrev InPass (s : Task) (e : TaskStep) : Prop := s.FewInPass e ∧ s.Possible e

/-- The panel is disabled once more, and the loop takes note of nothing. -/
def disableHeld : List TaskStep := [.set [] 0, .bump, .give] ++ List.replicate 6 (.task 0 true)

def counted (s : Task) (n : ℕ) : Task :=
  { s with
    hub75Generation := s.hub75Generation + BitVec.ofNat 32 n
    changes := s.changes + n }

variable {s : Task}

theorem Parked.counted (h : s.Parked) (n : ℕ) : (s.counted n).Parked :=
  ⟨h.pc, h.wake, h.hold, h.held, h.running, h.restart, h.bumps, h.gives, h.holdGives,
    h.passChanges, h.overload, h.tripped, h.takenFrom, h.now, h.stored⟩

theorem Parked.disableHeld (h : s.Parked) :
    Along apply InPass s disableHeld ∧ disableHeld.foldl apply s = s.counted 1 := by
  obtain ⟨pc, store, gen, hold, ov, wake, up, run, irq, active, g, held, ra, tw, tr, now, trd,
    cfg, b, gi, hg, pan, rb, tf, ch, sr, ap, cs, pcs⟩ := s
  obtain ⟨hpc, hwake, hhold, hheld, hoff, hrestart, hb, hgives, hhg, hpass, hov, htr, htaken, hnow,
    hstored⟩ := h
  simp only at hpc hwake hhold hheld hoff hrestart hb hgives hhg hpass hov htr htaken hnow hstored
  subst hpc hwake hhold hheld hoff hrestart hb hgives hhg hpass hov htr htaken hnow
  refine ⟨?_, ?_⟩
  · simp [Task.disableHeld, Along, InPass, FewInPass, SetSucceeds, Possible, apply, set, hstored,
      incGeneration, giveWake, task, readHold, readClock, afterTrip, takeWake]
  · simp [Task.disableHeld, apply, set, hstored, incGeneration, giveWake, task, readHold, readClock,
      afterTrip, takeWake, Task.counted]
    rfl

/-- Any number of changes while held is counted, and looked at by no pass. -/
theorem Parked.disableHeld_replicate (h : s.Parked) (n : ℕ) :
    Along apply InPass s (List.replicate n Task.disableHeld).flatten ∧
      (List.replicate n Task.disableHeld).flatten.foldl apply s = s.counted n := by
  induction n with
  | zero =>
      refine ⟨trivial, ?_⟩
      simp [Task.counted]
  | succ n ih =>
      obtain ⟨halong, hfold⟩ := ih
      obtain ⟨halong', hfold'⟩ := (h.counted n).disableHeld
      rw [List.replicate_succ', List.flatten_append, List.flatten_singleton]
      refine ⟨along_append.mpr ⟨halong, ?_⟩, ?_⟩
      · rw [hfold]
        exact halong'
      · rw [List.foldl_append, hfold, hfold']
        simp only [Task.counted, BitVec.ofNat_add, Nat.add_assoc, BitVec.add_assoc]

/-- The release is seen, and counted. -/
def released : List TaskStep := [.hold false, .holdGive] ++ List.replicate 7 (.task 0 true)

/-- A release that makes the count come round to what it was when the loop looked. -/
theorem Parked.released (h : s.Parked) (hround : s.hub75Generation + 1 = s.generation) :
    Along apply InPass s released ∧ (released.foldl apply s).Quiet ∧
      (released.foldl apply s).applied = s.applied ∧
      (released.foldl apply s).store = s.store := by
  obtain ⟨pc, store, gen, hold, ov, wake, up, run, irq, active, g, held, ra, tw, tr, now, trd,
    cfg, b, gi, hg, pan, rb, tf, ch, sr, ap, cs, pcs⟩ := s
  obtain ⟨hpc, hwake, hhold, hheld, hoff, hrestart, hb, hgives, hhg, hpass, hov, htr, htaken, hnow,
    -⟩ := h
  simp only at hpc hwake hhold hheld hoff hrestart hb hgives hhg hpass hov htr htaken hnow hround
  subst hpc hwake hhold hheld hoff hrestart hb hgives hhg hpass hov htr htaken hnow hround
  refine ⟨?_, ?_⟩
  · simp [Task.released, Along, InPass, FewInPass, SetSucceeds, Possible, apply, incGeneration,
      giveWake, task, readHold, readClock, afterTrip, takeWake]
  · simp [Task.released, apply, incGeneration, giveWake, task, readHold, readClock, afterTrip,
      takeWake, Quiet]
    rfl

end Task

/-- The default panel runs and is held; then it is disabled. -/
def disabledWhileHeld : List TaskStep :=
  List.replicate 9 (.task 0 true) ++ [.hold true, .holdGive] ++ List.replicate 7 (.task 0 true) ++
    Task.disableHeld

/-- The same change `2 ^ 32 - 1` times in all, and the release. -/
def comesRound : List TaskStep :=
  disabledWhileHeld ++ (List.replicate (2 ^ 32 - 2) Task.disableHeld).flatten ++ Task.released

theorem disabledWhileHeld_parked :
    (disabledWhileHeld.foldl Task.apply (.start .empty 0 hub75Default)).Parked := by
  have hset : configSetStr
      ((disabledWhileHeld.take 18).foldl Task.apply (.start .empty 0 hub75Default)).store
      hub75Key [] 0 =
    (0, (disabledWhileHeld.foldl Task.apply (.start .empty 0 hub75Default)).store) := by rfl
  have hstored := configSetStr_again hset
  generalize hs : disabledWhileHeld.foldl Task.apply (.start .empty 0 hub75Default) = s at *
  have hplace : s.pc = .wake ∧ s.hub75Wake = ⟨0, true⟩ ∧ s.hub75Hold = true ∧ s.held = true ∧
      s.running = false ∧ s.restartAt = 0 := by
    subst hs
    decide +kernel
  have hcounts : s.bumps = 0 ∧ s.gives = 0 ∧ s.holdGives = 0 ∧ s.passChanges = 0 ∧
      s.hub75Overload = .none ∧ s.tripped = .none ∧ s.takenFrom = s.raisedBy ∧
      s.now = s.uptime := by
    subst hs
    decide +kernel
  obtain ⟨hpc, hwake, hhold, hheld, hrunning, hrestart⟩ := hplace
  obtain ⟨hbumps, hgives, hholdGives, hpass, hoverload, htripped, htaken, hnow⟩ := hcounts
  exact ⟨hpc, hwake, hhold, hheld, hrunning, hrestart, hbumps, hgives, hholdGives, hpass,
    hoverload, htripped, htaken, hnow, hstored⟩

/-- **A change is lost while the panel is held**: the panel is configured off, but the loop waits
with the default one applied, though no pass saw more than one change. -/
theorem changes_lost_while_held :
    ∃ s, Run (Guarded TaskTrans Task.FewInPass) (.start .empty 0 hub75Default) comesRound s ∧
      s.Quiet ∧ s.applied = some (some hub75Default) ∧ storedConfig s.store = none := by
  have hparked := disabledWhileHeld_parked
  have halong : Along Task.apply Task.InPass (.start .empty 0 hub75Default)
      disabledWhileHeld := by decide +kernel
  obtain ⟨hagain, hfold⟩ := hparked.disableHeld_replicate (2 ^ 32 - 2)
  obtain ⟨hreleased, hquiet, happlied, hstore⟩ :=
    (hparked.counted (2 ^ 32 - 2)).released (by decide +kernel)
  have hrun : Along Task.apply Task.InPass (.start .empty 0 hub75Default) comesRound := by
    unfold comesRound
    rw [along_append, along_append, List.foldl_append, hfold]
    exact ⟨⟨halong, hagain⟩, hreleased⟩
  refine ⟨_, Run.of_along Task.apply Task.InPass (fun _ _ h => ⟨h.1, h.2, rfl⟩) hrun, ?_⟩
  unfold comesRound
  rw [List.foldl_append, List.foldl_append, hfold]
  refine ⟨hquiet, ?_, ?_⟩
  · rw [happlied]
    show (disabledWhileHeld.foldl Task.apply (.start .empty 0 hub75Default)).applied = _
    decide +kernel
  · rw [hstore]
    show storedConfig (disabledWhileHeld.foldl Task.apply (.start .empty 0 hub75Default)).store = _
    decide +kernel

end NodemFirmware.Hub75
