import NodemFirmware.Hub75.Drawn

/-! # Rows that stay on the panel

A framebuffer is hashed, then drawn row by row, with the lock given up in between; a submit sets
`nodem_dirty`, so that what was overtaken is drawn once more.

* `Showing.Pending` is that something is about to be drawn, `Showing.Current` what holds of the
  rows when nothing is.
* `Showing.SkipsWhole` is the condition: an equal hash is that of the framebuffer all rows saw.
* `rows_current`: in a run that skips only then, no row on the panel is of another framebuffer
  than the one in force; `rows_changed_back` is a run where one is. -/

namespace NodemFirmware.Hub75

open Checked CText Transition

namespace Showing

/-- The framebuffer or the config may have changed since the last draw began, and it is known. -/
def Pending (s : Showing) : Prop :=
  s.nodemDirty = true ∨ s.publishing ≠ .idle ∨ s.pc = .hash

/-- `frame_draw_nodem` skips a draw only for what all rows of the last one saw. -/
def SkipsWhole (s : Showing) : ShowStep → Prop
  | .task => s.pc = .hash → s.mapped = true → s.unchanged = true →
      (∀ g ∈ s.driver, s.seen.length = g.active.height) ∧
        (∀ a ∈ s.seen, a.Same s.drawnFrom) ∧ s.drawnHash = s.drawnFrom.hash
  | _ => True

instance (s : Showing) : (e : ShowStep) → Decidable (s.SkipsWhole e)
  | .task => inferInstanceAs (Decidable (_ → _ → _ → _ ∧ _ ∧ _))
  | .wake | .start _ | .disable | .stop | .pass _ | .render _ | .submit _ | .dirty =>
      .isTrue trivial

/-- The rows drawn so far saw the framebuffer that is in force, and those of a draw that ended
are all of them. -/
structure Current (s : Showing) : Prop where
  row : ∀ y, s.pc = .row y → s.mapped = true ∧ s.shot.Same s.started ∧
    (0 < y → ∀ a ∈ s.seen, a.Same s.started)
  drawn : s.showingNodem = true → ∀ g, s.driver = some g → (∀ y, s.pc ≠ .row y) →
    (s.mapped = true ∧ s.shot.Same s.drawnFrom ∧ (∀ a ∈ s.seen, a.Same s.drawnFrom) ∧
      s.seen.length = g.active.height) ∨
    (s.pc = .present ∧ s.mapped = false)

namespace Current

variable {s : Showing}

/-- From a place that is neither a row nor the end of the pass to another that is no row. -/
theorem away (h : s.Current) (pc : DrawPc) (phase : ℤ) (hrow : ∀ y, s.pc ≠ .row y)
    (hpresent : s.pc ≠ .present) (hpc : ∀ y, pc ≠ .row y) :
    ({ s with phase := phase, pc := pc }).Current where
  row y hy := absurd hy (hpc y)
  drawn hshowing g hg _ := by
    rcases h.drawn hshowing g hg hrow with hcurrent | ⟨hp, -⟩
    · exact .inl hcurrent
    · exact absurd hp hpresent

/-- **The hash** is where a draw begins that is up to date, or the last one is found to be. -/
theorem takeHash (hs : s.Sound) (hpc : s.pc = .hash) (hskips : s.SkipsWhole .task)
    (hinj : s.takeHash.HashInjective) : s.takeHash.Current := by
  have hsame : s.mapped = true → s.unchanged = true → ∀ g, s.driver = some g →
      s.shot.Same s.drawnFrom ∧ (∀ a ∈ s.seen, a.Same s.drawnFrom) ∧
        s.seen.length = g.active.height := by
    intro hmapped hunchanged g hg
    obtain ⟨hlength, hseen, hdrawn⟩ := hskips hpc hmapped hunchanged
    exact ⟨unchanged_same hs hg hmapped hunchanged (hlength g hg) hdrawn hinj, hseen, hlength g hg⟩
  unfold Showing.takeHash
  split_ifs with hmapped hunchanged
  · exact ⟨nofun, fun _ g hg _ => .inl ⟨hmapped, hsame hmapped hunchanged g hg⟩⟩
  · refine ⟨?_, fun _ _ _ hrow => absurd rfl (hrow 0)⟩
    rintro _ ⟨⟩
    exact ⟨hmapped, .refl _, nofun⟩
  · rw [Bool.not_eq_true] at hmapped
    exact ⟨nofun, fun _ _ _ _ => .inr ⟨rfl, hmapped⟩⟩

/-- What a row of an unchanged framebuffer adds is the same again. -/
theorem rowDrawn_same (h : s.Current) {y : ℕ} (hpc : s.pc = .row y) :
    ∀ a ∈ (s.rowDrawn y).seen, a.Same s.started := by
  obtain ⟨-, hshot, hseen⟩ := h.row y hpc
  intro a ha
  simp only [Showing.rowDrawn] at ha
  split_ifs at ha with hzero
  · rw [List.mem_singleton.mp ha]
    exact hshot
  · rcases List.mem_append.mp ha with ha | ha
    · exact hseen (Nat.pos_of_ne_zero hzero) a ha
    · rw [List.mem_singleton.mp ha]
      exact hshot

theorem drawRow (h : s.Current) (hs : s.Sound) {g : Driver} {y : ℕ} (hpc : s.pc = .row y)
    (hg : s.driver = some g) : (s.drawRow g y).Current := by
  obtain ⟨hmapped, hshot, -⟩ := h.row y hpc
  have hsame := h.rowDrawn_same hpc
  unfold Showing.drawRow
  rw [if_pos hmapped]
  split_ifs with hlast
  · refine ⟨?_, fun _ _ _ hrow => absurd rfl (hrow (y + 1))⟩
    rintro _ ⟨⟩
    exact ⟨hmapped, hshot, fun _ => hsame⟩
  · refine ⟨nofun, fun _ g' hg' _ => .inl ⟨hmapped, hshot, hsame, ?_⟩⟩
    cases hg.symm.trans hg'
    have hlength := hs.rowDrawn_length hpc
    have hlt := (hs.row y hpc).2 g hg
    exact hlength.trans (by omega)

theorem withoutNodem (h : s.Current) (hs : s.Sound) (hpc : s.pc = .present) :
    s.withoutNodem.Current := by
  have hrow : ∀ y, s.pc ≠ .row y := DrawPc.ne_row (by rw [hpc]; rfl)
  unfold Showing.withoutNodem
  cases happlies : s.withFallback with
  | true =>
      exact
        { row := fun y hy => absurd hy (DrawPc.ne_row rfl y)
          drawn := fun hshowing => absurd hshowing Bool.false_ne_true }
  | false =>
      refine ⟨fun y hy => absurd hy (DrawPc.ne_row rfl y), fun hshowing g hg _ => .inl ?_⟩
      rcases h.drawn hshowing g hg hrow with hcurrent | ⟨-, hunmapped⟩
      · exact hcurrent
      · -- without a mapping the fallback applies
        have hpresent : s.nodem.hub75.present = true := by
          revert happlies
          unfold Showing.withFallback
          cases s.nodem.hub75.present <;> simp
        have hsubmitted : s.submitted = false := by
          simpa [Showing.mapped, hpresent] using hunmapped
        exact absurd ((hs.absent hsubmitted).symm.trans hpresent) Bool.false_ne_true

end Current

/-- What `nodem_task` shares does not change in a draw. -/
theorem drawRow_shared (s : Showing) (g : Driver) (y : ℕ) :
    (s.drawRow g y).nodemDirty = s.nodemDirty ∧ (s.drawRow g y).publishing = s.publishing := by
  unfold Showing.drawRow
  split_ifs <;> exact ⟨rfl, rfl⟩

theorem withoutNodem_shared (s : Showing) :
    s.withoutNodem.nodemDirty = s.nodemDirty ∧ s.withoutNodem.publishing = s.publishing := by
  unfold Showing.withoutNodem
  split_ifs <;> exact ⟨rfl, rfl⟩

/-- What was not about to be drawn, with the same shared and away from the hash. -/
theorem not_pending {s t : Showing} (h : ¬ t.Pending)
    (hshared : t.nodemDirty = s.nodemDirty ∧ t.publishing = s.publishing) (hpc : s.pc ≠ .hash) :
    ¬ s.Pending := by
  rintro (hdirty | hpublishing | hp)
  · exact h (.inl (hshared.1.trans hdirty))
  · exact h (.inr (.inl fun hidle => hpublishing (hshared.2.symm.trans hidle)))
  · exact hpc hp

/-- An access of the loop: with nothing pending after it, the rows are current. -/
theorem task_current {s : Showing} (hs : s.Sound) (h : ¬ s.Pending → s.Current)
    (hskips : s.SkipsWhole .task) (hinj : s.task.HashInjective) (hclear : ¬ s.task.Pending) :
    s.task.Current := by
  revert hinj hclear
  unfold Showing.task
  split
  all_goals intro hinj hclear
  · next hpc =>
    have hrow : ∀ y, s.pc ≠ .row y := fun _ hy => nomatch hpc.symm.trans hy
    split_ifs at hclear ⊢ with hdirty
    · exact absurd (.inr (.inr rfl)) hclear
    · have hcurrent := h (not_pending hclear ⟨rfl, rfl⟩ (by rw [hpc]; nofun))
      exact hcurrent.away .present s.phase hrow (by rw [hpc]; nofun) nofun
  · next hpc => exact .takeHash hs hpc hskips hinj
  · next y g hpc hg =>
    have hcurrent := h (not_pending hclear (drawRow_shared s g y) (by rw [hpc]; nofun))
    exact hcurrent.drawRow hs hpc hg
  · next hpc =>
    have hcurrent := h (not_pending hclear (withoutNodem_shared s) (by rw [hpc]; nofun))
    exact hcurrent.withoutNodem hs hpc
  · exact h hclear

/-- **Steps:** what is not pending is current. -/
theorem apply_current {s : Showing} {e : ShowStep} (hs : s.Sound) (h : ¬ s.Pending → s.Current)
    (hposs : s.Possible e) (hskips : s.SkipsWhole e) (hinj : (s.apply e).HashInjective)
    (hclear : ¬ (s.apply e).Pending) : (s.apply e).Current := by
  cases e with
  | wake =>
      have hpc : s.pc = .wait := hposs
      have hcurrent := h (not_pending hclear ⟨rfl, rfl⟩ (by rw [hpc]; nofun))
      exact hcurrent.away .top s.phase (by rw [hpc]; nofun) (by rw [hpc]; nofun) nofun
  | start c => exact absurd (.inl rfl) hclear
  | disable => exact absurd (.inl rfl) hclear
  | stop =>
      have hpc : s.pc = .top := hposs
      exact ⟨fun _ hy => (nomatch hpc.symm.trans hy), fun _ _ hg => (nomatch hg)⟩
  | pass now =>
      have hpc : s.pc = .top := hposs
      have hcurrent := h (not_pending hclear ⟨rfl, rfl⟩ (by rw [hpc]; nofun))
      refine hcurrent.away _ _ (by rw [hpc]; nofun) (by rw [hpc]; nofun) ?_
      intro y
      split_ifs <;> nofun
  | task => exact task_current hs h hskips hinj hclear
  | render fb => exact absurd (.inr (.inl nofun)) hclear
  | submit nodem => exact absurd (.inr (.inl nofun)) hclear
  | dirty => exact absurd (.inl rfl) hclear

end Showing

/-! ### Every run -/

section Runs

variable {fxFrame : ℕ} {s t : Screen} {g : Driver}

theorem Showing.start_current (fb : ℕ → UInt8) (a : Shot) : (Showing.start fb a).Current :=
  ⟨nofun, nofun⟩

/-- **Steps:** a step that skips only what all rows saw keeps what is not pending current. -/
theorem Screen.Sound.step_current {e : ShowStep} (hs : s.Sound fxFrame)
    (h : s.showing.HashInjective → ¬ s.showing.Pending → s.showing.Current)
    (hstep : Guarded (ScreenTrans fxFrame) (fun s e => e.Fits ∧ s.showing.SkipsWhole e) s e t) :
    t.Sound fxFrame ∧ (t.showing.HashInjective → ¬ t.showing.Pending → t.showing.Current) := by
  obtain ⟨⟨hfits, hskips⟩, htrans⟩ := hstep
  obtain ⟨ht, hsound⟩ := Screen.sound_step hs hfits htrans
  refine ⟨hsound, fun hinj hclear => ?_⟩
  rw [ht] at hinj hclear ⊢
  exact Showing.apply_current hs.showing (h hinj.before) htrans.1 hskips hinj hclear

/-- **No stale rows stay on the panel**, in every run that skips a draw only for what all rows of
the last one saw: whenever the task waits with a framebuffer shown and nothing is pending, every
row shows the framebuffer in force through the mapping in force. -/
theorem rows_current {m : Buffers} {on off : Paint} {fb : ℕ → UInt8} {a : Shot}
    {es : List ShowStep}
    (h : Run (Guarded (ScreenTrans fxFrame) fun s e => e.Fits ∧ s.showing.SkipsWhole e)
      (.start m on off fb a) es t)
    (hinj : t.showing.HashInjective) (hg : t.showing.driver = some g)
    (hpc : t.showing.pc = .wait) (hshowing : t.showing.showingNodem = true)
    (hclean : t.showing.nodemDirty = false) (hidle : t.showing.publishing = .idle) :
    t.showing.mapped = true ∧ t.Shows fxFrame g (t.showing.shot.lit g) := by
  obtain ⟨hs, hcurrent⟩ := h.invariant
    (I := fun s => s.Sound fxFrame ∧
      (s.showing.HashInjective → ¬ s.showing.Pending → s.showing.Current))
    (fun s e t hI hstep => hI.1.step_current hI.2 hstep)
    ⟨Screen.start_sound fxFrame m on off fb a, fun _ _ => Showing.start_current fb a⟩
  have hclear : ¬ t.showing.Pending := by
    rintro (hdirty | hpublishing | hhash)
    · exact absurd (hclean.symm.trans hdirty) Bool.false_ne_true
    · exact hpublishing hidle
    · exact nomatch hpc.symm.trans hhash
  have hrow : ∀ y, t.showing.pc ≠ .row y := fun _ hy => nomatch hpc.symm.trans hy
  rcases (hcurrent hinj hclear).drawn hshowing g hg hrow with
    ⟨hmapped, hshot, hseen, hlength⟩ | ⟨hpresent, -⟩
  · obtain ⟨c, hr⟩ := hs.showing.running g hg
    have hrows := (hs.drawn g hg).nodem hshowing hlength fun _ => hrow _
    refine ⟨hmapped, (hrows.congr fun y hy x _ => ?_).shows hr⟩
    rw [seenLit_same hseen hs.showing.seen (by omega)]
    exact (hshot.lit (hs.showing.shot_ok hmapped) g x y).symm
  · exact nomatch hpc.symm.trans hpresent

end Runs

/-! ### A framebuffer that changes back -/

/-- A dark framebuffer is hashed, and all of it is lit before the first row is drawn; then what
`nodem_task` does before the next pass, and that pass up to its hash. -/
def litMeanwhile (meanwhile : List ShowStep) : List ShowStep :=
  [.start hub75Small, .pass 0, .task, .task, .task,
    .render (fun _ => 0), .submit nodemSmall, .dirty,
    .wake, .pass 100, .task, .task, .render (fun _ => 0xFF), .task, .task, .task, .task,
    .submit nodemSmall, .dirty] ++ meanwhile ++ [.wake, .pass 200, .task, .task]

/-- What overtook the draw is drawn by the next pass. -/
theorem rows_current_overtaken :
    ∃ t, Run (Guarded (ScreenTrans 0) fun s e => e.Fits ∧ s.showing.SkipsWhole e) .blank
        (litMeanwhile [] ++ [.task, .task, .task, .task]) t ∧
      t.showing.shot = ⟨fun _ => 0xFF, nodemSmall⟩ ∧
      t.Shows 0 smallDriver (t.showing.shot.lit smallDriver) := by
  have hon : Along Showing.apply (fun s e => s.Taken e ∧ s.SkipsWhole e) Screen.blank.showing
      (litMeanwhile [] ++ [.task, .task, .task, .task]) := by
    decide +kernel
  obtain ⟨t, hrun, ht, -⟩ := Screen.run_returns (C := Showing.SkipsWhole)
    (Screen.start_sound 0 _ _ _ _ _) (hon.mono fun s e h => ⟨h.1.possible.1, h.1.possible.2, h.2⟩)
  have hinj : t.showing.HashInjective := by
    rw [ht]
    decide +kernel
  refine ⟨t, hrun, by rw [ht]; rfl, (rows_current hrun hinj ?_ ?_ ?_ ?_ ?_).2⟩
  all_goals
    rw [ht]
    decide +kernel

/-- **Rows that stay.** The framebuffer is dark again before the next pass, whose hash is that of
the draw that lit all of its rows: they stay lit, with nothing pending. -/
theorem rows_changed_back :
    ∃ t, Run (ScreenTrans 0) .blank
        (litMeanwhile [.render (fun _ => 0), .submit nodemSmall, .dirty]) t ∧
      t.showing.HashInjective ∧ t.showing.driver = some smallDriver ∧ t.showing.pc = .wait ∧
      t.showing.showingNodem = true ∧ t.showing.nodemDirty = false ∧
      t.showing.publishing = .idle ∧ ¬ t.Shows 0 smallDriver (t.showing.shot.lit smallDriver) := by
  have hon : Along Showing.apply Showing.Taken Screen.blank.showing
      (litMeanwhile [.render (fun _ => 0), .submit nodemSmall, .dirty]) := by
    decide +kernel
  obtain ⟨t, hrun, ht, hsound⟩ := Screen.run_returns (C := fun _ _ => True)
    (Screen.start_sound 0 _ _ _ _ _) (hon.mono fun s e h => ⟨h.possible.1, h.possible.2, trivial⟩)
  have hinj : t.showing.HashInjective := by
    rw [ht]
    decide +kernel
  have hat : t.showing.driver = some smallDriver ∧ t.showing.pc = .wait ∧
      t.showing.showingNodem = true ∧ t.showing.nodemDirty = false ∧
      t.showing.publishing = .idle := by
    rw [ht]
    decide +kernel
  obtain ⟨hdriver, hpc, hshowing, hclean, hidle⟩ := hat
  refine ⟨t, hrun.unguarded, hinj, hdriver, hpc, hshowing, hclean, hidle, fun hshows => ?_⟩
  have hlength : t.showing.seen.length = smallDriver.active.height := by
    rw [ht]
    rfl
  have hrows := (hsound.drawn _ hdriver).nodem hshowing hlength (by rw [hpc]; nofun)
  have hagree := hrows.agree running_small hshows (x := 0) (y := 0) (k := 3) (by decide)
    (by decide) (by decide) (by decide)
  rw [ht] at hagree
  revert hagree
  decide +kernel

end NodemFirmware.Hub75
