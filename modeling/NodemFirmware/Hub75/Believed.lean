import NodemFirmware.Hub75.Drawn

/-! # What hub75_task believes is in the frame

`showing_nodem` and `fallback_phase` describe the frame: it holds the framebuffer that was drawn
last, or the fallback of a phase.  Each is left as it is on the other's branch.

* `Showing.Redraws` is the condition: what a pass takes for drawn was not drawn over, or cut short.
* `Showing.Faithful` is what the loop's variables then keep.
* `frame_as_believed`: in a run whose passes all redraw, the frame at every wait is what they say;
  `fallback_drawn_over` is a run where it is not. -/

namespace NodemFirmware.Hub75

open Checked CText Transition

/-! ### What is shown -/

namespace Showing

/-- What a pass takes for drawn is: the fallback of this phase, if no row was drawn over it since,
the last framebuffer, if all of its rows were drawn, and an equal hash, if the hash is that of the
last framebuffer drawn. -/
def Redraws (s : Showing) : ShowStep → Prop
  | .task =>
      (s.pc = .present → s.withFallback = true → s.phase = s.fallbackPhase →
        s.overdrawn = false) ∧
      (s.pc = .present → s.withFallback = false →
        ∀ g ∈ s.driver, s.seen.length = g.active.height) ∧
      (s.pc = .hash → s.mapped = true → s.unchanged = true → s.drawnHash = s.drawnFrom.hash)
  | _ => True

instance (s : Showing) : (e : ShowStep) → Decidable (s.Redraws e)
  | .task => inferInstanceAs (Decidable (_ ∧ _ ∧ _))
  | .wake | .start _ | .disable | .stop | .pass _ | .render _ | .submit _ | .dirty =>
      .isTrue trivial

/-- What the variables say of each other when every pass redraws. -/
structure Faithful (s : Showing) : Prop where
  whole : s.showingNodem = true → (∀ y, s.pc ≠ .row (y + 1)) → s.pc ≠ .present →
    ∀ g, s.driver = some g → s.seen.length = g.active.height
  found : s.HashInjective → s.showingNodem = true → (∀ y, s.pc ≠ .row (y + 1)) →
    ∀ g, s.driver = some g → s.seen.length = g.active.height →
      s.found.lit g = s.drawnFrom.lit g
  fallback : s.pc = .wait → s.driver.isSome = true → s.showingNodem = false →
    s.overdrawn = false ∧ s.fallbackPhase ≠ -1

theorem start_faithful (fb : ℕ → UInt8) (a : Shot) : (Showing.start fb a).Faithful :=
  ⟨nofun, fun _ => nofun, nofun⟩

namespace Faithful

variable {s : Showing}

/-- Between places that are neither rows nor the end of the pass. -/
theorem away (h : s.Faithful) {t : Showing} (hrow : ∀ y, s.pc ≠ .row (y + 1))
    (hpresent : s.pc ≠ .present) (hwait : t.pc = .wait → t.driver.isSome = false)
    (hinj : t.HashInjective → s.HashInjective) (hshowing : t.showingNodem = s.showingNodem)
    (hdriver : t.driver = s.driver) (hseen : t.seen = s.seen) (hfound : t.found = s.found)
    (hfrom : t.drawnFrom = s.drawnFrom) : t.Faithful where
  whole := by
    rw [hshowing, hdriver, hseen]
    exact fun hs _ _ => h.whole hs hrow hpresent
  found := by
    rw [hshowing, hdriver, hseen, hfound, hfrom]
    exact fun ht hs _ => h.found (hinj ht) hs hrow
  fallback hpc hd := absurd ((hwait hpc).symm.trans hd) Bool.false_ne_true

theorem takeHash (h : s.Faithful) (hs : s.Sound) (hpc : s.pc = .hash)
    (hredraws : s.Redraws .task) : s.takeHash.Faithful := by
  have hrow : ∀ y, s.pc ≠ .row (y + 1) := fun _ => DrawPc.ne_row (by rw [hpc]; rfl) _
  have hpresent : s.pc ≠ .present := by
    rw [hpc]
    decide
  have hlit : s.mapped = true → s.unchanged = true → s.takeHash.HashInjective →
      s.showingNodem = true → ∀ g, s.driver = some g → s.shot.lit g = s.drawnFrom.lit g := by
    intro hmapped hsame hinj hshowing g hg
    have hwhole := h.whole hshowing hrow hpresent g hg
    have hshot := unchanged_same hs hg hmapped hsame hwhole
      (hredraws.2.2 hpc hmapped hsame) hinj
    funext x y
    exact hshot.lit (hs.shot_ok hmapped) g x y
  have hbefore : s.takeHash.HashInjective → s.HashInjective := by
    have happly : s.apply .task = s.takeHash := by
      simp only [Showing.apply, Showing.task, hpc]
    rw [← happly]
    exact HashInjective.before
  unfold Showing.takeHash at hlit hbefore ⊢
  split_ifs at hlit hbefore ⊢ with hmapped hsame
  · have hshowing : s.showingNodem = true := by
      simp only [Showing.unchanged, Bool.and_eq_true] at hsame
      exact hsame.1
    exact
      { whole := fun _ _ _ => h.whole hshowing hrow hpresent
        found := fun hinj _ _ g hg _ => hlit hmapped hsame hinj hshowing g hg
        fallback := fun _ _ hoff => absurd (hoff.symm.trans hshowing) Bool.false_ne_true }
  · exact h.away hrow hpresent (fun hp => DrawPc.noConfusion hp) hbefore rfl rfl rfl rfl rfl
  · exact h.away hrow hpresent (fun hp => DrawPc.noConfusion hp) hbefore rfl rfl rfl rfl rfl

theorem drawRow (h : s.Faithful) (hs : s.Sound) {g : Driver} {y : ℕ} (hpc : s.pc = .row y)
    (hg : s.driver = some g) : (s.drawRow g y).Faithful := by
  have hy := (hs.row y hpc).2
  unfold Showing.drawRow
  split_ifs with hmapped hlast
  · exact
      { whole := fun _ hrow => absurd rfl (hrow y)
        found := fun _ _ hrow => absurd rfl (hrow y)
        fallback := nofun }
  · refine
      { whole := fun _ _ _ g' hg' => ?_
        found := fun _ _ _ _ _ _ => rfl
        fallback := nofun }
    cases hg.symm.trans hg'
    have hlength := hs.rowDrawn_length hpc
    have hlt := hy g hg
    exact hlength.trans (by omega)
  · refine
      { whole := fun _ _ hpresent => absurd rfl hpresent
        found := fun hinj hshowing _ g' hg' hlength => ?_
        fallback := nofun }
    cases y with
    | zero =>
        have hrow : ∀ y, s.pc ≠ .row (y + 1) := fun _ hy => nomatch hpc.symm.trans hy
        exact h.found hinj hshowing hrow g' hg' hlength
    | succ y =>
        have hbelow := (hs.rowBelow y hpc).1
        exact absurd (hbelow.symm.trans hlength) (hy g' hg').ne

theorem withoutNodem (h : s.Faithful) (hs : s.Sound) (hpc : s.pc = .present)
    (hredraws : s.Redraws .task) : s.withoutNodem.Faithful := by
  obtain ⟨hover, hwhole, -⟩ := hredraws
  have hrow : ∀ y, s.pc ≠ .row (y + 1) := fun _ hy => nomatch hpc.symm.trans hy
  unfold Showing.withoutNodem
  cases happlies : s.withFallback with
  | true =>
      have hphase : s.phase ≠ -1 := by
        have := hs.phase
        omega
      have hfresh : (if s.phase = s.fallbackPhase then s.overdrawn else false) = false := by
        split_ifs with hsame
        · exact hover hpc happlies hsame
        · rfl
      exact ⟨nofun, fun _ => nofun, fun _ _ _ => ⟨hfresh, hphase⟩⟩
  | false =>
      have hshowing : s.showingNodem = true := by
        revert happlies
        unfold Showing.withFallback
        cases s.showingNodem <;> simp
      exact
        { whole := fun _ _ _ => hwhole hpc happlies
          found := fun hinj hs' _ => h.found hinj hs' hrow
          fallback := fun _ _ hoff => absurd (hoff.symm.trans hshowing) Bool.false_ne_true }

theorem task (h : s.Faithful) (hs : s.Sound) (hredraws : s.Redraws .task) :
    s.task.Faithful := by
  unfold Showing.task
  split
  · next hpc =>
    have hrow : ∀ y, s.pc ≠ .row (y + 1) := fun _ hy => nomatch hpc.symm.trans hy
    have hpresent : s.pc ≠ .present := fun hp => nomatch hpc.symm.trans hp
    split_ifs
    · exact h.away hrow hpresent nofun id rfl rfl rfl rfl rfl
    · exact h.away hrow hpresent nofun id rfl rfl rfl rfl rfl
  · next hpc => exact h.takeHash hs hpc hredraws
  · next hpc hg => exact h.drawRow hs hpc hg
  · next hpc => exact h.withoutNodem hs hpc hredraws
  · exact h

/-- **Steps.** -/
theorem apply (h : s.Faithful) (hs : s.Sound) {e : ShowStep} (hposs : s.Possible e)
    (hredraws : s.Redraws e) : (s.apply e).Faithful := by
  cases e with
  | wake =>
      have hpc : s.pc = .wait := hposs
      exact h.away (by rw [hpc]; nofun) (by rw [hpc]; nofun) nofun id rfl rfl rfl rfl rfl
  | start c =>
      have hpc : s.pc = .top := hposs.1
      exact ⟨nofun, fun _ => nofun, fun hwait => nomatch hpc.symm.trans hwait⟩
  | disable =>
      have hpc : s.pc = .top := hposs
      exact ⟨nofun, fun _ => nofun, fun hwait => nomatch hpc.symm.trans hwait⟩
  | stop =>
      exact ⟨fun _ _ _ _ hg => (nomatch hg), fun _ _ _ _ hg => (nomatch hg),
        fun _ hd => (nomatch hd)⟩
  | pass now =>
      have hpc : s.pc = .top := hposs
      refine h.away (by rw [hpc]; nofun) (by rw [hpc]; nofun) ?_ id rfl rfl rfl rfl rfl
      simp only [Showing.apply]
      cases s.driver <;> simp
  | task => exact h.task hs hredraws
  | render fb => exact ⟨h.whole, h.found, h.fallback⟩
  | submit nodem => exact ⟨h.whole, h.found, h.fallback⟩
  | dirty => exact ⟨h.whole, h.found, h.fallback⟩

end Faithful

end Showing

/-! ### Every run -/

section Runs

variable {fxFrame : ℕ} {s t : Screen} {g : Driver}

/-- **Steps:** a step that redraws keeps the variables faithful. -/
theorem Screen.Sound.step {e : ShowStep} (hs : s.Sound fxFrame) (h : s.showing.Faithful)
    (hstep : Guarded (ScreenTrans fxFrame) (fun s e => e.Fits ∧ s.showing.Redraws e) s e t) :
    t.Sound fxFrame ∧ t.showing.Faithful := by
  obtain ⟨⟨hfits, hredraws⟩, htrans⟩ := hstep
  obtain ⟨ht, hsound⟩ := Screen.sound_step hs hfits htrans
  refine ⟨hsound, ?_⟩
  rw [ht]
  exact h.apply hs.showing htrans.1 hredraws

end Runs

/-! ### A mapping that is removed -/

end NodemFirmware.Hub75
