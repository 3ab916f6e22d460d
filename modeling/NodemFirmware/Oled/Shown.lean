import NodemFirmware.Nodem.Stored
import NodemFirmware.Oled.Flush

/-! # What the panel shows

`nodem_task` draws into its framebuffer and submits it; `display_task` builds its pages from it in
place, one at a time, with the lock given up in between.

* `Screen` has every locked section of the two threads as a step, and the loop of `display_task`
  page by page; a pass that nothing comes between is `displayPass` (`run_pass`).
* `Screen.Held` is what every step keeps: as long as the framebuffer is the one that was last
  announced, the pages that a flush is past show it.
* `glass_current`: a panel that works and has nothing to flush shows the framebuffer, each pixel
  where the mapping puts it, and is blank elsewhere. -/

namespace NodemFirmware.Oled

open Transition

/-- Where `nodem_task` is: anywhere up to the end of a frame, before the locked section of
`display_task_submit`, or before it sets `display_dirty`. -/
inductive FramePc where
  | draw
  | submit
  | dirty
deriving DecidableEq, Repr

/-- Where `display_task` is: at the top of a pass, before it takes `display_dirty`, or before a
page of a flush.  `now` is the time that the pass has read. -/
inductive PassPc where
  | top
  | take (now : ℤ)
  | page (now : ℤ) (pg : ℕ)
deriving DecidableEq, Repr

/-- The two threads and what they share.  `drawn` records that the framebuffer may have changed
since `display_dirty` was last set; the program does not keep it. -/
structure Screen where
  display : Display
  pc : PassPc
  displayFb : Bool
  displayNodem : Nodem.Config
  fb : ℕ → UInt8
  nodem : Nodem.Config
  frame : FramePc
  drawn : Bool

inductive ScreenStep where
  /-- A "#oled" that is stored. -/
  | oledSet
  /-- A pass of `nodem_task` that reads its config from this store. -/
  | config (store : ConfigStore.Store) (err : ℤ)
  /-- A command or a package draws, and this is what the framebuffer then holds. -/
  | draw (fb : ℕ → UInt8)
  /-- `nodem_runtime_run`, likewise. -/
  | run (fb : ℕ → UInt8)
  /-- The locked section of `display_task_submit`. -/
  | submit
  | setDirty
  /-- `display_task` from the top of a pass. -/
  | start (inp : PassInput)
  | take (now : ℤ)
  /-- Its next page, or the end of the flush. -/
  | page (inp : PassInput) (now : ℤ) (pg : ℕ)

namespace Screen

/-- A config of another geometry clears the framebuffer.  What `nodem_config_get` finds in the
struct it fills is never used. -/
def config (s : Screen) (store : ConfigStore.Store) (err : ℤ) : Screen :=
  let next := (Nodem.nodemConfigGet store err s.nodem).1
  if next.width ≠ s.nodem.width ∨ next.height ≠ s.nodem.height ∨
      next.bitsPerPixel ≠ s.nodem.bitsPerPixel then
    { s with fb := fun _ => 0, nodem := next, drawn := true }
  else { s with nodem := next }

def draw (s : Screen) (fb : ℕ → UInt8) : Screen := { s with fb := fb, drawn := true }

def run (s : Screen) (fb : ℕ → UInt8) : Screen :=
  { s with fb := fb, frame := .submit, drawn := true }

def submit (s : Screen) : Screen :=
  { s with displayFb := true, displayNodem := s.nodem, frame := .dirty }

def setDirty (s : Screen) : Screen :=
  { s with display := { s.display with dirty := true }, frame := .draw, drawn := false }

def start (s : Screen) (inp : PassInput) : Screen :=
  let r := healthCheck (setup (configure s.display inp) inp) inp
  { s with display := r.2, pc := if r.1 then .top else .take inp.now }

/-- `atomic_cas(&display_dirty, 1, 0)`. -/
def take (s : Screen) (now : ℤ) : Screen :=
  if s.display.initialized && s.display.dirty then
    { s with display := { s.display with dirty := false }, pc := .page now 0 }
  else { s with pc := .top }

/-- What a page is built from, with the phase of the fallback frame. -/
def source (s : Screen) (now : ℤ) : Option (Nodem.Config × (ℕ → UInt8) × ℕ) :=
  if s.displayFb then some (s.displayNodem, s.fb, (now / 1000 % 2).toNat) else none

def page (s : Screen) (inp : PassInput) (now : ℤ) (pg : ℕ) : Screen :=
  let d := s.display
  if pg < d.win.pages ∧ 0 < d.win.cols then
    let r := flushOne d { inp with source := fun _ => s.source inp.now } pg
    if r.1 then
      { s with
        display := { r.2 with initialized := false, sentValid := false, nextSetup := now }
        pc := .top }
    else { s with display := r.2, pc := .page now (pg + 1) }
  else
    { s with
      display := { d with sentValid := if 0 < d.win.cols then true else d.sentValid }
      pc := .top }

def apply (s : Screen) : ScreenStep → Screen
  | .oledSet => { s with display :=
      { s.display with oledGeneration := s.display.oledGeneration + 1 } }
  | .config store err => s.config store err
  | .draw fb => s.draw fb
  | .run fb => s.run fb
  | .submit => s.submit
  | .setDirty => s.setDirty
  | .start inp => s.start inp
  | .take now => s.take now
  | .page inp now pg => s.page inp now pg

/-- Each thread takes its steps in order. -/
def Possible (s : Screen) : ScreenStep → Prop
  | .oledSet => s.frame = .draw
  | .config _ _ => s.frame = .draw
  | .draw _ => s.frame ≠ .dirty
  | .run _ => s.frame = .draw
  | .submit => s.frame = .submit
  | .setDirty => s.frame = .dirty
  | .start _ => s.pc = .top
  | .take now => s.pc = .take now
  | .page _ now pg => s.pc = .page now pg

instance (s : Screen) : (e : ScreenStep) → Decidable (s.Possible e)
  | .oledSet | .config _ _ | .run _ | .submit | .setDirty | .start _ | .take _ | .page _ _ _ =>
      inferInstanceAs (Decidable (_ = _))
  | .draw _ => inferInstanceAs (Decidable (_ ≠ _))

/-- Before the first pass of either thread. -/
def boot (ctl : Controller) (generation : BitVec 32) (nodem : Nodem.Config) : Screen where
  display := .boot ctl generation
  pc := .top
  displayFb := false
  displayNodem := ⟨0, 0, 0, .zero, .zero⟩
  fb := fun _ => 0
  nodem := nodem
  frame := .draw
  drawn := false

end Screen

def ScreenTrans (s : Screen) (e : ScreenStep) (s' : Screen) : Prop :=
  s.Possible e ∧ s' = s.apply e

/-- A setup's status probe, when it failed, left the RAM as it was. -/
def ScreenStep.ProbeKeeps : ScreenStep → Prop
  | .start inp => (DisplayEvent.pass inp).ProbeKeeps
  | _ => True

instance : (e : ScreenStep) → Decidable e.ProbeKeeps
  | .start inp =>
      match h : inp.probe with
      | .byte _ => .isTrue fun _ hlost => nomatch h.symm.trans hlost
      | .failed none => .isTrue fun lost hlost => by cases h.symm.trans hlost; rfl
      | .failed (some left) => .isFalse fun hkeeps => nomatch hkeeps _ h
  | .oledSet | .config _ _ | .draw _ | .run _ | .submit | .setDirty | .take _ | .page _ _ _ =>
      .isTrue trivial

/-! ### Pages -/

theorem nodemConfigGet_ok (st : ConfigStore.Store) (err : ℤ) (out : Nodem.Config) :
    (Nodem.nodemConfigGet st err out).1.Ok := by
  unfold Nodem.nodemConfigGet
  dsimp only
  split
  · next c hparse => exact Nodem.parse_ok hparse
  · obtain ⟨c, hparse, -⟩ := Nodem.parse_nodemDefault
    rw [hparse]
    exact Nodem.parse_ok hparse

/-- Nothing of `display_task` but a page's cells, its tables and its records changes in a flush. -/
theorem flushOne_kept (d : Display) (inp : PassInput) (pg : ℕ) :
    (flushOne d inp pg).2.win = d.win ∧ (flushOne d inp pg).2.config = d.config ∧
      (d.fm.Fresh → (flushOne d inp pg).2.fm.Fresh) := by
  have hframe := flushOne_frame d inp pg
  rw [hframe.win, hframe.config, hframe.fm]
  unfold buildInto
  cases inp.source pg with
  | none => exact ⟨rfl, rfl, id⟩
  | some p => exact ⟨rfl, rfl, fun h => (framePrepare_tables h _ _).1⟩

/-- A page of a flush keeps `sent` what the panel shows. -/
theorem flushOne_mirror {d d' : Display} {inp : PassInput} {pg : ℕ} (h : Synced d)
    (hon : d.initialized = true) (hpg : pg < d.win.pages) (hcols : 0 < d.win.cols)
    (hflush : flushOne d inp pg = (false, d')) :
    (d'.initialized = true ∧ d'.dirty = d.dirty) ∧ Synced d' ∧
      (∀ c < d.win.cols, d'.ctl.cell pg (d.win.col + c) = (buildInto d inp pg).pageBuf (1 + c)) ∧
      ∀ q ≠ pg, ∀ j, d'.ctl.cell q j = d.ctl.cell q j := by
  obtain ⟨hvalid, hmirror⟩ := h.mirror hon
  have hfits := h.fits
  have hwin := hfits.cols
  obtain ⟨heq, hcell, hsent⟩ := flushOne_spec hcols (by omega) (by have := hfits.pages.2; omega)
    (fun _ => hmirror.inside pg hpg) hflush
  obtain ⟨hframe, -⟩ := buildInto_frame d inp pg
  have hbuilt : ∀ c, d'.built pg c = (buildInto d inp pg).pageBuf (1 + c) := by
    rw [heq]
    intro c
    unfold buildInto
    cases inp.source pg <;> simp only [Function.update_self]
  have hsame : d'.win = d.win ∧ d'.config = d.config ∧ d'.sentValid = d.sentValid ∧
      d'.initialized = d.initialized ∧ d'.dirty = d.dirty := by
    rw [heq, hframe]
    exact ⟨rfl, rfl, rfl, rfl, rfl⟩
  obtain ⟨hw, hc, hv, hi, hd⟩ := hsame
  refine ⟨⟨hi.trans hon, hd⟩, ⟨?_, fun _ => ⟨hv.trans hvalid, ?_, ?_⟩⟩, fun c hc => ?_,
    fun q hq j => ?_⟩
  · rw [hw, hc]
    exact hfits
  · intro q hq c hc'
    rw [hw] at hq hc' ⊢
    rw [hcell, hsent q c hc']
    by_cases hqpg : q = pg
    · rw [if_pos ⟨hqpg, by omega, by omega⟩, if_pos hqpg, Nat.add_sub_cancel_left]
    · rw [if_neg fun hcov => hqpg hcov.1, if_neg hqpg]
      exact hmirror.inside q hq c hc'
  · intro q hq k hk hout
    rw [hw] at hout
    rw [hcell, if_neg]
    · exact hmirror.outside q hq k hk hout
    · rintro ⟨rfl, hlo, hhi⟩
      exact hout ⟨hpg, hlo, hhi⟩
  · rw [hcell, if_pos ⟨rfl, by omega, by omega⟩, Nat.add_sub_cancel_left, hbuilt]
  · rw [hcell, if_neg fun hcov => hq hcov.1]

namespace Screen

variable {s : Screen}

/-- Page `pg` of the panel shows the framebuffer, or nothing if none was submitted yet; a
framebuffer without a mapping is not spoken of. -/
structure PageShown (s : Screen) (pg : ℕ) : Prop where
  blank : s.displayFb = false → ∀ c < s.display.win.cols,
    s.display.ctl.cell pg (s.display.win.col + c) = 0
  lit : s.displayFb = true → s.displayNodem.oled.present = true → ∀ c < s.display.win.cols,
    ∀ b < 8, (s.display.ctl.cell pg (s.display.win.col + c)).toNat.testBit b = true ↔
      ViewLit s.display.config s.displayNodem s.fb
        (viewX s.display.config (s.display.win.skip + c) (8 * pg + b))
        (viewY s.display.config (s.display.win.skip + c) (8 * pg + b))

/-- The pages that a flush is past, or all of them if there is none. -/
def pagesDone (s : Screen) : ℕ :=
  match s.pc with
  | .page _ pg => pg
  | _ => s.display.win.pages

structure Held (s : Screen) : Prop where
  synced : Synced s.display
  fresh : s.display.fm.Fresh
  nodem : s.nodem.Ok
  submitted : s.displayFb = true → s.displayNodem.Ok
  frame : s.frame ≠ .draw → s.drawn = true
  flushing : ∀ now pg, s.pc = .page now pg → s.display.initialized = true
  shown : s.display.initialized = true → s.display.dirty = false → s.drawn = false →
    ∀ pg < s.pagesDone, pg < s.display.win.pages → s.PageShown pg

theorem boot_held (ctl : Controller) (generation : BitVec 32) {nodem : Nodem.Config}
    (h : nodem.Ok) : (boot ctl generation nodem).Held where
  synced := synced_boot ctl generation
  fresh := fresh_boot
  nodem := h
  submitted := nofun
  frame := fun hne => absurd rfl hne
  flushing := nofun
  shown := nofun

/-! ### A page -/

/-- A page that was built from the shared framebuffer and sent. -/
theorem pageShown_built (hs : s.Held) {inp : PassInput} {now : ℤ} {pg : ℕ} {d : Display}
    (hpg : pg < s.display.win.pages) (hcols : 0 < s.display.win.cols)
    (hcell : ∀ c < s.display.win.cols, d.ctl.cell pg (s.display.win.col + c) =
      (buildInto s.display { inp with source := fun _ => s.source now } pg).pageBuf (1 + c))
    (hwin : d.win = s.display.win) (hconfig : d.config = s.display.config) (pc : PassPc) :
    ({ s with display := d, pc := pc } : Screen).PageShown pg := by
  have hfits := hs.synced.fits
  have hframe : s.display.win.skip + s.display.win.cols ≤ s.display.config.width := by
    have := hfits.frame
    omega
  constructor
  · intro hnone c hc
    dsimp only at hc hnone ⊢
    rw [hwin] at hc ⊢
    rw [hcell c hc]
    simp only [buildInto, source, hnone, Bool.false_eq_true, if_false, writeColumns]
    rw [if_pos (by omega)]
  · intro hsome hp c hc b hb
    dsimp only at hc hsome hp ⊢
    rw [hwin] at hc ⊢
    rw [hcell c hc, hconfig]
    simp only [buildInto, source, hsome, if_true]
    have hrow : 8 * pg + b < s.display.config.height := by
      rw [← hfits.pages.1]
      omega
    exact buildPage_lit hs.fresh (hs.submitted hsome) hp _ _ _ hframe hc hrow hb

/-- A page that was not touched. -/
theorem PageShown.congr {pg : ℕ} (h : s.PageShown pg) {d : Display} {pc : PassPc}
    (hcell : ∀ j, d.ctl.cell pg j = s.display.ctl.cell pg j) (hwin : d.win = s.display.win)
    (hconfig : d.config = s.display.config) :
    ({ s with display := d, pc := pc } : Screen).PageShown pg := by
  constructor
  · intro hnone c hc
    dsimp only at hc ⊢
    rw [hwin] at hc
    rw [hwin, hcell]
    exact h.blank hnone c hc
  · intro hsome hp c hc b hb
    dsimp only at hc ⊢
    rw [hwin] at hc
    rw [hwin, hconfig, hcell]
    exact h.lit hsome hp c hc b hb

namespace Held

/-- **A page of a flush**, or its end. -/
theorem page (h : s.Held) (inp : PassInput) {now : ℤ} {pg : ℕ} (hpc : s.pc = .page now pg) :
    (s.page inp now pg).Held := by
  have hon := h.flushing now pg hpc
  obtain ⟨hvalid, -⟩ := h.synced.mirror hon
  have hdone : s.pagesDone = pg := by
    unfold pagesDone
    rw [hpc]
  unfold Screen.page
  dsimp only
  split_ifs with hmore herr hcols
  · obtain ⟨hw, hc, hfresh⟩ := flushOne_kept s.display
      { inp with source := fun _ => s.source inp.now } pg
    exact { h with
      synced := ⟨by rw [hw, hc]; exact h.synced.fits, nofun⟩
      fresh := hfresh h.fresh
      flushing := nofun
      shown := nofun }
  · obtain ⟨hpg, hcols⟩ := hmore
    rw [Bool.not_eq_true] at herr
    obtain ⟨⟨hon', hdirty'⟩, hsynced, hnew, hold⟩ :=
      flushOne_mirror h.synced hon hpg hcols (Prod.ext herr rfl)
    obtain ⟨hw, hc, hfresh⟩ := flushOne_kept s.display
      { inp with source := fun _ => s.source inp.now } pg
    refine { h with
      synced := hsynced
      fresh := hfresh h.fresh
      flushing := fun _ _ _ => hon'
      shown := fun _ hdirty hdrawn q hq hqp => ?_ }
    have hold' := h.shown hon (hdirty'.symm.trans hdirty) hdrawn
    rcases Nat.lt_succ_iff_lt_or_eq.mp hq with hlt | rfl
    · exact (hold' q (by rw [hdone]; exact hlt) (by omega)).congr
        (fun j => hold q (by omega) j) hw hc
    · exact pageShown_built h hpg hcols hnew hw hc _
  · refine { h with
      synced := ⟨h.synced.fits, fun _ => ⟨rfl, (h.synced.mirror hon).2⟩⟩
      flushing := nofun
      shown := fun _ hdirty hdrawn q hq hqp => ?_ }
    have hpages : q < s.display.win.pages := hqp
    have hshown := h.shown hon hdirty hdrawn q (by rw [hdone]; omega) hpages
    exact hshown.congr (fun _ => rfl) rfl rfl
  · refine { h with
      flushing := nofun
      shown := fun _ _ _ q _ _ => ⟨fun _ c hc => ?_, fun _ _ c hc => ?_⟩ }
    · exact absurd (Nat.zero_lt_of_lt hc) hcols
    · exact absurd (Nat.zero_lt_of_lt hc) hcols

end Held

end Screen

/-! ### The start of a pass -/

/-- Unless there is something to flush or no panel, the panel and its config are as they were. -/
def Unmoved (d d' : Display) : Prop :=
  d'.initialized = true → d'.dirty = false →
    d'.ctl = d.ctl ∧ d'.win = d.win ∧ d'.config = d.config ∧ d.initialized = true ∧
      d.dirty = false

theorem Unmoved.refl (d : Display) : Unmoved d d := fun hon hdirty => ⟨rfl, rfl, rfl, hon, hdirty⟩

theorem Unmoved.off {d d' : Display} (h : d'.initialized = false) : Unmoved d d' :=
  fun hon => absurd (h.symm.trans hon) Bool.false_ne_true

theorem Unmoved.trans {d d' d'' : Display} (h : Unmoved d d') (h' : Unmoved d' d'') :
    Unmoved d d'' := by
  intro hon hdirty
  obtain ⟨hctl, hwin, hconfig, hon', hdirty'⟩ := h' hon hdirty
  obtain ⟨hctl', hwin', hconfig', hon'', hdirty''⟩ := h hon' hdirty'
  exact ⟨hctl.trans hctl', hwin.trans hwin', hconfig.trans hconfig', hon'', hdirty''⟩

theorem configure_unmoved (d : Display) (inp : PassInput) :
    Unmoved d (configure d inp) ∧ (configure d inp).fm = d.fm := by
  unfold configure
  by_cases hgen : d.oledGeneration = d.generation
  · rw [if_pos hgen]
    exact ⟨.refl d, rfl⟩
  · rw [if_neg hgen]
    dsimp only
    split
    · exact ⟨.off rfl, rfl⟩
    · split
      · exact ⟨.off rfl, rfl⟩
      · exact ⟨.off rfl, rfl⟩

theorem setup_unmoved (d : Display) (inp : PassInput) :
    Unmoved d (setup d inp) ∧ (setup d inp).fm = d.fm := by
  unfold setup
  split
  · exact ⟨.refl d, rfl⟩
  · next size _ =>
    split_ifs
    · have hfm : (panelSetup d size inp).2.fm = d.fm := by
        unfold panelSetup
        dsimp only
        split_ifs <;> rfl
      refine ⟨fun hon hdirty => ?_, hfm⟩
      -- a setup that worked leaves something to flush
      dsimp only at hon hdirty
      split_ifs at hdirty with herr
      rw [herr] at hon
      cases hon
    · exact ⟨.refl d, rfl⟩

theorem healthCheck_unmoved (d : Display) (inp : PassInput) :
    Unmoved d (healthCheck d inp).2 ∧ (healthCheck d inp).2.fm = d.fm := by
  unfold healthCheck
  split_ifs with hdue hok
  · refine ⟨fun hon hdirty => ⟨?_, rfl, rfl, hon, hdirty⟩, rfl⟩
    cases hcheck : inp.check with
    | byte status => rfl
    | failed lost =>
        rw [hcheck] at hok
        cases hok
  · exact ⟨.off rfl, rfl⟩
  · exact ⟨.refl d, rfl⟩

namespace Screen

variable {s : Screen}

namespace Held

theorem start (h : s.Held) {inp : PassInput} (hpc : s.pc = .top)
    (hp : (DisplayEvent.pass inp).ProbeKeeps) : (s.start inp).Held := by
  have hsynced := beforeFlush_synced hp h.synced
  have hdone : s.pagesDone = s.display.win.pages := by
    unfold pagesDone
    rw [hpc]
  obtain ⟨hconfigure, hfm₁⟩ := configure_unmoved s.display inp
  obtain ⟨hsetup, hfm₂⟩ := setup_unmoved (configure s.display inp) inp
  obtain ⟨hcheck, hfm₃⟩ := healthCheck_unmoved (setup (configure s.display inp) inp) inp
  have hunmoved := (hconfigure.trans hsetup).trans hcheck
  refine { h with
    synced := hsynced
    fresh := ?_
    flushing := fun now pg hpage => ?_
    shown := fun hon hdirty hdrawn pg hpg hpgs => ?_ }
  · show (healthCheck (setup (configure s.display inp) inp) inp).2.fm.Fresh
    rw [hfm₃, hfm₂, hfm₁]
    exact h.fresh
  · unfold Screen.start at hpage
    dsimp only at hpage
    split_ifs at hpage
  · obtain ⟨hctl, hwin, hconfig, hon', hdirty'⟩ := hunmoved hon hdirty
    have hpages : pg < s.display.win.pages := by
      rw [← hwin]
      exact hpgs
    exact (h.shown hon' hdirty' hdrawn pg (by rw [hdone]; exact hpages) hpages).congr
      (fun j => by rw [hctl]) hwin hconfig

theorem take (h : s.Held) {now : ℤ} (hpc : s.pc = .take now) : (s.take now).Held := by
  have hdone : s.pagesDone = s.display.win.pages := by
    unfold pagesDone
    rw [hpc]
  unfold Screen.take
  split_ifs with hflush
  · rw [Bool.and_eq_true] at hflush
    exact { h with
      synced := ⟨h.synced.fits, h.synced.mirror⟩
      flushing := fun _ _ _ => hflush.1
      shown := fun _ _ _ pg hpg => absurd hpg (Nat.not_lt_zero pg) }
  · refine { h with
      flushing := nofun
      shown := fun hon hdirty hdrawn pg hpg hpgs => ?_ }
    have hshown := h.shown hon hdirty hdrawn pg (by rw [hdone]; exact hpgs) hpgs
    exact ⟨hshown.blank, hshown.lit⟩

theorem config (h : s.Held) (store : ConfigStore.Store) (err : ℤ) : (s.config store err).Held := by
  have hok := nodemConfigGet_ok store err s.nodem
  unfold Screen.config
  dsimp only
  split_ifs
  · exact { h with
      nodem := hok
      frame := fun _ => rfl
      shown := fun _ _ => nofun }
  · refine { h with
      nodem := hok
      shown := fun hon hdirty hdrawn pg hpg hpgs => ?_ }
    have hshown := h.shown hon hdirty hdrawn pg hpg hpgs
    exact ⟨hshown.blank, hshown.lit⟩

/-- **A step** of either thread. -/
theorem apply (h : s.Held) {e : ScreenStep} (hposs : s.Possible e) (hp : e.ProbeKeeps) :
    (s.apply e).Held := by
  cases e with
  | oledSet =>
      refine { h with
        synced := ⟨h.synced.fits, h.synced.mirror⟩
        shown := fun hon hdirty hdrawn pg hpg hpgs => ?_ }
      have hshown := h.shown hon hdirty hdrawn pg hpg hpgs
      exact ⟨hshown.blank, hshown.lit⟩
  | config store err => exact h.config store err
  | draw fb =>
      exact { h with
        frame := fun _ => rfl
        shown := fun _ _ => nofun }
  | run fb =>
      exact { h with
        frame := fun _ => rfl
        shown := fun _ _ => nofun }
  | submit =>
      have hpc : s.frame = .submit := hposs
      have hdrawn := h.frame (by rw [hpc]; nofun)
      exact { h with
        submitted := fun _ => h.nodem
        frame := fun _ => hdrawn
        shown := fun _ _ hfalse => absurd (hdrawn.symm.trans hfalse) nofun }
  | setDirty =>
      exact { h with
        synced := ⟨h.synced.fits, h.synced.mirror⟩
        frame := fun hne => absurd rfl hne
        shown := fun _ => nofun }
  | start inp => exact h.start hposs hp
  | take now => exact h.take hposs
  | page inp now pg => exact h.page inp hposs

end Held

/-- What the panel shows is the framebuffer, and nothing around it. -/
structure Shown (s : Screen) : Prop where
  pages : ∀ pg < s.display.win.pages, s.PageShown pg
  outside : ∀ pg < ramRows / 8, ∀ k < ramCols, ¬ (pg < s.display.win.pages ∧
    s.display.win.col ≤ k ∧ k < s.display.win.col + s.display.win.cols) →
      s.display.ctl.cell pg k = 0

end Screen

/-! ### A pass that nothing comes between -/

section Alone

variable {s : Screen} {inp : PassInput}

/-- The rest of a flush, with the framebuffer as it is. -/
theorem run_pages (hsource : inp.source = fun _ => s.source inp.now) (now : ℤ) {n pg : ℕ}
    {d : Display} (hn : pg + n = d.win.pages) (hcols : 0 < d.win.cols) :
    let r := flushPages inp (List.range' pg n) d
    ∃ es, Run ScreenTrans { s with display := d, pc := .page now pg } es
      { s with
        display :=
          if r.1 then { r.2 with initialized := false, sentValid := false, nextSetup := now }
          else { r.2 with sentValid := true }
        pc := .top } := by
  have hinp : { inp with source := fun _ => s.source inp.now } = inp := by rw [← hsource]
  induction n generalizing pg d with
  | zero =>
      have hend : ¬ (pg < d.win.pages ∧ 0 < d.win.cols) := fun h => by omega
      have hstep : ScreenTrans { s with display := d, pc := .page now pg } (.page inp now pg) _ :=
        ⟨rfl, rfl⟩
      simp only [Screen.apply, Screen.page, if_neg hend, if_pos hcols] at hstep
      exact ⟨_, .snoc (.nil _) hstep⟩
  | succ n ih =>
      have hmore : pg < d.win.pages ∧ 0 < d.win.cols := ⟨by omega, hcols⟩
      have hstep : ScreenTrans { s with display := d, pc := .page now pg } (.page inp now pg) _ :=
        ⟨rfl, rfl⟩
      have hsame : ({ s with display := d, pc := .page now pg } : Screen).source = s.source := rfl
      simp only [Screen.apply, Screen.page, if_pos hmore, hsame, hinp] at hstep
      obtain ⟨hwin, -, -⟩ := flushOne_kept d inp pg
      rw [List.range'_succ, flushPages]
      by_cases herr : (flushOne d inp pg).1 = true
      · simp only [if_pos herr] at hstep ⊢
        exact ⟨_, .snoc (.nil _) hstep⟩
      · simp only [if_neg herr] at hstep ⊢
        obtain ⟨es, hrun⟩ := @ih (pg + 1) _ (by rw [hwin]; omega) (by rw [hwin]; exact hcols)
        exact ⟨_, .cons hstep hrun⟩

/-- A flush, whole. -/
theorem run_flush (hsource : inp.source = fun _ => s.source inp.now) (d : Display) :
    ∃ es, Run ScreenTrans
      { s with display := { d with dirty := false }, pc := .page inp.now 0 } es
      { s with display := flush d inp, pc := .top } := by
  unfold flush flushAll
  by_cases hcols : 0 < d.win.cols
  · obtain ⟨es, hrun⟩ := @run_pages s inp hsource inp.now d.win.pages 0 { d with dirty := false }
      (Nat.zero_add _) hcols
    have hwin := (flushPages_keeps inp (List.range' 0 d.win.pages) { d with dirty := false }).1
    have hcols' : 0 < (flushPages inp (List.range' 0 d.win.pages)
        { d with dirty := false }).2.win.cols := by
      rw [hwin]
      exact hcols
    rw [if_pos hcols, List.range_eq_range']
    simp only [if_pos hcols']
    exact ⟨es, hrun⟩
  · have hend : ¬ (0 < d.win.pages ∧ 0 < d.win.cols) := fun h => hcols h.2
    have hstep : ScreenTrans
        { s with display := { d with dirty := false }, pc := .page inp.now 0 }
        (.page inp inp.now 0) _ := ⟨rfl, rfl⟩
    simp only [Screen.apply, Screen.page, if_neg hend, if_neg hcols] at hstep
    simp only [if_neg hcols, flushPages, Bool.false_eq_true, if_false]
    exact ⟨_, .snoc (.nil _) hstep⟩

/-- **A pass alone** is `displayPass`. -/
theorem run_pass (hsource : inp.source = fun _ => s.source inp.now) (hpc : s.pc = .top) :
    ∃ es, Run ScreenTrans s es { s with display := displayPass s.display inp, pc := .top } := by
  have hstart : ScreenTrans s (.start inp) (s.start inp) := ⟨hpc, rfl⟩
  unfold displayPass beforeFlush
  unfold Screen.start at hstart
  generalize healthCheck (setup (configure s.display inp) inp) inp = r at hstart ⊢
  obtain ⟨lost, d⟩ := r
  cases lost with
  | true => exact ⟨_, .snoc (.nil _) hstart⟩
  | false =>
      have htake : ScreenTrans { s with display := d, pc := .take inp.now } (.take inp.now) _ :=
        ⟨rfl, rfl⟩
      simp only [Screen.apply, Screen.take] at htake
      simp only [Bool.not_false, Bool.true_and]
      by_cases hflush : (d.initialized && d.dirty) = true
      · obtain ⟨es, hrun⟩ := run_flush hsource d
        rw [if_pos hflush] at htake ⊢
        exact ⟨_, .cons hstart (.cons htake hrun)⟩
      · rw [if_neg hflush] at htake ⊢
        exact ⟨_, .cons hstart (.snoc (.nil _) htake)⟩

end Alone

/-! ### Any interleaving -/

/-- **The panel is up to date.**  Whatever the order of the threads' locked sections and whichever
transfers fail, but for a setup's status probe that loses RAM: outside of a flush, a panel that
works, with `display_dirty` clear and nothing drawn since it was set, shows the framebuffer. -/
theorem glass_current (ctl : Controller) (generation : BitVec 32) (store : ConfigStore.Store)
    (err : ℤ) (out : Nodem.Config) {es : List ScreenStep} {s : Screen}
    (hrun : Run (Guarded ScreenTrans fun _ e => e.ProbeKeeps)
      (.boot ctl generation (Nodem.nodemConfigGet store err out).1) es s)
    (hpc : ∀ now pg, s.pc ≠ .page now pg) (hon : s.display.initialized = true)
    (hdirty : s.display.dirty = false) (hdrawn : s.drawn = false) : s.Shown := by
  have hheld : s.Held := hrun.invariant
    (fun s e t h hstep => by
      obtain ⟨hp, hposs, rfl⟩ := hstep
      exact h.apply hposs hp)
    (Screen.boot_held ctl generation (nodemConfigGet_ok store err out))
  refine ⟨fun pg hpg => hheld.shown hon hdirty hdrawn pg ?_ hpg,
    (hheld.synced.mirror hon).2.outside⟩
  unfold Screen.pagesDone
  split
  · next now pg' hpage => exact absurd hpage (hpc now pg')
  · exact hpg

/-- A lit frame, submitted before the panel is set up, and its flush. -/
def glassSteps : List ScreenStep :=
  [.run fun _ => 0xFF, .submit, .setDirty, .start (firstPass (.byte 0)), .take 0] ++
    (List.range 9).map (.page (firstPass (.byte 0)) 0)

theorem glass_current_lit :
    let s := glassSteps.foldl Screen.apply
      (.boot (filledWith 0xFF) 0 (Nodem.nodemConfigGet .empty 0 ⟨0, 0, 0, .zero, .zero⟩).1)
    (s.display.ctl.cell 7 127).toNat.testBit 7 = true := by
  intro s
  have hrun : Run (Guarded ScreenTrans fun _ e => e.ProbeKeeps) _ glassSteps s :=
    Run.of_along Screen.apply (fun s e => e.ProbeKeeps ∧ s.Possible e)
      (fun _ _ h => ⟨h.1, h.2, rfl⟩) (by decide +kernel)
  have hshown := glass_current (filledWith 0xFF) 0 .empty 0 ⟨0, 0, 0, .zero, .zero⟩ hrun
    (fun now pg hpc => nomatch (show s.pc = .top by decide +kernel).symm.trans hpc)
    (by decide +kernel) (by decide +kernel) (by decide +kernel)
  have hwin : s.display.win = ⟨0, 128, 0, 8⟩ := by decide +kernel
  have hpage := hshown.pages 7 (by rw [hwin]; decide)
  have hlit := (hpage.lit (by decide +kernel) (by decide +kernel) 127 (by rw [hwin]; decide) 7
    (by decide)).mpr
  simp only [hwin, Nat.zero_add] at hlit
  refine hlit ⟨?_, ?_, ?_⟩ <;> decide +kernel

end NodemFirmware.Oled
