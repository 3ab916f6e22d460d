import NodemFirmware.Lib.Transition
import NodemFirmware.Hub75.Reads

/-! # What hub75_task draws, and when

The half of the loop of `hub75_task` that draws, against `nodem_task`'s renders and submits: the
framebuffer is looked at once for its hash and once for each row, under the lock each time.

* `Showing` is the loop's state with every locked section as a step; `Screen` has the buffers of
  the arena with it, which the functions of the draw change.
* A panel may be stopped, started and configured in any order at the top of a pass; colours do not
  move, so `fx_frame` stays what it is.
* `Showing.Sound` is what the loop's variables keep, `Showing.HashInjective` that the hashes of a
  run tell its framebuffers apart. -/

namespace NodemFirmware.Hub75

open Checked CText Transition

/-! ### Framebuffers -/

/-- A framebuffer with the config that is in force. -/
structure Shot where
  fb : ℕ → UInt8
  nodem : Nodem.Config

namespace Shot

def hash (a : Shot) : BitVec 32 := nodemHash a.fb a.nodem

/-- Whether pixel `(x, y)` is lit through the mapping. -/
def lit (g : Driver) (a : Shot) (x y : ℕ) : Bool := nodemLit g a.fb a.nodem x y

/-- Equal in everything that the hash is taken over. -/
def Same (a b : Shot) : Prop :=
  a.nodem.width = b.nodem.width ∧ a.nodem.height = b.nodem.height ∧
    a.nodem.hub75 = b.nodem.hub75 ∧ ∀ i < a.nodem.bufferLen, a.fb i = b.fb i

instance (a b : Shot) : Decidable (a.Same b) := inferInstanceAs (Decidable (_ ∧ _ ∧ _ ∧ _))

theorem Same.refl (a : Shot) : a.Same a := ⟨rfl, rfl, rfl, fun _ _ => rfl⟩

/-- The pixels of a framebuffer are in its bytes. -/
theorem Same.lit {a b : Shot} (h : a.Same b) (hok : a.nodem.Ok) (g : Driver) (x y : ℕ) :
    a.lit g x y = b.lit g x y := by
  obtain ⟨hwidth, hheight, hmapping, hbytes⟩ := h
  unfold Shot.lit nodemLit
  simp only [← hwidth, ← hheight, ← hmapping]
  generalize Nodem.mapAxis x _ _ _ _ = fx
  generalize Nodem.mapAxis y _ _ _ _ = fy
  by_cases hin : (0 ≤ fx ∧ fx < a.nodem.width) ∧ 0 ≤ fy ∧ fy < a.nodem.height
  · have hx : fx.toNat < a.nodem.width := by omega
    have hy : fy.toNat < a.nodem.height := by omega
    have hbit := MixedRadix.digits_lt hy hx
    have hbyte : (fy.toNat * a.nodem.width + fx.toNat) >>> 3 < a.nodem.bufferLen := by
      rw [Nat.mul_comm a.nodem.height] at hbit
      rw [Nodem.Config.bufferLen, hok.bitsPerPixel, Nat.shiftRight_eq_div_pow]
      omega
    simp only [fbBit, hbytes _ hbyte]
  · simp only [hin, decide_false, Bool.false_and]

end Shot

/-! ### The loop -/

/-- Where `hub75_task` is: before its wait and after it, and at what it shares in between. -/
inductive DrawPc where
  | wait
  | top
  /-- `atomic_cas(&nodem_dirty, 1, 0)`. -/
  | cas
  /-- `frame_draw_nodem` up to the hash. -/
  | hash
  | row (y : ℕ)
  /-- `nodem.hub75.present`, read without the lock. -/
  | present
deriving DecidableEq, Repr

/-- In a draw, between two rows. -/
def DrawPc.isRow : DrawPc → Bool
  | .row _ => true
  | _ => false

theorem DrawPc.ne_row {pc : DrawPc} (h : pc.isRow = false) (y : ℕ) : pc ≠ .row y := by
  rintro rfl
  exact absurd h.symm Bool.false_ne_true

/-- `nodem_task` between a render and the end of its submit. -/
inductive Publishing where
  | idle
  | rendered
  /-- The config is stored and `nodem_dirty` is not set yet. -/
  | submitted
deriving DecidableEq, Repr

/-- The driver while it runs, the loop's variables, and what it shares with `nodem_task`: the
framebuffer, whether it was submitted, and the config.  The last fields record what was hashed,
the framebuffer whose hash the last draw took, the one that `frame_draw_nodem` last returned true
for, what the rows that were drawn last were drawn from, the framebuffer of the hash of that draw,
and whether a row was drawn since the fallback frame was. -/
structure Showing where
  pc : DrawPc
  driver : Option Driver
  showingNodem : Bool
  fallbackPhase : ℤ
  phase : ℤ
  drawnHash : BitVec 32
  fb : ℕ → UInt8
  submitted : Bool
  nodem : Nodem.Config
  nodemDirty : Bool
  publishing : Publishing
  hashed : List Shot
  started : Shot
  found : Shot
  seen : List Shot
  drawnFrom : Shot
  overdrawn : Bool

inductive ShowStep where
  /-- The wait is over. -/
  | wake
  /-- A config is applied, or the panel restarted: `hub75_start`. -/
  | start (c : Config)
  /-- A disabled config is applied. -/
  | disable
  /-- The panel is stopped for a hold or an overload. -/
  | stop
  /-- On to the drawing, at this uptime. -/
  | pass (now : ℕ)
  /-- The next of the loop's accesses. -/
  | task
  /-- `nodem_runtime_run`, or a resize. -/
  | render (fb : ℕ → UInt8)
  /-- The locked section of `hub75_task_submit`. -/
  | submit (nodem : Nodem.Config)
  /-- Its `atomic_set`. -/
  | dirty

namespace Showing

/-- The framebuffer as a section sees it. -/
def shot (s : Showing) : Shot := ⟨s.fb, s.nodem⟩

/-- Whether there is a framebuffer, and a mapping to draw it through. -/
def mapped (s : Showing) : Bool := s.submitted && s.nodem.hub75.present

/-- `nodem_fb` and `nodem`. -/
def lastSubmitted (s : Showing) : Submitted := ⟨if s.submitted then some s.fb else none, s.nodem⟩

/-- A config was applied, or the panel restarted. -/
def reset (s : Showing) (driver : Option Driver) : Showing :=
  { s with
    driver := driver, showingNodem := false, fallbackPhase := -1, nodemDirty := true,
    overdrawn := false }

/-- Whether the framebuffer is taken for the one that is drawn. -/
def unchanged (s : Showing) : Bool := s.showingNodem && s.shot.hash = s.drawnHash

/-- `frame_draw_nodem` up to the hash. -/
def takeHash (s : Showing) : Showing :=
  if s.mapped then
    if s.unchanged then
      { s with hashed := s.hashed ++ [s.shot], found := s.shot, pc := .wait }
    else
      { s with
        hashed := s.hashed ++ [s.shot], drawnHash := s.shot.hash, started := s.shot, pc := .row 0 }
  else { s with pc := .present }

/-- A row that is drawn. -/
def rowDrawn (s : Showing) (y : ℕ) : Showing :=
  { s with
    seen := if y = 0 then [s.shot] else s.seen ++ [s.shot]
    drawnFrom := s.started
    overdrawn := true }

/-- A row of `frame_draw_nodem`, and its end after the last one. -/
def drawRow (s : Showing) (g : Driver) (y : ℕ) : Showing :=
  if s.mapped then
    if y + 1 < g.active.height then { s.rowDrawn y with pc := .row (y + 1) }
    else { s.rowDrawn y with showingNodem := true, found := s.started, pc := .wait }
  else { s with pc := .present }

/-- Whether the fallback frame applies. -/
def withFallback (s : Showing) : Bool := !s.showingNodem || !s.nodem.hub75.present

/-- Whether it does, and is not taken for the one that is there. -/
def fallsBack (s : Showing) : Bool := s.withFallback && s.phase ≠ s.fallbackPhase

/-- The pass without a framebuffer drawn. -/
def withoutNodem (s : Showing) : Showing :=
  if s.withFallback then
    { s with
      showingNodem := false
      fallbackPhase := s.phase
      overdrawn := if s.phase = s.fallbackPhase then s.overdrawn else false
      pc := .wait }
  else { s with pc := .wait }

def task (s : Showing) : Showing :=
  match s.pc, s.driver with
  | .cas, _ =>
      if s.nodemDirty then { s with nodemDirty := false, pc := .hash }
      else { s with pc := .present }
  | .hash, _ => s.takeHash
  | .row y, some g => s.drawRow g y
  | .present, _ => s.withoutNodem
  | _, _ => s

def apply (s : Showing) : ShowStep → Showing
  | .wake => { s with pc := .top }
  | .start c => s.reset (hub75Alloc (hub75Geometry c))
  | .disable => s.reset none
  | .stop => { s with driver := none }
  | .pass now =>
      { s with
        phase := ((now / 1000 % 2 : ℕ) : ℤ)
        pc := if s.driver.isSome then .cas else .wait }
  | .task => s.task
  | .render fb => { s with fb := fb, publishing := .rendered }
  | .submit nodem => { s with submitted := true, nodem := nodem, publishing := .submitted }
  | .dirty => { s with nodemDirty := true, publishing := .idle }

/-- The loop as it starts; the framebuffer and the ghosts hold anything. -/
def start (fb : ℕ → UInt8) (a : Shot) : Showing where
  pc := .top
  driver := none
  showingNodem := false
  fallbackPhase := -1
  phase := 0
  drawnHash := 0
  fb := fb
  submitted := false
  nodem := ⟨0, 0, 0, .zero, .zero⟩
  nodemDirty := false
  publishing := .idle
  hashed := []
  started := a
  found := a
  seen := []
  drawnFrom := a
  overdrawn := false

end Showing

/-- `color_moves`. -/
def Color.moves (c : Color) : Bool := c.effect ≠ .none && c.speed ≠ 0

/-- A config that the parser returns, without an effect that moves. -/
structure Startable (c : Config) : Prop where
  accepted : ∃ v, hub75ConfigParse v = .ok (some c)
  still : (c.color.moves || c.offColor.moves) = false

/-- The rows of a panel's blocks fit their byte. -/
def ShowStep.Fits : ShowStep → Prop
  | .start c => c.rowBlocks ≤ 255
  | _ => True

/-- The loop takes its steps in order, and so does `nodem_task`. -/
def Showing.Possible (s : Showing) : ShowStep → Prop
  | .wake => s.pc = .wait
  | .start c => s.pc = .top ∧ Startable c
  | .disable | .stop | .pass _ => s.pc = .top
  | .task => s.pc ≠ .wait ∧ s.pc ≠ .top
  | .render _ => s.publishing ≠ .submitted
  | .submit nodem => s.publishing ≠ .submitted ∧ ∃ w, Nodem.parse w = some nodem
  | .dirty => s.publishing = .submitted

/-! ### With the buffers -/

/-- The loop, the buffers of the arena, and the colours of the draw that is going on. -/
structure Screen where
  showing : Showing
  m : Buffers
  on : Paint
  off : Paint

namespace Screen

/-- What a step does to the buffers, every access checked. -/
def draw (fxFrame : ℕ) (s : Screen) : ShowStep → Option (Buffers × Paint × Paint)
  | .start c =>
      match hub75Alloc (hub75Geometry c) with
      | some g => do
          let m ← (g.buffers s.m).hub75Start g
          some (m, s.on, s.off)
      | none => some (s.m, s.on, s.off)
  | .task =>
      match s.showing.pc, s.showing.driver with
      | .hash, some g => do
          let (on, m) ← s.m.paintOf g g.active.color litSlot fxFrame
          let (off, m) ← m.paintOf g g.active.offColor unlitSlot fxFrame
          some (m, on, off)
      | .row y, some g => do
          let (_, m) ← s.m.nodemRow g s.on s.off s.showing.lastSubmitted y
          some (m, s.on, s.off)
      | .present, some g =>
          if s.showing.fallsBack then do
            let m ← s.m.frameDrawFallback g fxFrame s.showing.phase
            some (m, s.on, s.off)
          else some (s.m, s.on, s.off)
      | _, _ => some (s.m, s.on, s.off)
  | _ => some (s.m, s.on, s.off)

def apply (fxFrame : ℕ) (s : Screen) (e : ShowStep) : Option Screen := do
  let (m, on, off) ← s.draw fxFrame e
  some ⟨s.showing.apply e, m, on, off⟩

/-- The task as it starts, over an arena with anything in it. -/
def start (m : Buffers) (on off : Paint) (fb : ℕ → UInt8) (a : Shot) : Screen :=
  ⟨.start fb a, m, on, off⟩

end Screen

def ScreenTrans (fxFrame : ℕ) (s : Screen) (e : ShowStep) (s' : Screen) : Prop :=
  s.showing.Possible e ∧ s.apply fxFrame e = some s'

/-! ### The loop's variables -/

namespace Showing

/-- What the loop and `nodem_task` keep, whatever the order. -/
structure Sound (s : Showing) : Prop where
  running : ∀ g, s.driver = some g → ∃ c, Running c g
  accepted : s.submitted = true → s.nodem.Ok
  absent : s.submitted = false → s.nodem.hub75.present = false
  seen : ∀ a ∈ s.seen, a.nodem.Ok
  phase : 0 ≤ s.phase
  row : ∀ y, s.pc = .row y → s.started ∈ s.hashed ∧
    ∀ g, s.driver = some g → y < g.active.height
  rowBelow : ∀ y, s.pc = .row (y + 1) → s.seen.length = y + 1 ∧ s.drawnFrom = s.started
  drawnFrom : s.seen ≠ [] → s.drawnFrom ∈ s.hashed

theorem start_sound (fb : ℕ → UInt8) (a : Shot) : (Showing.start fb a).Sound where
  running _ hg := nomatch hg
  accepted := nofun
  absent _ := rfl
  seen _ ha := nomatch ha
  phase := le_refl _
  row := nofun
  rowBelow := nofun
  drawnFrom h := absurd rfl h

theorem mapped_iff {s : Showing} :
    s.mapped = true ↔ s.submitted = true ∧ s.nodem.hub75.present = true := by
  simp [mapped]

namespace Sound

variable {s : Showing}

/-- A panel has a row. -/
theorem height_pos (h : s.Sound) {g : Driver} (hg : s.driver = some g) : 0 < g.active.height := by
  obtain ⟨c, hr⟩ := h.running g hg
  rw [hr.derived.active]
  exact hr.accepted.height.1

/-- With something submitted and no mapping lost, the config in force was accepted. -/
theorem shot_ok (h : s.Sound) (hmapped : s.mapped = true) : s.shot.nodem.Ok :=
  h.accepted (mapped_iff.mp hmapped).1

/-- Away from the rows only the driver and the phase matter. -/
theorem away (h : s.Sound) {pc : DrawPc} (hpc : ∀ y, pc ≠ .row y) : ({ s with pc := pc }).Sound :=
  { h with
    row := fun _ hy => absurd hy (hpc _)
    rowBelow := fun _ hy => absurd hy (hpc _) }

theorem takeHash (h : s.Sound) : s.takeHash.Sound := by
  have hgrow : s.seen ≠ [] → s.drawnFrom ∈ s.hashed ++ [s.shot] :=
    fun hne => List.mem_append_left _ (h.drawnFrom hne)
  unfold Showing.takeHash
  split_ifs
  · exact { h with row := nofun, rowBelow := nofun, drawnFrom := hgrow }
  · refine { h with row := ?_, rowBelow := nofun, drawnFrom := hgrow }
    rintro _ ⟨⟩
    exact ⟨List.mem_append_right _ (List.mem_singleton.mpr rfl), fun g hg => h.height_pos hg⟩
  · exact h.away nofun

theorem rowDrawn_seen (h : s.Sound) (hmapped : s.mapped = true) (y : ℕ) :
    ∀ a ∈ (s.rowDrawn y).seen, a.nodem.Ok := by
  intro a ha
  simp only [Showing.rowDrawn] at ha
  split_ifs at ha
  · rw [List.mem_singleton.mp ha]
    exact h.shot_ok hmapped
  · rcases List.mem_append.mp ha with ha | ha
    · exact h.seen a ha
    · rw [List.mem_singleton.mp ha]
      exact h.shot_ok hmapped

/-- Each row adds what it saw. -/
theorem rowDrawn_length (h : s.Sound) {y : ℕ} (hpc : s.pc = .row y) :
    (s.rowDrawn y).seen.length = y + 1 := by
  cases y with
  | zero => rfl
  | succ y => simp [Showing.rowDrawn, (h.rowBelow y hpc).1]

theorem rowDrawn_at (h : s.Sound) {y : ℕ} (hpc : s.pc = .row y) :
    (s.rowDrawn y).seen[y]? = some s.shot := by
  cases y with
  | zero => rfl
  | succ y =>
      obtain ⟨hseen, -⟩ := h.rowBelow y hpc
      show (s.seen ++ [s.shot])[y + 1]? = some s.shot
      rw [List.getElem?_append_right (by omega), hseen, Nat.sub_self]
      rfl

theorem drawRow (h : s.Sound) {g : Driver} {y : ℕ} (hpc : s.pc = .row y)
    (hg : s.driver = some g) : (s.drawRow g y).Sound := by
  obtain ⟨hstarted, -⟩ := h.row y hpc
  unfold Showing.drawRow
  split_ifs with hmapped hlast
  · have hrow : ∀ g', s.driver = some g' → y + 1 < g'.active.height := by
      intro g' hg'
      cases hg.symm.trans hg'
      exact hlast
    refine
      { h with
        seen := h.rowDrawn_seen hmapped y
        row := ?_
        rowBelow := ?_
        drawnFrom := fun _ => hstarted }
    · rintro _ ⟨⟩
      exact ⟨hstarted, hrow⟩
    · rintro _ ⟨⟩
      exact ⟨h.rowDrawn_length hpc, rfl⟩
  · exact
      { h with
        seen := h.rowDrawn_seen hmapped y
        row := nofun
        rowBelow := nofun
        drawnFrom := fun _ => hstarted }
  · exact h.away nofun

theorem withoutNodem (h : s.Sound) : s.withoutNodem.Sound := by
  unfold Showing.withoutNodem
  split_ifs
  all_goals exact { h with row := nofun, rowBelow := nofun }

theorem task (h : s.Sound) : s.task.Sound := by
  unfold Showing.task
  split
  · split_ifs
    · exact { h with row := nofun, rowBelow := nofun }
    · exact h.away nofun
  · exact h.takeHash
  · next hpc hg => exact h.drawRow hpc hg
  · exact h.withoutNodem
  · exact h

theorem reset (h : s.Sound) {driver : Option Driver}
    (hrunning : ∀ g, driver = some g → ∃ c, Running c g) (hpc : s.pc = .top) :
    (s.reset driver).Sound :=
  { h with
    running := hrunning
    row := fun _ hy => nomatch hpc.symm.trans hy
    rowBelow := fun _ hy => nomatch hpc.symm.trans hy }

/-- **Steps.** -/
theorem apply (h : s.Sound) {e : ShowStep} (hposs : s.Possible e) (hfits : e.Fits) :
    (s.apply e).Sound := by
  cases e with
  | wake => exact h.away nofun
  | start c =>
      obtain ⟨hpc, ⟨v, hv⟩, -⟩ := hposs
      exact h.reset (fun g hg => ⟨c, hub75ConfigParse_accepted hv, hfits, hg⟩) hpc
  | disable => exact h.reset (fun _ hg => nomatch hg) hposs
  | stop =>
      have hrow : ∀ y, s.pc ≠ .row y := fun y hy => nomatch hposs.symm.trans hy
      exact
        { h with
          running := fun _ hg => nomatch hg
          row := fun _ hy => absurd hy (hrow _) }
  | pass now =>
      have hphase : (0 : ℤ) ≤ ((now / 1000 % 2 : ℕ) : ℤ) := Int.natCast_nonneg _
      have hpc : ∀ y, (if s.driver.isSome then DrawPc.cas else .wait) ≠ .row y := by
        intro y
        split_ifs <;> nofun
      exact
        { h with
          phase := hphase
          row := fun _ hy => absurd hy (hpc _)
          rowBelow := fun _ hy => absurd hy (hpc _) }
  | task => exact h.task
  | render fb => exact { h with }
  | submit nodem =>
      obtain ⟨-, w, hw⟩ := hposs
      exact { h with accepted := fun _ => Nodem.parse_ok hw, absent := nofun }
  | dirty => exact { h with }

end Sound

end Showing

/-! ### Hashes -/

namespace Showing

/-- No two of the framebuffers hashed have one hash. -/
def HashInjective (s : Showing) : Prop :=
  ∀ a ∈ s.hashed, ∀ b ∈ s.hashed, a.hash = b.hash → a.Same b

instance (s : Showing) : Decidable s.HashInjective :=
  inferInstanceAs (Decidable (∀ a ∈ s.hashed, ∀ b ∈ s.hashed, a.hash = b.hash → a.Same b))

/-- What was hashed stays on record. -/
theorem hashed_subset (s : Showing) (e : ShowStep) : s.hashed ⊆ (s.apply e).hashed := by
  cases e with
  | task =>
      simp only [apply, task]
      split
      · split_ifs <;> exact List.Subset.refl _
      · unfold takeHash
        split_ifs
        · exact List.subset_append_left _ _
        · exact List.subset_append_left _ _
        · exact List.Subset.refl _
      · unfold drawRow
        split_ifs <;> exact List.Subset.refl _
      · unfold withoutNodem
        split_ifs <;> exact List.Subset.refl _
      · exact List.Subset.refl _
  | _ => exact List.Subset.refl _

theorem HashInjective.before {s : Showing} {e : ShowStep} (h : (s.apply e).HashInjective) :
    s.HashInjective :=
  fun a ha b hb => h a (s.hashed_subset e ha) b (s.hashed_subset e hb)

/-- **An equal hash** is that of the framebuffer drawn last, if `drawn_hash` is. -/
theorem unchanged_same {s : Showing} (hs : s.Sound) {g : Driver} (hg : s.driver = some g)
    (hmapped : s.mapped = true) (hsame : s.unchanged = true)
    (hwhole : s.seen.length = g.active.height) (hdrawn : s.drawnHash = s.drawnFrom.hash)
    (hinj : s.takeHash.HashInjective) : s.shot.Same s.drawnFrom := by
  have hne : s.seen ≠ [] := by
    have hpos := hs.height_pos hg
    rw [← hwhole] at hpos
    exact List.ne_nil_of_length_pos hpos
  unfold takeHash at hinj
  rw [if_pos hmapped, if_pos hsame] at hinj
  simp only [unchanged, Bool.and_eq_true, decide_eq_true_eq] at hsame
  exact hinj _ (List.mem_append_right _ (List.mem_singleton.mpr rfl)) _
    (List.mem_append_left _ (hs.drawnFrom hne)) (hsame.2.trans hdrawn)

end Showing

end NodemFirmware.Hub75
