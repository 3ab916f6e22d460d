import NodemFirmware.Hub75.Showing

/-! # What the draws leave in the frame

The buffers along a run of `hub75_task`: a row shows what it saw under the lock, and the frame
what its rows saw.

* `RowShows` and `RowsShow` say what is in the frame, row by row; `seenLit` is what a draw lights
  whose rows saw one framebuffer each.
* `Drawn` is what the buffers hold from what the loop's variables say, with a lemma for each
  access of the loop.
* `Screen.step_returns`: every step that is possible is carried out, inside the arena, and
  `Screen.run_returns` the same of a run. -/

namespace NodemFirmware.Hub75

open Checked CText Transition

/-! ### What the frame shows -/

/-- Every pixel of the panels that are driven is the reference's, lit as `lit` says. -/
def Screen.Shows (fxFrame : ℕ) (s : Screen) (g : Driver) (lit : ℕ → ℕ → Bool) : Prop :=
  ShowsPicture g.active g s.m.frame.data fun x y =>
    referenceAt g (if lit x y then g.active.color else g.active.offColor) fxFrame x y

/-- Row `y` of the frame shows the reference's pixels, lit as `lit` says. -/
def RowShows (g : Driver) (fxFrame : ℕ) (frame : Frame) (lit : ℕ → Bool) (y : ℕ) : Prop :=
  ∀ x < g.active.width, ∀ k < g.depth, ∀ bits ∈ pixelBits g frame x y k,
    bits = planeByte (reference g fxFrame (lit x) x y) k

/-- The rows above `n` show a picture. -/
def RowsShow (g : Driver) (fxFrame : ℕ) (frame : Frame) (lit : ℕ → ℕ → Bool) (n : ℕ) : Prop :=
  ∀ y < n, RowShows g fxFrame frame (fun x => lit x y) y

variable {c : Config} {g : Driver} {fxFrame : ℕ} {frame frame' : Frame}
  {new : ℕ → ℕ → Option (BitVec 64)}

/-- A row that was drawn. -/
theorem Overlaid.rowShows (h : Overlaid g frame frame' new) {lit : ℕ → Bool} {y : ℕ}
    (hy : y < g.active.height)
    (hnew : ∀ x < g.active.width, new x y = some (reference g fxFrame (lit x) x y)) :
    RowShows g fxFrame frame' lit y := by
  intro x hx k hk bits hbits
  rw [h x hx y hy k hk, hnew x hx] at hbits
  obtain ⟨_, -, hplane⟩ := Option.mem_map.mp hbits
  exact hplane.symm

/-- A row that was not. -/
theorem Overlaid.rowKept (h : Overlaid g frame frame' new) {lit : ℕ → Bool} {y : ℕ}
    (hy : y < g.active.height) (hnew : ∀ x < g.active.width, new x y = none)
    (hrow : RowShows g fxFrame frame lit y) : RowShows g fxFrame frame' lit y := by
  intro x hx k hk bits hbits
  rw [h x hx y hy k hk, hnew x hx] at hbits
  exact hrow x hx k hk bits hbits

theorem RowsShow.congr {lit lit' : ℕ → ℕ → Bool} {n : ℕ} (h : RowsShow g fxFrame frame lit n)
    (hlit : ∀ y < n, ∀ x < g.active.width, lit x y = lit' x y) :
    RowsShow g fxFrame frame lit' n := by
  intro y hy x hx k hk bits hbits
  show bits = planeByte (reference g fxFrame (lit' x y) x y) k
  rw [← hlit y hy x hx]
  exact h y hy x hx k hk bits hbits

/-- All rows show the picture on every panel that is driven. -/
theorem RowsShow.showsPicture (hr : Running c g) {lit : ℕ → ℕ → Bool}
    (h : RowsShow g fxFrame frame lit g.active.height) :
    ShowsPicture c g frame fun x y =>
      referenceAt g (if lit x y then c.color else c.offColor) fxFrame x y := by
  have hactive := hr.derived.active
  intro x hx y hy hdriven
  rw [← hactive] at hx hy ⊢
  obtain ⟨slot, hslot⟩ := Option.isSome_iff_exists.mp ((hr.slot_isSome hx hy).mpr hdriven)
  refine ⟨slot, hslot, _, (reference_small hr.colored fxFrame (lit x y) x y).2, fun k hk => ?_⟩
  refine h y hy x hx k hk _ ?_
  simp only [pixelBits, hslot, Option.map_some, Option.mem_def]

/-- The same of the driver's own config. -/
theorem RowsShow.shows (hr : Running c g) {s : Screen} {lit : ℕ → ℕ → Bool}
    (h : RowsShow g fxFrame s.m.frame.data lit g.active.height) : s.Shows fxFrame g lit := by
  have hpicture := h.showsPicture hr
  rw [← hr.derived.active] at hpicture
  exact hpicture

/-- What a draw lights that saw `seen`, row by row: through the columns of row 0. -/
def seenLit (g : Driver) (seen : List Shot) (x y : ℕ) : Bool :=
  match seen[y]?, seen[0]? with
  | some a, some first => rowLit g a.fb a.nodem (mapCol g first.nodem) y x
  | _, _ => false

theorem seenLit_append (g : Driver) {seen : List Shot} (a : Shot) {x y : ℕ}
    (hy : y < seen.length) : seenLit g (seen ++ [a]) x y = seenLit g seen x y := by
  unfold seenLit
  rw [List.getElem?_append_left hy, List.getElem?_append_left (Nat.zero_lt_of_lt hy)]

/-- Rows that all saw one framebuffer show it. -/
theorem seenLit_same {seen : List Shot} {a : Shot} (hsame : ∀ b ∈ seen, b.Same a)
    (hok : ∀ b ∈ seen, b.nodem.Ok) {x y : ℕ} (hy : y < seen.length) :
    seenLit g seen x y = a.lit g x y := by
  have hzero : 0 < seen.length := Nat.zero_lt_of_lt hy
  have hrow := List.getElem_mem hy
  have hfirst := List.getElem_mem hzero
  unfold seenLit
  simp only [List.getElem?_eq_getElem hy, List.getElem?_eq_getElem hzero]
  rw [← (hsame _ hrow).lit (hok _ hrow)]
  refine rowLit_mapCol g _ (hok _ hrow) ?_ y
  obtain ⟨hwidth, -, hmapping, -⟩ := hsame _ hrow
  obtain ⟨hwidth', -, hmapping', -⟩ := hsame _ hfirst
  simp only [mapCol, hwidth, hmapping, hwidth', hmapping']

/-- A row looks at its own columns only. -/
theorem rowLit_congr (g : Driver) (fb : ℕ → UInt8) (nodem : Nodem.Config) {cols cols' : ℕ → ℤ}
    {x : ℕ} (h : cols x = cols' x) (y : ℕ) :
    rowLit g fb nodem cols y x = rowLit g fb nodem cols' y x := by
  unfold rowLit
  rw [h]

/-! ### The buffers -/

/-- What the buffers of a running driver hold, from what the loop's variables say: the frame is
what the rows of the last draw saw, and the fallback's while no row was drawn over it. -/
structure Drawn (fxFrame : ℕ) (s : Showing) (g : Driver) (m : Buffers) (on off : Paint) : Prop where
  built : Built g m
  paints : ∀ y, s.pc = .row y → Paints g m fxFrame on off
  rows : ∀ y, s.pc = .row (y + 1) →
    RowsShow g fxFrame m.frame.data (seenLit g s.seen) (y + 1) ∧
      ∀ first, s.seen[0]? = some first →
        ∀ x < g.active.width, m.mapCols.data x = mapCol g first.nodem x
  nodem : s.showingNodem = true → s.seen.length = g.active.height →
    (∀ y, s.pc ≠ .row (y + 1)) →
      RowsShow g fxFrame m.frame.data (seenLit g s.seen) g.active.height
  fallback : s.overdrawn = false → s.fallbackPhase ≠ -1 →
    RowsShow g fxFrame m.frame.data (fallbackLit g s.fallbackPhase) g.active.height

namespace Drawn

variable {s t : Showing} {m : Buffers} {on off : Paint}

/-- Away from the rows the place in the loop does not matter. -/
theorem away (h : Drawn fxFrame s g m on off) (hpc : ∀ y, s.pc ≠ .row (y + 1))
    (hpc' : ∀ y, t.pc ≠ .row y) (hshowing : t.showingNodem = s.showingNodem)
    (hseen : t.seen = s.seen) (hoverdrawn : t.overdrawn = s.overdrawn)
    (hphase : t.fallbackPhase = s.fallbackPhase) : Drawn fxFrame t g m on off where
  built := h.built
  paints y hy := absurd hy (hpc' y)
  rows y hy := absurd hy (hpc' _)
  nodem := by
    rw [hshowing, hseen]
    exact fun hs hlength _ => h.nodem hs hlength hpc
  fallback := by
    rw [hoverdrawn, hphase]
    exact h.fallback

/-- Other colours in their tables leave the frame and the columns. -/
theorem withLuts (h : Drawn fxFrame s g m on off) (hpc : ∀ y, s.pc ≠ .row y)
    (on' off' : Paint) {lut lut' : Buffer (BitVec 64)}
    (hm : Built g ((m.withLut litSlot lut).withLut unlitSlot lut')) :
    Drawn fxFrame s g ((m.withLut litSlot lut).withLut unlitSlot lut') on' off' where
  built := hm
  paints y hy := absurd hy (hpc y)
  rows _ hy := absurd hy (hpc _)
  nodem := h.nodem
  fallback := h.fallback

/-- A panel that was just started shows nothing yet. -/
theorem reset {m : Buffers} (hm : Built g m) (hpc : s.pc = .top) (on off : Paint) :
    Drawn fxFrame (s.reset (some g)) g m on off where
  built := hm
  paints _ hy := nomatch hpc.symm.trans hy
  rows _ hy := nomatch hpc.symm.trans hy
  nodem := nofun
  fallback _ hphase := absurd rfl hphase

end Drawn

section Steps

variable {s : Showing} {m : Buffers} {on off : Paint}

/-- **The hash**, with the colours of the draw that may follow it. -/
theorem takeHash_drawn (hs : s.Sound) (h : Drawn fxFrame s g m on off) (hpc : s.pc = .hash)
    (hg : s.driver = some g) :
    Returns (do
      let (on, m) ← m.paintOf g g.active.color litSlot fxFrame
      let (off, m) ← m.paintOf g g.active.offColor unlitSlot fxFrame
      some (m, on, off)) fun r => Drawn fxFrame s.takeHash g r.1 r.2.1 r.2.2 := by
  obtain ⟨c, hr⟩ := hs.running g hg
  refine (paintOf_reference_slot hr h.built fxFrame true litSlot).bind ?_
  rintro ⟨on', _⟩ ⟨lut, rfl, hm, hlit⟩
  refine (paintOf_reference_slot hr hm fxFrame false unlitSlot).bind ?_
  rintro ⟨off', _⟩ ⟨lut', rfl, hm', hunlit⟩
  have hpaints := paints_of (m := m) fxFrame hlit hunlit
  have hrow : ∀ y, s.pc ≠ .row y := fun _ hy => nomatch hpc.symm.trans hy
  have hluts := h.withLuts hrow on' off' hm'
  refine .some ?_
  unfold Showing.takeHash
  split_ifs
  · exact hluts.away (fun y => hrow _) nofun rfl rfl rfl rfl
  · exact
      { built := hm'
        paints := fun _ _ => hpaints
        rows := nofun
        nodem := fun hshowing hlength _ => hluts.nodem hshowing hlength fun y => hrow _
        fallback := hluts.fallback }
  · exact hluts.away (fun y => hrow _) nofun rfl rfl rfl rfl

/-- The columns of a draw are those of its row 0. -/
theorem rowDrawn_cols (hs : s.Sound) (h : Drawn fxFrame s g m on off) {y : ℕ}
    (hpc : s.pc = .row y) {cols : ℕ → ℤ}
    (hcols : ∀ x < g.active.width,
      cols x = if y = 0 then mapCol g s.nodem x else m.mapCols.data x)
    {first : Shot} (hfirst : (s.rowDrawn y).seen[0]? = some first) :
    ∀ x < g.active.width, cols x = mapCol g first.nodem x := by
  intro x hx
  rw [hcols x hx]
  cases y with
  | zero =>
      cases hfirst
      rfl
  | succ y =>
      obtain ⟨hseen, -⟩ := hs.rowBelow y hpc
      have hold : s.seen[0]? = some first := by
        rw [← hfirst]
        exact (List.getElem?_append_left (by omega)).symm
      exact (h.rows y hpc).2 first hold x hx

/-- What row `y` leaves of the frame: itself, and the rows above it. -/
theorem rowDrawn_rows (hs : s.Sound) (h : Drawn fxFrame s g m on off) {y : ℕ}
    (hpc : s.pc = .row y) (hy : y < g.active.height) {cols : ℕ → ℤ} {frame : Frame}
    (hcols : ∀ x < g.active.width,
      cols x = if y = 0 then mapCol g s.nodem x else m.mapCols.data x)
    (hover : Overlaid g m.frame.data frame fun x' y' =>
      if y' = y then some (reference g fxFrame (rowLit g s.fb s.nodem cols y x') x' y)
      else none) :
    RowsShow g fxFrame frame (seenLit g (s.rowDrawn y).seen) (y + 1) := by
  have hlength := hs.rowDrawn_length hpc
  intro y' hy'
  rcases Nat.lt_succ_iff_lt_or_eq.mp hy' with hlt | rfl
  · cases y with
    | zero => exact absurd hlt (Nat.not_lt_zero y')
    | succ y =>
        obtain ⟨hseen, -⟩ := hs.rowBelow y hpc
        have hshown : RowShows g fxFrame m.frame.data (fun x => seenLit g s.seen x y') y' :=
          (h.rows y hpc).1 y' hlt
        have hkept := hover.rowKept (by omega) (fun x _ => if_neg hlt.ne) hshown
        have heq : (fun x => seenLit g s.seen x y') =
            fun x => seenLit g (s.rowDrawn (y + 1)).seen x y' := by
          funext x
          exact (seenLit_append g s.shot (by omega)).symm
        rwa [heq] at hkept
  · refine hover.rowShows hy fun x hx => ?_
    have hfirst := List.getElem?_eq_getElem (show 0 < (s.rowDrawn y').seen.length by omega)
    have hmap := rowDrawn_cols hs h hpc hcols hfirst
    have hlit : seenLit g (s.rowDrawn y').seen x y' = rowLit g s.fb s.nodem cols y' x := by
      unfold seenLit
      rw [hs.rowDrawn_at hpc, hfirst]
      exact rowLit_congr g _ _ (hmap x hx).symm y'
    simp only [if_true, hlit]

/-- **A row**, drawn or not any more. -/
theorem drawRow_drawn (hs : s.Sound) (h : Drawn fxFrame s g m on off) {y : ℕ}
    (hpc : s.pc = .row y) (hg : s.driver = some g) :
    Returns (do
      let (_, m) ← m.nodemRow g on off s.lastSubmitted y
      some (m, on, off)) fun r => Drawn fxFrame (s.drawRow g y) g r.1 r.2.1 r.2.2 := by
  obtain ⟨c, hr⟩ := hs.running g hg
  have hy := (hs.row y hpc).2 g hg
  unfold Showing.drawRow
  by_cases hmapped : s.mapped = true
  · obtain ⟨hsubmitted, hpresent⟩ := Showing.mapped_iff.mp hmapped
    have hfb : s.lastSubmitted.nodemFb = some s.fb := if_pos hsubmitted
    refine (nodemRow_overlaid hr h.built (h.paints y hpc) hy hfb hpresent).bind ?_
    rintro ⟨-, -⟩ ⟨rfl, cols, frame, rfl, hcols, hover⟩
    have hpaints := h.paints y hpc
    have hrows := rowDrawn_rows hs h hpc hy hcols hover
    have hm := (h.built.withCols cols).withFrame frame
    refine .some ?_
    rw [if_pos hmapped]
    split_ifs with hlast
    · refine
        { built := hm
          paints := fun _ _ => ⟨hpaints.lit, hpaints.unlit⟩
          rows := ?_
          nodem := fun _ _ hrow => absurd rfl (hrow y)
          fallback := nofun }
      rintro _ ⟨⟩
      exact ⟨hrows, fun first hfirst => rowDrawn_cols hs h hpc hcols hfirst⟩
    · have hheight : y + 1 = g.active.height := by omega
      exact
        { built := hm
          paints := nofun
          rows := nofun
          nodem := fun _ _ _ => hheight ▸ hrows
          fallback := nofun }
  · have hshown : s.lastSubmitted.shown = false := by
      rw [Bool.not_eq_true] at hmapped
      rw [← hmapped]
      unfold Submitted.shown Showing.lastSubmitted Showing.mapped
      cases s.submitted <;> rfl
    rw [nodemRow_of_not_shown hshown, if_neg hmapped]
    refine .some ?_
    cases y with
    | zero =>
        refine h.away (fun y' hy' => ?_) nofun rfl rfl rfl rfl
        cases hpc.symm.trans hy'
    | succ y =>
        obtain ⟨hlength, -⟩ := hs.rowBelow y hpc
        exact
          { built := h.built
            paints := nofun
            rows := nofun
            nodem := fun _ hwhole _ => absurd (hlength.symm.trans hwhole) hy.ne
            fallback := h.fallback }

/-- **The end of a pass that drew no framebuffer.** -/
theorem withoutNodem_drawn (hs : s.Sound) (h : Drawn fxFrame s g m on off)
    (hpc : s.pc = .present) (hg : s.driver = some g) :
    Returns (if s.fallsBack then do
        let m ← m.frameDrawFallback g fxFrame s.phase
        some (m, on, off)
      else some (m, on, off)) fun r => Drawn fxFrame s.withoutNodem g r.1 r.2.1 r.2.2 := by
  obtain ⟨c, hr⟩ := hs.running g hg
  have hrow : ∀ y, s.pc ≠ .row y := fun _ hy => nomatch hpc.symm.trans hy
  unfold Showing.withoutNodem Showing.fallsBack
  cases happlies : s.withFallback with
  | false =>
      simp only [Bool.false_and, Bool.false_eq_true, if_false]
      exact .some (h.away (fun y => hrow _) nofun rfl rfl rfl rfl)
  | true =>
      simp only [Bool.true_and, decide_eq_true_eq, if_true]
      by_cases hphase : s.phase = s.fallbackPhase
      · rw [if_neg (not_not.mpr hphase), if_pos hphase]
        refine .some
          { built := h.built
            paints := nofun
            rows := nofun
            nodem := nofun
            fallback := ?_ }
        rw [hphase]
        exact h.fallback
      · rw [if_pos hphase, if_neg hphase]
        refine (frameDrawFallback_overlaid hr h.built fxFrame s.phase).bind ?_
        rintro m' ⟨hm', hover⟩
        exact .some
          { built := hm'
            paints := nofun
            rows := nofun
            nodem := nofun
            fallback := fun _ _ y hy => hover.rowShows hy fun x _ => rfl }

end Steps

/-! ### Runs -/

namespace Screen

variable {s t : Screen} {e : ShowStep} {es : List ShowStep}

/-- The loop's variables keep their invariant, and a driver's buffers hold what they say. -/
structure Sound (fxFrame : ℕ) (s : Screen) : Prop where
  showing : s.showing.Sound
  drawn : ∀ g, s.showing.driver = some g → Drawn fxFrame s.showing g s.m s.on s.off

theorem start_sound (fxFrame : ℕ) (m : Buffers) (on off : Paint) (fb : ℕ → UInt8) (a : Shot) :
    (Screen.start m on off fb a).Sound fxFrame :=
  ⟨Showing.start_sound fb a, fun _ hg => nomatch hg⟩

/-- A step whose draw leaves what its control step says. -/
theorem returns_of_draw (hs : s.Sound fxFrame) (hposs : s.showing.Possible e) (hfits : e.Fits)
    (hdraw : Returns (s.draw fxFrame e) fun r => ∀ g, (s.showing.apply e).driver = some g →
      Drawn fxFrame (s.showing.apply e) g r.1 r.2.1 r.2.2) :
    Returns (s.apply fxFrame e) fun t => t.showing = s.showing.apply e ∧ t.Sound fxFrame := by
  refine hdraw.bind ?_
  rintro ⟨m, on, off⟩ hdrawn
  exact .some ⟨rfl, hs.showing.apply hposs hfits, hdrawn⟩

/-- The panel is started and stopped at the top only. -/
theorem driver_task (s : Showing) : s.task.driver = s.driver := by
  unfold Showing.task
  split
  · split_ifs <;> rfl
  · unfold Showing.takeHash
    split_ifs <;> rfl
  · unfold Showing.drawRow
    split_ifs <;> rfl
  · unfold Showing.withoutNodem
    split_ifs <;> rfl
  · rfl

/-- An access of the loop while the panel runs. -/
theorem task_drawn (hs : s.Sound fxFrame) (hg : s.showing.driver = some g) :
    Returns (s.draw fxFrame .task) fun r => Drawn fxFrame s.showing.task g r.1 r.2.1 r.2.2 := by
  have hd := hs.drawn g hg
  unfold draw Showing.task
  simp only [hg]
  cases hpc : s.showing.pc with
  | wait | top => exact .some hd
  | cas =>
      have haway : ∀ y, s.showing.pc ≠ .row y := fun _ hy => nomatch hpc.symm.trans hy
      refine .some ?_
      simp only
      split_ifs
      · exact hd.away (fun _ => haway _) nofun rfl rfl rfl rfl
      · exact hd.away (fun _ => haway _) nofun rfl rfl rfl rfl
  | hash => exact takeHash_drawn hs.showing hd hpc hg
  | row y => exact drawRow_drawn hs.showing hd hpc hg
  | present => exact withoutNodem_drawn hs.showing hd hpc hg

/-- An access of the loop. -/
theorem task_returns (hs : s.Sound fxFrame) :
    Returns (s.draw fxFrame .task) fun r => ∀ g, s.showing.task.driver = some g →
      Drawn fxFrame s.showing.task g r.1 r.2.1 r.2.2 := by
  rw [driver_task]
  cases hg : s.showing.driver with
  | none =>
      have hdraw : s.draw fxFrame .task = some (s.m, s.on, s.off) := by
        unfold draw
        simp only [hg]
        cases s.showing.pc <;> rfl
      rw [hdraw]
      exact .some fun _ hg' => nomatch hg'
  | some g =>
      refine (task_drawn hs hg).mono ?_
      rintro r hr _ ⟨⟩
      exact hr

/-- **`hub75_start`**, if the arena has room for a panel. -/
theorem start_returns (hpc : s.showing.pc = .top)
    (haccepted : ∃ v, hub75ConfigParse v = .ok (some c)) (hrb : c.rowBlocks ≤ 255) :
    Returns (s.draw fxFrame (.start c)) fun r =>
      ∀ g, (s.showing.apply (.start c)).driver = some g →
        Drawn fxFrame (s.showing.apply (.start c)) g r.1 r.2.1 r.2.2 := by
  obtain ⟨v, hv⟩ := haccepted
  simp only [draw, Showing.apply]
  cases halloc : hub75Alloc (hub75Geometry c) with
  | none => exact .some fun _ hg => absurd hg.symm (Option.some_ne_none _)
  | some g =>
      have hr : Running c g := ⟨hub75ConfigParse_accepted hv, hrb, halloc⟩
      refine (hub75Start_checked hr s.m 0).bind ?_
      rintro m ⟨hready, -, -⟩
      refine .some ?_
      rintro _ ⟨⟩
      exact .reset hready.built hpc s.on s.off

/-- **Steps:** what is possible is carried out, inside the arena, and leaves the frame as the
loop's variables say. -/
theorem step_returns (hs : s.Sound fxFrame) (hposs : s.showing.Possible e) (hfits : e.Fits) :
    Returns (s.apply fxFrame e) fun t => t.showing = s.showing.apply e ∧ t.Sound fxFrame := by
  refine returns_of_draw hs hposs hfits ?_
  cases e with
  | wake =>
      have hpc : s.showing.pc = .wait := hposs
      refine .some fun g hg => (hs.drawn g hg).away ?_ (DrawPc.ne_row rfl) rfl rfl rfl rfl
      rw [hpc]
      exact fun _ => DrawPc.ne_row rfl _
  | start c => exact start_returns hposs.1 hposs.2.accepted hfits
  | disable => exact .some fun _ hg => absurd hg.symm (Option.some_ne_none _)
  | stop => exact .some fun _ hg => absurd hg.symm (Option.some_ne_none _)
  | pass now =>
      have hpc : s.showing.pc = .top := hposs
      refine .some fun g hg => (hs.drawn g hg).away ?_ (DrawPc.ne_row ?_) rfl rfl rfl rfl
      · rw [hpc]
        exact fun _ => DrawPc.ne_row rfl _
      · simp only [Showing.apply]
        split_ifs <;> rfl
  | task => exact task_returns hs
  | render fb =>
      refine .some fun g hg => ?_
      have hd := hs.drawn g hg
      exact ⟨hd.built, hd.paints, hd.rows, hd.nodem, hd.fallback⟩
  | submit nodem =>
      refine .some fun g hg => ?_
      have hd := hs.drawn g hg
      exact ⟨hd.built, hd.paints, hd.rows, hd.nodem, hd.fallback⟩
  | dirty =>
      refine .some fun g hg => ?_
      have hd := hs.drawn g hg
      exact ⟨hd.built, hd.paints, hd.rows, hd.nodem, hd.fallback⟩

/-- **Runs** of the loop are runs with the buffers. -/
theorem run_returns {C : Showing → ShowStep → Prop} (hs : s.Sound fxFrame)
    (h : Along Showing.apply (fun s e => s.Possible e ∧ e.Fits ∧ C s e) s.showing es) :
    ∃ t, Run (Guarded (ScreenTrans fxFrame) fun s e => e.Fits ∧ C s.showing e) s es t ∧
      t.showing = es.foldl Showing.apply s.showing ∧ t.Sound fxFrame := by
  induction es generalizing s with
  | nil => exact ⟨s, .nil s, rfl, hs⟩
  | cons e es ih =>
      obtain ⟨⟨hposs, hfits, hC⟩, hrest⟩ := h
      obtain ⟨t, ht, hshowing, hsound⟩ := step_returns hs hposs hfits
      rw [← hshowing] at hrest
      obtain ⟨u, hrun, hu, husound⟩ := ih hsound hrest
      refine ⟨u, .cons ⟨⟨hfits, hC⟩, hposs, ht⟩ hrun, ?_, husound⟩
      rw [hu, hshowing, List.foldl_cons]

/-- A step that was taken is the one of the loop's variables. -/
theorem sound_step (hs : s.Sound fxFrame) (hfits : e.Fits) (h : ScreenTrans fxFrame s e t) :
    t.showing = s.showing.apply e ∧ t.Sound fxFrame := by
  obtain ⟨t', ht', hsound⟩ := step_returns hs h.1 hfits
  cases ht'.symm.trans h.2
  exact hsound

end Screen

/-! ### A small panel -/

/-- Two pictures of one frame agree wherever a panel is driven. -/
theorem RowsShow.agree {c : Config} {g : Driver} (hr : Running c g) {fxFrame : ℕ} {frame : Frame}
    {lit lit' : ℕ → ℕ → Bool} (h : RowsShow g fxFrame frame lit g.active.height)
    (h' : ShowsPicture g.active g frame fun x y =>
      referenceAt g (if lit' x y then g.active.color else g.active.offColor) fxFrame x y)
    {x y k : ℕ} (hx : x < g.active.width) (hy : y < g.active.height)
    (hdriven : panelIndex g.active x y < g.drivePanels) (hk : k < g.depth) :
    planeByte (reference g fxFrame (lit x y) x y) k =
      planeByte (reference g fxFrame (lit' x y) x y) k := by
  obtain ⟨slot, hslot, planes, hplanes, hbits⟩ := h' x hx y hy hdriven
  have href := (reference_small hr.colored fxFrame (lit' x y) x y).2
  cases href.symm.trans hplanes
  rw [← hbits k hk]
  refine (h y hy x hx k hk _ ?_).symm
  simp only [pixelBits, hslot, Option.map_some, Option.mem_def]

def hub75SmallText : CStr := cs "8:4:rt:1x1,2:n:500:shift:4,#ff0000,#000000,512"

def hub75Small : Config := { hub75Default with width := 8, height := 4, scan := 2 }

def smallDriver : Driver := (hub75Geometry hub75Small).drive 1

/-- A framebuffer of its size, mapped to it or not. -/
def nodemSmall : Nodem.Config := ⟨8, 4, 1, .zero, ⟨true, 0, 0, 1, 1⟩⟩
def nodemBare : Nodem.Config := ⟨8, 4, 1, .zero, .zero⟩

/-- Dark, and before anything was submitted. -/
def blankShot : Shot := ⟨fun _ => 0, nodemBare⟩

/-- The task as it starts, over an arena that holds nothing. -/
def Screen.blank : Screen :=
  let paint : Paint := ⟨.none, 0, 0, [], 0, 0, 0⟩
  .start arenaBlank paint paint (fun _ => 0) blankShot

theorem running_small : Running hub75Small smallDriver := by
  have hv : hub75ConfigParse hub75SmallText = .ok (some hub75Small) := by rfl
  exact ⟨hub75ConfigParse_accepted hv, by decide, by rfl⟩

/-- The steps that are possible with the small panel. -/
def Showing.Taken (s : Showing) : ShowStep → Prop
  | .wake => s.pc = .wait
  | .start c => s.pc = .top ∧ c = hub75Small
  | .disable | .stop | .pass _ => s.pc = .top
  | .task => s.pc ≠ .wait ∧ s.pc ≠ .top
  | .render _ => s.publishing ≠ .submitted
  | .submit nodem => s.publishing ≠ .submitted ∧ (nodem = nodemSmall ∨ nodem = nodemBare)
  | .dirty => s.publishing = .submitted

instance (s : Showing) : (e : ShowStep) → Decidable (s.Taken e)
  | .wake => inferInstanceAs (Decidable (_ = _))
  | .start _ => inferInstanceAs (Decidable (_ ∧ _))
  | .disable | .stop | .pass _ => inferInstanceAs (Decidable (_ = _))
  | .task => inferInstanceAs (Decidable (_ ∧ _))
  | .render _ => inferInstanceAs (Decidable (_ ≠ _))
  | .submit _ => inferInstanceAs (Decidable (_ ∧ (_ ∨ _)))
  | .dirty => inferInstanceAs (Decidable (_ = _))

theorem Showing.Taken.possible {s : Showing} {e : ShowStep} (h : s.Taken e) :
    s.Possible e ∧ e.Fits := by
  cases e with
  | start c =>
      obtain ⟨hpc, rfl⟩ := h
      exact ⟨⟨hpc, ⟨hub75SmallText, by rfl⟩, by decide⟩, (by decide : hub75Small.rowBlocks ≤ 255)⟩
  | submit nodem =>
      obtain ⟨hpublishing, rfl | rfl⟩ := h
      · exact ⟨⟨hpublishing, cs "8:4:1,hub75:0:0:1:1", by decide⟩, trivial⟩
      · exact ⟨⟨hpublishing, cs "8:4:1", by decide⟩, trivial⟩
  | _ => exact ⟨h, trivial⟩

end NodemFirmware.Hub75
