import Mathlib.Algebra.BigOperators.Group.Finset.Basic
import Mathlib.Algebra.BigOperators.Intervals
import NodemFirmware.Hub75.Refresh
import NodemFirmware.Hub75.Wave

/-! # The panel's side

The refresh pipeline with the panel behind it: shift registers clocked by CLK, latches, a row
address, and LEDs that are lit for as long as OE is low.

* `Glass` is the panel; an interrupt first has it play the shift that just ended and then latch
  it.  Each latch's light is an `Exposure`: the row, what is latched, and for how many ticks.
* `PanelStep` is the pipeline's step with that, under any timing of the two PWMs.
* `Lit` is the invariant of the runs: what was latched is the shift's plane of the frame it was
  rendered from, and it was lit for the ticks of that plane.
* `led_light`: over any cycle's worth of latches, whatever is drawn meanwhile, an LED is lit for
  the ticks of the planes whose bit is set, and an LED of a panel that is not driven never. -/

namespace NodemFirmware.Hub75

open CText Transition ShiftRegister MixedRadix

/-- What the panel showed from one latch to the next. -/
structure Exposure where
  row : ℕ
  image : List Column
  ticks : ℕ

/-- The panel: its shift registers (the cell nearest the input first), what is latched and on
which row address, and everything it showed so far. -/
structure Glass where
  reg : List Column
  out : List Column
  row : ℕ
  exposures : List Exposure

/-- A shift goes out: its columns are clocked in, and OE lights what is latched. -/
def Glass.play (g : Driver) (p : Pair) (tm : Timing) (s : Glass) : Glass :=
  { s with
    reg := shifts s.reg (sampled (clkPin g p tm) (dataPins g p tm) tm.latch)
    exposures := s.exposures ++
      [⟨s.row, s.out, (List.range tm.latch).countP fun t => !oePin g p tm t⟩] }

/-- LAT, with the address on the pins. -/
def Glass.latch (scanRows : ℕ) (pins : BitVec 32) (s : Glass) : Glass :=
  { s with out := s.reg, row := addressOn scanRows pins }

/-- The driver and the panel. -/
structure LitPanel where
  refresh : Refresh
  glass : Glass

/-- An interrupt that comes through latches the shift that went out before it. -/
def Glass.next (g : Driver) (st : Refresh) (tm : Timing) (s : Glass) : RefreshEvent → Glass
  | .isr false _ => (s.play g (st.pairs st.pwm) tm).latch g.scanRows
      (latchPins g.scanRows (u8 (st.shiftSeq / g.depth)) st.out)
  | _ => s

def LitPanel.next (g : Driver) (s : LitPanel) (e : RefreshEvent × Timing) : LitPanel where
  refresh := e.1.apply g s.refresh
  glass := s.glass.next g s.refresh e.2 e.1

/-- What can happen: the pipeline's events, under any timing. -/
def PanelStep (g : Driver) : LitPanel → RefreshEvent × Timing → LitPanel → Prop :=
  Guarded (fun s e s' => s' = s.next g e) (fun s e => e.1.Enabled g s.refresh ∧ e.2.Ok g)

/-- Started, with a panel that holds and shows anything. -/
def panelStarted (g : Driver) (old : ℕ → Pair) (out : BitVec 32) (glass : Glass) : LitPanel :=
  ⟨hub75Started g old out, { glass with exposures := [] }⟩

/-- How long an LED was lit in the exposures from `n` on, `len` of them. -/
def Exposure.light (e : Exposure) (row p : ℕ) (line : Fin 6) : ℕ :=
  if e.row = row ∧ e.image.getD p (fun _ => false) line = true then e.ticks else 0

def Glass.light (s : Glass) (n len row p : ℕ) (line : Fin 6) : ℕ :=
  (((s.exposures.drop n).take len).map fun e => e.light row p line).sum

/-! ### Images -/

/-- What the panel latches of shift `seq`: in the cell nearest the input the last column. -/
def image (g : Driver) (frame : Frame) (seq : ℕ) : List Column :=
  (List.range g.chainLen).map fun p =>
    if p < g.driveLen then frameColumn g frame seq (g.driveLen - 1 - p) else fun _ => false

/-- With every panel driven or not, a shift has as many columns as the chain has cells. -/
theorem Running.columns_eq {c : Config} {g : Driver} (h : Running c g) :
    g.columns = g.chainLen ∧ g.driveLen ≤ g.chainLen := by
  have hg := geometry_derived h.accepted h.rowBlocks
  obtain ⟨_, hdiv⟩ := h.accepted.divides
  obtain ⟨d, hpos, hd, rfl⟩ := hub75Alloc_eq_some h.alloc
  rw [hg.totalPanels] at hd
  obtain ⟨hpanels, hlen⟩ := drive_exact h.accepted hg hd
  have hchain : ((hub75Geometry c).drive d).chainLen =
      c.gridX * c.gridY * (c.width / c.gridX * c.rowBlocks) := by
    rw [(hg.drive d).chainLen]
    nth_rewrite 1 [hdiv.width]
    ring
  have hpanel : 0 < c.width / c.gridX * c.rowBlocks := Nat.mul_pos hdiv.panelW_pos hdiv.rb_pos
  have htotal : ((hub75Geometry c).drive d).totalPanels = c.gridX * c.gridY := hg.totalPanels
  unfold Driver.columns Driver.fillLen
  rw [hpanels, htotal, hlen, hchain]
  have hle := Nat.mul_le_mul_right (c.width / c.gridX * c.rowBlocks) hd
  refine ⟨?_, hle⟩
  split_ifs with hlt
  · have := Nat.mul_lt_mul_of_pos_right hlt hpanel
    omega
  · rw [Nat.zero_add, Nat.le_antisymm hd (Nat.not_lt.mp hlt)]

section Play

variable {c : Config} {g : Driver} (hr : Running c g) {p : Pair} {frame : Frame} {seq : ℕ}
  (hseq : seq < 256) (hp : Holds g p frame seq) {tm : Timing} (htm : tm.Ok g)

include hr in
theorem Running.oeOk : OeOk g := oeOk_of_alloc hr.accepted hr.alloc

include hr in
theorem Running.brightness_le : g.active.brightness ≤ brightnessMax := by
  rw [hr.derived.active]
  exact hr.accepted.brightness

include hr hseq hp htm in
/-- **A shift played**: whatever the registers held, they hold the shift's image after it. -/
theorem shifts_image (reg : List Column) (hreg : reg.length = g.chainLen) :
    shifts reg (sampled (clkPin g p tm) (dataPins g p tm) tm.latch) = image g frame seq := by
  obtain ⟨hcolumns, hle⟩ := hr.columns_eq
  rw [sampled_columns hr.oeOk hr.runs hseq hp htm]
  refine List.ext_getElem? fun i => ?_
  unfold image
  rcases Nat.lt_or_ge i g.chainLen with hi | hge
  · rw [getElem?_shifts _ _ (by simp [hcolumns, hreg]) (by rw [hreg]; exact hi),
      List.getElem?_map, List.getElem?_map, List.length_map, List.length_range, hcolumns,
      List.getElem?_range (show g.chainLen - 1 - i < g.chainLen by omega), List.getElem?_range hi,
      Option.map_some, Option.map_some]
    congr 1
    unfold column
    unfold Driver.columns at hcolumns
    by_cases hdriven : i < g.driveLen
    · rw [if_pos hdriven, if_neg (by omega)]
      congr 1
      omega
    · rw [if_neg hdriven, if_pos (by omega)]
  · rw [List.getElem?_eq_none (by rw [length_shifts, hreg]; exact hge),
      List.getElem?_eq_none (by simpa using hge)]

end Play

/-! ### The invariant -/

/-- The exposure that latch `j` began. -/
def exposureOf (g : Driver) (h : History) (j : ℕ) : Exposure where
  row := j % g.cycle / g.depth
  image := image g (h.rendered j) (j % g.cycle)
  ticks := planeTicks g g.active.brightness (j % g.cycle % g.depth)

/-- The state after a run: exposure `j + 1` is the one latch `j` began. -/
structure Lit (g : Driver) (s : LitPanel) (h : History) : Prop where
  refresh : InStep g s.refresh h
  reg : s.glass.reg.length = g.chainLen
  shown : s.glass.exposures.length = h.runs
  latched : ∀ j, h.runs = j + 1 → s.glass.row = (exposureOf g h j).row ∧
    s.glass.out = (exposureOf g h j).image
  exposures : ∀ j, j + 1 < h.runs → s.glass.exposures[j + 1]? = some (exposureOf g h j)

section Run

variable {c : Config} {g : Driver} (hr : Running c g)

theorem lit_started (old : ℕ → Pair) (out : BitVec 32) {glass : Glass}
    (hreg : glass.reg.length = g.chainLen) (hruns : Runs g) :
    Lit g (panelStarted g old out glass) History.start where
  refresh := inStep_started hruns old out
  reg := hreg
  shown := rfl
  latched := fun j h => absurd h (Nat.succ_ne_zero j).symm
  exposures := fun _ h => absurd h (Nat.not_lt_zero _)

/-- An interrupt changes nothing that was rendered before. -/
theorem exposureOf_isr (h : History) (again : Bool) {j : ℕ} (hj : j < h.runs + 2) :
    exposureOf g (h.next g (.isr false again)) j = exposureOf g h j := by
  have hsame : (h.next g (.isr false again)).rendered j = h.rendered j :=
    Function.update_of_ne (by omega) _ _
  unfold exposureOf
  rw [hsame]

include hr in
/-- **An interrupt**: the panel has shown the latch before for the ticks of its plane, and
latches the shift that went out meanwhile. -/
theorem lit_isr {s : LitPanel} {h : History} (hs : Lit g s h) (again : Bool) {tm : Timing}
    (htm : tm.Ok g) (hnext : InStep g (RefreshEvent.apply g s.refresh (.isr false again))
      (h.next g (.isr false again))) :
    Lit g (s.next g (.isr false again, tm)) (h.next g (.isr false again)) := by
  have hruns := hr.runs
  have hin := hs.refresh
  have hcur : Holds g (s.refresh.pairs s.refresh.pwm) (h.rendered h.runs) (h.runs % g.cycle) := by
    rw [hin.pwm]
    exact hin.current
  have hseq := hruns.seq_lt h.runs
  have hrow := hruns.row_lt h.runs
  have hrow8 : u8 (h.runs % g.cycle / g.depth) = h.runs % g.cycle / g.depth :=
    u8_of_le (by have := hruns.cycle_bounds; omega)
  have himage := shifts_image hr hseq hcur htm s.glass.reg hs.reg
  have hticks := oe_ticks hr.oeOk hruns hseq hcur htm hr.brightness_le
  constructor
  · exact hnext
  · exact (length_shifts _ _).trans hs.reg
  · show (s.glass.exposures ++ [_]).length = h.runs + 1
    rw [List.length_append, hs.shown]
    rfl
  · intro j hj
    obtain rfl : j = h.runs := (Nat.succ_injective hj).symm
    rw [exposureOf_isr h again (by omega)]
    constructor
    · show addressOn g.scanRows (latchPins g.scanRows (u8 (s.refresh.shiftSeq / g.depth)) _) = _
      rw [hin.shiftSeq, hrow8]
      exact addressOn_latchPins hruns.scanRows hrow _
    · exact himage
  · intro j hj
    have hjr : j < h.runs := Nat.lt_of_succ_lt_succ hj
    rw [exposureOf_isr h again (by omega)]
    show (s.glass.exposures ++ [_])[j + 1]? = _
    rcases Nat.lt_or_ge (j + 1) h.runs with hlt | hge
    · rw [List.getElem?_append_left (by rw [hs.shown]; exact hlt)]
      exact hs.exposures j hlt
    · have hlast : h.runs = j + 1 := by omega
      obtain ⟨hrow', himg'⟩ := hs.latched j hlast
      rw [List.getElem?_append_right (by rw [hs.shown]; omega), hs.shown, hlast, Nat.sub_self,
        List.getElem?_cons_zero, hrow', himg', hticks, hlast, hruns.litPlane_succ]
      rfl

include hr in
theorem lit_step {s s' : LitPanel} {h : History} {e : RefreshEvent × Timing} (hs : Lit g s h)
    (hstep : PanelStep g s e s') : Lit g s' (h.next g e.1) := by
  obtain ⟨⟨henabled, htm⟩, rfl⟩ := hstep
  obtain ⟨e, tm⟩ := e
  have hnext : InStep g (e.apply g s.refresh) (h.next g e) :=
    inStep_step hr.runs hs.refresh ⟨henabled, rfl⟩
  cases e with
  | write y x planes k => exact { hs with refresh := hnext }
  | isr stuck again =>
      cases stuck with
      | true => exact { hs with refresh := hnext }
      | false => exact lit_isr hr hs again htm hnext

include hr in
theorem lit_run {old : ℕ → Pair} {out : BitVec 32} {glass : Glass}
    (hreg : glass.reg.length = g.chainLen) {es : List (RefreshEvent × Timing)} {s : LitPanel}
    (hrun : Run (PanelStep g) (panelStarted g old out glass) es s) :
    Lit g s (historyOf g (es.map Prod.fst)) := by
  have h := hrun.simulation (fun h e => h.next g e.1) (Lit g)
    (fun _ _ _ _ hs hstep => lit_step hr hs hstep) (lit_started old out hreg hr.runs)
  unfold historyOf
  rwa [List.foldl_map]

/-- While the interrupt is enabled, shifts can go out one after the other. -/
theorem run_interrupts {C : LitPanel → RefreshEvent × Timing → Prop}
    (hC : ∀ s again tm, C s (.isr false again, tm)) {s : LitPanel} (hs : s.refresh.irqOn = true)
    {tm : Timing} (htm : tm.Ok g) (n : ℕ) :
    ∃ t, Run (Guarded (PanelStep g) C) s (List.replicate n (.isr false false, tm)) t ∧
      t.refresh.irqOn = true := by
  induction n with
  | zero => exact ⟨s, .nil s, hs⟩
  | succ n ih =>
      obtain ⟨t, hrun, ht⟩ := ih
      refine ⟨t.next g (.isr false false, tm), ?_, ht⟩
      rw [List.replicate_succ']
      exact .snoc hrun ⟨hC _ _ _, ⟨ht, htm⟩, rfl⟩

theorem runs_interrupts (h : History) (n : ℕ) :
    ((List.replicate n (RefreshEvent.isr false false)).foldl (History.next g) h).runs =
      h.runs + n := by
  induction n generalizing h with
  | zero => rfl
  | succ n ih =>
      rw [List.replicate_succ, List.foldl_cons, ih]
      show h.runs + 1 + n = _
      omega

/-- What an LED shows of latch `j`. -/
def ledBit (g : Driver) (h : History) (j p : ℕ) (line : Fin 6) : Prop :=
  p < g.driveLen ∧ frameColumn g (h.rendered j) (j % g.cycle) (g.driveLen - 1 - p) line = true

instance (g : Driver) (h : History) (j p : ℕ) (line : Fin 6) : Decidable (ledBit g h j p line) :=
  inferInstanceAs (Decidable (_ ∧ _))

theorem image_getD (frame : Frame) (seq : ℕ) {p : ℕ} (hp : p < g.chainLen) (line : Fin 6) :
    (image g frame seq).getD p (fun _ => false) line = true ↔
      p < g.driveLen ∧ frameColumn g frame seq (g.driveLen - 1 - p) line = true := by
  unfold image
  rw [List.getD_eq_getElem?_getD, List.getElem?_map, List.getElem?_range hp, Option.map_some,
    Option.getD_some]
  split_ifs with hdriven
  · simp only [hdriven, true_and]
  · simp only [hdriven, false_and]

/-- The light of an LED in a window of exposures, latch by latch. -/
theorem light_sum {s : LitPanel} {h : History} (hs : Lit g s h) {n len : ℕ} (hn : n + len < h.runs)
    (row : ℕ) {p : ℕ} (hp : p < g.chainLen) (line : Fin 6) :
    s.glass.light (n + 1) len row p line = ∑ j ∈ Finset.Ico n (n + len),
      if j % g.cycle / g.depth = row ∧ ledBit g h j p line then
        planeTicks g g.active.brightness (j % g.cycle % g.depth) else 0 := by
  induction len with
  | zero => simp [Glass.light]
  | succ len ih =>
      have hget := hs.exposures (n + len) (by omega)
      have hidx : n + len + 1 = n + 1 + len := by omega
      rw [← Nat.add_assoc, Finset.sum_Ico_succ_top (by omega), ← ih (by omega)]
      unfold Glass.light
      rw [List.take_add_one, List.getElem?_drop, ← hidx, hget, Option.toList_some,
        List.map_append, List.sum_append, List.map_singleton, List.sum_singleton]
      congr 1
      exact if_congr (and_congr_right fun _ => image_getD _ _ hp line) rfl rfl

/-- Among the latches of a cycle, those of a row are one for each plane. -/
theorem sum_row (hruns : Runs g) (n : ℕ) {row : ℕ} (hrow : row < g.scanRows) (f : ℕ → ℕ) :
    (∑ j ∈ Finset.Ico n (n + g.cycle), if j % g.cycle / g.depth = row then f j else 0) =
      ∑ k ∈ Finset.range g.depth, f (nextMod n g.cycle (row * g.depth + k)) := by
  have hlt : ∀ k < g.depth, row * g.depth + k < g.cycle := fun k hk => digits_lt hrow hk
  symm
  refine Finset.sum_of_injOn (fun k => nextMod n g.cycle (row * g.depth + k)) ?_ ?_ ?_ ?_
  · intro k hk k' hk' heq
    have hk := hlt k (Finset.mem_range.mp hk)
    have hk' := hlt k' (Finset.mem_range.mp hk')
    have hmod := congrArg (· % g.cycle) heq
    simp only [nextMod_mod hk, nextMod_mod hk'] at hmod
    exact Nat.add_left_cancel hmod
  · intro k hk
    have hbounds := nextMod_bounds (hlt k (Finset.mem_range.mp hk)) n
    exact Finset.mem_coe.mpr (Finset.mem_Ico.mpr hbounds)
  · intro j hj hnot
    rw [if_neg]
    rintro rfl
    have hd : 0 < g.depth := hruns.depth.1
    refine hnot ⟨j % g.cycle % g.depth, Finset.mem_coe.mpr (Finset.mem_range.mpr
      (Nat.mod_lt _ hd)), ?_⟩
    refine nextMod_eq ?_ (Finset.mem_Ico.mp hj) ?_
    · rw [Nat.mul_comm, Nat.div_add_mod]
      exact Nat.mod_lt _ hruns.cycle_bounds.1
    · rw [Nat.mul_comm]
      exact (Nat.div_add_mod _ _).symm
  · intro k hk
    have hk := Finset.mem_range.mp hk
    simp only [nextMod_mod (hlt k hk), digits_div hk, if_true]

include hr in
/-- A cycle's worth of latches lights an LED once for every plane. -/
theorem lit_light {s : LitPanel} {h : History} (hs : Lit g s h) {n : ℕ} (hn : n + g.cycle < h.runs)
    {row : ℕ} (hrow : row < g.scanRows) {p : ℕ} (hp : p < g.chainLen) (line : Fin 6) :
    s.glass.light (n + 1) g.cycle row p line = ∑ k ∈ Finset.range g.depth,
      if ledBit g h (nextMod n g.cycle (row * g.depth + k)) p line
      then planeTicks g g.active.brightness k else 0 := by
  rw [light_sum hs hn row hp line]
  simp only [ite_and]
  rw [sum_row hr.runs n hrow]
  refine Finset.sum_congr rfl fun k hk => ?_
  have hk := Finset.mem_range.mp hk
  have hplane : nextMod n g.cycle (row * g.depth + k) % g.cycle = row * g.depth + k :=
    nextMod_mod (digits_lt hrow hk) n
  rw [hplane, digits_mod hk]

/-- **The light of every LED.**  In every run, under any timing of the PWMs and whatever is
drawn in between, each window of a cycle's latches lights an LED for the ticks of exactly those
planes whose bit was set as the plane was rendered; LEDs beyond the driven panels stay dark. -/
theorem led_light (v : CStr) (c : Config) (hv : hub75ConfigParse v = .ok (some c))
    (hrb : c.rowBlocks ≤ 255) (g : Driver) (hg : hub75Alloc (hub75Geometry c) = some g)
    (old : ℕ → Pair) (out : BitVec 32) (glass : Glass) (hreg : glass.reg.length = g.chainLen)
    (es : List (RefreshEvent × Timing)) (s : LitPanel)
    (hrun : Run (PanelStep g) (panelStarted g old out glass) es s) (n : ℕ)
    (hn : n + g.cycle < (historyOf g (es.map Prod.fst)).runs) (row : ℕ) (hrow : row < g.scanRows)
    (p : ℕ) (hp : p < g.chainLen) (line : Fin 6) :
    s.glass.light (n + 1) g.cycle row p line = ∑ k ∈ Finset.range g.depth,
      if ledBit g (historyOf g (es.map Prod.fst)) (nextMod n g.cycle (row * g.depth + k)) p line
      then planeTicks g g.active.brightness k else 0 := by
  have hr : Running c g := ⟨hub75ConfigParse_accepted hv, hrb, hg⟩
  exact lit_light hr (lit_run hr hreg hrun) hn hrow hp line

end Run

/-- The default display, driven whole. -/
def driverDefault : Driver := (hub75Geometry hub75Default).drive 1

theorem running_default : Running hub75Default driverDefault where
  accepted := hub75ConfigParse_accepted (v := hub75DefaultText) rfl
  rowBlocks := by decide
  alloc := rfl

/-- A blank panel of its chain's length. -/
def glassBlank : Glass := ⟨List.replicate driverDefault.chainLen fun _ => false, [], 0, []⟩

/-- PWM_B a tick behind, both stopped in the first idle step, the heartbeat LED on. -/
def timingDefault : Timing := ⟨1, 4100, 4120, 4130, fun _ => true⟩

theorem timingDefault_ok : timingDefault.Ok driverDefault := by
  constructor <;> decide

theorem led_light_default :
    ∃ s, Run (PanelStep driverDefault)
        (panelStarted driverDefault (fun _ => ⟨fun _ => (0, 0), fun _ => (0, 0)⟩) 0 glassBlank)
        (List.replicate 40 (.isr false false, timingDefault)) s ∧
      s.glass.light 1 driverDefault.cycle 7 127 5 = ∑ k ∈ Finset.range driverDefault.depth,
        if ledBit driverDefault (historyOf driverDefault
            ((List.replicate 40 (RefreshEvent.isr false false, timingDefault)).map Prod.fst))
            (nextMod 0 driverDefault.cycle (7 * driverDefault.depth + k)) 127 5
          then planeTicks driverDefault driverDefault.active.brightness k else 0 := by
  obtain ⟨s, hguarded, -⟩ := run_interrupts (C := fun _ _ => True) (fun _ _ _ => trivial)
    (s := panelStarted driverDefault (fun _ => ⟨fun _ => (0, 0), fun _ => (0, 0)⟩) 0 glassBlank) rfl
    timingDefault_ok 40
  have hrun := hguarded.unguarded
  have hlen : 0 + driverDefault.cycle < (historyOf driverDefault
      ((List.replicate 40 (RefreshEvent.isr false false, timingDefault)).map Prod.fst)).runs := by
    rw [List.map_replicate, historyOf, runs_interrupts]
    decide
  exact ⟨s, hrun, led_light hub75DefaultText hub75Default rfl running_default.rowBlocks
    driverDefault running_default.alloc _ 0 glassBlank (List.length_replicate ..) _ s hrun 0 hlen 7
    (by decide) 127 (by decide) 5⟩

end NodemFirmware.Hub75
