import NodemFirmware.Lib.Transition
import NodemFirmware.Nodem.Config

/-! # The framebuffer and its two readers

`nodem_task` renders into one framebuffer, which `display_task` and `hub75_task` read in place,
each with the config that was last submitted to it.

* `Shared` has every locked section of the three threads as a step: the resize, the render, the
  two submits, a page of `display_task`, a row of `frame_draw_nodem`.
* `Shared.Settled` is what every step keeps: a consumer's config has the size the runtime renders
  at, except between a render and the submit to that consumer.
* `reads_match`: frames are read with the size they were rendered in exactly in the runs in which
  no page or row of another size falls into that gap, and no row finds columns mapped before a
  submit of another width. -/

namespace NodemFirmware.Nodem

open CText Transition

structure Size where
  width : ℕ
  height : ℕ
deriving DecidableEq, Repr

def Config.size (c : Config) : Size := ⟨c.width, c.height⟩

/-- Where `nodem_task` is in its loop. -/
inductive TaskPc where
  /-- Draining its transports, until the next frame is due. -/
  | drain
  | displaySubmit
  | hub75Submit
deriving DecidableEq, Repr

/-- The loop of `frame_draw_nodem`: the next row, the panel's height, and the width that
`map_cols` was filled for. -/
structure Drawing where
  y : ℕ
  h : ℕ
  mapWidth : ℕ
deriving DecidableEq, Repr

/-- A page or a row built from the framebuffer: the size it was built with, the width its columns
were mapped with if it shows any, and the size of what `nodem_runtime_run` wrote since the last
resize. -/
structure FbRead where
  size : Size
  columns : Option ℕ
  rendered : Option Size
deriving DecidableEq, Repr

/-- `nodem_task`'s config and the size it gave the runtime, `display_nodem` and `nodem` as far as
they are submitted, and the draw that is going on.  The last two fields record what was rendered
since the last resize, and what the readers built. -/
structure Shared where
  pc : TaskPc
  nodem : Config
  runtime : Size
  displayNodem : Option Config
  hub75Nodem : Option Config
  drawing : Option Drawing
  rendered : Option Size
  reads : List FbRead
deriving DecidableEq

inductive SharedStep where
  /-- A pass that finds the generation changed, and reads this config. -/
  | config (next : Config)
  /-- `nodem_runtime_run`. -/
  | run
  | displaySubmit
  | hub75Submit
  /-- A page of `display_task`. -/
  | page
  /-- `frame_draw_nodem` gets past the hash, for a panel of this height. -/
  | draw (h : ℕ)
  /-- The next row of the draw. -/
  | row
deriving DecidableEq

/-- The columns a row reads the framebuffer at are those that were mapped for this width, unless
the row lies outside of it. -/
def Drawing.columns (d : Drawing) (nodem : Config) : Option ℕ :=
  let fy := mapAxis d.y d.h nodem.height nodem.hub75.scaleY nodem.hub75.y
  if fy < 0 ∨ fy ≥ nodem.height then none
  else some (if d.y = 0 then nodem.width else d.mapWidth)

/-- The loop after a row: `map_cols` is filled at the first. -/
def Drawing.next (d : Drawing) (nodem : Config) : Option Drawing :=
  if d.y + 1 < d.h then
    some { d with y := d.y + 1, mapWidth := if d.y = 0 then nodem.width else d.mapWidth }
  else none

namespace Shared

/-- `nodem_runtime_new`. -/
def start (nodem : Config) : Shared :=
  ⟨.drain, nodem, nodem.size, none, none, none, none, []⟩

/-- `memset` and `nodem_runtime_resize`. -/
def resize (s : Shared) (next : Config) : Shared :=
  { s with runtime := next.size, rendered := none }

def config (s : Shared) (next : Config) : Shared :=
  if next.size ≠ s.nodem.size ∨ next.bitsPerPixel ≠ s.nodem.bitsPerPixel then
    { s.resize next with nodem := next }
  else { s with nodem := next }

def run (s : Shared) : Shared := { s with pc := .displaySubmit, rendered := some s.runtime }

/-- `display_task_submit`. -/
def displaySubmit (s : Shared) : Shared :=
  { s with pc := .hub75Submit, displayNodem := some s.nodem }

/-- `hub75_task_submit`. -/
def hub75Submit (s : Shared) : Shared := { s with pc := .drain, hub75Nodem := some s.nodem }

def built (s : Shared) (nodem : Config) (columns : Option ℕ) : Shared :=
  { s with reads := s.reads ++ [⟨nodem.size, columns, s.rendered⟩] }

/-- `frame_prepare` and `build_page`: without a mapping the page shows the fallback frame. -/
def page (s : Shared) : Shared :=
  match s.displayNodem with
  | some nodem => if nodem.oled.present then s.built nodem (some nodem.width) else s
  | none => s

/-- The section of the hash. -/
def draw (s : Shared) (h : ℕ) : Shared :=
  match s.hub75Nodem with
  | some nodem => if nodem.hub75.present then { s with drawing := some ⟨0, h, 0⟩ } else s
  | none => s

/-- The section of a row, which ends the draw if the mapping is gone. -/
def row (s : Shared) : Shared :=
  match s.drawing, s.hub75Nodem with
  | some d, some nodem =>
      if nodem.hub75.present then
        { s.built nodem (d.columns nodem) with drawing := d.next nodem }
      else { s with drawing := none }
  | _, _ => { s with drawing := none }

def apply (s : Shared) : SharedStep → Shared
  | .config next => s.config next
  | .run => s.run
  | .displaySubmit => s.displaySubmit
  | .hub75Submit => s.hub75Submit
  | .page => s.page
  | .draw h => s.draw h
  | .row => s.row

/-- `nodem_task` and `hub75_task` take their steps in order. -/
def Possible (s : Shared) : SharedStep → Prop
  | .config _ => s.pc = .drain
  | .run => s.pc = .drain
  | .displaySubmit => s.pc = .displaySubmit
  | .hub75Submit => s.pc = .hub75Submit
  | .page => True
  | .draw h => s.drawing = none ∧ 0 < h
  | .row => s.drawing ≠ none

instance (s : Shared) : (e : SharedStep) → Decidable (s.Possible e)
  | .config _ => inferInstanceAs (Decidable (_ = _))
  | .run => inferInstanceAs (Decidable (_ = _))
  | .displaySubmit => inferInstanceAs (Decidable (_ = _))
  | .hub75Submit => inferInstanceAs (Decidable (_ = _))
  | .page => .isTrue trivial
  | .draw _ => inferInstanceAs (Decidable (_ ∧ _))
  | .row => inferInstanceAs (Decidable (_ ≠ _))

end Shared

def SharedTrans (s : Shared) (e : SharedStep) (s' : Shared) : Prop :=
  s.Possible e ∧ s' = s.apply e

/-- What was rendered is read in its own size. -/
def FbRead.Matches (r : FbRead) : Prop :=
  ∀ size ∈ r.rendered, r.size = size ∧ ∀ width ∈ r.columns, width = size.width

instance (r : FbRead) : Decidable r.Matches := inferInstanceAs (Decidable (∀ _ ∈ _, _))

namespace Shared

/-- Every page and row was built with the size of the frame. -/
def Matched (s : Shared) : Prop := ∀ r ∈ s.reads, r.Matches

instance (s : Shared) : Decidable s.Matched := inferInstanceAs (Decidable (∀ _ ∈ _, _))

/-- No reader with a config of another size between a render and its own submit, and no row with
columns that were mapped for another width, once the framebuffer is rendered. -/
def InGap (s : Shared) : SharedStep → Prop
  | .page => s.pc = .displaySubmit ∧
      ∃ nodem ∈ s.displayNodem, nodem.oled.present = true ∧ nodem.size ≠ s.nodem.size
  | .row => s.rendered ≠ none ∧
      ∃ d ∈ s.drawing, ∃ nodem ∈ s.hub75Nodem, nodem.hub75.present = true ∧
        (s.pc ≠ .drain ∧ nodem.size ≠ s.nodem.size ∨
          ∃ width ∈ d.columns nodem, width ≠ nodem.width)
  | _ => False

instance (s : Shared) : (e : SharedStep) → Decidable (s.InGap e)
  | .page => inferInstanceAs (Decidable (_ ∧ _))
  | .row => inferInstanceAs (Decidable (_ ∧ _))
  | .config _ | .run | .displaySubmit | .hub75Submit | .draw _ => .isFalse id

/-- Once the framebuffer is rendered, a config a reader holds has its size, but for the time
between the render and the submit to that reader. -/
structure Settled (s : Shared) : Prop where
  runtime : s.runtime = s.nodem.size
  rendered : ∀ size ∈ s.rendered, size = s.nodem.size
  submitting : s.pc ≠ .drain → s.rendered ≠ none
  display : s.rendered ≠ none → s.pc ≠ .displaySubmit →
    ∀ nodem ∈ s.displayNodem, nodem.size = s.nodem.size
  hub75 : s.rendered ≠ none → s.pc = .drain →
    ∀ nodem ∈ s.hub75Nodem, nodem.size = s.nodem.size

theorem start_settled (nodem : Config) : (start nodem).Settled where
  runtime := rfl
  rendered := nofun
  submitting := fun h => absurd rfl h
  display := fun h => absurd rfl h
  hub75 := fun h => absurd rfl h

variable {s t : Shared}

namespace Settled

theorem config (h : s.Settled) (hpc : s.pc = .drain) (next : Config) :
    (s.config next).Settled := by
  unfold Shared.config
  split_ifs with hchanged
  · exact ⟨rfl, nofun, fun hne => absurd hpc hne, fun hne => absurd rfl hne,
      fun hne => absurd rfl hne⟩
  · obtain ⟨hsize, -⟩ := not_or.mp hchanged
    have hsize := not_not.mp hsize
    refine ⟨?_, ?_, fun hne => absurd hpc hne, ?_, ?_⟩
    · exact h.runtime.trans hsize.symm
    · intro size hr
      exact (h.rendered size hr).trans hsize.symm
    · intro hr hne nodem hn
      exact (h.display hr hne nodem hn).trans hsize.symm
    · intro hr hd nodem hn
      exact (h.hub75 hr hd nodem hn).trans hsize.symm

theorem run (h : s.Settled) : s.run.Settled where
  runtime := h.runtime
  rendered := fun size hsize => by
    cases hsize
    exact h.runtime
  submitting := nofun
  display := fun _ hne => absurd rfl hne
  hub75 := nofun

theorem displaySubmit (h : s.Settled) (hpc : s.pc = .displaySubmit) :
    s.displaySubmit.Settled where
  runtime := h.runtime
  rendered := h.rendered
  submitting := fun _ => h.submitting (by rw [hpc]; nofun)
  display := fun _ _ nodem hn => by
    cases hn
    rfl
  hub75 := nofun

theorem hub75Submit (h : s.Settled) (hpc : s.pc = .hub75Submit) : s.hub75Submit.Settled where
  runtime := h.runtime
  rendered := h.rendered
  submitting := fun hne => absurd rfl hne
  display := fun hr _ => h.display hr (by rw [hpc]; nofun)
  hub75 := fun _ _ nodem hn => by
    cases hn
    rfl

/-- The readers change neither the framebuffer nor what was submitted. -/
theorem reader (h : s.Settled) (drawing : Option Drawing) (reads : List FbRead) :
    { s with drawing := drawing, reads := reads }.Settled :=
  ⟨h.runtime, h.rendered, h.submitting, h.display, h.hub75⟩

theorem page (h : s.Settled) : s.page.Settled := by
  unfold Shared.page
  split
  · split_ifs
    · exact h.reader _ _
    · exact h
  · exact h

theorem draw (h : s.Settled) (height : ℕ) : (s.draw height).Settled := by
  unfold Shared.draw
  split
  · split_ifs
    · exact h.reader _ _
    · exact h
  · exact h

theorem row (h : s.Settled) : s.row.Settled := by
  unfold Shared.row
  split
  · split_ifs
    · exact h.reader _ _
    · exact h.reader _ _
  · exact h.reader _ _

theorem apply (h : s.Settled) {e : SharedStep} (hposs : s.Possible e) : (s.apply e).Settled := by
  cases e with
  | config next => exact h.config hposs next
  | run => exact h.run
  | displaySubmit => exact h.displaySubmit hposs
  | hub75Submit => exact h.hub75Submit hposs
  | page => exact h.page
  | draw height => exact h.draw height
  | row => exact h.row

end Settled

theorem built_matched (nodem : Config) (columns : Option ℕ) :
    (s.built nodem columns).Matched ↔
      s.Matched ∧ FbRead.Matches ⟨nodem.size, columns, s.rendered⟩ := by
  simp only [Matched, built, List.forall_mem_append, List.forall_mem_singleton]

/-- A section of a reader, by the size of the frame. -/
theorem Settled.matches_iff (h : s.Settled) (nodem : Config) (columns : Option ℕ) :
    FbRead.Matches ⟨nodem.size, columns, s.rendered⟩ ↔
      (s.rendered ≠ none → nodem.size = s.nodem.size ∧ ∀ width ∈ columns, width = nodem.width) := by
  unfold FbRead.Matches
  cases hrendered : s.rendered with
  | none => simp
  | some size =>
      have hsize := h.rendered size hrendered
      subst hsize
      simp only [Option.mem_def, Option.some.injEq, forall_eq', ne_eq, reduceCtorEq,
        not_false_eq_true, forall_const]
      refine and_congr_right fun hsame => ?_
      rw [← hsame]
      rfl

theorem Settled.page_matched (h : s.Settled) : s.page.Matched ↔ s.Matched ∧ ¬ s.InGap .page := by
  unfold Shared.page InGap
  split
  next nodem hnodem =>
    split_ifs with hpresent
    · rw [built_matched, h.matches_iff]
      refine and_congr_right fun _ => ⟨?_, ?_⟩
      · rintro hmatches ⟨hpc, nodem', hnodem', -, hsize⟩
        cases hnodem.symm.trans hnodem'
        exact hsize (hmatches (h.submitting (by rw [hpc]; nofun))).1
      · intro hout hrendered
        refine ⟨?_, fun width hwidth => by cases hwidth; rfl⟩
        by_cases hpc : s.pc = .displaySubmit
        · by_contra hsize
          exact hout ⟨hpc, nodem, hnodem, hpresent, hsize⟩
        · exact h.display hrendered hpc nodem hnodem
    · refine (and_iff_left ?_).symm
      rintro ⟨-, nodem', hnodem', hpresent', -⟩
      cases hnodem.symm.trans hnodem'
      exact hpresent hpresent'
  next hnone =>
    refine (and_iff_left ?_).symm
    rintro ⟨-, nodem', hnodem', -⟩
    cases hnone.symm.trans hnodem'

theorem Settled.row_matched (h : s.Settled) : s.row.Matched ↔ s.Matched ∧ ¬ s.InGap .row := by
  unfold Shared.row InGap
  split
  next d nodem hd hnodem =>
    split_ifs with hpresent
    · show (s.built nodem (d.columns nodem)).Matched ↔ _
      rw [built_matched, h.matches_iff]
      refine and_congr_right fun _ => ⟨?_, ?_⟩
      · rintro hmatches ⟨hrendered, d', hd', nodem', hnodem', -, hother⟩
        cases hd.symm.trans hd'
        cases hnodem.symm.trans hnodem'
        obtain ⟨hsize, hcolumns⟩ := hmatches hrendered
        rcases hother with ⟨-, hne⟩ | ⟨width, hwidth, hne⟩
        · exact hne hsize
        · exact hne (hcolumns width hwidth)
      · intro hout hrendered
        have hin : ¬ (s.pc ≠ .drain ∧ nodem.size ≠ s.nodem.size ∨
            ∃ width ∈ d.columns nodem, width ≠ nodem.width) :=
          fun hother => hout ⟨hrendered, d, hd, nodem, hnodem, hpresent, hother⟩
        obtain ⟨hsize, hcolumns⟩ := not_or.mp hin
        refine ⟨?_, fun width hwidth => ?_⟩
        · by_cases hpc : s.pc = .drain
          · exact h.hub75 hrendered hpc nodem hnodem
          · by_contra hne
            exact hsize ⟨hpc, hne⟩
        · by_contra hne
          exact hcolumns ⟨width, hwidth, hne⟩
    · refine (and_iff_left ?_).symm
      rintro ⟨-, d', -, nodem', hnodem', hpresent', -⟩
      cases hnodem.symm.trans hnodem'
      exact hpresent hpresent'
  next hnone =>
    refine (and_iff_left ?_).symm
    rintro ⟨-, d, hd, nodem, hnodem, -⟩
    exact hnone d nodem hd hnodem

/-- The steps that are no page or row build nothing. -/
theorem apply_reads {e : SharedStep} (hpage : e ≠ .page) (hrow : e ≠ .row) :
    (s.apply e).reads = s.reads := by
  cases e with
  | config next =>
      simp only [apply, config]
      split_ifs <;> rfl
  | run => rfl
  | displaySubmit => rfl
  | hub75Submit => rfl
  | page => exact absurd rfl hpage
  | draw height =>
      simp only [apply, draw]
      split
      · split_ifs <;> rfl
      · rfl
  | row => exact absurd rfl hrow

/-- **A step keeps to the frame's size** exactly when it is no reader in the gap. -/
theorem Settled.step_matched (h : s.Settled) (e : SharedStep) :
    (s.apply e).Matched ↔ s.Matched ∧ ¬ s.InGap e := by
  have hother : e ≠ .page → e ≠ .row → ¬ s.InGap e →
      ((s.apply e).Matched ↔ s.Matched ∧ ¬ s.InGap e) := by
    intro hpage hrow hout
    unfold Matched
    rw [apply_reads hpage hrow]
    exact (and_iff_left hout).symm
  cases e with
  | page => exact h.page_matched
  | row => exact h.row_matched
  | config next => exact hother nofun nofun id
  | run => exact hother nofun nofun id
  | displaySubmit => exact hother nofun nofun id
  | hub75Submit => exact hother nofun nofun id
  | draw height => exact hother nofun nofun id

end Shared

/-- **Frames are read with the size they were rendered in** exactly when no page falls between a
render in a new size and `display_task_submit`, no row between it and `hub75_task_submit`, and no
row follows a submit of another width than its columns were mapped for. -/
theorem reads_match (boot : Config) {steps : List SharedStep} {s : Shared}
    (h : Run SharedTrans (.start boot) steps s) :
    s.Matched ↔ Along Shared.apply (fun s e => ¬ s.InGap e) (.start boot) steps := by
  refine h.along_iff (I := Shared.Settled) (fun _ _ _ hr => hr.2) ?_
    (Shared.start_settled boot) nofun
  rintro s e - hsettled ⟨hposs, rfl⟩
  exact ⟨hsettled.apply hposs, hsettled.step_matched e⟩

/-- A framebuffer shown on both panels. -/
def nodemWide : Config := ⟨64, 32, 1, ⟨true, 0, 0, 1, 1⟩, ⟨true, 0, 0, 1, 1⟩⟩

/-- The same on its side. -/
def nodemHigh : Config := ⟨32, 64, 1, ⟨true, 0, 0, 1, 1⟩, ⟨true, 0, 0, 1, 1⟩⟩

/-- A frame is shown on both panels; the size changes, and the readers wait for their submits. -/
def readAfterSubmits : List SharedStep :=
  [.run, .displaySubmit, .hub75Submit, .page, .draw 32] ++ List.replicate 32 .row ++
    [.config nodemHigh, .page, .run, .displaySubmit, .page, .hub75Submit, .draw 32, .row, .row]

theorem reads_match_after_submits :
    (readAfterSubmits.foldl Shared.apply (.start nodemWide)).reads.length = 37 ∧
      (readAfterSubmits.foldl Shared.apply (.start nodemWide)).Matched := by
  have hrun : Run SharedTrans (.start nodemWide) readAfterSubmits
      (readAfterSubmits.foldl Shared.apply (.start nodemWide)) :=
    Run.of_along Shared.apply Shared.Possible (fun _ _ h => ⟨h, rfl⟩) (by decide +kernel)
  exact ⟨by decide +kernel, (reads_match nodemWide hrun).mpr (by decide +kernel)⟩

/-- The readers run between a render in a new size and their submits, which then fall between two
rows of a draw. -/
def readInGap : List SharedStep :=
  [.run, .displaySubmit, .hub75Submit, .config nodemHigh, .run, .page, .draw 32, .row,
    .displaySubmit, .hub75Submit, .row]

/-- **Both readers take a frame for one of the old size**, and the next row has both sizes. -/
theorem reads_old_size :
    parse (cs "64:32:1,oled:0:0:1:1,hub75:0:0:1:1") = some nodemWide ∧
      parse (cs "32:64:1,oled:0:0:1:1,hub75:0:0:1:1") = some nodemHigh ∧
      Run SharedTrans (.start nodemWide) readInGap
        (readInGap.foldl Shared.apply (.start nodemWide)) ∧
      (readInGap.foldl Shared.apply (.start nodemWide)).reads =
        [⟨⟨64, 32⟩, some 64, some ⟨32, 64⟩⟩, ⟨⟨64, 32⟩, some 64, some ⟨32, 64⟩⟩,
          ⟨⟨32, 64⟩, some 64, some ⟨32, 64⟩⟩] ∧
      ¬ (readInGap.foldl Shared.apply (.start nodemWide)).Matched := by
  refine ⟨by decide, by decide, ?_, by decide, by decide⟩
  exact Run.of_along Shared.apply Shared.Possible (fun _ _ h => ⟨h, rfl⟩) (by decide +kernel)

end NodemFirmware.Nodem
