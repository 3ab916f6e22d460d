import NodemFirmware.Lib.Overwrite
import NodemFirmware.Hub75.Drawn

/-! # The draws that are skipped

`frame_draw_nodem` leaves the frame as it is where the hash is that of the last draw.

* `referenceAt_still`: a colour that does not move is the same at every `fx_frame`.
* `pictureRows` is a draw with the colours given; `pictureRows_sets` says that it overwrites bits of
  the frame, whatever was there, so that it may be done again.
* `frameDrawNodem_eq` is `frame_draw_nodem` with nothing submitted in between: what was submitted
  is looked at once.
* `Sequence` is a sequence of submits and draws, `Sequence.Settled` what it keeps. -/

namespace NodemFirmware.Hub75

open Checked CText Overwrite Transition

/-! ### A colour that stands still -/

theorem referenceAt_still {c : Color} (h : c.moves = false) (g : Driver) (fxFrame x y : ℕ) :
    referenceAt g c fxFrame x y = referenceAt g c 0 x y := by
  unfold Color.moves at h
  by_cases heffect : c.effect = .none
  · simp only [referenceAt, paintOf, heffect]
    rfl
  · have hspeed : c.speed = 0 := by
      simpa [heffect] using h
    have ht : fxFrame * c.speed = 0 * c.speed := by
      rw [hspeed, Nat.mul_zero, Nat.mul_zero]
    simp only [referenceAt, paintOf, ht]

/-- The colours of the pixels when none moves. -/
theorem reference_still {g : Driver}
    (h : (g.active.color.moves || g.active.offColor.moves) = false) (fxFrame : ℕ) (lit : Bool)
    (x y : ℕ) : reference g fxFrame lit x y = reference g 0 lit x y := by
  rw [Bool.or_eq_false_iff] at h
  have hcolor : (if lit then g.active.color else g.active.offColor).moves = false := by
    split_ifs
    · exact h.1
    · exact h.2
  unfold reference
  rw [referenceAt_still hcolor]

/-! ### Bits of the frame -/

/-- Some bits are kept, and some set. -/
def mask (keep bits old : UInt8) : UInt8 := old &&& keep ||| bits

def Masks (v : UInt8 → UInt8) : Prop := ∃ keep bits, v = mask keep bits

theorem mask_getLsbD (keep bits old : UInt8) (i : ℕ) : (mask keep bits old).toBitVec.getLsbD i =
    (old.toBitVec.getLsbD i && keep.toBitVec.getLsbD i || bits.toBitVec.getLsbD i) := by
  simp [mask]

theorem mask_all (old : UInt8) : mask 255 0 old = old := by
  apply UInt8.toBitVec_inj.mp
  show old.toBitVec &&& BitVec.allOnes 8 ||| 0 = old.toBitVec
  rw [BitVec.and_allOnes]
  exact BitVec.or_zero

/-- One mask after the other is a mask. -/
theorem mask_mask (keep bits keep' bits' old : UInt8) : mask keep' bits' (mask keep bits old) =
    mask (keep &&& keep') (bits &&& keep' ||| bits') old := by
  apply UInt8.toBitVec_inj.mp
  refine BitVec.eq_of_getLsbD_eq fun i _ => ?_
  simp only [mask_getLsbD, UInt8.toBitVec_and, UInt8.toBitVec_or, BitVec.getLsbD_and,
    BitVec.getLsbD_or]
  cases keep'.toBitVec.getLsbD i <;> simp [Bool.or_assoc]

theorem mask_twice (keep bits old : UInt8) :
    mask keep bits (mask keep bits old) = mask keep bits old := by
  apply UInt8.toBitVec_inj.mp
  refine BitVec.eq_of_getLsbD_eq fun i _ => ?_
  simp only [mask_getLsbD]
  cases keep.toBitVec.getLsbD i <;> simp

theorem masks_band : Band Masks where
  id := ⟨255, 0, funext fun old => (mask_all old).symm⟩
  comp := by
    rintro _ _ ⟨keep, bits, rfl⟩ ⟨keep', bits', rfl⟩
    exact ⟨_, _, funext (mask_mask keep bits keep' bits')⟩
  twice := by
    rintro _ ⟨keep, bits, rfl⟩ old
    exact mask_twice keep bits old

/-- The bytes of the frame. -/
def frameMemory : Memory Buffers ℕ UInt8 where
  read m := m.frame.data
  write := Buffers.withFrame
  read_write _ _ := rfl
  write_write _ _ _ := rfl
  write_read _ := rfl

/-- The chain's table, and the size of the frame. -/
def Laid (chain : Buffer ℕ) (size : ℕ) (m : Buffers) : Prop :=
  m.chainPos = chain ∧ m.frame.size = size

section Pictures

variable (g : Driver) {chain : Buffer ℕ} {size : ℕ}

theorem Laid.withFrame (m : Buffers) (f : Frame) (h : Laid chain size m) :
    Laid chain size (frameMemory.write m f) :=
  h

/-- The rows above `n`, each pixel in its colour. -/
def pictureRows (pic : ℕ → ℕ → BitVec 64) (n : ℕ) (m : Buffers) : Option Buffers :=
  each n (fun y m => each g.active.width (fun x m =>
    m.frameRowSet g (frameLocateRow g y) x (pic x y)) m) m

theorem entrySet_sets (r : FrameRow) (planes : BitVec 64) (e : ℤ) (k : ℕ) :
    Sets frameMemory Masks (Laid chain size) (Buffers.entrySet r planes e k) := by
  by_cases hin : 0 ≤ e + k ∧ e + k < size
  · obtain ⟨i, hi⟩ := Int.eq_ofNat_of_zero_le hin.1
    have hlt : i < size := by omega
    have hmask : Masks (mask (~~~((7 : UInt8) <<< UInt8.ofNat r.shift))
      (UInt8.ofNat ((planes >>> (8 * k)).toNat % 8) <<< UInt8.ofNat r.shift)) := ⟨_, _, rfl⟩
    refine .update masks_band i hmask ?_
    rintro m ⟨-, rfl⟩
    unfold Buffers.entrySet
    rw [hi, Buffer.load_nat hlt]
    show (m.frame.store (i : ℤ) _ >>= _) = _
    rw [Buffer.store_nat hlt]
    rfl
  · refine .fails ?_
    rintro m ⟨-, rfl⟩
    unfold Buffers.entrySet Buffer.load
    rw [if_neg hin]
    rfl

theorem frameRowSet_sets (r : FrameRow) (x : ℕ) (planes : BitVec 64) :
    Sets frameMemory Masks (Laid chain size) fun m => m.frameRowSet g r x planes := by
  have hentry : ∀ m, Laid chain size m → m.frameEntry g r x =
      Buffers.frameEntry g r x { arenaBlank with chainPos := chain } := by
    rintro m ⟨rfl, -⟩
    rfl
  cases he : Buffers.frameEntry g r x { arenaBlank with chainPos := chain } with
  | none =>
      refine .fails fun m hm => ?_
      unfold Buffers.frameRowSet
      rw [hentry m hm, he]
      rfl
  | some e =>
      cases e with
      | none =>
          refine .skip masks_band fun m hm => ?_
          unfold Buffers.frameRowSet
          rw [hentry m hm, he]
          rfl
      | some e =>
          have hloop : Sets frameMemory Masks (Laid chain size)
              (each g.depth (Buffers.entrySet r planes e)) :=
            .each masks_band Laid.withFrame fun k _ => entrySet_sets r planes e k
          refine hloop.congr fun m hm => ?_
          unfold Buffers.frameRowSet
          rw [hentry m hm, he]
          rfl

/-- **A draw overwrites bits of the frame.** -/
theorem pictureRows_sets (pic : ℕ → ℕ → BitVec 64) (n : ℕ) :
    Sets frameMemory Masks (Laid chain size) (pictureRows g pic n) := by
  refine .each masks_band Laid.withFrame fun y _ => ?_
  exact .each masks_band Laid.withFrame fun x _ => frameRowSet_sets g _ x _

end Pictures

/-! ### One framebuffer for a whole draw -/

def Shot.submitted (a : Shot) : Submitted := ⟨some a.fb, a.nodem⟩

/-- The colours of a draw of a framebuffer. -/
def Shot.picture (g : Driver) (fxFrame : ℕ) (a : Shot) (x y : ℕ) : BitVec 64 :=
  reference g fxFrame (a.lit g x y) x y

/-- Other tables and columns: the chain's table and the frame are as they were. -/
structure Redrawable (g : Driver) (m m' : Buffers) : Prop where
  sized : Sized g m'
  chainPos : m'.chainPos = m.chainPos
  frame : m'.frame = m.frame

section Draws

variable {g : Driver} {m : Buffers} {fxFrame : ℕ} {on off : Paint}

/-- **A row of `frame_draw_nodem`**, once the columns are those of its config. -/
theorem rowDraw_eq (hm : Sized g m) (hpaints : Paints g m fxFrame on off) {a : Shot}
    (hok : a.nodem.Ok) (hcols : ∀ x < g.active.width, m.mapCols.data x = mapCol g a.nodem x)
    (y : ℕ) : m.rowDraw g (paintRow g on y) (paintRow g off y) a.fb a.nodem y =
      each g.active.width (fun x m =>
        m.frameRowSet g (frameLocateRow g y) x (a.picture g fxFrame x y)) m := by
  have hlit : ∀ x < g.active.width, a.lit g x y = rowLit g a.fb a.nodem m.mapCols.data y x :=
    fun x hx => (rowLit_mapCol g a.fb hok (hcols x hx) y).symm
  have hkeep : ∀ x < g.active.width, ∀ s t : Buffers, (∃ f, s = m.withFrame f) →
      s.frameRowSet g (frameLocateRow g y) x (a.picture g fxFrame x y) = some t →
        ∃ f, t = m.withFrame f := by
    rintro x - _ t ⟨f, rfl⟩ hrun
    have hlaid : Laid m.chainPos m.frame.size (m.withFrame f) := ⟨rfl, rfl⟩
    obtain ⟨f', rfl⟩ := (frameRowSet_sets g _ x _).eq_write hlaid hrun
    exact ⟨f', rfl⟩
  have hset : ∀ x f lit, a.lit g x y = lit →
      (m.withFrame f).pixelSet g (frameLocateRow g y) (paintRow g on y) (paintRow g off y) x lit =
        (m.withFrame f).frameRowSet g (frameLocateRow g y) x (a.picture g fxFrame x y) := by
    rintro x f _ rfl
    exact pixelSet_reference hpaints f _ x _
  unfold Buffers.rowDraw
  simp only
  symm
  split_ifs with hout
  · refine each_congr ⟨m.frame.data, rfl⟩ hkeep ?_
    rintro x hx _ ⟨f, rfl⟩
    refine (hset x f false ?_).symm
    rw [hlit x hx]
    exact if_pos hout
  · refine each_congr ⟨m.frame.data, rfl⟩ hkeep ?_
    rintro x hx _ ⟨f, rfl⟩
    have hin : x < (m.withFrame f).mapCols.size := hx.trans_le hm.cols_le
    rw [Buffer.load_nat hin]
    refine (hset x f _ ?_).symm
    rw [hlit x hx]
    exact if_neg hout

/-- A pass over a row, from the columns of its config on. -/
theorem nodemRow_eq {m' : Buffers} (hm' : Sized g m') (hpaints : Paints g m' fxFrame on off)
    {a : Shot} (hok : a.nodem.Ok) (hpresent : a.nodem.hub75.present = true) {y : ℕ}
    (hfill : (if y = 0 then m.mapColsFill g a.nodem else some m) = some m')
    (hcols : ∀ x < g.active.width, m'.mapCols.data x = mapCol g a.nodem x) :
    m.nodemRow g on off a.submitted y =
      (each g.active.width (fun x m =>
        m.frameRowSet g (frameLocateRow g y) x (a.picture g fxFrame x y)) m').map
          fun m'' => (true, m'') := by
  simp only [Buffers.nodemRow, Shot.submitted, hpresent, hfill, Option.bind_eq_bind,
    Option.bind_some]
  rw [rowDraw_eq hm' hpaints hok hcols, Option.map_eq_bind]
  rfl

/-- **The rows of `frame_draw_nodem`**, with one framebuffer for all of them. -/
theorem nodemRows_eq (hm : Sized g m) (hpaints : Paints g m fxFrame on off) {a : Shot}
    (hok : a.nodem.Ok) (hpresent : a.nodem.hub75.present = true) :
    ∃ m', Redrawable g m m' ∧ ∀ n,
      each (n + 1) (fun y (r : Bool × Buffers) =>
        if r.1 then r.2.nodemRow g on off a.submitted y else some r) (true, m) =
      (pictureRows g (a.picture g fxFrame) (n + 1) m').map fun m'' => (true, m'') := by
  obtain ⟨_, hfill, cols, rfl, hcols⟩ := mapColsFill_eq hm a.nodem
  have hsized : Sized g (m.withCols cols) := { hm with }
  refine ⟨m.withCols cols, ⟨hsized, rfl, rfl⟩, fun n => ?_⟩
  unfold pictureRows
  induction n with
  | zero =>
      have hrow := nodemRow_eq hsized ⟨hpaints.lit, hpaints.unlit⟩ hok hpresent
        (show (if 0 = 0 then m.mapColsFill g a.nodem else some m) = _ from hfill) hcols
      rw [each_succ, each_succ]
      exact hrow
  | succ n ih =>
      rw [each_succ, each_succ _ _ (m.withCols cols), ih]
      cases hrows : each (n + 1) (fun y m => each g.active.width (fun x m =>
          m.frameRowSet g (frameLocateRow g y) x (a.picture g fxFrame x y)) m)
            (m.withCols cols) with
      | none => rfl
      | some m'' =>
          have hlaid : Laid m.chainPos m.frame.size (m.withCols cols) := ⟨rfl, rfl⟩
          obtain ⟨f, rfl⟩ := (pictureRows_sets g (a.picture g fxFrame) (n + 1)).eq_write hlaid hrows
          have hsized' : Sized g ((m.withCols cols).withFrame f) := { hsized with }
          exact nodemRow_eq hsized' ⟨hpaints.lit, hpaints.unlit⟩ hok hpresent
            (if_neg n.succ_ne_zero) hcols

/-- **`frame_draw_nodem`** with nothing submitted in between: the last framebuffer is drawn over
whatever the frame holds, unless there is no mapping or the hash is that of the last draw. -/
theorem frameDrawNodem_eq (hc : Accepted g.active) (hm : Sized g m) {a : Shot} (hok : a.nodem.Ok)
    (fxFrame : ℕ) :
    ∃ m₀ m', Redrawable g m m₀ ∧ Redrawable g m m' ∧ ∀ force drawnHash,
      m.frameDrawNodem g fxFrame force a.submitted (fun _ => a.submitted) drawnHash =
        if a.nodem.hub75.present = true then
          if (!force && decide (a.hash = drawnHash)) = true then some (true, drawnHash, m₀)
          else (pictureRows g (a.picture g fxFrame) g.active.height m').map
            fun m'' => (true, a.hash, m'')
        else some (false, drawnHash, m₀) := by
  have hcolors := colored_of_accepted hc
  obtain ⟨n, hheight⟩ := Nat.exists_eq_succ_of_ne_zero (Nat.pos_iff_ne_zero.mp hc.height.1)
  obtain ⟨⟨on, _⟩, hon, lut, rfl, hm₁, hlit⟩ :=
    paintOf_reference_sized fxFrame hcolors hm true litSlot
  obtain ⟨⟨off, _⟩, hoff, lut', rfl, hm₂, hunlit⟩ :=
    paintOf_reference_sized fxFrame hcolors hm₁ false unlitSlot
  have hpaints := paints_of (m := m) fxFrame hlit hunlit
  simp only [if_true, Bool.false_eq_true, if_false] at hon hoff
  by_cases hpresent : a.nodem.hub75.present = true
  · obtain ⟨m', hm', hrows⟩ := nodemRows_eq hm₂ hpaints hok hpresent
    refine ⟨_, m', ⟨hm₂, rfl, rfl⟩, ⟨hm'.sized, hm'.chainPos, hm'.frame⟩, fun force drawnHash => ?_⟩
    rw [if_pos hpresent]
    unfold Buffers.frameDrawNodem
    rw [hon]
    simp only [Option.bind_eq_bind, Option.bind_some, hoff, Shot.submitted, hpresent]
    split_ifs with hskip hskip' hskip'
    · rfl
    · exact absurd hskip hskip'
    · exact absurd hskip' hskip
    · have hrow := hrows n
      simp only [Shot.submitted] at hrow
      rw [hheight, hrow, Option.map_eq_bind, Option.map_eq_bind, Option.bind_assoc]
      rfl
  · refine ⟨_, m, ⟨hm₂, rfl, rfl⟩, ⟨hm, rfl, rfl⟩, fun force drawnHash => ?_⟩
    rw [if_neg hpresent]
    rw [Bool.not_eq_true] at hpresent
    unfold Buffers.frameDrawNodem
    rw [hon]
    simp only [Option.bind_eq_bind, Option.bind_some, hoff, Shot.submitted, hpresent]

end Draws

/-! ### Submits and draws in turn -/

/-- A call of `frame_draw_nodem`: the framebuffer submitted, the one drawn last before it, if one
was, and whether the former is skipped for the latter; what the call returned, the frame it left,
and what it would have with `force`. -/
structure Call where
  shot : Shot
  last : Option Shot
  skipped : Bool
  returned : Bool
  left : Frame
  forced : Option (Bool × Frame)

/-- What is skipped is the framebuffer drawn last. -/
def Call.TellsApart (call : Call) : Prop :=
  call.skipped = true → ∃ a, call.last = some a ∧ call.shot.Same a

/-- A call that returns true leaves what a forced one would. -/
def Call.Faithful (call : Call) : Prop :=
  call.returned = true → call.TellsApart → call.forced = some (true, call.left)

/-- What is submitted before a call, and the `fx_frame` of the call. -/
structure Submission where
  shot : Shot
  fxFrame : ℕ

/-- The arena and `drawn_hash`; the framebuffer that was drawn last, if one was, and the calls. -/
structure Sequence where
  m : Buffers
  drawnHash : BitVec 32
  drawn : Option Shot
  calls : List Call

namespace Sequence

/-- The first call is forced. -/
def force (s : Sequence) : Bool := s.calls.isEmpty

/-- A call with nothing submitted in between. -/
def draw (g : Driver) (s : Sequence) (e : Submission) (force : Bool) :
    Option (Bool × BitVec 32 × Buffers) :=
  s.m.frameDrawNodem g e.fxFrame force e.shot.submitted (fun _ => e.shot.submitted) s.drawnHash

/-- Whether a call takes the framebuffer for the one drawn last. -/
def skips (s : Sequence) (e : Submission) : Bool :=
  e.shot.nodem.hub75.present && (!s.force && decide (e.shot.hash = s.drawnHash))

/-- The record of a call. -/
def call (s : Sequence) (e : Submission) (returned : Bool) (left : Frame)
    (forced : Option (Bool × Frame)) : Call :=
  ⟨e.shot, s.drawn, s.skips e, returned, left, forced⟩

def apply (g : Driver) (s : Sequence) (e : Submission) : Option Sequence := do
  let (returned, drawnHash, m) ← s.draw g e s.force
  some
    { m := m
      drawnHash := drawnHash
      drawn := if e.shot.nodem.hub75.present && !s.skips e then some e.shot else s.drawn
      calls := s.calls ++ [s.call e returned m.frame.data
        ((s.draw g e true).map fun r => (r.1, r.2.2.frame.data))] }

/-- Before the first call. -/
def start (m : Buffers) (drawnHash : BitVec 32) : Sequence := ⟨m, drawnHash, none, []⟩

/-- The frame shows the framebuffer drawn last, and no call could be told from a forced one. -/
structure Settled (g : Driver) (s : Sequence) : Prop where
  sized : Sized g s.m
  shown : ∀ a, s.drawn = some a →
    pictureRows g (a.picture g 0) g.active.height s.m = some s.m
  calls : ∀ call ∈ s.calls, call.Faithful

end Sequence

/-- A config that was parsed is submitted, and the framebuffer drawn. -/
def SequenceTrans (g : Driver) (s : Sequence) (e : Submission) (t : Sequence) : Prop :=
  (∃ w, Nodem.parse w = some e.shot.nodem) ∧ s.apply g e = some t

theorem Shot.picture_still {g : Driver}
    (hstill : (g.active.color.moves || g.active.offColor.moves) = false) (a : Shot) (fxFrame : ℕ) :
    a.picture g fxFrame = a.picture g 0 :=
  funext fun x => funext fun y => reference_still hstill fxFrame (a.lit g x y) x y

theorem Shot.Same.picture {a b : Shot} (h : a.Same b) (hok : a.nodem.Ok) (g : Driver)
    (fxFrame : ℕ) : a.picture g fxFrame = b.picture g fxFrame := by
  funext x y
  unfold Shot.picture
  rw [h.lit hok]

namespace Redrawable

variable {g : Driver} {m m' : Buffers}

theorem laid (h : Redrawable g m m') : Laid m.chainPos m.frame.size m' :=
  ⟨h.chainPos, congrArg Buffer.size h.frame⟩

/-- Other tables and columns do not change what is drawn. -/
theorem settled (h : Redrawable g m m') {pic : ℕ → ℕ → BitVec 64} {n : ℕ}
    (hm : pictureRows g pic n m = some m) : pictureRows g pic n m' = some m' := by
  have hlaid : Laid m.chainPos m.frame.size m := ⟨rfl, rfl⟩
  exact (pictureRows_sets g pic n).settled_congr hlaid h.laid (congrArg Buffer.data h.frame) hm

end Redrawable

namespace Sequence

variable {g : Driver} {s t : Sequence} {e : Submission}

theorem Settled.snoc (h : s.Settled g) {call : Call} (hcall : call.Faithful) :
    ∀ call' ∈ s.calls ++ [call], call'.Faithful :=
  List.forall_mem_append.mpr ⟨h.calls, List.forall_mem_singleton.mpr hcall⟩

/-- **Steps:** a call that skips what was drawn last finds the frame as it would draw it. -/
theorem Settled.apply (h : s.Settled g) (hc : Accepted g.active)
    (hstill : (g.active.color.moves || g.active.offColor.moves) = false)
    (hok : e.shot.nodem.Ok) (hstep : s.apply g e = some t) : t.Settled g := by
  obtain ⟨m₀, m', hm₀, hm', hdraw⟩ := frameDrawNodem_eq hc h.sized hok e.fxFrame
  have hpicture := e.shot.picture_still hstill e.fxFrame
  unfold Sequence.apply draw at hstep
  rw [hdraw, hdraw, hpicture] at hstep
  by_cases hpresent : e.shot.nodem.hub75.present = true
  · have hskips : s.skips e = (!s.force && decide (e.shot.hash = s.drawnHash)) := by
      rw [skips, hpresent, Bool.true_and]
    rw [← hskips] at hstep
    simp only [hpresent, if_true, Bool.not_true, Bool.false_and, Bool.false_eq_true, if_false,
      Bool.true_and] at hstep
    by_cases hskip : s.skips e = true
    · rw [if_pos hskip, hskip] at hstep
      cases hstep
      refine ⟨hm₀.sized, fun a ha => hm₀.settled (h.shown a ha), h.snoc fun _ hapart => ?_⟩
      obtain ⟨a, hdrawn, hsame⟩ : ∃ a, s.drawn = some a ∧ e.shot.Same a := hapart hskip
      have hforced : pictureRows g (e.shot.picture g 0) g.active.height m' = some m' := by
        rw [hsame.picture hok]
        exact hm'.settled (h.shown a hdrawn)
      show ((pictureRows g (e.shot.picture g 0) g.active.height m').map _).map _ = _
      rw [hforced]
      show some (true, m'.frame.data) = some (true, m₀.frame.data)
      rw [hm'.frame, hm₀.frame]
    · rw [Bool.not_eq_true] at hskip
      rw [hskip] at hstep
      cases hdrawn : pictureRows g (e.shot.picture g 0) g.active.height m' with
      | none =>
          rw [hdrawn] at hstep
          cases hstep
      | some m'' =>
          rw [hdrawn] at hstep
          cases hstep
          have hsets : Sets frameMemory Masks (Laid s.m.chainPos s.m.frame.size)
              (pictureRows g (e.shot.picture g 0) g.active.height) := pictureRows_sets g _ _
          obtain ⟨f, rfl⟩ := hsets.eq_write hm'.laid hdrawn
          refine ⟨{ hm'.sized with }, ?_, h.snoc fun _ _ => rfl⟩
          rintro _ ⟨⟩
          exact hsets.twice masks_band Laid.withFrame hm'.laid hdrawn
  · simp only [hpresent, if_false, Bool.false_and, Bool.false_eq_true] at hstep
    cases hstep
    exact ⟨hm₀.sized, fun a ha => hm₀.settled (h.shown a ha),
      h.snoc fun hreturned => absurd hreturned Bool.false_ne_true⟩

/-- **Runs** with colours that do not move. -/
theorem Settled.run {m : Buffers} {drawnHash : BitVec 32} {es : List Submission}
    (hrun : Run (SequenceTrans g) (start m drawnHash) es t) (hm : Sized g m)
    (hc : Accepted g.active)
    (hstill : (g.active.color.moves || g.active.offColor.moves) = false) : t.Settled g := by
  refine hrun.invariant ?_
    ⟨hm, (fun _ ha => nomatch ha), fun _ hcall => absurd hcall List.not_mem_nil⟩
  rintro s e t hs ⟨⟨w, hw⟩, hstep⟩
  exact hs.apply hc hstill (Nodem.parse_ok hw) hstep

end Sequence

/-- **A frame that is skipped is the one that would be drawn**, with colours that do not move,
unless it is skipped for another one with the same hash. -/
theorem skip_unobservable (v : CStr) (c : Config) (hv : hub75ConfigParse v = .ok (some c))
    (hstill : (c.color.moves || c.offColor.moves) = false) (g : Driver)
    (hg : hub75Alloc (hub75Geometry c) = some g) (m : Buffers) (hm : Sized g m)
    (drawnHash : BitVec 32) (es : List Submission) (t : Sequence)
    (hrun : Run (SequenceTrans g) (.start m drawnHash) es t) :
    ∀ call ∈ t.calls, call.returned = true → call.TellsApart →
      call.forced = some (true, call.left) := by
  have hactive : g.active = c := by
    obtain ⟨d, -, -, rfl⟩ := hub75Alloc_eq_some hg
    rfl
  have hc := hub75ConfigParse_accepted hv
  rw [← hactive] at hc hstill
  exact (Sequence.Settled.run hrun hm hc hstill).calls

/-! ### Two framebuffers with one hash -/

/-- A forced call over the buffers of a running display. -/
theorem frameDrawNodem_forced {c : Config} {g : Driver} (hr : Running c g) {m : Buffers}
    (hm : Ready g m) {a : Shot} (hok : a.nodem.Ok) (hpresent : a.nodem.hub75.present = true)
    (fxFrame : ℕ) (drawnHash : BitVec 32) :
    Returns (m.frameDrawNodem g fxFrame true a.submitted (fun _ => a.submitted) drawnHash)
      fun r => (r.1 = true ∧ r.2.1 = a.hash) ∧ Ready g r.2.2 ∧
        Overlaid g m.frame.data r.2.2.frame.data fun x y => some (a.picture g fxFrame x y) := by
  have hc := hr.accepted
  rw [← hr.derived.active] at hc
  obtain ⟨r, hdraw, htrue, hover⟩ := frameDrawNodem_overlaid hr hm.built fxFrame
    (s := a.submitted) rfl hpresent hok drawnHash
  obtain ⟨r', hdraw', hready⟩ := frameDrawNodem_ready hr hm fxFrame true a.submitted
    (fun _ => a.submitted) drawnHash
  obtain ⟨_, _, -, -, heq⟩ := frameDrawNodem_eq hc hm.toSized hok fxFrame
  cases hdraw.symm.trans hdraw'
  refine ⟨r, hdraw, ⟨htrue, ?_⟩, hready, hover⟩
  rw [heq, if_pos hpresent, if_neg (by simp)] at hdraw
  obtain ⟨m'', -, rfl⟩ := Option.map_eq_some_iff.mp hdraw
  rfl

namespace Sequence

variable {c : Config} {g : Driver} {e : Submission}

/-- The first call draws. -/
theorem first_returns (hr : Running c g) {m : Buffers} (hm : Ready g m) (hok : e.shot.nodem.Ok)
    (hpresent : e.shot.nodem.hub75.present = true) (drawnHash : BitVec 32) :
    Returns ((start m drawnHash).apply g e) fun s => Ready g s.m ∧ s.drawnHash = e.shot.hash ∧
      s.drawn = some e.shot ∧
      (∃ forced, s.calls = [(start m drawnHash).call e true s.m.frame.data forced]) ∧
      Overlaid g m.frame.data s.m.frame.data fun x y => some (e.shot.picture g e.fxFrame x y) := by
  obtain ⟨⟨_, _, m'⟩, hdraw, ⟨rfl, rfl⟩, hready, hover⟩ :=
    frameDrawNodem_forced hr hm hok hpresent e.fxFrame drawnHash
  unfold Sequence.apply draw
  show Returns (m.frameDrawNodem g e.fxFrame true e.shot.submitted _ drawnHash >>= _) _
  rw [hdraw]
  refine .some ⟨hready, rfl, ?_, ⟨_, rfl⟩, hover⟩
  simp only [hpresent, skips, force, start, List.isEmpty_nil, Bool.not_true, Bool.false_and,
    Bool.and_false, Bool.not_false, Bool.and_self, if_true]

/-- A call that skips leaves the frame, whatever a forced one would draw. -/
theorem skip_returns (hr : Running c g) {s : Sequence} (hm : Ready g s.m) (hok : e.shot.nodem.Ok)
    (hpresent : e.shot.nodem.hub75.present = true) (hskip : s.skips e = true) :
    Returns (s.apply g e) fun t => ∃ forced,
      t.calls = s.calls ++ [s.call e true s.m.frame.data (some (true, forced))] ∧
      Overlaid g s.m.frame.data forced fun x y => some (e.shot.picture g e.fxFrame x y) := by
  have hc := hr.accepted
  rw [← hr.derived.active] at hc
  obtain ⟨⟨_, _, m'⟩, hdraw, ⟨rfl, rfl⟩, -, hover⟩ :=
    frameDrawNodem_forced hr hm hok hpresent e.fxFrame s.drawnHash
  obtain ⟨m₀, _, hm₀, -, heq⟩ := frameDrawNodem_eq hc hm.toSized hok e.fxFrame
  have hunforced := heq s.force s.drawnHash
  rw [skips, hpresent, Bool.true_and] at hskip
  rw [if_pos hpresent, if_pos hskip] at hunforced
  unfold Sequence.apply draw
  rw [hunforced, hdraw]
  refine .some ⟨_, ?_, hover⟩
  rw [← hm₀.frame]
  rfl

end Sequence

/-- Two framebuffers of the small panel, with one hash. -/
def smallShot : Shot := ⟨fun i => [0, 230, 5, 0].getD i 0, nodemSmall⟩
def otherShot : Shot := ⟨fun i => [6, 112, 128, 107].getD i 0, nodemSmall⟩

theorem shots_hash : otherShot.hash = smallShot.hash := by
  decide +kernel

/-- Two calls on the small panel, the second of them skipped. -/
theorem small_calls {a b : Shot} (ha : a.nodem = nodemSmall) (hb : b.nodem = nodemSmall)
    (hhash : b.hash = a.hash) :
    ∃ m s t, Ready smallDriver m ∧ SequenceTrans smallDriver (.start m 0) ⟨a, 0⟩ s ∧
      SequenceTrans smallDriver s ⟨b, 0⟩ t ∧ s.drawn = some a ∧ s.skips ⟨b, 0⟩ = true ∧
      (∃ forced left forced', t.calls = [(Sequence.start m 0).call ⟨a, 0⟩ true left forced,
          s.call ⟨b, 0⟩ true left (some (true, forced'))] ∧
        Overlaid smallDriver m.frame.data left (fun x y => some (a.picture smallDriver 0 x y)) ∧
        Overlaid smallDriver left forced' fun x y => some (b.picture smallDriver 0 x y)) := by
  obtain ⟨m, -, hm, -⟩ := hub75Start_checked running_small arenaBlank 0
  have hparse : Nodem.parse (cs "8:4:1,hub75:0:0:1:1") = some nodemSmall := by decide
  rw [← ha] at hparse
  obtain ⟨s, hfirst, hready, hdrawnHash, hdrawn, ⟨forced, hcalls⟩, hover⟩ :=
    Sequence.first_returns (e := ⟨a, 0⟩) running_small hm (Nodem.parse_ok hparse)
      (by rw [ha]; rfl) 0
  have hskip : s.skips ⟨b, 0⟩ = true := by
    have hpresent : b.nodem.hub75.present = true := by rw [hb]; rfl
    simp [Sequence.skips, Sequence.force, hcalls, hdrawnHash, hhash, hpresent]
  have hparse' := hparse
  rw [ha, ← hb] at hparse'
  obtain ⟨t, hsecond, forced', hcalls', hover'⟩ := Sequence.skip_returns (e := ⟨b, 0⟩)
    running_small hready (Nodem.parse_ok hparse') (by rw [hb]; rfl) hskip
  rw [hcalls] at hcalls'
  exact ⟨m, s, t, hm, ⟨⟨_, hparse⟩, hfirst⟩, ⟨⟨_, hparse'⟩, hsecond⟩, hdrawn, hskip, forced, _,
    forced', hcalls', hover, hover'⟩

theorem skip_unobservable_twice : ∃ m t,
    Run (SequenceTrans smallDriver) (.start m 0) [⟨smallShot, 0⟩, ⟨smallShot, 0⟩] t ∧
      (t.calls.map fun call => call.skipped) = [false, true] ∧
        ∀ call ∈ t.calls, call.forced = some (true, call.left) := by
  obtain ⟨m, s, t, hm, hfirst, hsecond, hdrawn, hskip, forced, left, forced', hcalls, -⟩ :=
    small_calls (a := smallShot) (b := smallShot) rfl rfl rfl
  have hrun : Run (SequenceTrans smallDriver) (.start m 0) [⟨smallShot, 0⟩, ⟨smallShot, 0⟩] t :=
    .cons hfirst (.cons hsecond (.nil t))
  have hfaithful := skip_unobservable hub75SmallText hub75Small (by rfl) (by rfl) smallDriver
    (by rfl) m hm.toSized 0 _ t hrun
  refine ⟨m, t, hrun, ?_, fun call hcall => ?_⟩
  · rw [hcalls]
    exact congrArg (fun skipped => [false, skipped]) hskip
  · have hboth := hcall
    rw [hcalls, List.mem_cons, List.mem_singleton] at hboth
    rcases hboth with rfl | rfl
    · exact hfaithful _ hcall rfl nofun
    · exact hfaithful _ hcall rfl fun _ => ⟨smallShot, hdrawn, .refl _⟩

/-- **A frame that never appears:** the second framebuffer is skipped for the first. -/
theorem collision_skipped : hub75ConfigParse hub75SmallText = .ok (some hub75Small) ∧
    (hub75Small.color.moves || hub75Small.offColor.moves) = false ∧
    hub75Alloc (hub75Geometry hub75Small) = some smallDriver ∧
    ∃ m t, Ready smallDriver m ∧
      Run (SequenceTrans smallDriver) (.start m 0) [⟨smallShot, 0⟩, ⟨otherShot, 0⟩] t ∧
        ∃ call ∈ t.calls, call.returned = true ∧ call.forced ≠ some (true, call.left) := by
  obtain ⟨m, s, t, hm, hfirst, hsecond, -, -, forced, left, forced', hcalls, hover, hover'⟩ :=
    small_calls (a := smallShot) (b := otherShot) rfl rfl shots_hash
  refine ⟨by rfl, by rfl, by rfl, m, t, hm, .cons hfirst (.cons hsecond (.nil t)), ?_⟩
  refine ⟨_, by rw [hcalls]; exact List.mem_cons_of_mem _ (List.mem_singleton_self _), rfl, ?_⟩
  intro hforced
  have hsame : some (true, forced') = some (true, left) := hforced
  obtain rfl : forced' = left := by simpa using hsame
  -- the first framebuffer leaves the pixel dark, the second lights it
  have hslot : frameSlot smallDriver (frameLocateRow smallDriver 0) 5 = some (5, 0) := by decide
  have hx : 5 < smallDriver.active.width := by decide
  have hy : 0 < smallDriver.active.height := by decide
  have hk : 0 < smallDriver.depth := by decide
  have hdark := hover.shows hx hy hk rfl hslot
  have hlit := hover'.shows hx hy hk rfl hslot
  exact absurd (hdark.symm.trans hlit) (by decide +kernel)

end NodemFirmware.Hub75
