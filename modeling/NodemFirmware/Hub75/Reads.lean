import NodemFirmware.Hub75.Picture
import NodemFirmware.Nodem.Axis
import NodemFirmware.Nodem.Stored

/-! # What a draw reads of the framebuffer

`frame_draw_nodem` looks up each row's width, height and mapping when it takes the lock for the
row, but its columns are those of the config it found at row 0.

* `rowReads` lists the bits that a row reads; `rowDraw_reads` says that nothing else of the
  framebuffer makes a difference to it.
* `drawReads` is what the draw reads in each row, whatever the display's geometry;
  `Buffers.frameReads` is the draw with all that it does besides, and reads the same as far as it
  comes (`drawReads_of_frameReads`).
* `frame_reads_inside`: the reads are inside the framebuffer as long as no row finds a narrower one
  than row 0.  No smaller condition on the widths will do (`narrower_reads_past`). -/

namespace NodemFirmware.Hub75

open Checked MixedRadix CText

/-- The bits of the framebuffer that row `y` reads through the columns `cols`. -/
def rowReads (g : Driver) (nodem : Nodem.Config) (cols : ℕ → ℤ) (y : ℕ) : List ℕ :=
  let fy := Nodem.mapAxis y g.active.height nodem.height nodem.hub75.scaleY nodem.hub75.y
  if fy < 0 ∨ fy ≥ nodem.height then []
  else (List.range g.active.width).filterMap fun x =>
    if 0 ≤ cols x then some (u32 (u32 (fy.toNat * nodem.width) + (cols x).toNat)) else none

/-- Whether there is something to draw, and a mapping to draw it through. -/
def Submitted.shown (s : Submitted) : Bool := s.nodemFb.isSome && s.nodem.hub75.present

/-- Whether the first section of `frame_draw_nodem` finds something that is not drawn yet. -/
def Submitted.draws (force : Bool) (drawnHash : BitVec 32) (first : Submitted) : Bool :=
  match first.nodemFb, first.nodem.hub75.present with
  | some fb, true => force || nodemHash fb first.nodem ≠ drawnHash
  | _, _ => false

/-- The loop of `frame_draw_nodem` before row `y`: whether it has come so far, and `map_cols`,
which is `old` before the draw. -/
def rowsBefore (g : Driver) (old : ℕ → ℤ) (rows : ℕ → Submitted) : ℕ → Bool × (ℕ → ℤ)
  | 0 => (true, old)
  | y + 1 =>
      let before := rowsBefore g old rows y
      (before.1 && (rows y).shown, if y = 0 then mapCol g (rows 0).nodem else before.2)

/-- What `frame_draw_nodem` reads of the framebuffer in row `y`.  Where `frame_row_set` puts the
pixels makes no difference to it. -/
def drawReads (g : Driver) (old : ℕ → ℤ) (force : Bool) (drawnHash : BitVec 32) (first : Submitted)
    (rows : ℕ → Submitted) (y : ℕ) : List ℕ :=
  let before := rowsBefore g old rows y
  if first.draws force drawnHash && before.1 && (rows y).shown then
    rowReads g (rows y).nodem (if y = 0 then mapCol g (rows y).nodem else before.2) y
  else []

namespace Buffers

variable (g : Driver)

/-- The loop of `frame_draw_nodem` up to row `y`, and what it reads there. -/
def nodemReads (on off : Paint) (rows : ℕ → Submitted) (y : ℕ) (m : Buffers) :
    Option (List ℕ) := do
  let (ok, m) ← each y (fun y (s : Bool × Buffers) =>
    if s.1 then s.2.nodemRow g on off (rows y) y else some s) (true, m)
  if ok && (rows y).shown then
    let m ← (if y = 0 then m.mapColsFill g (rows y).nodem else some m)
    some (rowReads g (rows y).nodem m.mapCols.data y)
  else some []

/-- What `frame_draw_nodem` reads of the framebuffer in row `y`. -/
def frameReads (fxFrame : ℕ) (force : Bool) (first : Submitted) (rows : ℕ → Submitted)
    (drawnHash : BitVec 32) (y : ℕ) (m : Buffers) : Option (List ℕ) := do
  let (on, m) ← m.paintOf g g.active.color litSlot fxFrame
  let (off, m) ← m.paintOf g g.active.offColor unlitSlot fxFrame
  match first.nodemFb, first.nodem.hub75.present with
  | some fb, true =>
      if !force && nodemHash fb first.nodem = drawnHash then some []
      else m.nodemReads g on off rows y
  | _, _ => some []

end Buffers

/-! ### A row depends on what it reads -/

theorem entrySet_mapCols {m m' : Buffers} {r : FrameRow} {planes : BitVec 64} {e : ℤ} {k : ℕ}
    (h : m.entrySet r planes e k = some m') : m'.mapCols = m.mapCols := by
  simp only [Buffers.entrySet, Option.bind_eq_bind, Option.bind_eq_some_iff] at h
  obtain ⟨_, _, _, _, hset⟩ := h
  cases hset
  rfl

theorem pixelSet_mapCols {g : Driver} {m m' : Buffers} {r : FrameRow} {on off : Paint} {x : ℕ}
    {lit : Bool} (h : m.pixelSet g r on off x lit = some m') : m'.mapCols = m.mapCols := by
  simp only [Buffers.pixelSet, Buffers.frameRowSet, Option.bind_eq_bind,
    Option.bind_eq_some_iff] at h
  obtain ⟨planes, -, entry, -, hset⟩ := h
  cases entry with
  | none =>
      cases hset
      rfl
  | some e =>
      refine each_keeps (I := fun m' => m'.mapCols = m.mapCols) ?_ rfl hset
      intro k _ s t hs ht
      exact (entrySet_mapCols ht).trans hs

/-- **What a row reads is what it depends on**: two framebuffers that agree on it give the same
row. -/
theorem rowDraw_reads {g : Driver} {m : Buffers} {on off : Paint} {fb fb' : ℕ → UInt8}
    {nodem : Nodem.Config} {y : ℕ}
    (h : ∀ bit ∈ rowReads g nodem m.mapCols.data y, fbBit fb bit = fbBit fb' bit) :
    m.rowDraw g on off fb nodem y = m.rowDraw g on off fb' nodem y := by
  unfold Buffers.rowDraw
  simp only
  split_ifs with hfy
  · rfl
  · refine each_congr (I := fun s => s.mapCols = m.mapCols) rfl ?_ ?_
    · intro x _ s t hs ht
      rw [Option.bind_eq_bind, Option.bind_eq_some_iff] at ht
      obtain ⟨fx, -, hset⟩ := ht
      exact (pixelSet_mapCols hset).trans hs
    · intro x hx s hs
      rw [hs]
      cases hload : m.mapCols.load x with
      | none => rfl
      | some fx =>
          have hfx : fx = m.mapCols.data x := by
            unfold Buffer.load at hload
            split_ifs at hload
            exact (Option.some.inj hload).symm
          by_cases hpos : 0 ≤ fx
          · have hmem : u32 (u32 ((Nodem.mapAxis y g.active.height nodem.height
                nodem.hub75.scaleY nodem.hub75.y).toNat * nodem.width) + fx.toNat) ∈
                rowReads g nodem m.mapCols.data y := by
              simp only [rowReads, if_neg hfy, List.mem_filterMap, List.mem_range]
              refine ⟨x, hx, ?_⟩
              rw [← hfx, if_pos hpos]
            simp only [Option.bind_eq_bind, Option.bind_some, h _ hmem]
          · simp only [Option.bind_eq_bind, Option.bind_some, hpos, decide_false, Bool.false_and]

/-! ### The draw and its reads -/

theorem rowReads_congr (g : Driver) (nodem : Nodem.Config) {cols cols' : ℕ → ℤ}
    (h : ∀ x < g.active.width, cols x = cols' x) (y : ℕ) :
    rowReads g nodem cols y = rowReads g nodem cols' y := by
  unfold rowReads
  simp only
  split_ifs
  · rfl
  · refine List.filterMap_congr fun x hx => ?_
    rw [h x (List.mem_range.mp hx)]

theorem rowDraw_mapCols {g : Driver} {m m' : Buffers} {on off : Paint} {fb : ℕ → UInt8}
    {nodem : Nodem.Config} {y : ℕ} (h : m.rowDraw g on off fb nodem y = some m') :
    m'.mapCols = m.mapCols := by
  unfold Buffers.rowDraw at h
  simp only at h
  split_ifs at h
  · refine each_keeps (I := fun s => s.mapCols = m.mapCols) ?_ rfl h
    exact fun x _ s t hs hset => (pixelSet_mapCols hset).trans hs
  · refine each_keeps (I := fun s => s.mapCols = m.mapCols) ?_ rfl h
    intro x _ s t hs ht
    rw [Option.bind_eq_bind, Option.bind_eq_some_iff] at ht
    obtain ⟨fx, -, hset⟩ := ht
    exact (pixelSet_mapCols hset).trans hs

theorem mapColsFill_cols {g : Driver} {m m' : Buffers} {nodem : Nodem.Config}
    (h : m.mapColsFill g nodem = some m') :
    ∀ x < g.active.width, m'.mapCols.data x = mapCol g nodem x := by
  refine each_invariant (fun k (s : Buffers) => ∀ x < k, s.mapCols.data x = mapCol g nodem x)
    (fun x hx => absurd hx (Nat.not_lt_zero x)) ?_ h
  intro k _ s t hs ht x hx
  simp only [Option.bind_eq_bind, Option.bind_eq_some_iff] at ht
  obtain ⟨cols, hstore, hset⟩ := ht
  cases hset
  change s.mapCols.store k (mapCol g nodem k) = some cols at hstore
  unfold Buffer.store at hstore
  split_ifs at hstore with hin
  cases hstore
  simp only [Int.toNat_natCast]
  rcases Nat.lt_succ_iff_lt_or_eq.mp hx with hlt | rfl
  · rw [Function.update_of_ne hlt.ne]
    exact hs x hlt
  · rw [Function.update_self]

/-- A pass over a row with nothing to draw ends the draw. -/
theorem nodemRow_of_not_shown {g : Driver} {m : Buffers} {on off : Paint} {s : Submitted} {y : ℕ}
    (h : s.shown = false) : m.nodemRow g on off s y = some (false, m) := by
  unfold Buffers.nodemRow
  split
  · next fb hfb hpresent =>
      simp [Submitted.shown, hfb, hpresent] at h
  · rfl

/-- A pass over any other row leaves the columns, which row 0 maps. -/
theorem nodemRow_cols {g : Driver} {m m' : Buffers} {on off : Paint} {s : Submitted} {y : ℕ}
    {goesOn : Bool} (hshown : s.shown = true)
    (h : m.nodemRow g on off s y = some (goesOn, m')) :
    goesOn = true ∧ ∀ x < g.active.width,
      m'.mapCols.data x = if y = 0 then mapCol g s.nodem x else m.mapCols.data x := by
  unfold Buffers.nodemRow at h
  split at h
  · simp only [Option.bind_eq_bind, Option.bind_eq_some_iff, Option.some.injEq,
      Prod.mk.injEq] at h
    obtain ⟨m₁, hfill, m₂, hdraw, rfl, rfl⟩ := h
    refine ⟨rfl, fun x hx => ?_⟩
    rw [rowDraw_mapCols hdraw]
    split_ifs at hfill ⊢
    · exact mapColsFill_cols hfill x hx
    · cases hfill
      rfl
  · next hnone =>
    simp only [Submitted.shown, Bool.and_eq_true, Option.isSome_iff_exists] at hshown
    obtain ⟨⟨fb, hfb⟩, hpresent⟩ := hshown
    exact absurd hpresent (hnone fb hfb)

/-- **The rows above** leave what `rowsBefore` says, if the draw comes so far. -/
theorem rowsBefore_of_each {g : Driver} {m m' : Buffers} {on off : Paint} {rows : ℕ → Submitted}
    {y : ℕ} {goesOn : Bool} (h : each y (fun y (s : Bool × Buffers) =>
      if s.1 then s.2.nodemRow g on off (rows y) y else some s) (true, m) = some (goesOn, m')) :
    goesOn = (rowsBefore g m.mapCols.data rows y).1 ∧ (goesOn = true → ∀ x < g.active.width,
      m'.mapCols.data x = (rowsBefore g m.mapCols.data rows y).2 x) := by
  refine each_invariant (fun k (s : Bool × Buffers) =>
    s.1 = (rowsBefore g m.mapCols.data rows k).1 ∧ (s.1 = true → ∀ x < g.active.width,
      s.2.mapCols.data x = (rowsBefore g m.mapCols.data rows k).2 x)) ⟨rfl, fun _ _ _ => rfl⟩ ?_ h
  rintro k - ⟨ok, s⟩ ⟨ok', t⟩ ⟨hok, hcols⟩ ht
  simp only at hok hcols ht ⊢
  cases ok with
  | false =>
      obtain ⟨rfl, rfl⟩ := Prod.mk.inj (Option.some.inj ht)
      exact ⟨by rw [rowsBefore, ← hok, Bool.false_and], nofun⟩
  | true =>
      rw [if_pos rfl] at ht
      cases hshown : (rows k).shown with
      | false =>
          rw [nodemRow_of_not_shown hshown] at ht
          obtain ⟨rfl, rfl⟩ := Prod.mk.inj (Option.some.inj ht)
          exact ⟨by rw [rowsBefore, ← hok, hshown, Bool.and_false], nofun⟩
      | true =>
          obtain ⟨rfl, hrow⟩ := nodemRow_cols hshown ht
          refine ⟨by rw [rowsBefore, ← hok, hshown, Bool.and_true], fun _ x hx => ?_⟩
          rw [hrow x hx, rowsBefore]
          dsimp only
          split_ifs with hzero
          · rw [hzero]
          · exact hcols rfl x hx

/-- **The draw reads what `drawReads` lists**, in every row that it comes to. -/
theorem drawReads_of_frameReads {g : Driver} {m : Buffers} {fxFrame : ℕ} {force : Bool}
    {first : Submitted} {rows : ℕ → Submitted} {drawnHash : BitVec 32} {y : ℕ} {bits : List ℕ}
    (h : m.frameReads g fxFrame force first rows drawnHash y = some bits) :
    bits = drawReads g m.mapCols.data force drawnHash first rows y := by
  simp only [Buffers.frameReads, Buffers.paintOf, Option.bind_eq_bind,
    Option.bind_eq_some_iff, Option.some.injEq, Prod.exists, Prod.mk.injEq] at h
  obtain ⟨on, m₁, ⟨_, _, -, -, rfl⟩, off, m₂, ⟨_, _, -, -, rfl⟩, h⟩ := h
  have hreads : ∀ {m' : Buffers}, m'.nodemReads g on off rows y = some bits →
      m'.mapCols = m.mapCols →
      bits = if (rowsBefore g m.mapCols.data rows y).1 && (rows y).shown then
        rowReads g (rows y).nodem
          (if y = 0 then mapCol g (rows y).nodem else (rowsBefore g m.mapCols.data rows y).2) y
        else [] := by
    intro m' h hm'
    simp only [Buffers.nodemReads, Option.bind_eq_bind, Option.bind_eq_some_iff,
      Prod.exists] at h
    obtain ⟨goesOn, m₃, hrows, h⟩ := h
    obtain ⟨hgoes, hcols⟩ := rowsBefore_of_each hrows
    rw [hm'] at hgoes hcols
    rw [← hgoes]
    split_ifs at h ⊢ with hshown hzero
    · simp only [Option.bind_eq_some_iff, Option.some.injEq] at h
      obtain ⟨m₄, hfill, rfl⟩ := h
      exact rowReads_congr g _ (mapColsFill_cols hfill) y
    · simp only [Option.bind_some, Option.some.injEq] at h
      rw [← h]
      rw [Bool.and_eq_true] at hshown
      exact rowReads_congr g _ (hcols hshown.1) y
    · exact (Option.some.inj h).symm
  unfold drawReads Submitted.draws
  cases hfb : first.nodemFb with
  | none =>
      simp only [hfb, Option.some.injEq] at h
      exact h.symm
  | some fb =>
      cases hpresent : first.nodem.hub75.present with
      | false =>
          simp only [hfb, hpresent, Option.some.injEq] at h
          exact h.symm
      | true =>
          simp only [hfb, hpresent] at h
          split_ifs at h with hsame
          · cases h
            simp_all
          · rw [hreads h rfl]
            have hdraws : (force || decide (nodemHash fb first.nodem ≠ drawnHash)) = true := by
              cases force <;> simp_all
            simp only [hdraws, Bool.true_and]

/-- The draw comes to every row of a display whose chain is as long as its panels. -/
theorem frameReads_returns {c : Config} {g : Driver} (hr : Running c g) {m : Buffers}
    (hm : Built g m) (fxFrame : ℕ) (force : Bool) (first : Submitted) (rows : ℕ → Submitted)
    (drawnHash : BitVec 32) {y : ℕ} (hy : y < g.active.height) :
    Returns (m.frameReads g fxFrame force first rows drawnHash y) fun _ => True := by
  have hrows : ∀ {m : Buffers} {on off : Paint}, Built g m → Paints g m fxFrame on off →
      Returns (m.nodemReads g on off rows y) fun _ => True := by
    intro m on off hm hpaints
    unfold Buffers.nodemReads
    have hloop : Returns (each y (fun y (s : Bool × Buffers) =>
        if s.1 then s.2.nodemRow g on off (rows y) y else some s) (true, m)) fun s =>
          ∃ cols f, s.2 = (m.withCols cols).withFrame f := by
      refine Returns.each (fun _ (s : Bool × Buffers) =>
        ∃ cols f, s.2 = (m.withCols cols).withFrame f) ⟨m.mapCols.data, m.frame.data, rfl⟩ ?_
      rintro j hj ⟨ok, -⟩ ⟨cols, f, rfl⟩
      cases ok with
      | false => exact .some ⟨cols, f, rfl⟩
      | true =>
          simp only [if_true]
          cases hshown : (rows j).shown with
          | false =>
              rw [nodemRow_of_not_shown hshown]
              exact .some ⟨cols, f, rfl⟩
          | true =>
              obtain ⟨fb, hfb, hpresent⟩ : ∃ fb, (rows j).nodemFb = some fb ∧
                  (rows j).nodem.hub75.present = true := by
                simpa [Submitted.shown, Option.isSome_iff_exists] using hshown
              have hpaints' : Paints g ((m.withCols cols).withFrame f) fxFrame on off :=
                ⟨hpaints.lit, hpaints.unlit⟩
              refine (nodemRow_overlaid hr ((hm.withCols cols).withFrame f) hpaints'
                (hj.trans hy) hfb hpresent).mono ?_
              rintro ⟨-, -⟩ ⟨-, cols', f', rfl, -⟩
              exact ⟨cols', f', rfl⟩
    refine hloop.bind ?_
    rintro ⟨ok, -⟩ ⟨cols, f, rfl⟩
    dsimp only
    split_ifs
    · exact (mapColsFill_eq ((hm.withCols cols).withFrame f).toSized _).bind fun _ _ =>
        .some trivial
    · exact .some trivial
    · exact .some trivial
  unfold Buffers.frameReads
  refine (paintOf_reference_slot hr hm fxFrame true litSlot).bind ?_
  rintro ⟨on, _⟩ ⟨lut, rfl, hm', hlit⟩
  refine (paintOf_reference_slot hr hm' fxFrame false unlitSlot).bind ?_
  rintro ⟨off, _⟩ ⟨lut', rfl, hm'', hunlit⟩
  dsimp only
  split
  · split_ifs
    · exact .some trivial
    · exact hrows hm'' (paints_of fxFrame hlit hunlit)
  · exact .some trivial

/-! ### Reads inside the framebuffer -/

theorem mapCol_lt (g : Driver) (nodem : Nodem.Config) (x : ℕ) :
    mapCol g nodem x < max nodem.width 1 := by
  unfold mapCol
  simp only
  split_ifs with h
  · omega
  · omega

/-- **The bits of a row are inside the framebuffer**, through the columns of a framebuffer that is
no wider. -/
theorem rowReads_inside {g : Driver} {first nodem : Nodem.Config} (hok : nodem.Ok)
    (hwidth : first.width ≤ nodem.width) (y : ℕ) :
    ∀ bit ∈ rowReads g nodem (mapCol g first) y,
      bit < nodem.width * nodem.height ∧ bit / 8 < Nodem.fbMaxSize := by
  have hpixels := hok.pixels_le
  have hpos : 0 < nodem.width := hok.width.1
  intro bit hbit
  unfold rowReads at hbit
  dsimp only at hbit
  generalize Nodem.mapAxis y _ _ _ _ = fy at hbit
  split_ifs at hbit with hout
  · cases hbit
  · obtain ⟨x, -, hx⟩ := List.mem_filterMap.mp hbit
    obtain ⟨row, rfl⟩ := Int.eq_ofNat_of_zero_le (show 0 ≤ fy by omega)
    have hrow : row < nodem.height := by omega
    split_ifs at hx with hcol
    have hlt := mapCol_lt g first x
    obtain ⟨col, hcolumn⟩ := Int.eq_ofNat_of_zero_le hcol
    rw [hcolumn] at hx hlt
    have hin : row * nodem.width + col < nodem.width * nodem.height := by
      have hmul := Nat.mul_le_mul_right nodem.width (show row + 1 ≤ nodem.height from hrow)
      rw [Nat.succ_mul, Nat.mul_comm nodem.height] at hmul
      omega
    have hbits : u32 (u32 (row * nodem.width) + col) = row * nodem.width + col := by
      rw [show u32 (row * nodem.width) = row * nodem.width from Nat.mod_eq_of_lt (by omega)]
      exact Nat.mod_eq_of_lt (by omega)
    simp only [Int.toNat_natCast, Option.some.injEq, hbits] at hx
    subst hx
    refine ⟨hin, ?_⟩
    unfold Nodem.fbMaxSize
    omega

/-- The draw reads each row through the columns of row 0, as far as it comes. -/
theorem drawReads_eq (g : Driver) (old : ℕ → ℤ) (force : Bool) (drawnHash : BitVec 32)
    (first : Submitted) (rows : ℕ → Submitted) (y : ℕ) :
    drawReads g old force drawnHash first rows y =
      if first.draws force drawnHash = true ∧ ∀ y' ≤ y, (rows y').shown = true then
        rowReads g (rows y).nodem (mapCol g (rows 0).nodem) y else [] := by
  have hbefore : ∀ y, ((rowsBefore g old rows y).1 = true ↔ ∀ y' < y, (rows y').shown = true) ∧
      (0 < y → (rowsBefore g old rows y).2 = mapCol g (rows 0).nodem) := by
    intro y
    induction y with
    | zero => simp [rowsBefore]
    | succ y ih =>
        refine ⟨?_, fun _ => ?_⟩
        · simp only [rowsBefore, Bool.and_eq_true, ih.1, Nat.lt_succ_iff_lt_or_eq, or_imp,
            forall_and, forall_eq]
        · simp only [rowsBefore]
          split_ifs with hzero
          · rfl
          · exact ih.2 (Nat.pos_of_ne_zero hzero)
  obtain ⟨hgoes, hcols⟩ := hbefore y
  have hall : (∀ y' ≤ y, (rows y').shown = true) ↔
      (rowsBefore g old rows y).1 = true ∧ (rows y).shown = true := by
    simp only [hgoes, Nat.le_iff_lt_or_eq, or_imp, forall_and, forall_eq]
  unfold drawReads
  simp only [Bool.and_eq_true, and_assoc, ← hall]
  split_ifs with hdraws hzero
  · rw [hzero]
  · rw [hcols (Nat.pos_of_ne_zero hzero)]
  · rfl

/-- No row that the draw comes to finds a narrower framebuffer than row 0, whose columns it
maps. -/
def NoNarrower (g : Driver) (rows : ℕ → Submitted) : Prop :=
  ∀ y < g.active.height, (∀ y' ≤ y, (rows y').shown = true) →
    (rows 0).nodem.width ≤ (rows y).nodem.width

/-- **The reads of `frame_draw_nodem` are inside the framebuffer** in every draw in which no row
finds a framebuffer that has become narrower. -/
theorem frame_reads_inside (g : Driver) (old : ℕ → ℤ) (force : Bool) (drawnHash : BitVec 32)
    (first : Submitted) (rows : ℕ → Submitted)
    (hrows : ∀ y, (rows y).shown = true → ∃ w, Nodem.parse w = some (rows y).nodem)
    (hwide : NoNarrower g rows) :
    ∀ y < g.active.height, ∀ bit ∈ drawReads g old force drawnHash first rows y,
      bit < (rows y).nodem.width * (rows y).nodem.height ∧ bit / 8 < Nodem.fbMaxSize := by
  intro y hy bit hbit
  rw [drawReads_eq] at hbit
  split_ifs at hbit with hdrawn
  · obtain ⟨w, hw⟩ := hrows y (hdrawn.2 y le_rfl)
    exact rowReads_inside (Nodem.parse_ok hw) (hwide y hy hdrawn.2) y bit hbit
  · cases hbit

/-- A framebuffer is submitted for the draw's row 0, and another one for the rows after it. -/
def submittedDuring (row0 later : Nodem.Config) (y : ℕ) : Submitted :=
  ⟨some UInt8.ofNat, if y = 0 then row0 else later⟩

theorem submittedDuring_shown {row0 later : Nodem.Config} (h0 : row0.hub75.present = true)
    (h : later.hub75.present = true) (y : ℕ) : (submittedDuring row0 later y).shown = true := by
  unfold Submitted.shown submittedDuring
  dsimp only
  split_ifs
  · exact h0
  · exact h

/-- A wider framebuffer. -/
def nodemWide : Nodem.Config := ⟨128, 32, 1, .zero, ⟨true, 0, 0, 1, 1⟩⟩

theorem frame_reads_inside_wide :
    4031 ∈ drawReads ((hub75Geometry hub75Default).drive 1) (fun _ => 0) true 0
        (submittedDuring nodemPanel nodemWide 0) (submittedDuring nodemPanel nodemWide) 31 ∧
      ∀ y < hub75Default.height,
        ∀ bit ∈ drawReads ((hub75Geometry hub75Default).drive 1) (fun _ => 0) true 0
          (submittedDuring nodemPanel nodemWide 0) (submittedDuring nodemPanel nodemWide) y,
          bit < (submittedDuring nodemPanel nodemWide y).nodem.width *
            (submittedDuring nodemPanel nodemWide y).nodem.height ∧ bit / 8 < Nodem.fbMaxSize := by
  refine ⟨?_, frame_reads_inside ((hub75Geometry hub75Default).drive 1) (fun _ => 0) true 0 _ _
    ?_ ?_⟩
  · rw [drawReads_eq, if_pos ⟨by decide, fun y _ => submittedDuring_shown rfl rfl y⟩]
    decide +kernel
  · intro y _
    by_cases hy : y = 0
    · exact ⟨cs "64:32:1,hub75:0:0:1:1", by simp only [submittedDuring, hy, if_true]; decide⟩
    · exact ⟨cs "128:32:1,hub75:0:0:1:1", by simp only [submittedDuring, hy, if_false]; decide⟩
  · intro y _ _
    simp only [submittedDuring, if_true]
    split_ifs <;> decide

/-- A framebuffer of `w` columns and one row: on a display of 64 by 32, the last column is mapped to
the last one and the row to row 1. -/
def nodemStrip (w : ℕ) : Nodem.Config :=
  ⟨w, 1, 1, .zero, ⟨true, w - 1 - (63 - Nodem.axisMargin 64 w 1), 14, 1, 1⟩⟩

theorem nodemStrip_ok {w : ℕ} (h0 : 1 ≤ w) (hw : w ≤ Nodem.maxDimension) : (nodemStrip w).Ok := by
  have hmargin : 0 ≤ Nodem.axisMargin 64 w 1 ∧ Nodem.axisMargin 64 w 1 ≤ 64 := by
    unfold Nodem.axisMargin
    by_cases hfits : 0 ≤ (64 : ℤ) - w * 1
    · rw [Int.tdiv_eq_ediv_of_nonneg hfits]
      omega
    · rw [show (64 : ℤ) - w * 1 = -(w - 64) by ring, Int.neg_tdiv,
        Int.tdiv_eq_ediv_of_nonneg (by omega)]
      omega
  unfold Nodem.maxDimension at hw
  have hshift : -32768 ≤ (w : ℤ) - 1 - (63 - Nodem.axisMargin 64 w 1) ∧
      (w : ℤ) - 1 - (63 - Nodem.axisMargin 64 w 1) ≤ 32767 := by omega
  have hheight : 1 ≤ 1 ∧ 1 ≤ Nodem.maxDimension := by decide
  have hrow : (-32768 : ℤ) ≤ 14 ∧ (14 : ℤ) ≤ 32767 := by decide
  have hscale : 1 ≤ 1 ∧ 1 ≤ Nodem.maxScale := by decide
  refine ⟨⟨h0, hw⟩, hheight, rfl, ?_, .inl rfl, .inr ⟨rfl, hshift, hrow, hscale, hscale⟩⟩
  show (w * 1 * 1 + 7) / 8 ≤ 4096
  omega

/-- **A framebuffer narrower than row 0's** may be read past its end, whatever the two widths. -/
theorem narrower_reads_past {w w' : ℕ} (h0 : 1 ≤ w') (hlt : w' < w) (hw : w ≤ Nodem.maxDimension) :
    let rows := submittedDuring (nodemStrip w) (nodemStrip w')
    (∀ y, ∃ v, Nodem.parse v = some (rows y).nodem) ∧
      w - 1 ∈ drawReads ((hub75Geometry hub75Default).drive 1) (fun _ => 0) true 0 (rows 0) rows 1 ∧
      ¬ w - 1 < (rows 1).nodem.width * (rows 1).nodem.height := by
  intro rows
  have hok : (nodemStrip w).Ok := nodemStrip_ok (by omega) hw
  have hok' : (nodemStrip w').Ok := nodemStrip_ok h0 (by omega)
  unfold Nodem.maxDimension at hw
  refine ⟨fun y => ?_, ?_, ?_⟩
  · by_cases hy : y = 0
    · exact ⟨_, by simpa [rows, submittedDuring, hy] using Nodem.parse_text hok⟩
    · exact ⟨_, by simpa [rows, submittedDuring, hy] using Nodem.parse_text hok'⟩
  · have hshown : ∀ y' ≤ 1, (rows y').shown = true := fun y' _ =>
      submittedDuring_shown rfl rfl y'
    have hlast : Nodem.mapAxis (63 : ℕ) (64 : ℕ) w (1 : ℕ)
        (w - 1 - (63 - Nodem.axisMargin 64 w 1)) = (w - 1 : ℕ) := by
      rw [Nodem.mapAxis_eq (by decide)]
      simp only [Nat.cast_ofNat, Nat.cast_one, Int.ediv_one]
      unfold Nodem.clamp16
      omega
    have hcol : mapCol ((hub75Geometry hub75Default).drive 1) (nodemStrip w) 63 = (w - 1 : ℕ) := by
      have hin : ((w - 1 : ℕ) : ℤ) ≥ 0 ∧ ((w - 1 : ℕ) : ℤ) < w := by omega
      rw [← hlast] at hin
      exact (if_pos hin).trans hlast
    have hrow : Nodem.mapAxis (1 : ℕ) (32 : ℕ) (1 : ℕ) (1 : ℕ) 14 = 0 := by decide
    have hin : ¬ (Nodem.mapAxis (1 : ℕ) (32 : ℕ) (1 : ℕ) (1 : ℕ) 14 < 0 ∨
        Nodem.mapAxis (1 : ℕ) (32 : ℕ) (1 : ℕ) (1 : ℕ) 14 ≥ (1 : ℕ)) := by
      rw [hrow]
      decide
    rw [drawReads_eq, if_pos ⟨rfl, hshown⟩]
    unfold rowReads
    refine (if_neg hin).symm ▸ List.mem_filterMap.mpr ⟨63, by decide, ?_⟩
    show (if 0 ≤ mapCol _ (nodemStrip w) 63 then
      some (u32 (u32 ((Nodem.mapAxis (1 : ℕ) (32 : ℕ) (1 : ℕ) (1 : ℕ) 14).toNat * w') +
        (mapCol _ (nodemStrip w) 63).toNat)) else none) = some (w - 1)
    rw [hcol, if_pos (Int.natCast_nonneg _), Int.toNat_natCast, hrow, Int.toNat_zero, Nat.zero_mul,
      show u32 0 = 0 from rfl, Nat.zero_add]
    exact congrArg some (Nat.mod_eq_of_lt (by omega))
  · show ¬ w - 1 < w' * 1
    omega

/-- A narrow framebuffer of 1024 rows, the last of which the panel shows. -/
def nodemTall : Nodem.Config := ⟨32, 1024, 1, .zero, ⟨true, 0, 992, 1, 1⟩⟩

/-- **A row is read past the end of the framebuffer**, and of the buffer it is in: the columns
are those of the wider framebuffer of row 0. -/
theorem reads_past_framebuffer :
    Nodem.parse (cs "64:32:1,hub75:0:0:1:1") = some nodemPanel ∧
      Nodem.parse (cs "32:1024:1,hub75:0:992:1:1") = some nodemTall ∧
      hub75Alloc (hub75Geometry hub75Default) = some ((hub75Geometry hub75Default).drive 1) ∧
      32799 ∈ drawReads ((hub75Geometry hub75Default).drive 1) (fun _ => 0) true 0
        (submittedDuring nodemPanel nodemTall 0) (submittedDuring nodemPanel nodemTall) 31 ∧
      ¬ 32799 < nodemTall.width * nodemTall.height ∧ ¬ 32799 / 8 < Nodem.fbMaxSize := by
  refine ⟨by decide, by decide, rfl, ?_, by decide, by decide⟩
  rw [drawReads_eq, if_pos ⟨by decide, fun y _ => submittedDuring_shown rfl rfl y⟩]
  decide +kernel

end NodemFirmware.Hub75
