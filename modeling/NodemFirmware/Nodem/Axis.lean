import NodemFirmware.Nodem.Config
import Mathlib.Data.Int.Interval

/-! # The axis mapping, exactly

`nodem_map_axis` builds a floor division from C's truncating one, next to a truncating halving
and a saturating cast.  The module says what comes out of it: framebuffer coordinate `f` is
read by the driver pixels `axisStart f ≤ d < axisStart f + scale` and by no others.  The C code
computes in `int`; `mapAxis_fits` bounds what it computes on the way. -/

namespace NodemFirmware.Nodem

/-- `margin` of `nodem_map_axis`: what is left of the driver on the near side. -/
def axisMargin (size fbSize scale : ℤ) : ℤ := max ((size - fbSize * scale).tdiv 2) 0

/-- The first driver pixel that framebuffer coordinate `f` covers, on the driver or off it. -/
def axisStart (size fbSize scale shift f : ℤ) : ℤ :=
  axisMargin size fbSize scale + (f - shift) * scale

variable {d d' size fbSize scale shift f : ℤ}

/-! ### Floor division out of the truncating one -/

theorem neg_tdiv_round_up (hs : 0 < scale) (hd : d < 0) :
    -((-d + scale - 1).tdiv scale) = d / scale := by
  rw [Int.tdiv_eq_ediv_of_nonneg (by omega)]
  have hq : (-d + scale - 1) / scale = -(d / scale) := by
    have hr := Int.emod_nonneg d hs.ne'
    have hr' := Int.emod_lt_of_pos d hs
    have hde := Int.mul_ediv_add_emod d scale
    refine le_antisymm ?_ ?_
    · refine Int.lt_add_one_iff.mp ((Int.ediv_lt_iff_lt_mul hs).mpr ?_)
      have : (-(d / scale) + 1) * scale = scale - scale * (d / scale) := by ring
      omega
    · refine (Int.le_ediv_iff_mul_le hs).mpr ?_
      have : -(d / scale) * scale = -(scale * (d / scale)) := by ring
      omega
  rw [hq, neg_neg]

/-- The mapping without the detour: the floor of the distance to the margin. -/
theorem mapAxis_eq (hs : 0 < scale) :
    mapAxis d size fbSize scale shift =
      clamp16 (shift + (d - axisMargin size fbSize scale) / scale) := by
  unfold mapAxis axisMargin
  simp only
  split_ifs with hrel
  · rw [Int.tdiv_eq_ediv_of_nonneg hrel]
  · rw [neg_tdiv_round_up hs (by omega)]

theorem clamp16_mono {v w : ℤ} (h : v ≤ w) : clamp16 v ≤ clamp16 w := by
  unfold clamp16
  omega

/-- Above the lowest value the clamp does not move a comparison. -/
theorem le_clamp16_iff {v : ℤ} (h : -32768 < f) (h' : f ≤ 32767) : f ≤ clamp16 v ↔ f ≤ v := by
  unfold clamp16
  omega

/-! ### What a pixel reads -/

/-- Pixel `d` reads at or after `f` exactly from `axisStart f` on. -/
theorem le_mapAxis_iff (hs : 0 < scale) (h : -32768 < f) (h' : f ≤ 32767) :
    f ≤ mapAxis d size fbSize scale shift ↔ axisStart size fbSize scale shift f ≤ d := by
  rw [mapAxis_eq hs, le_clamp16_iff h h']
  unfold axisStart
  have hq : f - shift ≤ (d - axisMargin size fbSize scale) / scale ↔
      (f - shift) * scale ≤ d - axisMargin size fbSize scale := Int.le_ediv_iff_mul_le hs
  omega

theorem axisStart_succ :
    axisStart size fbSize scale shift (f + 1) = axisStart size fbSize scale shift f + scale := by
  unfold axisStart
  ring

theorem mapAxis_eq_iff (hs : 0 < scale) (h : -32768 < f) (h' : f < 32767) :
    mapAxis d size fbSize scale shift = f ↔
      axisStart size fbSize scale shift f ≤ d ∧
        d < axisStart size fbSize scale shift f + scale := by
  have hlo : f ≤ mapAxis d size fbSize scale shift ↔
      axisStart size fbSize scale shift f ≤ d := le_mapAxis_iff hs h h'.le
  have hhi : f + 1 ≤ mapAxis d size fbSize scale shift ↔
      axisStart size fbSize scale shift (f + 1) ≤ d := le_mapAxis_iff hs (by omega) (by omega)
  rw [axisStart_succ] at hhi
  omega

theorem mapAxis_mono (hs : 0 < scale) (h : d ≤ d') :
    mapAxis d size fbSize scale shift ≤ mapAxis d' size fbSize scale shift := by
  have hq := Int.ediv_le_ediv hs (Int.sub_le_sub_right h (axisMargin size fbSize scale))
  rw [mapAxis_eq hs, mapAxis_eq hs]
  exact clamp16_mono (by omega)

/-- The driver pixels that read `f`: `scale` of them, less what the driver's edges cut. -/
theorem filter_mapAxis_eq (hs : 0 < scale) (h : -32768 < f) (h' : f < 32767) :
    (Finset.Ico 0 size).filter (fun d => mapAxis d size fbSize scale shift = f) =
      Finset.Ico (max 0 (axisStart size fbSize scale shift f))
        (min size (axisStart size fbSize scale shift f + scale)) := by
  ext d
  rw [Finset.mem_filter, mapAxis_eq_iff hs h h', Finset.mem_Ico, Finset.mem_Ico]
  omega

/-- Both margins of a framebuffer that fits, the far one longer by the odd pixel. -/
theorem axisMargin_centred (h : fbSize * scale ≤ size) :
    let margin := axisMargin size fbSize scale
    0 ≤ margin ∧ (size - (margin + fbSize * scale) = margin ∨
      size - (margin + fbSize * scale) = margin + 1) := by
  unfold axisMargin
  rw [Int.tdiv_eq_ediv_of_nonneg (by omega)]
  omega

/-- Nothing on the way leaves `int`: the difference, the margin, the distance to it, the
rounded-up one and the sum before the clamp. -/
theorem mapAxis_fits (hsize : size ≤ 2147483647) (hd : 0 ≤ d) (hd' : d < size)
    (hfb : 1 ≤ fbSize) (hfb' : fbSize ≤ 1024) (hs : 1 ≤ scale) (hs' : scale ≤ 16)
    (hshift : -32768 ≤ shift) (hshift' : shift ≤ 32767) :
    (-16384 ≤ size - fbSize * scale ∧ size - fbSize * scale ≤ 2147483647) ∧
      (0 ≤ axisMargin size fbSize scale ∧ axisMargin size fbSize scale ≤ 1073741823) ∧
      (-1073741823 ≤ d - axisMargin size fbSize scale ∧
        d - axisMargin size fbSize scale ≤ 1073758208) ∧
      -(d - axisMargin size fbSize scale) + scale - 1 ≤ 1073741838 ∧
      (-2147483648 ≤ shift + (d - axisMargin size fbSize scale) / scale ∧
        shift + (d - axisMargin size fbSize scale) / scale ≤ 2147483647) := by
  have hp : 1 ≤ fbSize * scale := by nlinarith
  have hp' : fbSize * scale ≤ 16384 := by nlinarith
  have hm : 0 ≤ axisMargin size fbSize scale ∧ axisMargin size fbSize scale ≤ 1073741823 ∧
      size - 2 * axisMargin size fbSize scale ≤ 16387 := by
    unfold axisMargin
    rcases le_or_gt (fbSize * scale) size with h | h
    · rw [Int.tdiv_eq_ediv_of_nonneg (by omega)]
      omega
    · rw [← neg_sub, Int.neg_tdiv, Int.tdiv_eq_ediv_of_nonneg (by omega)]
      omega
  generalize axisMargin size fbSize scale = m at hm ⊢
  have hq : -1073741823 ≤ (d - m) / scale :=
    (Int.le_ediv_iff_mul_le (by omega)).mpr (by nlinarith)
  have hq' : (d - m) / scale < 1073758209 :=
    (Int.ediv_lt_iff_lt_mul (by omega)).mpr (by nlinarith)
  omega

/-- **Placing and scaling along one axis.**  For each driver pixel `d` and each `f` of the
framebuffer, `d` reads `f` exactly on its `scale` pixels; a pixel no `f` covers reads outside of
the framebuffer, clamped or not; the mapping is monotone; `f` covers `scale` pixels in a row
unless an edge of the driver cuts them; unshifted, a framebuffer that fits is centred. -/
theorem mapAxis_places (size : ℤ) (hfb : 1 ≤ fbSize ∧ fbSize ≤ 1024)
    (hs : 1 ≤ scale ∧ scale ≤ 16) (hshift : -32768 ≤ shift ∧ shift ≤ 32767) :
    let m := max ((size - fbSize * scale).tdiv 2) 0
    let axis := fun d => mapAxis d size fbSize scale shift
    (∀ d f, 0 ≤ d → d < size → 0 ≤ f → f < fbSize →
      (axis d = f ↔ m + (f - shift) * scale ≤ d ∧ d < m + (f - shift + 1) * scale)) ∧
    (∀ d, 0 ≤ d → d < size →
      (¬∃ f, 0 ≤ f ∧ f < fbSize ∧
        m + (f - shift) * scale ≤ d ∧ d < m + (f - shift + 1) * scale) →
      axis d < 0 ∨ fbSize ≤ axis d) ∧
    (∀ d d', 0 ≤ d → d ≤ d' → d' < size → axis d ≤ axis d') ∧
    (∀ f, 0 ≤ f → f < fbSize →
      (Finset.Ico 0 size).filter (fun d => axis d = f) =
        Finset.Ico (max 0 (m + (f - shift) * scale))
          (min size (m + (f - shift) * scale + scale)) ∧
      (0 ≤ m + (f - shift) * scale → m + (f - shift) * scale + scale ≤ size →
        (((Finset.Ico 0 size).filter (fun d => axis d = f)).card : ℤ) = scale)) ∧
    (shift = 0 → fbSize * scale ≤ size →
      (∀ d, 0 ≤ d → d < size →
        (0 ≤ axis d ∧ axis d < fbSize ↔ m ≤ d ∧ d < m + fbSize * scale)) ∧
      (size - (m + fbSize * scale) = m ∨ size - (m + fbSize * scale) = m + 1)) := by
  intro m axis
  have hpos : 0 < scale := by omega
  have hread : ∀ d f, -1 ≤ f → f ≤ 1024 →
      (axis d = f ↔ m + (f - shift) * scale ≤ d ∧ d < m + (f - shift + 1) * scale) := by
    intro d f hf hf'
    have hstep : (f - shift + 1) * scale = (f - shift) * scale + scale := by ring
    rw [hstep, ← add_assoc]
    exact mapAxis_eq_iff hpos (by omega) (by omega)
  refine ⟨fun d f _ _ hf hf' => hread d f (by omega) (by omega), ?_, ?_, ?_, ?_⟩
  · intro d _ _ hnone
    by_contra hin
    exact hnone ⟨axis d, by omega, by omega, (hread d (axis d) (by omega) (by omega)).mp rfl⟩
  · intro d d' _ h _
    exact mapAxis_mono hpos h
  · intro f hf hf'
    have hcover : (Finset.Ico 0 size).filter (fun d => axis d = f) =
        Finset.Ico (max 0 (m + (f - shift) * scale))
          (min size (m + (f - shift) * scale + scale)) :=
      filter_mapAxis_eq hpos (by omega) (by omega)
    refine ⟨hcover, fun hlo hhi => ?_⟩
    rw [hcover, Int.card_Ico]
    omega
  · rintro rfl hfit
    obtain ⟨hm, hfar⟩ := axisMargin_centred hfit
    refine ⟨fun d _ _ => ?_, hfar⟩
    -- the first and the last coordinate bound the ones between them
    have hlo : 0 ≤ axis d ↔ m ≤ d := by
      rw [le_mapAxis_iff hpos (by omega) (by omega), axisStart, sub_zero, zero_mul, add_zero]
      rfl
    have hhi : fbSize ≤ axis d ↔ m + fbSize * scale ≤ d := by
      rw [le_mapAxis_iff hpos (by omega) (by omega), axisStart, sub_zero]
      rfl
    omega

/-- Two columns at twice their size on seven pixels: the second column's pixels. -/
theorem mapAxis_places_doubled :
    (((Finset.Ico 0 7).filter (fun d => mapAxis d 7 2 2 0 = 1)).card : ℤ) = 2 :=
  ((mapAxis_places 7 ⟨by decide, by decide⟩ ⟨by decide, by decide⟩ ⟨by decide, by decide⟩).2.2.2.1
    1 (by decide) (by decide)).2 (by decide) (by decide)

end NodemFirmware.Nodem
