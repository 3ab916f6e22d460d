import NodemFirmware.Upload.Package

/-! # The package in use

`lib.rs`'s `nodem_load_pkg` and the loop of `nodem_task` around the loader: an upload rewrites
the `pkg` partition, its end flags `pkg_ready`, and the next poll of it loads what the partition
holds then.  `Media` keeps pointers into it.

`Media::load_pkg` is nodem-rs's: whether it accepts the package is an argument.  So is when
nodem-rs gives an upload up. -/

namespace NodemFirmware.Upload

open Transition CText

variable {p : Platform}

/-- The runtime and the loader; `media` is the package of source 1 that `Media` accepted, and
`active` says that an upload was started and neither ended nor given up. -/
structure Runtime (p : Platform) where
  loader : Loader p
  pkgSize : ℕ
  media : Option (List UInt8)
  pkgLoaded : Bool
  active : Bool

/-- The first `n` bytes of a partition. -/
def Partition.first (pkg : Partition) (n : ℕ) : List UInt8 := (List.range n).map pkg

/-- "PKG0". -/
def pkgMagic : List UInt8 := [0x50, 0x4B, 0x47, 0x30]

/-- The package's length field. -/
def pkgLength (pkg : Partition) : ℕ :=
  (pkg 4).toNat + 2 ^ 8 * (pkg 5).toNat + 2 ^ 16 * (pkg 6).toNat + 2 ^ 24 * (pkg 7).toNat

/-- `load_pkg`. -/
def loadPkg (p : Platform) (pkg : Partition) (accepted : Bool) : ℕ :=
  let capacity := p.pkgSize
  if capacity < 12 ∨ pkg.first 4 ≠ pkgMagic then 0
  else
    let length := pkgLength pkg
    if length < 12 ∨ capacity < length then 0
    else if accepted = true then length
    else 0

/-- `nodem_load_pkg`. -/
def nodemLoadPkg (rt : Runtime p) (accepted : Bool) : Runtime p :=
  let size := loadPkg p rt.loader.pkg accepted
  { rt with
    media := if size = 0 then none else some (rt.loader.pkg.first size)
    pkgSize := size }

/-- What happens in `nodem_task`: nodem-rs's calls of the loader, and the loop's own steps. -/
inductive RuntimeEvent (p : Platform) where
  | start (mode : ControlMode) (len : ℕ) (inp : FlashInput p)
  | data (buf : List UInt8) (pos : ℕ) (inp : FlashInput p)
  | finish (inp : FlashInput p)
  | abandon
  | poll (accepted : Bool)
  | frame (accepted : Bool)

def RuntimeEvent.apply (rt : Runtime p) : RuntimeEvent p → Runtime p
  | start mode len inp =>
      let r := processLoaderStart rt.loader mode len inp
      { rt with loader := r.2, active := decide (r.1 ≠ 0) }
  | data buf pos inp => { rt with loader := processLoaderData rt.loader buf pos inp }
  | finish inp => { rt with loader := (processLoaderEnd rt.loader inp).2, active := false }
  | abandon => { rt with active := false }
  | poll accepted =>
      let r := takePkgReady rt.loader
      let rt := { rt with loader := r.2 }
      if r.1 = true then nodemLoadPkg rt accepted else rt
  | frame accepted =>
      if rt.pkgLoaded = true then rt else nodemLoadPkg { rt with pkgLoaded := true } accepted

/-- Data and the end are of an upload that was started. -/
def RuntimeEvent.Allowed (rt : Runtime p) : RuntimeEvent p → Prop
  | data _ _ _ => rt.active = true
  | finish _ => rt.active = true
  | _ => True

instance (rt : Runtime p) : (e : RuntimeEvent p) → Decidable (e.Allowed rt)
  | .data _ _ _ => inferInstanceAs (Decidable (rt.active = true))
  | .finish _ => inferInstanceAs (Decidable (rt.active = true))
  | .start _ _ _ => .isTrue trivial
  | .abandon => .isTrue trivial
  | .poll _ => .isTrue trivial
  | .frame _ => .isTrue trivial

def RuntimeStep (rt : Runtime p) (e : RuntimeEvent p) (rt' : Runtime p) : Prop :=
  e.Allowed rt ∧ rt' = e.apply rt

/-- After boot, with whatever is in flash. -/
def Runtime.new (ctx : p.Ctx) (slot pkg : Partition) : Runtime p where
  loader := .new ctx slot pkg
  pkgSize := 0
  media := none
  pkgLoaded := false
  active := false

/-- An upload is in progress: it is neither ended nor given up, or the load it flagged is still
to come. -/
def Runtime.InProgress (rt : Runtime p) : Prop := rt.active = true ∨ rt.loader.pkgReady = true

/-- The package in use is the one in flash. -/
def Runtime.InUse (rt : Runtime p) : Prop :=
  0 < rt.pkgSize → rt.media = some (rt.loader.pkg.first rt.pkgSize)

/-! ### When it stays so -/

/-- `pkg_store_erase` gets to `flash_area_erase`. -/
def Erases (p : Platform) (len : ℕ) (inp : FlashInput p) : Prop :=
  len ≤ p.pkgSize ∧ inp.opened 0 = 0 ∧ erasedTo p len ≤ p.pkgSize

/-- A package upload in progress that erased or wrote something. -/
def Runtime.Unfinished (rt : Runtime p) : Prop :=
  rt.active = true ∧ rt.loader.loaderMode = .pkgMode ∧
    (rt.loader.announced ≠ 0 ∨ rt.loader.calls ≠ [])

/-- What an event may do while a package is in use and no load is to come: begin a package
upload, carry it on, and end it with a last write that works.  Any other event leaves the
partition alone. -/
def RuntimeEvent.CarriesOn (rt : Runtime p) : RuntimeEvent p → Prop
  | start mode len inp =>
      mode = .pkgMode ∧ Erases p len inp ∧ inp.failed 0 = none ∧ 0 < p.pkgSize ∧
          (len ≠ 0 ∨ ¬ rt.Unfinished) ∨
        ¬ rt.Unfinished ∧ (mode = .pkgMode → ¬ Erases p len inp)
  | finish fin => rt.loader.loaderMode = .pkgMode → 0 < rt.loader.loaderBufLen → fin.Works 0
  | abandon => ¬ rt.Unfinished
  | _ => True

/-- An event that leaves no package in use behind that is neither in flash nor to be loaded. -/
def RuntimeEvent.Safe (rt : Runtime p) (e : RuntimeEvent p) : Prop :=
  rt.pkgSize = 0 ∨ rt.loader.pkgReady = true ∨ e.CarriesOn rt

/-! ### What the loader does to the partition -/

/-- The package partition, and the flag that it is to be loaded. -/
structure SamePkg (st st' : Loader p) : Prop where
  pkg : st'.pkg = st.pkg
  pkgReady : st'.pkgReady = st.pkgReady

theorem SamePkg.trans {st₁ st₂ st₃ : Loader p} (h : SamePkg st₁ st₂) (h' : SamePkg st₂ st₃) :
    SamePkg st₁ st₃ :=
  ⟨h'.pkg.trans h.pkg, h'.pkgReady.trans h.pkgReady⟩

theorem otaStart_samePkg (st : Loader p) (len : ℕ) (inp : FlashInput p) :
    SamePkg st (otaStart st len inp).2 := by
  unfold otaStart otaStoreStart
  simp only
  split_ifs <;> exact ⟨rfl, rfl⟩

theorem otaFlush_samePkg (st : Loader p) (outcome : p.Outcome) :
    SamePkg st (otaFlush st outcome) := by
  unfold otaFlush
  split_ifs <;> exact ⟨rfl, rfl⟩

theorem otaByte_samePkg (st : Loader p) (byte : UInt8) (outcome : p.Outcome) :
    SamePkg st (otaByte st byte outcome) := by
  have hstage : SamePkg st (st.stage byte) := ⟨rfl, rfl⟩
  unfold otaByte
  simp only
  split_ifs
  · exact hstage.trans (otaFlush_samePkg _ outcome)
  · exact hstage

theorem otaData_samePkg (st : Loader p) (buf : List UInt8) (inp : FlashInput p) :
    SamePkg st (otaData st buf inp) :=
  Blocks.foldl_zipIdx_invariant (I := fun _ st' => SamePkg st st')
    (fun _ st' byte h => h.trans (otaByte_samePkg st' byte _)) ⟨rfl, rfl⟩ buf

theorem otaStoreFinish_samePkg (st : Loader p) (inp : FlashInput p) :
    SamePkg st (otaStoreFinish st inp).2.2 := by
  unfold otaStoreFinish imgWrite
  simp only
  split_ifs <;> exact ⟨rfl, rfl⟩

theorem otaEnd_samePkg (st : Loader p) (inp : FlashInput p) : SamePkg st (otaEnd st inp).2 := by
  have hflush := otaFlush_samePkg st (inp.img 0)
  have hfinish := otaStoreFinish_samePkg (otaFlush st (inp.img 0)) inp
  have hboth := hflush.trans hfinish
  unfold otaEnd
  simp only
  split_ifs
  · exact hflush
  · exact hboth
  · exact ⟨hboth.pkg, hboth.pkgReady⟩

theorem pkgStart_keeps (st : Loader p) (len : ℕ) (inp : FlashInput p) :
    (pkgStart st len inp).2.pkgReady = st.pkgReady ∧
      (pkgStart st len inp).2.loaderBufLen = st.loaderBufLen := by
  unfold pkgStart pkgStoreErase
  simp only
  cases inp.failed 0 <;> split_ifs <;> exact ⟨rfl, rfl⟩

/-- A start that does not get to `flash_area_erase`. -/
theorem pkgStart_refused {st : Loader p} {len : ℕ} {inp : FlashInput p}
    (h : ¬ Erases p len inp) : (pkgStart st len inp).2.pkg = st.pkg := by
  unfold Erases erasedTo at h
  unfold pkgStart pkgStoreErase
  simp only
  by_cases hsize : p.pkgSize < len
  · rw [if_pos hsize]
  rw [if_neg hsize]
  by_cases hopen : inp.opened 0 ≠ 0
  · rw [if_pos hopen, if_pos hopen]
  · have hroom : p.pkgSize < alignUp len (p.pkgPage.getD 4096) := by
      by_contra hfits
      exact h ⟨not_lt.mp hsize, not_not.mp hopen, not_lt.mp hfits⟩
    have hnospc : -Errno.nospc ≠ 0 := by decide
    rw [if_neg hopen, if_pos hroom, if_pos hnospc]

/-- A start whose erase works. -/
theorem pkgStart_erased {st : Loader p} {len : ℕ} {inp : FlashInput p} (h : Erases p len inp)
    (hf : inp.failed 0 = none) : pkgStart st len inp = (p.pkgSize, { st with
      pkgWritten := 0, pkg := fun i => if i < erasedTo p len then 0xFF else st.pkg i }) := by
  obtain ⟨hsize, hopen, hroom⟩ := h
  unfold erasedTo at hroom ⊢
  unfold pkgStart pkgStoreErase
  simp only
  rw [if_neg (not_lt.mpr hsize), if_neg (not_not.mpr hopen), if_neg (not_lt.mpr hroom), hf]
  rfl

/-- A package upload from one call to the next. -/
structure WriteStep (st st' : Loader p) : Prop where
  pkgReady : st'.pkgReady = st.pkgReady
  announced : st'.announced = st.announced
  untouched : st'.calls = [] → st.calls = [] ∧ st'.pkg = st.pkg

theorem WriteStep.trans {st₁ st₂ st₃ : Loader p} (h : WriteStep st₁ st₂)
    (h' : WriteStep st₂ st₃) : WriteStep st₁ st₃ := by
  refine ⟨h'.pkgReady.trans h.pkgReady, h'.announced.trans h.announced, ?_⟩
  intro hnil
  obtain ⟨hnil', hpkg'⟩ := h'.untouched hnil
  obtain ⟨hnil'', hpkg⟩ := h.untouched hnil'
  exact ⟨hnil'', hpkg'.trans hpkg⟩

theorem pkgByte_writeStep (st : Loader p) (byte : UInt8) (pos i : ℕ) (inp : FlashInput p) :
    WriteStep st (pkgByte st byte pos i inp) := by
  unfold pkgByte pkgFlush
  simp only
  split_ifs
  · exact ⟨rfl, rfl, fun hnil => absurd hnil (List.append_ne_nil_of_right_ne_nil _ (by simp))⟩
  · exact ⟨rfl, rfl, fun hnil => ⟨hnil, rfl⟩⟩

theorem pkgData_writeStep (st : Loader p) (buf : List UInt8) (pos : ℕ) (inp : FlashInput p) :
    WriteStep st (pkgData st buf pos inp) :=
  Blocks.foldl_zipIdx_invariant (I := fun _ st' => WriteStep st st')
    (fun _ st' byte h => h.trans (pkgByte_writeStep st' byte pos _ inp))
    ⟨rfl, rfl, fun hnil => ⟨hnil, rfl⟩⟩ buf

/-- An end whose last write works. -/
theorem pkgEnd_pkgReady {st : Loader p} (hroom : st.loaderBufLen < loaderChunkLen)
    {fin : FlashInput p} (h : 0 < st.loaderBufLen → fin.Works 0) :
    (pkgEnd st fin).2.pkgReady = true := by
  unfold pkgEnd
  by_cases hempty : 0 < st.loaderBufLen
  · have hlen : st.staged.length ≤ loaderChunkLen := by
      rw [length_staged]
      exact hroom.le
    have hzero : (pkgFlush st st.pkgWritten fin 0).1 = 0 :=
      (pkgStoreWrite_zero _ _ hlen fin 0).mpr (h hempty)
    rw [if_pos hempty]
    simp only
    rw [if_neg (not_not.mpr hzero)]
  · rw [if_neg hempty]

theorem pkgEnd_keeps_ready {st : Loader p} (h : st.pkgReady = true) (fin : FlashInput p) :
    (pkgEnd st fin).2.pkgReady = true := by
  unfold pkgEnd pkgFlush
  simp only
  split_ifs
  · exact h
  · rfl
  · rfl

/-! ### The staging buffer -/

theorem pkgByte_room {st : Loader p} (h : st.loaderBufLen < loaderChunkLen) (byte : UInt8)
    (pos i : ℕ) (inp : FlashInput p) :
    (pkgByte st byte pos i inp).loaderBufLen < loaderChunkLen := by
  have hlen : (st.stage byte).loaderBufLen = st.loaderBufLen + 1 := rfl
  unfold pkgByte
  simp only
  split_ifs with hfull
  · show 0 < loaderChunkLen
    decide
  · omega

theorem otaByte_room {st : Loader p} (h : st.loaderBufLen < loaderChunkLen) (byte : UInt8)
    (outcome : p.Outcome) : (otaByte st byte outcome).loaderBufLen < loaderChunkLen := by
  have hlen : (st.stage byte).loaderBufLen = st.loaderBufLen + 1 := rfl
  unfold otaByte
  simp only
  split_ifs with hfull
  · rw [otaFlush_empty]
    decide
  · omega

theorem processLoaderData_room {st : Loader p} (h : st.loaderBufLen < loaderChunkLen)
    (buf : List UInt8) (pos : ℕ) (inp : FlashInput p) :
    (processLoaderData st buf pos inp).loaderBufLen < loaderChunkLen := by
  unfold processLoaderData
  cases st.loaderMode with
  | lineMode => exact h
  | pkgMode =>
      exact Blocks.foldl_zipIdx_invariant
        (I := fun _ (st' : Loader p) => st'.loaderBufLen < loaderChunkLen)
        (fun _ _ byte h' => pkgByte_room h' byte pos _ inp) h buf
  | otaMode =>
      exact Blocks.foldl_zipIdx_invariant
        (I := fun _ (st' : Loader p) => st'.loaderBufLen < loaderChunkLen)
        (fun _ _ byte h' => otaByte_room h' byte _) h buf

/-! ### Steps -/

/-- The invariant: the package in use is in flash, or it is to be loaded, or it is being
uploaded. -/
structure Tracks (rt : Runtime p) : Prop where
  room : rt.loader.loaderBufLen < loaderChunkLen
  held : rt.InUse ∨ rt.loader.pkgReady = true ∨ rt.Unfinished

theorem nodemLoadPkg_inUse (rt : Runtime p) (accepted : Bool) :
    (nodemLoadPkg rt accepted).InUse := by
  intro hpos
  exact if_neg (Nat.pos_iff_ne_zero.mp hpos)

theorem Runtime.InUse.same {rt rt' : Runtime p} (h : rt.InUse) (hsize : rt'.pkgSize = rt.pkgSize)
    (hmedia : rt'.media = rt.media) (hpkg : rt'.loader.pkg = rt.loader.pkg) : rt'.InUse := by
  intro hpos
  rw [hsize] at hpos
  rw [hmedia, hsize, hpkg]
  exact h hpos

theorem Runtime.inUse_of_unloaded {rt : Runtime p} (h : rt.pkgSize = 0) : rt.InUse := by
  intro hpos
  omega

/-- Where no upload is unfinished, what is in use is in flash or to be loaded. -/
theorem Tracks.settled {rt : Runtime p} (h : Tracks rt) (hun : ¬ rt.Unfinished)
    (hready : ¬ rt.loader.pkgReady = true) : rt.InUse :=
  h.held.resolve_right fun hr => hr.elim hready hun

theorem otaStart_bufLen (st : Loader p) (len : ℕ) (inp : FlashInput p) :
    (otaStart st len inp).2.loaderBufLen = st.loaderBufLen := by
  unfold otaStart otaStoreStart
  simp only
  split_ifs <;> rfl

theorem processLoaderStart_keeps (st : Loader p) (mode : ControlMode) (len : ℕ)
    (inp : FlashInput p) :
    (processLoaderStart st mode len inp).2.pkgReady = st.pkgReady ∧
      (processLoaderStart st mode len inp).2.loaderBufLen = 0 := by
  cases mode with
  | lineMode => exact ⟨rfl, rfl⟩
  | pkgMode => exact pkgStart_keeps _ len inp
  | otaMode => exact ⟨(otaStart_samePkg _ len inp).pkgReady, otaStart_bufLen _ len inp⟩

theorem processLoaderStart_erased (st : Loader p) {len : ℕ} {inp : FlashInput p}
    (h : Erases p len inp) (hf : inp.failed 0 = none) :
    let r := processLoaderStart st .pkgMode len inp
    r.1 = p.pkgSize ∧ r.2.loaderMode = .pkgMode ∧ r.2.announced = len ∧
      r.2.pkg = fun i => if i < erasedTo p len then 0xFF else st.pkg i := by
  unfold processLoaderStart
  simp only
  rw [pkgStart_erased h hf]
  exact ⟨rfl, rfl, rfl, rfl⟩

theorem processLoaderStart_refused {st : Loader p} {mode : ControlMode} {len : ℕ}
    {inp : FlashInput p} (h : mode = .pkgMode → ¬ Erases p len inp) :
    (processLoaderStart st mode len inp).2.pkg = st.pkg := by
  cases mode with
  | lineMode => rfl
  | pkgMode => exact pkgStart_refused (h rfl)
  | otaMode => exact (otaStart_samePkg _ len inp).pkg

theorem erasedTo_zero (p : Platform) : erasedTo p 0 = 0 := by
  unfold erasedTo alignUp
  rcases Nat.eq_zero_or_pos (p.pkgPage.getD 4096) with hzero | hpos
  · rw [hzero, Nat.mul_zero]
  · rw [Nat.div_eq_of_lt (by omega), Nat.zero_mul]

theorem Tracks.start {rt : Runtime p} (h : Tracks rt) {mode : ControlMode} {len : ℕ}
    {inp : FlashInput p} (hsafe : (RuntimeEvent.start mode len inp).Safe rt) :
    Tracks ((RuntimeEvent.start mode len inp).apply rt) := by
  obtain ⟨hready, hbuf⟩ := processLoaderStart_keeps rt.loader mode len inp
  constructor
  · show (processLoaderStart rt.loader mode len inp).2.loaderBufLen < loaderChunkLen
    rw [hbuf]
    decide
  by_cases hr : rt.loader.pkgReady = true
  · exact .inr (.inl (hready.trans hr))
  rcases hsafe with hsize | hr' | ⟨rfl, herase, hf, hpos, hlen⟩ | ⟨hun, herase⟩
  · exact .inl (Runtime.inUse_of_unloaded hsize)
  · exact absurd hr' hr
  · obtain ⟨hret, hmode, hann, hpkg⟩ := processLoaderStart_erased rt.loader herase hf
    by_cases hzero : len = 0
    · have hinUse := h.settled (hlen.resolve_left (not_not.mpr hzero)) hr
      subst hzero
      rw [erasedTo_zero] at hpkg
      exact .inl (hinUse.same rfl rfl hpkg)
    · refine .inr (.inr ⟨?_, hmode, .inl ?_⟩)
      · exact decide_eq_true (by rw [hret]; omega)
      · exact ne_of_eq_of_ne hann hzero
  · exact .inl ((h.settled hun hr).same rfl rfl (processLoaderStart_refused herase))

theorem processLoaderData_pkgMode {st : Loader p} (hmode : st.loaderMode = .pkgMode)
    (buf : List UInt8) (pos : ℕ) (inp : FlashInput p) :
    WriteStep st (processLoaderData st buf pos inp) := by
  unfold processLoaderData
  rw [hmode]
  exact pkgData_writeStep st buf pos inp

theorem processLoaderData_samePkg {st : Loader p} (hmode : st.loaderMode ≠ .pkgMode)
    (buf : List UInt8) (pos : ℕ) (inp : FlashInput p) :
    SamePkg st (processLoaderData st buf pos inp) := by
  unfold processLoaderData
  cases hm : st.loaderMode with
  | lineMode => exact ⟨rfl, rfl⟩
  | pkgMode => exact absurd hm hmode
  | otaMode => exact otaData_samePkg st buf inp

theorem Tracks.data {rt : Runtime p} (h : Tracks rt) (hactive : rt.active = true)
    (buf : List UInt8) (pos : ℕ) (inp : FlashInput p) :
    Tracks ((RuntimeEvent.data buf pos inp).apply rt) := by
  refine ⟨processLoaderData_room h.room buf pos inp, ?_⟩
  by_cases hmode : rt.loader.loaderMode = .pkgMode
  · have hstep := processLoaderData_pkgMode hmode buf pos inp
    have hmode' := (processLoaderData_sameRecords rt.loader buf pos inp).loaderMode.trans hmode
    by_cases hcalls : (processLoaderData rt.loader buf pos inp).calls = []
    · obtain ⟨hcalls', hpkg⟩ := hstep.untouched hcalls
      rcases h.held with hin | hr | ⟨-, -, hann | hne⟩
      · exact .inl (hin.same rfl rfl hpkg)
      · exact .inr (.inl (hstep.pkgReady.trans hr))
      · exact .inr (.inr ⟨hactive, hmode', .inl (ne_of_eq_of_ne hstep.announced hann)⟩)
      · exact absurd hcalls' hne
    · exact .inr (.inr ⟨hactive, hmode', .inr hcalls⟩)
  · have hsame := processLoaderData_samePkg hmode buf pos inp
    rcases h.held with hin | hr | hun
    · exact .inl (hin.same rfl rfl hsame.pkg)
    · exact .inr (.inl (hsame.pkgReady.trans hr))
    · exact absurd hun.2.1 hmode

theorem processLoaderEnd_pkgMode {st : Loader p} (hmode : st.loaderMode = .pkgMode)
    (hroom : st.loaderBufLen < loaderChunkLen) {fin : FlashInput p}
    (h : st.pkgReady = true ∨ (0 < st.loaderBufLen → fin.Works 0)) :
    (processLoaderEnd st fin).2.pkgReady = true := by
  rw [processLoaderEnd_eq_pkgEnd hmode]
  rcases h with hready | hworks
  · apply pkgEnd_keeps_ready
    exact hready
  · apply pkgEnd_pkgReady
    · exact hroom
    · exact hworks

theorem processLoaderEnd_samePkg {st : Loader p} (hmode : st.loaderMode ≠ .pkgMode)
    (fin : FlashInput p) : SamePkg st (processLoaderEnd st fin).2 := by
  cases hm : st.loaderMode with
  | lineMode =>
      unfold processLoaderEnd
      rw [hm]
      exact ⟨rfl, rfl⟩
  | pkgMode => exact absurd hm hmode
  | otaMode =>
      rw [processLoaderEnd_eq_otaEnd hm]
      exact (⟨rfl, rfl⟩ : SamePkg st { st with loaderMode := .lineMode }).trans
        (otaEnd_samePkg _ fin)

theorem processLoaderEnd_bufLen (st : Loader p) (fin : FlashInput p) :
    (processLoaderEnd st fin).2.loaderBufLen ≤ st.loaderBufLen := by
  cases hmode : st.loaderMode with
  | lineMode =>
      unfold processLoaderEnd
      rw [hmode]
  | pkgMode =>
      rw [processLoaderEnd_eq_pkgEnd hmode]
      unfold pkgEnd pkgFlush
      simp only
      split_ifs
      · exact Nat.zero_le _
      · exact Nat.zero_le _
      · exact le_rfl
  | otaMode =>
      rw [processLoaderEnd_eq_otaEnd hmode]
      have hempty := otaFlush_empty { st with loaderMode := .lineMode } (fin.img 0)
      have hfinish : ∀ st₁ : Loader p,
          (otaStoreFinish st₁ fin).2.2.loaderBufLen = st₁.loaderBufLen := by
        intro st₁
        unfold otaStoreFinish imgWrite
        simp only
        split_ifs <;> rfl
      unfold otaEnd
      simp only
      split_ifs
      · exact hempty.le.trans (Nat.zero_le _)
      · exact ((hfinish _).trans hempty).le.trans (Nat.zero_le _)
      · exact ((hfinish _).trans hempty).le.trans (Nat.zero_le _)

theorem Tracks.finish {rt : Runtime p} (h : Tracks rt) {fin : FlashInput p}
    (hsafe : (RuntimeEvent.finish fin).Safe rt) :
    Tracks ((RuntimeEvent.finish fin).apply rt) := by
  refine ⟨(processLoaderEnd_bufLen rt.loader fin).trans_lt h.room, ?_⟩
  by_cases hmode : rt.loader.loaderMode = .pkgMode
  · rcases hsafe with hsize | hr | hworks
    · exact .inl (Runtime.inUse_of_unloaded hsize)
    · exact .inr (.inl (processLoaderEnd_pkgMode hmode h.room (.inl hr)))
    · exact .inr (.inl (processLoaderEnd_pkgMode hmode h.room (.inr (hworks hmode))))
  · have hsame := processLoaderEnd_samePkg hmode fin
    rcases h.held with hin | hr | hun
    · exact .inl (hin.same rfl rfl hsame.pkg)
    · exact .inr (.inl (hsame.pkgReady.trans hr))
    · exact absurd hun.2.1 hmode

theorem Tracks.abandon {rt : Runtime p} (h : Tracks rt)
    (hsafe : RuntimeEvent.abandon.Safe rt) : Tracks (RuntimeEvent.abandon.apply rt) := by
  refine ⟨h.room, ?_⟩
  rcases hsafe with hsize | hr | hun
  · exact .inl (Runtime.inUse_of_unloaded hsize)
  · exact .inr (.inl hr)
  · exact h.held.elim (fun hin => .inl (hin.same rfl rfl rfl))
      fun hr => hr.elim (fun hr => .inr (.inl hr)) fun hu => absurd hu hun

theorem Tracks.poll {rt : Runtime p} (h : Tracks rt) (accepted : Bool) :
    Tracks ((RuntimeEvent.poll accepted).apply rt) := by
  show Tracks (if rt.loader.pkgReady = true then _ else _)
  split_ifs with hr
  · exact ⟨h.room, .inl (nodemLoadPkg_inUse _ accepted)⟩
  · refine ⟨h.room, ?_⟩
    rcases h.held with hin | hr' | hun
    · exact .inl (hin.same rfl rfl rfl)
    · exact absurd hr' hr
    · exact .inr (.inr hun)

theorem Tracks.frame {rt : Runtime p} (h : Tracks rt) (accepted : Bool) :
    Tracks ((RuntimeEvent.frame accepted).apply rt) := by
  show Tracks (if rt.pkgLoaded = true then _ else _)
  split_ifs
  · exact h
  · exact ⟨h.room, .inl (nodemLoadPkg_inUse _ accepted)⟩

/-! ### What is in use -/

/-- **The package in use is the one in flash.**  In every run in which, while a package is in
use, each package upload that is begun is carried on to an end that it is loaded after. -/
theorem package_in_use {ctx : p.Ctx} {slot pkg : Partition} {events : List (RuntimeEvent p)}
    {rt : Runtime p}
    (h : Run (Guarded RuntimeStep RuntimeEvent.Safe) (.new ctx slot pkg) events rt)
    (hidle : ¬ rt.InProgress) (hpos : 0 < rt.pkgSize) :
    rt.media = some (rt.loader.pkg.first rt.pkgSize) := by
  have hinv : Tracks rt := h.invariant (I := Tracks)
    (fun s e t hs hr => by
      obtain ⟨hsafe, hallowed, rfl⟩ := hr
      cases e with
      | start mode len inp => exact hs.start hsafe
      | data buf pos inp => exact hs.data hallowed buf pos inp
      | finish fin => exact hs.finish hsafe
      | abandon => exact hs.abandon hsafe
      | poll accepted => exact hs.poll accepted
      | frame accepted => exact hs.frame accepted)
    ⟨by show 0 < loaderChunkLen; decide, .inl (Runtime.inUse_of_unloaded rfl)⟩
  unfold Runtime.InProgress at hidle
  rw [not_or] at hidle
  exact hinv.settled (fun hun => hidle.1 hun.1) hidle.2 hpos

/-- A package of 12 bytes. -/
def smallPackage : Partition := fun i => ([0x50, 0x4B, 0x47, 0x30, 12] : List UInt8).getD i 0

/-- A board that has it in flash. -/
def loadedBoard : Runtime board := .new [] earlierImage smallPackage

/-- It is loaded, and replaced by one of 13 bytes. -/
def replacing (fin : FlashInput board) : List (RuntimeEvent board) :=
  [.frame true, .start .pkgMode 13 allWork,
    .data [0x50, 0x4B, 0x47, 0x30, 13, 0, 0, 0, 0, 0, 0, 0, 0] 0 allWork, .finish fin,
    .poll true]

theorem package_in_use_replaced :
    let rt := (replacing allWork).foldl RuntimeEvent.apply loadedBoard
    rt.pkgSize = 13 ∧ rt.media = some (rt.loader.pkg.first rt.pkgSize) :=
  have hrun : Run (Guarded RuntimeStep RuntimeEvent.Safe) loadedBoard (replacing allWork)
      ((replacing allWork).foldl RuntimeEvent.apply loadedBoard) :=
    .cons ⟨.inl rfl, trivial, rfl⟩
      (.cons ⟨.inr (.inr (.inl ⟨rfl, ⟨by decide, rfl, by decide⟩, rfl, by decide,
          .inl (by decide)⟩)), trivial, rfl⟩
        (.cons ⟨.inr (.inr trivial), by decide, rfl⟩
          (.cons ⟨.inr (.inr fun _ _ => ⟨rfl, rfl⟩), by decide, rfl⟩
            (.cons ⟨.inr (.inl (by decide)), trivial, rfl⟩ (.nil _)))))
  ⟨by decide, package_in_use hrun (by unfold Runtime.InProgress; decide) (by decide)⟩

/-- A package stays in use after an upload that erased it and failed. -/
theorem erased_package_in_use :
    ¬ ∀ (p : Platform) (ctx : p.Ctx) (slot pkg : Partition) (events : List (RuntimeEvent p))
      (rt : Runtime p), Run RuntimeStep (.new ctx slot pkg) events rt → ¬ rt.InProgress →
        0 < rt.pkgSize → rt.media = some (rt.loader.pkg.first rt.pkgSize) := by
  intro h
  have hrun : Run RuntimeStep loadedBoard (replacing writesFail)
      ((replacing writesFail).foldl RuntimeEvent.apply loadedBoard) :=
    Run.of_along RuntimeEvent.apply (fun rt e => e.Allowed rt)
      (fun _ _ hallowed => ⟨hallowed, rfl⟩) (by decide)
  have hmedia := h board [] earlierImage smallPackage _ _ hrun
    (by unfold Runtime.InProgress; decide) (by decide)
  revert hmedia
  decide

end NodemFirmware.Upload
