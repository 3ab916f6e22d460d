import Mathlib.Data.List.GetD
import NodemFirmware.Lib.Blocks
import NodemFirmware.Upload.Ota

/-! # Uploads in pieces

What reaches the flash of an upload that is delivered in pieces.

* `Packed` is the invariant of a package upload between two bytes: the blocks of the bytes
  delivered so far are written, the rest is staged, and `pkg_written` is where it goes.
* `Platform.Geometry` is what `pkg_store.c` is built for: whole write blocks in a chunk and in
  a page. -/

namespace NodemFirmware.Upload

open CText Blocks

variable {p : Platform}

/-- A flash with pages, and whole write blocks in a page and in a chunk. -/
structure Platform.Geometry (p : Platform) : Prop where
  page : 0 < p.pkgPage.getD 4096
  chunk : p.pkgWriteBlock ∣ loaderChunkLen
  pages : p.pkgWriteBlock ∣ p.pkgPage.getD 4096

/-- The calls of `process_loader_data` that deliver `pieces`, with the bytes before them as
their position. -/
def deliver (st : Loader p) : ℕ → List (List UInt8 × FlashInput p) → Loader p
  | _, [] => st
  | pos, (buf, inp) :: pieces =>
      deliver (processLoaderData st buf pos inp) (pos + buf.length) pieces

/-- The bytes of an upload. -/
def bytesOf (pieces : List (List UInt8 × FlashInput p)) : List UInt8 := pieces.flatMap Prod.fst

/-- The flash calls of write `k` work. -/
def FlashInput.Works (inp : FlashInput p) (k : ℕ) : Prop :=
  inp.opened k = 0 ∧ inp.failed k = none

/-- Every flash call works. -/
structure FlashInput.AllWork (inp : FlashInput p) : Prop where
  area : ∀ k, inp.Works k
  image : ∀ k c slot data flush, (p.bufferedWrite (inp.img k) c slot data flush).1 = 0

/-! ### Writing to erased flash -/

theorem le_alignUp (n : ℕ) {align : ℕ} (h : 0 < align) : n ≤ alignUp n align := by
  unfold alignUp
  have hdm := Nat.div_add_mod (n + align - 1) align
  have hmod := Nat.mod_lt (n + align - 1) h
  rw [Nat.mul_comm] at hdm
  omega

theorem alignUp_le {n m align : ℕ} (h : 0 < align) (hdvd : align ∣ m) (hle : n ≤ m) :
    alignUp n align ≤ m := by
  obtain ⟨k, rfl⟩ := hdvd
  unfold alignUp
  rw [Nat.mul_comm align k]
  apply Nat.mul_le_mul_right
  rw [Nat.div_le_iff_le_mul h, Nat.mul_comm]
  omega

theorem dvd_alignUp {d align : ℕ} (h : d ∣ align) (n : ℕ) : d ∣ alignUp n align :=
  h.mul_left _

theorem add_alignUp {m align : ℕ} (h : 0 < align) (hdvd : align ∣ m) (n : ℕ) :
    m + alignUp n align = alignUp (m + n) align := by
  obtain ⟨k, rfl⟩ := hdvd
  unfold alignUp
  rw [show align * k + n + align - 1 = n + align - 1 + align * k by omega,
    Nat.add_mul_div_left _ _ h, Nat.add_mul, Nat.mul_comm k, Nat.add_comm]

/-- The partition holds `data`, written over `base`: flash only clears bits. -/
def Overlays (base pkg : Partition) (data : List UInt8) : Prop :=
  ∀ i, pkg i = base i &&& data.getD i 0xFF

theorem program_overlays {base pkg : Partition} {data : List UInt8} (h : Overlays base pkg data)
    (chunk : List UInt8) : Overlays base (program pkg data.length chunk) (data ++ chunk) := by
  intro i
  unfold program
  split_ifs with hin
  · rw [h i, List.getD_eq_default _ _ hin.1, List.getD_append_right _ _ _ _ hin.1,
      show (0xFF : UInt8) = -1 from rfl, UInt8.and_neg_one]
  · rw [h i]
    by_cases hlt : i < data.length
    · rw [List.getD_append _ _ _ _ hlt]
    · rw [List.getD_eq_default _ _ (by omega), List.getD_eq_default]
      rw [List.length_append]
      omega

theorem Overlays.of_padded {base pkg : Partition} {m : ℕ} {data : List UInt8}
    (h : Overlays base pkg (data ++ List.replicate m 0xFF)) : Overlays base pkg data := by
  intro i
  rw [h i]
  by_cases hlt : i < data.length
  · rw [List.getD_append _ _ _ _ hlt]
  · rw [List.getD_append_right _ _ _ _ (by omega), List.getD_eq_default data _ (by omega)]
    rw [List.getD_eq_getElem?_getD, List.getElem?_replicate]
    split_ifs <;> rfl

/-- Erased flash takes every byte as it is. -/
theorem Overlays.erased {base pkg : Partition} {data : List UInt8} (h : Overlays base pkg data)
    {i : ℕ} (hi : base i = 0xFF) : pkg i = data.getD i 0xFF := by
  rw [h i, hi]
  exact UInt8.neg_one_and

/-- When `pkg_store_write` returns 0. -/
theorem pkgStoreWrite_zero (pkg : Partition) (offset : ℕ) {data : List UInt8}
    (hlen : data.length ≤ loaderChunkLen) (inp : FlashInput p) (k : ℕ) :
    (pkgStoreWrite pkg offset data inp k).1 = 0 ↔ inp.Works k := by
  have hmax : ¬ pkgStoreMaxChunk < data.length := not_lt.mpr hlen
  unfold pkgStoreWrite FlashInput.Works
  rw [if_neg hmax]
  split_ifs with hopen
  · exact ⟨fun h => absurd h hopen, fun h => absurd h.1 hopen⟩
  · rw [not_not] at hopen
    cases hf : inp.failed k with
    | none => exact ⟨fun _ => ⟨hopen, rfl⟩, fun _ => rfl⟩
    | some f => exact ⟨fun h => absurd h f.failed, fun h => (by cases h.2)⟩

/-- What it leaves then, at the end of what is written. -/
theorem pkgStoreWrite_overlays {base pkg : Partition} {data chunk : List UInt8}
    (h : Overlays base pkg data) (hlen : chunk.length ≤ loaderChunkLen) {inp : FlashInput p}
    {k : ℕ} (hw : inp.Works k) :
    Overlays base (pkgStoreWrite pkg data.length chunk inp k).2 (data ++ chunk) := by
  have hmax : ¬ pkgStoreMaxChunk < chunk.length := not_lt.mpr hlen
  unfold pkgStoreWrite
  rw [if_neg hmax, if_neg (not_not.mpr hw.1), hw.2]
  apply Overlays.of_padded
  rw [List.append_assoc]
  exact program_overlays h _

/-! ### A package upload so far -/

/-- The bytes delivered: those in the blocks of the calls made, and those staged. -/
structure Staging (st : Loader p) : Prop where
  staged : st.staged = rest loaderChunkLen st.delivered
  data : st.calls.map (·.data) = full loaderChunkLen st.delivered

/-- A package upload between two bytes, to a partition that had `base`. -/
structure Packed (base : Partition) (st : Loader p) : Prop extends Staging st where
  written : st.pkgWritten = loaderChunkLen * (st.delivered.length / loaderChunkLen)
  offsets : st.calls.map (·.offset) =
    (List.range (st.delivered.length / loaderChunkLen)).map (loaderChunkLen * ·)
  holds : (∀ c ∈ st.calls, c.err = 0) →
    Overlays base st.pkg (full loaderChunkLen st.delivered).flatten

theorem length_staged (st : Loader p) : st.staged.length = st.loaderBufLen := by
  unfold Loader.staged
  rw [List.length_map, List.length_range]

theorem Staging.bufLen {st : Loader p} (h : Staging st) :
    st.loaderBufLen = st.delivered.length % loaderChunkLen := by
  rw [← length_staged, h.staged, length_rest]

/-- No index reaches the end of `loader_buf`. -/
theorem Staging.room {st : Loader p} (h : Staging st) : st.loaderBufLen < loaderChunkLen := by
  rw [h.bufLen]
  exact Nat.mod_lt _ (by decide)

theorem Staging.stage {st : Loader p} (h : Staging st) (byte : UInt8)
    (hnot : (st.delivered.length + 1) % loaderChunkLen ≠ 0) : Staging (st.stage byte) := by
  constructor
  · rw [staged_stage, h.staged]
    exact (rest_concat hnot byte).symm
  · exact h.data.trans (full_concat hnot byte).symm

/-- The block that a byte fills. -/
def Loader.filled (st : Loader p) (byte : UInt8) : List UInt8 :=
  rest loaderChunkLen st.delivered ++ [byte]

theorem length_filled {st : Loader p} (byte : UInt8)
    (hfills : (st.delivered.length + 1) % loaderChunkLen = 0) :
    (st.filled byte).length = loaderChunkLen := by
  unfold Loader.filled
  rw [List.length_append, length_rest, List.length_singleton]
  unfold loaderChunkLen at hfills ⊢
  omega

/-- **What `pkg_data` does with a byte.** -/
theorem pkgByte_eq {st : Loader p} (h : Staging st) (byte : UInt8) {pos i : ℕ}
    (hpos : pos + i = st.delivered.length) (inp : FlashInput p) :
    pkgByte st byte pos i inp =
      if (st.delivered.length + 1) % loaderChunkLen = 0 then
        let offset := loaderChunkLen * (st.delivered.length / loaderChunkLen)
        let r := pkgStoreWrite st.pkg offset (st.filled byte) inp i
        { st.stage byte with
          pkg := r.2, calls := st.calls ++ [⟨offset, st.filled byte, r.1⟩]
          loaderBufLen := 0, pkgWritten := offset + loaderChunkLen }
      else st.stage byte := by
  have hbuf : (st.stage byte).loaderBufLen = st.delivered.length % loaderChunkLen + 1 :=
    congrArg (· + 1) h.bufLen
  have hstaged : (st.stage byte).staged = st.filled byte := by
    rw [staged_stage, h.staged]
    rfl
  have hiff : (st.stage byte).loaderBufLen = loaderChunkLen ↔
      (st.delivered.length + 1) % loaderChunkLen = 0 := by
    rw [hbuf]
    unfold loaderChunkLen
    omega
  unfold pkgByte
  simp only
  by_cases hfills : (st.delivered.length + 1) % loaderChunkLen = 0
  · rw [if_pos (hiff.mpr hfills), if_pos hfills]
    have hoff : pos + i + 1 - loaderChunkLen =
        loaderChunkLen * (st.delivered.length / loaderChunkLen) := by
      rw [hpos]
      unfold loaderChunkLen at hfills ⊢
      omega
    unfold pkgFlush
    rw [hoff, hstaged]
    rfl
  · rw [if_neg (mt hiff.mp hfills), if_neg hfills]

theorem Packed.pkgByte {base : Partition} {st : Loader p} (h : Packed base st) (byte : UInt8)
    {pos i : ℕ} (hpos : pos + i = st.delivered.length) (inp : FlashInput p) :
    Packed base (pkgByte st byte pos i inp) := by
  rw [pkgByte_eq h.toStaging byte hpos]
  by_cases hfills : (st.delivered.length + 1) % loaderChunkLen = 0
  · rw [if_pos hfills]
    have hdiv : (st.delivered ++ [byte]).length / loaderChunkLen =
        st.delivered.length / loaderChunkLen + 1 := by
      rw [List.length_append, List.length_singleton]
      exact Nat.succ_div_of_mod_eq_zero hfills
    have hfull := full_concat_fills hfills byte
    refine ⟨⟨?_, ?_⟩, ?_, ?_, ?_⟩
    · exact (rest_concat_fills hfills byte).symm
    · show (st.calls ++ [_]).map _ = full loaderChunkLen (st.delivered ++ [byte])
      rw [hfull, List.map_append, h.data]
      rfl
    · show _ = loaderChunkLen * ((st.delivered ++ [byte]).length / loaderChunkLen)
      rw [hdiv, Nat.mul_succ]
    · show (st.calls ++ [_]).map _ =
        (List.range ((st.delivered ++ [byte]).length / loaderChunkLen)).map _
      rw [hdiv, List.range_succ, List.map_append, List.map_append, h.offsets]
      rfl
    · intro herr
      have hlast : (pkgStoreWrite st.pkg _ (st.filled byte) inp i).1 = 0 :=
        herr _ (List.mem_append_right _ (List.mem_singleton.mpr rfl))
      have hheld := h.holds fun c hc => herr c (List.mem_append_left _ hc)
      have hlen := length_filled byte hfills
      have hwrite := pkgStoreWrite_overlays hheld hlen.le
        ((pkgStoreWrite_zero _ _ hlen.le inp i).mp hlast)
      rw [flatten_full, List.length_take, Nat.min_eq_left (Nat.mul_div_le _ _),
        ← flatten_full] at hwrite
      show Overlays base _ (full loaderChunkLen (st.delivered ++ [byte])).flatten
      rw [hfull, List.flatten_append, List.flatten_singleton]
      exact hwrite
  · rw [if_neg hfills]
    have hdiv : (st.delivered ++ [byte]).length / loaderChunkLen =
        st.delivered.length / loaderChunkLen := by
      rw [List.length_append, List.length_singleton]
      exact Nat.succ_div_of_mod_ne_zero hfills
    refine ⟨h.toStaging.stage byte hfills, ?_, ?_, ?_⟩
    · show _ = loaderChunkLen * ((st.delivered ++ [byte]).length / loaderChunkLen)
      rw [hdiv]
      exact h.written
    · show _ = (List.range ((st.delivered ++ [byte]).length / loaderChunkLen)).map _
      rw [hdiv]
      exact h.offsets
    · show _ → Overlays base _ (full loaderChunkLen (st.delivered ++ [byte])).flatten
      rw [full_concat hfills]
      exact h.holds

theorem pkgByte_delivered (st : Loader p) (byte : UInt8) (pos i : ℕ) (inp : FlashInput p) :
    (pkgByte st byte pos i inp).delivered = st.delivered ++ [byte] := by
  unfold pkgByte
  simp only
  split_ifs <;> rfl

/-- No call failed. -/
def Loader.NoneFailed (st : Loader p) : Prop := ∀ c ∈ st.calls, c.err = 0

theorem pkgByte_noneFailed {st : Loader p} (h : Staging st) (byte : UInt8) {pos i : ℕ}
    (hpos : pos + i = st.delivered.length) (inp : FlashInput p) :
    (pkgByte st byte pos i inp).NoneFailed ↔
      st.NoneFailed ∧ ((pos + i + 1) % loaderChunkLen = 0 → inp.Works i) := by
  rw [pkgByte_eq h byte hpos, hpos]
  by_cases hfills : (st.delivered.length + 1) % loaderChunkLen = 0
  · rw [if_pos hfills]
    have hzero := pkgStoreWrite_zero st.pkg
      (loaderChunkLen * (st.delivered.length / loaderChunkLen)) (length_filled byte hfills).le
      inp i
    constructor
    · intro hall
      refine ⟨fun c hc => hall c (List.mem_append_left _ hc), fun _ => hzero.mp ?_⟩
      exact hall _ (List.mem_append_right _ (List.mem_singleton.mpr rfl))
    · rintro ⟨hold, hworks⟩ c hc
      rcases List.mem_append.mp hc with hc | hc
      · exact hold c hc
      · rw [List.mem_singleton.mp hc]
        exact hzero.mpr (hworks hfills)
  · rw [if_neg hfills]
    exact ⟨fun hall => ⟨hall, fun hf => absurd hf hfills⟩, fun hall => hall.1⟩

/-- The writes that fall into a call of `process_loader_data` work. -/
def PieceWorks (pos : ℕ) (piece : List UInt8 × FlashInput p) : Prop :=
  ∀ k < piece.1.length, (pos + k + 1) % loaderChunkLen = 0 → piece.2.Works k

/-- **What `pkg_data` does with a piece.** -/
theorem Packed.pkgData {base : Partition} {st : Loader p} (h : Packed base st) {pos : ℕ}
    (hpos : pos = st.delivered.length) (buf : List UInt8) (inp : FlashInput p) :
    Packed base (pkgData st buf pos inp) ∧
      (pkgData st buf pos inp).delivered = st.delivered ++ buf ∧
      ((pkgData st buf pos inp).NoneFailed ↔ st.NoneFailed ∧ PieceWorks pos (buf, inp)) := by
  refine foldl_zipIdx_invariant
    (I := fun done st' => Packed base st' ∧ st'.delivered = st.delivered ++ done ∧
      (st'.NoneFailed ↔ st.NoneFailed ∧ PieceWorks pos (done, inp)))
    ?_ ?_ buf
  · rintro done st' byte ⟨hpack, hdel, hnone⟩
    have hat : pos + done.length = st'.delivered.length := by
      rw [hdel, List.length_append, hpos]
    refine ⟨hpack.pkgByte byte hat inp, ?_, ?_⟩
    · rw [pkgByte_delivered, hdel, List.append_assoc]
    · rw [pkgByte_noneFailed hpack.toStaging byte hat, hnone, and_assoc]
      unfold PieceWorks
      simp only [List.length_append, List.length_singleton, Nat.forall_lt_succ_right]
  · refine ⟨h, (List.append_nil _).symm, ?_⟩
    unfold PieceWorks
    simp

/-- The writes made while `pieces` are delivered work. -/
def StreamWorks : ℕ → List (List UInt8 × FlashInput p) → Prop
  | _, [] => True
  | pos, piece :: pieces => PieceWorks pos piece ∧ StreamWorks (pos + piece.1.length) pieces

/-- **A package upload in pieces.** -/
theorem Packed.deliver {base : Partition} {st : Loader p} (h : Packed base st)
    (hmode : st.loaderMode = .pkgMode) (pos : ℕ) (hpos : pos = st.delivered.length)
    (pieces : List (List UInt8 × FlashInput p)) :
    Packed base (deliver st pos pieces) ∧
      (deliver st pos pieces).loaderMode = .pkgMode ∧
      (deliver st pos pieces).delivered = st.delivered ++ bytesOf pieces ∧
      ((deliver st pos pieces).NoneFailed ↔ st.NoneFailed ∧ StreamWorks pos pieces) := by
  induction pieces generalizing st pos with
  | nil => exact ⟨h, hmode, (List.append_nil _).symm, (and_iff_left trivial).symm⟩
  | cons piece pieces ih =>
      obtain ⟨buf, inp⟩ := piece
      have hdata : processLoaderData st buf pos inp = Upload.pkgData st buf pos inp := by
        unfold processLoaderData
        rw [hmode]
      have hmode' := (processLoaderData_sameRecords st buf pos inp).loaderMode.trans hmode
      obtain ⟨hpack, hdel, hnone⟩ := h.pkgData hpos buf inp
      rw [← hdata] at hpack hdel hnone
      obtain ⟨hpack', hmode'', hdel', hnone'⟩ := ih hpack hmode' (pos + buf.length)
        (by rw [hdel, List.length_append, hpos])
      refine ⟨hpack', hmode'', ?_, ?_⟩
      · rw [hdel, List.append_assoc] at hdel'
        exact hdel'
      · rw [hnone, and_assoc] at hnone'
        exact hnone'

/-! ### Start and end -/

/-- The end of what `pkg_store_erase` erases. -/
def erasedTo (p : Platform) (len : ℕ) : ℕ := alignUp len (p.pkgPage.getD 4096)

/-- The partition once a start has erased it for `len` bytes. -/
def erasedFor (st : Loader p) (len : ℕ) : Partition := fun i =>
  if i < erasedTo p len then 0xFF else st.pkg i

/-- What a start that did not return 0 did. -/
theorem pkgStart_ok {st : Loader p} {len : ℕ} {inp : FlashInput p}
    (h : (pkgStart st len inp).1 ≠ 0) :
    erasedTo p len ≤ p.pkgSize ∧ (pkgStart st len inp).2 = { st with
      pkgWritten := 0, pkg := erasedFor st len } := by
  unfold pkgStart pkgStoreErase at h ⊢
  simp only at h ⊢
  by_cases hsize : p.pkgSize < len
  · rw [if_pos hsize] at h
    exact absurd rfl h
  rw [if_neg hsize] at h ⊢
  by_cases hopen : inp.opened 0 ≠ 0
  · rw [if_pos hopen, if_pos hopen] at h
    exact absurd rfl h
  rw [if_neg hopen] at h ⊢
  by_cases hroom : p.pkgSize < alignUp len (p.pkgPage.getD 4096)
  · have hnospc : -Errno.nospc ≠ 0 := by decide
    rw [if_pos hroom, if_pos hnospc] at h
    exact absurd rfl h
  rw [if_neg hroom] at h ⊢
  cases hf : inp.failed 0 with
  | some f =>
      rw [hf, if_pos f.failed] at h
      exact absurd rfl h
  | none => exact ⟨not_lt.mp hroom, rfl⟩

/-- An upload of which nothing is delivered. -/
theorem staging_new {st : Loader p} (hbuf : st.loaderBufLen = 0) (hdel : st.delivered = [])
    (hcalls : st.calls = []) : Staging st := by
  have hstaged : st.staged = [] := by
    apply List.eq_nil_of_length_eq_zero
    rw [length_staged, hbuf]
  constructor
  · rw [hstaged, hdel]
    rfl
  · rw [hcalls, hdel]
    rfl

theorem packed_new {base : Partition} {st : Loader p} (hbuf : st.loaderBufLen = 0)
    (hwritten : st.pkgWritten = 0) (hdel : st.delivered = []) (hcalls : st.calls = [])
    (hpkg : st.pkg = base) : Packed base st := by
  refine ⟨staging_new hbuf hdel hcalls, ?_, ?_, ?_⟩
  · rw [hwritten, hdel]
    rfl
  · rw [hcalls, hdel, List.length_nil, Nat.zero_div]
    rfl
  · intro _ i
    rw [hdel, hpkg]
    exact UInt8.and_neg_one.symm

/-- **A package upload as its start leaves it.** -/
theorem processLoaderStart_packed {st : Loader p} {len : ℕ} {inp : FlashInput p}
    (h : (processLoaderStart st .pkgMode len inp).1 ≠ 0) :
    let st' := (processLoaderStart st .pkgMode len inp).2
    Packed (erasedFor st len) st' ∧ st'.loaderMode = .pkgMode ∧ st'.delivered = [] ∧
      st'.calls = [] ∧ erasedTo p len ≤ p.pkgSize := by
  obtain ⟨hsize, heq⟩ := pkgStart_ok h
  unfold processLoaderStart
  simp only
  rw [heq]
  exact ⟨packed_new rfl rfl rfl rfl rfl, rfl, rfl, rfl, hsize⟩

/-- A package upload after `pkg_end`. -/
structure Closed (base : Partition) (d : List UInt8) (st : Loader p) : Prop where
  data : st.calls.map (·.data) = blocks loaderChunkLen d
  offsets : st.calls.map (·.offset) =
    (List.range (blocks loaderChunkLen d).length).map (loaderChunkLen * ·)
  holds : st.NoneFailed → Overlays base st.pkg d

/-- The last write works, where there is one. -/
def LastWorks (d : List UInt8) (fin : FlashInput p) : Prop :=
  d.length % loaderChunkLen ≠ 0 → fin.Works 0

/-- What the end of a package upload makes of `st`. -/
structure Ended (base : Partition) (st : Loader p) (fin : FlashInput p)
    (r : LoaderRet × Loader p) : Prop where
  closed : Closed base st.delivered r.2
  noneFailed : r.2.NoneFailed ↔ st.NoneFailed ∧ LastWorks st.delivered fin
  acknowledged : r.1 = .ok ∧ r.2.pkgReady = true ↔ LastWorks st.delivered fin

/-- With nothing staged there is nothing to write. -/
theorem Packed.pkgEnd_whole {base : Partition} {st : Loader p} (h : Packed base st)
    (fin : FlashInput p) (hempty : st.delivered.length % loaderChunkLen = 0) :
    Ended base st fin (pkgEnd st fin) := by
  have hnil : rest loaderChunkLen st.delivered = [] := by
    apply List.eq_nil_of_length_eq_zero
    rw [length_rest]
    exact hempty
  have hend : pkgEnd st fin = (.ok, { st with pkgReady := true }) := by
    unfold pkgEnd
    rw [if_neg (by rw [h.bufLen]; omega)]
  have hall : blocks loaderChunkLen st.delivered = full loaderChunkLen st.delivered := if_pos hnil
  have hlast : LastWorks st.delivered fin := fun hne => absurd hempty hne
  rw [hend]
  refine ⟨⟨?_, ?_, ?_⟩, (and_iff_left hlast).symm, iff_of_true ⟨rfl, rfl⟩ hlast⟩
  · rw [hall]
    exact h.data
  · rw [hall, length_full]
    exact h.offsets
  · intro herr
    have hheld := h.holds herr
    have hflat := flatten_full_append_rest loaderChunkLen st.delivered
    rw [hnil, List.append_nil] at hflat
    rw [hflat] at hheld
    exact hheld

/-- The last write, of what is staged. -/
theorem pkgEnd_staged {st : Loader p} (h : 0 < st.loaderBufLen) (fin : FlashInput p) :
    let r := pkgStoreWrite st.pkg st.pkgWritten st.staged fin 0
    (pkgEnd st fin).2.calls = st.calls ++ [⟨st.pkgWritten, st.staged, r.1⟩] ∧
      (pkgEnd st fin).2.pkg = r.2 ∧
      ((pkgEnd st fin).1 = .ok ∧ (pkgEnd st fin).2.pkgReady = true ↔ r.1 = 0) := by
  unfold pkgEnd pkgFlush
  rw [if_pos h]
  dsimp only
  split_ifs with herr
  · exact ⟨rfl, rfl, fun hr => (by cases hr.1), fun hr => absurd hr herr⟩
  · exact ⟨rfl, rfl, iff_of_true ⟨rfl, rfl⟩ (not_not.mp herr)⟩

theorem Packed.pkgEnd_rest {base : Partition} {st : Loader p} (h : Packed base st)
    (fin : FlashInput p) (hsome : st.delivered.length % loaderChunkLen ≠ 0) :
    Ended base st fin (pkgEnd st fin) := by
  have hrest := length_rest loaderChunkLen st.delivered
  have hne : rest loaderChunkLen st.delivered ≠ [] := by
    intro hnil
    rw [hnil, List.length_nil] at hrest
    omega
  have hlen : (rest loaderChunkLen st.delivered).length ≤ loaderChunkLen := by
    rw [hrest]
    exact (Nat.mod_lt _ (by decide)).le
  have hzero := pkgStoreWrite_zero st.pkg st.pkgWritten hlen fin 0
  have hall : blocks loaderChunkLen st.delivered =
      full loaderChunkLen st.delivered ++ [rest loaderChunkLen st.delivered] := if_neg hne
  have hlast : LastWorks st.delivered fin ↔ fin.Works 0 :=
    ⟨fun hw => hw hsome, fun hw _ => hw⟩
  obtain ⟨hcalls, hpkg, hret⟩ := pkgEnd_staged (by rw [h.bufLen]; omega) fin
  rw [h.staged] at hcalls hpkg hret
  refine ⟨⟨?_, ?_, ?_⟩, ?_, ?_⟩
  · rw [hcalls, hall, List.map_append, h.data]
    rfl
  · rw [hcalls, hall, List.map_append, h.offsets, List.length_append, length_full,
      List.length_singleton, List.range_succ, List.map_append, List.map_singleton,
      List.map_singleton, h.written]
  · intro herr
    unfold Loader.NoneFailed at herr
    rw [hcalls] at herr
    have hheld := h.holds fun c hc => herr c (List.mem_append_left _ hc)
    have hwork := hzero.mp (herr _ (List.mem_append_right _ (List.mem_singleton.mpr rfl)))
    have hwrite := pkgStoreWrite_overlays hheld hlen hwork
    rw [flatten_full_append_rest, flatten_full, List.length_take,
      Nat.min_eq_left (Nat.mul_div_le _ _), ← h.written] at hwrite
    rw [hpkg]
    exact hwrite
  · unfold Loader.NoneFailed
    rw [hcalls, hlast, ← hzero]
    simp only [List.mem_append, List.mem_singleton, or_imp, forall_and, forall_eq]
  · rw [hlast, ← hzero]
    exact hret

/-- **What `pkg_end` does.** -/
theorem Packed.pkgEnd {base : Partition} {st : Loader p} (h : Packed base st)
    (fin : FlashInput p) : Ended base st fin (pkgEnd st fin) := by
  by_cases hempty : st.delivered.length % loaderChunkLen = 0
  · exact h.pkgEnd_whole fin hempty
  · exact h.pkgEnd_rest fin hempty

theorem processLoaderEnd_eq_pkgEnd {st : Loader p} (hmode : st.loaderMode = .pkgMode)
    (fin : FlashInput p) :
    processLoaderEnd st fin = pkgEnd { st with loaderMode := .lineMode } fin := by
  unfold processLoaderEnd
  simp only
  rw [hmode]

theorem processLoaderEnd_eq_otaEnd {st : Loader p} (hmode : st.loaderMode = .otaMode)
    (fin : FlashInput p) :
    processLoaderEnd st fin = otaEnd { st with loaderMode := .lineMode } fin := by
  unfold processLoaderEnd
  simp only
  rw [hmode]

theorem Packed.finish {base : Partition} {st : Loader p} (h : Packed base st)
    (hmode : st.loaderMode = .pkgMode) (fin : FlashInput p) :
    Ended base st fin (processLoaderEnd st fin) := by
  have hline : Packed base { st with loaderMode := .lineMode } :=
    ⟨⟨h.staged, h.data⟩, h.written, h.offsets, h.holds⟩
  rw [processLoaderEnd_eq_pkgEnd hmode]
  obtain ⟨hclosed, hnone, hok⟩ := hline.pkgEnd fin
  exact ⟨hclosed, hnone, hok⟩

/-- An upload in pieces, up to its end. -/
def upload (st : Loader p) (mode : ControlMode) (len : ℕ) (inp : FlashInput p)
    (pieces : List (List UInt8 × FlashInput p)) (fin : FlashInput p) : LoaderRet × Loader p :=
  processLoaderEnd (deliver (processLoaderStart st mode len inp).2 0 pieces) fin

/-- **A package upload.** -/
theorem upload_pkg {st : Loader p} {len : ℕ} {inp : FlashInput p}
    (h : (processLoaderStart st .pkgMode len inp).1 ≠ 0)
    (pieces : List (List UInt8 × FlashInput p)) (fin : FlashInput p) :
    let r := upload st .pkgMode len inp pieces fin
    Closed (erasedFor st len) (bytesOf pieces) r.2 ∧
      (r.2.NoneFailed ↔ StreamWorks 0 pieces ∧ LastWorks (bytesOf pieces) fin) ∧
      (r.1 = .ok ∧ r.2.pkgReady = true ↔ LastWorks (bytesOf pieces) fin) := by
  obtain ⟨hstart, hmode, hdel, hcalls, -⟩ := processLoaderStart_packed h
  obtain ⟨hpack, hmode', hdel', hnone⟩ := hstart.deliver hmode 0
    (congrArg List.length hdel).symm pieces
  rw [hdel, List.nil_append] at hdel'
  have hfirst : (processLoaderStart st .pkgMode len inp).2.NoneFailed := by
    intro c hc
    rw [hcalls] at hc
    exact absurd hc List.not_mem_nil
  rw [and_iff_right hfirst] at hnone
  obtain ⟨hclosed, hnone', hok⟩ := hpack.finish hmode' fin
  rw [hdel'] at hclosed hnone' hok
  rw [hnone] at hnone'
  exact ⟨hclosed, hnone', hok⟩

/-! ### What is acknowledged -/

/-- The package `d` is stored: no write failed, and the partition holds it. -/
structure Stored (st : Loader p) (d : List UInt8) : Prop where
  written : st.NoneFailed
  held : ∀ i < d.length, st.pkg i = d.getD i 0

/-- What is delivered past the pages that the start erases needs no bit that is cleared there. -/
def FitsPast (st : Loader p) (len : ℕ) (d : List UInt8) : Prop :=
  ∀ i < d.length, erasedTo p len ≤ i → st.pkg i &&& d.getD i 0 = d.getD i 0

/-- Nothing is, where no more is delivered than was announced. -/
theorem FitsPast.of_le (hpage : 0 < p.pkgPage.getD 4096) (st : Loader p) {len : ℕ}
    {d : List UInt8} (hle : d.length ≤ len) : FitsPast st len d := fun i hi hpast => by
  have herased : len ≤ erasedTo p len := le_alignUp len hpage
  omega

theorem Closed.stored {st st' : Loader p} {len : ℕ} {d : List UInt8}
    (h : Closed (erasedFor st len) d st') :
    Stored st' d ↔ st'.NoneFailed ∧ FitsPast st len d := by
  have hheld : st'.NoneFailed → ∀ i < d.length,
      (st'.pkg i = d.getD i 0 ↔ (erasedTo p len ≤ i → st.pkg i &&& d.getD i 0 = d.getD i 0)) := by
    intro hnone i hi
    have hget : d.getD i 0xFF = d.getD i 0 := by
      rw [List.getD_eq_getElem _ _ hi, List.getD_eq_getElem _ _ hi]
    by_cases hin : i < erasedTo p len
    · rw [(h.holds hnone).erased (if_pos hin), hget]
      exact iff_of_true rfl fun hpast => absurd hin (by omega)
    · have hbase : erasedFor st len i = st.pkg i := if_neg hin
      rw [h.holds hnone i, hbase, hget]
      exact ⟨fun heq _ => heq, fun heq => heq (by omega)⟩
  constructor
  · rintro ⟨hnone, hd⟩
    exact ⟨hnone, fun i hi => (hheld hnone i hi).mp (hd i hi)⟩
  · rintro ⟨hnone, hpast⟩
    exact ⟨hnone, fun i hi => (hheld hnone i hi).mpr (hpast i hi)⟩

/-- **What an acknowledged package is.**  An upload that is acknowledged is stored, exactly
where the writes made while its data arrives work and what comes past the erased pages fits what
is there, or the last write fails. -/
theorem pkg_acknowledged_stored (st : Loader p) (len : ℕ) (inp : FlashInput p)
    (hstart : (processLoaderStart st .pkgMode len inp).1 ≠ 0)
    (pieces : List (List UInt8 × FlashInput p)) (fin : FlashInput p) :
    let r := upload st .pkgMode len inp pieces fin
    (r.1 = .ok ∧ r.2.pkgReady = true → Stored r.2 (bytesOf pieces)) ↔
      (StreamWorks 0 pieces ∧ FitsPast st len (bytesOf pieces)) ∨
        ¬ LastWorks (bytesOf pieces) fin := by
  obtain ⟨hclosed, hnone, hok⟩ := upload_pkg hstart pieces fin
  simp only
  rw [hclosed.stored, hnone, hok]
  constructor
  · intro h
    by_cases hlast : LastWorks (bytesOf pieces) fin
    · exact .inl ⟨(h hlast).1.1, (h hlast).2⟩
    · exact .inr hlast
  · rintro (⟨hstream, hpast⟩ | hfails) hlast
    · exact ⟨⟨hstream, hlast⟩, hpast⟩
    · exact absurd hlast hfails

theorem pkg_acknowledged_stored_three :
    let r := upload started .pkgMode 3 allWork [([1, 2], allWork), ([3], allWork)] allWork
    (r.1 = .ok ∧ r.2.pkgReady = true →
      Stored r.2 (bytesOf [([1, 2], allWork), ([3], allWork)])) ↔
      (StreamWorks 0 [([1, 2], allWork), ([3], allWork)] ∧
        FitsPast started 3 (bytesOf [([1, 2], allWork), ([3], allWork)])) ∨
        ¬ LastWorks (bytesOf [([1, 2], allWork), ([3], allWork)]) allWork :=
  pkg_acknowledged_stored (p := board) started 3 allWork (by decide)
    [([1, 2], allWork), ([3], allWork)] allWork

/-- Every write fails. -/
def writesFail : FlashInput board :=
  { allWork with failed := fun _ => some ⟨-Errno.io, earlierImage, by decide⟩ }

/-- A block that could not be written is acknowledged. -/
theorem unwritten_block_acknowledged :
    ¬ ∀ (p : Platform) (st : Loader p) (len : ℕ) (inp : FlashInput p),
      (processLoaderStart st .pkgMode len inp).1 ≠ 0 →
      ∀ (pieces : List (List UInt8 × FlashInput p)) (fin : FlashInput p),
      let r := upload st .pkgMode len inp pieces fin
      r.1 = .ok ∧ r.2.pkgReady = true → Stored r.2 (bytesOf pieces) := by
  intro h
  have hstart : (processLoaderStart started .pkgMode 512 allWork).1 ≠ 0 := by decide
  obtain ⟨-, hnone, hok⟩ := upload_pkg hstart [(List.replicate 512 7, writesFail)] allWork
  have hlast : LastWorks (bytesOf [(List.replicate 512 7, writesFail)]) allWork :=
    fun _ => ⟨rfl, rfl⟩
  have hstored := h board started 512 allWork hstart
    [(List.replicate 512 7, writesFail)] allWork (hok.mpr hlast)
  have hin : 511 < (List.replicate 512 (7 : UInt8)).length := by rw [List.length_replicate]; decide
  have hwork := (hnone.mp hstored.written).1.1 511 hin (by decide)
  exact absurd hwork.2 (by decide)

/-! ### A firmware upload so far -/

/-- A flush of `ota_flush` that works. -/
theorem otaFlush_works {st : Loader p} (hlen : st.loaderBufLen ≠ 0) (hf : st.otaFailed = false)
    (outcome : p.Outcome)
    (hw : ∀ c slot data, (p.bufferedWrite outcome c slot data false).1 = 0) :
    (otaFlush st outcome).calls.map (·.data) = st.calls.map (·.data) ++ [st.staged] ∧
      (otaFlush st outcome).otaFailed = false := by
  have hskip : ¬ (st.loaderBufLen = 0 ∨ st.otaFailed = true) := by
    rw [hf]
    simpa using hlen
  have hzero : ¬ (otaStoreWrite st st.staged outcome).1 ≠ 0 := not_not.mpr (hw _ _ _)
  unfold otaFlush
  rw [if_neg hskip]
  simp only
  rw [if_neg hzero]
  exact ⟨List.map_append, hf⟩

theorem otaFlush_delivered (st : Loader p) (outcome : p.Outcome) :
    (otaFlush st outcome).delivered = st.delivered := by
  unfold otaFlush
  split_ifs <;> rfl

theorem Staging.otaByte {st : Loader p} (h : Staging st) (hf : st.otaFailed = false)
    (byte : UInt8) (outcome : p.Outcome)
    (hw : ∀ c slot data, (p.bufferedWrite outcome c slot data false).1 = 0) :
    Staging (otaByte st byte outcome) ∧ (otaByte st byte outcome).otaFailed = false ∧
      (otaByte st byte outcome).delivered = st.delivered ++ [byte] := by
  have hbuf : (st.stage byte).loaderBufLen = st.delivered.length % loaderChunkLen + 1 :=
    congrArg (· + 1) h.bufLen
  have hstaged : (st.stage byte).staged = rest loaderChunkLen st.delivered ++ [byte] := by
    rw [staged_stage, h.staged]
  unfold Upload.otaByte
  simp only
  split_ifs with hfull
  · have hfills : (st.delivered.length + 1) % loaderChunkLen = 0 := by
      unfold loaderChunkLen at hfull hbuf ⊢
      omega
    have hne : (st.stage byte).loaderBufLen ≠ 0 := by
      rw [hbuf]
      exact Nat.succ_ne_zero _
    obtain ⟨hdata, hfailed⟩ := otaFlush_works hne hf outcome hw
    have hdel : (otaFlush (st.stage byte) outcome).delivered = st.delivered ++ [byte] :=
      otaFlush_delivered _ _
    have hempty : (otaFlush (st.stage byte) outcome).staged = [] := by
      apply List.eq_nil_of_length_eq_zero
      rw [length_staged, otaFlush_empty]
    refine ⟨⟨?_, ?_⟩, hfailed, hdel⟩
    · rw [hempty, hdel]
      exact (rest_concat_fills hfills byte).symm
    · rw [hdata, hdel, full_concat_fills hfills byte, hstaged]
      exact congrArg (· ++ _) h.data
  · have hnot : (st.delivered.length + 1) % loaderChunkLen ≠ 0 := by
      unfold loaderChunkLen at hfull hbuf ⊢
      omega
    exact ⟨h.stage byte hnot, hf, rfl⟩

theorem Staging.otaData {st : Loader p} (h : Staging st) (hf : st.otaFailed = false)
    (buf : List UInt8) {inp : FlashInput p} (hw : inp.AllWork) :
    Staging (otaData st buf inp) ∧ (otaData st buf inp).otaFailed = false ∧
      (otaData st buf inp).delivered = st.delivered ++ buf := by
  refine foldl_zipIdx_invariant
    (I := fun done st' => Staging st' ∧ st'.otaFailed = false ∧
      st'.delivered = st.delivered ++ done)
    ?_ ⟨h, hf, (List.append_nil _).symm⟩ buf
  rintro done st' byte ⟨hst, hfailed, hdel⟩
  obtain ⟨hst', hfailed', hdel'⟩ := hst.otaByte hfailed byte
    (inp.img done.length) fun c slot data => hw.image _ c slot data false
  refine ⟨hst', hfailed', ?_⟩
  rw [hdel', hdel, List.append_assoc]

/-- An upload of either kind whose flash calls work. -/
structure Flowing (st : Loader p) : Prop extends Staging st where
  mode : st.loaderMode = .pkgMode ∧ (∃ base, Packed base st) ∨
    st.loaderMode = .otaMode ∧ st.otaFailed = false

theorem Flowing.processLoaderData {st : Loader p} (h : Flowing st) {pos : ℕ}
    (hpos : pos = st.delivered.length) (buf : List UInt8) {inp : FlashInput p}
    (hw : inp.AllWork) :
    Flowing (processLoaderData st buf pos inp) ∧
      (processLoaderData st buf pos inp).delivered = st.delivered ++ buf := by
  have hmode := (processLoaderData_sameRecords st buf pos inp).loaderMode
  rcases h.mode with ⟨hm, base, hpack⟩ | ⟨hm, hf⟩
  · rw [hm] at hmode
    unfold Upload.processLoaderData at hmode ⊢
    rw [hm] at hmode ⊢
    obtain ⟨hpack', hdel, -⟩ := hpack.pkgData hpos buf inp
    exact ⟨⟨hpack'.toStaging, .inl ⟨hmode, base, hpack'⟩⟩, hdel⟩
  · rw [hm] at hmode
    unfold Upload.processLoaderData at hmode ⊢
    rw [hm] at hmode ⊢
    obtain ⟨hst, hf', hdel⟩ := h.toStaging.otaData hf buf hw
    exact ⟨⟨hst, .inr ⟨hmode, hf'⟩⟩, hdel⟩

theorem Flowing.deliver {pieces : List (List UInt8 × FlashInput p)} {st : Loader p}
    (h : Flowing st) (pos : ℕ) (hpos : pos = st.delivered.length)
    (hw : ∀ piece ∈ pieces, piece.2.AllWork) :
    Flowing (deliver st pos pieces) ∧
      (deliver st pos pieces).delivered = st.delivered ++ bytesOf pieces := by
  induction pieces generalizing st pos with
  | nil => exact ⟨h, (List.append_nil _).symm⟩
  | cons piece pieces ih =>
      obtain ⟨hflow, hdel⟩ := h.processLoaderData hpos piece.1 (hw piece List.mem_cons_self)
      obtain ⟨hflow', hdel'⟩ := ih hflow (pos + piece.1.length)
        (by rw [hdel, List.length_append, hpos]) fun u hu => hw u (List.mem_cons_of_mem _ hu)
      rw [hdel, List.append_assoc] at hdel'
      exact ⟨hflow', hdel'⟩

theorem processLoaderStart_flowing {st : Loader p} {mode : ControlMode} {len : ℕ}
    {inp : FlashInput p} (h : (processLoaderStart st mode len inp).1 ≠ 0) :
    Flowing (processLoaderStart st mode len inp).2 ∧
      (processLoaderStart st mode len inp).2.delivered = [] ∧
      (processLoaderStart st mode len inp).2.loaderMode = mode := by
  cases mode with
  | lineMode => exact absurd rfl h
  | pkgMode =>
      obtain ⟨hpack, hmode, hdel, -, -⟩ := processLoaderStart_packed h
      exact ⟨⟨hpack.toStaging, .inl ⟨hmode, _, hpack⟩⟩, hdel, hmode⟩
  | otaMode =>
      obtain ⟨c, -, heq⟩ := otaStart_ok h
      unfold processLoaderStart
      simp only
      rw [heq]
      exact ⟨⟨staging_new rfl rfl rfl, .inr ⟨rfl, rfl⟩⟩, rfl, rfl⟩

theorem deliver_sameRecords (st : Loader p) (pos : ℕ)
    (pieces : List (List UInt8 × FlashInput p)) : SameRecords st (deliver st pos pieces) := by
  induction pieces generalizing st pos with
  | nil => exact ⟨rfl, rfl, rfl, rfl⟩
  | cons piece pieces ih =>
      exact (processLoaderData_sameRecords st piece.1 pos piece.2).trans (ih _ _)

theorem streamWorks_of_allWork {pieces : List (List UInt8 × FlashInput p)}
    (h : ∀ piece ∈ pieces, piece.2.AllWork) (pos : ℕ) : StreamWorks pos pieces := by
  induction pieces generalizing pos with
  | nil => trivial
  | cons piece pieces ih =>
      refine ⟨fun k _ _ => (h piece List.mem_cons_self).area k, ?_⟩
      exact ih (fun u hu => h u (List.mem_cons_of_mem _ hu)) _

/-- The loop of `process_loader_data` over a piece: no index reaches the end of `loader_buf`,
and no offset is below 0. -/
def InBounds (st : Loader p) (pos : ℕ) (piece : List UInt8 × FlashInput p) : Prop :=
  ∀ k < piece.1.length,
    let st' := processLoaderData st (piece.1.take k) pos piece.2
    st'.loaderBufLen < loaderChunkLen ∧
      (st'.loaderBufLen + 1 = loaderChunkLen → loaderChunkLen ≤ pos + k + 1)

theorem Staging.inBounds {st : Loader p} {pos : ℕ} {piece : List UInt8 × FlashInput p}
    (h : ∀ k < piece.1.length,
      Staging (processLoaderData st (piece.1.take k) pos piece.2) ∧
        (processLoaderData st (piece.1.take k) pos piece.2).delivered.length = pos + k) :
    InBounds st pos piece := by
  intro k hk
  obtain ⟨hst, hlen⟩ := h k hk
  refine ⟨hst.room, ?_⟩
  rw [hst.bufLen, hlen]
  unfold loaderChunkLen
  omega

/-- The end of a firmware upload whose flash calls work. -/
theorem Staging.otaEnd {st : Loader p} (h : Staging st) (hf : st.otaFailed = false)
    {fin : FlashInput p} (hw : fin.AllWork) :
    ((otaEnd st fin).2.calls.map (·.data)).flatten = st.delivered := by
  have hflush : ((otaFlush st (fin.img 0)).calls.map (·.data)).flatten = st.delivered ∧
      (otaFlush st (fin.img 0)).otaFailed = false := by
    have hflat := flatten_full_append_rest loaderChunkLen st.delivered
    rw [← h.data, ← h.staged] at hflat
    by_cases hlen : st.loaderBufLen = 0
    · have hempty : st.staged = [] := by
        apply List.eq_nil_of_length_eq_zero
        rw [length_staged, hlen]
      rw [hempty, List.append_nil] at hflat
      unfold otaFlush
      rw [if_pos (.inl hlen)]
      exact ⟨hflat, hf⟩
    · obtain ⟨hdata, hfailed⟩ := otaFlush_works hlen hf
        (fin.img 0) fun c slot data => hw.image _ c slot data false
      rw [hdata, List.flatten_append, List.flatten_singleton]
      exact ⟨hflat, hfailed⟩
  obtain ⟨hdata, hfailed⟩ := hflush
  have hfinish : ∀ st₁ : Loader p, ((otaStoreFinish st₁ fin).2.2.calls.map (·.data)).flatten =
      (st₁.calls.map (·.data)).flatten := by
    intro st₁
    have hcalls : (otaStoreFinish st₁ fin).2.2.calls =
        (imgWrite st₁ [] true (fin.img 1)).2.calls := by
      unfold otaStoreFinish
      simp only
      split_ifs <;> rfl
    rw [hcalls]
    unfold imgWrite
    rw [List.map_append, List.flatten_append]
    exact List.append_nil _
  unfold Upload.otaEnd
  simp only
  rw [if_neg (by rw [hfailed]; exact Bool.false_ne_true)]
  rw [← hdata, ← hfinish (otaFlush st (fin.img 0))]
  split_ifs <;> rfl

theorem Staging.finish {st : Loader p} (h : Staging st) (hmode : st.loaderMode = .otaMode)
    (hf : st.otaFailed = false) {fin : FlashInput p} (hw : fin.AllWork) :
    ((processLoaderEnd st fin).2.calls.map (·.data)).flatten = st.delivered := by
  have hline : Staging { st with loaderMode := .lineMode } := ⟨h.staged, h.data⟩
  rw [processLoaderEnd_eq_otaEnd hmode]
  exact hline.otaEnd hf hw

/-- The calls of a closed upload, by number. -/
theorem Closed.getElem?_calls {base : Partition} {d : List UInt8} {st : Loader p}
    (h : Closed base d st) (hnone : st.NoneFailed) (i : ℕ) :
    st.calls[i]? = if loaderChunkLen * i < d.length then
      some ⟨loaderChunkLen * i, (d.drop (loaderChunkLen * i)).take loaderChunkLen, 0⟩
      else none := by
  have hdata := getElem?_blocks (by decide : 0 < loaderChunkLen) d i
  have hlen : st.calls.length = (blocks loaderChunkLen d).length := by
    rw [← h.data, List.length_map]
  have hoff := congrArg (·[i]?) h.offsets
  simp only [List.getElem?_map] at hoff
  rw [← h.data, List.getElem?_map] at hdata
  cases hc : st.calls[i]? with
  | none =>
      rw [hc, Option.map_none] at hdata
      by_cases hi : loaderChunkLen * i < d.length
      · rw [if_pos hi] at hdata
        cases hdata
      · rw [if_neg hi]
  | some c =>
      have hi : i < (blocks loaderChunkLen d).length := by
        rw [← hlen]
        exact (List.getElem?_eq_some_iff.mp hc).1
      rw [hc, List.getElem?_range hi, Option.map_some, Option.map_some, Option.some_inj] at hoff
      rw [hc, Option.map_some] at hdata
      by_cases hlt : loaderChunkLen * i < d.length
      · rw [if_pos hlt, Option.some_inj] at hdata
        rw [if_pos hlt, ← hdata, ← hoff, ← hnone c (List.mem_of_getElem? hc)]
      · rw [if_neg hlt] at hdata
        cases hdata

/-- No call of a closed upload leaves what its start erased. -/
theorem Closed.within (hg : p.Geometry) {base : Partition} {d : List UInt8} {st : Loader p}
    (h : Closed base d st) (hnone : st.NoneFailed) :
    ∀ c ∈ st.calls,
      c.offset + alignUp c.data.length p.pkgWriteBlock ≤ erasedTo p d.length := by
  intro c hc
  obtain ⟨i, hi⟩ := List.mem_iff_getElem?.mp hc
  have hblock : 0 < p.pkgWriteBlock := Nat.pos_of_dvd_of_pos hg.chunk (by decide)
  have hend : d.length ≤ erasedTo p d.length := le_alignUp _ hg.page
  rw [h.getElem?_calls hnone i] at hi
  by_cases hlt : loaderChunkLen * i < d.length
  · rw [if_pos hlt, Option.some_inj] at hi
    rw [← hi]
    simp only [List.length_take, List.length_drop]
    rw [add_alignUp hblock (hg.chunk.mul_right i)]
    have hin : loaderChunkLen * i + min loaderChunkLen (d.length - loaderChunkLen * i) ≤
        d.length := by omega
    exact alignUp_le hblock (dvd_alignUp hg.pages _) (hin.trans hend)
  · rw [if_neg hlt] at hi
    cases hi

/-! ### Pieces do not matter -/

/-- **Uploads in pieces lose nothing.**  However the bytes `d` are cut, with flash calls that
work: a package is written block after block, inside what was erased, and the partition holds
it; a firmware image is written in order; and the staging stays inside its buffer. -/
theorem upload_lossless (hg : p.Geometry) (st : Loader p) (mode : ControlMode)
    (inp : FlashInput p) (pieces : List (List UInt8 × FlashInput p)) (fin : FlashInput p)
    (hstart : (processLoaderStart st mode (bytesOf pieces).length inp).1 ≠ 0)
    (hwork : ∀ piece ∈ pieces, piece.2.AllWork) (hfin : fin.AllWork) :
    let d := bytesOf pieces
    let r := upload st mode d.length inp pieces fin
    (mode = .pkgMode →
      (∀ i, r.2.calls[i]? = if 512 * i < d.length then
        some ⟨512 * i, (d.drop (512 * i)).take 512, 0⟩ else none) ∧
      (∀ c ∈ r.2.calls,
        c.offset + alignUp c.data.length p.pkgWriteBlock ≤ erasedTo p d.length) ∧
      d.length ≤ erasedTo p d.length ∧ erasedTo p d.length ≤ p.pkgSize ∧
      (∀ i < d.length, r.2.pkg i = d.getD i 0) ∧
      ∀ i < erasedTo p d.length, d.length ≤ i → r.2.pkg i = 0xFF) ∧
    (mode = .otaMode → (r.2.calls.map (·.data)).flatten = d) ∧
    ∀ before piece after, pieces = before ++ piece :: after →
      InBounds (deliver (processLoaderStart st mode d.length inp).2 0 before)
        (bytesOf before).length piece := by
  obtain ⟨hflow, hdel, hmode⟩ := processLoaderStart_flowing hstart
  refine ⟨?_, ?_, ?_⟩
  · rintro rfl
    obtain ⟨hclosed, hnone, -⟩ := upload_pkg hstart pieces fin
    have hall := hnone.mpr ⟨streamWorks_of_allWork hwork 0, fun _ => hfin.area 0⟩
    have hstored := hclosed.stored.mpr ⟨hall, .of_le hg.page st le_rfl⟩
    refine ⟨hclosed.getElem?_calls hall, hclosed.within hg hall, le_alignUp _ hg.page,
      (pkgStart_ok hstart).1, hstored.held, ?_⟩
    intro i hi hle
    rw [(hclosed.holds hall).erased (if_pos hi), List.getD_eq_default _ _ hle]
  · rintro rfl
    obtain ⟨hflow', hdel'⟩ := hflow.deliver 0 (by rw [hdel]; rfl) hwork
    rw [hdel, List.nil_append] at hdel'
    have hmode' := (deliver_sameRecords
      (processLoaderStart st .otaMode (bytesOf pieces).length inp).2 0 pieces).loaderMode
    rw [hmode] at hmode'
    have hf := hflow'.mode.resolve_left fun hpkg => by rw [hmode'] at hpkg; cases hpkg.1
    exact (hflow'.toStaging.finish hmode' hf.2 hfin).trans hdel'
  · rintro before piece after rfl
    have hbefore : ∀ piece ∈ before, piece.2.AllWork := fun u hu =>
      hwork u (List.mem_append_left _ hu)
    have hpiece := hwork piece (List.mem_append_right _ List.mem_cons_self)
    obtain ⟨hflow', hdel'⟩ := hflow.deliver 0 (by rw [hdel]; rfl) hbefore
    rw [hdel, List.nil_append] at hdel'
    apply Staging.inBounds
    intro k hk
    obtain ⟨hflow'', hdel''⟩ := hflow'.processLoaderData (congrArg List.length hdel').symm
      (piece.1.take k) hpiece
    refine ⟨hflow''.toStaging, ?_⟩
    rw [hdel'', hdel', List.length_append, List.length_take, Nat.min_eq_left hk.le]

theorem board_geometry : board.Geometry := ⟨by decide, by decide, by decide⟩

theorem allWork_allWork : allWork.AllWork := ⟨fun _ => ⟨rfl, rfl⟩, fun _ _ _ _ _ => rfl⟩

/-- A package of 700 bytes, cut inside its first block and inside its second. -/
def cutPackage : List (List UInt8 × FlashInput board) :=
  [(List.replicate 500 1, allWork), ([], allWork), (List.replicate 100 2, allWork),
    (List.replicate 100 3, allWork)]

theorem upload_lossless_cut :
    let calls := (upload started .pkgMode (bytesOf cutPackage).length allWork cutPackage
      allWork).2.calls
    calls[0]? = some ⟨0, List.replicate 500 1 ++ List.replicate 12 2, 0⟩ ∧
      calls[1]? = some ⟨512, List.replicate 88 2 ++ List.replicate 100 3, 0⟩ ∧
      calls[2]? = none := by
  have hwork : ∀ piece ∈ cutPackage, piece.2.AllWork := by
    simp [cutPackage, allWork_allWork, -List.reduceReplicate]
  have hbytes : bytesOf cutPackage =
      List.replicate 500 1 ++ (List.replicate 100 2 ++ List.replicate 100 3) := by
    simp [bytesOf, cutPackage, -List.reduceReplicate]
  have hstart :
      (processLoaderStart started .pkgMode (bytesOf cutPackage).length allWork).1 ≠ 0 := by
    rw [hbytes]
    simp only [List.length_append, List.length_replicate]
    decide
  have hcalls := ((upload_lossless board_geometry started .pkgMode allWork cutPackage allWork
    hstart hwork allWork_allWork).1 rfl).1
  refine ⟨(hcalls 0).trans ?_, (hcalls 1).trans ?_, (hcalls 2).trans ?_⟩
  all_goals
    rw [hbytes]
    simp [List.take_append, List.drop_append, -List.reduceReplicate]

end NodemFirmware.Upload
