import NodemFirmware.Upload.Control

/-! # What an armed image is

`Took` is what `flash_img` has been handed since it was set up, by calls that all worked, and
`Platform.Lawful` what it promises of that once it is flushed: it counts the bytes, they are
in the slot in order, and the page they start in was erased.

`Uploading` is the invariant of an upload in progress: the bytes taken and the bytes staged
are the bytes delivered, unless a write failed. -/

namespace NodemFirmware.Upload

open Transition CText

variable {p : Platform}

/-- `flash_img` was set up and took `data`, and the slot is what it left. -/
inductive Took (p : Platform) : List UInt8 → p.Ctx → Partition → Prop
  | init {outcome : p.Outcome} {c₀ c : p.Ctx} (slot : Partition) :
      p.init outcome c₀ = (0, c) → Took p [] c slot
  | write {data l : List UInt8} {c c' : p.Ctx} {slot slot' : Partition} {outcome : p.Outcome} :
      Took p data c slot → p.bufferedWrite outcome c slot l false = (0, c', slot') →
        Took p (data ++ l) c' slot'

/-- What `flash_img` promises of a flush that worked. -/
structure Platform.Lawful (p : Platform) : Prop where
  counts : ∀ {data c slot outcome c' slot'}, Took p data c slot →
    p.bufferedWrite outcome c slot [] true = (0, c', slot') → p.bytesWritten c' = data.length
  appends : ∀ {data c slot outcome c' slot'}, Took p data c slot →
    p.bufferedWrite outcome c slot [] true = (0, c', slot') →
      ∀ i < data.length, slot' i = data.getD i 0
  erases : ∀ {data c slot outcome c' slot'}, Took p data c slot →
    p.bufferedWrite outcome c slot [] true = (0, c', slot') → data ≠ [] →
      ∀ i < p.secondaryPage, data.length ≤ i → slot' i = 0xFF
  page : 4 ≤ p.secondaryPage

/-- An image that is the uploaded one: every write of it worked, the slot holds exactly the
bytes announced and delivered, and the header that was checked is theirs. -/
structure Arming.Faithful (a : Arming) : Prop where
  written : ∀ c ∈ a.calls, c.err = 0
  length : a.delivered.length = a.announced
  slot : ∀ i < a.announced, a.slot i = a.delivered.getD i 0
  header : (List.range 4).map a.slot = a.delivered.take 4

/-! ### Staging -/

theorem staged_stage (st : Loader p) (byte : UInt8) :
    (st.stage byte).staged = st.staged ++ [byte] := by
  unfold Loader.staged Loader.stage
  simp only
  rw [List.range_succ, List.map_append, List.map_singleton, Function.update_self]
  congr 1
  apply List.map_congr_left
  intro i hi
  rw [List.mem_range] at hi
  exact Function.update_of_ne (by omega) _ _

/-- A firmware upload so far. -/
structure Tracked (st : Loader p) : Prop where
  expected : st.expectedLen = st.announced
  announced : st.announced ≠ 0
  took : st.otaFailed = false → (∀ c ∈ st.calls, c.err = 0) ∧
    ∃ data, Took p data st.ctx st.slot ∧ data ++ st.staged = st.delivered

/-- A firmware upload between two calls. -/
structure Uploading (st : Loader p) : Prop extends Tracked st where
  room : st.loaderBufLen < loaderChunkLen

theorem Tracked.stage {st : Loader p} (h : Tracked st) (byte : UInt8) :
    Tracked (st.stage byte) := by
  refine ⟨h.expected, h.announced, ?_⟩
  intro hf
  obtain ⟨hcalls, data, htook, hdata⟩ := h.took hf
  refine ⟨hcalls, data, htook, ?_⟩
  rw [staged_stage, ← List.append_assoc, hdata]
  rfl

theorem imgWrite_took {st : Loader p} {data l : List UInt8} {outcome : p.Outcome}
    (h : Took p data st.ctx st.slot) (hw : (imgWrite st l false outcome).1 = 0) :
    Took p (data ++ l) (imgWrite st l false outcome).2.ctx (imgWrite st l false outcome).2.slot :=
  .write h (Prod.ext hw rfl)

theorem otaFlush_empty (st : Loader p) (outcome : p.Outcome) :
    (otaFlush st outcome).loaderBufLen = 0 := by
  unfold otaFlush
  split_ifs <;> rfl

/-- What a flush of the staged bytes leaves. -/
theorem Tracked.otaFlush {st : Loader p} (h : Tracked st) (outcome : p.Outcome) :
    Uploading (otaFlush st outcome) := by
  refine ⟨?_, by rw [otaFlush_empty]; decide⟩
  unfold Upload.otaFlush
  by_cases hskip : st.loaderBufLen = 0 ∨ st.otaFailed = true
  · rw [if_pos hskip]
    refine ⟨h.expected, h.announced, ?_⟩
    intro hf
    obtain ⟨hcalls, data, htook, hdata⟩ := h.took hf
    have hlen : st.loaderBufLen = 0 := by
      rcases hskip with hlen | hfail
      · exact hlen
      · rw [show st.otaFailed = false from hf] at hfail
        cases hfail
    refine ⟨hcalls, data, htook, ?_⟩
    unfold Loader.staged at hdata
    rw [hlen] at hdata
    exact hdata
  · rw [if_neg hskip]
    simp only
    refine ⟨h.expected, h.announced, ?_⟩
    intro hf
    rw [not_or, Bool.not_eq_true] at hskip
    obtain ⟨hcalls, data, htook, hdata⟩ := h.took hskip.2
    have hzero : (imgWrite st st.staged false outcome).1 = 0 := by
      by_contra hne
      simp only [otaStoreWrite, ne_eq, hne, not_false_eq_true, if_true] at hf
      cases hf
    refine ⟨?_, data ++ st.staged, imgWrite_took htook hzero, ?_⟩
    · intro c hc
      rcases List.mem_append.mp hc with hc | hc
      · exact hcalls c hc
      · rw [List.mem_singleton.mp hc]
        exact hzero
    · rw [hdata]
      exact List.append_nil _

theorem Uploading.otaByte {st : Loader p} (h : Uploading st) (byte : UInt8)
    (outcome : p.Outcome) : Uploading (otaByte st byte outcome) := by
  have hstage := h.toTracked.stage byte
  have hroom := h.room
  unfold Upload.otaByte
  simp only
  split_ifs with hfull
  · exact hstage.otaFlush outcome
  · refine ⟨hstage, ?_⟩
    have hlen : (st.stage byte).loaderBufLen = st.loaderBufLen + 1 := rfl
    omega

theorem Uploading.otaData {st : Loader p} (h : Uploading st) (buf : List UInt8)
    (inp : FlashInput p) : Uploading (otaData st buf inp) := by
  unfold Upload.otaData
  induction buf.zipIdx generalizing st with
  | nil => exact h
  | cons b l ih => exact ih (h.otaByte b.1 (inp.img b.2))

/-! ### Arming -/

theorem headerMagic_of_erased {slot : Partition} (h : slot 3 = 0xFF) :
    headerMagic slot ≠ otaImageMagic := by
  have h255 : (slot 3).toNat = 255 := by rw [h]; rfl
  unfold headerMagic otaImageMagic
  have h0 := (slot 0).toNat_lt
  have h1 := (slot 1).toNat_lt
  have h2 := (slot 2).toNat_lt
  omega

/-- **What `ota_store_finish` arms** after writes that all worked. -/
theorem otaStoreFinish_faithful (hl : p.Lawful) {st : Loader p} (h : Tracked st)
    (hempty : st.loaderBufLen = 0) (hf : st.otaFailed = false) (inp : FlashInput p) {a : Arming}
    (ha : (otaStoreFinish st inp).2.1 = some a) : a.Faithful := by
  obtain ⟨hcalls, data, htook, hdata⟩ := h.took hf
  have hstaged : st.staged = [] := by
    unfold Loader.staged
    rw [hempty]
    rfl
  rw [hstaged, List.append_nil] at hdata
  unfold otaStoreFinish at ha
  simp only at ha
  split_ifs at ha with herr hlen hopen hread hmagic
  have hzero : (imgWrite st [] true (inp.img 1)).1 = 0 := not_not.mp herr
  have hw : p.bufferedWrite (inp.img 1) st.ctx st.slot [] true =
      (0, (imgWrite st [] true (inp.img 1)).2.ctx, (imgWrite st [] true (inp.img 1)).2.slot) :=
    Prod.ext hzero rfl
  have hcount := hl.counts htook hw
  have hslot := hl.appends htook hw
  have hlength : data.length = st.announced := by
    rw [← hcount, ← h.expected]
    exact not_not.mp hlen
  have hne : data ≠ [] := by
    intro hnil
    rw [hnil] at hlength
    exact h.announced hlength.symm
  have hfour : 4 ≤ data.length := by
    by_contra hlt
    apply headerMagic_of_erased _ (not_not.mp hmagic)
    exact hl.erases htook hw hne 3 (lt_of_lt_of_le (by decide) hl.page) (by omega)
  cases ha
  refine ⟨?_, ?_, ?_, ?_⟩
  · intro c hc
    rcases List.mem_append.mp hc with hc | hc
    · exact hcalls c hc
    · rw [List.mem_singleton.mp hc]
      exact hzero
  · show st.delivered.length = st.announced
    rw [← hdata, hlength]
  · intro i hi
    show _ = st.delivered.getD i 0
    rw [← hdata]
    exact hslot i (by rw [hlength]; exact hi)
  · show (List.range 4).map (imgWrite st [] true (inp.img 1)).2.slot = st.delivered.take 4
    rw [← hdata]
    refine List.ext_getElem (by simp [hfour]) (fun i hi hi' => ?_)
    rw [List.length_map, List.length_range] at hi
    rw [List.getElem_map, List.getElem_range, List.getElem_take, hslot i (by omega),
      List.getD_eq_getElem?_getD, List.getElem?_eq_getElem, Option.getD_some]

/-- What `ota_store_finish` leaves of the records. -/
theorem otaStoreFinish_records (st : Loader p) (inp : FlashInput p) :
    (otaStoreFinish st inp).2.2.requests = st.requests ++ (otaStoreFinish st inp).2.1.toList ∧
      (otaStoreFinish st inp).2.2.restarts = st.restarts ∧
      (otaStoreFinish st inp).2.2.loaderMode = st.loaderMode ∧
      ((otaStoreFinish st inp).1 = 0 → ∃ a, (otaStoreFinish st inp).2.1 = some a) := by
  unfold otaStoreFinish
  simp only
  split_ifs with herr hlen hopen hread hmagic
  · exact ⟨(List.append_nil _).symm, rfl, rfl, fun h => absurd h herr⟩
  · exact ⟨(List.append_nil _).symm, rfl, rfl, fun h => by simp [CText.Errno.io] at h⟩
  · exact ⟨(List.append_nil _).symm, rfl, rfl, fun h => absurd h hopen⟩
  · exact ⟨(List.append_nil _).symm, rfl, rfl, fun h => absurd h hread⟩
  · exact ⟨(List.append_nil _).symm, rfl, rfl, fun h => by simp [CText.Errno.inval] at h⟩
  · exact ⟨rfl, rfl, rfl, fun _ => ⟨_, rfl⟩⟩

/-! ### Runs -/

/-- The records of what was armed, and what decides whom a call belongs to. -/
structure SameRecords (st st' : Loader p) : Prop where
  requests : st'.requests = st.requests
  restarts : st'.restarts = st.restarts
  loaderMode : st'.loaderMode = st.loaderMode
  returned : st'.returned = st.returned

theorem SameRecords.trans {st st' st'' : Loader p} (h : SameRecords st st')
    (h' : SameRecords st' st'') : SameRecords st st'' :=
  ⟨h'.requests.trans h.requests, h'.restarts.trans h.restarts,
    h'.loaderMode.trans h.loaderMode, h'.returned.trans h.returned⟩

theorem foldl_sameRecords {α : Type*} {f : Loader p → α → Loader p}
    (h : ∀ st a, SameRecords st (f st a)) (l : List α) (st : Loader p) :
    SameRecords st (l.foldl f st) := by
  induction l generalizing st with
  | nil => exact ⟨rfl, rfl, rfl, rfl⟩
  | cons a l ih => exact (h st a).trans (ih (f st a))

theorem otaFlush_sameRecords (st : Loader p) (outcome : p.Outcome) :
    SameRecords st (otaFlush st outcome) := by
  unfold otaFlush
  split_ifs <;> exact ⟨rfl, rfl, rfl, rfl⟩

theorem otaByte_sameRecords (st : Loader p) (byte : UInt8) (outcome : p.Outcome) :
    SameRecords st (otaByte st byte outcome) := by
  have hstage : SameRecords st (st.stage byte) := ⟨rfl, rfl, rfl, rfl⟩
  unfold otaByte
  simp only
  split_ifs
  · exact hstage.trans (otaFlush_sameRecords _ outcome)
  · exact hstage

theorem pkgByte_sameRecords (st : Loader p) (byte : UInt8) (pos i : ℕ) (inp : FlashInput p) :
    SameRecords st (pkgByte st byte pos i inp) := by
  unfold pkgByte
  simp only
  split_ifs <;> exact ⟨rfl, rfl, rfl, rfl⟩

theorem processLoaderData_sameRecords (st : Loader p) (buf : List UInt8) (pos : ℕ)
    (inp : FlashInput p) : SameRecords st (processLoaderData st buf pos inp) := by
  unfold processLoaderData
  split
  · exact foldl_sameRecords (α := UInt8 × ℕ)
      (fun st b => pkgByte_sameRecords st b.1 pos b.2 inp) _ st
  · exact foldl_sameRecords (α := UInt8 × ℕ)
      (fun st b => otaByte_sameRecords st b.1 (inp.img b.2)) _ st
  · exact ⟨rfl, rfl, rfl, rfl⟩

/-- The invariant of the loader. -/
structure OnlyUploaded (st : Loader p) : Prop where
  uploading : st.loaderMode = .otaMode → st.returned ≠ 0 → Uploading st
  requests : ∀ a ∈ st.requests, a.Faithful
  restarts : ∀ r ∈ st.restarts, ∃ a, r = some a ∧ a.Faithful

theorem OnlyUploaded.flags {st : Loader p} (h : OnlyUploaded st) (restart pkgReady : Bool) :
    OnlyUploaded { st with restart := restart, pkgReady := pkgReady } := by
  refine ⟨?_, h.requests, h.restarts⟩
  intro hm hret
  have hup := h.uploading hm hret
  exact ⟨⟨hup.expected, hup.announced, hup.took⟩, hup.room⟩

/-- A firmware upload announces at least one byte. -/
def LoaderEvent.Announces : LoaderEvent p → Prop
  | start mode len _ => mode = .otaMode → len ≠ 0
  | _ => True

theorem pkgStart_sameRecords (st : Loader p) (len : ℕ) (inp : FlashInput p) :
    SameRecords st (pkgStart st len inp).2 := by
  have herase : ∀ st : Loader p, SameRecords st (pkgStoreErase st len inp).2 := by
    intro st
    unfold pkgStoreErase
    simp only
    split_ifs
    · exact ⟨rfl, rfl, rfl, rfl⟩
    · exact ⟨rfl, rfl, rfl, rfl⟩
    · cases inp.failed 0 <;> exact ⟨rfl, rfl, rfl, rfl⟩
  have hreset : SameRecords st { st with pkgWritten := 0 } := ⟨rfl, rfl, rfl, rfl⟩
  unfold pkgStart
  simp only
  split_ifs
  · exact hreset
  · exact hreset.trans (herase _)
  · exact hreset.trans (herase _)

theorem otaStart_sameRecords (st : Loader p) (len : ℕ) (inp : FlashInput p) :
    SameRecords st (otaStart st len inp).2 := by
  unfold otaStart otaStoreStart
  simp only
  split_ifs <;> exact ⟨rfl, rfl, rfl, rfl⟩

/-- What a start that did not return 0 did. -/
theorem otaStart_ok {st : Loader p} {len : ℕ} {inp : FlashInput p}
    (h : (otaStart st len inp).1 ≠ 0) :
    ∃ c, p.init (inp.img 0) st.ctx = (0, c) ∧ (otaStart st len inp).2 =
      { st with otaFailed := false, ctx := c, expectedLen := len } := by
  unfold otaStart otaStoreStart at h ⊢
  simp only at h ⊢
  by_cases hsize : p.secondarySize < len
  · rw [if_pos hsize] at h
    exact absurd rfl h
  rw [if_neg hsize, if_neg hsize] at h ⊢
  by_cases herr : (p.init (inp.img 0) st.ctx).1 ≠ 0
  · rw [if_pos herr, if_pos herr] at h
    exact absurd rfl h
  · rw [if_neg herr, if_neg (not_not.mpr rfl)]
    exact ⟨_, Prod.ext (not_not.mp herr) rfl, rfl⟩

/-- A firmware upload as `ota_start` begins it. -/
theorem otaStart_uploading {st : Loader p} {len : ℕ} {inp : FlashInput p} (hlen : len ≠ 0)
    (hstart : st.loaderBufLen = 0 ∧ st.announced = len ∧ st.delivered = [] ∧ st.calls = [])
    (h : (otaStart st len inp).1 ≠ 0) : Uploading (otaStart st len inp).2 := by
  obtain ⟨hbuf, hann, hdel, hcalls⟩ := hstart
  obtain ⟨c, hinit, heq⟩ := otaStart_ok h
  rw [heq]
  refine ⟨⟨hann.symm, by rw [hann]; exact hlen, fun _ => ⟨?_, [], .init _ hinit, ?_⟩⟩, ?_⟩
  · rw [hcalls]
    exact fun c hc => absurd hc List.not_mem_nil
  · rw [hdel]
    unfold Loader.staged
    rw [hbuf]
    rfl
  · rw [hbuf]
    decide

theorem processLoaderStart_onlyUploaded {st : Loader p} (h : OnlyUploaded st)
    {mode : ControlMode} {len : ℕ} {inp : FlashInput p}
    (hlen : (LoaderEvent.start mode len inp).Announces) :
    OnlyUploaded (processLoaderStart st mode len inp).2 := by
  unfold processLoaderStart
  cases mode with
  | lineMode => exact ⟨fun hm => (by cases hm), h.requests, h.restarts⟩
  | pkgMode =>
      have hrec := pkgStart_sameRecords { st with
        loaderMode := .pkgMode, loaderBufLen := 0, announced := len, delivered := []
        calls := [] } len inp
      refine ⟨?_, ?_, ?_⟩
      · intro hm
        rw [hrec.loaderMode] at hm
        cases hm
      · rw [hrec.requests]
        exact h.requests
      · rw [hrec.restarts]
        exact h.restarts
  | otaMode =>
      have hrec := otaStart_sameRecords { st with
        loaderMode := .otaMode, loaderBufLen := 0, announced := len, delivered := []
        calls := [] } len inp
      refine ⟨?_, ?_, ?_⟩
      · intro _ hret
        have hup := otaStart_uploading (hlen rfl) ⟨rfl, rfl, rfl, rfl⟩ hret
        exact ⟨⟨hup.expected, hup.announced, hup.took⟩, hup.room⟩
      · rw [hrec.requests]
        exact h.requests
      · rw [hrec.restarts]
        exact h.restarts

theorem processLoaderData_onlyUploaded {st : Loader p} (h : OnlyUploaded st) (buf : List UInt8)
    (pos : ℕ) (inp : FlashInput p) : OnlyUploaded (processLoaderData st buf pos inp) := by
  have hrec := processLoaderData_sameRecords st buf pos inp
  refine ⟨?_, ?_, ?_⟩
  · intro hm hret
    rw [hrec.loaderMode] at hm
    rw [hrec.returned] at hret
    unfold processLoaderData
    rw [hm]
    exact (h.uploading hm hret).otaData buf inp
  · rw [hrec.requests]
    exact h.requests
  · rw [hrec.restarts]
    exact h.restarts

theorem pkgEnd_sameRecords (st : Loader p) (inp : FlashInput p) :
    SameRecords st (pkgEnd st inp).2 := by
  unfold pkgEnd
  split_ifs
  · simp only
    split_ifs <;> exact ⟨rfl, rfl, rfl, rfl⟩
  · exact ⟨rfl, rfl, rfl, rfl⟩

/-- **The end of a firmware upload** arms nothing but it. -/
theorem otaEnd_onlyUploaded (hl : p.Lawful) {st : Loader p} (h : OnlyUploaded st)
    (hup : Tracked st) (hmode : st.loaderMode ≠ .otaMode) (inp : FlashInput p) :
    OnlyUploaded (otaEnd st inp).2 := by
  have hflush := hup.otaFlush (inp.img 0)
  have hrec := otaFlush_sameRecords st (inp.img 0)
  have hempty := otaFlush_empty st (inp.img 0)
  unfold otaEnd
  simp only
  generalize otaFlush st (inp.img 0) = st₁ at hflush hrec hempty ⊢
  have hreq : ∀ a ∈ st₁.requests, a.Faithful := by rw [hrec.requests]; exact h.requests
  have hres : ∀ r ∈ st₁.restarts, ∃ a, r = some a ∧ a.Faithful := by
    rw [hrec.restarts]
    exact h.restarts
  rw [← hrec.loaderMode] at hmode
  by_cases hf : st₁.otaFailed = true
  · rw [if_pos hf]
    exact ⟨fun hm => absurd hm hmode, hreq, hres⟩
  · rw [if_neg hf]
    rw [Bool.not_eq_true] at hf
    obtain ⟨hr1, hr2, hr3, hr4⟩ := otaStoreFinish_records st₁ inp
    have harm : ∀ a, (otaStoreFinish st₁ inp).2.1 = some a → a.Faithful := fun a ha =>
      otaStoreFinish_faithful hl hflush.toTracked hempty hf inp ha
    have hreq' : ∀ a ∈ (otaStoreFinish st₁ inp).2.2.requests, a.Faithful := by
      intro a ha
      rw [hr1, List.mem_append, Option.mem_toList] at ha
      exact ha.elim (hreq a) (harm a)
    rw [← hr3] at hmode
    by_cases herr : (otaStoreFinish st₁ inp).1 = 0
    · rw [if_neg (not_not.mpr herr)]
      refine ⟨fun hm => absurd hm hmode, hreq', ?_⟩
      intro r hr
      rcases List.mem_append.mp hr with hr | hr
      · rw [hr2] at hr
        exact hres r hr
      · rw [List.mem_singleton.mp hr]
        obtain ⟨a, ha⟩ := hr4 herr
        exact ⟨a, ha, harm a ha⟩
    · rw [if_pos herr]
      exact ⟨fun hm => absurd hm hmode, hreq', by rw [hr2]; exact hres⟩

theorem processLoaderEnd_onlyUploaded (hl : p.Lawful) {st : Loader p} (h : OnlyUploaded st)
    (hret : st.returned ≠ 0) (inp : FlashInput p) :
    OnlyUploaded (processLoaderEnd st inp).2 := by
  have hline : OnlyUploaded { st with loaderMode := .lineMode } :=
    ⟨fun hm => (by cases hm), h.requests, h.restarts⟩
  unfold processLoaderEnd
  cases hm : st.loaderMode with
  | lineMode => exact hline
  | pkgMode =>
      have hrec := pkgEnd_sameRecords { st with loaderMode := .lineMode } inp
      refine ⟨?_, ?_, ?_⟩
      · intro hm'
        rw [hrec.loaderMode] at hm'
        cases hm'
      · rw [hrec.requests]
        exact h.requests
      · rw [hrec.restarts]
        exact h.restarts
  | otaMode =>
      have hup := h.uploading hm hret
      exact otaEnd_onlyUploaded hl hline ⟨hup.expected, hup.announced, hup.took⟩
        (fun hm' => by cases hm') inp

/-! ### A board -/

/-- `flash_img` as it is for uploads that fit its block buffer: they are written by the
flush, and the pages they take are erased first. -/
def board : Platform where
  Ctx := List UInt8
  Outcome := Bool
  init fails _ := (if fails then -Errno.io else 0, [])
  bufferedWrite fails taken slot data flush :=
    if fails then (-Errno.io, taken, slot)
    else (0, taken ++ data, if flush then fun i =>
      if i < (taken ++ data).length then (taken ++ data).getD i 0
      else if i < alignUp (taken ++ data).length 4096 then 0xFF else slot i
      else slot)
  bytesWritten := List.length
  secondarySize := 0x50000
  secondaryPage := 4096
  pkgSize := 0x54000
  pkgPage := some 4096
  pkgWriteBlock := 4

theorem board_write {fails flush : Bool} {taken taken' data : List UInt8} {slot slot' : Partition}
    (h : board.bufferedWrite fails taken slot data flush = (0, taken', slot')) :
    taken' = taken ++ data ∧ slot' = if flush then fun i =>
      if i < (taken ++ data).length then (taken ++ data).getD i 0
      else if i < alignUp (taken ++ data).length 4096 then 0xFF else slot i
      else slot := by
  cases fails with
  | true =>
      have herr : -Errno.io = 0 := congrArg Prod.fst h
      exact absurd herr (by decide)
  | false =>
      have htaken : taken ++ data = taken' := congrArg (·.2.1) h
      have hslot : (if flush then _ else slot) = slot' := congrArg (·.2.2) h
      exact ⟨htaken.symm, hslot.symm⟩

theorem board_took {data : List UInt8} {taken : board.Ctx} {slot : Partition}
    (h : Took board data taken slot) : taken = data := by
  induction h with
  | init slot h => exact (congrArg Prod.snd h).symm
  | write _ h ih =>
      rw [(board_write h).1, ih]

theorem board_lawful : board.Lawful := by
  have hflush : ∀ {data : List UInt8} {c c' : board.Ctx} {slot slot' : Partition}
      {outcome : board.Outcome}, Took board data c slot →
      board.bufferedWrite outcome c slot [] true = (0, c', slot') → c' = data ∧
        slot' = fun i => if i < data.length then data.getD i 0
          else if i < alignUp data.length 4096 then 0xFF else slot i := by
    intro data c c' slot slot' outcome ht hw
    have hc : c = data := board_took ht
    obtain ⟨h1, h2⟩ := board_write hw
    rw [hc] at h1 h2
    simp only [if_true, List.append_nil] at h1 h2
    exact ⟨h1, h2⟩
  refine ⟨?_, ?_, ?_, by decide⟩
  · intro data c slot outcome c' slot' ht hw
    rw [(hflush ht hw).1]
    rfl
  · intro data c slot outcome c' slot' ht hw i hi
    rw [(hflush ht hw).2]
    exact if_pos hi
  · intro data c slot outcome c' slot' ht hw hne i hi hle
    have hpos := List.length_pos_iff.mpr hne
    have hpage : i < alignUp data.length 4096 := by
      have hi' : i < 4096 := hi
      unfold alignUp
      omega
    rw [(hflush ht hw).2]
    simp only [if_neg (not_lt.mpr hle), if_pos hpage]

/-- A slot that an earlier image was left in. -/
def earlierImage : Partition := fun i => [0x3d, 0xb8, 0xf3, 0x96].getD i 0xFF

/-- Every call works. -/
def allWork : FlashInput board := ⟨fun _ => false, fun _ => 0, fun _ => none, 0, (0, earlierImage)⟩

/-- A board right after its start. -/
def started : Loader board := .new [] earlierImage earlierImage

/-- The steps of an upload of `data`, and where they lead. -/
def uploadOf (data : List UInt8) : List (LoaderEvent board) :=
  [] ++ [.start .otaMode data.length allWork] ++ [.data data 0 allWork] ++ [.finish allWork]

def afterUpload (data : List UInt8) : Loader board :=
  (uploadOf data).foldl LoaderEvent.apply started

/-! ### What is armed -/

/-- **Only the uploaded image is armed.**  In every run in which no firmware upload announces
0 bytes, whatever fails and however the data is cut, `boot_request_upgrade` is called and
`restart` set by the loader only for an image all of whose writes worked, that is in the slot
as it was delivered, and whose header was checked as delivered. -/
theorem ota_armed_uploaded (hl : p.Lawful) {ctx : p.Ctx} {slot pkg : Partition}
    {events : List (LoaderEvent p)} {st : Loader p}
    (h : Run (Guarded LoaderStep fun _ e => e.Announces) (.new ctx slot pkg) events st) :
    (∀ a ∈ st.requests, a.Faithful) ∧ ∀ r ∈ st.restarts, ∃ a, r = some a ∧ a.Faithful := by
  have hinv : OnlyUploaded st := h.invariant (I := OnlyUploaded)
    (fun s e t hs hr => by
      obtain ⟨hann, hallowed, rfl⟩ := hr
      cases e with
      | start mode len inp => exact processLoaderStart_onlyUploaded hs hann
      | data buf pos inp => exact processLoaderData_onlyUploaded hs buf pos inp
      | finish inp => exact processLoaderEnd_onlyUploaded hl hs hallowed inp
      | reset => exact hs.flags true s.pkgReady
      | takeRestart => exact hs.flags false s.pkgReady
      | takePkgReady => exact hs.flags s.restart false)
    ⟨fun hm => (by cases hm), fun a ha => absurd ha List.not_mem_nil,
      fun r hr => absurd hr List.not_mem_nil⟩
  exact ⟨hinv.requests, hinv.restarts⟩

/-- The first bytes of an image. -/
def newImage : List UInt8 := [0x3d, 0xb8, 0xf3, 0x96, 1, 2]

theorem ota_armed_uploaded_image :
    (afterUpload newImage).requests.length = 1 ∧
      ∀ a ∈ (afterUpload newImage).requests, a.Faithful :=
  have hrun : Run (Guarded LoaderStep fun _ e => e.Announces) started (uploadOf newImage)
      (afterUpload newImage) :=
    .snoc (.snoc (.snoc (.nil _) ⟨fun _ => by decide, trivial, rfl⟩)
      ⟨trivial, by decide, rfl⟩) ⟨trivial, by decide, rfl⟩
  ⟨by decide, (ota_armed_uploaded board_lawful hrun).1⟩

/-- An upload of nothing arms what an earlier one left in the slot. -/
theorem empty_upload_arms :
    ¬ ∀ p : Platform, p.Lawful → ∀ (ctx : p.Ctx) (slot pkg : Partition)
      (events : List (LoaderEvent p)) (st : Loader p),
      Run LoaderStep (.new ctx slot pkg) events st →
        (∀ a ∈ st.requests, a.Faithful) ∧ ∀ r ∈ st.restarts, ∃ a, r = some a ∧ a.Faithful := by
  intro h
  have hrun : Run LoaderStep started (uploadOf []) (afterUpload []) :=
    .snoc (.snoc (.snoc (.nil _) ⟨trivial, rfl⟩) ⟨by decide, rfl⟩) ⟨by decide, rfl⟩
  have hall := (h board board_lawful _ _ _ _ _ hrun).1
  have hheader : ∀ a ∈ (afterUpload []).requests,
      (List.range 4).map a.slot = a.delivered.take 4 := fun a ha => (hall a ha).header
  revert hheader
  decide

end NodemFirmware.Upload
