import NodemFirmware.Oled.Display

/-! # Differential flushing equals a full resend

`Mirror` is what the task believes of the panel: the window of display RAM holds `sent`, the
rest is blank.  A clear establishes it (`ssd1306Clear_mirror`), a page that is sent keeps it
and makes `sent` the page (`flushOne_spec`), and every failure gives up `initialized`.
`Synced` is the invariant of the loop; `display_flush` states it for every run, together
with what a flush without error leaves.

The setup's status probe is the one transfer whose failure changes nothing: it only turns
the health check off. -/

namespace NodemFirmware.Oled

open Transition

/-- The RAM holds `sent` in the window and is blank outside it. -/
structure Mirror (ctl : Controller) (sent : ℕ → ℕ → UInt8) (w : Window) : Prop where
  inside : ∀ pg < w.pages, ∀ c < w.cols, ctl.cell pg (w.col + c) = sent pg c
  outside : ∀ pg < ramRows / 8, ∀ k < ramCols,
    ¬ (pg < w.pages ∧ w.col ≤ k ∧ k < w.col + w.cols) → ctl.cell pg k = 0

/-! ### Transfers -/

theorem ssd1306SetWindow_ok (ctl : Controller) {col cols page pages : ℕ}
    (hcols : col + cols ≤ ramCols) (hpages : page + pages ≤ ramRows / 8) :
    ssd1306SetWindow ctl col cols page pages none =
      (false, ctl.setWindow col (col + cols - 1) page (page + pages - 1)) := by
  have hnat : ∀ n ≤ ramCols, (UInt8.ofNat n).toNat = n := by
    intro n hn
    unfold ramCols at hn
    rw [UInt8.toNat_ofNat']
    exact Nat.mod_eq_of_lt (by omega)
  unfold ramRows at hpages
  unfold ssd1306SetWindow i2cWrite receive
  simp only
  rw [if_neg (by decide), if_pos (by decide)]
  unfold ramCols at hcols
  rw [hnat col (by unfold ramCols; omega), hnat (col + cols - 1) (by unfold ramCols; omega),
    hnat page (by unfold ramCols; omega), hnat (page + pages - 1) (by unfold ramCols; omega)]

/-- The control byte swapped in front of the columns is gone again after the transfer. -/
theorem ssd1306WritePage_eq (buf : PageBuf) (ctl : Controller) (first len : ℕ)
    (outcome : Option Controller) :
    ssd1306WritePage buf ctl first len outcome =
      match outcome with
      | none => (false, ctl.write ((List.range len).map fun i => buf (first + 1 + i)), buf)
      | some left => (true, left, buf) := by
  have hrestore : Function.update (Function.update buf first 0x40) first (buf first) = buf := by
    rw [Function.update_idem, Function.update_eq_self]
  have hbytes : ((List.range (1 + len)).map fun i =>
      Function.update buf first 0x40 (first + i)) =
        0x40 :: (List.range len).map fun i => buf (first + 1 + i) := by
    rw [Nat.add_comm, List.range_succ_eq_map, List.map_cons, List.map_map, Nat.add_zero,
      Function.update_self]
    congr 1
    apply List.map_congr_left
    intro i _
    simp only [Function.comp_apply]
    rw [Function.update_of_ne (by omega)]
    congr 1
    omega
  unfold ssd1306WritePage
  simp only [hbytes, hrestore]
  cases outcome <;> rfl

/-! ### Clearing -/

theorem clearPages_spec {inp : PassInput} {buf : PageBuf} (hbuf : ∀ i < ramCols, buf (1 + i) = 0)
    (n : ℕ) {k : ℕ} {ctl ctl' : Controller} {buf' : PageBuf} (hk : k + n = ramRows / 8)
    (hwin : ctl.colLo = 0 ∧ ctl.colHi = ramCols - 1 ∧ ctl.rowLo = 0 ∧ ctl.rowHi = ramRows / 8 - 1)
    (hptr : 0 < n → ctl.row = k ∧ ctl.col = 0)
    (h : clearPages inp (List.range' k n) (ctl, buf) = (false, ctl', buf')) :
    ∀ i < ramRows / 8, ∀ j < ramCols,
      ctl'.cell i j = if k ≤ i then 0 else ctl.cell i j := by
  induction n generalizing k ctl with
  | zero =>
      cases h
      intro i hi j hj
      rw [if_neg (by omega)]
  | succ n ih =>
      obtain ⟨hrow, hcol⟩ := hptr (Nat.succ_pos n)
      obtain ⟨hw1, hw2, hw3, hw4⟩ := hwin
      rw [List.range'_succ] at h
      unfold clearPages at h
      simp only [ssd1306WritePage_eq] at h
      cases ho : inp.clearPage k with
      | some left =>
          rw [ho] at h
          simp at h
      | none =>
          rw [ho] at h
          simp only [Bool.false_eq_true, if_false, Nat.zero_add] at h
          have hcells := WindowRam.write_cell ((List.range ramCols).map fun i => buf (1 + i)) ctl
            (by rw [hcol, hw2, List.length_map, List.length_range]; decide)
          have hptr' := WindowRam.write_window ((List.range ramCols).map fun i => buf (1 + i)) ctl
            (by rw [hcol, hw2, List.length_map, List.length_range]; decide)
          obtain ⟨h1, h2, h3, h4, -, h6⟩ := hptr'
          have hnext := h6 (by simp [ramCols])
            (by rw [hcol, hw2, List.length_map, List.length_range]; decide)
          rw [hw1, hw4, hrow] at hnext
          intro i hi j hj
          rw [ih (by omega) ⟨by rw [h1, hw1], by rw [h2, hw2], by rw [h3, hw3], by rw [h4, hw4]⟩
            (fun hn => ⟨by rw [hnext.1, if_pos (by omega)], hnext.2⟩) h i hi j hj,
            hcells, hcol, hrow, Nat.sub_zero, List.getElem?_map, List.getElem?_range hj]
          simp only [Option.map_some, Option.getD_some, hbuf j hj]
          split_ifs <;> first | rfl | omega

/-- **A clear that worked** leaves the RAM blank, which is what `sent` says. -/
theorem ssd1306Clear_mirror {st st' : Display} {inp : PassInput}
    (h : ssd1306Clear st inp = (false, st')) {w : Window} {c : Config} (hw : w.Fits c) :
    st'.sentValid = true ∧ Mirror st'.ctl st'.sent w := by
  unfold ssd1306Clear at h
  cases ho : inp.clearWindow with
  | some left =>
      rw [ho] at h
      simp [ssd1306SetWindow, i2cWrite] at h
  | none =>
      rw [ho, ssd1306SetWindow_ok st.ctl (by decide) (by decide)] at h
      simp only [Bool.false_eq_true, if_false, Prod.mk.injEq] at h
      obtain ⟨hr, rfl⟩ := h
      generalize hcp : clearPages inp (List.range (ramRows / 8)) _ = r at hr
      obtain ⟨err, ctl', buf'⟩ := r
      simp only at hr
      subst hr
      rw [List.range_eq_range'] at hcp
      have hcells := clearPages_spec
        (fun i hi => by
          have hin : 1 ≤ 1 + i ∧ 1 + i ≤ ramCols := by omega
          simp only [writeColumns, if_pos hin])
        (ramRows / 8) (k := 0) (Nat.zero_add _) ⟨rfl, rfl, rfl, rfl⟩ (fun _ => ⟨rfl, rfl⟩) hcp
      refine ⟨rfl, ?_, fun pg hpg k hk _ => hcells pg hpg k hk⟩
      intro pg hpg k hk
      have hpages := hw.pages.2
      have hcols := hw.cols
      exact hcells pg (by omega) (w.col + k) (by omega)

/-! ### The changed columns -/

theorem firstChanged_spec (same : ℕ → Bool) (n first : ℕ) :
    first ≤ firstChanged same n first ∧ firstChanged same n first ≤ first + n ∧
      (∀ c, first ≤ c → c < firstChanged same n first → same c = true) ∧
      (firstChanged same n first < first + n → same (firstChanged same n first) = false) := by
  induction n generalizing first with
  | zero =>
      unfold firstChanged
      exact ⟨le_rfl, le_rfl, fun c h1 h2 => by omega, fun h => by omega⟩
  | succ n ih =>
      unfold firstChanged
      cases hs : same first with
      | false =>
          simp only [Bool.false_eq_true, if_false]
          exact ⟨le_rfl, by omega, fun c h1 h2 => by omega, fun _ => hs⟩
      | true =>
          simp only [if_true]
          obtain ⟨h1, h2, h3, h4⟩ := ih (first + 1)
          refine ⟨by omega, by omega, ?_, fun hlt => h4 (by omega)⟩
          intro c hc hlt
          rcases Nat.eq_or_lt_of_le hc with rfl | hc
          · exact hs
          · exact h3 c hc hlt

theorem lastChanged_spec (same : ℕ → Bool) {first last : ℕ} (hle : first ≤ last)
    (hf : same first = false) :
    first ≤ lastChanged same last ∧ lastChanged same last ≤ last ∧
      ∀ c, lastChanged same last < c → c ≤ last → same c = true := by
  induction last with
  | zero =>
      unfold lastChanged
      exact ⟨by omega, le_rfl, fun c h1 h2 => by omega⟩
  | succ last ih =>
      unfold lastChanged
      cases hs : same (last + 1) with
      | false =>
          simp only [Bool.false_eq_true, if_false]
          exact ⟨hle, le_rfl, fun c h1 h2 => by omega⟩
      | true =>
          simp only [if_true]
          have hne : first ≠ last + 1 := by
            rintro rfl
            rw [hf] at hs
            cases hs
          obtain ⟨h1, h2, h3⟩ := ih (by omega)
          refine ⟨h1, by omega, ?_⟩
          intro c hlt hc
          rcases Nat.lt_or_ge last c with hc' | hc'
          · rw [show c = last + 1 by omega]
            exact hs
          · exact h3 c hlt hc'

/-! ### Pages -/

/-- The cells of the window's page `pg`. -/
def Window.Covers (w : Window) (pg i j : ℕ) : Prop :=
  i = pg ∧ w.col ≤ j ∧ j < w.col + w.cols

instance (w : Window) (pg i j : ℕ) : Decidable (w.Covers pg i j) :=
  inferInstanceAs (Decidable (_ ∧ _))

/-- Sending a stretch of columns changes exactly its cells, and notes them. -/
theorem sendColumns_spec {st st' : Display} {inp : PassInput} {pg first last : ℕ}
    (hle : first ≤ last) (hlast : st.win.col + last < ramCols) (hpg : pg < ramRows / 8)
    (h : sendColumns st inp pg first last = (false, st')) :
    st' = { st with ctl := st'.ctl, sent := st'.sent } ∧
      (∀ i j, st'.ctl.cell i j =
        if i = pg ∧ st.win.col + first ≤ j ∧ j ≤ st.win.col + last then
          st.pageBuf (1 + (j - st.win.col))
        else st.ctl.cell i j) ∧
      ∀ i c, st'.sent i c =
        if i = pg ∧ first ≤ c ∧ c ≤ last then st.pageBuf (1 + c) else st.sent i c := by
  unfold sendColumns at h
  cases hw : inp.flushWindow pg with
  | some left =>
      rw [hw] at h
      simp [ssd1306SetWindow, i2cWrite] at h
  | none =>
      have hset : ssd1306SetWindow st.ctl (st.win.col + first) (last - first + 1) pg 1 none = _ :=
        ssd1306SetWindow_ok st.ctl (by omega) (by omega)
      simp only [hw, hset, ssd1306WritePage_eq] at h
      cases hp : inp.flushPage pg with
      | some left =>
          rw [hp] at h
          simp at h
      | none =>
          rw [hp] at h
          simp only [Bool.false_eq_true, if_false, Prod.mk.injEq, true_and] at h
          subst h
          refine ⟨rfl, ?_, ?_⟩
          · intro i j
            have hcells := WindowRam.write_cell
              ((List.range (last - first + 1)).map fun i => st.pageBuf (first + 1 + i))
              (st.ctl.setWindow (st.win.col + first)
                (st.win.col + first + (last - first + 1) - 1) pg (pg + 1 - 1))
              (by
                rw [List.length_map, List.length_range]
                show st.win.col + first + (last - first + 1) ≤
                  st.win.col + first + (last - first + 1) - 1 + 1
                omega) i j
            rw [hcells]
            show (if i = pg ∧ st.win.col + first ≤ j then _ else st.ctl.cell i j) = _
            by_cases hin : i = pg ∧ st.win.col + first ≤ j ∧ j ≤ st.win.col + last
            · rw [if_pos ⟨hin.1, hin.2.1⟩, if_pos hin, List.getElem?_map,
                List.getElem?_range (by show j - (st.win.col + first) < _; omega)]
              simp only [Option.map_some, Option.getD_some]
              congr 1
              show first + 1 + (j - (st.win.col + first)) = _
              omega
            · rw [if_neg hin]
              split_ifs with hin'
              · rw [List.getElem?_map, List.getElem?_eq_none]
                · rfl
                · rw [List.length_range]
                  show _ ≤ j - (st.win.col + first)
                  omega
              · rfl
          · intro i c
            show Function.update st.sent pg _ i c = _
            by_cases hi : i = pg
            · subst hi
              rw [Function.update_self]
              simp only [true_and]
              have hiff : (first ≤ c ∧ c < first + (last - first + 1)) ↔ first ≤ c ∧ c ≤ last := by
                omega
              simp only [hiff]
            · rw [Function.update_of_ne hi, if_neg (fun hc => hi hc.1)]

/-- **One page of a flush.**  Whether it was sent whole, in part or not at all, the window's
cells of the page are what was built, and so is `sent`. -/
theorem flushOne_spec {st st' : Display} {inp : PassInput} {pg : ℕ} (hcols : 0 < st.win.cols)
    (hwin : st.win.col + st.win.cols ≤ ramCols) (hpg : pg < ramRows / 8)
    (hsent : st.sentValid = true → ∀ c < st.win.cols,
      st.ctl.cell pg (st.win.col + c) = st.sent pg c)
    (h : flushOne st inp pg = (false, st')) :
    st' = { buildInto st inp pg with ctl := st'.ctl, sent := st'.sent } ∧
      (∀ i j, st'.ctl.cell i j =
        if st.win.Covers pg i j then st'.built i (j - st.win.col) else st.ctl.cell i j) ∧
      ∀ i, ∀ c < st.win.cols, st'.sent i c = if i = pg then st'.built i c else st.sent i c := by
  have hbuilt : ∀ c, (buildInto st inp pg).built pg c = (buildInto st inp pg).pageBuf (1 + c) := by
    intro c
    unfold buildInto
    cases inp.source pg <;> simp only [Function.update_self]
  have hkeep : (buildInto st inp pg).ctl = st.ctl ∧ (buildInto st inp pg).sent = st.sent ∧
      (buildInto st inp pg).win = st.win ∧ (buildInto st inp pg).sentValid = st.sentValid := by
    unfold buildInto
    cases inp.source pg <;> exact ⟨rfl, rfl, rfl, rfl⟩
  unfold flushOne at h
  generalize hb : buildInto st inp pg = b at *
  obtain ⟨hctl, hsnt, hw, hv⟩ := hkeep
  rw [← hw] at hcols hwin ⊢
  rw [← hctl, ← hsnt, ← hv, ← hw] at hsent
  rw [← hctl, ← hsnt]
  clear hctl hsnt hw hv hb
  simp only at h
  -- what is left unsent around `first .. last` is the same as what was sent before
  have hsend : ∀ first last, first ≤ last → last < b.win.cols →
      (∀ c < b.win.cols, ¬ (first ≤ c ∧ c ≤ last) →
        b.sentValid = true ∧ b.pageBuf (1 + c) = b.sent pg c) →
      sendColumns b inp pg first last = (false, st') →
      st' = { b with ctl := st'.ctl, sent := st'.sent } ∧
        (∀ i j, st'.ctl.cell i j =
          if b.win.Covers pg i j then st'.built i (j - b.win.col) else b.ctl.cell i j) ∧
        ∀ i, ∀ c < b.win.cols, st'.sent i c = if i = pg then st'.built i c else b.sent i c := by
    intro first last hle hlt hrest hs
    obtain ⟨heq, hcell, hnote⟩ := sendColumns_spec hle (by omega) hpg hs
    have hbuilt' : ∀ c, st'.built pg c = b.pageBuf (1 + c) := by
      intro c
      rw [heq]
      exact hbuilt c
    refine ⟨heq, ?_, ?_⟩
    · intro i j
      rw [hcell]
      by_cases hcov : b.win.Covers pg i j
      · obtain ⟨rfl, h1, h2⟩ := hcov
        rw [if_pos (show b.win.Covers i i j from ⟨rfl, h1, h2⟩), hbuilt']
        by_cases hin : first ≤ j - b.win.col ∧ j - b.win.col ≤ last
        · rw [if_pos ⟨rfl, by omega, by omega⟩]
        · rw [if_neg (fun hin' => hin (by omega))]
          obtain ⟨hv, hsame⟩ := hrest (j - b.win.col) (by omega) hin
          rw [hsame, ← hsent hv (j - b.win.col) (by omega)]
          congr 1
          omega
      · rw [if_neg hcov, if_neg]
        rintro ⟨rfl, h1, h2⟩
        exact hcov ⟨rfl, by omega, by omega⟩
    · intro i c hc
      rw [hnote]
      by_cases hi : i = pg
      · subst hi
        rw [if_pos rfl, hbuilt']
        split_ifs with hin
        · rfl
        · exact (hrest c hc (fun hin' => hin ⟨rfl, hin'⟩)).2.symm
      · rw [if_neg hi, if_neg (fun hin => hi hin.1)]
  split_ifs at h with hv hall
  · obtain ⟨-, hle, hbefore, -⟩ := firstChanged_spec
      (fun c => decide (b.pageBuf (1 + c) = b.sent pg c)) b.win.cols 0
    rw [hall] at hbefore
    simp only [Prod.mk.injEq, true_and] at h
    subst h
    have hsame : ∀ c < b.win.cols, b.pageBuf (1 + c) = b.sent pg c :=
      fun c hc => of_decide_eq_true (hbefore c (Nat.zero_le c) hc)
    refine ⟨rfl, ?_, ?_⟩
    · intro i j
      split_ifs with hcov
      · obtain ⟨rfl, h1, h2⟩ := hcov
        rw [hbuilt, hsame (j - b.win.col) (by omega), ← hsent hv (j - b.win.col) (by omega)]
        congr 1
        omega
      · rfl
    · intro i c hc
      split_ifs with hi
      · rw [hi, hbuilt, hsame c hc]
      · rfl
  · obtain ⟨-, hle, hbefore, hat⟩ := firstChanged_spec
      (fun c => decide (b.pageBuf (1 + c) = b.sent pg c)) b.win.cols 0
    generalize firstChanged (fun c => decide (b.pageBuf (1 + c) = b.sent pg c)) b.win.cols 0 =
      first at h hall hle hbefore hat
    have hlast : first ≤ b.win.cols - 1 := by omega
    obtain ⟨h1, h2, hafter⟩ := lastChanged_spec
      (fun c => decide (b.pageBuf (1 + c) = b.sent pg c)) hlast (hat (by omega))
    refine hsend first _ h1 (by omega) (fun c hc hout => ⟨hv, ?_⟩) h
    rcases Nat.lt_or_ge c first with hlt | hge
    · exact of_decide_eq_true (hbefore c (Nat.zero_le c) hlt)
    · exact of_decide_eq_true (hafter c (by omega) (by omega))
  · exact hsend 0 _ (Nat.zero_le _) (by omega) (fun c hc hout => absurd hout (by omega)) h

/-- `buildInto` touches the table, the page buffer and the page's `built`. -/
theorem buildInto_frame (st : Display) (inp : PassInput) (pg : ℕ) :
    buildInto st inp pg = { st with
      fm := (buildInto st inp pg).fm
      pageBuf := (buildInto st inp pg).pageBuf
      built := (buildInto st inp pg).built } ∧
    ∀ q ≠ pg, (buildInto st inp pg).built q = st.built q := by
  unfold buildInto
  cases inp.source pg <;> exact ⟨rfl, fun q hq => Function.update_of_ne hq _ _⟩

theorem flushPages_cons {inp : PassInput} {pg : ℕ} {l : List ℕ} {st st' : Display} :
    flushPages inp (pg :: l) st = (false, st') ↔
      (flushOne st inp pg).1 = false ∧ flushPages inp l (flushOne st inp pg).2 = (false, st') := by
  rw [flushPages]
  by_cases he : (flushOne st inp pg).1 = true
  · simp [he, Prod.ext_iff]
  · simp [he]

/-- **The pages of a flush that did not fail**: each holds what was built for it, and `sent`
says so; the rest of the RAM is as it was. -/
theorem flushPages_spec {inp : PassInput} {l : List ℕ} (hl : ∀ pg ∈ l, pg < ramRows / 8)
    (hnd : l.Nodup) (st : Display) {st' : Display} (hcols : 0 < st.win.cols)
    (hwin : st.win.col + st.win.cols ≤ ramCols)
    (hsent : st.sentValid = true → ∀ pg ∈ l, ∀ c < st.win.cols,
      st.ctl.cell pg (st.win.col + c) = st.sent pg c)
    (h : flushPages inp l st = (false, st')) :
    st' = { st with
      ctl := st'.ctl, sent := st'.sent, fm := st'.fm, pageBuf := st'.pageBuf
      built := st'.built } ∧
    (∀ i j, st'.ctl.cell i j =
      if i ∈ l ∧ st.win.col ≤ j ∧ j < st.win.col + st.win.cols then
        st'.built i (j - st.win.col)
      else st.ctl.cell i j) ∧
    (∀ i, ∀ c < st.win.cols, st'.sent i c = if i ∈ l then st'.built i c else st.sent i c) ∧
    ∀ i ∉ l, st'.built i = st.built i := by
  induction l generalizing st with
  | nil =>
      cases h
      exact ⟨rfl, fun i j => by simp, fun i c _ => by simp, fun i _ => rfl⟩
  | cons pg l ih =>
      obtain ⟨hpl, hnd⟩ := List.nodup_cons.mp hnd
      obtain ⟨he, h⟩ := flushPages_cons.mp h
      generalize hst₁ : (flushOne st inp pg).2 = st₁ at h
      obtain ⟨heq, hcell, hsent₁⟩ := flushOne_spec hcols hwin (hl pg List.mem_cons_self)
        (fun hv c hc => hsent hv pg List.mem_cons_self c hc) (Prod.ext he hst₁)
      obtain ⟨hframe, hbuilt⟩ := buildInto_frame st inp pg
      have hfr : st₁ = { st with
          ctl := st₁.ctl, sent := st₁.sent, fm := st₁.fm, pageBuf := st₁.pageBuf
          built := st₁.built } := by
        rw [heq, hframe]
      have hw : st₁.win = st.win := by rw [hfr]
      have hv : st₁.sentValid = st.sentValid := by rw [hfr]
      have hb : ∀ q ≠ pg, st₁.built q = st.built q := by
        rw [heq]
        exact hbuilt
      obtain ⟨heq', hcell', hsent', hbuilt'⟩ := ih
        (fun q hq => hl q (List.mem_cons_of_mem pg hq)) hnd st₁ (by rw [hw]; exact hcols)
        (by rw [hw]; exact hwin)
        (fun hv' q hq c hc => by
          rw [hw] at hc ⊢
          have hne : q ≠ pg := fun hqp => hpl (hqp ▸ hq)
          rw [hcell, if_neg (fun hcov => hne hcov.1), hsent₁ q c hc, if_neg hne]
          exact hsent (hv ▸ hv') q (List.mem_cons_of_mem pg hq) c hc) h
      rw [hw] at hcell' hsent'
      have hpage : st'.built pg = st₁.built pg := hbuilt' pg hpl
      refine ⟨?_, ?_, ?_, ?_⟩
      · rw [heq', hfr]
      · intro i j
        rw [hcell', hcell]
        unfold Window.Covers
        by_cases hip : i = pg
        · subst hip
          simp only [hpl, false_and, if_false, List.mem_cons, true_or, true_and, hpage]
        · simp only [hip, false_and, if_false, List.mem_cons, false_or]
      · intro i c hc
        rw [hsent' i c hc, hsent₁ i c hc]
        by_cases hip : i = pg
        · subst hip
          simp only [hpl, if_false, List.mem_cons, true_or, if_true, hpage]
        · simp only [hip, if_false, List.mem_cons, false_or]
      · intro i hi
        rw [List.mem_cons, not_or] at hi
        rw [hbuilt' i hi.2, hb i hi.1]

/-- **A flush that did not fail**, whether it compared with `sent` or not. -/
theorem flushAll_spec (st : Display) {st' : Display} {inp : PassInput}
    (hfit : st.win.Fits st.config)
    (hsent : st.sentValid = true → Mirror st.ctl st.sent st.win)
    (h : flushAll st inp = (false, st')) :
    st' = { st with
      dirty := false, ctl := st'.ctl, sent := st'.sent, fm := st'.fm, pageBuf := st'.pageBuf
      built := st'.built } ∧
    (∀ i j, st'.ctl.cell i j =
      if i < st.win.pages ∧ st.win.col ≤ j ∧ j < st.win.col + st.win.cols then
        st'.built i (j - st.win.col)
      else st.ctl.cell i j) ∧
    ∀ i < st.win.pages, ∀ c < st.win.cols, st'.sent i c = st'.built i c := by
  unfold flushAll at h
  split_ifs at h with hcols
  · have hwin : st.win.col + st.win.cols ≤ ramCols := by
      have := hfit.cols
      omega
    have hpages : ∀ pg ∈ List.range st.win.pages, pg < ramRows / 8 :=
      fun pg hpg => lt_of_lt_of_le (List.mem_range.mp hpg) hfit.pages.2
    obtain ⟨heq, hcell, hnote, -⟩ := flushPages_spec hpages List.nodup_range
      { st with dirty := false } hcols hwin
      (fun hv pg hpg c hc => (hsent hv).inside pg (List.mem_range.mp hpg) c hc) h
    simp only [List.mem_range] at hcell hnote
    refine ⟨heq, hcell, ?_⟩
    intro i hi c hc
    rw [hnote i c hc, if_pos hi]
  · cases h
    exact ⟨rfl, fun i j => by rw [if_neg (by omega)], fun i _ c hc => absurd hc (by omega)⟩

/-- The state a flush builds its pages from. -/
structure SameFrame (st st' : Display) : Prop where
  config : st.config = st'.config
  win : st.win = st'.win
  fm : st.fm = st'.fm
  pageBuf : st.pageBuf = st'.pageBuf
  built : st.built = st'.built

theorem SameFrame.buildInto {st st' : Display} (hs : SameFrame st st') {inp inp' : PassInput}
    (hsrc : inp.source = inp'.source) (pg : ℕ) :
    SameFrame (buildInto st inp pg) (buildInto st' inp' pg) := by
  obtain ⟨h1, h2, h3, h4, h5⟩ := hs
  unfold Oled.buildInto
  rw [hsrc]
  cases inp'.source pg with
  | none =>
      simp only
      exact ⟨h1, h2, h3, by rw [h2, h4], by rw [h2, h4, h5]⟩
  | some f =>
      obtain ⟨nc, fb, phase⟩ := f
      simp only
      exact ⟨h1, h2, by rw [h1, h3], by rw [h1, h2, h3, h4], by rw [h1, h2, h3, h4, h5]⟩

theorem sendColumns_frame (st : Display) (inp : PassInput) (pg first last : ℕ) :
    SameFrame (sendColumns st inp pg first last).2 st := by
  have hbuf : ∀ (ctl : Controller) (len : ℕ),
      (ssd1306WritePage st.pageBuf ctl first len (inp.flushPage pg)).2.2 = st.pageBuf := by
    intro ctl len
    rw [ssd1306WritePage_eq]
    cases inp.flushPage pg <;> rfl
  unfold sendColumns
  simp only [hbuf]
  split_ifs <;> exact ⟨rfl, rfl, rfl, rfl, rfl⟩

theorem flushOne_frame (st : Display) (inp : PassInput) (pg : ℕ) :
    SameFrame (flushOne st inp pg).2 (buildInto st inp pg) := by
  unfold flushOne
  simp only
  split_ifs
  · exact ⟨rfl, rfl, rfl, rfl, rfl⟩
  · exact sendColumns_frame _ _ _ _ _
  · exact sendColumns_frame _ _ _ _ _

/-- What is built does not depend on what was sent before. -/
theorem flushPages_frame {inp inp' : PassInput} (hsrc : inp.source = inp'.source) (l : List ℕ)
    {st st' u u' : Display} (hs : SameFrame st u) (h : flushPages inp l st = (false, st'))
    (h' : flushPages inp' l u = (false, u')) : SameFrame st' u' := by
  induction l generalizing st u with
  | nil =>
      cases h
      cases h'
      exact hs
  | cons pg l ih =>
      have h := (flushPages_cons.mp h).2
      have h' := (flushPages_cons.mp h').2
      have h1 := flushOne_frame st inp pg
      have h2 := flushOne_frame u inp' pg
      have hb := hs.buildInto hsrc pg
      have hnext : SameFrame (flushOne st inp pg).2 (flushOne u inp' pg).2 :=
        ⟨h1.config.trans (hb.config.trans h2.config.symm),
          h1.win.trans (hb.win.trans h2.win.symm), h1.fm.trans (hb.fm.trans h2.fm.symm),
          h1.pageBuf.trans (hb.pageBuf.trans h2.pageBuf.symm),
          h1.built.trans (hb.built.trans h2.built.symm)⟩
      exact ih hnext h h'

theorem flushAll_frame {inp inp' : PassInput} (hsrc : inp.source = inp'.source)
    {st st' u u' : Display} (hs : SameFrame st u) (h : flushAll st inp = (false, st'))
    (h' : flushAll u inp' = (false, u')) : SameFrame st' u' := by
  have hframe : SameFrame { st with dirty := false } { u with dirty := false } :=
    ⟨hs.config, hs.win, hs.fm, hs.pageBuf, hs.built⟩
  have hpages : flushPages inp' (if 0 < st.win.cols then List.range st.win.pages else [])
      { u with dirty := false } = (false, u') := by
    rw [hs.win]
    exact h'
  exact flushPages_frame hsrc _ hframe h hpages

/-! ### The loop -/

/-- The invariant at the top of the loop. -/
structure Synced (st : Display) : Prop where
  fits : st.win.Fits st.config
  mirror : st.initialized = true → st.sentValid = true ∧ Mirror st.ctl st.sent st.win

theorem synced_boot (ctl : Controller) (generation : BitVec 32) :
    Synced (.boot ctl generation) :=
  ⟨⟨Or.inl rfl, ⟨rfl, Nat.zero_le _⟩, Or.inl rfl⟩, fun h => by cases h⟩

theorem configure_synced {st : Display} {inp : PassInput} (h : Synced st) :
    Synced (configure st inp) := by
  unfold configure
  by_cases hgen : st.oledGeneration = st.generation
  · rw [if_pos hgen]
    exact h
  · rw [if_neg hgen]
    simp only
    split
    · exact ⟨h.fits, fun hi => by cases hi⟩
    · next config hread =>
      have hok := oledConfigRead_ok hread
      split
      · next hfind =>
        obtain ⟨s, hs, hw, hh⟩ := hok.size
        have hnone := List.find?_eq_none.mp hfind s hs
        simp [hw, hh] at hnone
      · exact ⟨window_fits hok _, fun hi => by cases hi⟩

/-- The status probe, when it failed, left the RAM as it was. -/
def DisplayEvent.ProbeKeeps : DisplayEvent → Prop
  | pass inp => ∀ lost, inp.probe = .failed lost → lost = none
  | _ => True

theorem probe_after {inp : PassInput} (hp : (DisplayEvent.pass inp).ProbeKeeps)
    (ctl : Controller) : inp.probe.after ctl = ctl := by
  unfold DisplayEvent.ProbeKeeps at hp
  unfold StatusRead.after
  split
  · rfl
  · next lost hlost =>
    rw [hp lost hlost]
    rfl

theorem panelSetup_keeps (st : Display) (size : Size) (inp : PassInput) :
    (panelSetup st size inp).2.win = st.win ∧ (panelSetup st size inp).2.config = st.config := by
  unfold panelSetup
  simp only
  split_ifs <;> exact ⟨rfl, rfl⟩

/-- **A setup that worked** leaves the RAM blank, and `sent` saying so. -/
theorem panelSetup_mirror {st : Display} {size : Size} {inp : PassInput}
    (hp : (DisplayEvent.pass inp).ProbeKeeps) (hfit : st.win.Fits st.config)
    (h : (panelSetup st size inp).1 = false) :
    (panelSetup st size inp).2.sentValid = true ∧
      Mirror (panelSetup st size inp).2.ctl (panelSetup st size inp).2.sent st.win := by
  unfold panelSetup at h ⊢
  simp only at h ⊢
  split_ifs at h ⊢ with hi hc
  have hclear := ssd1306Clear_mirror (Prod.ext (Bool.eq_false_of_not_eq_true hc) rfl) hfit
  exact ⟨hclear.1, by rw [probe_after hp]; exact hclear.2⟩

theorem setup_synced {st : Display} {inp : PassInput} (hp : (DisplayEvent.pass inp).ProbeKeeps)
    (h : Synced st) : Synced (setup st inp) := by
  unfold setup
  split
  · exact h
  · next size _ =>
    split_ifs
    · obtain ⟨hw, hc⟩ := panelSetup_keeps st size inp
      refine ⟨by rw [hw, hc]; exact h.fits, ?_⟩
      intro hi
      rw [hw]
      exact panelSetup_mirror hp h.fits (by simpa using hi)
    · exact h

theorem healthCheck_synced {st : Display} {inp : PassInput} (h : Synced st) :
    Synced (healthCheck st inp).2 := by
  unfold healthCheck
  by_cases hdue : (st.initialized && st.statusCheck && decide (st.nextCheck ≤ inp.now)) = true
  · rw [if_pos hdue]
    cases hc : inp.check with
    | byte status =>
        simp only
        split_ifs
        · exact ⟨h.fits, h.mirror⟩
        · exact ⟨h.fits, fun hi => by cases hi⟩
    | failed lost => exact ⟨h.fits, fun hi => by cases hi⟩
  · rw [if_neg hdue]
    exact h

theorem beforeFlush_synced {st : Display} {inp : PassInput}
    (hp : (DisplayEvent.pass inp).ProbeKeeps) (h : Synced st) : Synced (beforeFlush st inp).2 :=
  healthCheck_synced (setup_synced hp (configure_synced h))

/-- A flush keeps the window, failed or not. -/
theorem flushPages_keeps (inp : PassInput) (l : List ℕ) (st : Display) :
    (flushPages inp l st).2.win = st.win ∧ (flushPages inp l st).2.config = st.config := by
  induction l generalizing st with
  | nil => exact ⟨rfl, rfl⟩
  | cons pg l ih =>
      have hone := flushOne_frame st inp pg
      have hbuild := (buildInto_frame st inp pg).1
      have hw : (flushOne st inp pg).2.win = st.win := by rw [hone.win, hbuild]
      have hc : (flushOne st inp pg).2.config = st.config := by rw [hone.config, hbuild]
      unfold flushPages
      simp only
      split_ifs
      · exact ⟨hw, hc⟩
      · rw [(ih _).1, (ih _).2]
        exact ⟨hw, hc⟩

theorem flush_synced {st : Display} {inp : PassInput} (h : Synced st)
    (hi : st.initialized = true) : Synced (flush st inp) := by
  obtain ⟨hv, hm⟩ := h.mirror hi
  obtain ⟨hw, hc⟩ : (flushAll st inp).2.win = st.win ∧ (flushAll st inp).2.config = st.config :=
    flushPages_keeps inp _ { st with dirty := false }
  have hfits : (flushAll st inp).2.win.Fits (flushAll st inp).2.config := by
    rw [hw, hc]
    exact h.fits
  unfold flush
  by_cases herr : (flushAll st inp).1 = true
  · rw [if_pos herr]
    exact ⟨hfits, fun hi' => by cases hi'⟩
  · rw [if_neg herr]
    refine ⟨hfits, ?_⟩
    intro _
    obtain ⟨heq, hcell, hnote⟩ := flushAll_spec _ h.fits (fun _ => hm)
      (Prod.ext (Bool.eq_false_of_not_eq_true herr) rfl)
    have hv' : (flushAll st inp).2.sentValid = true :=
      (congrArg Display.sentValid heq).trans hv
    refine ⟨?_, ?_, ?_⟩
    · simp only [hv', ite_self]
    · intro pg hpg c hc
      simp only [hw] at hpg hc ⊢
      rw [hcell, if_pos ⟨hpg, by omega, by omega⟩, hnote pg hpg c hc, Nat.add_sub_cancel_left]
    · intro pg hpg k hk hout
      simp only [hw] at hout ⊢
      rw [hcell, if_neg hout]
      exact hm.outside pg hpg k hk hout

/-- What a pass that gets to its flush finds. -/
theorem beforeFlush_initialized {st st' : Display} {inp : PassInput}
    (h : beforeFlush st inp = (true, st')) : st'.initialized = true := by
  unfold beforeFlush at h
  simp only [Prod.mk.injEq, Bool.and_eq_true] at h
  obtain ⟨⟨⟨-, hi⟩, -⟩, rfl⟩ := h
  exact hi

theorem displayPass_synced {st : Display} {inp : PassInput}
    (hp : (DisplayEvent.pass inp).ProbeKeeps) (h : Synced st) : Synced (displayPass st inp) := by
  have hb := beforeFlush_synced hp h
  unfold displayPass
  simp only
  split_ifs with hflush
  · exact flush_synced hb (beforeFlush_initialized (Prod.ext hflush rfl))
  · exact hb

/-- A pass over an empty store, before there is a frame, with every transfer going through. -/
def firstPass (probe : StatusRead) : PassInput where
  now := 0
  store := .empty
  saved := 0
  off := none
  init := fun _ => none
  clearWindow := none
  clearPage := fun _ => none
  probe := probe
  check := .byte 0
  source := fun _ => none
  flushWindow := fun _ => none
  flushPage := fun _ => none

/-- A controller whose RAM is `byte` all over. -/
def filledWith (byte : UInt8) : Controller := ⟨fun _ _ => byte, 0, 0, 0, 0, 0, 0⟩

/-- A pass that finds every pixel of a frame set. -/
def framePass : PassInput :=
  { firstPass (.byte 0) with
    source := fun _ => some (⟨128, 64, 1, ⟨true, 0, 0, 1, 1⟩, .zero⟩, fun _ => 0xFF, 0) }

/-- **Differential flushing equals a full resend.**  After any run in which no status probe
of a setup loses RAM, a panel that is initialized holds `sent` in its window and is blank
outside it.  A flush that does not fail leaves in every page of the window what was built for
it, and the RAM that a flush sending every page whole would have left. -/
theorem display_flush (ctl : Controller) (generation : BitVec 32) {events : List DisplayEvent}
    {st : Display} (h : Run (Guarded DisplayStep fun _ e => e.ProbeKeeps) (.boot ctl generation)
      events st) :
    (st.initialized = true → st.sentValid = true ∧ Mirror st.ctl st.sent st.win) ∧
    ∀ inp : PassInput, (DisplayEvent.pass inp).ProbeKeeps →
      ∀ st₁ st₂, beforeFlush st inp = (true, st₁) → flushAll st₁ inp = (false, st₂) →
        (∀ pg < st₁.win.pages, ∀ c < st₁.win.cols,
          (displayPass st inp).ctl.cell pg (st₁.win.col + c) =
            (displayPass st inp).built pg c) ∧
        ∀ (inp' : PassInput) (whole : Display), inp'.source = inp.source →
          flushAll { st₁ with sentValid := false } inp' = (false, whole) →
          (displayPass st inp).ctl.cell = whole.ctl.cell := by
  have hsync : Synced st := h.invariant (I := Synced)
    (fun s e t hs hr => by
      obtain ⟨hp, rfl⟩ := hr
      cases e with
      | oledSet => exact ⟨hs.fits, hs.mirror⟩
      | submit => exact ⟨hs.fits, hs.mirror⟩
      | pass inp => exact displayPass_synced hp hs)
    (synced_boot ctl generation)
  refine ⟨hsync.mirror, ?_⟩
  intro inp hp st₁ st₂ hbefore hflush
  have hs₁ : Synced st₁ := by
    have := beforeFlush_synced hp hsync
    rwa [hbefore] at this
  obtain ⟨hv, hm⟩ := hs₁.mirror (beforeFlush_initialized hbefore)
  have hpass : (displayPass st inp).ctl = st₂.ctl ∧ (displayPass st inp).built = st₂.built := by
    unfold displayPass flush
    simp only [hbefore, hflush, if_true, Bool.false_eq_true, if_false, and_self]
  obtain ⟨-, hcell, -⟩ := flushAll_spec st₁ hs₁.fits (fun _ => hm) hflush
  rw [hpass.1, hpass.2]
  constructor
  · intro pg hpg c hc
    rw [hcell, if_pos ⟨hpg, by omega, by omega⟩, Nat.add_sub_cancel_left]
  · intro inp' whole hsrc hwhole
    obtain ⟨-, hcell', -⟩ := flushAll_spec { st₁ with sentValid := false } hs₁.fits
      (fun hv' => by cases hv') hwhole
    have hsame : SameFrame st₁ { st₁ with sentValid := false } := ⟨rfl, rfl, rfl, rfl, rfl⟩
    have hbuilt := (flushAll_frame hsrc.symm hsame hflush hwhole).built
    funext i j
    rw [hcell, hcell', hbuilt]

/-- The task after its first pass, with a frame submitted. -/
def submitted : Display :=
  DisplayEvent.submit.apply (displayPass (.boot (filledWith 0xFF) 0) (firstPass (.byte 0)))

theorem display_flush_frame :
    (displayPass submitted framePass).ctl.cell 7 127 =
      (displayPass submitted framePass).built 7 127 := by
  have hrun : Run (Guarded DisplayStep fun _ e => e.ProbeKeeps) (.boot (filledWith 0xFF) 0)
      ([] ++ [.pass (firstPass (.byte 0))] ++ [.submit]) submitted :=
    .snoc (.snoc (.nil _) ⟨fun _ h => (nomatch h), rfl⟩) ⟨trivial, rfl⟩
  have hbefore : (beforeFlush submitted framePass).1 = true := by decide
  have hflush : (flushAll (beforeFlush submitted framePass).2 framePass).1 = false := by decide
  have hwin : (beforeFlush submitted framePass).2.win = ⟨0, 128, 0, 8⟩ := by decide
  have hpage := ((display_flush (filledWith 0xFF) 0 hrun).2 framePass (fun _ h => nomatch h)
    (beforeFlush submitted framePass).2 _ (Prod.ext hbefore rfl) (Prod.ext hflush rfl)).1 7
  simp only [hwin, Nat.zero_add] at hpage
  exact hpage (by decide) 127 (by decide)

theorem probe_loses_ram :
    ¬ ∀ (ctl : Controller) (generation : BitVec 32) (events : List DisplayEvent) (st : Display),
      Run DisplayStep (.boot ctl generation) events st → st.initialized = true →
        st.oledGeneration = st.generation →
          st.sentValid = true ∧ Mirror st.ctl st.sent st.win := by
  intro h
  have hrun : Run DisplayStep (.boot (filledWith 0) 0)
      ([] ++ [.pass (firstPass (.failed (some (filledWith 0xFF))))])
      (displayPass (.boot (filledWith 0) 0) (firstPass (.failed (some (filledWith 0xFF))))) :=
    .snoc (.nil _) rfl
  have hcell := (h _ _ _ _ hrun (by decide) (by decide)).2.inside 0 (by decide) 0 (by decide)
  revert hcell
  decide

end NodemFirmware.Oled
