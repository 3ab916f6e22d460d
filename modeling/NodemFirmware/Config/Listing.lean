import NodemFirmware.Lib.Checked
import NodemFirmware.Lib.Lines
import NodemFirmware.Config.Store

/-! # Listing the config store

`config_list` on the buffer it is given: `buf_len` bytes whose stores fail outside of them, the
offset and the remainder `buf_len - off` as 32-bit `size_t`s that wrap, and `snprintf`'s return
value as an `int`, compared with the remainder after a cast.  Every call of `snprintf` is
recorded with the offset and the remainder it was given.

An entry's strings lie in arrays of the table (`inArrays_of_changes`), so a line is far shorter
than an `int` goes.  Then the calls are those of the loop over lists in `Config.Store`
(`configListLoop_refines`), which lists whole lines (`listLoop_lists`). -/

namespace NodemFirmware.ConfigStore

open CText Checked

abbrev SizeT := BitVec 32

/-- `INT_MAX`. -/
def intMax : ℕ := 2 ^ 31 - 1

/-! ### The calls -/

/-- `snprintf(&buf[off], room, ...)` of the text `s`: the buffer it leaves, with what fits `room`
bytes and a NUL, and what it returns, the length of the whole text if that is an `int`. -/
def snprintf (buf : Buffer UInt8) (off room : SizeT) (s : CStr) : Option (ℤ × Buffer UInt8) := do
  let out := clip room.toNat s ++ [0]
  let buf ← if room = 0 then some buf
    else each out.length (fun k buf => buf.store (off.toNat + k : ℕ) (out.getD k 0)) buf
  some (if s.length ≤ intMax then (s.length : ℤ) else -1, buf)

/-- The offset and the room a call of `snprintf` is given. -/
structure Call where
  off : SizeT
  room : SizeT
deriving DecidableEq, Repr

/-- Where `config_list` stands: the buffer, the offset and the calls so far. -/
structure Listing where
  buf : Buffer UInt8
  off : SizeT
  calls : List Call

/-- The loop of `config_list` over the slots that are left. -/
def configListLoop (bufLen : SizeT) : List (Option Entry) → Listing → Option Listing
  | [], l => some l
  | none :: slots, l => configListLoop bufLen slots l
  | some e :: slots, l => do
      let room := bufLen - l.off
      let (n, buf) ← snprintf l.buf l.off room e.line
      let calls := l.calls ++ [⟨l.off, room⟩]
      if n < 0 ∨ room ≤ BitVec.ofInt 32 n then some ⟨buf, l.off, calls⟩
      else configListLoop bufLen slots ⟨buf, l.off + BitVec.ofInt 32 n, calls⟩

/-- `config_list(buf, bufLen)`. -/
def configListInto (t : Table) (buf : Buffer UInt8) (bufLen : SizeT) : Option Listing :=
  configListLoop bufLen t.slots ⟨buf, 0, []⟩

/-- The used entries, in slot order. -/
def Table.used (t : Table) : List Entry := t.slots.filterMap id

/-! ### The entries' arrays -/

/-- The strings fit `key` and `value.str`. -/
def Entry.InArrays (e : Entry) : Prop :=
  e.key.length ≤ maxKeyLen ∧ e.value.asStr.length ≤ maxStrLen

instance (e : Entry) : Decidable e.InArrays := inferInstanceAs (Decidable (_ ∧ _))

def Table.InArrays (t : Table) : Prop := ∀ e, some e ∈ t.slots → e.InArrays

theorem clip_length_le (n : ℕ) (s : CStr) : (clip (n + 1) s).length ≤ n :=
  (List.length_take_le n s)

namespace Table.InArrays

variable {t : Table}

theorem empty : Table.empty.InArrays := by
  intro e he
  cases List.eq_of_mem_replicate he

theorem set (h : t.InArrays) (i : ℕ) {e : Entry} (he : e.InArrays) : (t.set i e).InArrays := by
  intro e' hmem
  rcases List.mem_or_eq_of_mem_set hmem with hold | hnew
  · exact h e' hold
  · rw [Option.some.inj hnew]
    exact he

theorem setValue (h : t.InArrays) (i : ℕ) {v : Value} (hv : v.asStr.length ≤ maxStrLen) :
    (t.setValue i v).InArrays := by
  unfold Table.setValue
  split
  · next e he => exact h.set i ⟨(h e (List.mem_of_getElem? he)).1, hv⟩
  · exact h

/-- Claiming a slot clips the key to its array. -/
theorem findEntry (h : t.InArrays) {key : CStr} {type : EntryType} {create : Bool} {i : ℕ}
    {t' : Table} (hf : findEntry t key type create = some (i, t')) : t'.InArrays := by
  unfold ConfigStore.findEntry at hf
  split at hf
  · cases hf
    exact h
  · next j _ =>
    split_ifs at hf
    cases hf
    refine h.set i ⟨clip_length_le _ _, ?_⟩
    cases type <;> exact Nat.zero_le _
  · cases hf

theorem configSet {st : Store} (h : st.entries.InArrays) (key : CStr) {v : Value}
    (hv : v.asStr.length ≤ maxStrLen) (err : ℤ) : (configSet st key v err).2.entries.InArrays := by
  unfold ConfigStore.configSet
  split
  · exact h
  · next i t hf => exact (h.findEntry hf).setValue i hv

theorem settingsSet (h : t.InArrays) (name : CStr) (read : Except ℤ (List UInt8)) :
    (settingsSet t name read).2.InArrays := by
  have hstr (data : List UInt8) :
      (Value.str (ofBytes (data.take maxStrLen))).asStr.length ≤ maxStrLen :=
    (List.takeWhile_prefix _).length_le.trans (List.length_take_le _ _)
  unfold ConfigStore.settingsSet
  split
  · split
    · exact h
    · split
      · exact h
      · next i t' hf => exact (h.findEntry hf).setValue i (hstr _)
  · split
    · split
      · exact h
      · split_ifs
        · exact h
        · split
          · exact h
          · next i t' hf => exact (h.findEntry hf).setValue i (Nat.zero_le _)
    · exact h

theorem reboot (st : Store) (order : List CStr) : (reboot st order).entries.InArrays := by
  suffices h : ∀ t : Table, t.InArrays → (order.foldl (loadOne st.flash) t).InArrays from
    h _ empty
  induction order with
  | nil => exact fun t h => h
  | cons name order ih =>
      intro t h
      refine ih _ ?_
      unfold loadOne
      split
      · exact h.settingsSet _ _
      · exact h

theorem configSetStr {st : Store} (h : st.entries.InArrays) (key val : CStr) (err : ℤ) :
    (configSetStr st key val err).2.entries.InArrays := by
  unfold ConfigStore.configSetStr
  split_ifs
  · exact h
  · exact h.configSet key (clip_length_le _ _) err

theorem configSetI32 {st : Store} (h : st.entries.InArrays) (key : CStr) (val : BitVec 32)
    (err : ℤ) : (configSetI32 st key val err).2.entries.InArrays := by
  unfold ConfigStore.configSetI32
  split_ifs
  · exact h
  · exact h.configSet key (Nat.zero_le _) err

end Table.InArrays

/-- What happens to the store: a call, however saving goes, or a reset. -/
inductive Change (st : Store) : Store → Prop where
  | setStr (key val : CStr) (err : ℤ) : Change st (configSetStr st key val err).2
  | setI32 (key : CStr) (val : BitVec 32) (err : ℤ) : Change st (configSetI32 st key val err).2
  | reboot (order : List CStr) : Change st (reboot st order)

/-- **The strings are in their arrays** in every store there can be. -/
theorem inArrays_of_changes {st : Store} (h : Relation.ReflTransGen Change Store.empty st) :
    st.entries.InArrays := by
  induction h with
  | refl => exact Table.InArrays.empty
  | tail _ hchange ih =>
      cases hchange with
      | setStr key val err => exact ih.configSetStr key val err
      | setI32 key val err => exact ih.configSetI32 key val err
      | reboot order => exact Table.InArrays.reboot _ order

/-- A line is no longer than an `int` goes. -/
theorem Entry.InArrays.line_length_le {e : Entry} (h : e.InArrays) : e.line.length ≤ intMax := by
  obtain ⟨key, value⟩ := e
  obtain ⟨hkey, hval⟩ := h
  have heq : (cs "=").length = 1 := rfl
  have hend : (cs "\r\n").length = 2 := rfl
  simp only [maxKeyLen, maxStrLen, intMax] at hkey hval ⊢
  cases value with
  | str s =>
      simp only [Value.asStr] at hval
      simp only [Entry.line, List.length_append]
      omega
  | i32 v =>
      have hlt : v.toInt.natAbs < 10 ^ 10 := by
        have hupper := BitVec.toInt_lt (x := v)
        have hlower := BitVec.le_toInt (x := v)
        norm_num at hupper hlower ⊢
        omega
      have hv := fmtD_length_le (by decide) hlt
      simp only [Entry.line, List.length_append]
      omega

/-! ### The loop over lists -/

/-- A call with room returns the length of the text and has written what the loop over lists
writes, inside of the buffer. -/
theorem snprintf_returns {buf : Buffer UInt8} {off room : SizeT} {s : CStr} (hroom : 0 < room.toNat)
    (hin : off.toNat + room.toNat ≤ buf.size) (hs : s.length ≤ intMax) :
    Returns (snprintf buf off room s) fun r => r.1 = s.length ∧ r.2.size = buf.size ∧
      r.2.toList = snprintfAt buf.toList off.toNat room.toNat s := by
  have hne : room ≠ 0 := by
    rintro rfl
    exact absurd hroom (Nat.lt_irrefl 0)
  have hlen : (clip room.toNat s ++ [0]).length ≤ room.toNat := by
    rw [List.length_append, List.length_singleton, clip, List.length_take]
    omega
  unfold snprintf
  simp only [if_neg hne, if_pos hs]
  have hfits : off.toNat + (clip room.toNat s ++ [0]).length ≤ buf.size := by omega
  refine (each_fills (o := off.toNat) (v := fun k => (clip room.toNat s ++ [0]).getD k 0)
    hfits fun k _ _ => rfl).bind ?_
  rintro buf' ⟨hsize, hfill, hrest⟩
  refine .some ⟨rfl, hsize, ?_⟩
  rw [Buffer.toList_fills (by omega) hsize ?_ hrest, snprintfAt, if_neg (by omega)]
  · simp only [List.append_assoc, List.singleton_append, List.length_append, List.length_singleton,
      Nat.add_assoc]
  · intro k hk
    rw [hfill k hk, List.getD_eq_getElem?_getD, List.getElem?_eq_getElem hk]
    rfl

/-- A remainder that does not wrap. -/
theorem toNat_room {bufLen off : SizeT} (h : off.toNat < bufLen.toNat) :
    (bufLen - off).toNat = bufLen.toNat - off.toNat := by
  rw [BitVec.toNat_sub_of_le]
  exact BitVec.le_def.mpr h.le

theorem toNat_len {n : ℕ} (h : n ≤ intMax) : (BitVec.ofInt 32 n).toNat = n := by
  unfold intMax at h
  rw [BitVec.ofInt_natCast, BitVec.toNat_ofNat]
  exact Nat.mod_eq_of_lt (by omega)

/-- A call's remainder is what is left of the buffer, and not nothing. -/
def Call.InBuffer (bufLen : SizeT) (c : Call) : Prop :=
  c.off.toNat + c.room.toNat = bufLen.toNat ∧ 0 < c.room.toNat

/-- What `config_list` has in every pass: the buffer it was given, an offset below its length, and
only calls with room. -/
structure Listing.InBuffer (bufLen : SizeT) (l : Listing) : Prop where
  size : l.buf.size = bufLen.toNat
  off : l.off.toNat < bufLen.toNat
  calls : ∀ c ∈ l.calls, c.InBuffer bufLen

/-- **The loop stays in the buffer** and leaves what the loop over lists leaves. -/
theorem configListLoop_refines {bufLen : SizeT} {slots : List (Option Entry)}
    (harrays : ∀ e, some e ∈ slots → e.InArrays) {l : Listing} (hl : l.InBuffer bufLen) :
    Returns (configListLoop bufLen slots l) fun l' => l'.InBuffer bufLen ∧
      (l'.buf.toList, l'.off.toNat) = listLoop bufLen.toNat slots l.buf.toList l.off.toNat := by
  induction slots generalizing l with
  | nil => exact .some ⟨hl, rfl⟩
  | cons o slots ih =>
      have ih' := @ih fun e he => harrays e (List.mem_cons_of_mem o he)
      cases o with
      | none => exact ih' hl
      | some e =>
          have hline := (harrays e List.mem_cons_self).line_length_le
          have hoff := hl.off
          have hroom := toNat_room hoff
          have hcalls : ∀ c ∈ l.calls ++ [⟨l.off, bufLen - l.off⟩], c.InBuffer bufLen := by
            intro c hc
            rcases List.mem_append.mp hc with hold | hnew
            · exact hl.calls c hold
            · rw [List.mem_singleton.mp hnew]
              unfold Call.InBuffer
              simp only [hroom]
              omega
          unfold configListLoop listLoop
          refine (snprintf_returns (by omega) (by rw [hl.size]; omega) hline).bind ?_
          rintro ⟨n, buf⟩ ⟨hn, hsize, hbuf⟩
          simp only at hn hsize hbuf
          have hcast : (BitVec.ofInt 32 n).toNat = e.line.length := by rw [hn, toNat_len hline]
          have hstop : (n < 0 ∨ bufLen - l.off ≤ BitVec.ofInt 32 n) ↔
              bufLen.toNat - l.off.toNat ≤ e.line.length := by
            rw [BitVec.le_def, hcast, hroom, hn]
            omega
          rw [hroom] at hbuf
          simp only [hstop]
          split_ifs with hfull
          · exact .some ⟨⟨hsize.trans hl.size, hoff, hcalls⟩, by rw [hbuf]⟩
          · have hnext : (l.off + BitVec.ofInt 32 n).toNat = l.off.toNat + e.line.length := by
              have hlt := bufLen.isLt
              rw [BitVec.toNat_add, hcast]
              exact Nat.mod_eq_of_lt (by omega)
            rw [← hbuf, ← hnext]
            exact ih' ⟨hsize.trans hl.size, by rw [hnext]; omega, hcalls⟩

/-! ### Whole lines -/

theorem length_snprintfAt {buf : List UInt8} {off room : ℕ} (s : CStr) (hroom : 0 < room)
    (hin : off + room ≤ buf.length) :
    (snprintfAt buf off room s).length = buf.length := by
  have hclip : (clip room s).length ≤ room - 1 := List.length_take_le _ _
  rw [snprintfAt, if_neg (by omega)]
  simp only [List.length_append, List.length_take, List.length_cons, List.length_drop]
  omega

/-- A call whose text fits leaves it after what was there, to be followed by more. -/
theorem take_snprintfAt {buf : List UInt8} {off room : ℕ} {s : CStr} (hs : s.length < room)
    (hoff : off ≤ buf.length) :
    (snprintfAt buf off room s).take (off + s.length) = buf.take off ++ s := by
  rw [snprintfAt, if_neg (by omega), clip_of_lt hs]
  refine List.take_left' ?_
  rw [List.length_append, List.length_take]
  omega

/-- A call leaves what is before its offset. -/
theorem take_snprintfAt_of_le {buf : List UInt8} {off room n : ℕ} (s : CStr) (hn : n ≤ off)
    (hoff : off ≤ buf.length) : (snprintfAt buf off room s).take n = buf.take n := by
  unfold snprintfAt
  split_ifs
  · rfl
  · rw [List.append_assoc, List.take_append_of_le_length (by rw [List.length_take]; omega),
      List.take_take, min_eq_left hn]

/-- **The loop lists whole lines**: after what was there, those of the used entries that fit. -/
theorem listLoop_lists {bufLen : ℕ} (slots : List (Option Entry)) {buf : List UInt8} {off : ℕ}
    (hlen : buf.length = bufLen) (hoff : off < bufLen) :
    let es := Lines.fitting Entry.line (bufLen - off) (slots.filterMap id)
    (listLoop bufLen slots buf off).2 = off + (es.flatMap Entry.line).length ∧
      (listLoop bufLen slots buf off).1.take (off + (es.flatMap Entry.line).length) =
        buf.take off ++ es.flatMap Entry.line := by
  induction slots generalizing buf off with
  | nil => simp [listLoop, Lines.fitting]
  | cons o slots ih =>
      cases o with
      | none => exact ih hlen hoff
      | some e =>
          have hsize : (snprintfAt buf off (bufLen - off) e.line).length = buf.length :=
            length_snprintfAt e.line (by omega) (by omega)
          simp only [listLoop, List.filterMap_cons, id_eq, Lines.fitting]
          by_cases hfull : bufLen - off ≤ e.line.length
          · rw [if_pos hfull, if_neg (by omega)]
            simp only [List.flatMap_nil, List.length_nil, Nat.add_zero, List.append_nil, true_and]
            exact take_snprintfAt_of_le _ le_rfl (by omega)
          · have hfit : e.line.length < bufLen - off := by omega
            have hin : off ≤ buf.length := by omega
            obtain ⟨hcount, htake⟩ := ih (hsize.trans hlen) (show off + e.line.length < bufLen by
              omega)
            rw [if_neg hfull, if_pos hfit, List.flatMap_cons, List.length_append, ← Nat.add_assoc,
              Nat.sub_sub]
            refine ⟨hcount, htake.trans ?_⟩
            rw [take_snprintfAt hfit hin, List.append_assoc]
            rfl

/-- What the offset `config_list` returns delimits: the lines of the longest prefix of the used
entries that leave room for a NUL, `es`. -/
structure Lists (t : Table) (bufLen : ℕ) (es : List Entry) (l : Listing) : Prop where
  isPrefix : es <+: t.used
  fits : (es.flatMap Entry.line).length < bufLen
  longest : ∀ p, p <+: t.used → (p.flatMap Entry.line).length < bufLen → p <+: es
  count : l.off.toNat = (es.flatMap Entry.line).length
  text : l.buf.toList.take l.off.toNat = es.flatMap Entry.line

/-- **`config_list` lists whole lines** into any buffer of a byte or more: no store goes past its
end, no call's remainder wraps or is nothing, and what it counts is the lines of the longest
prefix of the used entries that fit. -/
theorem config_list_whole_lines (t : Table) (ht : t.InArrays) (buf : Buffer UInt8) (bufLen : SizeT)
    (hsize : buf.size = bufLen.toNat) (hpos : 1 ≤ bufLen.toNat) :
    Returns (configListInto t buf bufLen) fun l =>
      l.InBuffer bufLen ∧ ∃ es, Lists t bufLen.toNat es l := by
  have hstart : (⟨buf, 0, []⟩ : Listing).InBuffer bufLen :=
    ⟨hsize, hpos, fun _ hc => nomatch hc⟩
  refine (configListLoop_refines ht hstart).mono ?_
  rintro l ⟨hin, heq⟩
  obtain ⟨hbuf, hoff⟩ := Prod.mk.inj heq
  have hlen : buf.toList.length = bufLen.toNat := by rw [Buffer.toList_length, hsize]
  obtain ⟨hcount, htake⟩ := listLoop_lists t.slots hlen hpos
  have hroom : 0 < bufLen.toNat := hpos
  simp only [show BitVec.toNat (0 : SizeT) = 0 from rfl] at hbuf hoff
  simp only [Nat.sub_zero, Nat.zero_add, List.take_zero, List.nil_append] at hcount htake
  refine ⟨hin, Lines.fitting Entry.line bufLen.toNat t.used, ?_, ?_, ?_, hoff.trans hcount, ?_⟩
  · exact Lines.fitting_isPrefix _ _ _
  · exact Lines.fitting_length_lt _ hroom _
  · exact fun p hp hfits => (Lines.length_flatMap_lt_iff _ hroom hp).mp hfits
  · rw [hoff, hcount, hbuf]
    exact htake

/-- Two entries with a free slot between them, and lines of five bytes. -/
def twoEntries : Table :=
  (Table.empty.set 0 ⟨cs "a", .str (cs "b")⟩).set 2 ⟨cs "c", .str (cs "d")⟩

theorem twoEntries_inArrays : twoEntries.InArrays :=
  (Table.InArrays.empty.set 0 (by decide)).set 2 (by decide)

/-- The second line does not go into ten bytes: there is no room for its NUL. -/
theorem config_list_whole_lines_ten :
    Returns (configListInto twoEntries ⟨10, fun _ => 0⟩ 10) fun l =>
      l.InBuffer 10 ∧ ∃ es, Lists twoEntries 10 es l :=
  config_list_whole_lines twoEntries twoEntries_inArrays ⟨10, fun _ => 0⟩ 10 rfl (by decide)

example : (configListInto twoEntries ⟨10, fun _ => 0⟩ 10).map (·.off) = some 5 := by decide

example : (configListInto twoEntries ⟨11, fun _ => 0⟩ 11).map (·.off) = some 10 := by decide

end NodemFirmware.ConfigStore
