import NodemFirmware.Lib.Calls
import NodemFirmware.Config.Durable

/-! # What a program keeps in the config store

A `Schema` is a program's use of the store: the keys, no more than the table has slots, and what is
stored under each.  `Store.Sound` says that the table and flash hold nothing else.

* A set that follows the schema is never refused, keeps the store sound and leaves the other keys
  (`Store.Sound.configSet`), whatever saving it returns.
* A reset keeps it sound whichever of the saved keys it loads, in whatever order
  (`Store.Sound.reboot`), and those it loads read as they were saved (`Store.Sound.lookup_reboot`).

`StoreOp` are the store's functions as calls of a shared object. -/

namespace NodemFirmware.ConfigStore

open CText

/-- The keys a program uses and the values it stores under them. -/
structure Schema where
  keys : List Key
  length_keys : keys.length ≤ maxEntries
  Ok : Key → Value → Prop
  validKey : ∀ k ∈ keys, ValidKey k.2
  type : ∀ k v, Ok k v → v.type = k.1
  valid : ∀ k v, Ok k v → v.Valid

variable (S : Schema)

/-- The entries are the schema's, one for a key. -/
structure Table.Sound (t : Table) : Prop where
  entry : ∀ k e, t.lookup k = some e → k ∈ S.keys ∧ S.Ok k e.value
  distinct : SlotTable.Distinct Entry.id t.slots

/-- So is what is saved. -/
structure Store.Sound (st : Store) : Prop where
  table : st.entries.Sound S
  flash : ∀ name b, st.flash name = some b →
    ∃ k ∈ S.keys, ∃ v, S.Ok k v ∧ name = fullKey k ∧ b = v.bytes

variable {S}

namespace Table.Sound

variable {t t' : Table}

theorem empty : Table.empty.Sound S where
  entry k e h := by
    rw [show Table.empty.lookup k = none from SlotTable.lookup_replicate_none _ k] at h
    cases h
  distinct := SlotTable.distinct_replicate_none _

/-- **There is room** for every key of the schema. -/
theorem room (h : t.Sound S) {k : Key} (hk : k ∈ S.keys) (hnew : t.lookup k = none) :
    SlotTable.freeSlot t.slots ≠ none := by
  intro hfull
  rw [SlotTable.freeSlot_eq_none Entry.id, t.length_slots] at hfull
  have hsub : k :: SlotTable.stored Entry.id t.slots ⊆ S.keys := by
    intro k' hmem
    rcases List.mem_cons.mp hmem with rfl | hstored
    · exact hk
    · obtain ⟨e, he⟩ := SlotTable.mem_stored_iff.mp hstored
      exact (h.entry k' e he).1
  have hout : k ∉ SlotTable.stored Entry.id t.slots := by
    intro hmem
    obtain ⟨e, he⟩ := SlotTable.mem_stored_iff.mp hmem
    rw [Table.lookup, he] at hnew
    cases hnew
  have hle := ((List.nodup_cons.mpr ⟨hout, h.distinct⟩).subperm hsub).length_le
  have hkeys := S.length_keys
  rw [List.length_cons] at hle
  omega

theorem put_isSome (h : t.Sound S) {key : CStr} {v : Value} (hk : (v.type, key) ∈ S.keys) :
    ∃ t', put t ⟨key, v⟩ = some t' := by
  rw [← Option.ne_none_iff_exists']
  intro hnone
  obtain ⟨hnew, hfull⟩ := (put_eq_none (e := ⟨key, v⟩) (S.validKey _ hk).length_le).mp hnone
  exact h.room hk hnew hfull

theorem put (h : t.Sound S) {key : CStr} {v : Value} (hk : (v.type, key) ∈ S.keys)
    (hv : S.Ok (v.type, key) v) (hput : ConfigStore.put t ⟨key, v⟩ = some t') : t'.Sound S where
  entry k e he := by
    rw [lookup_put (e := ⟨key, v⟩) (S.validKey _ hk).length_le hput] at he
    split_ifs at he with hid
    · cases he
      rw [← hid]
      exact ⟨hk, hv⟩
    · exact h.entry k e he
  distinct := distinct_put (e := ⟨key, v⟩) (S.validKey _ hk).length_le hput h.distinct

end Table.Sound

/-- What a set of a key returned and left: the value in the table, and in flash if it was saved. -/
structure SetTo (st : Store) (key : CStr) (v : Value) (err : ℤ) (r : ℤ × Store) : Prop where
  result : r.1 = err
  lookup : ∀ k, r.2.entries.lookup k =
    if (v.type, key) = k then some ⟨key, v⟩ else st.entries.lookup k
  flash : r.2.flash = if err = 0
    then fun name => if name = fullKey (v.type, key) then some v.bytes else st.flash name
    else st.flash

namespace Store.Sound

variable {st : Store}

theorem empty : Store.empty.Sound S where
  table := .empty
  flash _ _ h := nomatch h

/-- **A set of the schema's** is not refused, and keeps the store sound. -/
theorem configSet (h : st.Sound S) {key : CStr} {v : Value} (hk : (v.type, key) ∈ S.keys)
    (hv : S.Ok (v.type, key) v) (err : ℤ) :
    SetTo st key v err (configSet st key v err) ∧ (configSet st key v err).2.Sound S := by
  obtain ⟨t, hput⟩ := h.table.put_isSome hk
  have hlen := (S.validKey _ hk).length_le
  rw [configSet_eq, hput]
  refine ⟨⟨rfl, fun k => lookup_put (e := ⟨key, v⟩) hlen hput k, rfl⟩, h.table.put hk hv hput, ?_⟩
  intro name b hb
  simp only at hb
  split_ifs at hb with herr
  · simp only at hb
    split_ifs at hb with hname
    · cases hb
      exact ⟨_, hk, v, hv, hname, rfl⟩
    · exact h.flash name b hb
  · exact h.flash name b hb

theorem configSetStr (h : st.Sound S) {key val : CStr} (hk : (.str, key) ∈ S.keys)
    (hv : S.Ok (.str, key) (.str val)) (err : ℤ) :
    SetTo st key (.str val) err (configSetStr st key val err) ∧
      (configSetStr st key val err).2.Sound S := by
  rw [configSetStr_eq (S.validKey _ hk) (S.valid _ _ hv)]
  exact h.configSet (v := .str val) hk hv err

theorem configSetI32 (h : st.Sound S) {key : CStr} {val : BitVec 32} (hk : (.i32, key) ∈ S.keys)
    (hv : S.Ok (.i32, key) (.i32 val)) (err : ℤ) :
    SetTo st key (.i32 val) err (configSetI32 st key val err) ∧
      (configSetI32 st key val err).2.Sound S := by
  rw [configSetI32_eq (S.validKey _ hk)]
  exact h.configSet (v := .i32 val) hk hv err

/-- A saved key that is loaded. -/
theorem loadOne (h : st.Sound S) {t : Table} (ht : t.Sound S) (name : CStr) :
    (loadOne st.flash t name).Sound S := by
  cases hname : st.flash name with
  | none =>
      unfold ConfigStore.loadOne
      rw [hname]
      split
      · next heq => cases heq
      · exact ht
  | some b =>
      obtain ⟨k, hk, v, hv, rfl, rfl⟩ := h.flash name b hname
      have htype := S.type k v hv
      have hk' : (v.type, k.2) = k := Prod.ext htype rfl
      rw [← hk'] at hname hk hv ⊢
      rw [loadOne_eq (S.validKey _ hk) (S.valid _ _ hv) hname]
      obtain ⟨t', hput⟩ := ht.put_isSome hk
      rw [hput]
      exact ht.put hk hv hput

/-- **A reset** keeps the store sound, whichever saved keys are read back. -/
theorem reboot (h : st.Sound S) (order : List CStr) : (reboot st order).Sound S := by
  refine ⟨?_, h.flash⟩
  suffices hall : ∀ t : Table, t.Sound S →
      (order.foldl (ConfigStore.loadOne st.flash) t).Sound S from hall _ .empty
  induction order with
  | nil => exact fun t ht => ht
  | cons name order ih => exact fun t ht => ih _ (h.loadOne ht name)

/-- What loading a name does to a key that is saved. -/
theorem lookup_loadOne (h : st.Sound S) {t : Table} (ht : t.Sound S) {k : Key} {v : Value}
    (hk : k ∈ S.keys) (hv : S.Ok k v) (hsaved : st.flash (fullKey k) = some v.bytes)
    (name : CStr) : (ConfigStore.loadOne st.flash t name).lookup k =
      if name = fullKey k then some ⟨k.2, v⟩ else t.lookup k := by
  -- a saved name is a key's, whose value is put
  have hput : ∀ {k' : Key} {v' : Value}, k' ∈ S.keys → S.Ok k' v' →
      st.flash (fullKey k') = some v'.bytes →
      (ConfigStore.loadOne st.flash t (fullKey k')).lookup k =
        if k' = k then some ⟨k'.2, v'⟩ else t.lookup k := by
    intro k' v' hk' hv' hsaved'
    have hid : (v'.type, k'.2) = k' := Prod.ext (S.type k' v' hv') rfl
    have hmem : (v'.type, k'.2) ∈ S.keys := by rw [hid]; exact hk'
    have hbytes : st.flash (fullKey (v'.type, k'.2)) = some v'.bytes := by rw [hid]; exact hsaved'
    obtain ⟨t', ht'⟩ := ht.put_isSome hmem
    have hload := loadOne_eq (t := t) (S.validKey k' hk') (S.valid k' v' hv') hbytes
    rw [hid, ht', Option.getD_some] at hload
    rw [hload, lookup_put (e := ⟨k'.2, v'⟩) (S.validKey k' hk').length_le ht' k]
    unfold Entry.id
    rw [hid]
  by_cases hname : name = fullKey k
  · rw [if_pos hname, hname, hput hk hv hsaved, if_pos rfl]
  · rw [if_neg hname]
    cases hflash : st.flash name with
    | none =>
        unfold ConfigStore.loadOne
        rw [hflash]
        split
        · next heq => cases heq
        · rfl
    | some b =>
        obtain ⟨k', hk', v', hv', rfl, rfl⟩ := h.flash name b hflash
        rw [hput hk' hv' hflash, if_neg]
        rintro rfl
        exact hname rfl

/-- **A saved key is read back** by a reset that loads it. -/
theorem lookup_reboot (h : st.Sound S) {k : Key} {v : Value} (hk : k ∈ S.keys) (hv : S.Ok k v)
    (hsaved : st.flash (fullKey k) = some v.bytes) {order : List CStr} (hmem : fullKey k ∈ order) :
    (ConfigStore.reboot st order).entries.lookup k = some ⟨k.2, v⟩ := by
  suffices hall : ∀ (order : List CStr) (t : Table), t.Sound S →
      (t.lookup k = some ⟨k.2, v⟩ ∨ fullKey k ∈ order) →
        (order.foldl (ConfigStore.loadOne st.flash) t).lookup k = some ⟨k.2, v⟩ from
    hall order _ .empty (.inr hmem)
  intro order
  induction order with
  | nil => exact fun t ht hk' => hk'.resolve_right fun hmem => by cases hmem
  | cons name order ih =>
      intro t ht hk'
      refine ih _ (h.loadOne ht name) ?_
      rw [h.lookup_loadOne ht hk hv hsaved]
      by_cases hname : name = fullKey k
      · exact .inl (if_pos hname)
      · rw [if_neg hname]
        exact hk'.imp id fun hmem => (List.mem_cons.mp hmem).resolve_left (Ne.symm hname)

/-- What reading a string gives: one of the schema's, or the default. -/
theorem configGetStr (h : st.Sound S) (key : CStr) (bufLen : ℕ) (d : CStr) :
    (st.entries.lookup (.str, key) = none ∧ configGetStr st.entries key bufLen d = clip bufLen d) ∨
      ∃ s, st.entries.lookup (.str, key) = some ⟨key, .str s⟩ ∧ (.str, key) ∈ S.keys ∧
        S.Ok (.str, key) (.str s) ∧ configGetStr st.entries key bufLen d = clip bufLen s := by
  unfold ConfigStore.configGetStr
  rw [entryAt_findEntry]
  cases hl : st.entries.lookup (.str, key) with
  | none => exact .inl ⟨rfl, rfl⟩
  | some e =>
      obtain ⟨hk, hv⟩ := h.table.entry _ e hl
      have hid : e.id = (.str, key) := SlotTable.lookup_key hl
      obtain ⟨ekey, value⟩ := e
      simp only [Entry.id, Prod.mk.injEq] at hid
      obtain ⟨htype, rfl⟩ := hid
      cases value with
      | i32 n => cases htype
      | str s => exact .inr ⟨s, rfl, hk, hv, rfl⟩

end Store.Sound

/-! ### Calls -/

/-- The store's functions, as other modules call them. -/
inductive StoreOp where
  | getStr (key : CStr) (bufLen : ℕ) (defaultVal : CStr)
  | getI32 (key : CStr) (defaultVal : BitVec 32)
  | setStr (key val : CStr)
  | setI32 (key : CStr) (val : BitVec 32)
  | list (bufLen : ℕ)
deriving DecidableEq, Repr

/-- What they return; `config_list` the bytes it counts. -/
def StoreOp.Res : StoreOp → Type
  | getStr _ _ _ => CStr
  | getI32 _ _ => BitVec 32
  | setStr _ _ => ℤ
  | setI32 _ _ => ℤ
  | list _ => List UInt8

/-- One of them; `err` is what saving returns, in those that save. -/
def StoreOp.exec (err : ℤ) (op : StoreOp) (st : Store) : op.Res × Store :=
  match op with
  | getStr key bufLen d => (configGetStr st.entries key bufLen d, st)
  | getI32 key d => (configGetI32 st.entries key d, st)
  | setStr key val => configSetStr st key val err
  | setI32 key val => configSetI32 st key val err
  | list bufLen =>
      let (buf, n) := configList st.entries (List.replicate bufLen 0)
      (buf.take n, st)

/-- A set that follows the schema; a call that is none. -/
def StoreOp.Follows (S : Schema) : StoreOp → Prop
  | setStr key val => (.str, key) ∈ S.keys ∧ S.Ok (.str, key) (.str val)
  | setI32 key val => (.i32, key) ∈ S.keys ∧ S.Ok (.i32, key) (.i32 val)
  | _ => True

/-- **Calls that follow the schema** keep the store sound. -/
theorem StoreOp.Follows.sound {op : StoreOp} (hop : op.Follows S) {st : Store} (h : st.Sound S)
    (err : ℤ) : (op.exec err st).2.Sound S := by
  cases op with
  | getStr key bufLen d => exact h
  | getI32 key d => exact h
  | setStr key val => exact (h.configSetStr hop.1 hop.2 err).2
  | setI32 key val => exact (h.configSetI32 hop.1 hop.2 err).2
  | list bufLen => exact h

end NodemFirmware.ConfigStore
