import Mathlib.Data.Finmap
import NodemFirmware.Lib.Transition
import NodemFirmware.Config.Store

/-! # The config store is a durable map

What the store is for: a finite map from (type, key) to values with room for `maxEntries`
keys (`Contents`, updated by `insertBounded`), which survives resets.

`Refines st M` relates the slot table and flash to the map: every lookup agrees, no pair has
two slots, and flash holds exactly the bytes of the values, under the full keys.  Setting
refines `insertBounded` (`refines_set`), and a reset refines doing nothing, in whatever order
the saved keys are replayed (`refines_reboot`): the slots may end up permuted, the lookups
do not.  `Run.simulation` then carries the relation along any history. -/

namespace NodemFirmware.ConfigStore

open CText Transition

abbrev Key := EntryType × CStr

/-- The abstract store. -/
abbrev Contents := Finmap (fun _ : Key => Value)

/-- Setting `k`: nothing changes when `k` is new and there is no room for it. -/
def insertBounded (M : Contents) (k : Key) (v : Value) : Contents :=
  if k ∈ M ∨ M.keys.card < maxEntries then M.insert k v else M

/-- A key as callers use it: 1 to 15 characters, neither NUL nor `=`. -/
structure ValidKey (key : CStr) : Prop where
  ne_nil : key ≠ []
  length_le : key.length ≤ maxKeyLen
  no_nul : (0 : UInt8) ∉ key
  no_end : ('=' : UInt8) ∉ key

/-- A NUL-free string of at most 127 characters. -/
structure ValidStr (s : CStr) : Prop where
  length_le : s.length ≤ maxStrLen
  no_nul : (0 : UInt8) ∉ s

def Value.Valid : Value → Prop
  | .str s => ValidStr s
  | .i32 _ => True

/-- What happens to the store: a call, or a reset with the order its keys are replayed in. -/
inductive Op where
  | setStr (key val : CStr)
  | setI32 (key : CStr) (val : BitVec 32)
  | reboot (order : List CStr)

/-- The arguments are as callers pass them; a reset replays each saved key once. -/
def Op.Valid (st : Store) : Op → Prop
  | setStr key val => ValidKey key ∧ ValidStr val
  | setI32 key _ => ValidKey key
  | reboot order => order.Nodup ∧ ∀ name, name ∈ order ↔ (st.flash name).isSome

/-- The store after a call whose save succeeds, or after a reset. -/
def Op.apply (st : Store) : Op → Store
  | setStr key val => (configSetStr st key val 0).2
  | setI32 key val => (configSetI32 st key val 0).2
  | reboot order => ConfigStore.reboot st order

/-- The steps of a history. -/
def HistoryStep : Store → Op → Store → Prop :=
  Guarded (fun st op st' => st' = op.apply st) Op.Valid

/-- The map after an event. -/
def Op.next (M : Contents) : Op → Contents
  | setStr key val => insertBounded M (.str, key) (.str val)
  | setI32 key val => insertBounded M (.i32, key) (.i32 val)
  | reboot _ => M

/-- The store holds the map, in RAM and in flash. -/
structure Refines (st : Store) (M : Contents) : Prop where
  lookup : ∀ k, st.entries.lookup k = (M.lookup k).map (fun v => ⟨k.2, v⟩)
  distinct : SlotTable.Distinct Entry.id st.entries.slots
  flash : ∀ name b, st.flash name = some b ↔
    ∃ k v, M.lookup k = some v ∧ name = fullKey k ∧ b = v.bytes
  valid : ∀ k v, M.lookup k = some v → v.type = k.1 ∧ ValidKey k.2 ∧ v.Valid

/-! ### Full keys -/

theorem keyPrefix_length (type : EntryType) : (keyPrefix type).length = 6 := by
  cases type <;> rfl

theorem keyPrefix_inj {a b : EntryType} (h : keyPrefix a = keyPrefix b) : a = b := by
  cases a <;> cases b
  · rfl
  · exact absurd h (by decide)
  · exact absurd h (by decide)
  · rfl

theorem fullKey_eq {k : Key} (hk : k.2.length ≤ maxKeyLen) :
    fullKey k = keyPrefix k.1 ++ k.2 := by
  apply clip_of_lt
  rw [List.length_append, keyPrefix_length]
  simp only [maxKeyLen] at hk ⊢
  omega

theorem fullKey_inj {k k' : Key} (hk : k.2.length ≤ maxKeyLen) (hk' : k'.2.length ≤ maxKeyLen)
    (h : fullKey k = fullKey k') : k = k' := by
  rw [fullKey_eq hk, fullKey_eq hk'] at h
  obtain ⟨hp, hs⟩ := List.append_inj h ((keyPrefix_length _).trans (keyPrefix_length _).symm)
  exact Prod.ext (keyPrefix_inj hp) hs

/-! ### Room -/

namespace Refines

variable {st : Store} {M : Contents}

theorem mem_iff (h : Refines st M) (k : Key) :
    k ∈ SlotTable.stored Entry.id st.entries.slots ↔ k ∈ M := by
  rw [SlotTable.mem_stored_iff, Finmap.mem_iff]
  have := h.lookup k
  rw [Table.lookup] at this
  rw [this]
  constructor
  · rintro ⟨e, he⟩
    obtain ⟨v, hv, -⟩ := Option.map_eq_some_iff.mp he
    exact ⟨v, hv⟩
  · rintro ⟨v, hv⟩
    exact ⟨⟨k.2, v⟩, by rw [hv]; rfl⟩

/-- The occupied slots are as many as the keys of the map. -/
theorem card_keys (h : Refines st M) :
    M.keys.card = (SlotTable.stored Entry.id st.entries.slots).length := by
  rw [← SlotTable.card_stored h.distinct]
  congr 1
  ext k
  rw [Finmap.mem_keys, List.mem_toFinset, h.mem_iff]

theorem card_le (h : Refines st M) : M.keys.card ≤ maxEntries := by
  rw [h.card_keys, ← st.entries.length_slots]
  exact SlotTable.length_stored_le _ _

/-- There is no room for an entry exactly when its key is new and the map is full. -/
theorem put_eq_none (h : Refines st M) {e : Entry} (hk : e.key.length ≤ maxKeyLen) :
    put st.entries e = none ↔ ¬ (e.id ∈ M ∨ M.keys.card < maxEntries) := by
  have hle := h.card_le
  have hl : st.entries.lookup e.id = none ↔ e.id ∉ M := by
    rw [h.lookup, Option.map_eq_none_iff, Finmap.lookup_eq_none]
  rw [ConfigStore.put_eq_none hk, hl, SlotTable.freeSlot_eq_none Entry.id,
    st.entries.length_slots, ← h.card_keys, not_or]
  constructor
  · rintro ⟨h1, h2⟩
    exact ⟨h1, by omega⟩
  · rintro ⟨h1, h2⟩
    exact ⟨h1, by omega⟩

end Refines

theorem lookup_insert_ite (M : Contents) (k k' : Key) (v : Value) :
    (M.insert k v).lookup k' = if k = k' then some v else M.lookup k' := by
  by_cases h : k = k'
  · subst h
    rw [if_pos rfl, Finmap.lookup_insert]
  · rw [if_neg h, Finmap.lookup_insert_of_ne M (Ne.symm h)]

/-! ### Setting -/

/-- **Setting refines the bounded insertion**; it fails exactly when there is no room. -/
theorem refines_set {st : Store} {M : Contents} (h : Refines st M) {key : CStr} {v : Value}
    (hk : ValidKey key) (hv : v.Valid) :
    (configSet st key v 0).1 = (if (v.type, key) ∈ M ∨ M.keys.card < maxEntries then 0
      else -Errno.nomem) ∧
    Refines (configSet st key v 0).2 (insertBounded M (v.type, key) v) := by
  have hlen : (Entry.mk key v).key.length ≤ maxKeyLen := hk.length_le
  have hid : (Entry.mk key v).id = (v.type, key) := rfl
  have hroom := h.put_eq_none hlen
  rw [hid] at hroom
  rw [configSet_eq, insertBounded]
  cases hp : put st.entries ⟨key, v⟩ with
  | none =>
      have hfull := hroom.mp hp
      rw [if_neg hfull, if_neg hfull]
      exact ⟨rfl, h⟩
  | some t =>
      have hin : (v.type, key) ∈ M ∨ M.keys.card < maxEntries := by
        by_contra hfull
        rw [hroom.mpr hfull] at hp
        cases hp
      simp only [if_pos hin, if_true, true_and]
      refine ⟨?_, distinct_put hlen hp h.distinct, ?_, ?_⟩
      · intro k
        rw [lookup_put hlen hp k, hid, lookup_insert_ite, h.lookup]
        by_cases he : (v.type, key) = k
        · subst he
          rw [if_pos rfl, if_pos rfl]
          rfl
        · rw [if_neg he, if_neg he]
      · intro name b
        simp only [lookup_insert_ite]
        by_cases hn : name = fullKey (v.type, key)
        · rw [if_pos hn]
          constructor
          · intro hb
            exact ⟨(v.type, key), v, by rw [if_pos rfl], hn, (Option.some.inj hb).symm⟩
          · rintro ⟨k, v', hl, hnk, rfl⟩
            have hkl : k.2.length ≤ maxKeyLen := by
              split_ifs at hl with he
              · rw [← he]
                exact hk.length_le
              · exact (h.valid k v' hl).2.1.length_le
            rw [fullKey_inj (k := (v.type, key)) hk.length_le hkl (hn.symm.trans hnk),
              if_pos rfl] at hl
            exact congrArg _ (congrArg _ (Option.some.inj hl))
        · rw [if_neg hn, h.flash]
          constructor
          · rintro ⟨k, v', hl, hnk, hb⟩
            refine ⟨k, v', ?_, hnk, hb⟩
            rw [if_neg]
            · exact hl
            · rintro rfl
              exact hn hnk
          · rintro ⟨k, v', hl, hnk, hb⟩
            refine ⟨k, v', ?_, hnk, hb⟩
            rwa [if_neg] at hl
            rintro rfl
            exact hn hnk
      · intro k v' hk'
        rw [lookup_insert_ite] at hk'
        split_ifs at hk' with he
        · cases hk'
          rw [← he]
          exact ⟨rfl, hk, hv⟩
        · exact h.valid k v' hk'

theorem configSetStr_eq {st : Store} {key val : CStr} (hk : ValidKey key) (hv : ValidStr val)
    (err : ℤ) : configSetStr st key val err = configSet st key (.str val) err := by
  have h1 := hk.length_le
  have h2 := hv.length_le
  rw [configSetStr, if_neg (by omega), clip_of_lt (by omega)]

theorem configSetI32_eq {st : Store} {key : CStr} (hk : ValidKey key) (val : BitVec 32)
    (err : ℤ) : configSetI32 st key val err = configSet st key (.i32 val) err := by
  have h1 := hk.length_le
  rw [configSetI32, if_neg (by omega)]

/-! ### Loading -/

theorem i32OfBytes_i32Bytes (v : BitVec 32) : i32OfBytes (i32Bytes v) = v := by
  apply BitVec.eq_of_toNat_eq
  have hv := v.isLt
  have h4 : List.range 4 = [0, 1, 2, 3] := rfl
  simp only [i32OfBytes, i32Bytes, h4, List.map_cons, List.map_nil, List.foldr_cons,
    List.foldr_nil, BitVec.toNat_ofNat, UInt8.toNat_ofNat']
  norm_num
  omega

/-- A saved value read back through the handler is stored as it was. -/
theorem loadOne_eq {flash : Flash} {t : Table} {key : CStr} {v : Value} (hk : ValidKey key)
    (hv : v.Valid) (hf : flash (fullKey (v.type, key)) = some v.bytes) :
    loadOne flash t (fullKey (v.type, key)) = (put t ⟨key, v⟩).getD t := by
  cases v with
  | str s =>
      change flash (fullKey (.str, key)) = some (s ++ [0]) at hf
      change loadOne flash t (fullKey (.str, key)) = _
      have hcfg : settingsNameSteq (fullKey (.str, key)) (cs "cfg") =
          some (some (cs "s/" ++ key)) := by
        rw [fullKey_eq hk.length_le]
        rfl
      have hs : settingsNameSteq (cs "s/" ++ key) (cs "s") = some (some key) := rfl
      have hval : ofBytes ((s ++ [0]).take maxStrLen) = s := by
        have hl := hv.length_le
        rcases Nat.lt_or_ge s.length maxStrLen with hlt | hge
        · rw [List.take_of_length_le (by rw [List.length_append, List.length_singleton]; omega)]
          exact ofBytes_append_zero hv.no_nul []
        · rw [List.take_append_of_le_length hge, List.take_of_length_le hl]
          exact ofBytes_of_not_mem hv.no_nul
      rw [loadOne, hcfg, hf]
      simp only [settingsSet, hs, hval, put, Value.type]
      cases findEntry t key .str true <;> rfl
  | i32 v =>
      change flash (fullKey (.i32, key)) = some (i32Bytes v) at hf
      change loadOne flash t (fullKey (.i32, key)) = _
      have hcfg : settingsNameSteq (fullKey (.i32, key)) (cs "cfg") =
          some (some (cs "i/" ++ key)) := by
        rw [fullKey_eq hk.length_le]
        rfl
      have hs : settingsNameSteq (cs "i/" ++ key) (cs "s") = none := rfl
      have hi : settingsNameSteq (cs "i/" ++ key) (cs "i") = some (some key) := rfl
      have hlen : ((i32Bytes v).take 4) = i32Bytes v := List.take_of_length_le (by simp [i32Bytes])
      have h4 : (i32Bytes v).length = 4 := by simp [i32Bytes]
      rw [loadOne, hcfg, hf]
      simp only [settingsSet, hs, hi, hlen, h4, ne_eq, not_true_eq_false, if_false,
        i32OfBytes_i32Bytes, put, Value.type]
      cases findEntry t key .i32 true <;> rfl

/-- The table loaded from `names`: the entries whose keys were among them. -/
structure Loaded (M : Contents) (names : List CStr) (t : Table) : Prop where
  lookup : ∀ k, t.lookup k =
    if fullKey k ∈ names then (M.lookup k).map (fun v => ⟨k.2, v⟩) else none
  distinct : SlotTable.Distinct Entry.id t.slots

/-- Saved keys take one slot each. -/
theorem Loaded.length_stored_le {M : Contents} {names : List CStr} {t : Table}
    (h : Loaded M names t) (hvalid : ∀ k v, M.lookup k = some v → k.2.length ≤ maxKeyLen) :
    (SlotTable.stored Entry.id t.slots).length ≤ names.length := by
  have hstored : ∀ k ∈ SlotTable.stored Entry.id t.slots,
      k.2.length ≤ maxKeyLen ∧ fullKey k ∈ names := by
    intro k hk
    obtain ⟨e, he⟩ := SlotTable.mem_stored_iff.mp hk
    have hl := h.lookup k
    rw [Table.lookup, he] at hl
    split_ifs at hl with hmem
    obtain ⟨v, hv, -⟩ := Option.map_eq_some_iff.mp hl.symm
    exact ⟨hvalid k v hv, hmem⟩
  have hnd : ((SlotTable.stored Entry.id t.slots).map fullKey).Nodup := by
    apply List.Nodup.map_on _ h.distinct
    intro k hk k' hk' he
    exact fullKey_inj (hstored k hk).1 (hstored k' hk').1 he
  have hsub : (SlotTable.stored Entry.id t.slots).map fullKey ⊆ names := by
    intro name hname
    obtain ⟨k, hk, rfl⟩ := List.mem_map.mp hname
    exact (hstored k hk).2
  simpa using (hnd.subperm hsub).length_le

/-- **Replaying saved keys** fills the table with exactly their entries. -/
theorem loaded_foldl {st : Store} {M : Contents} (h : Refines st M) (names : List CStr)
    (hnd : names.Nodup) (hsaved : ∀ name ∈ names, (st.flash name).isSome)
    (hlen : names.length ≤ maxEntries) :
    Loaded M names (names.foldl (loadOne st.flash) Table.empty) := by
  have hkeys : ∀ k v, M.lookup k = some v → k.2.length ≤ maxKeyLen :=
    fun k v hl => (h.valid k v hl).2.1.length_le
  induction names using List.reverseRecOn with
  | nil => exact ⟨fun k => by simp [Table.empty, Table.lookup, SlotTable.lookup_replicate_none],
      SlotTable.distinct_replicate_none _⟩
  | append_singleton names name ih =>
      rw [List.length_append, List.length_singleton] at hlen
      have hnd' := List.nodup_append.mp hnd
      have hnew : name ∉ names := fun hm => hnd'.2.2 name hm name (by simp) rfl
      have hl := ih hnd'.1 (fun n hn => hsaved n (List.mem_append_left _ hn)) (by omega)
      obtain ⟨b, hb⟩ := Option.isSome_iff_exists.mp (hsaved name (by simp))
      obtain ⟨k₀, v, hv, rfl, rfl⟩ := (h.flash name b).mp hb
      obtain ⟨htype, hkey, hval⟩ := h.valid _ v hv
      have hk₀ : (v.type, k₀.2) = k₀ := Prod.ext htype rfl
      have hload := loadOne_eq (t := names.foldl (loadOne st.flash) Table.empty) hkey hval
        (by rw [hk₀]; exact hb)
      rw [hk₀] at hload
      rw [List.foldl_append, List.foldl_cons, List.foldl_nil, hload]
      -- the slots so far are fewer than the names, so there is one left for this key
      cases hp : put (names.foldl (loadOne st.flash) Table.empty) ⟨k₀.2, v⟩ with
      | none =>
          have hfull := ((put_eq_none (e := ⟨k₀.2, v⟩) hkey.length_le).mp hp).2
          have hle := hl.length_stored_le hkeys
          rw [SlotTable.freeSlot_eq_none Entry.id, Table.length_slots] at hfull
          omega
      | some t =>
          refine ⟨?_, distinct_put hkey.length_le hp hl.distinct⟩
          intro k
          have hid : (Entry.mk k₀.2 v).id = k₀ := hk₀
          rw [Option.getD_some, lookup_put (e := ⟨k₀.2, v⟩) hkey.length_le hp k, hl.lookup, hid]
          simp only [List.mem_append, List.mem_singleton]
          by_cases he : k₀ = k
          · subst he
            rw [if_pos rfl, if_pos (.inr rfl), hv]
            rfl
          · rw [if_neg he]
            cases hM : M.lookup k with
            | none => simp
            | some v' =>
                have hne : fullKey k ≠ fullKey k₀ := fun e =>
                  he (fullKey_inj (hkeys k v' hM) (hkeys _ v hv) e).symm
                simp [hne]

/-- **A reset refines doing nothing.** -/
theorem refines_reboot {st : Store} {M : Contents} (h : Refines st M) {order : List CStr}
    (hnd : order.Nodup) (horder : ∀ name, name ∈ order ↔ (st.flash name).isSome) :
    Refines (reboot st order) M := by
  have hlen : order.length ≤ maxEntries := by
    refine le_trans ?_ h.card_le
    rw [← List.toFinset_card_of_nodup hnd]
    refine le_trans (Finset.card_le_card ?_) (Finset.card_image_le (f := fullKey))
    intro name hname
    obtain ⟨b, hb⟩ := Option.isSome_iff_exists.mp ((horder name).mp (List.mem_toFinset.mp hname))
    obtain ⟨k, v, hv, rfl, -⟩ := (h.flash name b).mp hb
    exact Finset.mem_image_of_mem _ (Finmap.mem_keys.mpr (Finmap.mem_iff.mpr ⟨v, hv⟩))
  have hl := loaded_foldl h order hnd (fun name hm => (horder name).mp hm) hlen
  refine ⟨?_, hl.distinct, h.flash, h.valid⟩
  intro k
  rw [show (reboot st order).entries.lookup k = _ from hl.lookup k]
  cases hM : M.lookup k with
  | none => simp
  | some v =>
      rw [if_pos]
      rw [horder, (h.flash _ _).mpr ⟨k, v, hM, rfl, rfl⟩]
      rfl

/-! ### Histories -/

theorem refines_empty : Refines Store.empty ∅ where
  lookup k := SlotTable.lookup_replicate_none _ k
  distinct := SlotTable.distinct_replicate_none _
  flash name b := by simp [Store.empty]
  valid k v h := by simp at h

/-- Every event keeps the store holding the map. -/
theorem refines_step {st : Store} {op : Op} {st' : Store} {M : Contents} (h : Refines st M)
    (hs : HistoryStep st op st') : Refines st' (op.next M) := by
  obtain ⟨hv, rfl⟩ := hs
  cases op with
  | setStr key val =>
      rw [Op.apply, configSetStr_eq hv.1 hv.2]
      exact (refines_set (v := .str val) h hv.1 hv.2).2
  | setI32 key val =>
      have hk : ValidKey key := hv
      rw [Op.apply, configSetI32_eq hk]
      exact (refines_set (v := .i32 val) h hk trivial).2
  | reboot order => exact refines_reboot h hv.1 hv.2

theorem refines_run {ops : List Op} {st : Store} (h : Run HistoryStep Store.empty ops st) :
    Refines st (ops.foldl Op.next ∅) :=
  h.simulation Op.next Refines (fun _ _ _ _ hr hs => refines_step hr hs) refines_empty

/-- There is no room for a new key. -/
def Full (M : Contents) (k : Key) : Prop := k ∉ M ∧ M.keys.card = maxEntries

/-- What a set of `k` returned and left of the store, when the store held `M`. -/
structure SetOutcome (st : Store) (M : Contents) (k : Key) (r : ℤ × Store) : Prop where
  nomem : r.1 = -Errno.nomem ↔ Full M k
  ok : ¬ Full M k → r.1 = 0
  unchanged : Full M k → r.2 = st
  frame : ∀ k', k' ≠ k → r.2.entries.lookup k' = st.entries.lookup k'

/-- The store is the map, as its callers see it. -/
structure Durable (st : Store) (M : Contents) : Prop where
  getStr : ∀ key bufLen d, configGetStr st.entries key bufLen d =
    clip bufLen (((M.lookup (.str, key)).map Value.asStr).getD d)
  getI32 : ∀ key d, configGetI32 st.entries key d =
    ((M.lookup (.i32, key)).map Value.asI32).getD d
  setStr : ∀ key val, ValidKey key → ValidStr val →
    SetOutcome st M (.str, key) (configSetStr st key val 0)
  setI32 : ∀ key val, ValidKey key → SetOutcome st M (.i32, key) (configSetI32 st key val 0)

theorem setOutcome_of_refines {st : Store} {M : Contents} (h : Refines st M) {key : CStr}
    {v : Value} (hk : ValidKey key) (hv : v.Valid) :
    SetOutcome st M (v.type, key) (configSet st key v 0) := by
  obtain ⟨hret, href⟩ := refines_set h hk hv
  have hle := h.card_le
  have hfull : Full M (v.type, key) ↔ ¬ ((v.type, key) ∈ M ∨ M.keys.card < maxEntries) := by
    rw [Full, not_or]
    constructor
    · rintro ⟨h1, h2⟩
      exact ⟨h1, by omega⟩
    · rintro ⟨h1, h2⟩
      exact ⟨h1, by omega⟩
  refine ⟨?_, ?_, ?_, ?_⟩
  · rw [hret, hfull]
    split_ifs with hroom
    · simp [hroom, Errno.nomem]
    · simp [hroom]
  · intro hn
    rw [hret, if_pos (by rwa [hfull, not_not] at hn)]
  · intro hf
    rw [configSet_eq, (h.put_eq_none (e := ⟨key, v⟩) hk.length_le).mpr (hfull.mp hf)]
  · intro k' hne
    rw [href.lookup, h.lookup, insertBounded]
    split_ifs
    · rw [lookup_insert_ite, if_neg (Ne.symm hne)]
    · rfl

theorem durable_of_refines {st : Store} {M : Contents} (h : Refines st M) : Durable st M where
  getStr key bufLen d := by
    rw [configGetStr, entryAt_findEntry, h.lookup, Option.map_map]
    rfl
  getI32 key d := by
    rw [configGetI32, entryAt_findEntry, h.lookup, Option.map_map]
    rfl
  setStr key val hk hv := by
    rw [configSetStr_eq hk hv]
    exact setOutcome_of_refines (v := .str val) h hk hv
  setI32 key val hk := by
    rw [configSetI32_eq hk]
    exact setOutcome_of_refines (v := .i32 val) h hk trivial

/-- **The config store is a durable map**: after any history of sets and resets, reading a
key gives the last value set under it and its type (the default if there is none), and a
set fails, changing nothing, exactly when the map is full and the pair is new. -/
theorem config_store_durable {ops : List Op} {st : Store}
    (h : Run HistoryStep Store.empty ops st) : Durable st (ops.foldl Op.next ∅) :=
  durable_of_refines (refines_run h)

theorem config_store_durable_reset :
    Durable (Op.apply (Op.apply Store.empty (.setStr (cs "oled") [])) (.reboot [cs "cfg/s/oled"]))
      ([.setStr (cs "oled") [], .reboot [cs "cfg/s/oled"]].foldl Op.next ∅) := by
  refine config_store_durable (.snoc (.snoc (.nil _) ⟨?_, rfl⟩) ⟨?_, rfl⟩)
  · refine ⟨by decide, ?_⟩
    intro name
    have hf : (Op.apply Store.empty (.setStr (cs "oled") [])).flash name =
        if name = cs "cfg/s/oled" then some [0] else none := rfl
    rw [hf, List.mem_singleton]
    split_ifs with hn <;> simp [hn]
  · exact ⟨⟨by decide, by decide, by decide, by decide⟩, ⟨by decide, by decide⟩⟩

end NodemFirmware.ConfigStore
