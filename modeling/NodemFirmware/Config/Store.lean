import NodemFirmware.Lib.Text
import NodemFirmware.Lib.SlotTable

/-! # The config store

`config_store.c`: a table of `MAX_ENTRIES` slots, each free or holding a string or a number
under a key, written through to flash by `settings_save_one` and read back from it at boot
by `settings_load`, which hands every saved key to `settings_set`.

* A slot's `used` flag is the `Option` around its entry; the `type` field and the union are
  one inductive `Value`, so an entry cannot hold the wrong member.
* `findEntry` returns the slot of the entry it points at and the table, in which it may just
  have claimed that slot.
* The outcome of `settings_save_one` is an argument: `0` when it saved the bytes under the
  full key, else its error, with flash as it was.

Both setters write the table before they save it (`configSet`), which decides when a failed
set leaves the store as it was (`configSetStr_leaves_iff`, `configSetI32_leaves_iff`). -/

namespace NodemFirmware.ConfigStore

open CText

def maxEntries : ℕ := 16
def maxKeyLen : ℕ := 15
def maxStrLen : ℕ := 127

inductive EntryType where
  | str
  | i32
deriving DecidableEq, Repr

/-- An entry's value, tagged with its type. -/
inductive Value where
  | str (s : CStr)
  | i32 (v : BitVec 32)
deriving DecidableEq, Repr

namespace Value

def type : Value → EntryType
  | str _ => .str
  | i32 _ => .i32

/-- What a slot of each type holds before its first write. -/
def zero : EntryType → Value
  | .str => str []
  | .i32 => i32 0

def asStr : Value → CStr
  | str s => s
  | i32 _ => []

def asI32 : Value → BitVec 32
  | str _ => 0
  | i32 v => v

@[simp] theorem type_zero (t : EntryType) : (zero t).type = t := by cases t <;> rfl

end Value

structure Entry where
  key : CStr
  value : Value
deriving DecidableEq, Repr

/-- What an entry is found by: its type and its key. -/
def Entry.id (e : Entry) : EntryType × CStr := (e.value.type, e.key)

/-- `entries`: the slots, free ones `none`. -/
structure Table where
  slots : List (Option Entry)
  length_slots : slots.length = maxEntries
deriving DecidableEq, Repr

namespace Table

def empty : Table := ⟨List.replicate maxEntries none, List.length_replicate⟩

/-- Writes slot `i`. -/
def set (t : Table) (i : ℕ) (e : Entry) : Table :=
  ⟨t.slots.set i (some e), by rw [List.length_set]; exact t.length_slots⟩

/-- Writes the value of the entry in slot `i`. -/
def setValue (t : Table) (i : ℕ) (v : Value) : Table :=
  match t.slots[i]? with
  | some (some e) => t.set i { e with value := v }
  | _ => t

/-- The entry a search for `k` comes to first. -/
def lookup (t : Table) (k : EntryType × CStr) : Option Entry := SlotTable.lookup Entry.id k t.slots

theorem ext {t u : Table} (h : t.slots = u.slots) : t = u := by
  cases t; cases u; cases h; rfl

end Table

/-! ### Searching -/

/-- The loop of `find_entry`: the slot of the entry for `key` and `type`, or else the first
free one met (`free_slot`). -/
def findLoop (key : CStr) (type : EntryType) :
    List (Option Entry) → ℕ → Option ℕ → ℕ ⊕ Option ℕ
  | [], _, freeSlot => .inr freeSlot
  | some e :: t, i, freeSlot =>
      if e.value.type = type ∧ e.key = key then .inl i else findLoop key type t (i + 1) freeSlot
  | none :: t, i, freeSlot =>
      findLoop key type t (i + 1) (if freeSlot.isNone then some i else freeSlot)

/-- `find_entry`: the slot of the entry for `key` and `type` or, with `create`, of a freshly
claimed one; `none` if it is not there, or there is no room. -/
def findEntry (t : Table) (key : CStr) (type : EntryType) (create : Bool) : Option (ℕ × Table) :=
  match findLoop key type t.slots 0 none with
  | .inl i => some (i, t)
  | .inr (some i) =>
      if create then some (i, t.set i ⟨clip (maxKeyLen + 1) key, Value.zero type⟩) else none
  | .inr none => none

theorem findLoop_eq (key : CStr) (type : EntryType) (t : List (Option Entry)) (i : ℕ)
    (freeSlot : Option ℕ) :
    findLoop key type t i freeSlot =
      match SlotTable.slotOf Entry.id (type, key) t with
      | some j => .inl (i + j)
      | none => .inr (freeSlot.or ((SlotTable.freeSlot t).map (i + ·))) := by
  induction t generalizing i freeSlot with
  | nil => simp [findLoop, SlotTable.slotOf, SlotTable.freeSlot]
  | cons o t ih =>
      cases o with
      | none =>
          simp only [findLoop, SlotTable.slotOf, SlotTable.freeSlot, SlotTable.holds_none, ih,
            Bool.false_eq_true, if_false, Option.isNone_none, if_true]
          cases SlotTable.slotOf Entry.id (type, key) t with
          | some j => simp only [Option.map_some]; congr 1; omega
          | none => cases freeSlot <;> simp
      | some e =>
          have hid : (e.value.type = type ∧ e.key = key) ↔ e.id = (type, key) := by
            simp [Entry.id]
          simp only [findLoop, SlotTable.slotOf, SlotTable.freeSlot, SlotTable.holds_some, ih,
            hid, decide_eq_true_eq, Option.isNone_some, Bool.false_eq_true, if_false]
          by_cases h : e.id = (type, key)
          · simp [h]
          · simp only [h, if_false]
            cases SlotTable.slotOf Entry.id (type, key) t with
            | some j => simp only [Option.map_some]; congr 1; omega
            | none =>
                have hk : ((i + ·) ∘ (· + 1)) = (i + 1 + ·) := by
                  funext k
                  simp only [Function.comp_apply]
                  omega
                simp only [Option.map_none, Option.map_map, hk]

/-- **Searching without claiming** finds the slot of the looked-up entry. -/
theorem findEntry_false (t : Table) (key : CStr) (type : EntryType) :
    findEntry t key type false =
      (SlotTable.slotOf Entry.id (type, key) t.slots).map (fun i => (i, t)) := by
  rw [findEntry, findLoop_eq]
  cases SlotTable.slotOf Entry.id (type, key) t.slots with
  | some j => simp
  | none => cases SlotTable.freeSlot t.slots <;> simp

/-- **Searching and claiming** when the key fits: the entry's slot, else a free one holding
an empty entry for it. -/
theorem findEntry_true (t : Table) {key : CStr} (hk : key.length ≤ maxKeyLen) (type : EntryType) :
    findEntry t key type true =
      match SlotTable.slotOf Entry.id (type, key) t.slots with
      | some i => some (i, t)
      | none =>
          (SlotTable.freeSlot t.slots).map (fun i => (i, t.set i ⟨key, Value.zero type⟩)) := by
  rw [findEntry, findLoop_eq, clip_of_lt (by omega)]
  cases SlotTable.slotOf Entry.id (type, key) t.slots with
  | some j => simp
  | none => cases SlotTable.freeSlot t.slots <;> simp

/-- The entry `find_entry` points at when it does not claim one. -/
def entryAt (t : Table) (p : Option (ℕ × Table)) : Option Entry :=
  p.bind (fun q => (t.slots[q.1]?).join)

theorem entryAt_findEntry (t : Table) (key : CStr) (type : EntryType) :
    entryAt t (findEntry t key type false) = t.lookup (type, key) := by
  rw [findEntry_false]
  cases h : SlotTable.slotOf Entry.id (type, key) t.slots with
  | none => exact (SlotTable.slotOf_eq_none.mp h).symm
  | some i =>
      obtain ⟨e, hi, hl⟩ := SlotTable.slotOf_spec h
      simp [entryAt, hi, Table.lookup, hl]

/-! ### Storing an entry -/

/-- Finding or claiming the slot for an entry and writing its value. -/
def put (t : Table) (e : Entry) : Option Table :=
  (findEntry t e.key e.value.type true).map (fun p => p.2.setValue p.1 e.value)

theorem setValue_of_getElem {t : Table} {i : ℕ} {e : Entry} (h : t.slots[i]? = some (some e))
    (v : Value) : t.setValue i v = t.set i { e with value := v } := by
  simp [Table.setValue, h]

/-- The two ways an entry is stored, both a write of one slot. -/
theorem put_eq (t : Table) {e : Entry} (hk : e.key.length ≤ maxKeyLen) :
    put t e =
      match SlotTable.slotOf Entry.id e.id t.slots with
      | some i => some (t.set i e)
      | none => (SlotTable.freeSlot t.slots).map (fun i => t.set i e) := by
  rw [put, findEntry_true t hk]
  change Option.map _ (match SlotTable.slotOf Entry.id e.id t.slots with
    | some i => some (i, t)
    | none => _) = _
  cases h : SlotTable.slotOf Entry.id e.id t.slots with
  | some i =>
      obtain ⟨e₀, hi, hl⟩ := SlotTable.slotOf_spec h
      have hkey : e₀.key = e.key := congrArg Prod.snd (SlotTable.lookup_key hl)
      simp only [Option.map_some, setValue_of_getElem hi, hkey]
  | none =>
      cases hf : SlotTable.freeSlot t.slots with
      | none => rfl
      | some i =>
          have hlt : i < t.slots.length :=
            (List.getElem?_eq_some_iff.mp (SlotTable.freeSlot_spec hf)).1
          have hi : (t.set i ⟨e.key, Value.zero e.value.type⟩).slots[i]? =
              some (some ⟨e.key, Value.zero e.value.type⟩) := by
            simp [Table.set, hlt]
          simp only [Option.map_some, setValue_of_getElem hi]
          congr 1
          apply Table.ext
          simp [Table.set, List.set_set]

theorem put_eq_none {t : Table} {e : Entry} (hk : e.key.length ≤ maxKeyLen) :
    put t e = none ↔ t.lookup e.id = none ∧ SlotTable.freeSlot t.slots = none := by
  rw [put_eq t hk, Table.lookup, ← SlotTable.slotOf_eq_none]
  cases SlotTable.slotOf Entry.id e.id t.slots <;> simp

/-- **Storing an entry** is the update of the lookup function at its type and key. -/
theorem lookup_put {t t' : Table} {e : Entry} (hk : e.key.length ≤ maxKeyLen)
    (h : put t e = some t') (k : EntryType × CStr) :
    t'.lookup k = if e.id = k then some e else t.lookup k := by
  rw [put_eq t hk] at h
  cases hs : SlotTable.slotOf Entry.id e.id t.slots with
  | some i =>
      simp only [hs, Option.some.injEq] at h
      rw [← h]
      exact SlotTable.lookup_set_of_slotOf hs k
  | none =>
      simp only [hs, Option.map_eq_some_iff] at h
      obtain ⟨i, hf, rfl⟩ := h
      exact SlotTable.lookup_set_of_freeSlot hf (SlotTable.slotOf_eq_none.mp hs) k

theorem distinct_put {t t' : Table} {e : Entry} (hk : e.key.length ≤ maxKeyLen)
    (h : put t e = some t') (hd : SlotTable.Distinct Entry.id t.slots) :
    SlotTable.Distinct Entry.id t'.slots := by
  rw [put_eq t hk] at h
  cases hs : SlotTable.slotOf Entry.id e.id t.slots with
  | some i =>
      simp only [hs, Option.some.injEq] at h
      rw [← h]
      exact SlotTable.distinct_set_of_slotOf hd hs
  | none =>
      simp only [hs, Option.map_eq_some_iff] at h
      obtain ⟨i, hf, rfl⟩ := h
      exact SlotTable.distinct_set_of_freeSlot hd hf (SlotTable.slotOf_eq_none.mp hs)

/-- Storing an entry leaves the table as it was only if it was there already. -/
theorem put_eq_self {t : Table} {e : Entry} (hk : e.key.length ≤ maxKeyLen) :
    put t e = some t ↔ t.lookup e.id = some e := by
  constructor
  · intro h
    rw [lookup_put hk h, if_pos rfl]
  · intro h
    cases hs : SlotTable.slotOf Entry.id e.id t.slots with
    | none =>
        rw [SlotTable.slotOf_eq_none] at hs
        rw [Table.lookup, hs] at h
        cases h
    | some i =>
        obtain ⟨e₀, hi, hl⟩ := SlotTable.slotOf_spec hs
        rw [Table.lookup, hl] at h
        cases h
        obtain ⟨hlt, hg⟩ := List.getElem?_eq_some_iff.mp hi
        have hset : t.set i e = t := by
          apply Table.ext
          simp only [Table.set, ← hg, List.set_getElem_self]
        rw [put_eq t hk, hs]
        exact congrArg some hset

/-! ### Flash -/

/-- What the settings backend holds: the last bytes saved under each full key. -/
abbrev Flash := CStr → Option (List UInt8)

structure Store where
  entries : Table
  flash : Flash

def Store.empty : Store := ⟨Table.empty, fun _ => none⟩

/-- The four bytes of an `int32_t`, lowest first. -/
def i32Bytes (v : BitVec 32) : List UInt8 :=
  (List.range 4).map (fun j => UInt8.ofNat (v.toNat / 256 ^ j))

/-- The `int32_t` whose bytes these are. -/
def i32OfBytes (l : List UInt8) : BitVec 32 :=
  BitVec.ofNat 32 (l.foldr (fun b n => b.toNat + 256 * n) 0)

/-- The bytes a value is saved as. -/
def Value.bytes : Value → List UInt8
  | .str s => s ++ [0]
  | .i32 v => i32Bytes v

def keyPrefix : EntryType → CStr
  | .str => cs "cfg/s/"
  | .i32 => cs "cfg/i/"

/-- `snprintf(full_key, sizeof(full_key), "cfg/s/%s", key)`, or with `"cfg/i/%s"`. -/
def fullKey (k : EntryType × CStr) : CStr := clip (8 + maxKeyLen + 1) (keyPrefix k.1 ++ k.2)

/-- The body of `config_set_str()` and `config_set_i32()` once their lengths are checked:
claim or find the entry, write its value, save it (`err` is what saving it returns). -/
def configSet (st : Store) (key : CStr) (value : Value) (err : ℤ) : ℤ × Store :=
  match findEntry st.entries key value.type true with
  | none => (-Errno.nomem, st)
  | some (i, t) =>
      let entries := t.setValue i value
      let flash := fun name =>
        if name = fullKey (value.type, key) then some value.bytes else st.flash name
      (err, ⟨entries, if err = 0 then flash else st.flash⟩)

/-- Setting stores the entry; what saving it returned only decides flash and the result. -/
theorem configSet_eq (st : Store) (key : CStr) (value : Value) (err : ℤ) :
    configSet st key value err =
      match put st.entries ⟨key, value⟩ with
      | none => (-Errno.nomem, st)
      | some t => (err, ⟨t, if err = 0
          then fun name => if name = fullKey (value.type, key) then some value.bytes
            else st.flash name
          else st.flash⟩) := by
  rw [configSet, put]
  cases findEntry st.entries key value.type true <;> rfl

def configSetStr (st : Store) (key val : CStr) (err : ℤ) : ℤ × Store :=
  if maxKeyLen < key.length ∨ maxStrLen < val.length then (-Errno.inval, st)
  else configSet st key (.str (clip (maxStrLen + 1) val)) err

def configSetI32 (st : Store) (key : CStr) (val : BitVec 32) (err : ℤ) : ℤ × Store :=
  if maxKeyLen < key.length then (-Errno.inval, st)
  else configSet st key (.i32 val) err

def configGetStr (t : Table) (key : CStr) (bufLen : ℕ) (defaultVal : CStr) : CStr :=
  clip bufLen (((entryAt t (findEntry t key .str false)).map (·.value.asStr)).getD defaultVal)

def configGetI32 (t : Table) (key : CStr) (defaultVal : BitVec 32) : BitVec 32 :=
  ((entryAt t (findEntry t key .i32 false)).map (·.value.asI32)).getD defaultVal

/-- **Reading a string that was set and saved.** -/
theorem configGetStr_of_set {st st' : Store} {key val : CStr} {err : ℤ}
    (h : configSetStr st key val err = (0, st')) (bufLen : ℕ) (defaultVal : CStr) :
    configGetStr st'.entries key bufLen defaultVal = clip bufLen val := by
  unfold configSetStr at h
  split_ifs at h with hlen
  · simp [Errno.inval] at h
  · rw [not_or, not_lt, not_lt] at hlen
    rw [clip_of_lt (by omega), configSet_eq] at h
    split at h
    · simp [Errno.nomem] at h
    · next t ht =>
      obtain ⟨-, rfl⟩ := Prod.mk.inj h
      have hl := lookup_put hlen.1 ht (.str, key)
      rw [if_pos (by rfl)] at hl
      unfold configGetStr
      rw [entryAt_findEntry, hl]
      rfl

/-! ### Listing -/

/-- `snprintf(&buf[off], room, ...)` of the text `s`: what fits `room` bytes and a NUL. -/
def snprintfAt (buf : List UInt8) (off room : ℕ) (s : CStr) : List UInt8 :=
  if room = 0 then buf
  else buf.take off ++ clip room s ++ 0 :: buf.drop (off + (clip room s).length + 1)

/-- An entry's line. -/
def Entry.line (e : Entry) : CStr :=
  match e.value with
  | .str s => e.key ++ cs "=" ++ s ++ cs "\r\n"
  | .i32 v => e.key ++ cs "=" ++ fmtD v.toInt ++ cs "\r\n"

/-- The loop of `config_list`. -/
def listLoop (bufLen : ℕ) : List (Option Entry) → List UInt8 → ℕ → List UInt8 × ℕ
  | [], buf, off => (buf, off)
  | none :: t, buf, off => listLoop bufLen t buf off
  | some e :: t, buf, off =>
      let n := e.line.length
      let buf := snprintfAt buf off (bufLen - off) e.line
      if bufLen - off ≤ n then (buf, off) else listLoop bufLen t buf (off + n)

/-- `config_list`: the buffer it leaves and the count it returns. -/
def configList (t : Table) (buf : List UInt8) : List UInt8 × ℕ := listLoop buf.length t.slots buf 0

/-! ### Loading -/

/-- Zephyr's `settings_name_steq`: `none` if `name` does not start with the part `key`, else
what follows the separator after it (`none` if nothing does). -/
def settingsNameSteq : (name key : CStr) → Option (Option CStr)
  | [], [] => some none
  | c :: name, [] =>
      if c == ('/' : UInt8) then some (some name)
      else if c == ('=' : UInt8) then some none else none
  | [], _ :: _ => none
  | c :: name, k :: key =>
      if c = k ∧ c ≠ ('=' : UInt8) then settingsNameSteq name key else none

/-- `settings_set` for the name below `cfg` and what reading its value returns. -/
def settingsSet (t : Table) (name : CStr) (read : Except ℤ (List UInt8)) : ℤ × Table :=
  match settingsNameSteq name (cs "s") with
  | some (some subKey) =>
      match read with
      | .error n => (n, t)
      | .ok data =>
          match findEntry t subKey .str true with
          | none => (-Errno.nomem, t)
          | some (i, t) => (0, t.setValue i (.str (ofBytes (data.take maxStrLen))))
  | _ =>
      match settingsNameSteq name (cs "i") with
      | some (some subKey) =>
          match read with
          | .error _ => (-Errno.inval, t)
          | .ok data =>
              if (data.take 4).length ≠ 4 then (-Errno.inval, t)
              else match findEntry t subKey .i32 true with
                | none => (-Errno.nomem, t)
                | some (i, t) => (0, t.setValue i (.i32 (i32OfBytes (data.take 4))))
      | _ => (-Errno.noent, t)

/-- One saved key handed to the `cfg` handler by `settings_load`. -/
def loadOne (flash : Flash) (t : Table) (name : CStr) : Table :=
  match settingsNameSteq name (cs "cfg"), flash name with
  | some (some sub), some data => (settingsSet t sub (.ok data)).2
  | _, _ => t

/-- A reset: the table starts empty and `settings_load` replays the saved keys, in an order
of its own. -/
def reboot (st : Store) (order : List CStr) : Store :=
  { st with entries := order.foldl (loadOne st.flash) Table.empty }

/-! ### Failed sets -/

/-- The table and flash agree: under each type and key, flash has the bytes of the value the
table has, and nothing else is there for either. -/
def Store.Agree (st : Store) : Prop :=
  ∀ k, st.flash (fullKey k) = (st.entries.lookup k).map (·.value.bytes)

/-- What a caller can observe of a store: every read, the listing, the claimed slots. -/
structure Store.Same (st st' : Store) : Prop where
  entries : st'.entries = st.entries
  getStr : ∀ key bufLen d,
    configGetStr st'.entries key bufLen d = configGetStr st.entries key bufLen d
  getI32 : ∀ key d, configGetI32 st'.entries key d = configGetI32 st.entries key d
  list : ∀ buf, configList st'.entries buf = configList st.entries buf
  agree : st.Agree → st'.Agree
  claimed : SlotTable.stored Entry.id st'.entries.slots =
    SlotTable.stored Entry.id st.entries.slots

/-- A call that returned `r.1` and left the store `r.2` changed nothing if it failed. -/
def LeavesOnFailure (st : Store) (r : ℤ × Store) : Prop := r.1 ≠ 0 → st.Same r.2

theorem Store.Same.of_eq {st st' : Store} (h : st'.entries = st.entries)
    (hf : st'.flash = st.flash) : st.Same st' where
  entries := h
  getStr := by intros; rw [h]
  getI32 := by intros; rw [h]
  list := by intros; rw [h]
  agree := by
    intro ha k
    rw [hf, h]
    exact ha k
  claimed := by rw [h]

theorem Store.Same.refl (st : Store) : st.Same st := .of_eq rfl rfl

/-- A set that reaches the table leaves the store as it was on failure exactly when saving
succeeds, there is no room, or the entry is there already. -/
theorem configSet_leaves_iff (st : Store) {key : CStr} (hk : key.length ≤ maxKeyLen) (v : Value)
    (err : ℤ) :
    LeavesOnFailure st (configSet st key v err) ↔
      err = 0 ∨ (st.entries.lookup (v.type, key) = none ∧
        SlotTable.freeSlot st.entries.slots = none) ∨
      st.entries.lookup (v.type, key) = some ⟨key, v⟩ := by
  have hk' : (Entry.mk key v).key.length ≤ maxKeyLen := hk
  have hroom := put_eq_none (t := st.entries) hk'
  have hself := put_eq_self (t := st.entries) hk'
  rw [LeavesOnFailure, configSet_eq]
  cases hp : put st.entries ⟨key, v⟩ with
  | none =>
      exact ⟨fun _ => .inr (.inl (hroom.mp hp)), fun _ _ => Store.Same.refl st⟩
  | some t =>
      have hno : ¬ (st.entries.lookup (v.type, key) = none ∧
          SlotTable.freeSlot st.entries.slots = none) := by
        intro h
        rw [hroom.mpr h] at hp
        cases hp
      by_cases herr : err = 0
      · exact ⟨fun _ => .inl herr, fun _ hne => absurd herr hne⟩
      · simp only [herr, if_false, ne_eq, not_false_eq_true, forall_true_left, false_or, hno]
        constructor
        · intro h
          have ht : t = st.entries := h.entries
          rw [ht] at hp
          exact hself.mp hp
        · intro h
          have ht := hself.mpr h
          rw [hp] at ht
          exact Store.Same.of_eq (Option.some.inj ht) rfl

/-- **A failed `config_set_str`** leaves the store as it was exactly when the key or the
value is too long, the pair is new and all slots are taken, or the pair already has the
value set; in every other failure the table was written before saving it failed. -/
theorem configSetStr_leaves_iff (st : Store) (key val : CStr) (err : ℤ) :
    LeavesOnFailure st (configSetStr st key val err) ↔
      err = 0 ∨ maxKeyLen < key.length ∨ maxStrLen < val.length ∨
      (st.entries.lookup (.str, key) = none ∧ SlotTable.freeSlot st.entries.slots = none) ∨
      st.entries.lookup (.str, key) = some ⟨key, .str val⟩ := by
  rw [configSetStr]
  split_ifs with hlen
  · exact ⟨fun _ => .inr (hlen.imp id .inl), fun _ _ => Store.Same.refl st⟩
  · push Not at hlen
    rw [clip_of_lt (by omega), configSet_leaves_iff st hlen.1]
    have h1 : ¬ maxKeyLen < key.length := by omega
    have h2 : ¬ maxStrLen < val.length := by omega
    simp only [h1, h2, false_or]
    rfl

/-- **A failed `config_set_i32`**, likewise. -/
theorem configSetI32_leaves_iff (st : Store) (key : CStr) (val : BitVec 32) (err : ℤ) :
    LeavesOnFailure st (configSetI32 st key val err) ↔
      err = 0 ∨ maxKeyLen < key.length ∨
      (st.entries.lookup (.i32, key) = none ∧ SlotTable.freeSlot st.entries.slots = none) ∨
      st.entries.lookup (.i32, key) = some ⟨key, .i32 val⟩ := by
  rw [configSetI32]
  split_ifs with hlen
  · exact ⟨fun _ => .inr (.inl hlen), fun _ _ => Store.Same.refl st⟩
  · push Not at hlen
    rw [configSet_leaves_iff st hlen]
    have h1 : ¬ maxKeyLen < key.length := by omega
    simp only [h1, false_or]
    rfl

/-- **A failed set**, of a string or of a number, leaves the store as it was exactly when it
is refused before the table is written or writes what was there. -/
theorem failed_set_leaves_iff (st : Store) (key val : CStr) (n : BitVec 32) (err : ℤ) :
    (LeavesOnFailure st (configSetStr st key val err) ↔
      err = 0 ∨ maxKeyLen < key.length ∨ maxStrLen < val.length ∨
      (st.entries.lookup (.str, key) = none ∧ SlotTable.freeSlot st.entries.slots = none) ∨
      st.entries.lookup (.str, key) = some ⟨key, .str val⟩) ∧
    (LeavesOnFailure st (configSetI32 st key n err) ↔
      err = 0 ∨ maxKeyLen < key.length ∨
      (st.entries.lookup (.i32, key) = none ∧ SlotTable.freeSlot st.entries.slots = none) ∨
      st.entries.lookup (.i32, key) = some ⟨key, .i32 n⟩) :=
  ⟨configSetStr_leaves_iff st key val err, configSetI32_leaves_iff st key n err⟩

/-- Setting a new string whose save fails claims a slot for it. -/
theorem failed_set_changes_store :
    ¬ ∀ (st : Store) (key val : CStr) (n : BitVec 32) (err : ℤ),
      LeavesOnFailure st (configSetStr st key val err) ∧
      LeavesOnFailure st (configSetI32 st key n err) := by
  intro h
  have h1 := (configSetStr_leaves_iff _ _ _ _).mp
    (h Store.empty (cs "oled") (cs "x") 0 (-Errno.io)).1
  revert h1
  decide

end NodemFirmware.ConfigStore
