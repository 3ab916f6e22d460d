import Mathlib.Data.List.Nodup
import Mathlib.Data.Finset.Card
import Mathlib.Tactic

/-! # Fixed tables of keyed slots

A table is a list of slots, each free or holding an entry; `key` reads an entry's key.
`lookup` is the entry of the first slot with a key, as a linear search finds it, `slotOf`
that slot's index and `freeSlot` the first free one.  Writing an entry replaces one slot
(`List.set`).

A table is `Distinct` when no key is held twice.  Then the occupied slots are counted by
the keys stored (`card_stored`), and both ways of storing an entry, over the slot that
already has its key (`set_slotOf`) and in a free one (`set_freeSlot`), are the update of
the lookup function at that key. -/

namespace SlotTable

variable {ε κ : Type*} [DecidableEq κ] (key : ε → κ)

/-- Slot `o` holds an entry with key `k`. -/
def holds (k : κ) (o : Option ε) : Bool := o.any (fun e => key e = k)

/-- The entry of the first slot with key `k`. -/
def lookup (k : κ) : List (Option ε) → Option ε
  | [] => none
  | o :: t => if holds key k o then o else lookup k t

/-- The index of the first slot with key `k`. -/
def slotOf (k : κ) : List (Option ε) → Option ℕ
  | [] => none
  | o :: t => if holds key k o then some 0 else (slotOf k t).map (· + 1)

/-- The index of the first free slot. -/
def freeSlot : List (Option ε) → Option ℕ
  | [] => none
  | o :: t => if o.isNone then some 0 else (freeSlot t).map (· + 1)

/-- The keys stored, in slot order. -/
def stored (t : List (Option ε)) : List κ := t.filterMap (fun o => o.map key)

/-- No key is held twice. -/
def Distinct (t : List (Option ε)) : Prop := (stored key t).Nodup

variable {key}

@[simp] theorem holds_none (k : κ) : holds key k none = false := rfl

@[simp] theorem holds_some (k : κ) (e : ε) : holds key k (some e) = decide (key e = k) := rfl

theorem holds_iff {k : κ} {o : Option ε} : holds key k o = true ↔ ∃ e, o = some e ∧ key e = k := by
  cases o <;> simp

theorem lookup_key {k : κ} {t : List (Option ε)} {e : ε} (h : lookup key k t = some e) :
    key e = k := by
  induction t with
  | nil => cases h
  | cons o t ih =>
      rw [lookup] at h
      split_ifs at h with hk
      · obtain ⟨e', rfl, hke⟩ := holds_iff.mp hk
        cases h
        exact hke
      · exact ih h

theorem mem_stored_iff {k : κ} {t : List (Option ε)} :
    k ∈ stored key t ↔ ∃ e, lookup key k t = some e := by
  induction t with
  | nil => simp [stored, lookup]
  | cons o t ih =>
      cases o with
      | none => simpa [stored, lookup] using ih
      | some e =>
          by_cases hk : key e = k
          · simp [stored, lookup, hk]
          · have : stored key (some e :: t) = key e :: stored key t := rfl
            rw [this, List.mem_cons, lookup, ih]
            simp [hk, Ne.symm hk]

theorem slotOf_eq_none {k : κ} {t : List (Option ε)} :
    slotOf key k t = none ↔ lookup key k t = none := by
  induction t with
  | nil => simp [slotOf, lookup]
  | cons o t ih =>
      by_cases hk : holds key k o = true
      · obtain ⟨e, rfl, -⟩ := holds_iff.mp hk
        simp [slotOf, lookup, hk]
      · simp [slotOf, lookup, hk, ih]

/-- The slot found is the one whose entry the search returns, and is a slot of the table. -/
theorem slotOf_spec {k : κ} {t : List (Option ε)} {i : ℕ} (h : slotOf key k t = some i) :
    ∃ e, t[i]? = some (some e) ∧ lookup key k t = some e := by
  induction t generalizing i with
  | nil => cases h
  | cons o t ih =>
      by_cases hk : holds key k o = true
      · obtain ⟨e, rfl, hke⟩ := holds_iff.mp hk
        simp only [slotOf, hk, if_true, Option.some.injEq] at h
        subst h
        exact ⟨e, rfl, by simp [lookup, hke]⟩
      · simp only [slotOf, hk, Bool.false_eq_true, if_false, Option.map_eq_some_iff] at h
        obtain ⟨j, hj, rfl⟩ := h
        obtain ⟨e, h1, h2⟩ := ih hj
        exact ⟨e, by simpa using h1, by simp [lookup, hk, h2]⟩

theorem freeSlot_spec {t : List (Option ε)} {i : ℕ} (h : freeSlot t = some i) :
    t[i]? = some none := by
  induction t generalizing i with
  | nil => cases h
  | cons o t ih =>
      cases o with
      | none => simp only [freeSlot, Option.isNone_none, if_true, Option.some.injEq] at h
                subst h
                rfl
      | some e =>
          simp only [freeSlot, Option.isNone_some, Bool.false_eq_true, if_false,
            Option.map_eq_some_iff] at h
          obtain ⟨j, hj, rfl⟩ := h
          simpa using ih hj

omit [DecidableEq κ] in
theorem length_stored_le (key : ε → κ) (t : List (Option ε)) :
    (stored key t).length ≤ t.length := List.length_filterMap_le _ _

omit [DecidableEq κ] in
/-- There is no free slot exactly when every slot's key is stored. -/
theorem freeSlot_eq_none (key : ε → κ) {t : List (Option ε)} :
    freeSlot t = none ↔ (stored key t).length = t.length := by
  induction t with
  | nil => simp [freeSlot, stored]
  | cons o t ih =>
      cases o with
      | none =>
          have := length_stored_le key t
          have e : stored key (none :: t) = stored key t := rfl
          rw [e]
          simp only [freeSlot, Option.isNone_none, if_true, List.length_cons, reduceCtorEq,
            false_iff]
          omega
      | some e =>
          have e' : stored key (some e :: t) = key e :: stored key t := rfl
          rw [e']
          simp [freeSlot, ih]

/-- The occupied slots of a distinct table are counted by the keys stored. -/
theorem card_stored {t : List (Option ε)} (h : Distinct key t) :
    (stored key t).toFinset.card = (stored key t).length := List.toFinset_card_of_nodup h

/-! ### Writing a slot -/

/-- Writing an entry over a slot that is free or has its key changes no other key. -/
theorem lookup_set_ne {k : κ} {t : List (Option ε)} {i : ℕ} {e : ε} (hk : key e ≠ k)
    (hi : ∀ e', t[i]? = some (some e') → key e' ≠ k) :
    lookup key k (t.set i (some e)) = lookup key k t := by
  induction t generalizing i with
  | nil => rfl
  | cons o t ih =>
      cases i with
      | zero =>
          have ho : holds key k o = false := by
            cases o with
            | none => rfl
            | some e' => simpa using hi e' rfl
          simp [lookup, ho, hk]
      | succ i =>
          simp only [List.set_cons_succ, lookup]
          rw [ih (fun e' he' => hi e' (by simpa using he'))]

/-- Writing over the slot found for the entry's key stores the entry under it. -/
theorem lookup_set_slotOf {t : List (Option ε)} {i : ℕ} {e : ε}
    (h : slotOf key (key e) t = some i) : lookup key (key e) (t.set i (some e)) = some e := by
  induction t generalizing i with
  | nil => cases h
  | cons o t ih =>
      by_cases hk : holds key (key e) o = true
      · simp only [slotOf, hk, if_true, Option.some.injEq] at h
        subst h
        simp [lookup]
      · simp only [slotOf, hk, Bool.false_eq_true, if_false, Option.map_eq_some_iff] at h
        obtain ⟨j, hj, rfl⟩ := h
        simp [lookup, hk, ih hj]

/-- Writing a free slot stores an entry whose key was not there. -/
theorem lookup_set_freeSlot {t : List (Option ε)} {i : ℕ} {e : ε} (hf : freeSlot t = some i)
    (hn : lookup key (key e) t = none) : lookup key (key e) (t.set i (some e)) = some e := by
  induction t generalizing i with
  | nil => cases hf
  | cons o t ih =>
      cases o with
      | none =>
          simp only [freeSlot, Option.isNone_none, if_true, Option.some.injEq] at hf
          subst hf
          simp [lookup]
      | some e' =>
          simp only [freeSlot, Option.isNone_some, Bool.false_eq_true, if_false,
            Option.map_eq_some_iff] at hf
          obtain ⟨j, hj, rfl⟩ := hf
          rw [lookup] at hn
          split_ifs at hn with hk
          simp only [List.set_cons_succ, lookup, hk, Bool.false_eq_true, if_false]
          exact ih hj hn

/-- **Storing over the slot that has the key** updates the lookup function there. -/
theorem lookup_set_of_slotOf {t : List (Option ε)} {i : ℕ} {e : ε}
    (h : slotOf key (key e) t = some i) (k : κ) :
    lookup key k (t.set i (some e)) = if key e = k then some e else lookup key k t := by
  by_cases hk : key e = k
  · subst hk
    rw [if_pos rfl, lookup_set_slotOf h]
  · obtain ⟨e₀, hi, hl⟩ := slotOf_spec h
    rw [if_neg hk]
    apply lookup_set_ne hk
    intro e' he'
    rw [hi] at he'
    cases he'
    rw [lookup_key hl]
    exact hk

/-- **Storing in a free slot** updates the lookup function at a key that had none. -/
theorem lookup_set_of_freeSlot {t : List (Option ε)} {i : ℕ} {e : ε} (hf : freeSlot t = some i)
    (hn : lookup key (key e) t = none) (k : κ) :
    lookup key k (t.set i (some e)) = if key e = k then some e else lookup key k t := by
  by_cases hk : key e = k
  · subst hk
    rw [if_pos rfl, lookup_set_freeSlot hf hn]
  · rw [if_neg hk]
    apply lookup_set_ne hk
    intro e' he'
    rw [freeSlot_spec hf] at he'
    cases he'

omit [DecidableEq κ] in
theorem stored_set_same {t : List (Option ε)} {i : ℕ} {e e₀ : ε} (hi : t[i]? = some (some e₀))
    (hk : key e = key e₀) : stored key (t.set i (some e)) = stored key t := by
  induction t generalizing i with
  | nil => rfl
  | cons o t ih =>
      cases i with
      | zero =>
          cases Option.some.inj hi
          simp [stored, hk]
      | succ i =>
          have := ih (i := i) (by simpa using hi)
          simp only [stored] at this
          cases o <;> simp [stored, this]

omit [DecidableEq κ] in
theorem stored_set_free {t : List (Option ε)} {i : ℕ} {e : ε} (hi : t[i]? = some none) :
    (stored key (t.set i (some e))).Perm (key e :: stored key t) := by
  induction t generalizing i with
  | nil => cases hi
  | cons o t ih =>
      cases i with
      | zero =>
          cases Option.some.inj hi
          exact List.Perm.refl _
      | succ i =>
          have := ih (i := i) (by simpa using hi)
          cases o with
          | none => exact this
          | some e₀ => exact (this.cons (key e₀)).trans (List.Perm.swap ..)

theorem distinct_set_of_slotOf {t : List (Option ε)} {i : ℕ} {e : ε} (hd : Distinct key t)
    (h : slotOf key (key e) t = some i) : Distinct key (t.set i (some e)) := by
  obtain ⟨e₀, hi, hl⟩ := slotOf_spec h
  rw [Distinct, stored_set_same hi (lookup_key hl).symm]
  exact hd

theorem distinct_set_of_freeSlot {t : List (Option ε)} {i : ℕ} {e : ε} (hd : Distinct key t)
    (hf : freeSlot t = some i) (hn : lookup key (key e) t = none) :
    Distinct key (t.set i (some e)) := by
  rw [Distinct, (stored_set_free (freeSlot_spec hf)).nodup_iff, List.nodup_cons]
  refine ⟨?_, hd⟩
  intro hm
  obtain ⟨e', he'⟩ := mem_stored_iff.mp hm
  rw [hn] at he'
  cases he'

/-! ### The empty table -/

theorem lookup_replicate_none (n : ℕ) (k : κ) :
    lookup key k (List.replicate n (none : Option ε)) = none := by
  induction n with
  | zero => rfl
  | succ n ih => simpa [List.replicate_succ, lookup] using ih

omit [DecidableEq κ] in
theorem distinct_replicate_none (n : ℕ) :
    Distinct key (List.replicate n (none : Option ε)) := by
  have : stored key (List.replicate n (none : Option ε)) = [] := by
    simp [stored]
  rw [Distinct, this]
  exact List.nodup_nil

end SlotTable
