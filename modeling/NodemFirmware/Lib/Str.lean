import Mathlib.Tactic

/-! # Rust strings

A `&str` as the list of its characters, and its bytes.

* `trim`, `splitOnce` (for `splitn(2, ..)`) and `len` are what a Rust program does with one; `len`
  counts bytes.
* `Valid` says that bytes are those of a string.  An ASCII byte is always a character of its own
  (`encode_split`), so a text that ASCII bytes separate is valid exactly when its parts are
  (`valid_append_cons`). -/

namespace Str

/-- A `&str`. -/
abbrev Chars := List Char

/-- `as_bytes`. -/
def encode (s : Chars) : List UInt8 := s.flatMap String.utf8EncodeChar

def len (s : Chars) : ℕ := (encode s).length

/-- `char::is_whitespace`. -/
def isWhitespace (c : Char) : Bool :=
  let n := c.toNat
  (9 ≤ n && n ≤ 13) || n == 32 || n == 0x85 || n == 0xA0 || n == 0x1680 ||
    (0x2000 ≤ n && n ≤ 0x200A) || n == 0x2028 || n == 0x2029 || n == 0x202F || n == 0x205F ||
    n == 0x3000

def trim (s : Chars) : Chars :=
  ((s.dropWhile isWhitespace).reverse.dropWhile isWhitespace).reverse

/-- The two parts of `splitn(2, sep)`; the second is there if `sep` is. -/
def splitOnce (sep : Char) (s : Chars) : Chars × Option Chars :=
  match s.dropWhile (· ≠ sep) with
  | [] => (s, none)
  | _ :: t => (s.takeWhile (· ≠ sep), some t)

/-! ### Bytes that are a string's -/

/-- `core::str::from_utf8` takes the bytes. -/
def Valid (l : List UInt8) : Prop := ∃ s, l = encode s

@[simp] theorem encode_nil : encode [] = [] := rfl

@[simp] theorem encode_cons (c : Char) (s : Chars) :
    encode (c :: s) = String.utf8EncodeChar c ++ encode s := List.flatMap_cons

@[simp] theorem encode_append (s t : Chars) : encode (s ++ t) = encode s ++ encode t :=
  List.flatMap_append

theorem encode_inj {s t : Chars} (h : encode s = encode t) : s = t := by
  rw [← String.ofList_inj, ← String.toByteArray_inj, String.toByteArray_ofList,
    String.toByteArray_ofList, List.utf8Encode, List.utf8Encode]
  exact congrArg List.toByteArray h

theorem valid_nil : Valid [] := ⟨[], rfl⟩

theorem Valid.append {l m : List UInt8} (hl : Valid l) (hm : Valid m) : Valid (l ++ m) := by
  obtain ⟨s, rfl⟩ := hl
  obtain ⟨t, rfl⟩ := hm
  exact ⟨s ++ t, (encode_append s t).symm⟩

/-- The bytes are valid exactly when the core library's check takes them. -/
theorem valid_iff (l : List UInt8) : Valid l ↔ ByteArray.validateUTF8 ⟨l.toArray⟩ = true := by
  rw [ByteArray.validateUTF8_eq_true_iff]
  constructor
  · rintro ⟨s, rfl⟩
    refine ⟨s, ByteArray.ext ?_⟩
    rw [← Array.toList_inj, List.utf8Encode, List.toList_data_toByteArray]
    rfl
  · rintro ⟨s, hs⟩
    refine ⟨s, ?_⟩
    have hlist := congrArg (fun b : ByteArray => b.data.toList) hs
    rw [List.utf8Encode, List.toList_data_toByteArray] at hlist
    exact hlist

instance (l : List UInt8) : Decidable (Valid l) := decidable_of_iff _ (valid_iff l).symm

/-! ### ASCII bytes -/

/-- An ASCII byte of a character is all of it. -/
theorem utf8EncodeChar_of_ascii {c : Char} {b : UInt8} (hb : b < 128)
    (h : b ∈ String.utf8EncodeChar c) : String.utf8EncodeChar c = [b] ∧ c.toNat = b.toNat := by
  have hlt : b.toNat < 128 := hb
  have hlow : ∀ v k : ℕ, 128 ≤ k → k + v < 256 → b ≠ UInt8.ofNat (v + k) := by
    rintro v k hk hv rfl
    rw [UInt8.toNat_ofNat', Nat.mod_eq_of_lt (by omega)] at hlt
    omega
  unfold String.utf8EncodeChar at h ⊢
  simp only at h ⊢
  split_ifs at h ⊢ with h1 h2 h3
  · obtain rfl := List.mem_singleton.mp h
    refine ⟨rfl, ?_⟩
    rw [UInt8.toNat_ofNat', Nat.mod_eq_of_lt (by omega)]
    rfl
  · exfalso
    simp only [List.mem_cons, List.not_mem_nil, or_false] at h
    rcases h with h | h <;> exact hlow _ _ (by omega) (by omega) h
  · exfalso
    simp only [List.mem_cons, List.not_mem_nil, or_false] at h
    rcases h with h | h | h <;> exact hlow _ _ (by omega) (by omega) h
  · exfalso
    simp only [List.mem_cons, List.not_mem_nil, or_false] at h
    rcases h with h | h | h | h <;> exact hlow _ _ (by omega) (by omega) h

/-- The character that an ASCII byte of a text is. -/
theorem mem_of_mem_encode {s : Chars} {b : UInt8} (hb : b < 128) (h : b ∈ encode s) :
    ∃ c ∈ s, c.toNat = b.toNat := by
  obtain ⟨c, hc, hbyte⟩ := List.mem_flatMap.mp h
  exact ⟨c, hc, (utf8EncodeChar_of_ascii hb hbyte).2⟩

/-- The character that an ASCII byte is. -/
theorem utf8EncodeChar_ascii {c : Char} {b : UInt8} (hb : b < 128) (hc : c.toNat = b.toNat) :
    String.utf8EncodeChar c = [b] := by
  have hlt : b.toNat < 128 := hb
  have hval : c.val.toNat = b.toNat := hc
  unfold String.utf8EncodeChar
  simp only
  rw [if_pos (by omega), hval, UInt8.ofNat_toNat]

/-- **A text is split at an ASCII byte** into two texts. -/
theorem encode_split {b : UInt8} (hb : b < 128) {s : Chars} {l m : List UInt8}
    (h : encode s = l ++ b :: m) : Valid l ∧ Valid m := by
  induction s generalizing l with
  | nil => simp at h
  | cons c s ih =>
      rw [encode_cons] at h
      rcases List.append_eq_append_iff.mp h with ⟨l', hl, hrest⟩ | ⟨e', he, hrest⟩
      · -- the character ends before the byte
        obtain ⟨hl', hm⟩ := ih hrest
        refine ⟨?_, hm⟩
        rw [hl]
        refine Valid.append ⟨[c], ?_⟩ hl'
        rw [encode_cons, encode_nil, List.append_nil]
      · cases e' with
        | nil =>
            obtain ⟨hl', hm⟩ := ih (l := []) hrest.symm
            rw [List.append_nil] at he
            refine ⟨⟨[c], ?_⟩, hm⟩
            rw [encode_cons, encode_nil, List.append_nil, he]
        | cons d e' =>
            rw [List.cons_append] at hrest
            obtain ⟨rfl, hm⟩ := List.cons.inj hrest
            -- the byte is one of the character's, so it is the character
            have hchar := (utf8EncodeChar_of_ascii hb (c := c) (by rw [he]; simp)).1
            rw [hchar] at he
            cases l with
            | nil =>
                obtain rfl : e' = [] := (List.cons.inj he).2.symm
                exact ⟨valid_nil, s, hm⟩
            | cons x l =>
                have hlen := congrArg List.length he
                simp at hlen

/-- **Texts separated by an ASCII byte** are valid together when each is. -/
theorem valid_append_cons {b : UInt8} (hb : b < 128) {l m : List UInt8} :
    Valid (l ++ b :: m) ↔ Valid l ∧ Valid m := by
  constructor
  · rintro ⟨s, hs⟩
    exact encode_split hb hs.symm
  · rintro ⟨hl, hm⟩
    refine hl.append (Valid.append (l := [b]) ⟨[Char.ofNat b.toNat], ?_⟩ hm)
    have hlt : b.toNat < 128 := hb
    rw [encode_cons, encode_nil, List.append_nil, utf8EncodeChar_ascii hb]
    unfold Char.ofNat
    rw [dif_pos (.inl (by omega))]
    rfl

/-- Bytes that are all ASCII are valid. -/
theorem valid_of_ascii {l : List UInt8} (h : ∀ b ∈ l, b < 128) : Valid l := by
  induction l with
  | nil => exact valid_nil
  | cons b l ih =>
      exact (valid_append_cons (l := []) (h b List.mem_cons_self)).mpr
        ⟨valid_nil, ih fun c hc => h c (List.mem_cons_of_mem b hc)⟩

end Str
