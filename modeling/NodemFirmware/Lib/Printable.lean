import Mathlib.Data.List.DropRight
import NodemFirmware.Lib.Str
import NodemFirmware.Lib.Text

/-! # Printable text

Text of printable ASCII without blanks, as formats of numbers and words produce it.  It has no NUL,
and is a Rust string with nothing to trim (`Printable.trimmed`). -/

namespace CText

open Str

def Printable (s : CStr) : Prop := ∀ ch ∈ s, (33 : UInt8) ≤ ch ∧ ch < 127

instance (s : CStr) : Decidable (Printable s) :=
  inferInstanceAs (Decidable (∀ ch ∈ s, (33 : UInt8) ≤ ch ∧ ch < 127))

namespace Printable

variable {s t : CStr}

theorem nil : Printable [] := fun _ h => nomatch h

theorem append (hs : Printable s) (ht : Printable t) : Printable (s ++ t) := by
  intro ch hch
  rcases List.mem_append.mp hch with h | h
  · exact hs ch h
  · exact ht ch h

theorem cons {ch : UInt8} (hch : (33 : UInt8) ≤ ch ∧ ch < 127) (hs : Printable s) :
    Printable (ch :: s) := by
  intro c hc
  rcases List.mem_cons.mp hc with rfl | h
  · exact hch
  · exact hs c h

theorem take (hs : Printable s) (n : ℕ) : Printable (s.take n) :=
  fun ch hch => hs ch (List.mem_of_mem_take hch)

theorem clip (hs : Printable s) (n : ℕ) : Printable (CText.clip n s) := hs.take _

theorem joinWith {sep : UInt8} (hsep : (33 : UInt8) ≤ sep ∧ sep < 127) {l : List CStr}
    (h : ∀ f ∈ l, Printable f) : Printable (joinWith sep l) := by
  induction l with
  | nil => exact nil
  | cons f l ih =>
      cases l with
      | nil =>
          rw [joinWith_singleton]
          exact h f List.mem_cons_self
      | cons g l =>
          rw [joinWith_cons_cons]
          exact (h f List.mem_cons_self).append
            (cons hsep (ih fun f' hf' => h f' (List.mem_cons_of_mem f hf')))

theorem of_isdigit (h : ∀ ch ∈ s, isdigit ch = true) : Printable s := by
  intro ch hch
  have hd := h ch hch
  unfold isdigit at hd
  simp only [Bool.and_eq_true, decide_eq_true_eq] at hd
  have hlo : ('0' : UInt8) = 48 := rfl
  have hhi : ('9' : UInt8) = 57 := rfl
  rw [hlo, hhi] at hd
  simp only [UInt8.le_iff_toNat_le, UInt8.lt_iff_toNat_lt] at hd ⊢
  simp only [UInt8.toNat_ofNat] at hd ⊢
  omega

theorem fmtU (n : ℕ) : Printable (fmtU n) := of_isdigit fun _ h => isdigit_of_mem_fmtU h

theorem fmtD (i : ℤ) : Printable (fmtD i) := by
  unfold CText.fmtD
  split_ifs
  · exact cons (by decide) (fmtU _)
  · exact fmtU _

theorem fmtX (k n : ℕ) : Printable (fmtX k n) := by
  have hdig : ∀ d < 16, (33 : UInt8) ≤ hexDigit d ∧ hexDigit d < 127 := by decide
  intro ch hch
  obtain ⟨d, hd, rfl⟩ := mem_fmtX hch
  exact hdig d hd

theorem no_nul (hs : Printable s) : (0 : UInt8) ∉ s := fun h => absurd (hs 0 h).1 (by decide)

theorem ascii (hs : Printable s) : ∀ b ∈ s, b < 128 := fun b hb => by
  have h := (hs b hb).2
  rw [UInt8.lt_iff_toNat_lt] at h ⊢
  exact h.trans (by decide)

end Printable

/-- The bytes of a Rust string with nothing to trim. -/
def Trimmed (s : CStr) : Prop := ∃ t, Str.trim t = t ∧ s = encode t

theorem trim_eq_of_not_whitespace {t : Chars} (h : ∀ c ∈ t, isWhitespace c = false) :
    Str.trim t = t := by
  have hdrop : ∀ l : Chars, (∀ c ∈ l, isWhitespace c = false) → l.dropWhile isWhitespace = l := by
    intro l hl
    cases l with
    | nil => rfl
    | cons c l => exact List.dropWhile_cons_of_neg (by rw [hl c List.mem_cons_self]; decide)
  unfold Str.trim
  rw [hdrop t h, hdrop t.reverse fun c hc => h c (List.mem_reverse.mp hc), List.reverse_reverse]

/-- Nothing is left to trim of what was trimmed. -/
theorem trimmed_trim (s : Chars) : Trimmed (encode (Str.trim s)) := by
  refine ⟨Str.trim s, ?_, rfl⟩
  have hends : ∀ l : Chars, (l.dropWhile isWhitespace).rdropWhile isWhitespace = Str.trim l :=
    fun _ => rfl
  have hfront : (Str.trim s).dropWhile isWhitespace = Str.trim s := by
    rw [List.dropWhile_eq_self_iff, ← hends]
    intro hpos
    -- what is left starts with what the front starts with
    have hkept := List.rdropWhile_prefix isWhitespace (l := s.dropWhile isWhitespace)
    have hlen := hpos.trans_le hkept.length_le
    rw [hkept.getElem hpos]
    exact List.dropWhile_get_zero_not isWhitespace s hlen
  rw [← hends (Str.trim s), hfront, ← hends s, List.rdropWhile_idempotent]

/-- A printable ASCII character is not whitespace. -/
theorem not_isWhitespace {c : Char} (h : 33 ≤ c.toNat) (h' : c.toNat < 127) :
    isWhitespace c = false := by
  unfold isWhitespace
  simp only [Bool.or_eq_false_iff, Bool.and_eq_false_iff, decide_eq_false_iff_not,
    beq_eq_false_iff_ne]
  omega

theorem Printable.trimmed {s : CStr} (hs : Printable s) : Trimmed s := by
  obtain ⟨t, rfl⟩ := valid_of_ascii hs.ascii
  refine ⟨t, trim_eq_of_not_whitespace fun c hc => ?_, rfl⟩
  obtain ⟨b, hb⟩ := List.exists_mem_of_ne_nil (String.utf8EncodeChar c)
    (String.utf8EncodeChar_ne_nil)
  have hmem : b ∈ encode t := List.mem_flatMap.mpr ⟨c, hc, hb⟩
  obtain ⟨hlo, hhi⟩ := hs b hmem
  have hc := (utf8EncodeChar_of_ascii (hs.ascii b hmem) hb).2
  rw [UInt8.le_iff_toNat_le] at hlo
  rw [UInt8.lt_iff_toNat_lt] at hhi
  exact not_isWhitespace (hc ▸ hlo) (hc ▸ hhi)

end CText
