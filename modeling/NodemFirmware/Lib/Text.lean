import Mathlib.Data.List.TakeWhile
import Mathlib.Tactic

/-! # C strings, decimal numerals and separated fields

What C code does with text, as total functions on byte lists.

* A NUL-terminated string is the list of bytes before its terminator (`CStr`); `ofBytes`
  reads one out of a buffer.  `strncpy` and `snprintf` keep what fits the buffer.
* `fmtU`, `fmtD`, `fmtHex` are `%u`, `%d` and the zero-padded `%0kx`.
* `strtol` (base 10) skips white space, takes an optional sign and reads digits,
  saturating at the bounds of a 32-bit `long`; it is `none` where C leaves `end` at the
  start of the string.
* `cut` splits at the first separator, as `strchr` does, and `trim` drops the blanks
  around a field.
* `textLines` are the lines of a text.

`strtol_fmtU` and `cut_append` are the two facts a parser of printed fields rests on. -/

namespace CText

/-- The bytes of a NUL-terminated string before its terminator. -/
abbrev CStr := List UInt8

instance charToByte : Coe Char UInt8 := ⟨Char.toUInt8⟩

/-! ### Error numbers -/

namespace Errno

def noent : ℤ := 2
def io : ℤ := 5
def nomem : ℤ := 12
def inval : ℤ := 22
def nospc : ℤ := 28
def notconn : ℤ := 128

end Errno

/-! ### Buffers and strings -/

/-- A string literal. -/
def cs (s : String) : CStr := s.toList.map Char.toUInt8

/-- The string a buffer holds: what comes before its first NUL. -/
def ofBytes (l : List UInt8) : CStr := l.takeWhile (· ≠ 0)

/-- `strncpy(buf, s, cap - 1); buf[cap - 1] = '\0'`, and `snprintf` into `cap` bytes. -/
def clip (cap : ℕ) (s : CStr) : CStr := s.take (cap - 1)

theorem clip_of_lt {cap : ℕ} {s : CStr} (h : s.length < cap) : clip cap s = s :=
  List.take_of_length_le (by omega)

theorem ofBytes_append_zero {s : CStr} (h : (0 : UInt8) ∉ s) (t : List UInt8) :
    ofBytes (s ++ 0 :: t) = s := by
  unfold ofBytes
  rw [List.takeWhile_append_of_pos (fun c hc => by
    simp only [ne_eq, decide_eq_true_eq]
    rintro rfl
    exact h hc)]
  simp

theorem ofBytes_of_not_mem {s : CStr} (h : (0 : UInt8) ∉ s) : ofBytes s = s := by
  unfold ofBytes
  rw [List.takeWhile_eq_self_iff]
  intro c hc
  simp only [ne_eq, decide_eq_true_eq]
  rintro rfl
  exact h hc

/-! ### Character classes -/

def isdigit (c : UInt8) : Bool := ('0' : UInt8) ≤ c && c ≤ ('9' : UInt8)

def isspace (c : UInt8) : Bool := c == ' ' || (9 ≤ c && c ≤ 13)

/-- The value of a decimal digit. -/
def digitVal (c : UInt8) : ℕ := c.toNat - 48

/-! ### Printing -/

/-- `%u`. -/
def fmtU (n : ℕ) : CStr := (Nat.toDigits 10 n).map Char.toUInt8

/-- `%d`. -/
def fmtD (i : ℤ) : CStr := if i < 0 then ('-' : UInt8) :: fmtU i.natAbs else fmtU i.natAbs

/-- The `d`-th lower-case hexadecimal digit. -/
def hexDigit (d : ℕ) : UInt8 := (Nat.digitChar d).toUInt8

/-- The last `k` hexadecimal digits of a number. -/
def fmtX : ℕ → ℕ → CStr
  | 0, _ => []
  | k + 1, n => fmtX k (n / 16) ++ [hexDigit (n % 16)]

/-- `%0kx`: at least `k` hexadecimal digits. -/
def fmtHex (k n : ℕ) : CStr :=
  if n < 16 ^ k then fmtX k n else (Nat.toDigits 16 n).map Char.toUInt8

theorem fmtU_of_lt {n : ℕ} (h : n < 10) : fmtU n = [UInt8.ofNat (48 + n)] := by
  interval_cases n <;> rfl

theorem fmtU_of_le {n : ℕ} (h : 10 ≤ n) :
    fmtU n = fmtU (n / 10) ++ [UInt8.ofNat (48 + n % 10)] := by
  have hd : [Nat.digitChar (n % 10)].map Char.toUInt8 = [UInt8.ofNat (48 + n % 10)] := by
    have : n % 10 < 10 := Nat.mod_lt _ (by omega)
    interval_cases n % 10 <;> rfl
  unfold fmtU
  rw [Nat.toDigits_of_base_le (by omega) h, List.map_append, hd]

theorem fmtU_ne_nil (n : ℕ) : fmtU n ≠ [] := by
  simp [fmtU, Nat.toDigits_ne_nil]

theorem fmtU_length_le {n k : ℕ} (hk : 0 < k) (h : n < 10 ^ k) : (fmtU n).length ≤ k := by
  rw [fmtU, List.length_map]
  exact (Nat.length_toDigits_le_iff (by omega) hk).mpr h

theorem isdigit_of_mem_fmtU {n : ℕ} {c : UInt8} (h : c ∈ fmtU n) : isdigit c = true := by
  induction n using Nat.strong_induction_on generalizing c with
  | _ n ih =>
      have hdig : ∀ d, d < 10 → isdigit (UInt8.ofNat (48 + d)) = true := by
        intro d hd
        interval_cases d <;> rfl
      rcases Nat.lt_or_ge n 10 with hn | hn
      · rw [fmtU_of_lt hn, List.mem_singleton] at h
        rw [h]
        exact hdig n hn
      · rw [fmtU_of_le hn, List.mem_append, List.mem_singleton] at h
        rcases h with h | h
        · exact ih (n / 10) (by omega) h
        · rw [h]
          exact hdig _ (Nat.mod_lt _ (by omega))

/-- A byte that is not a digit does not occur in a printed number. -/
theorem not_mem_fmtU {c : UInt8} (h : isdigit c = false) (n : ℕ) : c ∉ fmtU n := by
  intro hc
  rw [isdigit_of_mem_fmtU hc] at h
  cases h

@[simp] theorem fmtX_length (k n : ℕ) : (fmtX k n).length = k := by
  induction k generalizing n with
  | zero => rfl
  | succ k ih => simp [fmtX, ih]

theorem mem_fmtX {k n : ℕ} {c : UInt8} (h : c ∈ fmtX k n) : ∃ d < 16, c = hexDigit d := by
  induction k generalizing n with
  | zero => simp [fmtX] at h
  | succ k ih =>
      rw [fmtX, List.mem_append, List.mem_singleton] at h
      rcases h with h | h
      · exact ih h
      · exact ⟨n % 16, Nat.mod_lt _ (by omega), h⟩

/-! ### Reading numbers -/

/-- The longest run of digits at the front, onto the value read so far. -/
def readDigits : CStr → ℕ → ℕ × CStr
  | [], acc => (acc, [])
  | c :: s, acc => if isdigit c then readDigits s (acc * 10 + digitVal c) else (acc, c :: s)

/-- `LONG_MAX` where `long` has 32 bits. -/
def longMax : ℤ := 2 ^ 31 - 1

/-- The sign of a number and what follows it. -/
def readSign : CStr → Bool × CStr
  | [] => (false, [])
  | c :: s => if c == '-' then (true, s) else if c == '+' then (false, s) else (false, c :: s)

/-- `strtol(s, &end, 10)`: the value and the text at `end`, or `none` when there is no
number (`end == s`). -/
def strtol (s : CStr) : Option (ℤ × CStr) :=
  let (neg, ds) := readSign (s.dropWhile isspace)
  match ds with
  | [] => none
  | c :: _ =>
      if isdigit c then
        let (n, rest) := readDigits ds 0
        some (if neg then max (-(n : ℤ)) (-longMax - 1) else min (n : ℤ) longMax, rest)
      else none

/-- A tail at which a run of digits stops. -/
def NoDigit : CStr → Prop
  | [] => True
  | c :: _ => isdigit c = false

theorem readDigits_noDigit {s : CStr} (h : NoDigit s) (acc : ℕ) : readDigits s acc = (acc, s) := by
  cases s with
  | nil => rfl
  | cons c s =>
      have hc : isdigit c = false := h
      simp [readDigits, hc]

theorem readDigits_append (ds s : CStr) (hd : ∀ c ∈ ds, isdigit c = true) (acc : ℕ) :
    readDigits (ds ++ s) acc = readDigits s ((readDigits ds acc).1) := by
  induction ds generalizing acc with
  | nil => rfl
  | cons c ds ih =>
      have hc := hd c (List.mem_cons_self ..)
      simp only [List.cons_append, readDigits, hc, if_true]
      exact ih (fun d h => hd d (List.mem_cons_of_mem _ h)) _

theorem readDigits_fmtU (n : ℕ) : readDigits (fmtU n) 0 = (n, []) := by
  have hval : ∀ d, d < 10 → ∀ acc, readDigits [UInt8.ofNat (48 + d)] acc = (acc * 10 + d, []) := by
    intro d hd acc
    interval_cases d <;> rfl
  induction n using Nat.strong_induction_on with
  | _ n ih =>
      rcases Nat.lt_or_ge n 10 with hn | hn
      · rw [fmtU_of_lt hn, hval n hn]
        simp
      · rw [fmtU_of_le hn, readDigits_append _ _ (fun c hc => isdigit_of_mem_fmtU hc),
          ih (n / 10) (by omega), hval _ (Nat.mod_lt _ (by omega))]
        simp only [Prod.mk.injEq, and_true]
        omega

theorem isspace_of_isdigit {c : UInt8} (h : isdigit c = true) : isspace c = false := by
  simp only [isdigit, Bool.and_eq_true, decide_eq_true_eq, UInt8.le_iff_toNat_le] at h
  have h0 : (('0' : Char).toUInt8).toNat = 48 := rfl
  rw [h0] at h
  simp only [isspace, Bool.or_eq_false_iff, beq_eq_false_iff_ne, Bool.and_eq_false_iff,
    decide_eq_false_iff_not, UInt8.le_iff_toNat_le]
  constructor
  · rintro rfl
    exact absurd h.1 (by decide)
  · right
    show ¬ c.toNat ≤ 13
    omega

theorem readSign_of_isdigit {c : UInt8} (h : isdigit c = true) (s : CStr) :
    readSign (c :: s) = (false, c :: s) := by
  have hm : (c == ('-' : UInt8)) = false := by
    rw [beq_eq_false_iff_ne]
    rintro rfl
    exact absurd h (by decide)
  have hp : (c == ('+' : UInt8)) = false := by
    rw [beq_eq_false_iff_ne]
    rintro rfl
    exact absurd h (by decide)
  simp [readSign, hm, hp]

/-- **Reading back a printed number**: `strtol` returns it and stops right after it. -/
theorem strtol_fmtU {n : ℕ} (hn : (n : ℤ) ≤ longMax) {s : CStr} (hs : NoDigit s) :
    strtol (fmtU n ++ s) = some ((n : ℤ), s) := by
  have hd : ∀ c ∈ fmtU n, isdigit c = true := fun c hc => isdigit_of_mem_fmtU hc
  cases hf : fmtU n with
  | nil => exact absurd hf (fmtU_ne_nil n)
  | cons c ds =>
      have hc : isdigit c = true := hd c (by rw [hf]; exact List.mem_cons_self ..)
      have hr : readDigits (c :: (ds ++ s)) 0 = (n, s) := by
        have h1 := readDigits_append (fmtU n) s hd 0
        rw [readDigits_fmtU, readDigits_noDigit hs, hf] at h1
        exact h1
      unfold strtol
      rw [List.cons_append, List.dropWhile_cons_of_neg (by simp [isspace_of_isdigit hc]),
        readSign_of_isdigit hc]
      simp only [hc, if_true, hr, Bool.false_eq_true, if_false]
      rw [min_eq_left hn]

/-- Skipping stops at a byte that is not skipped, whatever comes after. -/
theorem dropWhile_append_of_mem {p : UInt8 → Bool} {c : UInt8} (hp : p c = false) {s : CStr}
    (h : c ∈ s) (t : CStr) :
    (s ++ t).dropWhile p = s.dropWhile p ++ t ∧ c ∈ s.dropWhile p := by
  induction s with
  | nil => cases h
  | cons d s ih =>
      rw [List.cons_append]
      by_cases hd : p d = true
      · rw [List.dropWhile_cons_of_pos hd, List.dropWhile_cons_of_pos hd]
        rcases List.mem_cons.mp h with rfl | h
        · rw [hp] at hd
          cases hd
        · exact ih h
      · rw [List.dropWhile_cons_of_neg hd, List.dropWhile_cons_of_neg hd]
        exact ⟨rfl, h⟩

theorem readDigits_append_of_mem {c : UInt8} (hc : isdigit c = false) {s : CStr} (h : c ∈ s)
    (t : CStr) (acc : ℕ) :
    readDigits (s ++ t) acc = ((readDigits s acc).1, (readDigits s acc).2 ++ t) ∧
      c ∈ (readDigits s acc).2 := by
  induction s generalizing acc with
  | nil => cases h
  | cons d s ih =>
      rw [List.cons_append]
      unfold readDigits
      by_cases hd : isdigit d = true
      · rw [if_pos hd, if_pos hd]
        rcases List.mem_cons.mp h with rfl | h
        · rw [hc] at hd
          cases hd
        · exact ih h _
      · rw [if_neg hd, if_neg hd]
        exact ⟨rfl, h⟩

theorem readSign_append_of_mem {c : UInt8} (hm : c ≠ '-') (hp : c ≠ '+') {s : CStr} (h : c ∈ s)
    (t : CStr) :
    readSign (s ++ t) = ((readSign s).1, (readSign s).2 ++ t) ∧ c ∈ (readSign s).2 := by
  cases s with
  | nil => cases h
  | cons d s =>
      have htail : ∀ sign, d = sign → c ≠ sign → c ∈ s := fun _ hd hne =>
        (List.mem_cons.mp h).resolve_left fun heq => hne (heq.trans hd)
      simp only [List.cons_append, readSign]
      split_ifs with hminus hplus
      · exact ⟨rfl, htail _ (beq_iff_eq.mp hminus) hm⟩
      · exact ⟨rfl, htail _ (beq_iff_eq.mp hplus) hp⟩
      · exact ⟨rfl, h⟩

/-- **A number ends before a byte that is no part of one**, whatever comes after. -/
theorem strtol_append_of_mem {c : UInt8} (hdigit : isdigit c = false) (hspace : isspace c = false)
    (hm : c ≠ '-') (hp : c ≠ '+') {s : CStr} (h : c ∈ s) (t : CStr) :
    strtol (s ++ t) = (strtol s).map (fun p => (p.1, p.2 ++ t)) ∧
      ∀ v r, strtol s = some (v, r) → c ∈ r := by
  obtain ⟨hblank, hmem⟩ := dropWhile_append_of_mem hspace h t
  obtain ⟨hsign, hmem⟩ := readSign_append_of_mem hm hp hmem t
  unfold strtol
  rw [hblank, hsign]
  generalize readSign (s.dropWhile isspace) = sign at hmem
  obtain ⟨neg, ds⟩ := sign
  cases ds with
  | nil => cases hmem
  | cons d ds =>
      obtain ⟨hdigits, hrest⟩ := readDigits_append_of_mem hdigit hmem t 0
      simp only [List.cons_append] at hdigits ⊢
      rw [hdigits]
      by_cases hd : isdigit d = true
      · rw [if_pos hd, if_pos hd]
        refine ⟨rfl, fun v r heq => ?_⟩
        cases heq
        exact hrest
      · rw [if_neg hd, if_neg hd]
        refine ⟨rfl, fun v r heq => ?_⟩
        cases heq

/-- A byte that is neither a digit nor the sign does not occur in a printed integer. -/
theorem not_mem_fmtD {c : UInt8} (h : isdigit c = false) (hm : c ≠ '-') (i : ℤ) : c ∉ fmtD i := by
  unfold fmtD
  split_ifs
  · rw [List.mem_cons, not_or]
    exact ⟨hm, not_mem_fmtU h _⟩
  · exact not_mem_fmtU h _

theorem fmtD_length_le {i : ℤ} {k : ℕ} (hk : 0 < k) (h : i.natAbs < 10 ^ k) :
    (fmtD i).length ≤ k + 1 := by
  have hu := fmtU_length_le hk h
  unfold fmtD
  split_ifs
  · rw [List.length_cons]
    omega
  · omega

/-- **Reading back a printed integer.** -/
theorem strtol_fmtD {i : ℤ} (hlo : -longMax - 1 ≤ i) (hhi : i ≤ longMax) {s : CStr}
    (hs : NoDigit s) : strtol (fmtD i ++ s) = some (i, s) := by
  unfold fmtD
  split_ifs with hneg
  · have hd : ∀ c ∈ fmtU i.natAbs, isdigit c = true := fun c hc => isdigit_of_mem_fmtU hc
    have hread : readDigits (fmtU i.natAbs ++ s) 0 = (i.natAbs, s) := by
      rw [readDigits_append _ _ hd, readDigits_fmtU, readDigits_noDigit hs]
    cases hf : fmtU i.natAbs with
    | nil => exact absurd hf (fmtU_ne_nil _)
    | cons c ds =>
        have hc : isdigit c = true := hd c (by rw [hf]; exact List.mem_cons_self ..)
        rw [hf, List.cons_append] at hread
        unfold strtol
        rw [List.cons_append, List.cons_append, List.dropWhile_cons_of_neg (by decide)]
        simp only [readSign, beq_self_eq_true, if_true, hc, hread]
        rw [max_eq_left (by omega)]
        congr 2
        omega
  · rw [strtol_fmtU (by omega) hs]
    congr 2
    omega

/-! ### Separated fields -/

/-- The text before the first `sep`, and what follows it if there is one. -/
def cut (sep : UInt8) : CStr → CStr × Option CStr
  | [] => ([], none)
  | c :: s => if c == sep then ([], some s) else ((c :: (cut sep s).1), (cut sep s).2)

/-- All the fields of a text, in order. -/
def fields (sep : UInt8) : CStr → List CStr
  | [] => [[]]
  | c :: s =>
      if c == sep then [] :: fields sep s
      else
        match fields sep s with
        | [] => [[c]]
        | f :: l => (c :: f) :: l

/-- Fields printed with a separator between them. -/
def joinWith (sep : UInt8) (fields : List CStr) : CStr := [sep].intercalate fields

def isBlank (c : UInt8) : Bool := c == ' '

/-- A field without the blanks around it. -/
def trim (s : CStr) : CStr := ((s.dropWhile isBlank).reverse.dropWhile isBlank).reverse

theorem cut_of_not_mem {sep : UInt8} {s : CStr} (h : sep ∉ s) : cut sep s = (s, none) := by
  induction s with
  | nil => rfl
  | cons c s ih =>
      have hc : (c == sep) = false := by
        rw [beq_eq_false_iff_ne]
        rintro rfl
        exact h (List.mem_cons_self ..)
      simp [cut, hc, ih (fun hm => h (List.mem_cons_of_mem _ hm))]

/-- **Splitting a joined text** gives the field back and the rest after the separator. -/
theorem cut_append {sep : UInt8} {s : CStr} (h : sep ∉ s) (t : CStr) :
    cut sep (s ++ sep :: t) = (s, some t) := by
  induction s with
  | nil => simp [cut]
  | cons c s ih =>
      have hc : (c == sep) = false := by
        rw [beq_eq_false_iff_ne]
        rintro rfl
        exact h (List.mem_cons_self ..)
      simp [cut, hc, ih (fun hm => h (List.mem_cons_of_mem _ hm))]

theorem cut_length_le (sep : UInt8) (s : CStr) : (cut sep s).1.length ≤ s.length := by
  induction s with
  | nil => exact Nat.le_refl _
  | cons c s ih =>
      unfold cut
      split_ifs
      · exact Nat.zero_le _
      · exact Nat.succ_le_succ ih

theorem fields_ne_nil (sep : UInt8) (s : CStr) : fields sep s ≠ [] := by
  cases s with
  | nil => simp [fields]
  | cons c s =>
      unfold fields
      split_ifs
      · simp
      · split <;> simp

theorem fields_of_not_mem {sep : UInt8} {s : CStr} (h : sep ∉ s) : fields sep s = [s] := by
  induction s with
  | nil => rfl
  | cons c s ih =>
      rw [List.mem_cons, not_or] at h
      have hc : (c == sep) = false := beq_eq_false_iff_ne.mpr (Ne.symm h.1)
      simp only [fields, hc, Bool.false_eq_true, if_false, ih h.2]

theorem fields_append {sep : UInt8} {s : CStr} (h : sep ∉ s) (t : CStr) :
    fields sep (s ++ sep :: t) = s :: fields sep t := by
  induction s with
  | nil => simp [fields]
  | cons c s ih =>
      rw [List.mem_cons, not_or] at h
      have hc : (c == sep) = false := beq_eq_false_iff_ne.mpr (Ne.symm h.1)
      simp only [List.cons_append, fields, hc, Bool.false_eq_true, if_false, ih h.2]

@[simp] theorem joinWith_singleton (sep : UInt8) (f : CStr) : joinWith sep [f] = f := by
  simp [joinWith, List.intercalate]

@[simp] theorem joinWith_cons_cons (sep : UInt8) (f g : CStr) (l : List CStr) :
    joinWith sep (f :: g :: l) = f ++ sep :: joinWith sep (g :: l) := by
  simp [joinWith, List.intercalate]

theorem joinWith_cons (sep : UInt8) (f : CStr) (l : List CStr) :
    joinWith sep (f :: l) = f ++ l.flatMap (sep :: ·) := by
  induction l generalizing f with
  | nil => simp
  | cons g l ih => rw [joinWith_cons_cons, ih, List.flatMap_cons, List.cons_append]

/-- **All the fields of a joined text.** -/
theorem fields_joinWith {sep : UInt8} {f : CStr} {l : List CStr} (h : ∀ g ∈ f :: l, sep ∉ g) :
    fields sep (joinWith sep (f :: l)) = f :: l := by
  induction l generalizing f with
  | nil =>
      rw [joinWith_singleton]
      exact fields_of_not_mem (h f (List.mem_cons_self ..))
  | cons g l ih =>
      rw [joinWith_cons_cons, fields_append (h f (List.mem_cons_self ..)),
        ih fun k hk => h k (List.mem_cons_of_mem _ hk)]

/-- Fields before a text that has separators of its own. -/
theorem fields_joinWith_append {sep : UInt8} {l : List CStr} (h : ∀ f ∈ l, sep ∉ f) (t : CStr) :
    fields sep (joinWith sep (l ++ [t])) = l ++ fields sep t := by
  induction l with
  | nil => rw [List.nil_append, joinWith_singleton, List.nil_append]
  | cons f l ih =>
      have ih := ih fun g hg => h g (List.mem_cons_of_mem f hg)
      obtain ⟨g, m, hgm⟩ := List.exists_cons_of_ne_nil (l := l ++ [t]) (by simp)
      rw [List.cons_append, List.cons_append]
      rw [hgm] at ih ⊢
      rw [joinWith_cons_cons, fields_append (h f List.mem_cons_self), ih]

theorem not_mem_joinWith {sep c : UInt8} (hc : c ≠ sep) {l : List CStr} (h : ∀ f ∈ l, c ∉ f) :
    c ∉ joinWith sep l := by
  induction l with
  | nil => simp [joinWith]
  | cons f l ih =>
      have hf : c ∉ f := h f (List.mem_cons_self ..)
      have hl : c ∉ joinWith sep l := ih (fun g hg => h g (List.mem_cons_of_mem _ hg))
      cases l with
      | nil => simpa using hf
      | cons g l => simp [hf, hc, hl]

/-- The fields of a text are what is between its separators. -/
theorem joinWith_fields (sep : UInt8) (s : CStr) : joinWith sep (fields sep s) = s := by
  induction s with
  | nil => rfl
  | cons c s ih =>
      unfold fields
      split_ifs with hc
      · obtain ⟨f, l, hf⟩ := List.exists_cons_of_ne_nil (fields_ne_nil sep s)
        rw [hf] at ih ⊢
        rw [joinWith_cons_cons, ih, beq_iff_eq.mp hc, List.nil_append]
      · cases hf : fields sep s with
        | nil => exact absurd hf (fields_ne_nil sep s)
        | cons f l =>
            rw [hf] at ih
            rw [joinWith_cons] at ih ⊢
            rw [List.cons_append, ih]

theorem not_mem_of_mem_fields {sep : UInt8} {s f : CStr} (h : f ∈ fields sep s) : sep ∉ f := by
  induction s generalizing f with
  | nil =>
      rw [fields, List.mem_singleton] at h
      rw [h]
      exact List.not_mem_nil
  | cons c s ih =>
      unfold fields at h
      split_ifs at h with hc
      · rcases List.mem_cons.mp h with rfl | h
        · exact List.not_mem_nil
        · exact ih h
      · cases hf : fields sep s with
        | nil => exact absurd hf (fields_ne_nil sep s)
        | cons g l =>
            rw [hf] at h ih
            rcases List.mem_cons.mp h with rfl | h
            · rw [List.mem_cons, not_or]
              refine ⟨?_, ih List.mem_cons_self⟩
              rintro rfl
              exact hc (beq_self_eq_true _)
            · exact ih (List.mem_cons_of_mem g h)

theorem mem_joinWith {sep c : UInt8} {l : List CStr} {f : CStr} (hf : f ∈ l) (hc : c ∈ f) :
    c ∈ joinWith sep l := by
  induction l with
  | nil => cases hf
  | cons g l ih =>
      rw [joinWith_cons, List.mem_append]
      rcases List.mem_cons.mp hf with rfl | hf
      · exact .inl hc
      · exact .inr (List.mem_flatMap.mpr ⟨f, hf, List.mem_cons_of_mem sep hc⟩)

theorem dropWhile_eq_of_not_mem {s : CStr} (h : (' ' : UInt8) ∉ s) :
    s.dropWhile isBlank = s := by
  cases s with
  | nil => rfl
  | cons c s =>
      rw [List.dropWhile_cons_of_neg]
      simp only [isBlank, beq_iff_eq]
      rintro rfl
      exact h (List.mem_cons_self ..)

theorem trim_of_not_mem {s : CStr} (h : (' ' : UInt8) ∉ s) : trim s = s := by
  unfold trim
  rw [dropWhile_eq_of_not_mem h, dropWhile_eq_of_not_mem (by simpa using h), List.reverse_reverse]

/-! ### Lines -/

/-- The lines of a text that are not empty; a CR and an LF each end one. -/
def textLines (s : CStr) : List CStr :=
  (fields 10 (s.map fun c => if c = 13 then 10 else c)).filter (· ≠ [])

theorem textLines_nil : textLines [] = [] := by decide

/-- **A line and what follows it.** -/
theorem textLines_append {l : CStr} (hne : l ≠ []) (hcr : (13 : UInt8) ∉ l)
    (hlf : (10 : UInt8) ∉ l) (t : CStr) : textLines (l ++ 13 :: 10 :: t) = l :: textLines t := by
  have hmap : l.map (fun c => if c = (13 : UInt8) then 10 else c) = l := by
    conv_rhs => rw [← List.map_id l]
    refine List.map_congr_left fun c hc => ?_
    rw [if_neg (by rintro rfl; exact hcr hc), id]
  unfold textLines
  rw [List.map_append, List.map_cons, List.map_cons, if_pos rfl, if_neg (by decide), hmap,
    fields_append hlf]
  simp [fields, hne]

theorem not_mem_of_mem_textLines {l s : CStr} (h : l ∈ textLines s) :
    (13 : UInt8) ∉ l ∧ (10 : UInt8) ∉ l := by
  have hl := List.mem_of_mem_filter h
  refine ⟨fun hcr => ?_, not_mem_of_mem_fields hl⟩
  have hmem : (13 : UInt8) ∈ joinWith 10 (fields 10 _) := mem_joinWith hl hcr
  rw [joinWith_fields] at hmem
  obtain ⟨c, -, hc⟩ := List.mem_map.mp hmem
  split_ifs at hc with h13
  · cases hc
  · exact h13 hc

end CText
