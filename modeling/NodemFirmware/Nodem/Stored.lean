import NodemFirmware.Config.Store
import NodemFirmware.Nodem.Config

/-! # The "nodem" config printed and stored

`format` of `nodem_config.c`, with `nodem_config_get` and `nodem_config_set` around it.
`format` appends to its buffer with what `snprintf` returns, so `n` is the length the text
would have; `format_eq` says that it always has it.

`parse_text` is the round trip of a config, whatever text it was parsed from. -/

namespace NodemFirmware.Nodem

open CText ConfigStore

def nodemKey : CStr := cs "nodem"

def nodemDefault : CStr := cs "128:64:1,oled:0:0:1:1"

def nodemValueLen : ℕ := 128

/-! ### Source -/

/-- `format_device`: the text in the buffer and `n`. -/
def formatDevice (bufLen : ℕ) (driver : CStr) (m : Mapping) (buf : CStr × ℕ) : CStr × ℕ :=
  if m.present ∧ 0 < buf.2 ∧ buf.2 < bufLen then
    let s := cs "," ++ driver ++ cs ":" ++ fmtD m.x ++ cs ":" ++ fmtD m.y ++ cs ":" ++
      fmtU m.scaleX ++ cs ":" ++ fmtU m.scaleY
    (buf.1 ++ clip (bufLen - buf.2) s, buf.2 + s.length)
  else buf

/-- `format`: the text in the buffer and the length it would have in a longer one. -/
def format (c : Config) (bufLen : ℕ) : CStr × ℕ :=
  let s := fmtU c.width ++ cs ":" ++ fmtU c.height ++ cs ":" ++ fmtU c.bitsPerPixel
  formatDevice bufLen (cs "hub75") c.hub75
    (formatDevice bufLen (cs "oled") c.oled (clip bufLen s, s.length))

/-- `nodem_config_get` into `out`; `err` is what saving the default returns. -/
def nodemConfigGet (st : Store) (err : ℤ) (out : Config) : Config × Store :=
  let value := configGetStr st.entries nodemKey nodemValueLen []
  match parse value with
  | some c => (c, st)
  | none =>
      ((parse nodemDefault).getD out, (configSetStr st nodemKey nodemDefault err).2)

/-- `nodem_config_set`: what it returns, the store and `generation`; `err` is what saving the
text returns. -/
def nodemConfigSet (st : Store) (generation : BitVec 32) (value : CStr) (err : ℤ) :
    ℤ × Store × BitVec 32 :=
  let value := value.dropWhile isBlank
  match parse (if value ≠ [] then value else nodemDefault) with
  | none => (-Errno.inval, st, generation)
  | some c =>
      let r := configSetStr st nodemKey (format c nodemValueLen).1 err
      (r.1, r.2, if r.1 = 0 then generation + 1 else generation)

/-! ### The printed config -/

/-- A device entry. -/
def Mapping.text (driver : CStr) (m : Mapping) : CStr :=
  joinWith ':' [driver, fmtD m.x, fmtD m.y, fmtU m.scaleX, fmtU m.scaleY]

def Mapping.entries (driver : CStr) (m : Mapping) : List CStr :=
  if m.present then [m.text driver] else []

def Config.geometryText (c : Config) : CStr :=
  joinWith ':' [fmtU c.width, fmtU c.height, fmtU c.bitsPerPixel]

def Config.text (c : Config) : CStr :=
  joinWith ',' (c.geometryText :: (c.oled.entries (cs "oled") ++ c.hub75.entries (cs "hub75")))

variable {c : Config} {m : Mapping}

theorem Mapping.Ok.of_present (h : m.Ok) (hp : m.present = true) :
    (-32768 ≤ m.x ∧ m.x ≤ 32767) ∧ (-32768 ≤ m.y ∧ m.y ≤ 32767) ∧
      (1 ≤ m.scaleX ∧ m.scaleX ≤ maxScale) ∧ (1 ≤ m.scaleY ∧ m.scaleY ≤ maxScale) := by
  rcases h with rfl | h
  · cases hp
  · exact h.2

theorem Mapping.Ok.of_absent (h : m.Ok) (hp : m.present = false) : m = .zero := by
  rcases h with h | h
  · exact h
  · rw [h.1] at hp
    cases hp

theorem geometryText_length (hc : c.Ok) : c.geometryText.length ≤ 11 := by
  have hw := hc.width
  have hh := hc.height
  unfold maxDimension at hw hh
  have h1 : (fmtU c.width).length ≤ 4 := fmtU_length_le (by decide) (by omega)
  have h2 : (fmtU c.height).length ≤ 4 := fmtU_length_le (by decide) (by omega)
  have h3 : (fmtU c.bitsPerPixel).length ≤ 1 :=
    fmtU_length_le (by decide) (by rw [hc.bitsPerPixel]; decide)
  unfold Config.geometryText
  simp only [joinWith_cons_cons, joinWith_singleton, List.length_append, List.length_cons]
  omega

theorem Mapping.text_length (hm : m.Ok) (hp : m.present = true) (driver : CStr) :
    (m.text driver).length ≤ driver.length + 20 := by
  obtain ⟨hx, hy, hsx, hsy⟩ := hm.of_present hp
  unfold maxScale at hsx hsy
  have h1 : (fmtD m.x).length ≤ 6 := fmtD_length_le (k := 5) (by decide) (by omega)
  have h2 : (fmtD m.y).length ≤ 6 := fmtD_length_le (k := 5) (by decide) (by omega)
  have h3 : (fmtU m.scaleX).length ≤ 2 := fmtU_length_le (by decide) (by omega)
  have h4 : (fmtU m.scaleY).length ≤ 2 := fmtU_length_le (by decide) (by omega)
  unfold Mapping.text
  simp only [joinWith_cons_cons, joinWith_singleton, List.length_append, List.length_cons]
  omega

/-- Appending a device entry where there is room for it. -/
theorem formatDevice_eq (hm : m.Ok) {driver buf : CStr} {bufLen : ℕ} (hpos : 0 < buf.length)
    (hroom : buf.length + driver.length + 21 < bufLen) :
    formatDevice bufLen driver m (buf, buf.length) =
      let s := buf ++ (m.entries driver).flatMap ((',' : UInt8) :: ·)
      (s, s.length) := by
  unfold formatDevice Mapping.entries
  by_cases hp : m.present = true
  · have hlen := Mapping.text_length hm hp driver
    have htext : cs "," ++ driver ++ cs ":" ++ fmtD m.x ++ cs ":" ++ fmtD m.y ++ cs ":" ++
        fmtU m.scaleX ++ cs ":" ++ fmtU m.scaleY = (',' : UInt8) :: m.text driver := by
      have hcomma : cs "," = [(',' : UInt8)] := rfl
      have hcolon : cs ":" = [(':' : UInt8)] := rfl
      unfold Mapping.text
      rw [hcomma, hcolon]
      simp
    rw [if_pos ⟨hp, hpos, by simp only; omega⟩, if_pos hp]
    simp only [htext]
    rw [clip_of_lt (by rw [List.length_cons]; omega)]
    simp
  · rw [if_neg fun h => hp h.1, if_neg hp]
    simp

theorem Mapping.entries_length (hm : m.Ok) (driver : CStr) :
    ((m.entries driver).flatMap ((',' : UInt8) :: ·)).length ≤ driver.length + 21 := by
  unfold Mapping.entries
  split_ifs with hp
  · have hlen := Mapping.text_length hm hp driver
    simp only [List.flatMap_singleton, List.length_cons]
    omega
  · simp

/-- **Nothing is cut off**: 62 bytes at most. -/
theorem format_eq (hc : c.Ok) :
    format c nodemValueLen = (c.text, c.text.length) ∧ c.text.length < nodemValueLen := by
  have hgeometry : fmtU c.width ++ cs ":" ++ fmtU c.height ++ cs ":" ++ fmtU c.bitsPerPixel =
      c.geometryText := by
    have hcolon : cs ":" = [(':' : UInt8)] := rfl
    unfold Config.geometryText
    rw [hcolon]
    simp
  have hlen := geometryText_length hc
  have holed := Mapping.entries_length hc.oled (cs "oled")
  have hhub := Mapping.entries_length hc.hub75 (cs "hub75")
  have hdrivers : (cs "oled").length = 4 ∧ (cs "hub75").length = 5 := ⟨rfl, rfl⟩
  have hpos : 0 < c.geometryText.length := by
    unfold Config.geometryText
    rw [joinWith_cons_cons, List.length_append, List.length_cons]
    omega
  have htext : c.text = c.geometryText ++
      (c.oled.entries (cs "oled")).flatMap ((',' : UInt8) :: ·) ++
      (c.hub75.entries (cs "hub75")).flatMap ((',' : UInt8) :: ·) := by
    unfold Config.text
    rw [joinWith_cons, List.flatMap_append, List.append_assoc]
  unfold format nodemValueLen
  simp only [hgeometry]
  rw [clip_of_lt (by omega), formatDevice_eq hc.oled hpos (by omega), htext]
  simp only
  rw [formatDevice_eq hc.hub75 (by rw [List.length_append]; omega)
    (by rw [List.length_append]; omega)]
  refine ⟨rfl, ?_⟩
  simp only [List.length_append]
  omega

/-! ### Parsing it -/

/-- The blank and the separators occur in no printed number. -/
theorem not_mem_num {ch : UInt8} (h : ch ∈ [(' ' : UInt8), ',', ':']) (n : ℕ) (i : ℤ) :
    ch ∉ fmtU n ∧ ch ∉ fmtD i := by
  have hd : isdigit ch = false ∧ ch ≠ '-' := by
    simp only [List.mem_cons, List.not_mem_nil, or_false] at h
    rcases h with rfl | rfl | rfl <;> decide
  exact ⟨not_mem_fmtU hd.1 n, not_mem_fmtD hd.1 hd.2 i⟩

/-- A printed integer as a field. -/
structure Printed (f : CStr) (v : ℤ) : Prop where
  clean : ∀ ch ∈ [(' ' : UInt8), ',', ':'], ch ∉ f
  length : f.length < 16
  value : strtol f = some (v, [])

theorem printed_fmtD {v : ℤ} (h : -32768 ≤ v) (h' : v ≤ 32767) : Printed (fmtD v) v where
  clean := fun _ hch => (not_mem_num hch 0 v).2
  length := by
    have := fmtD_length_le (k := 5) (by decide) (show v.natAbs < 10 ^ 5 by omega)
    omega
  value := by
    have hmax : longMax = 2147483647 := by decide
    have hnum : strtol (fmtD v ++ []) = some (v, []) :=
      strtol_fmtD (by omega) (by omega) trivial
    rwa [List.append_nil] at hnum

theorem printed_fmtU {n : ℕ} (h : n ≤ 1024) : Printed (fmtU n) n where
  clean := fun _ hch => (not_mem_num hch n 0).1
  length := by
    have := fmtU_length_le (k := 4) (by decide) (show n < 10 ^ 4 by omega)
    omega
  value := by
    have hmax : longMax = 2147483647 := by decide
    have hnum : strtol (fmtU n ++ []) = some ((n : ℤ), []) := strtol_fmtU (by omega) trivial
    rwa [List.append_nil] at hnum

theorem nextField_clean {f : CStr} {n : ℕ} (hblank : (' ' : UInt8) ∉ f)
    (hcolon : (':' : UInt8) ∉ f) (hlen : f.length < n) (s : CStr) :
    nextField ':' n (some (f ++ (':' : UInt8) :: s)) = some (f, some s) ∧
      nextField ':' n (some f) = some (f, none) := by
  unfold nextField
  simp only [cut_append hcolon, cut_of_not_mem hcolon, trim_of_not_mem hblank, if_pos hlen,
    and_self]

/-- The next number of printed ones. -/
theorem Printed.nextNum {f : CStr} {v lo hi : ℤ} (h : Printed f v) (hv : lo ≤ v ∧ v ≤ hi)
    (s : CStr) : nextNum lo hi (some (f ++ (':' : UInt8) :: s)) = some (v, some s) ∧
      nextNum lo hi (some f) = some (v, none) := by
  obtain ⟨hmore, hlast⟩ := nextField_clean (h.clean _ (by decide)) (h.clean _ (by decide))
    h.length s
  unfold Nodem.nextNum
  simp only [hmore, hlast, h.value, if_pos hv, and_self]

theorem parseMapping_text (hm : m.Ok) (hp : m.present = true) :
    parseMapping (some (joinWith ':' [fmtD m.x, fmtD m.y, fmtU m.scaleX, fmtU m.scaleY])) =
      some m := by
  obtain ⟨hx, hy, hsx, hsy⟩ := hm.of_present hp
  have hscale : (maxScale : ℤ) = 16 := rfl
  unfold maxScale at hsx hsy
  simp only [joinWith_cons_cons, joinWith_singleton]
  unfold parseMapping
  rw [((printed_fmtD hx.1 hx.2).nextNum hx _).1]
  simp only [Option.bind_eq_bind, Option.bind_some]
  rw [((printed_fmtD hy.1 hy.2).nextNum hy _).1]
  simp only [Option.bind_some]
  rw [((printed_fmtU (n := m.scaleX) (by omega)).nextNum (by omega) _).1]
  simp only [Option.bind_some]
  rw [((printed_fmtU (n := m.scaleY) (by omega)).nextNum (by omega) []).2]
  simp only [Option.bind_some, Option.isSome_none, Bool.false_eq_true, if_false, Int.toNat_natCast]
  rw [← hp]

theorem parseGeometry_text (hc : c.Ok) :
    parseGeometry c.geometryText = some { c with oled := .zero, hub75 := .zero } := by
  have hw := hc.width
  have hh := hc.height
  have hb := hc.bitsPerPixel
  have hmax : (maxDimension : ℤ) = 1024 := rfl
  unfold maxDimension at hw hh
  have hfits : ¬ (Config.bufferLen ⟨c.width, c.height, c.bitsPerPixel, .zero, .zero⟩ > fbMaxSize) :=
    not_lt.mpr hc.fits
  unfold Config.geometryText
  simp only [joinWith_cons_cons, joinWith_singleton]
  unfold parseGeometry
  rw [((printed_fmtU (n := c.width) (by omega)).nextNum (by omega) _).1]
  simp only [Option.bind_eq_bind, Option.bind_some]
  rw [((printed_fmtU (n := c.height) (by omega)).nextNum (by omega) _).1]
  simp only [Option.bind_some]
  rw [((printed_fmtU (n := c.bitsPerPixel) (by omega)).nextNum (by omega) []).2]
  simp only [Option.bind_some, Option.isSome_none, Bool.false_eq_true, if_false, Int.toNat_natCast,
    if_neg hfits]

/-- Neither a blank nor a comma is a colon, or part of a number. -/
theorem not_mem_numbers {ch : UInt8} (hch : ch ∈ [(' ' : UInt8), ',']) :
    ch ≠ ':' ∧ (∀ v : ℤ, ch ∉ fmtD v) ∧ ∀ n : ℕ, ch ∉ fmtU n := by
  have hmem : ch ∈ [(' ' : UInt8), ',', ':'] := by
    simp only [List.mem_cons, List.not_mem_nil, or_false] at hch ⊢
    tauto
  refine ⟨?_, fun v => (not_mem_num hmem 0 v).2, fun n => (not_mem_num hmem n 0).1⟩
  simp only [List.mem_cons, List.not_mem_nil, or_false] at hch
  rcases hch with rfl | rfl <;> decide

/-- A printed entry has no blank and no comma. -/
theorem Mapping.not_mem_text {driver : CStr} {ch : UInt8} (hch : ch ∈ [(' ' : UInt8), ','])
    (hdriver : ch ∉ driver) (m : Mapping) : ch ∉ m.text driver := by
  obtain ⟨hcolon, hsigned, hunsigned⟩ := not_mem_numbers hch
  refine not_mem_joinWith hcolon ?_
  simp only [List.mem_cons, List.not_mem_nil, or_false, forall_eq_or_imp, forall_eq]
  exact ⟨hdriver, hsigned _, hsigned _, hunsigned _, hunsigned _⟩

theorem not_mem_geometryText {ch : UInt8} (hch : ch ∈ [(' ' : UInt8), ',']) (c : Config) :
    ch ∉ c.geometryText := by
  obtain ⟨hcolon, -, hunsigned⟩ := not_mem_numbers hch
  refine not_mem_joinWith hcolon ?_
  simp only [List.mem_cons, List.not_mem_nil, or_false, forall_eq_or_imp, forall_eq]
  exact ⟨hunsigned _, hunsigned _, hunsigned _⟩

/-- An entry as `format` prints it reaches `parse_device`. -/
theorem parseEntry_text (hm : m.Ok) (hp : m.present = true) {driver : CStr}
    (hblank : (' ' : UInt8) ∉ driver) (hlen : driver.length < 8) (c : Config) :
    parseEntry c (m.text driver) = parseDevice (m.text driver) c := by
  have htext := Mapping.text_length hm hp driver
  unfold parseEntry
  rw [trim_of_not_mem (Mapping.not_mem_text (by decide) hblank m), if_neg (by omega), if_neg]
  intro h
  have hpos : 0 < (m.text driver).length := by
    unfold Mapping.text
    rw [joinWith_cons_cons, List.length_append, List.length_cons]
    omega
  rw [h] at hpos
  exact absurd hpos (by decide)

theorem parseEntry_oled (hm : m.Ok) (hp : m.present = true) (hfree : c.oled.present = false) :
    parseEntry c (m.text (cs "oled")) = some { c with oled := m } := by
  have hfield := (nextField_clean (f := cs "oled") (n := 8) (by decide) (by decide) (by decide)
    (joinWith ':' [fmtD m.x, fmtD m.y, fmtU m.scaleX, fmtU m.scaleY])).1
  rw [parseEntry_text hm hp (by decide) (by decide)]
  unfold parseDevice Mapping.text
  rw [joinWith_cons_cons, hfield]
  simp only [if_true, hfree, Bool.false_eq_true, if_false, parseMapping_text hm hp, Option.map_some]

theorem parseEntry_hub75 (hm : m.Ok) (hp : m.present = true) (hfree : c.hub75.present = false) :
    parseEntry c (m.text (cs "hub75")) = some { c with hub75 := m } := by
  have hfield := (nextField_clean (f := cs "hub75") (n := 8) (by decide) (by decide) (by decide)
    (joinWith ':' [fmtD m.x, fmtD m.y, fmtU m.scaleX, fmtU m.scaleY])).1
  have hne : cs "hub75" ≠ cs "oled" := by decide
  rw [parseEntry_text hm hp (by decide) (by decide)]
  unfold parseDevice Mapping.text
  rw [joinWith_cons_cons, hfield]
  simp only [if_neg hne, if_true, hfree, Bool.false_eq_true, if_false, parseMapping_text hm hp,
    Option.map_some]

/-- **A printed config parses to itself.** -/
theorem parse_text (hc : c.Ok) : parse c.text = some c := by
  have hcomma : ∀ f ∈ c.geometryText ::
      (c.oled.entries (cs "oled") ++ c.hub75.entries (cs "hub75")), (',' : UInt8) ∉ f := by
    intro f hf
    simp only [List.mem_cons, List.mem_append, Mapping.entries] at hf
    rcases hf with rfl | hf | hf
    · exact not_mem_geometryText (by decide) c
    · split_ifs at hf
      · rw [List.mem_singleton.mp hf]
        exact Mapping.not_mem_text (by decide) (by decide) _
      · cases hf
    · split_ifs at hf
      · rw [List.mem_singleton.mp hf]
        exact Mapping.not_mem_text (by decide) (by decide) _
      · cases hf
  have hlen := geometryText_length hc
  have htrim : trim c.geometryText = c.geometryText :=
    trim_of_not_mem (not_mem_geometryText (by decide) c)
  unfold parse Config.text
  rw [fields_joinWith hcomma]
  simp only [htrim]
  rw [if_neg (by omega), parseGeometry_text hc, Option.bind_some, List.foldlM_append]
  -- the entries in turn, each of them there or not
  have holed : (c.oled.entries (cs "oled")).foldlM parseEntry
      { c with oled := .zero, hub75 := .zero } = some { c with hub75 := .zero } := by
    unfold Mapping.entries
    split_ifs with hp
    · rw [List.foldlM_cons, parseEntry_oled hc.oled hp rfl]
      rfl
    · rw [← hc.oled.of_absent (by simpa using hp)]
      rfl
  have hhub : (c.hub75.entries (cs "hub75")).foldlM parseEntry { c with hub75 := .zero } =
      some c := by
    unfold Mapping.entries
    split_ifs with hp
    · rw [List.foldlM_cons, parseEntry_hub75 hc.hub75 hp rfl]
      rfl
    · rw [← hc.hub75.of_absent (by simpa using hp)]
      rfl
  rw [holed]
  exact hhub

/-! ### Each driver once -/

/-- The driver a device entry names. -/
def driverOf (entry : CStr) : Option CStr := (nextField ':' 8 (some (trim entry))).map (·.1)

/-- The device entries of a value that name a driver. -/
def entriesOf (driver v : CStr) : List CStr :=
  (fields ',' v).tail.filter fun e => driverOf e = some driver

/-- **Entries:** one names a driver that was free and is mapped now, or leaves its mapping. -/
theorem parseEntry_maps {c c' : Config} {entry : CStr} (h : parseEntry c entry = some c') :
    (if driverOf entry = some (cs "oled") then c.oled.present = false ∧ c'.oled.present = true
      else c'.oled = c.oled) ∧
    (if driverOf entry = some (cs "hub75") then c.hub75.present = false ∧ c'.hub75.present = true
      else c'.hub75 = c.hub75) := by
  have hne : cs "hub75" ≠ cs "oled" := by decide
  unfold parseEntry at h
  split_ifs at h with hlong hempty
  · cases h
    have hdriver : driverOf entry = some [] := by
      unfold driverOf
      rw [hempty]
      rfl
    have holed : ([] : CStr) ≠ cs "oled" := by decide
    have hhub : ([] : CStr) ≠ cs "hub75" := by decide
    simp [hdriver, holed, hhub]
  · unfold parseDevice at h
    have hpresent : ∀ {s m}, parseMapping s = some m → m.present = true := by
      intro s m hm
      rcases parseMapping_ok hm with rfl | hok
      · simp only [parseMapping, Option.bind_eq_bind, Option.bind_eq_some_iff] at hm
        obtain ⟨_, -, _, -, _, -, _, -, hm⟩ := hm
        split_ifs at hm
        cases hm
      · exact hok.1
    split at h
    · cases h
    · next driver rest hfield =>
      have hdriver : driverOf entry = some driver := by
        unfold driverOf
        rw [hfield]
        rfl
      rw [hdriver]
      split_ifs at h with holed hfree hhub hfree
      · obtain ⟨m, hm, rfl⟩ := Option.map_eq_some_iff.mp h
        subst holed
        rw [if_pos rfl, if_neg (by simpa using hne.symm)]
        exact ⟨⟨by simpa using hfree, hpresent hm⟩, rfl⟩
      · obtain ⟨m, hm, rfl⟩ := Option.map_eq_some_iff.mp h
        subst hhub
        rw [if_neg (by simpa using hne), if_pos rfl]
        exact ⟨rfl, ⟨by simpa using hfree, hpresent hm⟩⟩

/-- **All entries:** by induction on them, each driver is named once if it ends up mapped. -/
theorem foldlM_parseEntry_once {l : List CStr} {c c' : Config}
    (h : l.foldlM parseEntry c = some c') :
    ((l.filter fun e => driverOf e = some (cs "oled")).length +
        (if c.oled.present then 1 else 0) = if c'.oled.present then 1 else 0) ∧
      ((l.filter fun e => driverOf e = some (cs "hub75")).length +
        (if c.hub75.present then 1 else 0) = if c'.hub75.present then 1 else 0) := by
  induction l generalizing c with
  | nil =>
      cases h
      simp
  | cons e l ih =>
      rw [List.foldlM_cons] at h
      obtain ⟨c₁, h₁, h₂⟩ := Option.bind_eq_some_iff.mp h
      obtain ⟨holed, hhub⟩ := parseEntry_maps h₁
      obtain ⟨ih1, ih2⟩ := ih h₂
      rw [List.filter_cons, List.filter_cons]
      constructor
      · split_ifs at holed with hd
        · simp only [holed.1, holed.2, hd, decide_true, if_true, List.length_cons] at ih1 ⊢
          simpa using ih1
        · simp only [hd, decide_false, Bool.false_eq_true, if_false, ← holed]
          exact ih1
      · split_ifs at hhub with hd
        · simp only [hhub.1, hhub.2, hd, decide_true, if_true, List.length_cons] at ih2 ⊢
          simpa using ih2
        · simp only [hd, decide_false, Bool.false_eq_true, if_false, ← hhub]
          exact ih2

theorem parse_once {v : CStr} (h : parse v = some c) :
    (entriesOf (cs "oled") v).length = (if c.oled.present then 1 else 0) ∧
      (entriesOf (cs "hub75") v).length = if c.hub75.present then 1 else 0 := by
  unfold parse at h
  unfold entriesOf
  split at h
  · cases h
  · next geometry devices hfields =>
    split_ifs at h
    obtain ⟨c₀, h₀, h₁⟩ := Option.bind_eq_some_iff.mp h
    have honce := foldlM_parseEntry_once h₁
    have hzero : c₀.oled.present = false ∧ c₀.hub75.present = false := by
      simp only [parseGeometry, Option.bind_eq_bind, Option.bind_eq_some_iff] at h₀
      obtain ⟨_, -, _, -, _, -, h₀⟩ := h₀
      split_ifs at h₀
      cases h₀
      exact ⟨rfl, rfl⟩
    rw [hfields]
    simpa [hzero.1, hzero.2] using honce

/-! ### Set and get -/

/-- Leading blanks make no difference to the parser. -/
theorem parse_dropWhile (v : CStr) : parse (v.dropWhile isBlank) = parse v := by
  induction v with
  | nil => rfl
  | cons ch v ih =>
      by_cases hch : isBlank ch = true
      · rw [List.dropWhile_cons_of_pos hch, ih]
        have hsep : (ch == (',' : UInt8)) = false := by
          unfold isBlank at hch
          rw [beq_iff_eq.mp hch]
          decide
        have htrim : ∀ f : CStr, trim (ch :: f) = trim f := by
          intro f
          unfold trim
          rw [List.dropWhile_cons_of_pos hch]
        unfold parse
        rw [fields, hsep]
        cases hf : fields ',' v with
        | nil => exact absurd hf (fields_ne_nil _ _)
        | cons f l =>
            simp only [Bool.false_eq_true, if_false, htrim]
      · rw [List.dropWhile_cons_of_neg hch]

/-- The default passes the parser, and is stored as it is written. -/
theorem parse_nodemDefault :
    ∃ c, parse nodemDefault = some c ∧ (format c nodemValueLen).1 = nodemDefault :=
  ⟨⟨128, 64, 1, ⟨true, 0, 0, 1, 1⟩, .zero⟩, by rfl, by rfl⟩

/-- What was set is read back, and the store is left as it is. -/
theorem nodemConfigGet_of_set {st st' : Store} {generation generation' : BitVec 32} {v : CStr}
    {err : ℤ} (h : nodemConfigSet st generation v err = (0, st', generation')) :
    ∃ c, parse (if v.dropWhile isBlank ≠ [] then v else nodemDefault) = some c ∧
      ∀ err' out, nodemConfigGet st' err' out = (c, st') := by
  unfold nodemConfigSet at h
  simp only at h
  split at h
  · simp [Errno.inval] at h
  · next c hparse =>
    refine ⟨c, ?_, fun err' out => ?_⟩
    · rw [← hparse]
      split_ifs
      · exact (parse_dropWhile v).symm
      · rfl
    · have hc := parse_ok hparse
      obtain ⟨hformat, hlen⟩ := format_eq hc
      simp only [Prod.mk.injEq] at h
      have hget := configGetStr_of_set (Prod.ext h.1 h.2.1) nodemValueLen []
      rw [hformat, clip_of_lt hlen] at hget
      unfold nodemConfigGet
      simp only [hget, parse_text hc]

/-- **The "nodem" config round trip.**  What `parse` accepts is within bounds, names each driver
at most once and is printed in full into text that parses to the same; a config that was set
is the one read back, with nothing stored by reading it. -/
theorem nodem_config_round_trip :
    (∀ v c, parse v = some c →
      (1 ≤ c.width ∧ c.width ≤ 1024) ∧ (1 ≤ c.height ∧ c.height ≤ 1024) ∧
      c.bufferLen ≤ fbMaxSize ∧
      (entriesOf (cs "oled") v).length ≤ 1 ∧ (entriesOf (cs "hub75") v).length ≤ 1 ∧
      (∀ m ∈ [c.oled, c.hub75], m.present = true →
        (1 ≤ m.scaleX ∧ m.scaleX ≤ 16) ∧ (1 ≤ m.scaleY ∧ m.scaleY ≤ 16)) ∧
      (format c nodemValueLen).2 < nodemValueLen ∧
      (format c nodemValueLen).1.length = (format c nodemValueLen).2 ∧
      parse (format c nodemValueLen).1 = some c) ∧
    ∀ st st' generation generation' v err,
      nodemConfigSet st generation v err = (0, st', generation') →
      ∃ c, parse (if v.dropWhile isBlank ≠ [] then v else nodemDefault) = some c ∧
        ∀ err' out, nodemConfigGet st' err' out = (c, st') := by
  refine ⟨fun v c hv => ?_, fun _ _ _ _ _ _ h => nodemConfigGet_of_set h⟩
  have hc := parse_ok hv
  obtain ⟨hformat, hlen⟩ := format_eq hc
  obtain ⟨honce, honce'⟩ := parse_once hv
  refine ⟨hc.width, hc.height, hc.fits, ?_, ?_, ?_, ?_⟩
  · rw [honce]
    split_ifs <;> decide
  · rw [honce']
    split_ifs <;> decide
  · intro m hm hp
    have hok : m.Ok := by
      simp only [List.mem_cons, List.not_mem_nil, or_false] at hm
      rcases hm with rfl | rfl
      · exact hc.oled
      · exact hc.hub75
    exact (hok.of_present hp).2.2
  · rw [hformat]
    exact ⟨hlen, rfl, parse_text hc⟩

/-- The drivers given the other way round, with an empty entry between them. -/
theorem nodem_config_round_trip_reordered :
    parse (format ⟨96, 16, 1, ⟨true, -3, 0, 2, 1⟩, ⟨true, 5, -32768, 16, 1⟩⟩ nodemValueLen).1 =
      some ⟨96, 16, 1, ⟨true, -3, 0, 2, 1⟩, ⟨true, 5, -32768, 16, 1⟩⟩ ∧
    (nodemConfigGet (nodemConfigSet Store.empty 0 (cs " 64:32:1") 0).2.1 0
      ⟨0, 0, 0, .zero, .zero⟩).1 = ⟨64, 32, 1, .zero, .zero⟩ := by
  refine ⟨(nodem_config_round_trip.1 (cs "96:16:1 ,hub75:5:-32768:16:1,, oled:-3:0:2:1")
    ⟨96, 16, 1, ⟨true, -3, 0, 2, 1⟩, ⟨true, 5, -32768, 16, 1⟩⟩ (by rfl)).2.2.2.2.2.2.2.2, ?_⟩
  obtain ⟨c, hparse, hget⟩ :=
    nodem_config_round_trip.2 Store.empty _ 0 1 (cs " 64:32:1") 0 (by rfl)
  have hc : some c = some ⟨64, 32, 1, .zero, .zero⟩ := by
    rw [← hparse]
    rfl
  cases hc
  exact congrArg Prod.fst (hget 0 ⟨0, 0, 0, .zero, .zero⟩)

end NodemFirmware.Nodem
