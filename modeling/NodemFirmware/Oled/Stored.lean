import NodemFirmware.Oled.Config

/-! # Setting the "oled" config and reading it back

`display_oled_set` stores an enabled value as `oled_config_format` prints it and a disabled one
as given; `oled_config_read` reads the text "\x01", its mark for a key that was never set, as
missing.  `oled_set_read_iff`: that text is the only value that is not read back as it was
set. -/

namespace NodemFirmware.Oled

open CText ConfigStore

/-! ### Source -/

/-- `oled_config_format`, into `bufLen` bytes. -/
def oledConfigFormat (c : Config) (bufLen : ℕ) : CStr :=
  let s := cs "ssd1306:" ++ fmtU c.width ++ cs ":" ++ fmtU c.height ++ cs ":" ++ fmtU c.x ++
    cs ":" ++ fmtU c.y
  if c.rotation ≠ 0 ∧ 0 < s.length ∧ s.length < bufLen then
    clip bufLen s ++ clip (bufLen - s.length) (cs ":" ++ fmtU c.rotation)
  else clip bufLen s

/-- `display_oled_set`: what it returns, the store and `oled_generation`; `err` is what saving
the value returns. -/
def displayOledSet (st : Store) (generation : BitVec 32) (value : CStr) (err : ℤ) :
    ℤ × Store × BitVec 32 :=
  match oledConfigParse value with
  | .error e => (e, st, generation)
  | .ok parsed =>
      let value :=
        match parsed with
        | some c => oledConfigFormat c oledValueLen
        | none => value
      let r := configSetStr st oledKey value err
      (r.1, r.2, if r.1 = 0 then generation + 1 else generation)

/-! ### The printed config -/

/-- The fields after the protocol, a rotation only if there is one. -/
def Config.numbers (c : Config) : List ℕ :=
  [c.width, c.height, c.x, c.y] ++ if c.rotation ≠ 0 then [c.rotation] else []

def Config.text (c : Config) : CStr := joinWith ':' (cs "ssd1306" :: c.numbers.map fmtU)

variable {c : Config}

theorem Config.Ok.width_le (hc : c.Ok) : c.width ≤ 128 ∧ c.height ≤ 64 := by
  obtain ⟨s, hs, hw, hh⟩ := hc.size
  have hb := size_bounds s hs
  unfold ramCols ramRows at hb
  omega

theorem Config.Ok.rotation_le (hc : c.Ok) : c.rotation ≤ 270 := by
  have h := hc.rotation
  simp only [List.mem_cons, List.not_mem_nil, or_false] at h
  omega

theorem fmtU_length_three {n : ℕ} (h : n < 1000) : (fmtU n).length ≤ 3 :=
  fmtU_length_le (by decide) h

/-- What is printed fits the buffer: 27 bytes at most. -/
theorem oledConfigFormat_eq (hc : c.Ok) : oledConfigFormat c oledValueLen = c.text := by
  have hx := hc.x
  have hy := hc.y
  unfold ramCols at hx
  unfold ramRows at hy
  have hw := fmtU_length_three (show c.width < 1000 by have := hc.width_le; omega)
  have hh := fmtU_length_three (show c.height < 1000 by have := hc.width_le; omega)
  have hx := fmtU_length_three (show c.x < 1000 by omega)
  have hy := fmtU_length_three (show c.y < 1000 by omega)
  have hr := fmtU_length_three (show c.rotation < 1000 by have := hc.rotation_le; omega)
  have hproto : cs "ssd1306:" = cs "ssd1306" ++ [(':' : UInt8)] := rfl
  have hlen : (cs "ssd1306").length = 7 := rfl
  have hcolon : cs ":" = [(':' : UInt8)] := rfl
  have hs : (cs "ssd1306:" ++ fmtU c.width ++ cs ":" ++ fmtU c.height ++ cs ":" ++ fmtU c.x ++
      cs ":" ++ fmtU c.y).length < 24 := by
    simp only [hproto, hcolon, List.length_append, List.length_singleton]
    omega
  unfold oledConfigFormat oledValueLen Config.text Config.numbers
  generalize hbase : cs "ssd1306:" ++ fmtU c.width ++ cs ":" ++ fmtU c.height ++ cs ":" ++
    fmtU c.x ++ cs ":" ++ fmtU c.y = base at hs
  have hpos : 0 < base.length := by
    rw [← hbase, hproto]
    simp
  have hrot : (cs ":" ++ fmtU c.rotation).length ≤ 4 := by
    rw [hcolon, List.length_append, List.length_singleton]
    omega
  dsimp only
  rw [clip_of_lt (by omega), clip_of_lt (by omega)]
  by_cases h0 : c.rotation = 0
  · rw [if_neg (fun h => h.1 h0), if_neg (not_not.mpr h0), ← hbase, hproto, hcolon]
    simp
  · rw [if_pos ⟨h0, hpos, by omega⟩, if_pos h0, ← hbase, hproto, hcolon]
    simp

/-! ### Parsing it -/

theorem nextNumField_cons {n : ℕ} (hn : (n : ℤ) ≤ longMax) (s : CStr) :
    nextNumField (some (fmtU n ++ (':' : UInt8) :: s)) = some ((n : ℤ), some s) := by
  have hnum : strtol (fmtU n ++ (':' : UInt8) :: s) = some ((n : ℤ), (':' : UInt8) :: s) :=
    strtol_fmtU hn (show isdigit ':' = false by decide)
  have hdrop : ((':' : UInt8) :: s).dropWhile isBlank = (':' : UInt8) :: s :=
    List.dropWhile_cons_of_neg (by decide)
  simp only [nextNumField, hnum, hdrop, if_true]

theorem nextNumField_last {n : ℕ} (hn : (n : ℤ) ≤ longMax) :
    nextNumField (some (fmtU n)) = some ((n : ℤ), none) := by
  have hnum : strtol (fmtU n ++ []) = some ((n : ℤ), []) := strtol_fmtU hn trivial
  rw [List.append_nil] at hnum
  simp only [nextNumField, hnum, List.dropWhile_nil]

/-- The last two fields: `y`, and the rotation if it is printed. -/
theorem parse_y_rotation (hc : c.Ok) :
    ∃ p, nextNumField (some (joinWith ':'
        (fmtU c.y :: (if c.rotation ≠ 0 then [c.rotation] else []).map fmtU))) =
          some ((c.y : ℤ), p) ∧ parseRotation p = some (c.rotation : ℤ) := by
  have hy := hc.y
  have hr := hc.rotation_le
  unfold ramRows at hy
  have hmax : longMax = 2147483647 := by decide
  by_cases h0 : c.rotation = 0
  · rw [if_neg (not_not.mpr h0), List.map_nil, joinWith_singleton, nextNumField_last (by omega)]
    exact ⟨none, rfl, by rw [h0]; rfl⟩
  · rw [if_pos h0, List.map_singleton, joinWith_cons_cons, joinWith_singleton,
      nextNumField_cons (by omega)]
    refine ⟨_, rfl, ?_⟩
    rw [parseRotation, nextNumField_last (by omega)]

theorem Config.Ok.find (hc : c.Ok) : oledSizeFind c.width c.height ≠ none := by
  obtain ⟨s, hs, hw, hh⟩ := hc.size
  intro hnone
  have := List.find?_eq_none.mp hnone s hs
  simp [hw, hh] at this

/-- The numbers of a printed config. -/
theorem parseNumbers_text (hc : c.Ok) :
    parseNumbers (some (joinWith ':' (c.numbers.map fmtU))) = some c := by
  have hx := hc.x
  have hy := hc.y
  have hw := hc.width_le
  have hfind := hc.find
  have hrot := hc.rotation
  unfold ramCols at hx
  unfold ramRows at hy
  simp only [List.mem_cons, List.not_mem_nil, or_false] at hrot
  have hmax : longMax = 2147483647 := by decide
  obtain ⟨p, hlast, hp⟩ := parse_y_rotation hc
  have hsplit : c.numbers.map fmtU = fmtU c.width :: fmtU c.height :: fmtU c.x ::
      (fmtU c.y :: (if c.rotation ≠ 0 then [c.rotation] else []).map fmtU) := rfl
  rw [hsplit]
  generalize (if c.rotation ≠ 0 then [c.rotation] else []).map fmtU = rest at hlast
  unfold parseNumbers
  rw [joinWith_cons_cons, nextNumField_cons (by omega)]
  simp only [Option.bind_eq_bind, Option.bind_some]
  rw [joinWith_cons_cons, nextNumField_cons (by omega)]
  simp only [Option.bind_some]
  rw [joinWith_cons_cons, nextNumField_cons (by omega)]
  simp only [Option.bind_some]
  rw [hlast]
  simp only [Option.bind_some, hp]
  rw [if_neg]
  · simp only [Int.toNat_natCast]
  · rw [Int.toNat_natCast, Int.toNat_natCast]
    unfold ramCols ramRows
    simp only [hfind, false_or]
    omega

theorem oledConfigParse_text (hc : c.Ok) : oledConfigParse c.text = .ok (some c) := by
  obtain ⟨n, l, hl⟩ : ∃ n l, c.numbers = n :: l := ⟨_, _, rfl⟩
  have hnums := parseNumbers_text hc
  have htext : c.text = cs "ssd1306" ++ (':' : UInt8) :: joinWith ':' (c.numbers.map fmtU) := by
    unfold Config.text
    rw [hl, List.map_cons, joinWith_cons_cons]
  have hdrop : c.text.dropWhile isBlank = c.text := by
    rw [htext]
    exact List.dropWhile_cons_of_neg (by decide)
  have hcut : cut ':' c.text = (cs "ssd1306", some (joinWith ':' (c.numbers.map fmtU))) := by
    rw [htext]
    exact cut_append (by decide) _
  have hproto : ((cs "ssd1306").reverse.dropWhile isBlank).reverse = cs "ssd1306" := by decide
  unfold oledConfigParse
  simp only [hdrop, hcut, hproto, ne_eq, not_true_eq_false, if_false, hnums]

/-! ### Set and read -/

/-- A value that was set, read back. -/
theorem configGetStr_oled {st st' : Store} {value : CStr} {err : ℤ}
    (h : configSetStr st oledKey value err = (0, st')) :
    configGetStr st'.entries oledKey oledValueLen [1] = value := by
  have hlen : value.length ≤ maxStrLen := by
    by_contra hlong
    unfold configSetStr at h
    rw [if_pos (Or.inr (by omega))] at h
    simp [Errno.inval] at h
  rw [configGetStr_of_set h]
  exact clip_of_lt (by unfold oledValueLen; unfold maxStrLen at hlen; omega)

/-- The mark is a disabled value like any other to the parser. -/
theorem oledConfigParse_mark : oledConfigParse [1] = .ok none := by rfl

theorem parsedConfig_default : parsedConfig oledDefaultText = some ⟨128, 64, 0, 0, 0⟩ := by rfl

/-- **Set and read agree** on every value but the reader's own mark for a key never set. -/
theorem oled_set_read_iff (st st' : Store) (generation generation' : BitVec 32) (v : CStr)
    (err err' : ℤ) (parsed : Option Config) (hparse : oledConfigParse v = .ok parsed)
    (hset : displayOledSet st generation v err = (0, st', generation')) :
    oledConfigRead st' err' = (parsed, st') ↔ v ≠ [1] := by
  unfold displayOledSet at hset
  rw [hparse] at hset
  simp only [Prod.mk.injEq] at hset
  obtain ⟨herr, hst, -⟩ := hset
  cases parsed with
  | some c =>
      have hc := oledConfigParse_ok hparse
      simp only at herr hst
      have hget := configGetStr_oled (Prod.ext herr hst)
      rw [oledConfigFormat_eq hc] at hget
      have hne : ∀ value, oledConfigParse value = .ok (some c) → value ≠ [1] := by
        rintro value h rfl
        rw [oledConfigParse_mark] at h
        cases h
      refine ⟨fun _ => hne v hparse, fun _ => ?_⟩
      have htext := oledConfigParse_text hc
      unfold oledConfigRead
      simp only [hget, if_neg (hne _ htext), htext]
  | none =>
      simp only at herr hst
      have hget := configGetStr_oled (Prod.ext herr hst)
      unfold oledConfigRead
      simp only [hget]
      constructor
      · rintro h rfl
        rw [if_pos rfl] at h
        have hfst := congrArg Prod.fst h
        rw [parsedConfig_default] at hfst
        cases hfst
      · intro hv
        simp only [if_neg hv, hparse]

theorem oled_set_read_iff_off :
    oledConfigRead (displayOledSet Store.empty 0 (cs "off") 0).2.1 0 =
      (none, (displayOledSet Store.empty 0 (cs "off") 0).2.1) :=
  (oled_set_read_iff Store.empty _ 0 1 (cs "off") 0 0 none (by rfl) (by rfl)).mpr (by decide)

/-- The mark itself is stored as a disabled value and read as the default. -/
theorem oled_set_read_mark :
    ∃ st' generation', oledConfigParse [1] = .ok none ∧
      displayOledSet Store.empty 0 [1] 0 = (0, st', generation') ∧
      (oledConfigRead st' 0).1 = some ⟨128, 64, 0, 0, 0⟩ ∧
      configGetStr (oledConfigRead st' 0).2.entries oledKey oledValueLen [1] = oledDefaultText ∧
      ¬ oledConfigRead st' 0 = (none, st') := by
  refine ⟨_, 1, by rfl, by rfl, by rfl, by decide +kernel, ?_⟩
  intro h
  exact absurd (congrArg (fun r => r.1.isSome) h) (by decide +kernel)

end NodemFirmware.Oled
