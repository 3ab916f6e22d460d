import NodemFirmware.Hub75.Config

/-! # What the parser accepts

`FieldsOk` holds of the default config and is kept by the parser of every field, so it holds
of whatever `parseFields` returns; the check at the end of `hub75ConfigParse` adds
`Config.Splits`.  `Accepted` is both, and all that the driver relies on. -/

namespace NodemFirmware.Hub75

open CText

/-- A colour as `parse_color` makes it. -/
inductive ColorOk : Color → Prop
  | fixed {rgb : ℕ} (h : rgb < 2 ^ 24) : ColorOk (Color.fixed rgb)
  | effect {e : EffectEntry} {speed scale : ℕ} {palette : List ℕ} (he : e ∈ effects)
      (hspeed : speed = e.speed ∨ e.speed ≠ 0 ∧ 1 ≤ speed ∧ speed ≤ effectSpeedMax)
      (hlen : palette.length ≤ paletteMax) (hpal : ∀ i ∈ palette, i < paletteLetters.length)
      (hscale : 1 ≤ scale ∧ scale ≤ scaleMax) : ColorOk ⟨e.effect, speed, palette, scale, 0⟩

/-- Every field is in the range its parser checks. -/
structure FieldsOk (c : Config) : Prop where
  width : 1 ≤ c.width ∧ c.width ≤ maxPixels
  height : 1 ≤ c.height ∧ c.height ≤ maxPixels
  gridX : 1 ≤ c.gridX ∧ c.gridX ≤ 16
  gridY : 1 ≤ c.gridY ∧ c.gridY ≤ 16
  panels : c.gridX * c.gridY ≤ 16
  scan : c.scan ∈ [2, 4, 8, 16, 32]
  segment : c.segment ≤ 255
  clock : clockMinKhz ≤ c.clockKhz ∧ c.clockKhz ≤ clockMaxKhz
  depth : 1 ≤ c.depth ∧ c.depth ≤ maxDepth
  color : ColorOk c.color
  offColor : ColorOk c.offColor
  brightness : c.brightness ≤ brightnessMax

/-- A config the driver may be started with. -/
structure Accepted (c : Config) : Prop extends FieldsOk c where
  splits : c.Splits

/-! ### Numbers -/

theorem parseNum_eq_some {s : CStr} {lo hi n : ℕ} (h : parseNum s lo hi = some n) :
    lo ≤ n ∧ n ≤ hi := by
  unfold parseNum at h
  split at h
  · split_ifs at h with hv
    cases h
    omega
  · cases h

theorem parseScan_ok {field : CStr} {c c' : Config} (hc : FieldsOk c)
    (h : parseScan field c = some c') : FieldsOk c' := by
  unfold parseScan at h
  split at h
  · next v hv =>
    split_ifs at h with hp
    cases h
    obtain ⟨h1, h2⟩ := parseNum_eq_some hv
    have hs : v ∈ [2, 4, 8, 16, 32] := by
      interval_cases v <;> revert hp <;> decide
    exact { hc with scan := hs }
  · cases h

theorem parseClock_ok {field : CStr} {c c' : Config} (hc : FieldsOk c)
    (h : parseClock field c = some c') : FieldsOk c' := by
  obtain ⟨v, hv, rfl⟩ := Option.map_eq_some_iff.mp h
  exact { hc with clock := parseNum_eq_some hv }

theorem parseDepth_ok {field : CStr} {c c' : Config} (hc : FieldsOk c)
    (h : parseDepth field c = some c') : FieldsOk c' := by
  obtain ⟨v, hv, rfl⟩ := Option.map_eq_some_iff.mp h
  exact { hc with depth := parseNum_eq_some hv }

theorem parseBrightness_ok {field : CStr} {c c' : Config} (hc : FieldsOk c)
    (h : parseBrightness field c = some c') : FieldsOk c' := by
  obtain ⟨v, hv, rfl⟩ := Option.map_eq_some_iff.mp h
  exact { hc with brightness := (parseNum_eq_some hv).2 }

theorem parseChip_ok {field : CStr} {c c' : Config} (hc : FieldsOk c)
    (h : parseChip field c = some c') : FieldsOk c' := by
  obtain ⟨n, -, rfl⟩ := Option.map_eq_some_iff.mp h
  exact { hc with }

/-- What every parser of a part keeps, the part keeps when it may be left out. -/
theorem parsePart_ok {parse : CStr → Config → Option Config} {field : CStr} {c c' : Config}
    (hp : ∀ c', parse field c = some c' → FieldsOk c') (hc : FieldsOk c)
    (h : parsePart parse field c = some c') : FieldsOk c' := by
  unfold parsePart at h
  split_ifs at h
  · cases h
    exact hc
  · exact hp c' h

/-! ### Geometry -/

theorem parseLayoutLoop_ok {s : CStr} {haveX haveY : Bool} {c c' : Config} (hc : FieldsOk c)
    (h : parseLayoutLoop haveX haveY s c = some c') : FieldsOk c' := by
  induction s generalizing haveX haveY c with
  | nil =>
      cases h
      exact hc
  | cons ch s ih =>
      unfold parseLayoutLoop at h
      split_ifs at h
      · exact ih (c := { c with flipX := ch = 'r' }) { hc with } h
      · exact ih (c := { c with flipY := ch = 'b' }) { hc with } h

theorem parseGridEnd_ok {cols rows : ℤ} {s : CStr} {c c' : Config} (hc : FieldsOk c)
    (hcols : 1 ≤ cols ∧ cols ≤ 16) (hrows : 1 ≤ rows ∧ rows ≤ 16)
    (h : parseGridEnd cols rows s c = some c') : FieldsOk c' := by
  unfold parseGridEnd at h
  simp only [] at h
  generalize (if s.head? = some ('i' : UInt8) then s.tail else s) = s' at h
  generalize (if s.head? = some ('i' : UInt8) then true else c.serpentine) = sp at h
  split_ifs at h with hend
  cases h
  rw [not_or, not_lt] at hend
  have hprod := hend.2
  lift cols to ℕ using by omega
  lift rows to ℕ using by omega
  exact { hc with
    gridX := by simp only [Int.toNat_natCast]; omega
    gridY := by simp only [Int.toNat_natCast]; omega
    panels := by simp only [Int.toNat_natCast]; exact_mod_cast hprod }

theorem parseGrid_ok {s : CStr} {c c' : Config} (hc : FieldsOk c)
    (h : parseGrid s c = some c') : FieldsOk c' := by
  unfold parseGrid at h
  split at h
  · cases h
  · split_ifs at h with hcols
    · split at h
      · cases h
      · split_ifs at h with hrows
        exact parseGridEnd_ok hc (by omega) (by omega) h
    · exact parseGridEnd_ok hc (by omega) (by omega) h

theorem parseGeometry_ok {s : CStr} {c c' : Config} (hc : FieldsOk c)
    (h : parseGeometry s c = some c') : FieldsOk c' := by
  simp only [parseGeometry, Option.bind_eq_bind, Option.bind_eq_some_iff, Prod.exists] at h
  obtain ⟨_, _, _, w, hw, _, _, _, ht, hh, _, _, _, c₁, h₁, f, _, _, h⟩ := h
  split_ifs at h
  obtain ⟨c₂, h₂, h⟩ := Option.bind_eq_some_iff.mp h
  cases h
  have hc₁ : FieldsOk c₁ :=
    parseLayoutLoop_ok (c := { c with flipX := false, flipY := false }) { hc with } h₁
  have hc₁' : FieldsOk { c₁ with gridX := 1, gridY := 1, serpentine := false } :=
    { hc₁ with gridX := by simp, gridY := by simp, panels := by simp }
  have hc₂ : FieldsOk c₂ := parsePart_ok (fun _ => parseGrid_ok hc₁') hc₁' h₂
  exact { hc₂ with width := parseNum_eq_some hw, height := parseNum_eq_some hh }

/-! ### Protocol -/

theorem parseChainEnd_ok {farFirst : Bool} {segment : ℕ} {s : CStr} {c c' : Config}
    (hc : FieldsOk c) (hseg : segment ≤ 255)
    (h : parseChainEnd farFirst segment s c = some c') : FieldsOk c' := by
  unfold parseChainEnd at h
  simp only [] at h
  split_ifs at h
  all_goals
    cases h
    exact { hc with segment := hseg }

theorem parseChain_ok {s : CStr} {c c' : Config} (hc : FieldsOk c)
    (h : parseChain s c = some c') : FieldsOk c' := by
  unfold parseChain at h
  split at h
  · cases h
  · split_ifs at h
    · split at h
      · cases h
      · split_ifs at h
        exact parseChainEnd_ok hc (by omega) h
    · exact parseChainEnd_ok hc (by omega) h

theorem parseProtocol_ok {s : CStr} {c c' : Config} (hc : FieldsOk c)
    (h : parseProtocol s c = some c') : FieldsOk c' := by
  unfold parseProtocol at h
  split at h
  · next p hp =>
    cases h
    have hscan : ∀ p ∈ presets, p.2.1 ∈ [2, 4, 8, 16, 32] := by decide
    exact { hc with
      scan := hscan p (List.mem_of_find?_eq_some hp)
      segment := by simp
      clock := by simp [clockMinKhz, clockMaxKhz]
      depth := by simp [depthDefault, maxDepth] }
  · simp only [parseProtocolParts, Option.bind_eq_bind, Option.bind_eq_some_iff,
      Prod.exists] at h
    obtain ⟨_, _, _, c₁, h₁, _, _, _, c₂, h₂, _, _, _, c₃, h₃, _, _, _, c₄, h₄, _, _, _, h⟩ := h
    split_ifs at h
    have hc₁ := parsePart_ok (fun _ => parseScan_ok hc) hc h₁
    have hc₂ := parsePart_ok (fun _ => parseChain_ok hc₁) hc₁ h₂
    have hc₃ := parsePart_ok (fun _ => parseClock_ok hc₂) hc₂ h₃
    have hc₄ := parsePart_ok (fun _ => parseChip_ok hc₃) hc₃ h₄
    exact parsePart_ok (fun _ => parseDepth_ok hc₄) hc₄ h

/-! ### Colours -/

theorem hexVal_lt {ch : UInt8} {d : ℕ} (h : hexVal ch = some d) : d < 16 := by
  have hch : ∀ ch : UInt8, ∀ d ∈ hexVal ch, d < 16 := by
    intro ch
    unfold hexVal
    simp only [UInt8.le_iff_toNat_le]
    split_ifs with h1 h2 h3
    all_goals simp only [Option.mem_def, Option.some.injEq, reduceCtorEq, forall_eq',
      IsEmpty.forall_iff, implies_true]
    · have : (('9' : Char).toUInt8).toNat = 57 := rfl
      omega
    · have : (('f' : Char).toUInt8).toNat = 102 := rfl
      omega
    · have : (('F' : Char).toUInt8).toNat = 70 := rfl
      omega
  exact hch ch d h

theorem parseHex_lt {s : CStr} {n v r : ℕ} (hv : v < 2 ^ 24) (hn : s.length + n ≤ 6)
    (h : parseHex s n v = some r) : r < 2 ^ 24 := by
  induction s generalizing n v with
  | nil =>
      cases h
      exact hv
  | cons ch s ih =>
      rw [List.length_cons] at hn
      unfold parseHex at h
      split at h
      · next d hd =>
        have hd16 : d < 2 ^ 4 := hexVal_lt hd
        have hshift : d <<< (20 - 4 * n) < 2 ^ 24 := by
          rw [Nat.shiftLeft_eq]
          calc d * 2 ^ (20 - 4 * n) < 2 ^ 4 * 2 ^ (20 - 4 * n) := by
                exact Nat.mul_lt_mul_of_pos_right hd16 (by positivity)
            _ = 2 ^ (4 + (20 - 4 * n)) := (pow_add ..).symm
            _ ≤ 2 ^ 24 := Nat.pow_le_pow_right (by omega) (by omega)
        exact ih (Nat.or_lt_two_pow hv hshift) (by omega) h
      · cases h

theorem parsePalette_ok {palette : CStr} {p : List ℕ} (h : parsePalette palette = some p) :
    p.length = palette.length ∧ ∀ i ∈ p, i < paletteLetters.length := by
  induction palette generalizing p with
  | nil =>
      simp only [parsePalette, List.mapM_nil, Option.pure_def, Option.some.injEq] at h
      simp [← h]
  | cons l palette ih =>
      simp only [parsePalette, List.mapM_cons, Option.pure_def, Option.bind_eq_bind,
        Option.bind_eq_some_iff, Option.some.injEq] at h
      obtain ⟨i, hi, q, hq, rfl⟩ := h
      obtain ⟨hlen, hall⟩ := ih hq
      have hlt : i < paletteLetters.length := by
        rw [List.idxOf?_eq_some_iff] at hi
        exact hi.1
      simp only [List.length_cons, hlen, List.mem_cons, forall_eq_or_imp, true_and]
      exact ⟨hlt, hall⟩

theorem nextField_length {sep : UInt8} {n : ℕ} {s t : Option CStr} {f : CStr} (hn : 0 < n)
    (h : nextField sep n s = some (f, t)) : f.length < n := by
  unfold nextField at h
  split at h
  · cases h
    exact hn
  · split_ifs at h with hlen
    cases h
    exact hlen

theorem parseEffect_ok {s : CStr} {c : Color} (h : parseEffect s = some c) : ColorOk c := by
  simp only [parseEffect, Option.bind_eq_bind, Option.bind_eq_some_iff, Prod.exists] at h
  obtain ⟨_, _, _, speed, _, _, palette, _, hpal, scale, _, _, h⟩ := h
  split_ifs at h
  simp only [Option.bind_eq_some_iff, Option.some.injEq] at h
  obtain ⟨e, he, v, hv, p, hp, k, hk, rfl⟩ := h
  obtain ⟨hlen, hall⟩ := parsePalette_ok hp
  have hlt := nextField_length (by decide) hpal
  refine .effect (List.mem_of_find?_eq_some he) ?_ (by omega) hall ?_
  · unfold parseSpeed at hv
    split_ifs at hv with h1 h2
    · cases hv
      exact Or.inl rfl
    · exact Or.inr ⟨h2, parseNum_eq_some hv⟩
  · unfold parseScale at hk
    split_ifs at hk
    · cases hk
      decide
    · exact parseNum_eq_some hk

theorem parseColor_ok {s : CStr} {c : Color} (h : parseColor s = some c) : ColorOk c := by
  unfold parseColor at h
  split at h
  · exact parseEffect_ok h
  · split_ifs at h with h1 h2
    · exact parseEffect_ok h
    · obtain ⟨v, hv, rfl⟩ := Option.map_eq_some_iff.mp h
      simp only [List.length_cons] at h2
      exact .fixed (parseHex_lt (by decide) (by omega) hv)

/-! ### The whole value -/

theorem fieldsOk_default : FieldsOk hub75Default where
  width := by decide
  height := by decide
  gridX := by decide
  gridY := by decide
  panels := by decide
  scan := by decide
  segment := by decide
  clock := by decide
  depth := by decide
  color := .fixed (by decide)
  offColor := .fixed (by decide)
  brightness := by decide

theorem parseFields_ok {s : CStr} {c : Config} (h : parseFields s = some c) : FieldsOk c := by
  simp only [parseFields, Option.bind_eq_bind, Option.bind_eq_some_iff, Prod.exists] at h
  obtain ⟨_, _, _, c₁, h₁, _, _, _, c₂, h₂, _, _, _, c₃, h₃, _, _, _, c₄, h₄, _, _, _, c₅, h₅,
    h⟩ := h
  split_ifs at h
  cases h
  have hc₁ := parsePart_ok (fun _ => parseGeometry_ok fieldsOk_default) fieldsOk_default h₁
  have hc₂ := parsePart_ok (fun _ => parseProtocol_ok hc₁) hc₁ h₂
  have hc₃ : FieldsOk c₃ := by
    refine parsePart_ok (fun c' hc' => ?_) hc₂ h₃
    obtain ⟨col, hcol, rfl⟩ := Option.map_eq_some_iff.mp hc'
    exact { hc₂ with color := parseColor_ok hcol }
  have hc₄ : FieldsOk c₄ := by
    refine parsePart_ok (fun c' hc' => ?_) hc₃ h₄
    obtain ⟨col, hcol, rfl⟩ := Option.map_eq_some_iff.mp hc'
    exact { hc₃ with offColor := parseColor_ok hcol }
  exact parsePart_ok (fun _ => parseBrightness_ok hc₄) hc₄ h₅

/-- **What `hub75_config_parse` returns 1 for.** -/
theorem hub75ConfigParse_accepted {v : CStr} {c : Config}
    (h : hub75ConfigParse v = .ok (some c)) : Accepted c := by
  unfold hub75ConfigParse at h
  split_ifs at h with hblank
  · cases h
  · split at h
    · cases h
    · next c' hf =>
      split_ifs at h with hs
      cases h
      exact { parseFields_ok hf with splits := hs }

end NodemFirmware.Hub75
