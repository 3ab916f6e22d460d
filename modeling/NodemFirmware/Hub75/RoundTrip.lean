import NodemFirmware.Hub75.Accepted

/-! # The printed config parses back

Every part that `hub75ConfigFormat` prints fits the buffer it is printed into and the one it
is read back through, holds neither separators nor blanks (`Clean`), and parses to the
fields it was printed from.  `parseFields_text` chains the parts, and
`hub75_config_round_trip` carries the result through the config store. -/

namespace NodemFirmware.Hub75

open CText

/-! ### Fields between separators -/

/-- Neither a separator nor a blank. -/
def Clean (f : CStr) : Prop := ∀ ch ∈ f, ch ∉ [(' ' : UInt8), ',', ':']

instance (f : CStr) : Decidable (Clean f) :=
  List.decidableBAll (fun ch => ch ∉ [(' ' : UInt8), ',', ':']) f

@[simp] theorem clean_append {f g : CStr} : Clean (f ++ g) ↔ Clean f ∧ Clean g := by
  simp only [Clean, List.mem_append, or_imp, forall_and]

@[simp] theorem clean_cons {ch : UInt8} {f : CStr} :
    Clean (ch :: f) ↔ ch ∉ [(' ' : UInt8), ',', ':'] ∧ Clean f := by
  simp only [Clean, List.mem_cons, forall_eq_or_imp]

@[simp] theorem clean_nil : Clean [] := by
  simp [Clean]

@[simp] theorem clean_fmtU (n : ℕ) : Clean (fmtU n) := by
  intro ch hch hmem
  have hd : isdigit ch = false := by
    rcases List.mem_cons.mp hmem with rfl | hmem
    · rfl
    rcases List.mem_pair.mp hmem with rfl | rfl <;> rfl
  exact not_mem_fmtU hd n hch

theorem Clean.not_mem {f : CStr} (h : Clean f) {ch : UInt8}
    (hch : ch ∈ [(' ' : UInt8), ',', ':']) : ch ∉ f :=
  fun hm => h ch hm hch

/-- A field that `nextField` reads back as it stands. -/
structure Field (sep : UInt8) (n : ℕ) (f : CStr) : Prop where
  no_sep : sep ∉ f
  no_blank : (' ' : UInt8) ∉ f
  fits : f.length < n

theorem Clean.field {f : CStr} (h : Clean f) {n : ℕ} (hn : f.length < n) : Field ':' n f where
  no_sep := h.not_mem (by decide)
  no_blank := h.not_mem (by decide)
  fits := hn

theorem Clean.field_comma {f : CStr} (h : Clean f) {n : ℕ} (hn : f.length < n) :
    Field ',' n f where
  no_sep := h.not_mem (by decide)
  no_blank := h.not_mem (by decide)
  fits := hn

theorem field_joinWith {l : List CStr} (h : ∀ f ∈ l, Clean f) {n : ℕ}
    (hn : (joinWith ':' l).length < n) : Field ',' n (joinWith ':' l) where
  no_sep := not_mem_joinWith (by decide) (fun f hf => (h f hf).not_mem (by decide))
  no_blank := not_mem_joinWith (by decide) (fun f hf => (h f hf).not_mem (by decide))
  fits := hn

theorem nextField_cons {sep : UInt8} {n : ℕ} {f g : CStr} {l : List CStr} (h : Field sep n f) :
    nextField sep n (some (joinWith sep (f :: g :: l))) =
      some (f, some (joinWith sep (g :: l))) := by
  unfold nextField
  simp only [joinWith_cons_cons, cut_append h.no_sep, trim_of_not_mem h.no_blank]
  rw [if_pos h.fits]

theorem nextField_last {sep : UInt8} {n : ℕ} {f : CStr} (h : Field sep n f) :
    nextField sep n (some (joinWith sep [f])) = some (f, none) := by
  unfold nextField
  simp only [joinWith_singleton, cut_of_not_mem h.no_sep, trim_of_not_mem h.no_blank]
  rw [if_pos h.fits]

@[simp] theorem nextField_none (sep : UInt8) (n : ℕ) : nextField sep n none = some ([], none) :=
  rfl

theorem parsePart_of_ne {parse : CStr → Config → Option Config} {f : CStr} (h : f ≠ [])
    (c : Config) : parsePart parse f c = parse f c := by
  unfold parsePart
  rw [if_neg h]

theorem parseNum_fmtU {n lo hi : ℕ} (h : lo ≤ n ∧ n ≤ hi) (hhi : hi ≤ 32767) :
    parseNum (fmtU n) lo hi = some n := by
  have hs : strtol (fmtU n) = some ((n : ℤ), []) := by
    have := strtol_fmtU (n := n) (s := []) (by unfold longMax; omega) trivial
    rwa [List.append_nil] at this
  unfold parseNum
  rw [hs]
  simp only [Nat.cast_le, Int.toNat_natCast]
  rw [if_pos h]

/-! ### Geometry -/

theorem parseLayout_text (c c₀ : Config) :
    parseLayout (layoutText c) c₀ = some { c₀ with flipX := c.flipX, flipY := c.flipY } := by
  unfold parseLayout layoutText
  cases c.flipX <;> cases c.flipY <;> rfl

theorem parseGrid_text {c c₀ : Config} (hc : FieldsOk c) (hs : c₀.serpentine = false) :
    parseGrid (gridText c) c₀ =
      some { c₀ with gridX := c.gridX, gridY := c.gridY, serpentine := c.serpentine } := by
  obtain ⟨hx1, hx2⟩ := hc.gridX
  obtain ⟨hy1, hy2⟩ := hc.gridY
  have hp := hc.panels
  have hcols : strtol (gridText c) = some ((c.gridX : ℤ),
      cs "x" ++ fmtU c.gridY ++ if c.serpentine then cs "i" else []) := by
    unfold gridText
    rw [List.append_assoc, List.append_assoc]
    exact strtol_fmtU (by unfold longMax; omega) rfl
  have hrows : strtol (fmtU c.gridY ++ if c.serpentine then cs "i" else []) =
      some ((c.gridY : ℤ), if c.serpentine then cs "i" else []) := by
    apply strtol_fmtU (by unfold longMax; omega)
    cases c.serpentine
    · trivial
    · rfl
  have hx : cs "x" ++ fmtU c.gridY ++ (if c.serpentine then cs "i" else []) =
      ('x' : UInt8) :: (fmtU c.gridY ++ if c.serpentine then cs "i" else []) := by
    rw [List.append_assoc]
    rfl
  have hprod : ¬ (c.gridX : ℤ) * c.gridY > 16 := by
    rw [not_lt]
    exact_mod_cast hp
  unfold parseGrid
  rw [hcols, hx]
  simp only [List.head?_cons, List.tail_cons, if_true, hrows]
  rw [if_neg (by omega), if_neg (by omega)]
  unfold parseGridEnd
  cases c.serpentine
  · simp [hprod, hs]
  · have hi : (cs "i").head? = some ('i' : UInt8) := rfl
    have ht : (cs "i").tail = [] := rfl
    simp [hprod, hi, ht]

theorem clean_layoutText (c : Config) : Clean (layoutText c) := by
  unfold layoutText
  cases c.flipX <;> cases c.flipY <;> decide

theorem clean_gridText (c : Config) : Clean (gridText c) := by
  unfold gridText
  have hx : Clean (cs "x") := by decide
  have hi : Clean (cs "i") := by decide
  split_ifs <;> simp [hx, hi]

theorem gridText_length {c : Config} (hc : FieldsOk c) : (gridText c).length ≤ 6 := by
  have hx := fmtU_length_le (n := c.gridX) (k := 2) (by decide) (by have := hc.gridX; omega)
  have hy := fmtU_length_le (n := c.gridY) (k := 2) (by decide) (by have := hc.gridY; omega)
  have h1 : (cs "x").length = 1 := rfl
  have h2 : (cs "i").length = 1 := rfl
  unfold gridText
  split_ifs <;> simp only [List.length_append, List.length_nil, h1, h2] <;> omega

theorem geometryText_length {c : Config} (hc : FieldsOk c) : (geometryText c).length ≤ 21 := by
  have hw := fmtU_length_le (n := c.width) (k := 5) (by decide)
    (by have := hc.width; unfold maxPixels at this; omega)
  have hh := fmtU_length_le (n := c.height) (k := 5) (by decide)
    (by have := hc.height; unfold maxPixels at this; omega)
  have hg := gridText_length hc
  have hl : (layoutText c).length = 2 := rfl
  simp only [geometryText, joinWith_cons_cons, joinWith_singleton, List.length_append,
    List.length_cons, hl]
  omega

theorem parseGeometry_text {c : Config} (hc : FieldsOk c) (c₀ : Config) :
    parseGeometry (geometryText c) c₀ =
      some { c₀ with
        width := c.width, height := c.height, flipX := c.flipX, flipY := c.flipY
        gridX := c.gridX, gridY := c.gridY, serpentine := c.serpentine } := by
  have hw := fmtU_length_le (n := c.width) (k := 5) (by decide)
    (by have := hc.width; unfold maxPixels at this; omega)
  have hh := fmtU_length_le (n := c.height) (k := 5) (by decide)
    (by have := hc.height; unfold maxPixels at this; omega)
  have hg := gridText_length hc
  have hne : gridText c ≠ [] := by simp [gridText, fmtU_ne_nil]
  unfold parseGeometry geometryText
  rw [nextField_cons ((clean_fmtU _).field (by omega))]
  simp only [Option.bind_eq_bind, Option.bind_some]
  rw [parseNum_fmtU hc.width (by decide), Option.bind_some,
    nextField_cons ((clean_fmtU _).field (by omega))]
  simp only [Option.bind_some]
  rw [parseNum_fmtU hc.height (by decide), Option.bind_some,
    nextField_cons ((clean_layoutText c).field (n := 16) (by simp [layoutText]))]
  simp only [Option.bind_some]
  rw [parseLayout_text, Option.bind_some, nextField_last ((clean_gridText c).field (by omega))]
  simp only [Option.bind_some, Option.isSome_none, Bool.false_eq_true, if_false]
  rw [parsePart_of_ne hne, parseGrid_text hc rfl, Option.bind_some]

/-! ### Protocol -/

theorem chainText_length {c : Config} (hc : FieldsOk c) : (chainText c).length ≤ 5 := by
  have hs := fmtU_length_le (n := c.segment) (k := 3) (by decide)
    (by have := hc.segment; omega)
  have h1 : (cs "z").length = 1 := rfl
  unfold chainText
  split_ifs <;> simp only [List.length_append, List.length_cons, List.length_nil, h1] <;> omega

theorem clean_chainText (c : Config) : Clean (chainText c) := by
  have hz : Clean (cs "z") := by decide
  unfold chainText
  split_ifs <;> simp [hz] <;> decide

theorem head_fmtU {n : ℕ} (h : n ≠ 0) (s : CStr) :
    ∃ d t, fmtU n ++ s = d :: t ∧ ('1' : UInt8) ≤ d ∧ d ≤ ('9' : UInt8) := by
  induction n using Nat.strong_induction_on generalizing s with
  | _ n ih =>
      rcases Nat.lt_or_ge n 10 with hn | hn
      · rw [fmtU_of_lt hn]
        refine ⟨_, s, rfl, ?_⟩
        interval_cases n <;> first | exact absurd rfl h | decide
      · rw [fmtU_of_le hn, List.append_assoc]
        exact ih (n / 10) (by omega) (by omega) _

theorem parseChainEnd_text (far zigzag : Bool) (segment : ℕ) (c₀ : Config) :
    parseChainEnd far segment (if zigzag then cs "z" else []) c₀ =
      some { c₀ with farFirst := far, segment := segment, zigzag := zigzag } := by
  cases zigzag <;> rfl

theorem parseChain_text {c : Config} (hc : FieldsOk c) (c₀ : Config) :
    parseChain (chainText c) c₀ =
      some { c₀ with farFirst := c.farFirst, segment := c.segment, zigzag := c.zigzag } := by
  have hfar : ∀ b : Bool, ((if b then ('f' : UInt8) else 'n') = 'f') = (b = true) := by decide
  have hnf : ∀ b : Bool, ¬ ((if b then ('f' : UInt8) else 'n') ≠ 'n' ∧
      (if b then ('f' : UInt8) else 'n') ≠ 'f') := by decide
  have hz : NoDigit (if c.zigzag then cs "z" else []) := by
    cases c.zigzag
    · trivial
    · rfl
  unfold parseChain chainText
  simp only [if_neg (hnf c.farFirst), hfar]
  by_cases hseg : c.segment = 0
  · have hhead : ((if c.zigzag then cs "z" else []).head?.any
        (fun d => decide (('1' : UInt8) ≤ d ∧ d ≤ ('9' : UInt8)))) = false := by
      cases c.zigzag <;> rfl
    simp only [hseg, ne_eq, not_true_eq_false, if_false, List.nil_append, hhead,
      Bool.false_eq_true]
    rw [parseChainEnd_text]
    simp
  · obtain ⟨d, t, hd, hd1, hd9⟩ := head_fmtU hseg (if c.zigzag then cs "z" else [])
    have hsegle := hc.segment
    simp only [ne_eq, hseg, not_false_eq_true, if_true, hd, List.head?_cons, Option.any_some,
      hd1, hd9, and_self, decide_true]
    rw [← hd, strtol_fmtU (by unfold longMax; omega) hz]
    simp only
    rw [if_neg (by omega), Int.toNat_natCast, parseChainEnd_text]
    simp

theorem chipName_spec (chip : Chip) :
    Clean (chipName chip) ∧ (chipName chip).length ≤ 7 ∧ chipName chip ≠ [] ∧
      chipNames.find? (fun n => n.1 = chipName chip) = some (chipName chip, chip) := by
  cases chip <;> decide

theorem protocolText_eq {c : Config} (hc : FieldsOk c) :
    protocolText c =
      joinWith ':' [fmtU c.scan, chainText c, fmtU c.clockKhz, chipName c.chip, fmtU c.depth] := by
  have := chainText_length hc
  unfold protocolText
  rw [clip_of_lt (by omega)]

theorem scan_bounds {c : Config} (hc : FieldsOk c) :
    (2 ≤ c.scan ∧ c.scan ≤ 32) ∧ ¬ (c.scan &&& (c.scan - 1) ≠ 0) := by
  have h := hc.scan
  simp only [List.mem_cons, List.not_mem_nil, or_false] at h
  rcases h with h | h | h | h | h <;> rw [h] <;> decide

theorem protocolText_length {c : Config} (hc : FieldsOk c) : (protocolText c).length ≤ 23 := by
  have h1 := fmtU_length_le (n := c.scan) (k := 2) (by decide)
    (by have := scan_bounds hc; omega)
  have h2 := fmtU_length_le (n := c.clockKhz) (k := 4) (by decide)
    (by have := hc.clock; unfold clockMaxKhz at this; omega)
  have h3 := fmtU_length_le (n := c.depth) (k := 1) (by decide)
    (by have := hc.depth; unfold maxDepth at this; omega)
  have h4 := chainText_length hc
  have h5 := (chipName_spec c.chip).2.1
  rw [protocolText_eq hc]
  simp only [joinWith_cons_cons, joinWith_singleton, List.length_append, List.length_cons]
  omega

theorem presets_clean : ∀ p ∈ presets, Clean p.1 := by decide

theorem parseProtocol_text {c : Config} (hc : FieldsOk c) (c₀ : Config) :
    parseProtocol (protocolText c) c₀ =
      some { c₀ with
        scan := c.scan, farFirst := c.farFirst, segment := c.segment, zigzag := c.zigzag
        clockKhz := c.clockKhz, chip := c.chip, depth := c.depth } := by
  have hclock := fmtU_length_le (n := c.clockKhz) (k := 4) (by decide)
    (by have := hc.clock; unfold clockMaxKhz at this; omega)
  have hscan := fmtU_length_le (n := c.scan) (k := 2) (by decide)
    (by have := scan_bounds hc; omega)
  have hdepth := fmtU_length_le (n := c.depth) (k := 1) (by decide)
    (by have := hc.depth; unfold maxDepth at this; omega)
  have hchain := chainText_length hc
  obtain ⟨hcl, hlen, hne, hfind⟩ := chipName_spec c.chip
  have hpre : presets.find? (fun p => p.1 = protocolText c) = none := by
    rw [List.find?_eq_none]
    intro p hp heq
    have hmem : (':' : UInt8) ∈ protocolText c := by
      rw [protocolText_eq hc, joinWith_cons_cons]
      simp
    rw [← of_decide_eq_true heq] at hmem
    exact (presets_clean p hp).not_mem (by decide) hmem
  unfold parseProtocol
  rw [hpre, protocolText_eq hc]
  unfold parseProtocolParts
  rw [nextField_cons ((clean_fmtU _).field (by omega))]
  simp only [Option.bind_eq_bind, Option.bind_some]
  rw [parsePart_of_ne (fmtU_ne_nil _), parseScan, parseNum_fmtU (scan_bounds hc).1 (by decide)]
  simp only [if_neg (scan_bounds hc).2, Option.bind_some]
  rw [nextField_cons ((clean_chainText c).field (by omega))]
  simp only [Option.bind_some]
  rw [parsePart_of_ne (by simp [chainText]), parseChain_text hc, Option.bind_some,
    nextField_cons ((clean_fmtU _).field (by omega))]
  simp only [Option.bind_some]
  rw [parsePart_of_ne (fmtU_ne_nil _), parseClock, parseNum_fmtU hc.clock (by decide),
    Option.map_some, Option.bind_some, nextField_cons (hcl.field (by omega))]
  simp only [Option.bind_some]
  rw [parsePart_of_ne hne, parseChip, hfind, Option.map_some, Option.bind_some,
    nextField_last ((clean_fmtU _).field (by omega))]
  simp only [Option.bind_some, Option.isSome_none, Bool.false_eq_true, if_false]
  rw [parsePart_of_ne (fmtU_ne_nil _), parseDepth, parseNum_fmtU hc.depth (by decide),
    Option.map_some]

/-! ### Colours -/

theorem hexVal_hexDigit {d : ℕ} (h : d < 16) : hexVal (hexDigit d) = some d := by
  interval_cases d <;> decide

theorem clean_hexDigit {d : ℕ} (h : d < 16) : hexDigit d ∉ [(' ' : UInt8), ',', ':'] := by
  interval_cases d <;> decide

theorem clean_fmtX (k n : ℕ) : Clean (fmtX k n) := by
  intro ch hch
  obtain ⟨d, hd, rfl⟩ := mem_fmtX hch
  exact clean_hexDigit hd

theorem parseHex_append (s t : CStr) (n v : ℕ) :
    parseHex (s ++ t) n v = (parseHex s n v).bind (parseHex t (n + s.length)) := by
  induction s generalizing n v with
  | nil => rfl
  | cons ch s ih =>
      simp only [List.cons_append, parseHex, List.length_cons]
      cases hexVal ch with
      | none => rfl
      | some d =>
          show parseHex (s ++ t) _ _ = (parseHex s _ _).bind _
          rw [ih, Nat.add_assoc, Nat.add_comm 1]

/-- The first `k` digits are read into the upper `4 * k` of the 24 bits. -/
theorem parseHex_fmtX {k r : ℕ} (hk : k ≤ 6) (hr : r < 16 ^ k) :
    parseHex (fmtX k r) 0 0 = some (r <<< (24 - 4 * k)) := by
  induction k generalizing r with
  | zero =>
      have : r = 0 := by omega
      rw [this]
      rfl
  | succ k ih =>
      have hq : r / 16 < 16 ^ k := by
        rw [Nat.div_lt_iff_lt_mul (by omega)]
        rwa [pow_succ] at hr
      have hlast : (r / 16) <<< 4 ||| r % 16 = r := by
        rw [← Nat.shiftLeft_add_eq_or_of_lt (Nat.mod_lt _ (by decide)), Nat.shiftLeft_eq]
        omega
      have hshift : 24 - 4 * k = 4 + (20 - 4 * k) := by omega
      rw [fmtX, parseHex_append, ih (by omega) hq, Option.bind_some, fmtX_length, Nat.zero_add]
      simp only [parseHex, hexVal_hexDigit (Nat.mod_lt r (by decide))]
      rw [hshift, Nat.shiftLeft_add, ← Nat.shiftLeft_or_distrib, hlast,
        show 24 - 4 * (k + 1) = 20 - 4 * k by omega]

/-- `e'` is the entry whose name an effect of `e` is printed by, and it is found by that
name again. -/
structure NamedBy (e e' : EffectEntry) : Prop where
  find_effect : effects.find? (fun d => d.effect = e.effect) = some e'
  find_name : effects.find? (fun d => d.name = e'.name) = some e'
  effect : e'.effect = e.effect
  speed : e'.speed = e.speed
  clean : Clean e'.name
  length : e'.name.length ≤ 8
  head : e'.name.head?.any (fun ch : UInt8 => ch ≠ '#')

theorem effects_spec : ∀ e ∈ effects, e.effect ≠ .none ∧ e.speed ≤ effectSpeedMax ∧
    ∃ e' ∈ effects.find? (fun d => d.effect = e.effect),
      effects.find? (fun d => d.name = e'.name) = some e' ∧ e'.effect = e.effect ∧
        e'.speed = e.speed ∧ Clean e'.name ∧ e'.name.length ≤ 8 ∧
        e'.name.head?.any (fun ch : UInt8 => ch ≠ '#') := by
  decide

theorem exists_namedBy {e : EffectEntry} (he : e ∈ effects) : ∃ e', NamedBy e e' := by
  obtain ⟨-, -, e', hf, h1, h2, h3, h4, h5, h6⟩ := effects_spec e he
  exact ⟨e', hf, h1, h2, h3, h4, h5, h6⟩

theorem paletteLetters_spec : ∀ i < paletteLetters.length,
    paletteLetters.getD i 0 ∉ [(' ' : UInt8), ',', ':'] ∧
      paletteLetters.idxOf? (paletteLetters.getD i 0) = some i := by
  decide

theorem parsePalette_map {p : List ℕ} (h : ∀ i ∈ p, i < paletteLetters.length) :
    parsePalette (p.map (fun i => paletteLetters.getD i 0)) = some p := by
  induction p with
  | nil => rfl
  | cons i p ih =>
      have hi := (paletteLetters_spec i (h i (List.mem_cons_self ..))).2
      have hp := ih (fun j hj => h j (List.mem_cons_of_mem _ hj))
      unfold parsePalette at hp ⊢
      rw [List.map_cons, List.mapM_cons, hi, hp]
      rfl

theorem clean_palette {p : List ℕ} (h : ∀ i ∈ p, i < paletteLetters.length) :
    Clean (p.map (fun i => paletteLetters.getD i 0)) := by
  intro ch hch
  obtain ⟨i, hi, rfl⟩ := List.mem_map.mp hch
  exact (paletteLetters_spec i (h i hi)).1

/-- The parts an effect is read from, whichever of them were printed. -/
theorem parseEffect_effectText {name speed palette scale : CStr}
    (hn : Field ':' 12 name) (hs : Field ':' 4 speed) (hp : Field ':' (paletteMax + 1) palette)
    (hk : Field ':' 4 scale) :
    parseEffect (effectText name speed palette scale) = (do
      let e ← effects.find? (fun e => e.name = name)
      let speed ← parseSpeed e speed
      let palette ← parsePalette palette
      let scale ← parseScale scale
      some ⟨e.effect, speed, palette, scale, 0⟩) := by
  unfold parseEffect effectText
  split_ifs with h1 h2 h3
  · rw [nextField_cons hn]
    simp only [Option.bind_eq_bind, Option.bind_some]
    rw [nextField_cons hs]
    simp only [Option.bind_some]
    rw [nextField_cons hp]
    simp only [Option.bind_some]
    rw [nextField_last hk]
    rfl
  · rw [not_not] at h1
    rw [nextField_cons hn]
    simp only [Option.bind_eq_bind, Option.bind_some]
    rw [nextField_cons hs]
    simp only [Option.bind_some]
    rw [nextField_last hp, h1]
    rfl
  · rw [not_not] at h1 h2
    rw [nextField_cons hn]
    simp only [Option.bind_eq_bind, Option.bind_some]
    rw [nextField_last hs, h1, h2]
    rfl
  · rw [not_not] at h1 h2 h3
    rw [nextField_last hn, h1, h2, h3]
    rfl

theorem effectText_props {name speed palette scale : CStr} (hn : Clean name) (hs : Clean speed)
    (hp : Clean palette) (hk : Clean scale) (hlen : name.length ≤ 8 ∧ speed.length ≤ 2 ∧
      palette.length ≤ 8 ∧ scale.length ≤ 2) (hne : name ≠ []) :
    Field ',' 32 (effectText name speed palette scale) ∧
      (effectText name speed palette scale).length ≤ 23 ∧
      (effectText name speed palette scale).head? = name.head? := by
  have hname : ∀ t, (name ++ t).head? = name.head? := by
    intro t
    cases name with
    | nil => exact absurd rfl hne
    | cons ch name => rfl
  obtain ⟨h1, h2, h3, h4⟩ := hlen
  unfold effectText
  split_ifs
  all_goals
    refine ⟨field_joinWith ?_ ?_, ?_, ?_⟩
    · simp [hn, hs, hp, hk]
    · simp only [joinWith_cons_cons, joinWith_singleton, List.length_append, List.length_cons]
      omega
    · simp only [joinWith_cons_cons, joinWith_singleton, List.length_append, List.length_cons]
      omega
    · simp only [joinWith_cons_cons, joinWith_singleton, hname]

/-- The buffers of `format_color` and of the field it is read through are large enough. -/
structure ColorFits (c : Color) : Prop where
  color : (colorText c).length < 32
  speed : ∀ e, (speedText e c).length < 4
  palette : (paletteText c).length < paletteMax + 1
  scale : (scaleText c).length < 4

/-- A printed colour is one field of the value and parses back. -/
structure ColorTrip (c : Color) : Prop where
  fits : ColorFits c
  field : Field ',' 32 (formatColor c 32)
  length : (formatColor c 32).length ≤ 23
  parse : parseColor (formatColor c 32) = some c

theorem fixed_trip {rgb : ℕ} (h : rgb < 2 ^ 24) : ColorTrip (Color.fixed rgb) := by
  have htext : colorText (Color.fixed rgb) = ('#' : UInt8) :: fmtX 6 rgb := by
    show ('#' : UInt8) :: fmtHex 6 rgb = _
    unfold fmtHex
    rw [if_pos (by omega)]
  have hlen : (('#' : UInt8) :: fmtX 6 rgb).length = 7 := by simp
  have hclean : Clean (('#' : UInt8) :: fmtX 6 rgb) := by
    rw [clean_cons]
    exact ⟨by decide, clean_fmtX 6 rgb⟩
  have hfmt : formatColor (Color.fixed rgb) 32 = ('#' : UInt8) :: fmtX 6 rgb := by
    unfold formatColor
    rw [htext, clip_of_lt (by omega)]
  constructor
  · refine ⟨by rw [htext, hlen]; decide, ?_, by simp [paletteText, Color.fixed], ?_⟩
    · intro e
      show (speedText e (Color.fixed 0)).length < 4
      unfold speedText
      split_ifs <;> decide
    · show (scaleText (Color.fixed 0)).length < 4
      decide
  · rw [hfmt]
    exact hclean.field_comma (by omega)
  · rw [hfmt]
    omega
  · rw [hfmt]
    unfold parseColor
    simp only [ne_eq, not_true_eq_false, if_false, hlen]
    rw [if_neg (by decide), parseHex_fmtX (by decide) (by omega)]
    rfl

theorem parseColor_effect {s : CStr} (h : s.head?.any (fun ch : UInt8 => ch ≠ '#')) :
    parseColor s = parseEffect s := by
  cases s with
  | nil => rfl
  | cons ch s =>
      have hch : ch ≠ '#' := by simpa using h
      unfold parseColor
      simp only [if_pos hch]

theorem parseSpeed_text {e e' : EffectEntry} {c : Color} (he : e'.speed = e.speed)
    (hs : c.speed = e.speed ∨ e.speed ≠ 0 ∧ 1 ≤ c.speed ∧ c.speed ≤ effectSpeedMax) :
    parseSpeed e' (speedText e' c) = some c.speed := by
  unfold parseSpeed speedText
  by_cases h : c.speed = e'.speed
  · simp [h]
  · simp only [ne_eq, h, not_false_eq_true, if_true, fmtU_ne_nil, if_false]
    rw [if_neg (by omega), parseNum_fmtU (by omega) (by decide)]

theorem parseScale_text {c : Color} (hk : 1 ≤ c.scale ∧ c.scale ≤ scaleMax) :
    parseScale (scaleText c) = some c.scale := by
  unfold parseScale scaleText
  by_cases h : c.scale = scaleDefault
  · simp [h]
  · simp only [ne_eq, h, not_false_eq_true, if_true, fmtU_ne_nil, if_false]
    exact parseNum_fmtU hk (by decide)

theorem speedText_length {c : Color} (hs : c.speed ≤ effectSpeedMax) (e : EffectEntry) :
    (speedText e c).length ≤ 2 := by
  unfold effectSpeedMax at hs
  unfold speedText
  split_ifs
  · exact fmtU_length_le (by decide) (by omega)
  · decide

theorem scaleText_length {c : Color} (hk : c.scale ≤ scaleMax) : (scaleText c).length ≤ 2 := by
  unfold scaleMax at hk
  unfold scaleText
  split_ifs
  · exact fmtU_length_le (by decide) (by omega)
  · decide

theorem effect_trip {e : EffectEntry} {c : Color} (he : e ∈ effects) (heff : c.effect = e.effect)
    (hspeed : c.speed = e.speed ∨ e.speed ≠ 0 ∧ 1 ≤ c.speed ∧ c.speed ≤ effectSpeedMax)
    (hlen : c.palette.length ≤ paletteMax) (hpal : ∀ i ∈ c.palette, i < paletteLetters.length)
    (hscale : 1 ≤ c.scale ∧ c.scale ≤ scaleMax) (hrgb : c.rgb = 0) : ColorTrip c := by
  obtain ⟨hnone, hes, -⟩ := effects_spec e he
  obtain ⟨e', hn⟩ := exists_namedBy he
  have hsle : c.speed ≤ effectSpeedMax := by omega
  have hs1 := speedText_length hsle
  have hk1 := scaleText_length hscale.2
  have hp1 : (paletteText c).length ≤ 8 := by
    unfold paletteText
    rw [List.length_map]
    exact hlen
  have hs2 : Clean (speedText e' c) := by
    unfold speedText
    split_ifs <;> simp
  have hk2 : Clean (scaleText c) := by
    unfold scaleText
    split_ifs <;> simp
  have hp2 : Clean (paletteText c) := clean_palette hpal
  have hne : e'.name ≠ [] := by
    intro h0
    have := hn.head
    rw [h0] at this
    cases this
  have htext : colorText c = effectText e'.name (speedText e' c) (paletteText c)
      (scaleText c) := by
    have hf := hn.find_effect
    rw [← heff] at hf
    unfold colorText
    rw [if_neg (by rw [heff]; exact hnone), hf]
    simp only
    rw [clip_of_lt (by have := hs1 e'; omega), clip_of_lt (by unfold paletteMax; omega),
      clip_of_lt (by omega)]
  obtain ⟨ht1, ht2, ht3⟩ := effectText_props hn.clean hs2 hp2 hk2
    ⟨hn.length, hs1 e', hp1, hk1⟩ hne
  have hfmt : formatColor c 32 = effectText e'.name (speedText e' c) (paletteText c)
      (scaleText c) := by
    unfold formatColor
    rw [htext, clip_of_lt (by omega)]
  refine ⟨⟨by rw [htext]; omega, fun e => by have := hs1 e; omega,
    by unfold paletteMax; omega, by omega⟩, by rw [hfmt]; exact ht1, by rw [hfmt]; exact ht2, ?_⟩
  rw [hfmt, parseColor_effect (by rw [ht3]; exact hn.head), parseEffect_effectText
    (hn.clean.field (by have := hn.length; omega)) (hs2.field (by have := hs1 e'; omega))
    (hp2.field (by unfold paletteMax; omega)) (hk2.field (by omega)), hn.find_name]
  simp only [Option.bind_eq_bind, Option.bind_some]
  rw [parseSpeed_text hn.speed hspeed, Option.bind_some, paletteText, parsePalette_map hpal,
    Option.bind_some, parseScale_text hscale, Option.bind_some, hn.effect, ← heff, ← hrgb]

/-- **Colours**: the printed colour fits every buffer, is one field, and parses back. -/
theorem color_trip {c : Color} (hc : ColorOk c) : ColorTrip c := by
  cases hc with
  | fixed h => exact fixed_trip h
  | effect he hspeed hlen hpal hscale => exact effect_trip he rfl hspeed hlen hpal hscale rfl

/-! ### The whole value -/

theorem geometryText_field {c : Config} (hc : FieldsOk c) : Field ',' 32 (geometryText c) := by
  have h := geometryText_length hc
  unfold geometryText at h ⊢
  refine field_joinWith (fun f hf => ?_) (by omega)
  simp only [List.mem_cons, List.not_mem_nil, or_false] at hf
  rcases hf with rfl | rfl | rfl | rfl
  · exact clean_fmtU _
  · exact clean_fmtU _
  · exact clean_layoutText c
  · exact clean_gridText c

theorem protocolText_field {c : Config} (hc : FieldsOk c) : Field ',' 32 (protocolText c) := by
  have h := protocolText_length hc
  rw [protocolText_eq hc] at h ⊢
  refine field_joinWith (fun f hf => ?_) (by omega)
  simp only [List.mem_cons, List.not_mem_nil, or_false] at hf
  rcases hf with rfl | rfl | rfl | rfl | rfl
  · exact clean_fmtU _
  · exact clean_chainText c
  · exact clean_fmtU _
  · exact (chipName_spec c.chip).1
  · exact clean_fmtU _

theorem brightnessText_field {c : Config} (hc : FieldsOk c) :
    Field ',' 32 (fmtU c.brightness) ∧ (fmtU c.brightness).length ≤ 5 := by
  have h : (fmtU c.brightness).length ≤ 5 :=
    fmtU_length_le (by decide) (by have := hc.brightness; unfold brightnessMax at this; omega)
  exact ⟨(clean_fmtU _).field_comma (by omega), h⟩

theorem text_length {c : Config} (hc : FieldsOk c) : c.text.length ≤ 99 := by
  have h1 := geometryText_length hc
  have h2 := protocolText_length hc
  have h3 := (color_trip hc.color).length
  have h4 := (color_trip hc.offColor).length
  have h5 := (brightnessText_field hc).2
  unfold Config.text
  simp only [joinWith_cons_cons, joinWith_singleton, List.length_append, List.length_cons]
  omega

theorem parseFields_text {c : Config} (hc : FieldsOk c) : parseFields c.text = some c := by
  have hg : geometryText c ≠ [] := by simp [geometryText]
  have hp : protocolText c ≠ [] := by simp [protocolText]
  have hcol : ∀ {col : Color}, ColorOk col → formatColor col 32 ≠ [] := by
    intro col hok h0
    have hparse := (color_trip hok).parse
    have hempty : parseColor [] = none := rfl
    rw [h0, hempty] at hparse
    cases hparse
  unfold parseFields Config.text
  rw [nextField_cons (geometryText_field hc)]
  simp only [Option.bind_eq_bind, Option.bind_some]
  rw [parsePart_of_ne hg, parseGeometry_text hc, Option.bind_some,
    nextField_cons (protocolText_field hc)]
  simp only [Option.bind_some]
  rw [parsePart_of_ne hp, parseProtocol_text hc, Option.bind_some,
    nextField_cons (color_trip hc.color).field]
  simp only [Option.bind_some]
  rw [parsePart_of_ne (hcol hc.color), (color_trip hc.color).parse, Option.map_some,
    Option.bind_some, nextField_cons (color_trip hc.offColor).field]
  simp only [Option.bind_some]
  rw [parsePart_of_ne (hcol hc.offColor), (color_trip hc.offColor).parse, Option.map_some,
    Option.bind_some, nextField_last (brightnessText_field hc).1]
  simp only [Option.bind_some]
  rw [parsePart_of_ne (fmtU_ne_nil _), parseBrightness,
    parseNum_fmtU ⟨Nat.zero_le _, hc.brightness⟩ (by decide)]
  rfl

theorem blank_not_mem_text {c : Config} (hc : FieldsOk c) : (' ' : UInt8) ∉ c.text := by
  unfold Config.text
  apply not_mem_joinWith (by decide)
  intro f hf
  simp only [List.mem_cons, List.not_mem_nil, or_false] at hf
  rcases hf with rfl | rfl | rfl | rfl | rfl
  · exact (geometryText_field hc).no_blank
  · exact (protocolText_field hc).no_blank
  · exact (color_trip hc.color).field.no_blank
  · exact (color_trip hc.offColor).field.no_blank
  · exact (brightnessText_field hc).1.no_blank

/-- **Parsing a printed config** gives the config back. -/
theorem hub75ConfigParse_format {c : Config} (hc : Accepted c) :
    hub75ConfigFormat c hub75ValueLen = c.text ∧ hub75ConfigParse c.text = .ok (some c) := by
  have hlen := text_length hc.toFieldsOk
  have hne : c.text ≠ [] := by simp [Config.text]
  refine ⟨clip_of_lt (by unfold hub75ValueLen; omega), ?_⟩
  unfold hub75ConfigParse
  rw [dropWhile_eq_of_not_mem (blank_not_mem_text hc.toFieldsOk), if_neg hne,
    parseFields_text hc.toFieldsOk]
  simp only [if_pos hc.splits]

open ConfigStore in
/-- **Reading back what was set.** -/
theorem hub75ConfigRead_of_set {st st' : Store} {v : CStr} {c : Config} {err err' : ℤ}
    (hv : hub75ConfigParse v = .ok (some c)) (h : hub75ConfigSet st v err = (0, st')) :
    hub75ConfigRead st' err' = (some c, st') := by
  obtain ⟨hfmt, hparse⟩ := hub75ConfigParse_format (hub75ConfigParse_accepted hv)
  have hlen := text_length (hub75ConfigParse_accepted hv).toFieldsOk
  unfold hub75ConfigSet at h
  rw [hv] at h
  simp only [hfmt] at h
  have hget : configGetStr st'.entries hub75Key hub75ValueLen [1] = c.text := by
    rw [configGetStr_of_set h, clip_of_lt (by unfold hub75ValueLen; omega)]
  have hne : c.text ≠ [1] := by
    intro h1
    have hbad : hub75ConfigParse [1] = .error (-Errno.inval) := rfl
    rw [h1, hbad] at hparse
    cases hparse
  unfold hub75ConfigRead
  simp only [hget, if_neg hne, hparse]

open ConfigStore in
/-- **The config round trip.**  The printed config fits its buffer and every buffer on the
way, parses back to the config it was printed from, is what is read back after a successful
set, and is printed the same again. -/
theorem hub75_config_round_trip (v : CStr) (c : Config)
    (h : hub75ConfigParse v = .ok (some c)) :
    (c.text.length < hub75ValueLen ∧ c.text.length ≤ maxStrLen ∧
        hub75ConfigFormat c hub75ValueLen = c.text) ∧
      ((chainText c).length < 8 ∧ ColorFits c.color ∧ ColorFits c.offColor) ∧
      hub75ConfigParse (hub75ConfigFormat c hub75ValueLen) = .ok (some c) ∧
      (∀ st st' err err', hub75ConfigSet st v err = (0, st') →
        hub75ConfigRead st' err' = (some c, st')) ∧
      ∀ c', hub75ConfigParse (hub75ConfigFormat c hub75ValueLen) = .ok (some c') →
        hub75ConfigFormat c' hub75ValueLen = hub75ConfigFormat c hub75ValueLen := by
  have hc := hub75ConfigParse_accepted h
  have hlen := text_length hc.toFieldsOk
  have hchain := chainText_length hc.toFieldsOk
  obtain ⟨hfmt, hparse⟩ := hub75ConfigParse_format hc
  refine ⟨⟨by unfold hub75ValueLen; omega, by unfold maxStrLen; omega, hfmt⟩,
    ⟨by omega, (color_trip hc.color).fits, (color_trip hc.offColor).fits⟩,
    by rw [hfmt]; exact hparse, fun st st' err err' => hub75ConfigRead_of_set h, ?_⟩
  intro c' hc'
  rw [hfmt, hparse] at hc'
  cases hc'
  rfl

theorem hub75_config_round_trip_default :
    hub75ConfigParse (hub75ConfigFormat hub75Default hub75ValueLen) = .ok (some hub75Default) :=
  (hub75_config_round_trip hub75DefaultText hub75Default rfl).2.2.1

end NodemFirmware.Hub75
