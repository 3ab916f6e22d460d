import NodemFirmware.Lib.Printable
import NodemFirmware.Control.Command

/-! # What is stored under each key

`SettingOk` are the values that the firmware stores: under "oled", "hub75" and "nodem" what their
setters print (`Config.text`), or a disabled value; under the cloud's keys texts that fit their
buffers; two numbers in their ranges.  `settings` is the schema of the ten keys.

The printed configs are printable ASCII, which makes them Rust strings with nothing to trim
(`Printable.trimmed`). -/

namespace NodemFirmware

open CText

/-! ### Printed configs -/

theorem Oled.Config.text_printable (c : Oled.Config) : Printable c.text := by
  unfold Oled.Config.text
  refine Printable.joinWith (by decide) fun f hf => ?_
  rcases List.mem_cons.mp hf with rfl | hf
  · decide +kernel
  · obtain ⟨n, -, rfl⟩ := List.mem_map.mp hf
    exact Printable.fmtU n

theorem Oled.Config.Ok.text_length {c : Oled.Config} (hc : c.Ok) :
    c.text.length < oledValueLen := by
  rw [← oledConfigFormat_eq hc]
  unfold oledConfigFormat clip oledValueLen
  dsimp only
  split_ifs
  · simp only [List.length_append, List.length_take]
    omega
  · rw [List.length_take]
    omega

theorem Nodem.Mapping.entries_printable (m : Nodem.Mapping) {driver : CStr}
    (h : Printable driver) : ∀ f ∈ m.entries driver, Printable f := by
  intro f hf
  unfold Nodem.Mapping.entries at hf
  split_ifs at hf
  · rw [List.mem_singleton] at hf
    subst hf
    refine Printable.joinWith (by decide) fun g hg => ?_
    simp only [List.mem_cons, List.not_mem_nil, or_false] at hg
    rcases hg with rfl | rfl | rfl | rfl | rfl
    · exact h
    · exact Printable.fmtD _
    · exact Printable.fmtD _
    · exact Printable.fmtU _
    · exact Printable.fmtU _
  · cases hf

theorem Nodem.Config.text_printable (c : Nodem.Config) : Printable c.text := by
  unfold Nodem.Config.text
  refine Printable.joinWith (by decide) fun f hf => ?_
  rcases List.mem_cons.mp hf with rfl | hf
  · refine Printable.joinWith (by decide) fun g hg => ?_
    simp only [List.mem_cons, List.not_mem_nil, or_false] at hg
    rcases hg with rfl | rfl | rfl <;> exact Printable.fmtU _
  · rcases List.mem_append.mp hf with hf | hf
    · exact c.oled.entries_printable (by decide +kernel) f hf
    · exact c.hub75.entries_printable (by decide +kernel) f hf

namespace Hub75

theorem effects_printable : ∀ e ∈ effects, Printable e.name := by decide +kernel

theorem paletteText_printable {c : Color} (h : ∀ i ∈ c.palette, i < paletteLetters.length) :
    Printable (paletteText c) := by
  have hletters : ∀ i < paletteLetters.length, (33 : UInt8) ≤ paletteLetters.getD i 0 ∧
      paletteLetters.getD i 0 < 127 := by decide
  intro ch hch
  obtain ⟨i, hi, rfl⟩ := List.mem_map.mp hch
  exact hletters i (h i hi)

theorem effectText_printable {name speed palette scale : CStr} (hn : Printable name)
    (hs : Printable speed) (hp : Printable palette) (hk : Printable scale) :
    Printable (effectText name speed palette scale) := by
  unfold effectText
  split_ifs
  all_goals
    refine Printable.joinWith (by decide) ?_
    simp [hn, hs, hp, hk]

theorem colorText_printable {c : Color} (hc : ColorOk c) : Printable (colorText c) := by
  unfold colorText
  cases hc with
  | @fixed rgb h =>
      have heffect : (Color.fixed rgb).effect = .none := rfl
      have hrgb : rgb < 16 ^ 6 := by omega
      rw [if_pos heffect, show (Color.fixed rgb).rgb = rgb from rfl, fmtHex, if_pos hrgb]
      exact .cons (by decide) (.fmtX 6 rgb)
  | effect he hspeed hlen hpal hscale =>
      split_ifs
      · have hzero : Printable (fmtHex 6 0) := by decide +kernel
        exact .cons (by decide) hzero
      · split
        · next e hfind =>
          refine effectText_printable (effects_printable e (List.mem_of_find?_eq_some hfind))
            (.clip ?_ _) ((paletteText_printable hpal).clip _) (.clip ?_ _)
          · unfold speedText
            split_ifs
            · exact .fmtU _
            · exact .nil
          · unfold scaleText
            split_ifs
            · exact .fmtU _
            · exact .nil
        · exact .nil

theorem Config.text_printable {c : Config} (hc : FieldsOk c) : Printable c.text := by
  have hchip : ∀ chip, Printable (chipName chip) := by
    intro chip
    cases chip <;> decide +kernel
  have hlayout : Printable (layoutText c) := by
    unfold layoutText
    cases c.flipX <;> cases c.flipY <;> decide +kernel
  have hgrid : Printable (gridText c) := by
    unfold gridText
    refine (((Printable.fmtU _).append (by decide +kernel)).append (.fmtU _)).append ?_
    cases c.serpentine <;> decide +kernel
  have hchain : Printable (chainText c) := by
    unfold chainText
    refine .cons (by cases c.farFirst <;> decide) (.append ?_ ?_)
    · split_ifs
      · exact .fmtU _
      · exact .nil
    · cases c.zigzag <;> decide +kernel
  unfold Config.text
  refine Printable.joinWith (by decide) fun f hf => ?_
  simp only [List.mem_cons, List.not_mem_nil, or_false] at hf
  rcases hf with rfl | rfl | rfl | rfl | rfl
  · refine Printable.joinWith (by decide) fun g hg => ?_
    simp only [List.mem_cons, List.not_mem_nil, or_false] at hg
    rcases hg with rfl | rfl | rfl | rfl
    · exact .fmtU _
    · exact .fmtU _
    · exact hlayout
    · exact hgrid
  · refine Printable.joinWith (by decide) fun g hg => ?_
    simp only [List.mem_cons, List.not_mem_nil, or_false] at hg
    rcases hg with rfl | rfl | rfl | rfl | rfl
    · exact .fmtU _
    · exact hchain.clip 8
    · exact .fmtU _
    · exact hchip _
    · exact .fmtU _
  · exact (colorText_printable hc.color).clip 32
  · exact (colorText_printable hc.offColor).clip 32
  · exact .fmtU _

end Hub75

/-! ### The schema -/

namespace Control

open ConfigStore
open Cloud hiding Key registrationPending deviceRegistered

/-- A disabled "oled" value: what a command was given. -/
structure OledOff (value : CStr) : Prop where
  trimmed : Trimmed value
  parse : Oled.oledConfigParse value = .ok none
  length : value.length < valBufLen
  no_nul : (0 : UInt8) ∉ value

/-- The values stored under each key. -/
inductive SettingOk : Key → Value → Prop where
  | regCode {s : CStr} (h : s = [] ∨ s = regCodeRejected ∨ s.length = regCodeLen)
      (hnul : (0 : UInt8) ∉ s) : SettingOk (.str, regCodeKey) (.str s)
  | deviceName {s : CStr} (h : s.length < regVerifiedNameLen) (hnul : (0 : UInt8) ∉ s) :
      SettingOk (.str, deviceNameKey) (.str s)
  | cloudHost {s : CStr} (h : s.length < valBufLen) (hnul : (0 : UInt8) ∉ s) :
      SettingOk (.str, cloudHostKey) (.str s)
  | deviceId {s : CStr} (h : s.length < regIdLen) (hnul : (0 : UInt8) ∉ s) :
      SettingOk (.str, deviceIdKey) (.str s)
  | deviceSecret {s : CStr} (h : s.length < regSecretLen) (hnul : (0 : UInt8) ∉ s) :
      SettingOk (.str, deviceSecretKey) (.str s)
  | oled {c : Oled.Config} (h : c.Ok) : SettingOk (.str, Oled.oledKey) (.str c.text)
  | oledOff {s : CStr} (h : OledOff s) : SettingOk (.str, Oled.oledKey) (.str s)
  | hub75 {c : Hub75.Config} (h : Hub75.Accepted c) :
      SettingOk (.str, Hub75.hub75Key) (.str c.text)
  | hub75Off : SettingOk (.str, Hub75.hub75Key) (.str [])
  | nodem {c : Nodem.Config} (h : c.Ok) : SettingOk (.str, Nodem.nodemKey) (.str c.text)
  | ping {n : BitVec 32} (h : 1 ≤ n.toInt ∧ n.toInt ≤ modemWsPingMaxS) :
      SettingOk (.i32, pingKey) (.i32 n)
  | status {n : BitVec 32} (h : n = 0 ∨ n = 1) : SettingOk (.i32, statusKey) (.i32 n)

def settingKeys : List Key :=
  [(.str, regCodeKey), (.str, deviceNameKey), (.str, cloudHostKey), (.str, deviceIdKey),
    (.str, deviceSecretKey), (.str, Oled.oledKey), (.str, Hub75.hub75Key), (.str, Nodem.nodemKey),
    (.i32, pingKey), (.i32, statusKey)]

theorem SettingOk.valid {k : Key} {v : Value} (h : SettingOk k v) : v.Valid := by
  have hmax : maxStrLen = 127 := rfl
  have hval : valBufLen = 128 := rfl
  cases h with
  | regCode h hnul =>
      refine ⟨?_, hnul⟩
      rcases h with rfl | rfl | h
      · exact Nat.zero_le _
      · decide
      · rw [h]
        decide
  | deviceName h hnul => exact ⟨by unfold regVerifiedNameLen at h; omega, hnul⟩
  | cloudHost h hnul => exact ⟨by omega, hnul⟩
  | deviceId h hnul => exact ⟨by unfold regIdLen at h; omega, hnul⟩
  | deviceSecret h hnul => exact ⟨by unfold regSecretLen at h; omega, hnul⟩
  | @oled c h =>
      have hlen := h.text_length
      unfold Oled.oledValueLen at hlen
      exact ⟨by omega, c.text_printable.no_nul⟩
  | oledOff h => exact ⟨by have := h.length; omega, h.no_nul⟩
  | @hub75 c h =>
      have hlen := Hub75.text_length h.toFieldsOk
      exact ⟨by omega, (Hub75.Config.text_printable h.toFieldsOk).no_nul⟩
  | hub75Off => exact ⟨Nat.zero_le _, fun h => nomatch h⟩
  | @nodem c h =>
      have hlen := (Nodem.format_eq h).2
      unfold Nodem.nodemValueLen at hlen
      exact ⟨by omega, c.text_printable.no_nul⟩
  | ping h => trivial
  | status h => trivial

theorem SettingOk.type {k : Key} {v : Value} (h : SettingOk k v) : v.type = k.1 := by
  cases h <;> rfl

/-- The firmware's use of the config store. -/
def settings : Schema where
  keys := settingKeys
  length_keys := by decide
  Ok := SettingOk
  validKey := by
    intro k hk
    simp only [settingKeys, List.mem_cons, List.not_mem_nil, or_false] at hk
    rcases hk with rfl | rfl | rfl | rfl | rfl | rfl | rfl | rfl | rfl | rfl <;>
      exact ⟨by decide, by decide, by decide, by decide⟩
  type _ _ := SettingOk.type
  valid _ _ := SettingOk.valid

end Control

end NodemFirmware
