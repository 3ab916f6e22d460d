import NodemFirmware.Hub75.Draw

/-! # The chain options with one row per address

With `row_blocks` 1 there is one piece of chain after the other whatever the options say, and
`<chain>` is documented as ignored.  `chain_build` tests the parity of the piece all the same,
so "z" turns every second piece of a row round: `chain_ignored_iff` says for which options
the table, and with it all that the display does, is that of the plain chain. -/

namespace NodemFirmware.Hub75

open Checked CText MixedRadix

/-- The config with the defaults of the chain options. -/
def Config.unchained (c : Config) : Config :=
  { c with farFirst := false, segment := 0, zigzag := false }

def Driver.unchained (g : Driver) : Driver := { g with active := g.active.unchained }

/-- A display of config `c` through any draws and shifts: the arena's buffers at the end, `none`
if `hub75_alloc` refuses it. -/
def displayRun (c : Config) (old : Buffers) (events : List ArenaEvent) : Option Buffers := do
  let g ← hub75Alloc (hub75Geometry c)
  arenaRun g old events

/-- The chain options make no difference: the table is that of the plain chain, and so is every
frame drawn and every row rendered from it. -/
structure ChainIgnored (c : Config) : Prop where
  table : ∀ x < c.width, (chainBuild (hub75Geometry c)).getD x 0 = x
  display : ∀ old events, displayRun c old events = displayRun c.unchained old events

/-! ### The options in everything but the table -/

theorem hub75Alloc_unchained (g : Driver) :
    hub75Alloc g.unchained = (hub75Alloc g).map Driver.unchained := by
  have hloop : ∀ n, hub75AllocLoop g.unchained n = (hub75AllocLoop g n).map Driver.unchained := by
    intro n
    induction n with
    | zero => rfl
    | succ n ih =>
        have hbytes : (g.unchained.drive (n + 1)).bufferBytes = (g.drive (n + 1)).bufferBytes := rfl
        unfold hub75AllocLoop
        rw [hbytes, ih]
        split_ifs <;> rfl
  exact hloop g.totalPanels

theorem apply_unchained (g : Driver) : ArenaEvent.apply g.unchained = ArenaEvent.apply g := by
  funext m e
  cases e <;> rfl

/-- `hub75_start` reads the options in `chain_build` only. -/
theorem arenaRun_unchained {g : Driver}
    (htable : ∀ b < g.rowBlocks, ∀ x < g.active.width,
      chainPosition g.unchained b x = chainPosition g b x) (old : Buffers)
    (events : List ArenaEvent) : arenaRun g.unchained old events = arenaRun g old events := by
  have hbuild : Buffers.chainBuild g.unchained = Buffers.chainBuild g := by
    funext m
    unfold Buffers.chainBuild
    refine each_congr (I := fun _ => True) trivial (fun _ _ _ _ _ _ => trivial) ?_
    intro b hb m _
    refine each_congr (I := fun _ => True) trivial (fun _ _ _ _ _ _ => trivial) ?_
    intro x hx m _
    rw [← htable b hb x hx]
    rfl
  have hstart : Buffers.hub75Start g.unchained = Buffers.hub75Start g := by
    funext m
    unfold Buffers.hub75Start
    rw [hbuild]
    rfl
  unfold arenaRun
  rw [hstart, apply_unchained]
  rfl

/-! ### One row block -/

section OneRow

variable {c : Config} {g : Driver} (hone : c.rowBlocks = 1) (h : Derived c g)

include h hone in
theorem chainPosition_one (x : ℕ) :
    chainPosition g 0 x = x / g.panelW * g.panelW + (x % g.panelW / g.segW * g.segW +
      (if c.zigzag && x % g.panelW / g.segW % 2 = 1 then g.segW - 1 - x % g.panelW % g.segW
        else x % g.panelW % g.segW)) := by
  unfold chainPosition
  rw [h.active, h.rowBlocks, hone]
  simp only [Nat.sub_self, ite_self, Nat.mul_one, Nat.add_zero, Nat.add_assoc]

include h hone in
/-- Where no piece is turned round, or turning one changes nothing, the position is the column. -/
theorem chainPosition_one_eq (hopt : c.zigzag = false ∨ g.segW = g.panelW ∨ g.segW = 1)
    (hw : 0 < g.panelW) (x : ℕ) : chainPosition g 0 x = x := by
  have hoff : (if c.zigzag && x % g.panelW / g.segW % 2 = 1 then
      g.segW - 1 - x % g.panelW % g.segW else x % g.panelW % g.segW) =
      x % g.panelW % g.segW := by
    rcases hopt with hz | hseg | hseg
    · simp only [hz, Bool.false_and, Bool.false_eq_true, if_false]
    · rw [hseg, Nat.div_eq_of_lt (Nat.mod_lt x hw)]
      simp
    · simp [hseg, Nat.mod_one]
  rw [chainPosition_one hone h, hoff, Nat.div_add_mod', Nat.div_add_mod']

include hone h in
/-- The first column of the second piece ends up at the piece's far end. -/
theorem chainPosition_one_turned (hz : c.zigzag = true) (hseg : 1 < g.segW)
    (hlt : g.segW < g.panelW) : chainPosition g 0 g.segW = 2 * g.segW - 1 := by
  rw [chainPosition_one hone h, Nat.div_eq_of_lt hlt, Nat.mod_eq_of_lt hlt,
    Nat.div_self (by omega), Nat.mod_self, hz]
  simp
  omega

end OneRow

theorem Accepted.unchained {c : Config} (hc : Accepted c) : Accepted c.unchained :=
  { hc with
    segment := Nat.zero_le _
    splits := ⟨hc.splits.1, hc.splits.2.1, hc.splits.2.2.1, hc.splits.2.2.2.1,
      fun h => absurd rfl h⟩ }

/-- The row block's table is the whole table. -/
theorem chainBuild_one {c : Config} (hc : Accepted c) (hone : c.rowBlocks = 1) {x : ℕ}
    (hx : x < c.width) : (chainBuild (hub75Geometry c)).getD x 0 =
      chainPosition (hub75Geometry c) 0 x := by
  have hget := chainPos_exact hc (geometry_derived hc (by omega)) (b := 0) (by omega) hx
  rwa [Nat.zero_mul, Nat.zero_add] at hget

/-- With the table of the plain chain the display is that of the plain chain. -/
theorem displayRun_unchained {c : Config} (hc : Accepted c) (hone : c.rowBlocks = 1)
    (hplain : ∀ x, chainPosition (hub75Geometry c) 0 x = x) (old : Buffers)
    (events : List ArenaEvent) : displayRun c old events = displayRun c.unchained old events := by
  have hone' : c.unchained.rowBlocks = 1 := hone
  have hd := geometry_derived hc (by omega)
  have hd' := geometry_derived hc.unchained (by omega)
  obtain ⟨_, hdiv⟩ := hc.divides
  have hpw : 0 < (hub75Geometry c).panelW := by
    rw [hd.panelW]
    exact hdiv.panelW_pos
  have hplain' : ∀ x, chainPosition (hub75Geometry c.unchained) 0 x = x :=
    chainPosition_one_eq hone' hd' (Or.inl rfl) hpw
  unfold displayRun
  rw [show hub75Geometry c.unchained = (hub75Geometry c).unchained from rfl,
    hub75Alloc_unchained]
  cases halloc : hub75Alloc (hub75Geometry c) with
  | none => rfl
  | some g =>
      obtain ⟨d, -, -, rfl⟩ := hub75Alloc_eq_some halloc
      have hblocks : ((hub75Geometry c).drive d).rowBlocks = 1 := hd.rowBlocks.trans hone
      refine (arenaRun_unchained (g := (hub75Geometry c).drive d) ?_ old events).symm
      intro b hb x _
      obtain rfl : b = 0 := by omega
      exact (hplain' x).trans (hplain x).symm

/-- **When the chain options are ignored** with one row per address: unless "z" is given with a
segment of more than one column and less than a panel. -/
theorem chain_ignored_iff (v : CStr) (c : Config) (hv : hub75ConfigParse v = .ok (some c))
    (hone : c.height / c.gridY = 2 * c.scan) :
    ChainIgnored c ↔
      (c.zigzag = false ∨ c.segment = 0 ∨ c.segment = 1 ∨ c.segment = c.width / c.gridX) := by
  have hc := hub75ConfigParse_accepted hv
  have hscan := hc.scan_pos
  have hrb : c.rowBlocks = 1 := by
    unfold Config.rowBlocks
    rw [hone, Nat.div_self (by omega)]
  have hd := geometry_derived hc (by omega)
  obtain ⟨pieces, hdiv⟩ := hc.divides
  have hpw : 0 < (hub75Geometry c).panelW := by
    rw [hd.panelW]
    exact hdiv.panelW_pos
  have hsegW : (hub75Geometry c).segW =
      if c.segment ≠ 0 then c.segment else c.width / c.gridX := by
    unfold Driver.segW
    rw [hd.active, hd.panelW]
  constructor
  · intro hign
    by_contra hopt
    push Not at hopt
    obtain ⟨hz, h0, h1, hpanel⟩ := hopt
    rw [if_pos h0] at hsegW hdiv
    have hle : c.segment ≤ c.width / c.gridX :=
      Nat.le_of_dvd hdiv.panelW_pos ⟨pieces, by rw [hdiv.pieces, Nat.mul_comm]⟩
    have hlt : c.segment < c.width / c.gridX := by omega
    have hin : c.segment < c.width := hlt.trans_le (Nat.div_le_self _ _)
    have hpos := hign.table c.segment hin
    rw [chainBuild_one hc hrb hin, ← hsegW, chainPosition_one_turned hrb hd (by simpa using hz)
      (by omega) (by rw [hsegW, hd.panelW]; exact hlt)] at hpos
    omega
  · intro hopt
    have hplain : ∀ x, chainPosition (hub75Geometry c) 0 x = x := by
      refine chainPosition_one_eq hrb hd ?_ hpw
      rw [hsegW, hd.panelW]
      rcases hopt with hz | h0 | h1 | hseg
      · exact Or.inl hz
      · exact Or.inr (Or.inl (if_neg (not_not.mpr h0)))
      · rw [h1]
        exact Or.inr (Or.inr rfl)
      · refine Or.inr (Or.inl ?_)
        rw [hseg, ite_self]
    exact ⟨fun x hx => (chainBuild_one hc hrb hx).trans (hplain x),
      displayRun_unchained hc hrb hplain⟩

theorem chain_ignored_iff_far :
    ChainIgnored { hub75Default with scan := 16, farFirst := true, segment := 16 } :=
  (chain_ignored_iff (cs "64:32:rt,16:f16") _ (by rfl) (by decide)).mpr (by decide)

/-- "z" with pieces of 8 columns: the chain position of column 8 is 15, so its pixel is written
elsewhere than without the options. -/
theorem chain_ignored_turned :
    ∃ c, hub75ConfigParse (cs "64:32:lt,16:n8z") = .ok (some c) ∧
      c.height / c.gridY = 2 * c.scan ∧ ¬ ChainIgnored c ∧
      (chainBuild (hub75Geometry c)).getD 8 0 = 15 ∧
      ∃ g, hub75Alloc (hub75Geometry c) = some g ∧
        frameSlot g (frameLocateRow g 0) 8 ≠
          frameSlot g.unchained (frameLocateRow g.unchained 0) 8 := by
  refine ⟨{ hub75Default with flipX := false, scan := 16, segment := 8, zigzag := true },
    by rfl, by decide, ?_, by decide +kernel, ?_⟩
  · intro h
    exact absurd (h.table 8 (by decide)) (by decide +kernel)
  · exact ⟨_, rfl, by decide +kernel⟩

end NodemFirmware.Hub75
