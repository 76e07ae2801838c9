import CssColor.Adjuster
import CssColor.Proofs.Color.ReadRange

/-! # What adjusters do to alpha

Whether an evaluation ends in a color that can be read back depends on its alpha alone: the bytes of
a color are bytes whatever its channels are. Every adjuster with an amount that is a number leads
from an alpha in range to another (`Channel.within_alpha_set`, `within_alpha_legible`), so a plain
one never fails on such a color (`Adjustment.Steady`).

There is one exception, an alpha of zero times an infinite factor, which is `nan`
(`Adjustment.Made.within_alpha`). From then on alpha is lost until it is replaced
(`Adjustment.Made.nan_alpha`). -/

namespace CssColor

open Number Number.Scalar Number.Binary64

/-! ### Conversions -/

theorem Hwb.alpha_toRgba (c : Hwb Binary64) (a : Binary64) :
    (c.toRgba a).alpha = clampUnit a := rfl

/-! ### Channels -/

/-- Replacing another channel moves alpha into its range, where it is already. -/
theorem Channel.alpha_set_of_ne {ch : Channel} (h : ch ≠ .alpha) (c : Color) (x : Binary64) :
    (ch.set c x).alpha = clampUnit c.alpha := by
  cases ch with
  | alpha => exact absurd rfl h
  | red | green | blue => rfl
  | hue | saturation | lightness => exact Hsl.alpha_toRgba _ _
  | whiteness | blackness => exact Hwb.alpha_toRgba _ _

theorem Channel.within_alpha_set {c : Color} (hc : Within 0 1 c.alpha) {x : Binary64}
    (hx : x.IsNumber) (ch : Channel) : Within 0 1 (ch.set c x).alpha := by
  by_cases hch : ch = .alpha
  · rw [hch]
    exact within_clampUnit hx
  · rw [Channel.alpha_set_of_ne hch]
    exact within_clampUnit hc.isNumber

section

variable {a : Amount Binary64} (h : a.value.IsNumber)

include h

theorem isNumber_percent : a.percent.IsNumber := h.div_ofNat (n := 100) (by norm_num) (by norm_num)

theorem isNumber_fraction : a.fraction.IsNumber := by
  unfold Amount.fraction
  split
  · exact isNumber_percent h
  · exact h
  · exact h

theorem isNumber_measured (ch : Channel) : (a.measured ch).IsNumber := by
  have hpercent := isNumber_percent h
  have hbyte : (a.fraction * 255).IsNumber :=
    (isNumber_fraction h).mul_ofNat (n := 255) (by norm_num) (by norm_num)
  unfold Amount.measured
  split
  · exact isNumber_fraction h
  all_goals first | (split <;> first | exact hbyte | exact h) | exact h | exact hpercent

end

/-! ### Mixtures -/

/-- Halving keeps the ends of an interval of shares among the shares. -/
theorem within_bisect {luminance : Color → Binary64} {c target : Color} (n : ℕ)
    {ends : Binary64 × Binary64} (hl : Within 0 1 ends.1) (hh : Within 0 1 ends.2) :
    Within 0 1 (bisect luminance c target n ends).1 ∧
      Within 0 1 (bisect luminance c target n ends).2 := by
  induction n generalizing ends with
  | zero => exact ⟨hl, hh⟩
  | succ n ih =>
    obtain ⟨lo, hi⟩ := ends
    have hmid : Within 0 1 ((lo + hi) / 2) := Rgba.within_lightnessShare hl hh
    unfold bisect
    dsimp only
    split_ifs
    · exact ih hl hmid
    · exact ih hmid hh

section

variable {luminance : Color → Binary64} {c : Color} (h : Within 0 1 c.alpha)

include h

theorem within_alpha_farEnd : Within 0 1 (farEnd luminance c).alpha := within_clampUnit h.isNumber

theorem within_alpha_nearestLegible : Within 0 1 (nearestLegible luminance c).alpha := by
  have hfar : Within 0 1 (farEnd luminance c).alpha := within_alpha_farEnd h
  unfold nearestLegible
  dsimp only
  split_ifs
  · exact Rgba.within_alpha_mix h hfar
      (within_bisect bisectSteps Rgba.within_zero Rgba.within_one).2.isNumber
  · exact hfar

theorem within_alpha_legible {position : Binary64} (hp : position.IsNumber) :
    Within 0 1 (legible luminance c position).alpha :=
  Rgba.within_alpha_mix (within_alpha_nearestLegible h) (within_alpha_farEnd h) hp

theorem within_alpha_mixed (d : Rgb) {weight : Binary64} (hw : weight.IsNumber) :
    Within 0 1 (c.mix ((Rgba.solid d).withAlpha c.alpha) weight).alpha :=
  Rgba.within_alpha_mix h (within_clampUnit h.isNumber) hw

end

/-! ### Adjustments -/

/-- An adjustment that leads from every color with alpha in range to such a color. -/
def Adjustment.Steady (a : Adjustment Binary64) : Prop :=
  ∀ (luminance : Color → Binary64) (c : Color), Within 0 1 c.alpha →
    ∃ d, a.apply luminance c = .ok d ∧ Within 0 1 d.alpha

/-- A known adjuster with a number and without a modifier never fails. -/
theorem steady_of_ofName? {name : String} {adjuster : Adjuster}
    (hn : Adjuster.ofName? name = some adjuster) {a : Amount Binary64} (ha : a.value.IsNumber) :
    Adjustment.Steady ⟨name, none, some a⟩ := by
  intro luminance c hc
  have hpercent := isNumber_percent ha
  unfold Adjustment.apply
  rw [hn]
  cases adjuster with
  | channel ch => exact ⟨_, rfl, Channel.within_alpha_set hc (isNumber_measured ha ch) ch⟩
  | tint => exact ⟨_, rfl, within_alpha_mixed hc _ hpercent⟩
  | shade => exact ⟨_, rfl, within_alpha_mixed hc _ hpercent⟩
  | contrast => exact ⟨_, rfl, within_alpha_legible hc hpercent⟩

/-! ### Where alpha is lost -/

/-- What an adjustment that does not fail makes of a color. -/
inductive Adjustment.Made (luminance : Color → Binary64) (a : Adjustment Binary64) (c : Color) :
    Color → Prop
  | channel {ch : Channel} {x : Amount Binary64}
      (hn : Adjuster.ofName? a.name = some (.channel ch)) (hx : a.amount = some x) :
      Made luminance a c (ch.set c (combine a.modifier (ch.get c) (x.measured ch) x.fraction))
  | tint {x : Amount Binary64} (hn : Adjuster.ofName? a.name = some .tint) (hm : a.modifier = none)
      (hx : a.amount = some x) :
      Made luminance a c (c.mix (Rgba.white.withAlpha c.alpha) x.percent)
  | shade {x : Amount Binary64} (hn : Adjuster.ofName? a.name = some .shade)
      (hm : a.modifier = none) (hx : a.amount = some x) :
      Made luminance a c (c.mix (Rgba.black.withAlpha c.alpha) x.percent)
  | contrast (hn : Adjuster.ofName? a.name = some .contrast) (hm : a.modifier = none) :
      Made luminance a c (legible luminance c (a.amount.getD ⟨100, .percent⟩).percent)

namespace Adjustment

variable {luminance : Color → Binary64} {a : Adjustment Binary64} {c d : Color}

theorem required_eq_ok {x : Amount Binary64} (h : a.required = .ok x) : a.amount = some x := by
  unfold required at h
  split at h
  · next hx => rw [hx, Except.ok.inj h]
  · cases h

theorem unmodified_eq_ok {u : Unit} (h : a.unmodified = .ok u) : a.modifier = none := by
  unfold unmodified at h
  split_ifs at h with hm
  simpa using hm

theorem made_of_apply (h : a.apply luminance c = .ok d) : a.Made luminance c d := by
  unfold apply at h
  split at h
  · cases h
  · next hn =>
    obtain ⟨x, hx, h⟩ := exists_of_bind_eq_ok h
    cases h
    exact .channel hn (required_eq_ok hx)
  · next hn =>
    obtain ⟨_, hm, h⟩ := exists_of_bind_eq_ok h
    obtain ⟨x, hx, h⟩ := exists_of_bind_eq_ok h
    cases h
    exact .tint hn (unmodified_eq_ok hm) (required_eq_ok hx)
  · next hn =>
    obtain ⟨_, hm, h⟩ := exists_of_bind_eq_ok h
    obtain ⟨x, hx, h⟩ := exists_of_bind_eq_ok h
    cases h
    exact .shade hn (unmodified_eq_ok hm) (required_eq_ok hx)
  · next hn =>
    obtain ⟨_, hm, h⟩ := exists_of_bind_eq_ok h
    cases h
    exact .contrast hn (unmodified_eq_ok hm)

/-- Whether an adjustment multiplies alpha by an infinite factor. -/
def Overflows (a : Adjustment Binary64) : Prop :=
  Adjuster.ofName? a.name = some (.channel .alpha) ∧ a.modifier = some .multiply ∧
    ∃ x, a.amount = some x ∧ x.fraction.isInfinite = true

/-- Whether an adjustment sets alpha to its amount. -/
def ReplacesAlpha (a : Adjustment Binary64) : Prop :=
  Adjuster.ofName? a.name = some (.channel .alpha) ∧ a.modifier = none

/-- Only adjustments of alpha overflow it or replace it. -/
theorem not_of_ofName? {adjuster : Adjuster} (hn : Adjuster.ofName? a.name = some adjuster)
    (h : adjuster ≠ .channel .alpha) : ¬a.Overflows ∧ ¬a.ReplacesAlpha := by
  have hne : Adjuster.ofName? a.name ≠ some (.channel .alpha) := by
    rw [hn]
    exact fun heq => h (Option.some.inj heq)
  exact ⟨fun ho => hne ho.1, fun hr => hne hr.1⟩

/-- The alpha an adjustment of alpha leads to from one in range. -/
theorem combine_alpha {m : Option Modifier} {x : Amount Binary64} (hx : x.value.IsNumber)
    (hc : Within 0 1 c.alpha) :
    (m = some .multiply ∧ c.alpha.isZero = true ∧ x.fraction.isInfinite = true ∧
        combine m c.alpha x.fraction x.fraction = nan) ∨
      (¬(m = some .multiply ∧ c.alpha.isZero = true ∧ x.fraction.isInfinite = true) ∧
        (combine m c.alpha x.fraction x.fraction).IsNumber) := by
  have hf := isNumber_fraction hx
  match m with
  | none => exact Or.inr ⟨by simp, hf⟩
  | some .add => exact Or.inr ⟨by simp, hf.add hc.isFinite⟩
  | some .subtract => exact Or.inr ⟨by simp, hf.sub hc.isFinite⟩
  | some .multiply =>
    rcases hf.mul_cases hc.isFinite with ⟨hzero, hinf, hnan⟩ | ⟨hno, hnumber⟩
    · exact Or.inl ⟨rfl, hzero, hinf, hnan⟩
    · exact Or.inr ⟨fun h => hno h.2, hnumber⟩

/-- The amount of a contrast, which may be left out. -/
theorem isNumber_contrast (ha : ∀ x, a.amount = some x → x.value.IsNumber) :
    (a.amount.getD ⟨100, .percent⟩).value.IsNumber := by
  cases hx : a.amount with
  | none => exact (small_ofNat (n := 100) (by norm_num)).isNumber
  | some x => exact ha x hx

/-- **An adjustment keeps alpha in range,** or it multiplies an alpha of zero by an infinite
factor. -/
theorem Made.within_alpha (h : a.Made luminance c d)
    (ha : ∀ x, a.amount = some x → x.value.IsNumber) (hc : Within 0 1 c.alpha) :
    (a.Overflows ∧ c.alpha.isZero = true ∧ d.alpha = nan) ∨
      (¬(a.Overflows ∧ c.alpha.isZero = true) ∧ Within 0 1 d.alpha) := by
  cases h with
  | @channel ch x hn hx =>
    by_cases hch : ch = .alpha
    · subst hch
      rcases combine_alpha (m := a.modifier) (ha x hx) hc with ⟨hm, hz, hinf, hnan⟩ | ⟨hno, hnum⟩
      · refine Or.inl ⟨⟨hn, hm, x, hx, hinf⟩, hz, ?_⟩
        show clampUnit (combine a.modifier c.alpha x.fraction x.fraction) = nan
        rw [hnan, clampUnit_nan]
      · refine Or.inr ⟨?_, within_clampUnit hnum⟩
        rintro ⟨⟨-, hm, y, hy, hinf⟩, hz⟩
        rw [hx] at hy
        exact hno ⟨hm, hz, Option.some.inj hy ▸ hinf⟩
    · have hno := not_of_ofName? hn fun heq => hch (Adjuster.channel.inj heq)
      refine Or.inr ⟨fun h => hno.1 h.1, ?_⟩
      rw [Channel.alpha_set_of_ne hch]
      exact within_clampUnit hc.isNumber
  | tint hn hm hx =>
    exact Or.inr ⟨fun h => (not_of_ofName? hn (by decide)).1 h.1,
      within_alpha_mixed hc _ (isNumber_percent (ha _ hx))⟩
  | shade hn hm hx =>
    exact Or.inr ⟨fun h => (not_of_ofName? hn (by decide)).1 h.1,
      within_alpha_mixed hc _ (isNumber_percent (ha _ hx))⟩
  | contrast hn hm =>
    exact Or.inr ⟨fun h => (not_of_ofName? hn (by decide)).1 h.1,
      within_alpha_legible hc (isNumber_percent (isNumber_contrast ha))⟩

theorem alpha_mix_of_nan {d : Color} (hc : c.alpha = nan) (weight : Binary64) :
    (c.mix d weight).alpha = nan := by
  show clampUnit (c.alpha + (d.alpha - c.alpha) * clampUnit weight) = nan
  rw [hc, nan_add, clampUnit_nan]

theorem alpha_nearestLegible_of_nan (hc : c.alpha = nan) :
    (nearestLegible luminance c).alpha = nan := by
  unfold nearestLegible
  dsimp only
  split_ifs
  · exact alpha_mix_of_nan hc _
  · show clampUnit c.alpha = nan
    rw [hc, clampUnit_nan]

/-- **A lost alpha** comes back where it is replaced, and only there. -/
theorem Made.nan_alpha (h : a.Made luminance c d)
    (ha : ∀ x, a.amount = some x → x.value.IsNumber) (hc : c.alpha = nan) :
    (a.ReplacesAlpha ∧ Within 0 1 d.alpha) ∨ (¬a.ReplacesAlpha ∧ d.alpha = nan) := by
  cases h with
  | @channel ch x hn hx =>
    by_cases hch : ch = .alpha
    · subst hch
      show (_ ∧ Within 0 1 (clampUnit (combine a.modifier c.alpha x.fraction x.fraction))) ∨
        (_ ∧ clampUnit (combine a.modifier c.alpha x.fraction x.fraction) = nan)
      rw [hc]
      cases hm : a.modifier with
      | none => exact Or.inl ⟨⟨hn, hm⟩, within_clampUnit (isNumber_fraction (ha x hx))⟩
      | some m =>
        refine Or.inr ⟨fun h => ?_, ?_⟩
        · rw [h.2] at hm
          cases hm
        · cases m <;> exact clampUnit_nan
    · have hno := not_of_ofName? hn fun heq => hch (Adjuster.channel.inj heq)
      refine Or.inr ⟨hno.2, ?_⟩
      rw [Channel.alpha_set_of_ne hch, hc, clampUnit_nan]
  | tint hn hm hx =>
    exact Or.inr ⟨(not_of_ofName? hn (by decide)).2, alpha_mix_of_nan hc _⟩
  | shade hn hm hx =>
    exact Or.inr ⟨(not_of_ofName? hn (by decide)).2, alpha_mix_of_nan hc _⟩
  | contrast hn hm =>
    exact Or.inr ⟨(not_of_ofName? hn (by decide)).2,
      alpha_mix_of_nan (alpha_nearestLegible_of_nan hc) _⟩

end Adjustment

end CssColor
