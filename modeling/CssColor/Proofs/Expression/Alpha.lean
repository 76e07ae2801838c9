import CssColor.Proofs.Expression.Outcome
import CssColor.Proofs.Expression.Shape
import CssColor.Proofs.Number.Alike

/-! # Alpha by itself

What becomes of alpha along a row of adjustments depends on alpha and the adjustments of alpha
alone, whatever the other adjustments make of the channels (`Made.alpha_of_not_mem`).
`Adjustment.alphaAfter` is what one adjustment does to it, `alphaAlong` what a row of them does, and
the alpha of the color that a row leads to is this one, up to the sign of a zero
(`alike_alphaAlong`). A mixture may change that sign: the alphas it goes between are the same, and
it adds nothing to the first (`alike_alpha_mix`). Only a mixture by `nan` loses alpha. -/

namespace CssColor

open Number Number.Scalar Number.Binary64 Expression

/-! ### The alpha of a mixture -/

section

variable {luminance : Color → Binary64} {c d : Color}

/-- Between colors of one alpha there is no other. -/
theorem alike_alpha_mix (hc : Within 0 1 c.alpha) (hd : Alike d.alpha c.alpha) {weight : Binary64}
    (hw : weight.IsNumber) : Alike (c.mix d weight).alpha c.alpha := by
  have hproduct : ((d.alpha - c.alpha) * clampUnit weight).isZero = true :=
    isZero_mul (isZero_sub hd hc.isFinite) (within_clampUnit hw).isFinite
  have hsum := (alike_add_of_isZero hc hproduct).clampUnit
  rwa [clampUnit_eq_self hc] at hsum

theorem alpha_farEnd (hc : Within 0 1 c.alpha) : (farEnd luminance c).alpha = c.alpha :=
  clampUnit_eq_self hc

theorem alike_alpha_nearestLegible (hc : Within 0 1 c.alpha) :
    Alike (nearestLegible luminance c).alpha c.alpha := by
  have hfar : Alike (farEnd luminance c).alpha c.alpha := Or.inl (alpha_farEnd hc)
  unfold nearestLegible
  dsimp only
  split_ifs
  · exact alike_alpha_mix hc hfar
      (within_bisect bisectSteps Rgba.within_zero Rgba.within_one).2.isNumber
  · exact hfar

end

/-! ### Mixtures by any amount -/

namespace Amount

variable {x : Amount Binary64}

theorem isNumber_percent_of_ne_nan (h : x.value ≠ nan) : x.percent.IsNumber := by
  have hnan : x.value.isNaN = false := by
    cases hx : x.value with
    | nan => exact absurd hx h
    | infinity | negZero | finite => rfl
  exact isNumber_div (y := 100) hnan (isFinite_ofNat (by norm_num))
    (value_ofNat_ne_zero (by norm_num) (by norm_num))

end Amount

section

variable {luminance : Color → Binary64} {c : Color} (hc : Within 0 1 c.alpha ∨ c.alpha = nan)

include hc

theorem clampUnit_alpha : clampUnit c.alpha = c.alpha := by
  rcases hc with hc | hc
  · exact clampUnit_eq_self hc
  · rw [hc, clampUnit_nan]

theorem alike_alpha_mixed (d : Rgb) {weight : Binary64} (hw : weight.IsNumber) :
    Alike (c.mix ((Rgba.solid d).withAlpha c.alpha) weight).alpha c.alpha := by
  rcases hc with hc | hc
  · exact alike_alpha_mix hc (Or.inl (clampUnit_eq_self hc)) hw
  · exact Or.inl ((Adjustment.alpha_mix_of_nan hc _).trans hc.symm)

theorem alike_alpha_legible {position : Binary64} (hp : position.IsNumber) :
    Alike (legible luminance c position).alpha c.alpha := by
  rcases hc with hc | hc
  · have hnear : Alike (nearestLegible luminance c).alpha c.alpha := alike_alpha_nearestLegible hc
    refine (alike_alpha_mix (within_alpha_nearestLegible hc) ?_ hp).trans hnear
    rw [alpha_farEnd hc]
    exact hnear.symm
  · have hnear : (nearestLegible luminance c).alpha = nan :=
      Adjustment.alpha_nearestLegible_of_nan hc
    exact Or.inl ((Adjustment.alpha_mix_of_nan hnear _).trans hc.symm)

end

/-! ### One adjustment -/

namespace Adjustment

/-- A mixture by an amount that is no number. -/
def Indefinite (a : Adjustment Binary64) : Prop :=
  a.name ∈ Adjuster.mixtures ∧ a.HasNaN

/-- The alpha after an adjustment, from the alpha before. -/
def alphaAfter (alpha : Binary64) (a : Adjustment Binary64) : Binary64 :=
  match Adjuster.ofName? a.name, a.amount with
  | some (.channel .alpha), some x =>
    clampUnit (combine a.modifier alpha x.fraction x.fraction)
  | _, _ => alpha

variable {luminance : Color → Binary64} {a : Adjustment Binary64} {c d : Color}

theorem not_indefinite_of_numeric (h : ∀ x, a.amount = some x → x.value.IsNumber) :
    ¬a.Indefinite := by
  rintro ⟨-, x, hx, hnan⟩
  have hnumber := (h x hx).isNaN
  rw [hnan] at hnumber
  cases hnumber

/-- A mixture keeps alpha for a weight that is a number and loses it for `nan`; a contrast without
an amount has a number for one. -/
theorem alpha_of_mixture (hn : a.name ∈ Adjuster.mixtures) {mixed : Binary64 → Color}
    {alpha : Binary64} (hnumber : ∀ {w : Binary64}, w.IsNumber → Alike (mixed w).alpha alpha)
    (hnan : (mixed nan).alpha = nan) :
    (¬a.Indefinite ∧ Alike (mixed (a.amount.getD ⟨100, .percent⟩).percent).alpha alpha) ∨
      (a.Indefinite ∧ (mixed (a.amount.getD ⟨100, .percent⟩).percent).alpha = nan) := by
  by_cases hind : a.Indefinite
  · obtain ⟨-, x, hx, hvalue⟩ := id hind
    refine Or.inr ⟨hind, ?_⟩
    rw [hx, Option.getD_some, Amount.percent_eq_nan hvalue, hnan]
  · refine Or.inl ⟨hind, hnumber (Amount.isNumber_percent_of_ne_nan fun hvalue => ?_)⟩
    cases hx : a.amount with
    | none =>
      have hhundred : (ofNat 100 : Binary64).isFinite = true := isFinite_ofNat (by norm_num)
      rw [hx] at hvalue
      rw [show (ofNat 100 : Binary64) = nan from hvalue] at hhundred
      cases hhundred
    | some x =>
      rw [hx] at hvalue
      exact hind ⟨hn, x, hx, hvalue⟩

/-- **No other adjustment touches alpha,** except a mixture by `nan`, which loses it. -/
theorem Made.alpha_of_not_mem (h : a.Made luminance c d) (hn : a.name ∉ Adjuster.alphaNames)
    (hc : Within 0 1 c.alpha ∨ c.alpha = nan) :
    (¬a.Indefinite ∧ Alike d.alpha c.alpha) ∨ (a.Indefinite ∧ d.alpha = nan) := by
  have hmixture : ∀ {k : Adjuster}, Adjuster.ofName? a.name = some k → k.letter? = none →
      k.name ∈ Adjuster.mixtures → a.name ∈ Adjuster.mixtures := fun hk hl hmem =>
    Adjuster.eq_name hk hl ▸ hmem
  cases h with
  | @channel ch x hn' hx =>
    have hch : ch ≠ .alpha := by
      rintro rfl
      exact hn (Adjuster.mem_alphaNames.mpr hn')
    refine Or.inl ⟨fun h => Adjuster.not_mem_mixtures hn' h.1, Or.inl ?_⟩
    rw [Channel.alpha_set_of_ne hch, clampUnit_alpha hc]
  | tint hn' hm hx =>
    have hd := alpha_of_mixture (hmixture hn' rfl (by decide))
      (alike_alpha_mixed hc ⟨255, 255, 255⟩)
      (alpha_mix_nan _ _)
    rw [hx] at hd
    exact hd
  | shade hn' hm hx =>
    have hd := alpha_of_mixture (hmixture hn' rfl (by decide)) (alike_alpha_mixed hc ⟨0, 0, 0⟩)
      (alpha_mix_nan _ _)
    rw [hx] at hd
    exact hd
  | contrast hn' hm =>
    exact alpha_of_mixture (hmixture hn' rfl (by decide)) (alike_alpha_legible hc)
      (alpha_mix_nan _ _)

theorem alphaAfter_of_ne (h : Adjuster.ofName? a.name ≠ some (.channel .alpha))
    (alpha : Binary64) : a.alphaAfter alpha = alpha := by
  unfold alphaAfter
  split
  · next hn _ => exact absurd hn h
  · rfl

theorem alphaAfter_alpha {x : Amount Binary64}
    (hn : Adjuster.ofName? a.name = some (.channel .alpha)) (hx : a.amount = some x)
    (alpha : Binary64) :
    a.alphaAfter alpha = clampUnit (combine a.modifier alpha x.fraction x.fraction) := by
  rw [alphaAfter, hn, hx]

theorem alike_alphaAfter {x y : Binary64} (h : Alike x y) (a : Adjustment Binary64) :
    Alike (a.alphaAfter x) (a.alphaAfter y) := by
  unfold alphaAfter
  split
  · refine Alike.clampUnit ?_
    match a.modifier with
    | none => exact .refl _
    | some .add => exact h.add _
    | some .subtract => exact h.sub _
    | some .multiply => exact h.mul _
  · exact h

/-- **Every adjustment does to alpha what it does by itself,** to one that is lost as well. -/
theorem Made.alike_alpha (h : a.Made luminance c d)
    (ha : ∀ x, a.amount = some x → x.value.IsNumber) (hc : Within 0 1 c.alpha ∨ c.alpha = nan) :
    Alike d.alpha (a.alphaAfter c.alpha) := by
  by_cases hn : Adjuster.ofName? a.name = some (.channel .alpha)
  · cases h with
    | channel hn' hx =>
      obtain rfl := Adjuster.channel.inj (Option.some.inj (hn.symm.trans hn'))
      rw [alphaAfter_alpha hn hx]
      exact .refl _
    | tint hn' | shade hn' | contrast hn' => cases hn.symm.trans hn'
  · rw [alphaAfter_of_ne hn]
    rcases h.alpha_of_not_mem (fun hmem => hn (Adjuster.mem_alphaNames.mp hmem)) hc with
      ⟨-, hd⟩ | ⟨hind, -⟩
    · exact hd
    · exact absurd hind (not_indefinite_of_numeric ha)

end Adjustment

/-! ### A row of adjustments -/

/-- The alpha after some adjustments, from the alpha before. -/
def alphaAlong (alpha : Binary64) (as : List (Adjustment Binary64)) : Binary64 :=
  as.foldl Adjustment.alphaAfter alpha

/-- **Alpha goes its own way** along a row of adjustments. -/
theorem alike_alphaAlong {c d : Color} {as : List (Adjustment Binary64)} (hn : Numeric as)
    (hc : Within 0 1 c.alpha) (h : (adjust c as).value = .ok d) :
    Alike d.alpha (alphaAlong c.alpha as) := by
  induction as using List.reverseRecOn generalizing d with
  | nil =>
    obtain rfl := Except.ok.inj h
    exact .refl _
  | append_singleton as a ih =>
    obtain ⟨b, hb, ha⟩ := value_adjust_concat h
    have hna : Numeric as := fun e he => hn e (List.mem_append_left _ he)
    have hrange : Within 0 1 b.alpha ∨ b.alpha = nan := by
      rcases alpha_of_adjust hna hc hb with ⟨-, hnan⟩ | ⟨-, hw⟩
      · exact Or.inr hnan
      · exact Or.inl hw
    have hstep := (Adjustment.made_of_apply ha).alike_alpha (hn a (by simp)) hrange
    rw [alphaAlong, List.foldl_append]
    exact hstep.trans (Adjustment.alike_alphaAfter (ih hna hb) a)

end CssColor
