import CssColor.Proofs.Exact.Hwb
import CssColor.Proofs.Exact.Legible
import CssColor.Proofs.Expression.Chain

/-! # Adjustments that change nothing

Without rounding a channel that is replaced by its own value leaves the color as it is
(`Channel.set_get`), since the way to its space and back leads to the same color, also from a gray.
So does an adjustment that replaces a channel by its value, adds or takes away nothing, multiplies
by the whole, or mixes in nothing of white or black (`Adjustment.Neutral`): it leaves the color
unchanged (`Adjustment.Neutral.apply_eq`), and by induction so does a row of such adjustments, each
neutral on the color it meets (`applyAll_of_neutralRow`). -/

namespace CssColor

open Number Number.Scalar Number.Exact

/-! ### Channels and their values -/

namespace Channel

/-- The number that states a value of a channel in a unit. Alpha may be stated in percent, red,
green and blue in percent of 255; the hue is in degrees and the other coordinates are in percent,
whatever their unit. -/
def stated (x : ℚ) (unit : AmountUnit) : Channel → ℚ
  | alpha => if unit = .percent then x * 100 else x
  | red | green | blue => if unit = .percent then x / 255 * 100 else x
  | hue => x
  | saturation | lightness | whiteness | blackness => x * 100

theorem measured_stated (x : ℚ) (unit : AmountUnit) (ch : Channel) :
    (⟨ch.stated x unit, unit⟩ : Amount ℚ).measured ch = x := by
  have hpercent : x * 100 / 100 = x := mul_div_cancel_right₀ _ (by norm_num)
  have hshare : x / 255 * 100 / 100 * 255 = x := by ring
  cases ch <;> cases unit <;> first | rfl | exact hpercent | exact hshare

theorem measured_zero (unit : AmountUnit) (ch : Channel) :
    (⟨0, unit⟩ : Amount ℚ).measured ch = 0 := by
  have hpercent : (0 : ℚ) / 100 = 0 := zero_div _
  have hshare : (0 : ℚ) / 100 * 255 = 0 := by norm_num
  cases ch <;> cases unit <;> first | rfl | exact hpercent | exact hshare

variable {c : Rgba ℚ}

/-- **A channel that is replaced by its own value** leaves the color as it is. -/
theorem set_get (h : c.Regular) (ch : Channel) : ch.set c (ch.get c) = c := by
  have hhsl : c.toHsl.toRgba c.alpha = c := by
    rw [h.toBounded.toRgba_toHsl, Rgba.withAlpha_alpha h.alpha]
  have hhwb : c.toHwb.toRgba c.alpha = c := by
    rw [h.toBounded.toRgba_toHwb, Rgba.withAlpha_alpha h.alpha]
  cases ch with
  | alpha => exact Rgba.withAlpha_alpha h.alpha
  | red | green | blue => exact h.clamped_eq
  | hue | saturation | lightness => exact hhsl
  | whiteness | blackness => exact hhwb

end Channel

/-! ### A single adjustment -/

namespace Adjustment

section

variable {α : Type} [Scalar α] {luminance : Rgba α → α} {name : String} {x : Amount α}

theorem apply_channel {ch : Channel} (h : Adjuster.ofName? name = some (.channel ch))
    (m : Option Modifier) (c : Rgba α) : (⟨name, m, some x⟩ : Adjustment α).apply luminance c
      = .ok (ch.set c (combine m (ch.get c) (x.measured ch) x.fraction)) := by
  unfold apply
  rw [h]
  rfl

theorem apply_tint (h : Adjuster.ofName? name = some .tint) (c : Rgba α) :
    (⟨name, none, some x⟩ : Adjustment α).apply luminance c
      = .ok (c.mix (Rgba.white.withAlpha c.alpha) x.percent) := by
  unfold apply
  rw [h]
  rfl

theorem apply_shade (h : Adjuster.ofName? name = some .shade) (c : Rgba α) :
    (⟨name, none, some x⟩ : Adjustment α).apply luminance c
      = .ok (c.mix (Rgba.black.withAlpha c.alpha) x.percent) := by
  unfold apply
  rw [h]
  rfl

end

/-- **What changes nothing of a color,** under any name of its adjuster and in any unit. -/
inductive Neutral (c : Rgba ℚ) : Adjustment ℚ → Prop
  /-- A channel becomes what it is. -/
  | set {name : String} {ch : Channel} (h : Adjuster.ofName? name = some (.channel ch))
      (unit : AmountUnit) : Neutral c ⟨name, none, some ⟨ch.stated (ch.get c) unit, unit⟩⟩
  | add {name : String} {ch : Channel} (h : Adjuster.ofName? name = some (.channel ch))
      (unit : AmountUnit) : Neutral c ⟨name, some .add, some ⟨0, unit⟩⟩
  | subtract {name : String} {ch : Channel} (h : Adjuster.ofName? name = some (.channel ch))
      (unit : AmountUnit) : Neutral c ⟨name, some .subtract, some ⟨0, unit⟩⟩
  /-- A channel is multiplied by 100%. -/
  | multiply {name : String} {ch : Channel} (h : Adjuster.ofName? name = some (.channel ch)) :
      Neutral c ⟨name, some .multiply, some ⟨100, .percent⟩⟩
  | tint {name : String} (h : Adjuster.ofName? name = some .tint) (unit : AmountUnit) :
      Neutral c ⟨name, none, some ⟨0, unit⟩⟩
  | shade {name : String} (h : Adjuster.ofName? name = some .shade) (unit : AmountUnit) :
      Neutral c ⟨name, none, some ⟨0, unit⟩⟩

variable {luminance : Rgba ℚ → ℚ} {c : Rgba ℚ} {a : Adjustment ℚ}

/-- **A neutral adjustment leaves the color as it is.** -/
theorem Neutral.apply_eq (h : a.Neutral c) (hc : c.Regular) : a.apply luminance c = .ok c := by
  have hzero (unit : AmountUnit) : (⟨0, unit⟩ : Amount ℚ).percent = 0 := zero_div _
  have hwhole : (⟨100, .percent⟩ : Amount ℚ).fraction = 1 := div_self (by norm_num)
  cases h with
  | set h unit =>
    rw [apply_channel h, Channel.measured_stated]
    exact congrArg Except.ok (Channel.set_get hc _)
  | @add _ ch h unit =>
    have hsum : combine (some .add) (ch.get c) 0 (Amount.fraction ⟨0, unit⟩) = ch.get c :=
      add_zero _
    rw [apply_channel h, Channel.measured_zero, hsum, Channel.set_get hc]
  | @subtract _ ch h unit =>
    have hdiff : combine (some .subtract) (ch.get c) 0 (Amount.fraction ⟨0, unit⟩) = ch.get c :=
      sub_zero _
    rw [apply_channel h, Channel.measured_zero, hdiff, Channel.set_get hc]
  | @multiply _ ch h =>
    have hproduct (y : ℚ) : combine (some .multiply) (ch.get c) y 1 = ch.get c := mul_one _
    rw [apply_channel h, hwhole, hproduct, Channel.set_get hc]
  | tint h unit => rw [apply_tint h, hzero, hc.mix_zero]
  | shade h unit => rw [apply_shade h, hzero, hc.mix_zero]

end Adjustment

/-! ### A row of adjustments -/

section

variable {α : Type} [Scalar α]

/-- The color after a row of adjustments, each made to the result of those before it. -/
def applyAll (luminance : Rgba α → α) (c : Rgba α) (as : List (Adjustment α)) :
    Except Fault (Rgba α) :=
  as.foldlM (fun c a => a.apply luminance c) c

end

/-- In double precision this is what an expression does to its base. -/
theorem value_adjust_eq_applyAll (c : Color) (as : List (Adjustment Binary64)) :
    (Expression.adjust c as).value = applyAll Color.luminance c as := by
  induction as generalizing c with
  | nil => rfl
  | cons a as ih =>
    rw [applyAll, List.foldlM_cons]
    cases ha : a.apply Color.luminance c with
    | ok d => rw [Expression.value_adjust_of_ok as ha, ih]; rfl
    | error f => rw [Expression.value_adjust_of_error as ha]; rfl

variable {luminance : Rgba ℚ → ℚ} {c : Rgba ℚ} {as : List (Adjustment ℚ)}

/-- A row of adjustments each of which is neutral on the color that those before it lead to. -/
inductive NeutralRow (luminance : Rgba ℚ → ℚ) : Rgba ℚ → List (Adjustment ℚ) → Prop
  | nil (c : Rgba ℚ) : NeutralRow luminance c []
  | cons {c : Rgba ℚ} {a : Adjustment ℚ} {as : List (Adjustment ℚ)} (ha : a.Neutral c)
      (has : ∀ d, a.apply luminance c = .ok d → NeutralRow luminance d as) :
      NeutralRow luminance c (a :: as)

theorem neutralRow_iff (hc : c.Regular) : NeutralRow luminance c as ↔ ∀ a ∈ as, a.Neutral c := by
  induction as with
  | nil => simp [NeutralRow.nil]
  | cons a as ih =>
    rw [List.forall_mem_cons, ← ih]
    constructor
    · rintro (_ | ⟨ha, has⟩)
      exact ⟨ha, has c (ha.apply_eq hc)⟩
    · rintro ⟨ha, has⟩
      refine .cons ha fun d hd => ?_
      obtain rfl := Except.ok.inj ((ha.apply_eq hc).symm.trans hd)
      exact has

/-- **Neutral adjustments change nothing, in any number and order.** A row of adjustments that each
replace a channel by the value it has in the color they meet, add or take away zero, multiply by
100% or mix in nothing can be made to every color in range, a gray, black and white among them, and
leaves it as it is. So it does not matter whether they are neutral on the color they meet or all on
the first. -/
theorem applyAll_of_neutralRow (hc : c.Regular) :
    (NeutralRow luminance c as → applyAll luminance c as = .ok c) ∧
      (NeutralRow luminance c as ↔ ∀ a ∈ as, a.Neutral c) := by
  refine ⟨fun h => ?_, neutralRow_iff hc⟩
  induction h with
  | nil c => rfl
  | @cons c a as ha _ ih =>
    have hstep : a.apply luminance c = .ok c := ha.apply_eq hc
    rw [applyAll, List.foldlM_cons, hstep]
    exact ih c hstep hc

/-- A gray of half alpha, which has no hue. -/
def halfGray : Rgba ℚ := ⟨128, 128, 128, 1 / 2⟩

/-- A row of all kinds of neutral adjustments is made to the gray. -/
theorem applyAll_of_neutralRow_gray : applyAll plainLuminance halfGray
    [⟨"h", none, some ⟨0, .degrees⟩⟩, ⟨"saturation", some .multiply, some ⟨100, .percent⟩⟩,
      ⟨"w", none, some ⟨2560 / 51, .percent⟩⟩, ⟨"a", none, some ⟨50, .percent⟩⟩,
      ⟨"red", some .subtract, some ⟨0, .number⟩⟩, ⟨"blackness", some .add, some ⟨0, .percent⟩⟩,
      ⟨"tint", none, some ⟨0, .percent⟩⟩, ⟨"shade", none, some ⟨0, .number⟩⟩] = .ok halfGray := by
  have hregular : halfGray.Regular := by
    refine ⟨⟨?_, ?_, ?_⟩, ?_⟩ <;> norm_num [halfGray]
  have hhue : Channel.hue.stated (Channel.hue.get halfGray) .degrees = 0 := by decide +kernel
  have hwhite : Channel.whiteness.stated (Channel.whiteness.get halfGray) .percent = 2560 / 51 := by
    decide +kernel
  have halpha : Channel.alpha.stated (Channel.alpha.get halfGray) .percent = 50 := by decide +kernel
  have hsaturation : Adjuster.ofName? "saturation" = some (.channel .saturation) := by decide
  have hred : Adjuster.ofName? "red" = some (.channel .red) := by decide
  have hblackness : Adjuster.ofName? "blackness" = some (.channel .blackness) := by decide
  obtain ⟨hkeep, hrow⟩ := @applyAll_of_neutralRow plainLuminance _ _ hregular
  refine hkeep (hrow.mpr ?_)
  simp only [List.forall_mem_cons, List.not_mem_nil, false_imp_iff, implies_true, and_true]
  refine ⟨?_, .multiply hsaturation, ?_, ?_, .subtract hred _, .add hblackness _,
    .tint (by decide) _, .shade (by decide) _⟩
  · exact hhue ▸ .set (by decide) _
  · exact hwhite ▸ .set (by decide) _
  · exact halpha ▸ .set (by decide) _

end CssColor
