import CssColor.Proofs.Expression.Evaluation

/-! # Expressions of a panel

What is written for a color and a panel is read as the text of the color and the controls of the
panel. A control stands for an adjustment that sets its value (`ControlKind.adjustment`), and the
call that is written for it is read as this one (`adjustment_wholeCall`), since a value of 32 bits
is a double. -/

namespace CssColor

open Number Number.Binary64 Expression

/-- The adjustment a control stands for: its name in the chosen form, and its value as the amount,
in percent unless it is a hue. -/
def ControlKind.adjustment (k : ControlKind) (value : ℤ) (short : Bool) : Adjustment Binary64 where
  name := if short then k.shortName?.getD k.name else k.name
  modifier := none
  amount := some ⟨finite value, if k = .hue then .number else .percent⟩

theorem ControlKind.adjustment_wholeCall (k : ControlKind) {value : ℤ}
    (h : value.natAbs < 2 ^ 53) (short : Bool) :
    (k.wholeCall value short).adjustment = k.adjustment value short := by
  have hunit : (if k.unit?.isSome then AmountUnit.percent else .number)
      = if k = .hue then .number else .percent := by
    cases k <;> rfl
  unfold WholeCall.adjustment WholeCall.amount ControlKind.wholeCall ControlKind.adjustment
    ControlKind.callName
  rw [String.ofList_toList, Decimal.applySign_ofDecimal h, hunit]

/-- The values of a panel are integers of 32 bits. -/
def Panel.IsBounded (p : Panel) : Prop :=
  ∀ k, -2 ^ 31 ≤ (p.setting k).value ∧ (p.setting k).value < 2 ^ 31

theorem Panel.adjustments_calls {p : Panel} (h : p.IsBounded) (short : Bool) :
    (p.calls short).map WholeCall.adjustment
      = p.enabled.map fun k => k.adjustment (p.setting k).value short := by
  unfold Panel.calls
  rw [List.map_map]
  refine List.map_congr_left fun k _ => ?_
  have hk := h k
  exact k.adjustment_wholeCall (by omega) short

theorem Panel.enabled_eq (p : Panel) :
    p.enabled = ControlKind.all.filter fun k => (p.setting k).enabled := rfl

/-- **What is written for a color and a panel is read as just these:** the text of the color in any
of its forms as the base, and an adjustment for each control whose switch is on, in the order of the
controls. -/
theorem Expression.read_wrap_adjustmentsText {text base : String} {s : Swatch}
    (hs : Swatch.read text = .ok s) {f : Format} (hf : s.rendering? f = some base) {p : Panel}
    (hp : p.IsBounded) (short : Bool) :
    Expression.read (Expression.wrap base (p.adjustmentsText short))
      = .ok (.literal base ((ControlKind.all.filter fun k => (p.setting k).enabled).map
        fun k => k.adjustment (p.setting k).value short)) := by
  have hnumber := (Color.inRange_of_read (Swatch.read_eq_ok hs).1).alpha.isNumber
  have hbase : IsBase base.toList := isBase_render? hnumber.isNaN hf
  rw [read_wrap hbase Panel.valid_of_mem_calls (p.toList_adjustmentsText short),
    Panel.adjustments_calls hp, Panel.enabled_eq]

/-- A panel with alpha and hue at the ends of the range. -/
def Panel.extreme : Panel where
  setting
    | .alpha => ⟨true, -2 ^ 31⟩
    | .hue => ⟨true, 2 ^ 31 - 1⟩
    | _ => {}

/-- The ends of the range, and a color whose text has parentheses and commas. -/
theorem Expression.read_wrap_adjustmentsText_extremes :
    Expression.read "color(hsla(300, 100%, 50%, 0.53) a(-2147483648%) h(2147483647))"
      = .ok (.literal "hsla(300, 100%, 50%, 0.53)"
        [⟨"a", none, some ⟨finite (-2147483648), .percent⟩⟩,
          ⟨"h", none, some ⟨finite 2147483647, .number⟩⟩]) := by
  have hp : Panel.extreme.IsBounded := by
    intro k
    cases k <;> decide
  have hrendering : (Swatch.read "#f0f8").toOption.bind (·.rendering? .hsl)
      = some "hsla(300, 100%, 50%, 0.53)" := by decide +kernel
  have hwrap : Expression.wrap "hsla(300, 100%, 50%, 0.53)" (Panel.extreme.adjustmentsText true)
      = "color(hsla(300, 100%, 50%, 0.53) a(-2147483648%) h(2147483647))" := by decide
  have hcalls : (ControlKind.all.filter fun k => (Panel.extreme.setting k).enabled).map
        (fun k => k.adjustment (Panel.extreme.setting k).value true)
      = [⟨"a", none, some ⟨finite (-2147483648), .percent⟩⟩,
        ⟨"h", none, some ⟨finite 2147483647, .number⟩⟩] := by decide
  cases hs : Swatch.read "#f0f8" with
  | error f =>
    rw [hs] at hrendering
    cases hrendering
  | ok s =>
    rw [hs] at hrendering
    rw [← hwrap, ← hcalls]
    exact Expression.read_wrap_adjustmentsText hs hrendering hp true

end CssColor
