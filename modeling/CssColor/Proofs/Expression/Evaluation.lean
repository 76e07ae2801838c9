import CssColor.Panel
import CssColor.TextColor
import CssColor.Proofs.Color.Forms
import CssColor.Proofs.Color.Opacity
import CssColor.Proofs.Expression.Chain
import CssColor.Proofs.Expression.Reader

/-! # Expressions that evaluate

The text of a color in any of its forms is a base (`isBase_render?`), and the adjustments of a panel
are calls with whole numbers that never fail (`Panel.toList_adjustmentsText`, `steady_call`). So the
evaluator of the language answers every expression put together from these, with the text of a color
that is read back (`standard_wrap`); the text color of a base is one such expression
(`standard_textColor`). -/

namespace CssColor

open Number Number.Scalar Number.Binary64 Text Expression

/-! ### Bases -/

theorem isBase_of_isHexRow {ds : List Char} (h : Color.IsHexRow ds) : IsBase ('#' :: ds) := by
  refine .token (by simp) fun c hc => ?_
  rcases List.mem_cons.mp hc with rfl | hc
  · decide
  · obtain ⟨d, hd, rfl⟩ := h c hc
    obtain ⟨-, hs, ho, hcl⟩ := Color.digitChar_spec d hd
    simp [isTokenChar, hs, ho, hcl]

theorem isBase_of_rgb? {name : String} {c : Rgb} (h : Keyword.rgb? name = some c) :
    IsBase name.toList := by
  obtain ⟨hne, hl⟩ := Keyword.isLower_of_rgb? h
  refine .token hne fun d hd => ?_
  obtain ⟨-, hs, ho, hcl, -⟩ := isLower_spec (hl d hd)
  simp [isTokenChar, hs, ho, hcl]

theorem isBase_rgbText {c : Color} (h : c.alpha.isNaN = false) : IsBase c.rgbText.toList := by
  rw [toList_rgbText h]
  refine .call isCall_rgb fun d hd => ?_
  unfold Rgba.formName at hd
  split_ifs at hd <;> rw [← Option.some.inj hd] <;> decide

theorem isBase_hslText {c : Color} (h : c.alpha.isNaN = false) : IsBase c.hslText.toList := by
  rw [toList_hslText h]
  refine .call isCall_hsl fun d hd => ?_
  unfold Rgba.formName at hd
  split_ifs at hd <;> rw [← Option.some.inj hd] <;> decide

/-- The text of a color in a form is a base. -/
theorem isBase_render? {c : Color} (h : c.alpha.isNaN = false) {f : Format} {t : String}
    (ht : c.render? f = some t) : IsBase t.toList := by
  cases f with
  | hex =>
    obtain ⟨-, ht⟩ := Option.ite_none_right_eq_some.mp ht
    rw [← Option.some.inj ht, Color.longHex, String.toList_ofList]
    exact isBase_of_isHexRow (Color.isHexRow_byteDigits _)
  | hex3 =>
    obtain ⟨-, hall, rfl⟩ := Color.render?_hex3_eq_some.mp ht
    rw [Color.briefHex_of_isDouble hall, String.toList_ofList]
    exact isBase_of_isHexRow (Color.isHexRow_brief _)
  | hex4 =>
    obtain ⟨hall, rfl⟩ := Color.render?_hex4_eq_some.mp ht
    rw [Color.briefHex_of_isDouble hall, String.toList_ofList]
    exact isBase_of_isHexRow (Color.isHexRow_brief _)
  | hex8 =>
    rw [← Option.some.inj ht, Color.longHex, String.toList_ofList]
    exact isBase_of_isHexRow (Color.isHexRow_byteDigits _)
  | hsl => rw [← Option.some.inj ht]; exact isBase_hslText h
  | keyword =>
    obtain ⟨hs, ht⟩ := Option.ite_none_right_eq_some.mp ht
    exact isBase_of_rgb? (Keyword.rgb?_of_mem (Color.keyword?_eq_some hs ht))
  | rgb => rw [← Option.some.inj ht]; exact isBase_rgbText h

/-! ### The calls of a panel -/

/-- The name a control is called by. -/
def ControlKind.callName (k : ControlKind) (short : Bool) : String :=
  if short then k.shortName?.getD k.name else k.name

/-- The call of a control with a value. -/
def ControlKind.wholeCall (k : ControlKind) (value : ℤ) (short : Bool) : WholeCall :=
  ⟨(k.callName short).toList, value, k.unit?.isSome⟩

/-- The calls of the controls switched on. -/
def Panel.calls (p : Panel) (short : Bool) : List WholeCall :=
  p.enabled.map fun k => k.wholeCall (p.setting k).value short

theorem ControlKind.toList_call (k : ControlKind) (value : ℤ) (short : Bool) :
    (k.call value short).toList = (k.wholeCall value short).text := by
  have hunit : (k.unit?.getD "").toList = if k.unit?.isSome then ['%'] else [] := by
    cases k <;> decide
  unfold ControlKind.call WholeCall.text ControlKind.wholeCall ControlKind.callName
  simp only [String.toList_append, hunit]
  simp

theorem ControlKind.isLower_callName (k : ControlKind) (short : Bool) :
    (k.callName short).toList ≠ [] ∧ ∀ c ∈ (k.callName short).toList, c.isLower = true := by
  have hne : (k.callName short).toList ≠ [] := by
    cases k <;> cases short <;> decide
  have hall : (k.callName short).toList.all Char.isLower = true := by
    cases k <;> cases short <;> decide
  exact ⟨hne, List.all_eq_true.mp hall⟩

theorem ControlKind.valid_wholeCall (k : ControlKind) (value : ℤ) (short : Bool) :
    (k.wholeCall value short).Valid := k.isLower_callName short

theorem ControlKind.ofName?_callName (k : ControlKind) (short : Bool) :
    Adjuster.ofName? (k.callName short) = some k.adjuster := by
  cases k <;> cases short <;> decide

/-- The call of a control never fails, whatever its value is. -/
theorem ControlKind.steady_call (k : ControlKind) (value : ℤ) (short : Bool) :
    (k.wholeCall value short).adjustment.Steady := by
  unfold WholeCall.adjustment ControlKind.wholeCall
  rw [String.ofList_toList]
  exact steady_of_ofName? (k.ofName?_callName short)
    (Decimal.isNumber_applySign _ (Decimal.isNumber_ofDecimal _ _))

theorem Panel.toList_adjustmentsText (p : Panel) (short : Bool) :
    (p.adjustmentsText short).toList = callsText (p.calls short) := by
  unfold Panel.adjustmentsText Panel.calls callsText
  rw [String.toList_join, List.flatMap_map, List.flatMap_map]
  congr 1
  funext k
  rw [String.toList_append, ControlKind.toList_call]
  rfl

theorem Panel.valid_of_mem_calls {p : Panel} {short : Bool} : ∀ w ∈ p.calls short, w.Valid := by
  intro w hw
  obtain ⟨k, -, rfl⟩ := List.mem_map.mp hw
  exact k.valid_wholeCall _ _

theorem Panel.steady_of_mem_calls {p : Panel} {short : Bool} :
    ∀ w ∈ p.calls short, w.adjustment.Steady := by
  intro w hw
  obtain ⟨k, -, rfl⟩ := List.mem_map.mp hw
  exact k.steady_call _ _

/-! ### Evaluation -/

/-- Steady adjustments lead to a color, one after the other. -/
theorem exists_adjust {as : List (Adjustment Binary64)} (h : ∀ a ∈ as, a.Steady) {c : Color}
    (hc : Within 0 1 c.alpha) : ∃ d, (adjust c as).value = .ok d ∧ Within 0 1 d.alpha := by
  induction as generalizing c with
  | nil => exact ⟨c, rfl, hc⟩
  | cons a as ih =>
    obtain ⟨d, hd, hdw⟩ := h a List.mem_cons_self Color.luminance c hc
    obtain ⟨e, he, hew⟩ := ih (fun b hb => h b (List.mem_cons_of_mem _ hb)) hdw
    exact ⟨e, (value_adjust_of_ok as hd).trans he, hew⟩

theorem evaluateLiteral_of_read {t : String} {c : Color} {f : Format}
    (h : Color.read t = .ok (c, f)) (hf : f.isAlphaHex = false) : evaluateLiteral t = .ok c := by
  rw [evaluateLiteral, h]
  simp [hf]

/-- What the evaluator of the language does with a base and calls. -/
theorem value_standard_wrap {base adjustments : String} (hb : IsBase base.toList) {c : Color}
    {f : Format} (hr : Color.read base = .ok (c, f)) (hf : f.isAlphaHex = false)
    {ws : List WholeCall} (hv : ∀ w ∈ ws, w.Valid) (ha : adjustments.toList = callsText ws) :
    (Evaluator.standard (wrap base adjustments)).value
      = (adjust c (ws.map WholeCall.adjustment)).value.map Color.rgbText := by
  have hread := read_wrap hb hv ha
  unfold Evaluator.standard
  rw [hread]
  simp only [Logged.value_bind, Logged.value_pure, evaluate, evaluateLiteral_of_read hr hf,
    adjustResult]

/-- **An expression of a base and steady calls** evaluates to a text that is read back. -/
theorem standard_wrap {base adjustments : String} (hb : IsBase base.toList) {c : Color}
    {f : Format} (hr : Color.read base = .ok (c, f)) (hf : f.isAlphaHex = false)
    {ws : List WholeCall} (hv : ∀ w ∈ ws, w.Valid) (hs : ∀ w ∈ ws, w.adjustment.Steady)
    (ha : adjustments.toList = callsText ws) :
    ∃ d : Color, (Evaluator.standard (wrap base adjustments)).value = .ok d.rgbText ∧
      Color.read d.rgbText = .ok (d.shown, .rgb) := by
  have hs' : ∀ a ∈ ws.map WholeCall.adjustment, a.Steady := by
    intro a ha
    obtain ⟨w, hw, rfl⟩ := List.mem_map.mp ha
    exact hs w hw
  obtain ⟨d, hd, hdw⟩ := exists_adjust hs' (Color.inRange_of_read hr).alpha
  refine ⟨d, ?_, Color.read_rgbText hdw⟩
  rw [value_standard_wrap hb hr hf hv ha, hd]
  rfl

/-! ### Text colors -/

theorem exists_components_read {t : String} {c : Color} {f : Format}
    (h : Color.read t = .ok (c, f)) :
    ∃ k, Components.read t = .ok k := by
  unfold Components.read
  rw [h]
  exact ⟨_, rfl⟩

theorem value_textColor (evaluate : Evaluator) (amount : String) {base : String}
    {k : Components} {c : Color} {f : Format} (hk : Components.read base = .ok k)
    (hc : Color.read base = .ok (c, f)) :
    (evaluate.textColor amount base).value = if k.alpha < 50 then .ok "rgb(0, 0, 0)" else
      (evaluate (wrap (Color.rgbText (c.withAlpha 1)) (" contrast(" ++ amount ++ ")"))).value := by
  unfold Evaluator.textColor
  rw [hk, hc, ← Rgba.rgbText_black]
  exact apply_ite Logged.value _ _ _

/-- A base taken as solid is read again as the color of its bytes. -/
theorem read_rgbText_withAlpha_one (c : Color) :
    Color.read (Color.rgbText (c.withAlpha 1)) = .ok (.solid c.rounded, .rgb) := by
  have hwithin : Within 0 1 (c.withAlpha 1).alpha := within_clampUnit Rgba.within_one.isNumber
  have hsolid : (c.withAlpha 1).isSolid = true := Rgba.isSolid_solid c.rounded
  rw [Color.read_rgbText hwithin, Rgba.shown_of_isSolid hsolid]
  rfl

theorem isNaN_alpha_withAlpha_one (c : Color) : (c.withAlpha 1).alpha.isNaN = false :=
  (within_clampUnit Rgba.within_one.isNumber).isNumber.isNaN

/-- What is made of an amount that comes to calls with whole numbers. -/
theorem value_textColor_of_calls {amount base : String} {k : Components} {c : Color} {f : Format}
    (hk : Components.read base = .ok k) (hc : Color.read base = .ok (c, f)) (halpha : 50 ≤ k.alpha)
    {ws : List WholeCall} (hv : ∀ w ∈ ws, w.Valid)
    (ha : (" contrast(" ++ amount ++ ")").toList = callsText ws) :
    (Evaluator.standard.textColor amount base).value
      = (adjust (.solid c.rounded) (ws.map WholeCall.adjustment)).value.map Color.rgbText := by
  rw [value_textColor _ _ hk hc, if_neg (not_lt.mpr halpha)]
  exact value_standard_wrap (isBase_rgbText (isNaN_alpha_withAlpha_one c))
    (read_rgbText_withAlpha_one c) rfl hv ha

/-- The default amount comes to one call, a contrast of a hundred percent. -/
theorem value_textColor_default {base : String} {k : Components} {c : Color} {f : Format}
    (hk : Components.read base = .ok k) (hc : Color.read base = .ok (c, f))
    (halpha : 50 ≤ k.alpha) :
    (Evaluator.standard.textColor defaultContrast base).value
      = (adjust (.solid c.rounded)
          [(ControlKind.contrast.wholeCall 100 false).adjustment]).value.map Color.rgbText := by
  have hcall : (" contrast(" ++ defaultContrast ++ ")").toList
      = callsText [ControlKind.contrast.wholeCall 100 false] := by decide
  exact value_textColor_of_calls hk hc halpha
    (by simpa using ControlKind.contrast.valid_wholeCall 100 false) hcall

/-- A contrast of a hundred percent goes all the way. -/
theorem apply_contrast (c : Color) :
    (ControlKind.contrast.wholeCall 100 false).adjustment.apply Color.luminance c
      = .ok (legible Color.luminance c 1) := by
  have hwhole : (ControlKind.contrast.wholeCall 100 false).amount.percent = 1 := by decide +kernel
  have hname : Adjuster.ofName? (ControlKind.contrast.wholeCall 100 false).adjustment.name
      = some .contrast := by decide
  rw [Adjustment.apply, hname, ← hwhole]
  rfl

/-- **Every color has a text color.** -/
theorem standard_textColor {t : String} {c : Color} {f : Format} (h : Color.read t = .ok (c, f)) :
    ∃ text, (Evaluator.standard.textColor defaultContrast t).value = .ok text := by
  obtain ⟨k, hk⟩ := exists_components_read h
  by_cases halpha : k.alpha < 50
  · rw [value_textColor _ _ hk h, if_pos halpha]
    exact ⟨_, rfl⟩
  · have hsteady : ∀ a ∈ [(ControlKind.contrast.wholeCall 100 false).adjustment], a.Steady := by
      simpa using ControlKind.contrast.steady_call 100 false
    obtain ⟨d, hd, -⟩ := exists_adjust hsteady (Rgba.inRange_solid c.rounded).alpha
    rw [value_textColor_default hk h (not_lt.mp halpha), hd]
    exact ⟨_, rfl⟩

end CssColor
