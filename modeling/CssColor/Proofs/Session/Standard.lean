import CssColor.Proofs.Expression.Evaluation
import CssColor.Proofs.Session.Run

/-! # Sessions with the evaluator of the language

With the evaluator of the language, the expressions of a reachable session evaluate, whatever its
base was written as and whatever values its panel holds: the base is written in a form the language
takes (`isBase_baseText`, `read_baseText`), and no adjustment of a panel fails. The output is
therefore never a mere copy of the base, and the text colors are never black for want of an
answer. -/

namespace CssColor.Session

open Number Number.Binary64 Expression

variable {σ : Type}

/-! ### The base of an expression -/

/-- The form a base is written in for an expression. -/
def baseForm (f : Format) : Format := if f.isAlphaHex then .rgb else f

theorem isAlphaHex_baseForm (f : Format) : (baseForm f).isAlphaHex = false := by
  cases f <;> rfl

/-- The base of an expression is the color in a form of its own, never the text as it was typed. -/
theorem render?_baseText {text : String} {s : Swatch} (h : Swatch.read text = .ok s) :
    s.color.render? (baseForm s.format) = some (baseText s) := by
  rw [← expressionBase_eq]
  unfold expressionBase baseForm
  split_ifs
  · rfl
  · exact Swatch.rendering?_format h

theorem isBase_baseText {text : String} {s : Swatch} (h : Swatch.read text = .ok s) :
    IsBase (baseText s).toList :=
  isBase_render? (Swatch.inRange_of_read h).alpha.isNumber.isNaN (render?_baseText h)

theorem read_baseText {text : String} {s : Swatch} (h : Swatch.read text = .ok s) :
    Color.read (baseText s) = .ok (s.color.restored (baseForm s.format), baseForm s.format) :=
  Color.read_render? (Swatch.inRange_of_read h) (isAlphaHex_baseForm s.format)
    (render?_baseText h)

/-! ### Evaluation -/

/-- The expression of a base that was read and of any panel evaluates to a color that is read
back. -/
theorem standard_expression {text : String} {base : Swatch} (h : Swatch.read text = .ok base)
    (panel : Panel) (short : Bool) :
    ∃ (answer : String) (output : Swatch),
      (Evaluator.standard (wrap (baseText base) (panel.adjustmentsText short))).value = .ok answer ∧
        Swatch.read answer = .ok output := by
  obtain ⟨d, hd, hr⟩ := standard_wrap (isBase_baseText h) (read_baseText h)
    (isAlphaHex_baseForm base.format) Panel.valid_of_mem_calls Panel.steady_of_mem_calls
    (panel.toList_adjustmentsText short)
  exact ⟨_, _, hd, Swatch.read_of_read hr⟩

/-- Every color that was read has a text color, which is not for want of one. -/
theorem standard_textColorOf {text : String} {s : Swatch} (h : Swatch.read text = .ok s) :
    (Evaluator.standard.textColor "100%" s.rgbText).value
      = .ok (textColorOf Evaluator.standard s) := by
  have hr := Color.read_rgbText (Swatch.inRange_of_read h).alpha
  obtain ⟨t, ht⟩ := standard_textColor hr
  have ht' : (Evaluator.standard.textColor "100%" s.rgbText).value = .ok t := ht
  rw [textColorOf, ht']

/-! ### Reachable sessions -/

variable [PreferenceStore σ]

/-- **No fallback is ever shown.** In every reachable session with the evaluator of the language,
both expressions evaluate to texts that are read as colors; the output is the color the long one
evaluates to, and the text colors for base and output are what the evaluator answers. -/
theorem Reachable.evaluates {s : Session σ} (h : Reachable s) (he : s.evaluator = .standard) :
    (∃ answer, (s.evaluator s.expression).value = .ok answer ∧
      Swatch.read answer = .ok s.output) ∧
    (∃ answer output, (s.evaluator s.shortExpression).value = .ok answer ∧
      Swatch.read answer = .ok output) ∧
    (s.evaluator.textColor "100%" s.base.rgbText).value = .ok s.baseContrast ∧
    (s.evaluator.textColor "100%" s.output.rgbText).value = .ok s.outputContrast := by
  obtain ⟨hc, text, htext⟩ := h.invariant
  rw [he]
  obtain ⟨answer, output, ha, ho⟩ := standard_expression htext s.panel false
  have hlong : ∃ answer, (Evaluator.standard s.expression).value = .ok answer ∧
      Swatch.read answer = .ok s.output := by
    refine ⟨answer, ?_, ?_⟩
    · rw [hc.expression, ha]
    · rw [hc.output, he, hc.expression, outputOf, ha]
      simp only [ho]
  refine ⟨hlong, ?_, ?_, ?_⟩
  · rw [hc.shortExpression]
    exact standard_expression htext s.panel true
  · rw [hc.baseContrast, he]
    exact standard_textColorOf htext
  · obtain ⟨answer, -, hout⟩ := hlong
    rw [hc.outputContrast, he]
    exact standard_textColorOf hout

/-- A session with the defaults, on a base with alpha digits and with extreme values. -/
theorem evaluates_of_extremes : ∃ s : Session MemoryStore, Reachable s ∧
    s.evaluator = Evaluator.standard ∧
    ∃ answer, (s.evaluator s.expression).value = .ok answer ∧
      Swatch.read answer = .ok s.output := by
  obtain ⟨s, hs⟩ := exists_start ({} : MemoryStore) Evaluator.standard isReadable_default
  have hr := Reachable.start hs
  have he := (hr.invariant.toConsistent.evaluator_after [.setBase "#ff0000fe",
    .editPanel "alpha" (.setValue "-2147483647"), .editPanel "hue" (.setValue "2147483647")]).trans
    (evaluator_of_start hs)
  exact ⟨_, hr.after _, he, (Reachable.evaluates (hr.after _) he).1⟩

end CssColor.Session
