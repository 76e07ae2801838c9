import CssColor.Proofs.Color.ReadBack
import CssColor.Proofs.Panel.Edits
import CssColor.Session

/-! # What a session derives

Five fields of a session follow from its base and its panel: both expressions, the output, and the
text colors for base and output. `recomputed` computes them afresh, `Consistent` says that they
agree with that. Each command is described here once: by the fields it sets and by what it derives
again (`value_setBase_of_read`, `value_editPanel_of_edit`). -/

namespace CssColor.Session

variable {σ : Type}

/-! ### Derived fields -/

/-- A base as expressions take it: its `rgb` text if it was written with alpha digits, else its
text in the form of its source. -/
def baseText (base : Swatch) : String :=
  if base.format = .hex4 ∨ base.format = .hex8 then base.rgbText else base.display

/-- The color of an expression: what the evaluator answers, read as a color, or a copy of the base
when either fails. -/
def outputOf (evaluate : Evaluator) (expression : String) (base : Swatch) : Swatch :=
  match (evaluate expression).value with
  | .error _ => base
  | .ok text =>
    match Swatch.read text with
    | .error _ => base
    | .ok output => output

/-- The text color for a color, black when there is none. -/
def textColorOf (evaluate : Evaluator) (s : Swatch) : String :=
  match (evaluate.textColor "100%" s.rgbText).value with
  | .error _ => "rgb(0, 0, 0)"
  | .ok text => text

/-- **The derived fields agree** with a fresh computation from base and panel. -/
structure Consistent (s : Session σ) : Prop where
  expression : s.expression = Expression.wrap (baseText s.base) (s.panel.adjustmentsText false)
  shortExpression :
    s.shortExpression = Expression.wrap (baseText s.base) (s.panel.adjustmentsText true)
  output : s.output = outputOf s.evaluator s.expression s.base
  baseContrast : s.baseContrast = textColorOf s.evaluator s.base
  outputContrast : s.outputContrast = textColorOf s.evaluator s.output

/-- The session with all derived fields computed afresh. -/
def recomputed (s : Session σ) : Session σ :=
  let expression := Expression.wrap (baseText s.base) (s.panel.adjustmentsText false)
  let output := outputOf s.evaluator expression s.base
  { s with
    expression, output
    shortExpression := Expression.wrap (baseText s.base) (s.panel.adjustmentsText true)
    baseContrast := textColorOf s.evaluator s.base
    outputContrast := textColorOf s.evaluator output }

@[simp] theorem recomputed_evaluator (s : Session σ) : s.recomputed.evaluator = s.evaluator := rfl

@[simp] theorem recomputed_base (s : Session σ) : s.recomputed.base = s.base := rfl

@[simp] theorem recomputed_panel (s : Session σ) : s.recomputed.panel = s.panel := rfl

theorem consistent_recomputed (s : Session σ) : s.recomputed.Consistent where
  expression := by rw [recomputed_base, recomputed_panel, recomputed]
  shortExpression := by rw [recomputed_base, recomputed_panel, recomputed]
  output := by rw [recomputed_evaluator, recomputed_base, recomputed]
  baseContrast := by rw [recomputed_evaluator, recomputed_base, recomputed]
  outputContrast := by rw [recomputed_evaluator, recomputed]

/-! ### The parts of a recomputation -/

theorem expressionBase_eq (base : Swatch) : expressionBase base = baseText base := by
  unfold expressionBase baseText
  cases base.format <;> simp [Format.isAlphaHex]

theorem value_contrastFor (evaluate : Evaluator) (s : Swatch) :
    (contrastFor evaluate s).value = textColorOf evaluate s := by
  have hamount : defaultContrast = "100%" := rfl
  unfold contrastFor textColorOf
  rw [Logged.value_bind, hamount]
  cases (evaluate.textColor "100%" s.rgbText).value with
  | error f => simp only [Logged.value_bind, Logged.value_pure, Rgba.rgbText_black]
  | ok text => simp only [Logged.value_pure]

theorem value_outputFor (evaluate : Evaluator) (expression : String) (base : Swatch) :
    (outputFor evaluate expression base).value = outputOf evaluate expression base := by
  unfold outputFor outputOf evaluated
  simp only [Logged.value_bind, Logged.value_pure]
  cases (evaluate expression).value with
  | error f => rfl
  | ok text =>
    simp only [Except.bind]
    cases Swatch.read text <;> rfl

theorem value_refresh {s : Session σ} (h : s.baseContrast = textColorOf s.evaluator s.base) :
    (refresh s).value = s.recomputed := by
  unfold refresh recomputed
  simp only [Logged.value_bind, Logged.value_pure, value_outputFor, value_contrastFor,
    expressionBase_eq, ← h]

theorem value_withBase (s : Session σ) (base : Swatch) (panel : Panel) :
    (s.withBase base panel).value = recomputed { s with base, panel } := by
  have hc := value_contrastFor s.evaluator base
  unfold withBase
  rw [Logged.value_bind, hc]
  exact value_refresh
    (s := { s with base, panel, baseContrast := textColorOf s.evaluator base }) rfl

/-! ### Base texts -/

theorem readBase_eq_ok {text : String} {base : Swatch} {panel : Panel} :
    readBase text = .ok (base, panel) ↔
      Swatch.read text = .ok base ∧ Panel.seeded {} text = .ok panel := by
  unfold readBase
  cases Swatch.read text <;> cases Panel.seeded {} text <;>
    simp [bind, Except.bind, pure, Except.pure]

/-- The two readings of a base text never disagree: a color has components. -/
theorem isOk_readBase (text : String) : (readBase text).isOk = Swatch.isReadable text := by
  unfold readBase Swatch.isReadable Swatch.read Panel.seeded Components.read
  cases Color.read text <;> rfl

theorem exists_readBase {text : String} (h : Swatch.isReadable text = true) :
    ∃ base panel, readBase text = .ok (base, panel) := by
  rw [← isOk_readBase] at h
  cases hr : readBase text with
  | error f => rw [hr] at h; cases h
  | ok r => exact ⟨r.1, r.2, rfl⟩

theorem exists_readBase_error {text : String} (h : Swatch.isReadable text = false) :
    ∃ f, readBase text = .error f := by
  rw [← isOk_readBase] at h
  cases hr : readBase text with
  | error f => exact ⟨f, rfl⟩
  | ok r => rw [hr] at h; cases h

/-! ### Commands -/

theorem value_setBase_of_read (s : Session σ) {text : String} {base : Swatch} {panel : Panel}
    (h : readBase text = .ok (base, panel)) :
    (s.setBase text).value = (true, recomputed { s with baseInput := text, base, panel }) := by
  unfold setBase
  rw [h]
  simp only [Logged.value_bind, Logged.value_pure, value_withBase]

theorem value_setBase_of_error (s : Session σ) {text : String} {f : ColorFault}
    (h : readBase text = .error f) :
    (s.setBase text).value = (false, { s with baseInput := text }) := by
  unfold setBase
  rw [h]
  rfl

theorem value_editPanel_of_edit {s : Session σ} (hs : s.Consistent) {target : String} {e : Edit}
    {panel : Panel} (h : s.panel.edit target e = (.ok (), panel)) :
    (s.editPanel target e).value = (.ok (), recomputed { s with panel }) := by
  unfold editPanel
  rw [h]
  exact congrArg (Prod.mk _) (value_refresh hs.baseContrast)

/-- A change that is refused leaves the panel, and with it the session, as it was. -/
theorem value_editPanel_of_error (s : Session σ) {target : String} {e : Edit} {f : Fault}
    (h : (s.panel.edit target e).1 = .error f) :
    (s.editPanel target e).value = (.error (.color f), s) := by
  have hedit : s.panel.edit target e = (.error f, s.panel) := Prod.ext h (Panel.edit_of_error h)
  unfold editPanel
  rw [hedit]
  rfl

variable [PreferenceStore σ]

theorem value_setShortNames_of_write (s : Session σ) {flag : Bool} {store : σ}
    (h : PreferenceStore.writeFlag s.store s.settings.shortNamesKey flag = .ok store) :
    (s.setShortNames flag).value = (.ok (), { s with store, useShortNames := flag }) := by
  unfold setShortNames
  rw [h]
  rfl

/-- A choice that cannot be kept is not made. -/
theorem value_setShortNames_of_error (s : Session σ) {flag : Bool} {f : StoreFault}
    (h : PreferenceStore.writeFlag s.store s.settings.shortNamesKey flag = .error f) :
    (s.setShortNames flag).value = (.error (.store f), s) := by
  unfold setShortNames
  rw [h]
  rfl

/-! ### Starting -/

/-- A session on a base, with nothing chosen yet. -/
def fresh (settings : Settings) (store : σ) (evaluator : Evaluator) (text : String) (base : Swatch)
    (panel : Panel) : Session σ :=
  recomputed {
    settings, store, evaluator, base, panel
    baseInput := text
    baseContrast := ""
    expression := ""
    shortExpression := ""
    output := base
    outputContrast := ""
    useShortNames := (keptShortNames settings store).value
    selectedFormat := none }

theorem value_startOn_of_read (settings : Settings) (store : σ) (evaluator : Evaluator)
    {text : String} {base : Swatch} {panel : Panel} (h : readBase text = .ok (base, panel)) :
    (startOn settings store evaluator text).value
      = .ok (fresh settings store evaluator text base panel) := by
  unfold startOn
  rw [h]
  simp only [Logged.value_bind, Logged.value_pure, value_withBase]
  rfl

/-- A session that could be started is the one on its base. -/
theorem exists_of_startOn_eq_ok {settings : Settings} {store : σ} {evaluator : Evaluator}
    {text : String} {s : Session σ} (h : (startOn settings store evaluator text).value = .ok s) :
    ∃ base panel, readBase text = .ok (base, panel) ∧
      s = fresh settings store evaluator text base panel := by
  cases hr : readBase text with
  | error f =>
    unfold startOn at h
    rw [hr] at h
    cases h
  | ok r =>
    obtain ⟨base, panel⟩ := r
    rw [value_startOn_of_read settings store evaluator hr] at h
    exact ⟨base, panel, rfl, (Except.ok.inj h).symm⟩

end CssColor.Session
