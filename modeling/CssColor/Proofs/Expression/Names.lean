import CssColor.Proofs.Expression.Panel

/-! # Names and letters

An adjuster is called by its name or by its letter, and no two adjusters share either
(`Adjuster.ofName?_eq_some_iff`). What a control does is the same under both
(`Adjustment.Sets.apply_eq`), so the two texts of a panel come to the same result behind any base,
be it a color or a fault (`Panel.value_standard_names`). -/

namespace CssColor

open Number Number.Binary64 Expression

/-! ### The names of an adjuster -/

theorem Adjuster.ofName?_name (a : Adjuster) : ofName? a.name = some a := by
  cases a with
  | channel c => cases c <;> decide
  | tint | shade | contrast => decide

theorem Adjuster.ofName?_letter {a : Adjuster} {letter : String} (h : a.letter? = some letter) :
    ofName? letter = some a := by
  have hall : ∀ l ∈ a.letter?, ofName? l = some a := by
    cases a with
    | channel c => cases c <;> decide
    | tint | shade | contrast => decide
  exact hall letter h

/-- A name belongs to one adjuster, as the whole of its name or as its letter. -/
theorem Adjuster.ofName?_eq_some_iff {name : String} {a : Adjuster} :
    ofName? name = some a ↔ name = a.name ∨ a.letter? = some name := by
  constructor
  · intro h
    have hname := List.find?_some h
    simp only [Bool.or_eq_true, decide_eq_true_eq] at hname
    exact hname.imp_left Eq.symm
  · rintro (rfl | h)
    · exact a.ofName?_name
    · exact ofName?_letter h

/-! ### Adjustments of one adjuster -/

/-- An adjustment by a name of an adjuster, with an amount that nothing modifies. -/
structure Adjustment.Sets (a : Adjustment Binary64) (k : Adjuster) (x : Amount Binary64) :
    Prop where
  name : Adjuster.ofName? a.name = some k
  modifier : a.modifier = none
  amount : a.amount = some x

section

variable {a b : Adjustment Binary64} {k : Adjuster} {x : Amount Binary64}

theorem Adjustment.Sets.required_eq (h : a.Sets k x) : a.required = .ok x := by
  rw [required, h.amount]

theorem Adjustment.Sets.unmodified_eq (h : a.Sets k x) : a.unmodified = .ok () := by
  rw [unmodified, h.modifier]
  rfl

/-- Under either name the same is done to a color. -/
theorem Adjustment.Sets.apply_eq (ha : a.Sets k x) (hb : b.Sets k x)
    (luminance : Color → Binary64) (c : Color) : a.apply luminance c = b.apply luminance c := by
  unfold apply
  rw [ha.name, hb.name, ha.required_eq, hb.required_eq, ha.unmodified_eq, hb.unmodified_eq,
    ha.modifier, hb.modifier, ha.amount, hb.amount]
  cases k <;> rfl

end

/-- Adjustments that do the same one by one do the same in a row, each to the result of those
before it. -/
theorem Expression.value_adjust_congr {as bs : List (Adjustment Binary64)}
    (h : List.Forall₂ (fun a b => ∀ c, a.apply Color.luminance c = b.apply Color.luminance c) as bs)
    (c : Color) : (adjust c as).value = (adjust c bs).value := by
  induction h generalizing c with
  | nil => rfl
  | @cons a b as bs hab _ ih =>
    cases hb : b.apply Color.luminance c with
    | ok d => rw [value_adjust_of_ok as ((hab c).trans hb), value_adjust_of_ok bs hb, ih]
    | error f => rw [value_adjust_of_error as ((hab c).trans hb), value_adjust_of_error bs hb]

theorem ControlKind.sets_wholeCall (k : ControlKind) (value : ℤ) (short : Bool) :
    (k.wholeCall value short).adjustment.Sets k.adjuster (k.wholeCall value false).amount := by
  refine ⟨?_, rfl, rfl⟩
  show Adjuster.ofName? (String.ofList (k.callName short).toList) = _
  rw [String.ofList_toList, k.ofName?_callName short]

/-! ### The two texts of a panel -/

namespace Panel

theorem value_adjust_calls (p : Panel) (short : Bool) (c : Color) :
    (adjust c ((p.calls short).map WholeCall.adjustment)).value
      = (adjust c ((p.calls false).map WholeCall.adjustment)).value := by
  refine value_adjust_congr ?_ c
  simp only [calls, List.map_map, List.forall₂_map_left_iff, List.forall₂_map_right_iff]
  refine List.forall₂_same.mpr fun k _ c => ?_
  exact (k.sets_wholeCall _ short).apply_eq (k.sets_wholeCall _ false) _ _

variable {text base : String} {s : Swatch} {f : Format}

/-- What is answered for a color in one of its forms: an answer of which the names are no part, or
a fault if the form has alpha digits. -/
theorem value_standard_rendering (hs : Swatch.read text = .ok s) (hf : s.rendering? f = some base)
    (p : Panel) :
    (f.isAlphaHex = true → ∀ short,
      (Evaluator.standard (wrap base (p.adjustmentsText short))).value
        = .error (.unsupportedBase base)) ∧
    (f.isAlphaHex = false → ∃ d : Color, Color.read d.rgbText = .ok (d.shown, .rgb) ∧ ∀ short,
      (Evaluator.standard (wrap base (p.adjustmentsText short))).value = .ok d.rgbText) := by
  have hrange := Swatch.inRange_of_read hs
  have hbase : IsBase base.toList := isBase_render? hrange.alpha.isNumber.isNaN hf
  obtain ⟨c, hc⟩ := Color.exists_read_render? hrange hf
  constructor
  · intro ha short
    have hread := read_wrap hbase valid_of_mem_calls (p.toList_adjustmentsText short)
    have hliteral : evaluateLiteral base = .error (.unsupportedBase base) := by
      rw [evaluateLiteral, hc]
      exact if_pos ha
    unfold Evaluator.standard
    rw [hread]
    simp only [Logged.value_bind, Logged.value_pure, evaluate, hliteral, adjustResult]
    rfl
  · intro ha
    obtain ⟨d, hd, hback⟩ := standard_wrap hbase hc ha valid_of_mem_calls p.steady_of_mem_calls
      (p.toList_adjustmentsText false)
    refine ⟨d, hback, fun short => ?_⟩
    rw [← hd, value_standard_wrap hbase hc ha valid_of_mem_calls (p.toList_adjustmentsText short),
      value_standard_wrap hbase hc ha valid_of_mem_calls (p.toList_adjustmentsText false),
      p.value_adjust_calls short]

/-- **Names and letters mean the same.** Behind the display text or the `rgb` text of a color, the
names of a panel and its letters have one result. It is a fault for a display text with alpha
digits, and otherwise a text that is read back. -/
theorem value_standard_names (hs : Swatch.read text = .ok s)
    (hb : base = s.display ∨ base = s.rgbText) (p : Panel) :
    (Evaluator.standard (wrap base (p.adjustmentsText false))).value
        = (Evaluator.standard (wrap base (p.adjustmentsText true))).value ∧
      (base = s.display → s.format.isAlphaHex = true → ∀ short,
        (Evaluator.standard (wrap base (p.adjustmentsText short))).value
          = .error (.unsupportedBase base)) ∧
      ((base = s.display → s.format.isAlphaHex = false) →
        ∃ d : Color, Color.read d.rgbText = .ok (d.shown, .rgb) ∧ ∀ short,
          (Evaluator.standard (wrap base (p.adjustmentsText short))).value = .ok d.rgbText) := by
  have hdisplay : s.rendering? s.format = some s.display := Swatch.rendering?_format hs
  have hrgb : s.rendering? .rgb = some s.rgbText := rfl
  have hrefused : base = s.display → s.format.isAlphaHex = true → ∀ short,
      (Evaluator.standard (wrap base (p.adjustmentsText short))).value
        = .error (.unsupportedBase base) := by
    rintro rfl
    exact (value_standard_rendering hs hdisplay p).1
  have hanswered : (base = s.display → s.format.isAlphaHex = false) →
      ∃ d : Color, Color.read d.rgbText = .ok (d.shown, .rgb) ∧ ∀ short,
        (Evaluator.standard (wrap base (p.adjustmentsText short))).value = .ok d.rgbText := by
    intro hsupported
    rcases hb with rfl | rfl
    · exact (value_standard_rendering hs hdisplay p).2 (hsupported rfl)
    · exact (value_standard_rendering hs hrgb p).2 rfl
  refine ⟨?_, hrefused, hanswered⟩
  by_cases h : base = s.display ∧ s.format.isAlphaHex = true
  · rw [hrefused h.1 h.2 false, hrefused h.1 h.2 true]
  · obtain ⟨d, -, hd⟩ := hanswered fun hbase => Bool.eq_false_iff.mpr fun ha => h ⟨hbase, ha⟩
    rw [hd false, hd true]

/-- The ends of the range under both names. -/
theorem value_standard_names_extremes :
    (Evaluator.standard "color(rgba(255, 0, 0, 0.5) alpha(-2147483648%) hue(2147483647))").value
      = (Evaluator.standard "color(rgba(255, 0, 0, 0.5) a(-2147483648%) h(2147483647))").value := by
  have hread : Swatch.read "#ff000080"
      = .ok ⟨"#ff000080", .hex8, .ofRgb ⟨255, 0, 0⟩ (Color.alphaOfByte 128)⟩ := by decide +kernel
  have hrgb : Swatch.rgbText ⟨"#ff000080", .hex8, .ofRgb ⟨255, 0, 0⟩ (Color.alphaOfByte 128)⟩
      = "rgba(255, 0, 0, 0.5)" := by decide +kernel
  have hlong : wrap "rgba(255, 0, 0, 0.5)" (extreme.adjustmentsText false)
      = "color(rgba(255, 0, 0, 0.5) alpha(-2147483648%) hue(2147483647))" := by decide
  have hshort : wrap "rgba(255, 0, 0, 0.5)" (extreme.adjustmentsText true)
      = "color(rgba(255, 0, 0, 0.5) a(-2147483648%) h(2147483647))" := by decide
  rw [← hlong, ← hshort]
  exact (value_standard_names hread (.inr hrgb.symm) extreme).1

end Panel

end CssColor
