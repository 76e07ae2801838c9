import CssColor.Proofs.Color.AnyCase
import CssColor.Proofs.Expression.Chain

/-! # Expression texts in either case

Each part of the grammar takes a text in any case, and stands for the same: a unit is a word, the
name of an adjuster is taken in lower case, and the rest of an adjustment has no letters. Only the
base text of an expression keeps its case, and that of a color does not matter. So a text in another
case is derived as an expression with the same row of adjustments and the base text in another case
(`Derives.recased`), which evaluates to the same color (`agree_evaluate`). -/

namespace CssColor

open Number Number.Binary64 Number.Decimal Text

namespace Expression

/-! ### Classes of characters -/

theorem caseBlind_isBlank : CaseBlind isBlank := caseBlind_of_ascii (by decide)

theorem caseBlind_isNameChar : CaseBlind isNameChar := caseBlind_of_ascii (by decide)

theorem caseBlind_isArgumentChar : CaseBlind isArgumentChar := caseBlind_of_ascii (by decide)

theorem isAlpha_of_isDigit {c : Char} (h : c.isDigit = true) : c.isAlpha = false :=
  forall_ascii (P := fun c => c.isDigit = true → c.isAlpha = false) (by decide)
    (toNat_lt_of_isDigit h) h

theorem isAlpha_of_isBlank {c : Char} (h : isBlank c = true) : c.isAlpha = false := by
  rcases eq_of_isBlank h with rfl | rfl | rfl | rfl <;> decide

/-! ### The parts of an expression -/

section

variable {v w : List Char}

theorem IsBlanks.recased (h : IsBlanks w) (hv : Recased v w) : IsBlanks v :=
  hv.forall_mem caseBlind_isBlank h

theorem IsRun.recased {p : Char → Bool} (hp : CaseBlind p) (h : IsRun p w) (hv : Recased v w) :
    IsRun p v := by
  refine ⟨?_, hv.forall_mem hp h.2⟩
  rintro rfl
  exact h.1 hv.symm.eq_nil

theorem IsWord.recased {word : List Char} (h : IsWord word w) (hv : Recased v w) : IsWord word v :=
  hv.trans h

/-! Signs, digits, points and modifiers have no letters. -/

theorem SignText.isAlpha {negative : Bool} (h : SignText negative w) :
    ∀ c ∈ w, c.isAlpha = false := by
  cases h with
  | absent => simp
  | plus | minus => exact List.forall_mem_singleton.mpr (by decide)

theorem FractionText.isAlpha {fraction : List Char} (h : FractionText fraction w) :
    ∀ c ∈ w, c.isAlpha = false := by
  cases h with
  | absent => simp
  | pointed hds =>
    intro c hc
    rcases List.mem_cons.mp hc with rfl | hc
    · decide
    · exact isAlpha_of_isDigit (hds.2 c hc)

theorem ModifierText.isAlpha {m : Modifier} (h : ModifierText m w) :
    ∀ c ∈ w, c.isAlpha = false := by
  obtain ⟨hb⟩ := h
  have hsign : m.sign.isAlpha = false := by cases m <;> decide
  simpa using ⟨hsign, isAlpha_of_isBlank hb⟩

theorem UnitText.recased {u : AmountUnit} (h : UnitText u w) (hv : Recased v w) :
    UnitText u v := by
  cases h with
  | number =>
    obtain rfl := hv.eq_nil
    exact .number
  | percent =>
    obtain rfl := hv.eq_singleton (by decide)
    exact .percent
  | degrees hw => exact .degrees (hw.recased hv)

theorem AmountText.recased {a : Amount Binary64} (h : AmountText a w) (hv : Recased v w) :
    AmountText a v := by
  obtain ⟨hs, hw, hf, hu⟩ := h
  obtain ⟨sign, _, rfl, hsign, hunsigned⟩ := hv.exists_append
  obtain ⟨whole, _, rfl, hwhole, hrest⟩ := hunsigned.exists_append
  obtain ⟨pointed, measure, rfl, hpointed, hmeasure⟩ := hrest.exists_append
  obtain rfl := hsign.eq_of_forall hs.isAlpha
  obtain rfl := hwhole.eq_of_forall fun c hc => isAlpha_of_isDigit (hw.2 c hc)
  obtain rfl := hpointed.eq_of_forall hf.isAlpha
  exact .intro hs hw hf (hu.recased hmeasure)

theorem OptionalText.recased {α : Type} {P : α → List Char → Prop} {a : Option α}
    (h : OptionalText P a w) (hP : ∀ {a v w}, P a w → Recased v w → P a v) (hv : Recased v w) :
    OptionalText P a v := by
  cases h with
  | absent =>
    obtain rfl := hv.eq_nil
    exact .absent
  | present h => exact .present (hP h hv)

theorem ModifierText.recased {m : Modifier} (h : ModifierText m w) (hv : Recased v w) :
    ModifierText m v := by
  obtain rfl := hv.eq_of_forall h.isAlpha
  exact h

/-- The name of an adjuster is taken in lower case. -/
theorem AdjustmentText.recased {a : Adjustment Binary64} (h : AdjustmentText a w)
    (hv : Recased v w) : AdjustmentText a v := by
  obtain ⟨hn, hb, hm, hc, ha, hd⟩ := h
  obtain ⟨name, _, rfl, hname, hcall⟩ := hv.exists_append
  obtain ⟨_, rfl, hinside⟩ := hcall.exists_cons (by decide)
  obtain ⟨before, _, rfl, hbefore, hinside⟩ := hinside.exists_append
  obtain ⟨sign, _, rfl, hsign, hinside⟩ := hinside.exists_append
  obtain ⟨between, _, rfl, hbetween, hinside⟩ := hinside.exists_append
  obtain ⟨number, _, rfl, hnumber, hinside⟩ := hinside.exists_append
  obtain ⟨after, close, rfl, hafter, hclose⟩ := hinside.exists_append
  obtain rfl := hclose.eq_singleton (by decide)
  rw [← hname.lower_eq]
  exact .intro (hn.recased caseBlind_isNameChar hname) (hb.recased hbefore)
    (hm.recased ModifierText.recased hsign) (hc.recased hbetween)
    (ha.recased AmountText.recased hnumber) (hd.recased hafter)

theorem AdjustmentsText.recased {as : List (Adjustment Binary64)} (h : AdjustmentsText as w)
    (hv : Recased v w) : AdjustmentsText as v := by
  induction h generalizing v with
  | nil =>
    obtain rfl := hv.eq_nil
    exact .nil
  | cons hb ha _ ih =>
    obtain ⟨b, _, rfl, hblanks, hrest⟩ := hv.exists_append
    obtain ⟨t, ts, rfl, ht, hts⟩ := hrest.exists_append
    exact .cons (hb.recased hblanks) (ha.recased ht) (ih hts)

theorem TailText.recased {as : List (Adjustment Binary64)} (h : TailText as w)
    (hv : Recased v w) : TailText as v := by
  obtain ⟨ha, hb⟩ := h
  obtain ⟨ts, _, rfl, hts, hend⟩ := hv.exists_append
  obtain ⟨b, close, rfl, hblanks, hclose⟩ := hend.exists_append
  obtain rfl := hclose.eq_singleton (by decide)
  exact .intro (ha.recased hts) (hb.recased hblanks)

theorem OpeningText.recased (h : OpeningText w) (hv : Recased v w) : OpeningText v := by
  obtain ⟨hw, hb⟩ := h
  obtain ⟨word, _, rfl, hword, hopened⟩ := hv.exists_append
  obtain ⟨b, rfl, hblanks⟩ := hopened.exists_cons (by decide)
  exact .intro (hw.recased hword) (hb.recased hblanks)

theorem FunctionalText.recased (h : FunctionalText w) (hv : Recased v w) : FunctionalText v := by
  obtain ⟨hn, hc⟩ := h
  obtain ⟨name, _, rfl, hname, hcall⟩ := hv.exists_append
  obtain ⟨_, rfl, hinside⟩ := hcall.exists_cons (by decide)
  obtain ⟨content, close, rfl, hcontent, hclose⟩ := hinside.exists_append
  obtain rfl := hclose.eq_singleton (by decide)
  exact .intro (hn.recased caseBlind_isNameChar hname)
    (hcontent.forall_mem caseBlind_isArgumentChar hc)

end

/-! ### Expressions -/

/-- The same expression, but for the case of letters of ASCII in its base text. -/
structure Recased (e e' : Expression Binary64) : Prop where
  innermost : Text.Recased e.innermost.toList e'.innermost.toList
  chain : e.chain = e'.chain

theorem recased_literal {v w : List Char} (h : Text.Recased v w)
    (as : List (Adjustment Binary64)) :
    Recased (literal (String.ofList v) as) (literal (String.ofList w) as) := by
  refine ⟨?_, rfl⟩
  rw [innermost, innermost, String.toList_ofList, String.toList_ofList]
  exact h

/-- **A text in another case** is derived as the same expression, but for the case of its base. -/
theorem Derives.recased {e : Expression Binary64} {v w : List Char} (h : Derives e w)
    (hv : Text.Recased v w) : ∃ e', Derives e' v ∧ Recased e' e := by
  induction h generalizing v with
  | @nested base as o t s ho ht hs ih =>
    obtain ⟨o', _, rfl, ho', hopened⟩ := hv.exists_append
    obtain ⟨t', s', rfl, ht', hs'⟩ := hopened.exists_append
    obtain ⟨base', hbase, hinner⟩ := ih ht'
    exact ⟨.nested base' as, .nested (ho.recased ho') hbase (hs.recased hs'), hinner.innermost,
      congrArg (· ++ as) hinner.chain⟩
  | @functional as o t s ho ht hs =>
    obtain ⟨o', _, rfl, ho', hopened⟩ := hv.exists_append
    obtain ⟨t', s', rfl, ht', hs'⟩ := hopened.exists_append
    exact ⟨_, .functional (ho.recased ho') (ht.recased ht') (hs.recased hs'),
      recased_literal ht' as⟩
  | @token as o t s ho ht hmax hs =>
    obtain ⟨o', _, rfl, ho', hopened⟩ := hv.exists_append
    obtain ⟨t', s', rfl, ht', hs'⟩ := hopened.exists_append
    have hmax' := hs'.forall_head? caseBlind_isTokenChar hmax
    exact ⟨_, .token (ho.recased ho') (ht.recased caseBlind_isTokenChar ht') hmax'
      (hs.recased hs'), recased_literal ht' as⟩

theorem inOrder_iff (e : Expression Binary64) :
    e.InOrder ↔ ¬∃ e', Derives e' e.innermost.toList := by
  induction e with
  | literal base as => exact Iff.rfl
  | nested base as ih => exact ih

/-- The order of the alternatives does not depend on the case. -/
theorem InOrder.recased {e e' : Expression Binary64} (h : e.InOrder) (he : Recased e' e) :
    e'.InOrder := by
  rw [inOrder_iff] at h ⊢
  rintro ⟨b, hb⟩
  obtain ⟨b', hb', -⟩ := hb.recased he.innermost.symm
  exact h ⟨b', hb'⟩

theorem exists_read_of_respelled {s t : String} (h : Respelled s.toList t.toList)
    {e : Expression Binary64} (ht : read t = .ok e) :
    ∃ e', read s = .ok e' ∧ Recased e' e := by
  obtain ⟨hd, horder⟩ := read_eq_ok_iff.mp ht
  obtain ⟨e', hd', he⟩ := hd.recased (respelled_iff.mp h)
  exact ⟨e', read_eq_ok_iff.mpr ⟨hd', horder.recased he⟩, he⟩

theorem agree_read {s t : String} (h : Respelled s.toList t.toList) :
    Agree Recased (read s) (read t) := by
  cases ht : read t with
  | ok e =>
    obtain ⟨e', hs, he⟩ := exists_read_of_respelled h ht
    rw [hs]
    exact .ok he
  | error f =>
    cases hs : read s with
    | error g => exact .error g f
    | ok e =>
      obtain ⟨e', ht', -⟩ := exists_read_of_respelled h.symm hs
      rw [ht'] at ht
      cases ht

/-! ### Evaluation -/

theorem agree_evaluateLiteral {s t : String} (h : Respelled s.toList t.toList) :
    Agree Eq (evaluateLiteral s) (evaluateLiteral t) := by
  have hcolor := Color.agree_read h
  unfold evaluateLiteral
  generalize Color.read s = x, Color.read t = y at hcolor
  cases hcolor with
  | error f g => exact .error _ _
  | ok hr =>
    obtain rfl := hr
    dsimp only
    split_ifs
    · exact .error _ _
    · exact .refl _

/-- The same adjustments of bases that agree agree. -/
theorem agree_adjustResult {x y : Except Fault Color} (h : Agree Eq x y)
    (as : List (Adjustment Binary64)) :
    Agree Eq (adjustResult x as).value (adjustResult y as).value := by
  cases h with
  | error f g => exact .error f g
  | ok h =>
    obtain rfl := h
    exact .refl _

theorem agree_evaluate {e e' : Expression Binary64} (h : Recased e e') :
    Agree Eq e.evaluate.value e'.evaluate.value := by
  rw [evaluate_eq, evaluate_eq, h.chain]
  exact agree_adjustResult (agree_evaluateLiteral h.innermost.respelled) _

end Expression

theorem Evaluator.agree_standard {s t : String} (h : Respelled s.toList t.toList) :
    Agree Eq (standard s).value (standard t).value := by
  have hread := Expression.agree_read h
  unfold standard
  generalize Expression.read s = x, Expression.read t = y at hread
  cases hread with
  | error f g => exact .error f g
  | ok he => exact (Expression.agree_evaluate he).map fun _ _ => congrArg Color.rgbText

/-- **Letter case and white space around a text do not matter.** Two texts that differ in the case
of letters of ASCII and in white space around them only are both refused, or are both read as the
same color in the same form, with the same components, and as swatches that differ in their source
alone; as expressions they are both refused, or both evaluate to the same text. -/
theorem readings_of_respelled {s t : String} (h : Respelled s.toList t.toList) :
    Agree Eq (Color.read s) (Color.read t) ∧ Agree Eq (Components.read s) (Components.read t) ∧
      Agree Swatch.SameButSource (Swatch.read s) (Swatch.read t) ∧
      Agree Eq (Evaluator.standard s).value (Evaluator.standard t).value :=
  ⟨Color.agree_read h, Components.agree_read h, Swatch.agree_read h, Evaluator.agree_standard h⟩

/-- A color text between a space and a no-break space, and an expression behind a tab. -/
theorem readings_of_respelled_pair :
    (Respelled " HSL(120, 50%, 25%)\u00a0".toList "hsl(120, 50%, 25%)".toList ∧
      Agree Eq (Components.read " HSL(120, 50%, 25%)\u00a0")
        (Components.read "hsl(120, 50%, 25%)") ∧
      (Components.read "hsl(120, 50%, 25%)").toOption.map (·.hue) = some 120) ∧
    Respelled "Color(RED Hue(+ 20DEG))".toList "\tcolor(red hue(+ 20deg))".toList ∧
      Agree Eq (Evaluator.standard "Color(RED Hue(+ 20DEG))").value
        (Evaluator.standard "\tcolor(red hue(+ 20deg))").value ∧
      (Evaluator.standard "\tcolor(red hue(+ 20deg))").value = .ok "rgb(255, 85, 0)" := by
  have hcolor : Respelled " HSL(120, 50%, 25%)\u00a0".toList "hsl(120, 50%, 25%)".toList := by
    rw [respelled_iff, Recased]
    decide
  have hexpression :
      Respelled "Color(RED Hue(+ 20DEG))".toList "\tcolor(red hue(+ 20deg))".toList := by
    rw [respelled_iff, Recased]
    decide
  exact ⟨⟨hcolor, (readings_of_respelled hcolor).2.1, by decide +kernel⟩, hexpression,
    (readings_of_respelled hexpression).2.2.2, by decide +kernel⟩

end CssColor
