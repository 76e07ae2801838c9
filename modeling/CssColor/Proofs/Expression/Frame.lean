import CssColor.Proofs.Expression.Alpha

/-! # What adjustments leave as it is

Adjustments of alpha keep red, green and blue (`Made.of_alpha`) and the others keep alpha
(`Made.alpha_of_not_mem`), so along a row without any of alpha it stays what it was, by induction on
the row from its last adjustment (`alpha_of_forall_not_mem`). It stays as a number, since it may
become the other zero, and a mixture by `nan` loses it (`Adjustment.Indefinite`).

By a finite amount an adjustment of alpha leads from an alpha in range to another, and from one that
is lost back into the range if it has no modifier (`Made.alpha_of_isFinite`). With a modifier it has
`nan` to start from, so a finite amount alone does not put alpha in range
(`evaluate_alpha_lost`). -/

namespace CssColor

open Number Number.Scalar Number.Binary64 Expression

/-! ### Adjustments of alpha -/

theorem Amount.isFinite_fraction {x : Amount Binary64} (hx : x.value.IsNumber)
    (hf : x.value.isFinite = true) : x.fraction.isFinite = true := by
  have hpercent : (x.value / 100).isFinite = true := by
    have h100 : (100 : Binary64).isFinite = true := isFinite_ofNat (n := 100) (by norm_num)
    have hvalue : (100 : Binary64).value = 100 := value_literal (by norm_num)
    have hne : (100 : Binary64).value ≠ 0 := by rw [hvalue]; norm_num
    -- the quotient lies between zero and the amount, on either side of zero
    rcases le_total 0 x.value.value with h0 | h0
    · refine (within_div (a := 0) (b := x.value.value) hf h100 hne isDouble_zero hx.isDouble
        ?_ ?_).isFinite
      · rw [hvalue]; positivity
      · rw [hvalue]; exact div_le_self h0 (by norm_num)
    · refine (within_div (a := x.value.value) (b := 0) hf h100 hne hx.isDouble isDouble_zero
        ?_ ?_).isFinite
      · rw [hvalue]; linarith
      · rw [hvalue]; exact div_nonpos_of_nonpos_of_nonneg h0 (by norm_num)
  unfold fraction
  split
  · exact hpercent
  · exact hf
  · exact hf

namespace Adjustment

/-- Whether the amount, where there is one, is a finite double. -/
def IsFinite (a : Adjustment Binary64) : Prop :=
  ∀ x, a.amount = some x → x.value.IsNumber ∧ x.value.isFinite = true

variable {luminance : Color → Binary64} {a : Adjustment Binary64} {c d : Color}

theorem IsFinite.isDouble (h : a.IsFinite) : a.IsDouble := fun x hx => (h x hx).1.isDouble

theorem IsFinite.not_hasNaN (h : a.IsFinite) : ¬a.HasNaN := by
  rintro ⟨x, hx, hv⟩
  have hfinite := (h x hx).2
  rw [hv] at hfinite
  cases hfinite

/-- A finite amount does not overflow. -/
theorem IsFinite.not_overflows (h : a.IsFinite) : ¬a.Overflows := by
  rintro ⟨-, -, x, hx, hinf⟩
  obtain ⟨hnumber, hfinite⟩ := h x hx
  rw [isInfinite_of_isFinite (Amount.isFinite_fraction hnumber hfinite)] at hinf
  cases hinf

theorem IsFinite.not_loses (h : a.IsFinite) (alpha : Binary64) : ¬a.Loses alpha := by
  rintro (⟨-, hnan⟩ | ⟨hover, -⟩)
  · exact h.not_hasNaN hnan
  · exact h.not_overflows hover

theorem IsFinite.restores_iff (h : a.IsFinite) (hn : a.name ∈ Adjuster.alphaNames) :
    a.Restores ↔ a.modifier = none :=
  ⟨fun hr => hr.1.2, fun hm => ⟨⟨Adjuster.mem_alphaNames.mp hn, hm⟩, h.not_hasNaN⟩⟩

/-- **An adjustment of alpha touches alpha only.** -/
theorem Made.of_alpha (h : a.Made luminance c d) (hn : a.name ∈ Adjuster.alphaNames) :
    d.red = c.red ∧ d.green = c.green ∧ d.blue = c.blue := by
  have hname := Adjuster.mem_alphaNames.mp hn
  cases h with
  | channel hn' hx =>
    obtain rfl := Adjuster.channel.inj (Option.some.inj (hname.symm.trans hn'))
    exact ⟨rfl, rfl, rfl⟩
  | tint hn' | shade hn' | contrast hn' => cases hname.symm.trans hn'

/-- **A finite adjustment of alpha** puts it in range, unless it modifies one that is lost. -/
theorem Made.alpha_of_isFinite (h : a.Made luminance c d) (hn : a.name ∈ Adjuster.alphaNames)
    (hf : a.IsFinite) :
    (Within 0 1 c.alpha → Within 0 1 d.alpha) ∧
      (c.alpha = nan → (a.modifier = none ∧ Within 0 1 d.alpha) ∨
        (a.modifier ≠ none ∧ d.alpha = nan)) := by
  refine ⟨fun hc => ?_, fun hc => ?_⟩
  · rcases h.alpha_of_within hf.isDouble hc with ⟨hloses, -⟩ | ⟨-, hd⟩
    · exact absurd hloses (hf.not_loses _)
    · exact hd
  · have hkept := h.alpha_of_nan hf.isDouble hc
    rwa [hf.restores_iff hn] at hkept

end Adjustment

/-! ### A row of adjustments -/

section

variable {c d : Color} {as : List (Adjustment Binary64)}

/-- **A row without adjustments of alpha** keeps it, or loses it to a mixture by `nan`. -/
theorem alpha_of_forall_not_mem (hn : ∀ a ∈ as, a.name ∉ Adjuster.alphaNames)
    (hc : Within 0 1 c.alpha) (h : (adjust c as).value = .ok d) :
    ((∀ a ∈ as, ¬a.Indefinite) ∧ Alike d.alpha c.alpha) ∨
      ((∃ a ∈ as, a.Indefinite) ∧ d.alpha = nan) := by
  induction as using List.reverseRecOn generalizing d with
  | nil =>
    obtain rfl := Except.ok.inj h
    exact Or.inl ⟨by simp, .refl _⟩
  | append_singleton as a ih =>
    obtain ⟨b, hb, ha⟩ := value_adjust_concat h
    have hna : a.name ∉ Adjuster.alphaNames := hn a (by simp)
    have hmade := Adjustment.made_of_apply ha
    rcases ih (fun e he => hn e (List.mem_append_left _ he)) hb with
      ⟨hall, hlike⟩ | ⟨⟨e, he, hind⟩, hnan⟩
    · rcases hmade.alpha_of_not_mem hna (Or.inl (hlike.within hc)) with ⟨hdef, hd⟩ | ⟨hind, hd⟩
      · refine Or.inl ⟨fun e he => ?_, hd.trans hlike⟩
        rcases List.mem_append.mp he with he | he
        · exact hall e he
        · rwa [List.mem_singleton.mp he]
      · exact Or.inr ⟨⟨a, by simp, hind⟩, hd⟩
    · -- a lost alpha is no zero, so what is alike to it is lost as well
      refine Or.inr ⟨⟨e, List.mem_append_left _ he, hind⟩, ?_⟩
      rcases hmade.alpha_of_not_mem hna (Or.inr hnan) with ⟨-, heq | ⟨-, hzero⟩⟩ | ⟨-, hd⟩
      · exact heq.trans hnan
      · rw [hnan] at hzero
        cases hzero
      · exact hd

/-- A finite adjustment of alpha behind a row: alpha is in range, unless the row lost it and the
adjustment has a modifier. -/
theorem alpha_of_isFinite {b : Color} {a : Adjustment Binary64} (hn : Doubles as)
    (hname : a.name ∈ Adjuster.alphaNames) (hf : a.IsFinite) (hc : Within 0 1 c.alpha)
    (hb : (adjust c as).value = .ok b) (h : a.Made Color.luminance b d) :
    ((AlphaLost c as ∧ a.modifier ≠ none) ∧ d.alpha = nan) ∨
      (¬(AlphaLost c as ∧ a.modifier ≠ none) ∧ Within 0 1 d.alpha) := by
  obtain ⟨hrange, hlost⟩ := h.alpha_of_isFinite hname hf
  rcases alpha_of_doubles hn hc hb with ⟨hl, hnan⟩ | ⟨hl, hw⟩
  · rcases hlost hnan with ⟨hm, hd⟩ | ⟨hm, hd⟩
    · exact Or.inr ⟨fun hboth => hboth.2 hm, hd⟩
    · exact Or.inl ⟨⟨hl, hm⟩, hd⟩
  · exact Or.inr ⟨fun hboth => hl hboth.1, hrange hw⟩

end

/-! ### An expression -/

/-- **Only adjustments of alpha touch alpha,** and they touch nothing else. Where an expression of
any depth evaluates, its color has the alpha of the innermost base if none of its adjustments is one
of alpha, whatever the others and their numbers are, and `nan` if one of them mixes by `nan`. Each
one of alpha keeps red, green and blue as they are before it. By a finite amount it leads to an
alpha in range, except that alpha was lost before, to an infinite factor or to a `nan`, and that it
has a modifier: then alpha is `nan` as before. The amounts of a text are doubles and none of them is
`nan`. -/
theorem evaluate_alpha {e : Expression Binary64} {d : Color} (h : e.evaluate.value = .ok d) :
    ∃ c, evaluateLiteral e.innermost = .ok c ∧ Within 0 1 c.alpha ∧
      ((∀ a ∈ e.chain, a.name ∉ Adjuster.alphaNames) →
        ((∀ a ∈ e.chain, ¬a.Indefinite) ∧ Alike d.alpha c.alpha) ∨
          ((∃ a ∈ e.chain, a.Indefinite) ∧ d.alpha = nan)) ∧
      (∀ before a after, e.chain = before ++ a :: after → a.name ∈ Adjuster.alphaNames →
        ∃ b b', (adjust c before).value = .ok b ∧ a.apply Color.luminance b = .ok b' ∧
          (adjust b' after).value = .ok d ∧
          b'.red = b.red ∧ b'.green = b.green ∧ b'.blue = b.blue ∧
          (Doubles before → a.IsFinite →
            ((AlphaLost c before ∧ a.modifier ≠ none) ∧ b'.alpha = nan) ∨
              (¬(AlphaLost c before ∧ a.modifier ≠ none) ∧ Within 0 1 b'.alpha))) ∧
      ∀ text, Expression.read text = .ok e → Doubles e.chain ∧ ∀ a ∈ e.chain, ¬a.HasNaN := by
  obtain ⟨c, hc, hd⟩ := value_evaluate_eq_ok_iff.mp h
  have hrange := within_alpha_of_evaluateLiteral hc
  refine ⟨c, hc, hrange, fun hn => alpha_of_forall_not_mem hn hrange hd, ?_, ?_⟩
  · intro before a after hsplit hn
    rw [hsplit] at hd
    obtain ⟨b, hb, hrest⟩ := value_adjust_append hd
    obtain ⟨b', ha, hafter⟩ := value_adjust_cons hrest
    have hmade := Adjustment.made_of_apply ha
    obtain ⟨hred, hgreen, hblue⟩ := hmade.of_alpha hn
    exact ⟨b, b', hb, ha, hafter, hred, hgreen, hblue,
      fun hdoubles hf => alpha_of_isFinite hdoubles hn hf hrange hb hmade⟩
  · intro text htext
    have hnumeric : Numeric e.chain := (read_eq_ok_iff.mp htext).1.numeric
    exact ⟨hnumeric.doubles, fun a ha => hnumeric.not_hasNaN ha⟩

/-- A color that is turned by 120 degrees and darkened. -/
def darkened : Expression Binary64 :=
  .literal "rgba(255, 0, 0, 0.5)" [⟨"hue", some .add, some ⟨120, .degrees⟩⟩,
    ⟨"shade", none, some ⟨50, .percent⟩⟩]

/-- The same color with half of its alpha. -/
def faded : Expression Binary64 :=
  .nested darkened [⟨"a", some .multiply, some ⟨50, .percent⟩⟩]

/-- The alpha of the base is that of the darkened color, and the faded one has its channels. -/
theorem evaluate_alpha_faded :
    (∃ c d, evaluateLiteral "rgba(255, 0, 0, 0.5)" = .ok c ∧ darkened.evaluate.value = .ok d ∧
      Alike d.alpha c.alpha) ∧
    ∃ b d, darkened.evaluate.value = .ok b ∧ faded.evaluate.value = .ok d ∧
      d.red = b.red ∧ d.green = b.green ∧ d.blue = b.blue ∧ Within 0 1 d.alpha := by
  have hdarkened : darkened.evaluate.value = .ok ⟨0, finite (255 / 2), 0, finite (1 / 2)⟩ := by
    decide +kernel
  have hfaded : faded.evaluate.value = .ok ⟨0, finite (255 / 2), 0, finite (1 / 4)⟩ := by
    decide +kernel
  constructor
  · obtain ⟨c, hc, -, hkeep, -⟩ := evaluate_alpha hdarkened
    rcases hkeep (by decide) with ⟨-, hlike⟩ | ⟨-, hnan⟩
    · exact ⟨c, _, hc, hdarkened, hlike⟩
    · cases hnan
  · have hnumber {n : ℕ} (hn : n < 2 ^ 53) : (ofNat n : Binary64).IsNumber :=
      (small_ofNat hn).isNumber
    have hdoubles : Doubles darkened.chain := by
      intro a ha x hx
      simp only [darkened, chain, List.mem_cons, List.not_mem_nil, or_false] at ha
      rcases ha with rfl | rfl <;> cases hx
      · exact (hnumber (n := 120) (by norm_num)).isDouble
      · exact (hnumber (n := 50) (by norm_num)).isDouble
    have hhalf : Adjustment.IsFinite ⟨"a", some .multiply, some ⟨50, .percent⟩⟩ := by
      intro x hx
      cases hx
      exact ⟨hnumber (n := 50) (by norm_num), isFinite_ofNat (by norm_num)⟩
    obtain ⟨c, hc, -, -, hsteps, -⟩ := evaluate_alpha hfaded
    obtain ⟨b, b', hb, -, hlast, hred, hgreen, hblue, halpha⟩ :=
      hsteps darkened.chain _ [] rfl (by decide)
    obtain rfl := Except.ok.inj hlast
    refine ⟨b, _, value_evaluate_eq_ok_iff.mpr ⟨c, hc, hb⟩, hfaded, hred, hgreen, hblue, ?_⟩
    rcases halpha hdoubles hhalf with ⟨-, hnan⟩ | ⟨-, hw⟩
    · cases hnan
    · exact hw

/-! ### An alpha that is lost -/

/-- An infinite factor for an alpha of zero. -/
def hugeProduct : Adjustment Binary64 := ⟨"alpha", some .multiply, some ⟨infinity false, .number⟩⟩

/-- A tenth more of alpha. -/
def tenthMore : Adjustment Binary64 := ⟨"alpha", some .add, some ⟨10, .percent⟩⟩

/-- The text of a color with an alpha of zero and both adjustments. -/
def lostText : String :=
  transparentText (" alpha(* ".toList ++ (hugeDigits ++ ") alpha(+ 10%)".toList))

theorem read_lostText :
    Expression.read lostText = .ok (.literal "rgba(1, 2, 3, 0)" [hugeProduct, tenthMore]) := by
  have hspace : IsBlanks [' '] := by simp [IsBlanks, Text.isBlank]
  have hten : AmountText ⟨10, .percent⟩ "10%".toList := by
    have hdigits : IsRun Char.isDigit ['1', '0'] := ⟨by decide, List.all_eq_true.mp (by decide)⟩
    have hvalue : decimalValue ['1', '0'] [] = (10 : ℕ) := by
      simp [decimalValue, Decimal.natOfDigits]
    have h := AmountText.intro .absent hdigits .absent .percent
    rw [hvalue] at h
    exact h
  have hcalls := AdjustmentsText.cons hspace (adjustmentText_alpha .multiply amountText_hugeDigits)
    (.cons hspace (adjustmentText_alpha .add hten) .nil)
  have htext : " alpha(* ".toList ++ (hugeDigits ++ ") alpha(+ 10%)".toList)
      = [' '] ++ (("alpha".toList ++ '(' :: '*' :: ' ' :: (hugeDigits ++ [')'])) ++
        ([' '] ++ (("alpha".toList ++ '(' :: '+' :: ' ' :: ("10%".toList ++ [')'])) ++ []))) := by
    simp
  rw [lostText, htext]
  exact read_transparentText hcalls

/-- **A finite amount does not put alpha in range** where it was lost, and a mixture by `nan` does
not keep it. -/
theorem evaluate_alpha_lost :
    (∃ e, Expression.read lostText = .ok e ∧ e.chain = [hugeProduct, tenthMore] ∧
      tenthMore.name ∈ Adjuster.alphaNames ∧ tenthMore.IsFinite ∧
      (Evaluator.standard lostText).value = .ok "rgba(1, 2, 3, NaN)" ∧
      ∃ d, e.evaluate.value = .ok d ∧ ¬Within 0 1 d.alpha) ∧
    ∃ (e : Expression Binary64) (c d : Color), (∀ a ∈ e.chain, a.name ∉ Adjuster.alphaNames) ∧
      evaluateLiteral e.innermost = .ok c ∧ e.evaluate.value = .ok d ∧ ¬Alike d.alpha c.alpha := by
  have hnan : ¬Within 0 1 nan := fun h => nomatch h.isFinite
  constructor
  · have hbase : evaluateLiteral "rgba(1, 2, 3, 0)" = .ok ⟨1, 2, 3, 0⟩ := by decide +kernel
    have hlost : (adjust ⟨1, 2, 3, 0⟩ [hugeProduct, tenthMore]).value = .ok ⟨1, 2, 3, nan⟩ := by
      decide +kernel
    refine ⟨_, read_lostText, rfl, by decide, ?_, ?_, ⟨1, 2, 3, nan⟩, ?_, hnan⟩
    · intro x hx
      cases hx
      exact ⟨(small_ofNat (by norm_num)).isNumber, isFinite_ofNat (by norm_num)⟩
    · exact value_standard_eq_ok_iff.mpr ⟨_, _, _, read_lostText, hbase, hlost, by decide +kernel⟩
    · exact value_evaluate_eq_ok_iff.mpr ⟨_, hbase, hlost⟩
  · refine ⟨.literal "red" [⟨"tint", none, some ⟨nan, .percent⟩⟩], ⟨255, 0, 0, 1⟩,
      ⟨nan, nan, nan, nan⟩, by decide, by decide +kernel, by decide +kernel, ?_⟩
    rintro (h | ⟨h, -⟩)
    · exact absurd h (by decide +kernel)
    · cases h

end CssColor
