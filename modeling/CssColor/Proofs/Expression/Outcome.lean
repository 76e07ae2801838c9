import CssColor.Proofs.Color.Opacity
import CssColor.Proofs.Color.Spelling
import CssColor.Proofs.Expression.Chain
import CssColor.Proofs.Expression.Evaluation
import CssColor.Proofs.Expression.Loss
import CssColor.Swatch

/-! # What an evaluation answers with

An answer is a text `rgb(r, g, b)` or `rgba(r, g, b, a)`, with bytes and a decimal from zero to one,
that is read as a color of these bytes (`IsColorText`). The bytes are bytes whatever the channels
have become, so only alpha matters: along a row of adjustments it stays in range or is lost
(`alpha_of_adjust`), and the answer to an expression that loses it is no color text
(`standard_answers`). It takes a factor beyond all doubles to lose it, as one of 310 digits is
(`standard_answers_nan`). -/

namespace CssColor

open Number Number.Scalar Number.Binary64 Text Expression

/-! ### Alpha along a row of adjustments -/

/-- Whether alpha is lost on the way through some adjustments: at one of them it is zero and
multiplied by an infinite factor, and none behind that one replaces it. -/
def LosesAlpha (c : Color) (as : List (Adjustment Binary64)) : Prop :=
  ∃ before a after d, as = before ++ a :: after ∧ (adjust c before).value = .ok d ∧
    d.alpha.isZero = true ∧ a.Overflows ∧ ∀ b ∈ after, ¬b.ReplacesAlpha

/-- Where amounts are numbers, an infinite factor is all that loses alpha, and a plain amount
restores it. -/
theorem losesAlpha_iff {c : Color} {as : List (Adjustment Binary64)} (hn : Numeric as) :
    LosesAlpha c as ↔ AlphaLost c as := by
  constructor
  · rintro ⟨before, a, after, d, rfl, hd, hzero, hover, hafter⟩
    exact ⟨before, a, after, d, rfl, hd, Or.inr ⟨hover, hzero⟩, fun e he hr => hafter e he hr.1⟩
  · rintro ⟨before, a, after, d, rfl, hd, hloses, hafter⟩
    obtain ⟨hover, hzero⟩ := hloses.resolve_left fun hl => hn.not_hasNaN (by simp) hl.2
    refine ⟨before, a, after, d, rfl, hd, hzero, hover, fun e he hr => hafter e he ⟨hr, ?_⟩⟩
    exact hn.not_hasNaN (by simp [he])

/-- **Alpha stays in range** along a row of adjustments by numbers, or it is lost. -/
theorem alpha_of_adjust {c d : Color} {as : List (Adjustment Binary64)} (hn : Numeric as)
    (hc : Within 0 1 c.alpha) (h : (adjust c as).value = .ok d) :
    (LosesAlpha c as ∧ d.alpha = nan) ∨ (¬LosesAlpha c as ∧ Within 0 1 d.alpha) := by
  rw [losesAlpha_iff hn]
  exact alpha_of_doubles hn.doubles hc h

/-! ### The text of an alpha -/

/-- Hundredths are a decimal of the grammar. -/
theorem exists_hundredthsDigits (k : ℕ) : ∃ whole fraction pointed,
    hundredthsDigits k = whole ++ pointed ∧ IsRun Char.isDigit whole ∧
      FractionText fraction pointed ∧ decimalValue whole fraction = k / 100 := by
  have hwhole : IsRun Char.isDigit (Nat.toDigits 10 (k / 100)) :=
    ⟨Nat.toDigits_ne_nil, fun _ => Decimal.isDigit_of_mem_digits⟩
  have ht := isDigit_digitChar (d := k / 10 % 10) (by omega)
  have hh := isDigit_digitChar (d := k % 10) (by omega)
  have htenth : Decimal.natOfDigits [(k / 10 % 10).digitChar] = k / 10 % 10 := by
    have happend := Decimal.natOfDigits_append_digitChar [] (d := k / 10 % 10) (by omega)
    simpa [Decimal.natOfDigits] using happend
  have hboth : Decimal.natOfDigits [(k / 10 % 10).digitChar, (k % 10).digitChar]
      = 10 * (k / 10 % 10) + k % 10 := by
    have happend := Decimal.natOfDigits_append_digitChar [(k / 10 % 10).digitChar] (d := k % 10)
      (by omega)
    rwa [htenth] at happend
  unfold hundredthsDigits
  dsimp only
  split_ifs with h100 h10
  · have hk : (k : ℚ) = 100 * (k / 100 : ℕ) := by exact_mod_cast (by omega : k = 100 * (k / 100))
    refine ⟨_, [], [], (List.append_nil _).symm, hwhole, .absent, ?_⟩
    rw [decimalValue, Decimal.natOfDigits_toDigits, hk]
    simp [Decimal.natOfDigits]
  · have hk : (k : ℚ) = 100 * (k / 100 : ℕ) + 10 * (k / 10 % 10 : ℕ) := by
      exact_mod_cast (by omega : k = 100 * (k / 100) + 10 * (k / 10 % 10))
    refine ⟨_, _, _, rfl, hwhole, .pointed ⟨by simp, by simpa using ht⟩, ?_⟩
    rw [decimalValue, Decimal.natOfDigits_toDigits, htenth, hk]
    norm_num
    ring
  · have hk : (k : ℚ) = 100 * (k / 100 : ℕ) + (10 * (k / 10 % 10) + k % 10 : ℕ) := by
      exact_mod_cast (by omega : k = 100 * (k / 100) + (10 * (k / 10 % 10) + k % 10))
    have hdigits : IsRun Char.isDigit [(k / 10 % 10).digitChar, (k % 10).digitChar] := by
      refine ⟨by simp, fun c hc => ?_⟩
      rcases List.mem_pair.mp hc with rfl | rfl
      · exact ht
      · exact hh
    refine ⟨_, _, _, rfl, hwhole, .pointed hdigits, ?_⟩
    rw [decimalValue, Decimal.natOfDigits_toDigits, hboth, hk]
    norm_num
    ring

theorem amountText_alphaDigits (a : Binary64) :
    AmountText ⟨shownAlpha a, .number⟩ (alphaDigits a) := by
  obtain ⟨whole, fraction, pointed, hdigits, hw, hf, hvalue⟩ :=
    exists_hundredthsDigits (hundredths a)
  have hsign : ∃ sign, SignText a.isNegative sign ∧
      alphaDigits a = sign ++ hundredthsDigits (hundredths a) := by
    unfold alphaDigits
    split_ifs with h
    · rw [h]
      exact ⟨['-'], .minus, rfl⟩
    · rw [Bool.eq_false_iff.mpr h]
      exact ⟨[], .absent, rfl⟩
  obtain ⟨sign, hs, htext⟩ := hsign
  have h := AmountText.intro hs hw hf .number
  rw [hvalue, List.append_nil, ← hdigits, ← htext] at h
  exact h

/-! ### The texts of an answer -/

/-- Three bytes in decimal, with commas between them. -/
def Rgb.channels (c : Rgb) : String := s!"{c.red.toNat}, {c.green.toNat}, {c.blue.toNat}"

/-- The form with an alpha. -/
def Rgb.withAlphaText (c : Rgb) (alpha : String) : String :=
  "rgba(" ++ c.channels ++ ", " ++ alpha ++ ")"

/-- A text `rgb(r, g, b)`, or `rgba(r, g, b, a)` with a decimal from zero to one, which is read as a
color of these bytes. -/
structure IsColorText (out : String) (c : Rgb) : Prop where
  form : out = "rgb(" ++ c.channels ++ ")" ∨
    ∃ alpha x, out = c.withAlphaText alpha ∧ AmountText ⟨x, .number⟩ alpha.toList ∧ Within 0 1 x
  read : ∃ s, Swatch.read out = .ok s ∧ s.format = .rgb ∧ s.color.rounded = c

theorem rgbText_eq (c : Color) : c.rgbText =
    if c.isSolid then "rgb(" ++ c.rounded.channels ++ ")"
    else c.rounded.withAlphaText (alphaText c.alpha) := rfl

theorem isColorText_rgbText {c : Color} (h : Within 0 1 c.alpha) :
    IsColorText c.rgbText c.rounded := by
  constructor
  · rw [rgbText_eq]
    split_ifs
    · exact Or.inl rfl
    · refine Or.inr ⟨_, shownAlpha c.alpha, rfl, ?_, within_shownAlpha h⟩
      rw [toList_alphaText h.isNumber.isNaN]
      exact amountText_alphaDigits c.alpha
  · refine ⟨⟨c.rgbText, .rgb, c.shown⟩, ?_, rfl, Rgba.rounded_ofRgb _ _⟩
    rw [Swatch.read, Color.read_rgbText h]
    rfl

theorem rgbText_of_nan {c : Color} (h : c.alpha = nan) :
    c.rgbText = c.rounded.withAlphaText "NaN" := by
  have hs : c.isSolid = false := by
    rw [Rgba.isSolid, h]
    exact decide_eq_false fun hle => by simpa [isNaN] using hle.1
  have ht : alphaText nan = "NaN" := rfl
  rw [rgbText_eq, hs, h, ht]
  rfl

/-! ### The text of a lost alpha -/

section

variable (c : Rgb)

/-- The arguments of the text of a lost alpha in small letters. -/
def nanArgs : List (List Char) :=
  [Nat.toDigits 10 c.red.toNat, Nat.toDigits 10 c.green.toNat, Nat.toDigits 10 c.blue.toNat,
    "nan".toList]

theorem isCall_nan : IsCall "rgba".toList (nanArgs c) := by
  have hdigits : ∀ n, ∀ d ∈ Nat.toDigits 10 n, isSymbol d = true := fun n d hd =>
    isSymbol_of_isFigure (isFigure_of_mem_digits d hd)
  refine ⟨by simp, List.all_eq_true.mp (by decide), by simp [nanArgs], fun w hw => ?_⟩
  simp only [nanArgs, List.mem_cons, List.not_mem_nil, or_false] at hw
  rcases hw with rfl | rfl | rfl | rfl
  · exact hdigits _
  · exact hdigits _
  · exact hdigits _
  · exact List.all_eq_true.mp (by decide)

theorem readRgb_nan :
    Color.readRgb (callText "rgba".toList (nanArgs c)) = .error (.number "nan") := by
  have halpha : Color.readAlpha ["nan".toList] = .error (.number "nan") := by decide
  unfold Color.readRgb
  rw [functionArguments_callText (isCall_nan c) (by decide)]
  simp only [nanArgs, bind, Except.bind, List.length_singleton, le_refl, if_true,
    Color.readShare_byte, halpha]

theorem lower_trim_nan : lower (trim (c.withAlphaText "NaN").toList)
    = callText "rgba".toList (nanArgs c) := by
  have hself : ∀ s : String, toString s = s := fun _ => rfl
  -- both texts begin alike, and what follows differs in capitals only
  obtain ⟨v, hsmall, htext⟩ : ∃ v, callText "rgba".toList (nanArgs c) = 'r' :: v ++ "nan)".toList ∧
      (c.withAlphaText "NaN").toList = 'r' :: v ++ "NaN)".toList := by
    refine ⟨"gba(".toList ++ (c.channels.toList ++ ", ".toList), ?_, ?_⟩
    · simp [callText, nanArgs, Rgb.channels, hself, List.intercalate_cons_cons,
        String.toList_append]
    · simp [Rgb.withAlphaText, String.toList_append]
  have hplain : ∀ d ∈ 'r' :: v, isPlain d = true := fun d hd =>
    isPlain_callText (isCall_nan c) (hsmall ▸ List.mem_append_left _ hd)
  have htrim : trim ('r' :: v ++ "NaN)".toList) = 'r' :: v ++ "NaN)".toList := by
    refine trim_eq_self (forall_head?_cons (by decide) _) fun d hd => ?_
    rw [List.getLast?_append] at hd
    rw [← Option.some.inj hd]
    decide
  rw [htext, htrim, hsmall, lower, lowerAfter_append [] hplain]
  rfl

/-- The text of a lost alpha is no color text. -/
theorem isReadable_nan : Swatch.isReadable (c.withAlphaText "NaN") = false := by
  unfold Swatch.isReadable
  cases hread : Color.read (c.withAlphaText "NaN") with
  | error f => rfl
  | ok r =>
    have hsame : lower (trim (String.ofList (callText "rgba".toList (nanArgs c))).toList)
        = lower (trim (c.withAlphaText "NaN").toList) := by
      rw [String.toList_ofList, trim_callText (isCall_nan c), lower_callText (isCall_nan c),
        lower_trim_nan]
    have hprefix : (afterStart? "rgb".toList (callText "rgba".toList (nanArgs c))).isSome = true :=
      rfl
    have h := Color.read_of_lower_eq hread hsame
    rw [read_callText (isCall_nan c), if_pos hprefix, readRgb_nan] at h
    cases h

end

/-! ### Answers -/

/-- Whether alpha is lost in the evaluation of an expression. -/
def Expression.LosesAlpha (e : Expression Binary64) : Prop :=
  ∃ c, evaluateLiteral e.innermost = .ok c ∧ CssColor.LosesAlpha c e.chain

theorem within_alpha_of_evaluateLiteral {t : String} {c : Color} (h : evaluateLiteral t = .ok c) :
    Within 0 1 c.alpha := by
  unfold evaluateLiteral at h
  split at h
  · cases h
  · next c' format hread =>
    split_ifs at h
    obtain rfl := Except.ok.inj h
    exact (Color.inRange_of_read hread).alpha

theorem value_evaluate_eq_ok_iff {e : Expression Binary64} {d : Color} :
    e.evaluate.value = .ok d ↔
      ∃ c, evaluateLiteral e.innermost = .ok c ∧ (adjust c e.chain).value = .ok d := by
  rw [evaluate_eq]
  cases evaluateLiteral e.innermost with
  | error f =>
    constructor
    · intro h
      cases h
    · rintro ⟨c, hc, -⟩
      cases hc
  | ok c =>
    refine ⟨fun h => ⟨c, rfl, h⟩, ?_⟩
    rintro ⟨c', hc, h⟩
    rw [Except.ok.inj hc]
    exact h

/-- What an answer is the text of. -/
theorem value_standard_eq_ok_iff {text out : String} :
    (Evaluator.standard text).value = .ok out ↔ ∃ e c d, Expression.read text = .ok e ∧
      evaluateLiteral e.innermost = .ok c ∧ (adjust c e.chain).value = .ok d ∧ d.rgbText = out := by
  unfold Evaluator.standard
  cases Expression.read text with
  | error f =>
    constructor
    · intro h
      cases h
    · rintro ⟨e, c, d, he, -⟩
      cases he
  | ok e =>
    constructor
    · intro h
      obtain ⟨d, hd, rfl⟩ := exists_of_map_eq_ok h
      obtain ⟨c, hc, ha⟩ := value_evaluate_eq_ok_iff.mp hd
      exact ⟨e, c, d, rfl, hc, ha, rfl⟩
    · rintro ⟨e', c, d, he, hc, ha, rfl⟩
      obtain rfl := Except.ok.inj he
      show e.evaluate.value.map _ = _
      rw [value_evaluate_eq_ok_iff.mpr ⟨c, hc, ha⟩]
      rfl

/-- **An answer is a color text,** except where alpha was lost: then it has `NaN` in the place of
alpha and is not read as a color. -/
theorem standard_answers {text out : String} (h : (Evaluator.standard text).value = .ok out) :
    ∃ e, Expression.read text = .ok e ∧ ∃ c : Rgb,
      (¬e.LosesAlpha ∧ IsColorText out c) ∨
        (e.LosesAlpha ∧ out = c.withAlphaText "NaN" ∧ Swatch.isReadable out = false) := by
  obtain ⟨e, c, d, he, hc, hadjust, rfl⟩ := value_standard_eq_ok_iff.mp h
  have hlost : e.LosesAlpha ↔ LosesAlpha c e.chain := by
    refine ⟨?_, fun hl => ⟨c, hc, hl⟩⟩
    rintro ⟨c', hc', hl⟩
    rw [hc] at hc'
    rwa [Except.ok.inj hc']
  have hnumeric := (read_eq_ok_iff.mp he).1.numeric
  refine ⟨e, he, d.rounded, ?_⟩
  rw [hlost]
  rcases alpha_of_adjust hnumeric (within_alpha_of_evaluateLiteral hc) hadjust with
    ⟨hl, hnan⟩ | ⟨hl, hw⟩
  · refine Or.inr ⟨hl, rgbText_of_nan hnan, ?_⟩
    rw [rgbText_of_nan hnan]
    exact isReadable_nan d.rounded
  · exact Or.inl ⟨hl, isColorText_rgbText hw⟩

/-- An answer with alpha. -/
theorem standard_answers_half : ∃ e, Expression.read "color(red alpha(50%))" = .ok e ∧
    ∃ c, ¬e.LosesAlpha ∧ IsColorText "rgba(255, 0, 0, 0.5)" c := by
  have hvalue : (Evaluator.standard "color(red alpha(50%))").value
      = .ok "rgba(255, 0, 0, 0.5)" := by
    have hb : IsBase "red".toList := .token (by decide) (List.all_eq_true.mp (by decide))
    have hcall : ∀ w ∈ [ControlKind.alpha.wholeCall 50 false], w.Valid := by
      simpa using ControlKind.alpha.valid_wholeCall 50 false
    have hread : Color.read "red" = .ok (.solid ⟨255, 0, 0⟩, .keyword) := rfl
    have htext : " alpha(50%)".toList = callsText [ControlKind.alpha.wholeCall 50 false] := by
      decide
    exact (value_standard_wrap hb hread rfl hcall htext).trans (by decide +kernel)
  obtain ⟨e, he, c, h | ⟨-, -, hno⟩⟩ := standard_answers hvalue
  · exact ⟨e, he, c, h⟩
  · exact absurd hno (by decide +kernel)

/-! ### A factor beyond all doubles -/

theorem pow_le_decimalValue {n : ℕ} {ds : List Char} (h : 2 ^ n ≤ Decimal.natOfDigits ds) :
    (2 : ℚ) ^ n ≤ decimalValue ds [] := by
  have hcast : ((2 ^ n : ℕ) : ℚ) ≤ Decimal.natOfDigits ds := Nat.cast_le.mpr h
  rw [Nat.cast_pow, Nat.cast_ofNat] at hcast
  exact hcast.trans (le_add_of_nonneg_right (by positivity))

/-- An expression that adjusts a color whose alpha is zero. -/
def transparentText (adjustments : List Char) : String :=
  "color(rgba(1, 2, 3, 0)" ++ String.ofList adjustments ++ ")"

theorem toList_transparentText (adjustments : List Char) : (transparentText adjustments).toList
    = "color(rgba(1, 2, 3, 0)".toList ++ (adjustments ++ [')']) := by
  unfold transparentText
  simp only [String.toList_append, String.toList_ofList]
  exact List.append_assoc _ _ _

theorem trim_transparentText (adjustments : List Char) :
    trim (transparentText adjustments).toList = (transparentText adjustments).toList := by
  rw [toList_transparentText]
  refine trim_eq_self (forall_head?_cons (by decide) _) fun c hc => ?_
  rw [← List.append_assoc, List.getLast?_concat] at hc
  rw [← Option.some.inj hc]
  decide

theorem read_transparentText {as : List (Adjustment Binary64)} {ts : List Char}
    (h : AdjustmentsText as ts) :
    Expression.read (transparentText ts) = .ok (.literal "rgba(1, 2, 3, 0)" as) := by
  have hnone : IsBlanks [] := by simp [IsBlanks]
  have hopening : OpeningText ("color".toList ++ ['(']) := .intro rfl hnone
  have hcall : IsCall "rgba".toList [['1'], ['2'], ['3'], ['0']] := by
    refine ⟨by decide, List.all_eq_true.mp (by decide), by decide, fun w hw => ?_⟩
    simp only [List.mem_cons, List.not_mem_nil, or_false] at hw
    rcases hw with rfl | rfl | rfl | rfl <;> exact List.all_eq_true.mp (by decide)
  have hbase : IsBase (callText "rgba".toList [['1'], ['2'], ['3'], ['0']]) :=
    .call hcall (forall_head?_cons (by decide) _)
  have htext : callText "rgba".toList [['1'], ['2'], ['3'], ['0']] = "rgba(1, 2, 3, 0)".toList := by
    decide
  have hd := Derives.functional hopening (functionalText_callText hcall) (.intro h hnone)
  rw [htext] at hbase hd
  rw [read_eq_ok_iff, trim_transparentText, toList_transparentText]
  exact ⟨by simpa using hd, not_exists.mpr hbase.not_derives⟩

theorem adjustmentText_alpha (m : Modifier) {x : Amount Binary64} {digits : List Char}
    (hx : AmountText x digits) : AdjustmentText ⟨"alpha", some m, some x⟩
      ("alpha".toList ++ '(' :: m.sign :: ' ' :: (digits ++ [')'])) := by
  have hnone : IsBlanks [] := by simp [IsBlanks]
  have hname : IsRun isNameChar "alpha".toList :=
    ⟨by decide, List.all_eq_true.mp (by decide)⟩
  have hsign : OptionalText ModifierText (some m) [m.sign, ' '] := .present (.intro (by decide))
  have hlower : String.ofList (lower "alpha".toList) = "alpha" := by decide
  have h := AdjustmentText.intro hname hnone hsign hnone (.present hx) hnone
  rwa [hlower] at h

/-- An expression that multiplies an alpha of zero. -/
def productText (factor : List Char) : String :=
  "color(rgba(1, 2, 3, 0) alpha(* " ++ String.ofList factor ++ "))"

theorem productText_eq (factor : List Char) : productText factor = transparentText
    ([' '] ++ (("alpha".toList ++ '(' :: '*' :: ' ' :: (factor ++ [')'])) ++ [])) := by
  apply String.toList_injective
  rw [toList_transparentText]
  unfold productText
  simp only [String.toList_append, String.toList_ofList]
  simp

theorem read_productText {x : Amount Binary64} {factor : List Char} (hx : AmountText x factor) :
    Expression.read (productText factor) = .ok
      (.literal "rgba(1, 2, 3, 0)" [⟨"alpha", some .multiply, some x⟩]) := by
  have hspace : IsBlanks [' '] := by simp [IsBlanks, isBlank]
  rw [productText_eq]
  exact read_transparentText (.cons hspace (adjustmentText_alpha .multiply hx) .nil)

/-- The digits of `10 ^ 309`. -/
def hugeDigits : List Char := '1' :: List.replicate 309 '0'

theorem amountText_hugeDigits : AmountText ⟨infinity false, .number⟩ hugeDigits := by
  have hdigits : IsRun Char.isDigit hugeDigits := by
    refine ⟨List.cons_ne_nil _ _, fun c hc => ?_⟩
    rcases List.mem_cons.mp hc with rfl | hc
    · decide
    · rw [List.eq_of_mem_replicate hc]
      decide
  have hbound : bound ≤ decimalValue hugeDigits [] := pow_le_decimalValue (by decide +kernel)
  have h := AmountText.intro .absent hdigits .absent .number
  rw [ofRat_eq_infinity hbound, List.append_nil, List.append_nil] at h
  exact h

/-- An answer that is no color text. -/
theorem standard_answers_nan :
    (Evaluator.standard (productText hugeDigits)).value = .ok "rgba(1, 2, 3, NaN)" ∧
      ∀ c, ¬IsColorText "rgba(1, 2, 3, NaN)" c := by
  refine ⟨?_, fun c hc => ?_⟩
  · have hbase : evaluateLiteral "rgba(1, 2, 3, 0)" = .ok ⟨1, 2, 3, 0⟩ := by decide +kernel
    have hproduct : (adjust ⟨1, 2, 3, 0⟩ [⟨"alpha", some .multiply,
        some ⟨infinity false, .number⟩⟩]).value = .ok ⟨1, 2, 3, nan⟩ := by decide +kernel
    exact value_standard_eq_ok_iff.mpr
      ⟨_, _, _, read_productText amountText_hugeDigits, hbase, hproduct, by decide +kernel⟩
  · obtain ⟨s, hs, -⟩ := hc.read
    have hread : Swatch.read "rgba(1, 2, 3, NaN)" = .error (.number "nan") := by decide +kernel
    rw [hread] at hs
    cases hs

end CssColor
