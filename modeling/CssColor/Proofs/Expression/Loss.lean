import CssColor.Proofs.Color.Opacity
import CssColor.Proofs.Expression.Shape

/-! # Where alpha is lost

The alpha of a color is in range or `nan`, whatever adjustments were made to it. From an alpha in
range `nan` comes of an amount that is `nan`, for alpha or in a mixture, and of an infinite factor
for an alpha of zero (`Adjustment.Loses`). From then on it stays, until an adjustment sets alpha to
a number (`Adjustment.Restores`). So whether the alpha of a color is `nan` behind a row of
adjustments lies in where it is lost and whether it is restored after that (`AlphaLost`,
`alpha_of_doubles`), by induction on the row from its last adjustment. -/

namespace CssColor

open Number Number.Scalar Number.Binary64 Expression

/-! ### Names -/

/-- The name and the letter of alpha. -/
def Adjuster.alphaNames : List String := ["alpha", "a"]

theorem Adjuster.mem_alphaNames {name : String} :
    name ∈ alphaNames ↔ ofName? name = some (.channel .alpha) := by
  rw [ofName?_eq_some_iff]
  simp [alphaNames, Adjuster.name, Channel.name, Adjuster.letter?, Channel.letter?, eq_comm]

/-! ### Amounts that are `nan` -/

theorem Amount.percent_eq_nan {x : Amount Binary64} (h : x.value = nan) : x.percent = nan := by
  rw [percent, h]
  rfl

theorem Amount.fraction_eq_nan {x : Amount Binary64} (h : x.value = nan) : x.fraction = nan := by
  unfold fraction
  rw [h]
  cases x.unit <;> rfl

theorem combine_nan (m : Option Modifier) (alpha : Binary64) : combine m alpha nan nan = nan := by
  match m with
  | none => rfl
  | some .add | some .subtract | some .multiply => cases alpha <;> rfl

theorem alpha_mix_nan (c d : Color) : (c.mix d nan).alpha = nan := by
  have hproduct : (d.alpha - c.alpha) * nan = nan := by
    cases d.alpha - c.alpha <;> rfl
  have hsum : c.alpha + nan = nan := by
    cases c.alpha <;> rfl
  show clampUnit (c.alpha + (d.alpha - c.alpha) * clampUnit nan) = nan
  rw [clampUnit_nan, hproduct, hsum, clampUnit_nan]

namespace Adjustment

/-- Whether the amount is `nan`. -/
def HasNaN (a : Adjustment Binary64) : Prop := ∃ x, a.amount = some x ∧ x.value = nan

/-- Whether the amount, if there is one, is a double of the format, be it infinite or `nan`. -/
def IsDouble (a : Adjustment Binary64) : Prop :=
  ∀ x, a.amount = some x → Binary64.IsDouble x.value.value

variable {luminance : Color → Binary64} {a : Adjustment Binary64} {c d : Color}

theorem IsDouble.isNumber (h : a.IsDouble) (hnan : ¬a.HasNaN) :
    ∀ x, a.amount = some x → x.value.IsNumber := by
  intro x hx
  refine ⟨?_, h x hx⟩
  cases hv : x.value with
  | nan => exact absurd ⟨x, hx, hv⟩ hnan
  | infinity | negZero | finite => rfl

/-- An amount that is `nan` makes alpha `nan` in an adjustment of alpha and in a mixture, and in no
other. -/
theorem Made.alpha_of_hasNaN (h : a.Made luminance c d) (hnan : a.HasNaN) :
    (a.name ∈ Adjuster.alphaNames ++ Adjuster.mixtures ∧ d.alpha = nan) ∨
      (a.name ∉ Adjuster.alphaNames ++ Adjuster.mixtures ∧ d.alpha = clampUnit c.alpha) := by
  obtain ⟨x, hx, hv⟩ := hnan
  have hmixture : ∀ {k : Adjuster}, Adjuster.ofName? a.name = some k → k.letter? = none →
      k.name ∈ Adjuster.mixtures → a.name ∈ Adjuster.alphaNames ++ Adjuster.mixtures :=
    fun hk hl hmem => List.mem_append_right _ (Adjuster.eq_name hk hl ▸ hmem)
  cases h with
  | @channel ch y hn hy =>
    obtain rfl := Option.some.inj (hx.symm.trans hy)
    by_cases hch : ch = .alpha
    · subst hch
      refine Or.inl ⟨List.mem_append_left _ (Adjuster.mem_alphaNames.mpr hn), ?_⟩
      show clampUnit (combine a.modifier c.alpha x.fraction x.fraction) = nan
      rw [Amount.fraction_eq_nan hv, combine_nan, clampUnit_nan]
    · refine Or.inr ⟨fun hmem => ?_, Channel.alpha_set_of_ne hch c _⟩
      rcases List.mem_append.mp hmem with hmem | hmem
      · exact hch (Adjuster.channel.inj
          (Option.some.inj (hn.symm.trans (Adjuster.mem_alphaNames.mp hmem))))
      · exact Adjuster.not_mem_mixtures hn hmem
  | tint hn hm hy =>
    obtain rfl := Option.some.inj (hx.symm.trans hy)
    refine Or.inl ⟨hmixture hn rfl (by decide), ?_⟩
    rw [Amount.percent_eq_nan hv, alpha_mix_nan]
  | shade hn hm hy =>
    obtain rfl := Option.some.inj (hx.symm.trans hy)
    refine Or.inl ⟨hmixture hn rfl (by decide), ?_⟩
    rw [Amount.percent_eq_nan hv, alpha_mix_nan]
  | contrast hn hm =>
    refine Or.inl ⟨hmixture hn rfl (by decide), ?_⟩
    rw [hx, Option.getD_some, Amount.percent_eq_nan hv]
    exact alpha_mix_nan _ _

/-! ### One adjustment -/

/-- Whether an adjustment makes `nan` of an alpha in range: by an amount that is `nan`, for alpha or
in a mixture, or by an infinite factor for zero. -/
def Loses (a : Adjustment Binary64) (alpha : Binary64) : Prop :=
  (a.name ∈ Adjuster.alphaNames ++ Adjuster.mixtures ∧ a.HasNaN) ∨
    (a.Overflows ∧ alpha.isZero = true)

/-- Whether an adjustment sets alpha to a number. -/
def Restores (a : Adjustment Binary64) : Prop := a.ReplacesAlpha ∧ ¬a.HasNaN

/-- **An adjustment keeps alpha in range or loses it.** -/
theorem Made.alpha_of_within (h : a.Made luminance c d) (ha : a.IsDouble)
    (hc : Within 0 1 c.alpha) :
    (a.Loses c.alpha ∧ d.alpha = nan) ∨ (¬a.Loses c.alpha ∧ Within 0 1 d.alpha) := by
  by_cases hnan : a.HasNaN
  · rcases h.alpha_of_hasNaN hnan with ⟨hn, hd⟩ | ⟨hn, hd⟩
    · exact Or.inl ⟨Or.inl ⟨hn, hnan⟩, hd⟩
    · refine Or.inr ⟨?_, by rw [hd]; exact within_clampUnit hc.isNumber⟩
      rintro (⟨hmem, -⟩ | ⟨⟨hname, -⟩, -⟩)
      · exact hn hmem
      · exact hn (List.mem_append_left _ (Adjuster.mem_alphaNames.mpr hname))
  · rcases h.within_alpha (ha.isNumber hnan) hc with ⟨hover, hz, hd⟩ | ⟨hno, hd⟩
    · exact Or.inl ⟨Or.inr ⟨hover, hz⟩, hd⟩
    · exact Or.inr ⟨fun hl => hl.elim (fun hl => hnan hl.2) hno, hd⟩

/-- **A lost alpha stays lost** unless the adjustment sets it to a number. -/
theorem Made.alpha_of_nan (h : a.Made luminance c d) (ha : a.IsDouble) (hc : c.alpha = nan) :
    (a.Restores ∧ Within 0 1 d.alpha) ∨ (¬a.Restores ∧ d.alpha = nan) := by
  by_cases hnan : a.HasNaN
  · refine Or.inr ⟨fun hr => hr.2 hnan, ?_⟩
    rcases h.alpha_of_hasNaN hnan with ⟨-, hd⟩ | ⟨-, hd⟩
    · exact hd
    · rw [hd, hc, clampUnit_nan]
  · rcases h.nan_alpha (ha.isNumber hnan) hc with ⟨hr, hd⟩ | ⟨hr, hd⟩
    · exact Or.inl ⟨⟨hr, hnan⟩, hd⟩
    · exact Or.inr ⟨fun h => hr h.1, hd⟩

end Adjustment

/-! ### A row of adjustments -/

/-- Whether the amounts of adjustments, where there are some, are doubles of the format. -/
def Doubles (as : List (Adjustment Binary64)) : Prop := ∀ a ∈ as, a.IsDouble

/-- Whether alpha is lost on the way through some adjustments: one of them loses it, and none behind
that one restores it. -/
def AlphaLost (c : Color) (as : List (Adjustment Binary64)) : Prop :=
  ∃ before a after b, as = before ++ a :: after ∧ (adjust c before).value = .ok b ∧
    a.Loses b.alpha ∧ ∀ e ∈ after, ¬e.Restores

theorem alphaLost_concat {c d : Color} {as : List (Adjustment Binary64)}
    {a : Adjustment Binary64} (hd : (adjust c as).value = .ok d) :
    AlphaLost c (as ++ [a]) ↔ a.Loses d.alpha ∨ AlphaLost c as ∧ ¬a.Restores := by
  constructor
  · rintro ⟨before, b, after, b', heq, hb', hloses, hafter⟩
    rcases List.eq_nil_or_concat after with rfl | ⟨more, last, rfl⟩
    · obtain ⟨rfl, hlast⟩ := List.append_inj' heq rfl
      obtain rfl := List.singleton_inj.mp hlast
      rw [hd] at hb'
      obtain rfl := Except.ok.inj hb'
      exact Or.inl hloses
    · rw [List.concat_eq_append] at heq hafter
      rw [← List.cons_append, ← List.append_assoc] at heq
      obtain ⟨rfl, hlast⟩ := List.append_inj' heq rfl
      obtain rfl := List.singleton_inj.mp hlast
      refine Or.inr ⟨⟨before, b, more, b', rfl, hb', hloses, fun e he => ?_⟩, ?_⟩
      · exact hafter e (List.mem_append_left _ he)
      · exact hafter _ (List.mem_append_right _ List.mem_cons_self)
  · rintro (hloses | ⟨⟨before, b, after, b', rfl, hb', hloses, hafter⟩, hlast⟩)
    · exact ⟨as, a, [], d, rfl, hd, hloses, by simp⟩
    · refine ⟨before, b, after ++ [a], b', by simp, hb', hloses, fun e he => ?_⟩
      rcases List.mem_append.mp he with he | he
      · exact hafter e he
      · rwa [List.mem_singleton.mp he]

/-- **Alpha stays in range** along a row of adjustments, or it is lost. -/
theorem alpha_of_doubles {c d : Color} {as : List (Adjustment Binary64)} (hn : Doubles as)
    (hc : Within 0 1 c.alpha) (h : (adjust c as).value = .ok d) :
    (AlphaLost c as ∧ d.alpha = nan) ∨ (¬AlphaLost c as ∧ Within 0 1 d.alpha) := by
  induction as using List.reverseRecOn generalizing d with
  | nil =>
    obtain rfl := Except.ok.inj h
    refine Or.inr ⟨?_, hc⟩
    rintro ⟨before, a, after, -, heq, -⟩
    simp at heq
  | append_singleton as a ih =>
    obtain ⟨b, hb, ha⟩ := value_adjust_concat h
    have hna : a.IsDouble := hn a (by simp)
    have hmade := Adjustment.made_of_apply ha
    rw [alphaLost_concat hb]
    rcases ih (fun e he => hn e (List.mem_append_left _ he)) hb with ⟨hlost, hnan⟩ | ⟨hkept, hw⟩
    · rcases hmade.alpha_of_nan hna hnan with ⟨hr, hd⟩ | ⟨hr, hd⟩
      · refine Or.inr ⟨?_, hd⟩
        rintro (hloses | ⟨-, hno⟩)
        · -- what restores alpha has a number for it and no modifier
          rcases hloses with ⟨-, hnan'⟩ | ⟨-, hz⟩
          · exact hr.2 hnan'
          · rw [hnan] at hz
            cases hz
        · exact hno hr
      · exact Or.inl ⟨Or.inr ⟨hlost, hr⟩, hd⟩
    · rcases hmade.alpha_of_within hna hw with ⟨hloses, hd⟩ | ⟨hno, hd⟩
      · exact Or.inl ⟨Or.inl hloses, hd⟩
      · refine Or.inr ⟨?_, hd⟩
        rintro (hloses | ⟨hlost, -⟩)
        · exact hno hloses
        · exact hkept hlost

/-! ### Amounts that are numbers -/

section

variable {as : List (Adjustment Binary64)}

theorem Expression.Numeric.doubles (hn : Numeric as) : Doubles as :=
  fun a ha x hx => (hn a ha x hx).isDouble

theorem Expression.Numeric.not_hasNaN (hn : Numeric as) {a : Adjustment Binary64} (ha : a ∈ as) :
    ¬a.HasNaN := by
  rintro ⟨x, hx, hv⟩
  have hnumber := (hn a ha x hx).isNaN
  rw [hv] at hnumber
  cases hnumber

end

end CssColor
