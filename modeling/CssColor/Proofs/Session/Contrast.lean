import CssColor.Proofs.Expression.BlackWhite
import CssColor.Proofs.Session.Run

/-! # The text color of what was typed

A session asks for the text color of the `rgb` text of a color, not of the text the color was typed
as. The answer is the same for both, whatever the amount and the evaluator are, and so are the
records (`textColor_rgbText`): a text color depends on the bytes of its base and on whether alpha
in percent reaches the bound of a backdrop (`textColor_of_read`), and the `rgb` text shows the bytes
and alpha in whole percent (`Rgba.toIntNearest_alpha_shown`). -/

namespace CssColor

open Number Number.Scalar Number.Binary64

/-! ### Alpha in percent -/

namespace Rgba

variable {c : Color}

theorem toIntNearest_alpha (h : Within 0 1 c.alpha) :
    Scalar.toIntNearest (c.alpha * 100) = (hundredths c.alpha : ℤ) := by
  have h0 : 0 ≤ Scalar.toIntNearest (c.alpha * 100) :=
    (h.toIntNearest_share_mem (n := 100) (by norm_num)).1
  exact (Int.natAbs_of_nonneg h0).symm

/-- Nothing but a hundred percent is solid. -/
theorem hundredths_of_isSolid (h : Within 0 1 c.alpha) (hs : c.isSolid = true) :
    hundredths c.alpha = 100 := by
  have hone := (le_iff within_one.isFinite h.isFinite).mp ((isSolid_iff c).mp hs)
  have hfull : Alike c.alpha 1 :=
    alike_of_value_eq h.isFinite within_one.isFinite (le_antisymm (h.le_hi.trans value_one.ge) hone)
  have heq : c.alpha = 1 := hfull.resolve_right fun hz => by
    have hzero := (within_of_isZero hz.2).value_eq
    rw [value_one] at hzero
    exact one_ne_zero hzero
  rw [heq]
  exact hundredths_one

/-- **The text of a color shows its alpha in percent,** also where it shows it as solid. -/
theorem toIntNearest_alpha_shown (h : Within 0 1 c.alpha) :
    Scalar.toIntNearest (c.shown.alpha * 100) = Scalar.toIntNearest (c.alpha * 100) := by
  have hshown : c.shown.alpha = c.shownOpacity := clampUnit_eq_self (within_shownOpacity h)
  have hwithin : Within 0 1 c.shown.alpha := hshown ▸ within_shownOpacity h
  rw [toIntNearest_alpha h, toIntNearest_alpha hwithin, hshown, shownOpacity]
  congr 1
  split_ifs with hs
  · rw [hundredths_of_isSolid h hs]
    exact hundredths_one
  · exact hundredths_shownAlpha h

end Rgba

/-! ### What a text color depends on -/

theorem rgbText_withAlpha_one (c : Color) :
    Color.rgbText (c.withAlpha 1) = "rgb(" ++ c.rounded.channels ++ ")" := by
  have hsolid : (c.withAlpha 1).isSolid = true := Rgba.isSolid_solid c.rounded
  rw [rgbText_eq, if_pos hsolid]
  rfl

/-- **A text color depends on two things:** whether alpha in percent, rounded, is below the bound of
a backdrop, and the bytes. -/
theorem textColor_of_read {base : String} {c : Color} {f : Format}
    (h : Color.read base = .ok (c, f)) (evaluate : Evaluator) (amount : String) :
    evaluate.textColor amount base =
      if Scalar.toIntNearest (c.alpha * 100) < 50 then pure (.ok "rgb(0, 0, 0)")
      else evaluate (Expression.wrap ("rgb(" ++ c.rounded.channels ++ ")")
        (" contrast(" ++ amount ++ ")")) := by
  obtain ⟨k, hk⟩ := exists_components_read h
  rw [← alpha_of_read hk h, ← rgbText_withAlpha_one, ← Rgba.rgbText_black]
  unfold Evaluator.textColor
  rw [hk, h]
  rfl

/-! ### Typed colors -/

/-- The text color that is shown for a text: black where the evaluator has none. -/
def shownTextColor (evaluate : Evaluator) (text : String) : String :=
  match (evaluate.textColor "100%" text).value with
  | .error _ => "rgb(0, 0, 0)"
  | .ok answer => answer

theorem Session.textColorOf_eq (evaluate : Evaluator) (s : Swatch) :
    Session.textColorOf evaluate s = shownTextColor evaluate s.rgbText := rfl

/-- **The text color of a typed color** is that of its `rgb` text, records included, for every
amount and every evaluator; alpha in percent is the same for both texts, at the bound of a backdrop
as well. So a session, which asks for the text colors of `rgb` texts, shows those of the texts its
colors were read from. -/
theorem textColor_rgbText {text : String} {s : Swatch} (h : Swatch.read text = .ok s)
    (evaluate : Evaluator) :
    (∀ amount, evaluate.textColor amount text = evaluate.textColor amount s.rgbText) ∧
      (∃ k k', Components.read text = .ok k ∧ Components.read s.rgbText = .ok k' ∧
        k.alpha = k'.alpha) ∧
      ∀ {σ : Type} [PreferenceStore σ] {session : Session σ}, session.Reachable →
        session.evaluator = evaluate →
        (session.base = s → session.baseContrast = shownTextColor evaluate text) ∧
          (session.output = s → session.outputContrast = shownTextColor evaluate text) := by
  have hread := (Swatch.read_eq_ok h).1
  have hrange := (Swatch.inRange_of_read h).alpha
  have hback : Color.read s.rgbText = .ok (s.color.shown, .rgb) := Color.read_rgbText hrange
  have hbytes : s.color.shown.rounded = s.color.rounded := Rgba.rounded_ofRgb _ _
  have hpercent := Rgba.toIntNearest_alpha_shown hrange
  have hsame (amount : String) :
      evaluate.textColor amount text = evaluate.textColor amount s.rgbText := by
    rw [textColor_of_read hread, textColor_of_read hback, hbytes, hpercent]
  have hshown : Session.textColorOf evaluate s = shownTextColor evaluate text := by
    rw [Session.textColorOf_eq, shownTextColor, shownTextColor, hsame]
  refine ⟨hsame, ?_, fun hsession he => ⟨fun hbase => ?_, fun houtput => ?_⟩⟩
  · obtain ⟨k, hk⟩ := exists_components_read hread
    obtain ⟨k', hk'⟩ := exists_components_read hback
    exact ⟨k, k', hk, hk', by rw [alpha_of_read hk hread, alpha_of_read hk' hback, hpercent]⟩
  · rw [hsession.invariant.baseContrast, he, hbase, hshown]
  · rw [hsession.invariant.outputContrast, he, houtput, hshown]

/-- A color with fractions whose alpha lies just at the bound of a backdrop. -/
theorem textColor_rgbText_threshold :
    ∃ s, Swatch.read "rgba(10.5, 20%, 29.7, 0.495)" = .ok s ∧ s.rgbText = "rgba(11, 51, 30, 0.5)" ∧
      ∀ evaluate : Evaluator, ∀ amount,
        evaluate.textColor amount "rgba(10.5, 20%, 29.7, 0.495)"
          = evaluate.textColor amount "rgba(11, 51, 30, 0.5)" := by
  have hsome : (Swatch.read "rgba(10.5, 20%, 29.7, 0.495)").toOption.any
      (fun s => s.rgbText = "rgba(11, 51, 30, 0.5)") = true := by decide +kernel
  obtain ⟨s, hs, htext⟩ := Swatch.exists_of_any hsome
  have htext := of_decide_eq_true htext
  refine ⟨s, hs, htext, fun evaluate amount => ?_⟩
  rw [← htext]
  exact (textColor_rgbText hs evaluate).1 amount

end CssColor
