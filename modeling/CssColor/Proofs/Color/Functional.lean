import CssColor.Proofs.Color.Forms
import CssColor.Proofs.Color.RoundTrip
import CssColor.Proofs.Color.Shown

/-! # Reading the functional forms again

The `rgb` and the `hsl` text of a color are read again, in the same form, but the color that is read
need not have the same text (`Swatch.functional_rendering_iff`). An alpha that rounds to 1.00 and is
less is written as 1, which is read as solid and then left out. Of a gray, the hue is lost, and of
black and white the saturation: a color that is so near to one of them that it is written with zero
percent of saturation and a hue, or with zero or one hundred percent of lightness and a saturation,
gets another `hsl` text. All others keep their texts. -/

namespace CssColor

open Number Number.Scalar Number.Binary64

namespace Rgba

variable {c : Color}

/-- Whether a color without saturation is written without a hue, and black and white without
saturation. -/
def WholeKept (c : Color) : Prop :=
  (c.toHsl.toWhole.2.1 = 0 → c.toHsl.toWhole.1 = 0) ∧
    (c.toHsl.toWhole.2.2 = 0 ∨ c.toHsl.toWhole.2.2 = 100 → c.toHsl.toWhole.2.1 = 0)

instance (c : Color) : Decidable c.WholeKept := inferInstanceAs (Decidable (_ ∧ _))

/-- The whole degrees and percent of a color in range. -/
theorem InRange.exists_whole (h : c.InRange) : ∃ n s l : ℕ, n < 360 ∧ s ≤ 100 ∧ l ≤ 100 ∧
    c.toHsl.toWhole = ((n : ℤ), (s : ℤ), (l : ℤ)) := by
  obtain ⟨hh, hs, hl⟩ := Color.natAbs_toWhole h
  obtain ⟨wh, ws, wl⟩ := h.toHsl
  have hhue : 0 ≤ c.toHsl.toWhole.1 := Int.tmod_nonneg _ wh.toIntNearest_mem.1
  have hpercent : ∀ {x : Binary64}, Within 0 1 x → 0 ≤ Scalar.toIntNearest (x * 100) := fun hx =>
    (hx.toIntNearest_share_mem (n := 100) (by norm_num)).1
  have hsat : 0 ≤ c.toHsl.toWhole.2.1 := hpercent ws
  have hlight : 0 ≤ c.toHsl.toWhole.2.2 := hpercent wl
  exact ⟨_, _, _, hh, hs, hl, Prod.ext (Int.natAbs_of_nonneg hhue).symm
    (Prod.ext (Int.natAbs_of_nonneg hsat).symm (Int.natAbs_of_nonneg hlight).symm)⟩

/-- **The `hsl` text of a color is that of whole degrees and percent again,** unless hue or
saturation are lost. -/
theorem toWhole_shownHsl_iff (h : c.InRange) :
    c.shownHsl.toHsl.toWhole = c.toHsl.toWhole ↔ c.WholeKept := by
  obtain ⟨n, s, l, hn, hs, hl, hw⟩ := h.exists_whole
  have hwhole : c.wholeHsl = .ofWhole n s l := by
    rw [wholeHsl, hw, Hsl.ofWhole, ← Hsl.clampUnit_percent hs, ← Hsl.clampUnit_percent hl]
    rfl
  rw [shownHsl, hwhole, WholeKept, hw,
    Hsl.toWhole_ofWhole_iff hn hs hl (within_shownOpacity h.alpha).isNumber]
  dsimp only
  norm_cast

end Rgba

namespace Swatch

/-- Whether what is read from a functional rendering has the same rendering. -/
def Keeps (s : Swatch) (f : Format) : Prop :=
  s.color.AlphaKept ∧ (f = .hsl → s.color.WholeKept)

instance (s : Swatch) (f : Format) : Decidable (s.Keeps f) := inferInstanceAs (Decidable (_ ∧ _))

/-- **The functional renderings of a swatch** are there, whatever the text is, and are read again in
the same form. What is read has the same rendering if and only if alpha is not rounded up to 1 and,
for the form `hsl`, neither a hue without saturation nor a saturation of black or white is lost. -/
theorem functional_rendering_iff {text : String} {s : Swatch} (h : read text = .ok s) {f : Format}
    (hf : f ∈ [Format.rgb, .hsl]) : (∃ t, (f, t) ∈ s.renderings) ∧
      ∀ t, (f, t) ∈ s.renderings → ∃ r, read t = .ok r ∧ r.format = f ∧
        ((f, t) ∈ r.renderings ↔ s.Keeps f) := by
  have hr := inRange_of_read h
  simp only [List.mem_cons, List.not_mem_nil, or_false] at hf
  rcases hf with rfl | rfl
  · refine ⟨⟨_, mem_renderings.mpr rfl⟩, fun t ht => ?_⟩
    obtain rfl := Option.some.inj (mem_renderings.mp ht)
    refine ⟨_, read_of_read (Color.read_rgbText hr.alpha), rfl, ?_⟩
    rw [mem_renderings]
    refine Option.some_inj.trans
      ((Rgba.rgbText_eq_of_alpha_iff hr.alpha (Rgba.alpha_restored hr.alpha .rgb)).trans ?_)
    exact and_congr_right fun _ => iff_of_true (Rgba.rounded_ofRgb _ _) fun hno => nomatch hno
  · refine ⟨⟨_, mem_renderings.mpr rfl⟩, fun t ht => ?_⟩
    obtain rfl := Option.some.inj (mem_renderings.mp ht)
    refine ⟨_, read_of_read (Color.read_hslText hr), rfl, ?_⟩
    rw [mem_renderings]
    refine Option.some_inj.trans
      ((Rgba.hslText_eq_of_alpha_iff hr.alpha (Rgba.alpha_restored hr.alpha .hsl)).trans ?_)
    exact and_congr_right fun _ =>
      (Rgba.toWhole_shownHsl_iff hr).trans ⟨fun hk _ => hk, fun hk => hk rfl⟩

theorem functional_rendering_three_fifths :
    ∃ s r, read "rgba(181, 119, 242, 0.6)" = .ok s ∧
      (Format.hsl, "hsla(270, 83%, 71%, 0.6)") ∈ s.renderings ∧
      read "hsla(270, 83%, 71%, 0.6)" = .ok r ∧
      (Format.hsl, "hsla(270, 83%, 71%, 0.6)") ∈ r.renderings := by
  have hkept : (read "rgba(181, 119, 242, 0.6)").toOption.any (fun s =>
      decide (s.rendering? .hsl = some "hsla(270, 83%, 71%, 0.6)" ∧ s.Keeps .hsl)) = true := by
    decide +kernel
  obtain ⟨s, hs, hp⟩ := exists_of_any hkept
  obtain ⟨ht, hk⟩ := of_decide_eq_true hp
  obtain ⟨r, hr, -, hiff⟩ := (functional_rendering_iff hs (by decide)).2 _ (mem_renderings.mpr ht)
  exact ⟨s, r, hs, mem_renderings.mpr ht, hr, hiff.mpr hk⟩

theorem exists_lost {text t : String} {f : Format}
    (hs : (read text).toOption.any (fun s => decide (s.rendering? f = some t)) = true)
    (hr : (read t).toOption.any (fun r => decide (r.rendering? f ≠ some t)) = true) :
    ∃ s r, read text = .ok s ∧ (f, t) ∈ s.renderings ∧ read t = .ok r ∧ (f, t) ∉ r.renderings := by
  obtain ⟨s, hs, ht⟩ := exists_of_any hs
  obtain ⟨r, hr, hno⟩ := exists_of_any hr
  exact ⟨s, r, hs, mem_renderings.mpr (of_decide_eq_true ht), hr,
    mt mem_renderings.mp (of_decide_eq_true hno)⟩

/-- An alpha just below 1 is written as 1, and the color that is read is written without alpha. A
gray that is not quite one is written with a hue, which is lost. -/
theorem functional_rendering_lost :
    (∃ s r, read "#ff0000fe" = .ok s ∧ (Format.rgb, "rgba(255, 0, 0, 1)") ∈ s.renderings ∧
      read "rgba(255, 0, 0, 1)" = .ok r ∧ (Format.rgb, "rgba(255, 0, 0, 1)") ∉ r.renderings) ∧
    ∃ s r, read "rgb(128, 128, 127)" = .ok s ∧ (Format.hsl, "hsl(60, 0%, 50%)") ∈ s.renderings ∧
      read "hsl(60, 0%, 50%)" = .ok r ∧ (Format.hsl, "hsl(60, 0%, 50%)") ∉ r.renderings :=
  ⟨exists_lost (by decide +kernel) (by decide +kernel),
    exists_lost (by decide +kernel) (by decide +kernel)⟩

end Swatch

end CssColor
