import CssColor.Proofs.Color.Shown
import CssColor.Proofs.Session.Standard

/-! # A base without adjustments

Right after a base is read no control is switched on, and the expression is the base alone. The
output is then what the form of the base shows of its color (`color_output_of_setBase`). It has the
`rgb` text of the base exactly if the base is `Lossless`: alpha is not rounded up to 1, and, for a
base in the form `hsl`, whole degrees and percent lead to the same bytes. Keywords and hexadecimal
digits always are, but for the alpha `fe`; the functional forms with an alpha from 0.995 on, and
`hsl` with a fraction, need not be. -/

namespace CssColor

open Number Number.Scalar Number.Binary64 Text

/-! ### Lossless bases -/

namespace Swatch

/-- A base whose text in an expression keeps its `rgb` text: alpha is not rounded up to 1, and whole
degrees and percent lead to the same bytes where the base is written with these. -/
def Lossless (s : Swatch) : Prop :=
  (s.color.isSolid = true ∨ hundredths s.color.alpha ≠ 100) ∧
    (s.format = .hsl → (s.color.wholeHsl.toRgba 1).rounded = s.color.rounded)

instance (s : Swatch) : Decidable s.Lossless := inferInstanceAs (Decidable (_ ∧ _))

theorem lossless_of_solid_form {text : String} {s : Swatch} (h : Swatch.read text = .ok s)
    (hf : s.format ∈ [Format.hex, .hex3, .keyword]) : s.Lossless := by
  refine ⟨Or.inl (Color.isSolid_of_read (Swatch.read_eq_ok h).1 hf).1, fun hno => ?_⟩
  rw [hno] at hf
  exact absurd hf (by decide)

/-- Of the 256 alphas that digits stand for, a single one is rounded up to 1. -/
theorem lossless_alphaHex_iff {text : String} {s : Swatch} (h : Swatch.read text = .ok s)
    (hf : s.format.isAlphaHex = true) : s.Lossless ↔ s.color.alpha ≠ Color.alphaOfByte 254 := by
  obtain ⟨b, ha, -⟩ := Color.exists_alphaOfByte_of_read (Swatch.read_eq_ok h).1 hf
  have hsl : s.format ≠ .hsl := by
    intro hno
    rw [hno] at hf
    exact absurd hf (by decide)
  rw [Lossless, Rgba.isSolid, decide_eq_true_iff, ha, Color.one_le_or_hundredths_iff]
  exact (and_iff_left fun hno => absurd hno hsl).trans (not_congr (Color.alphaOfByte_eq_iff b)).symm

theorem lossless_of_hex4 {text : String} {s : Swatch} (h : Swatch.read text = .ok s)
    (hf : s.format = .hex4) : s.Lossless := by
  have hdigits : s.format.isAlphaHex = true := by rw [hf]; rfl
  obtain ⟨b, ha, hd⟩ := Color.exists_alphaOfByte_of_read (Swatch.read_eq_ok h).1 hdigits
  rw [lossless_alphaHex_iff h hdigits, ha, Ne, Color.alphaOfByte_eq_iff]
  rintro rfl
  exact absurd (hd hf) (by decide)

end Swatch

/-! ### Sessions -/

namespace Session

variable {σ : Type}

theorem calls_of_seeded {text : String} {panel : Panel} (h : Panel.seeded {} text = .ok panel)
    (short : Bool) : panel.calls short = [] := by
  obtain ⟨k, -, h⟩ := exists_of_bind_eq_ok h
  cases h
  simp [Panel.calls, Panel.enabled]

/-- Right after a base is read, the output is what its form shows of its color. -/
theorem color_output_of_setBase {s : Session σ} (he : s.evaluator = .standard) {text : String}
    {s' : Session σ} (h : (s.setBase text).value = (true, s')) :
    (∃ base, Swatch.read text = .ok base ∧ s'.base = base) ∧
      s'.output.color = (s'.base.color.restored (baseForm s'.base.format)).shown := by
  cases hr : readBase text with
  | error f => rw [value_setBase_of_error s hr] at h; cases h
  | ok r =>
    obtain ⟨base, panel⟩ := r
    rw [value_setBase_of_read s hr] at h
    obtain ⟨hb, hp⟩ := readBase_eq_ok.mp hr
    have hs' : s' = recomputed { s with baseInput := text, base, panel } :=
      (congrArg Prod.snd h).symm
    refine ⟨⟨base, hb, by rw [hs', recomputed_base]⟩, ?_⟩
    have hwrap := value_standard_wrap (isBase_baseText hb) (read_baseText hb)
      (isAlphaHex_baseForm base.format) Panel.valid_of_mem_calls
      (panel.toList_adjustmentsText false)
    rw [calls_of_seeded hp] at hwrap
    have hd : Within 0 1 (base.color.restored (baseForm base.format)).alpha :=
      (Color.inRange_of_read (read_baseText hb)).alpha
    have hread := Swatch.read_of_read (Color.read_rgbText hd)
    rw [hs', recomputed_base]
    show (outputOf s.evaluator (Expression.wrap (baseText base) (panel.adjustmentsText false))
      base).color = _
    rw [he, outputOf, hwrap]
    simp only [List.map_nil, Expression.adjust, Logged.value_pure, Except.map, hread]

/-- The output has the `rgb` text of the base if and only if the base is lossless. -/
theorem rgbText_output_iff {s : Session σ} (he : s.evaluator = .standard) {text : String}
    {s' : Session σ} (h : (s.setBase text).value = (true, s')) :
    s'.output.rgbText = s'.base.rgbText ↔ s'.base.Lossless := by
  obtain ⟨⟨base, hb, hbase⟩, hout⟩ := color_output_of_setBase he h
  rw [hbase] at hout ⊢
  have hw := (Swatch.inRange_of_read hb).alpha
  rw [Swatch.rgbText, Swatch.rgbText, hout, Rgba.rgbText_shown_restored_iff hw]
  refine and_congr_right fun _ => ?_
  by_cases hf : base.format = .hsl
  · have hform : baseForm base.format = .hsl := by rw [hf]; rfl
    rw [hform, Rgba.restored_hsl, Rgba.shownHsl, Rgba.rounded_toRgba _ _ 1]
    exact ⟨fun hr _ => hr, fun hr => hr hf⟩
  · have hform : baseForm base.format ≠ .hsl := by
      revert hf
      cases base.format <;> decide
    rw [Rgba.restored_of_ne _ hform]
    exact ⟨fun _ hno => absurd hno hf, fun _ => Rgba.rounded_ofRgb _ _⟩

/-- **Without adjustments the output is the base,** in any session with the evaluator of the
language and for every text that is read, if and only if the base is lossless. A base written as a
keyword or with three, four or six digits always is; one with eight is, unless the last two are
`fe`. -/
theorem output_eq_base_iff_lossless {s : Session σ} (he : s.evaluator = .standard) {text : String}
    {s' : Session σ} (h : (s.setBase text).value = (true, s')) :
    (s'.output.rgbText = s'.base.rgbText ↔ s'.base.Lossless) ∧
      (s'.base.format ∈ [Format.hex, .hex3, .hex4, .keyword] →
        s'.output.rgbText = s'.base.rgbText) ∧
      (s'.base.format = .hex8 → (s'.output.rgbText = s'.base.rgbText ↔
        s'.base.color.alpha ≠ Color.alphaOfByte 254)) := by
  have hiff := rgbText_output_iff he h
  obtain ⟨⟨base, hb, hbase⟩, -⟩ := color_output_of_setBase he h
  rw [hiff, hbase]
  refine ⟨Iff.rfl, fun hf => ?_, fun hf => Swatch.lossless_alphaHex_iff hb (by rw [hf]; rfl)⟩
  simp only [List.mem_cons, List.not_mem_nil, or_false] at hf
  rcases hf with hf | hf | hf | hf
  · exact Swatch.lossless_of_solid_form hb (by simp [hf])
  · exact Swatch.lossless_of_solid_form hb (by simp [hf])
  · exact Swatch.lossless_of_hex4 hb hf
  · exact Swatch.lossless_of_solid_form hb (by simp [hf])

theorem exists_setBase (text : String) {p : Swatch → Bool}
    (h : (Swatch.read text).toOption.any p = true) : ∃ s s' : Session MemoryStore,
      (start {} {} Evaluator.standard).value = .ok s ∧ s.evaluator = Evaluator.standard ∧
        (s.setBase text).value = (true, s') ∧ p s'.base = true := by
  obtain ⟨s, hs⟩ := exists_start ({} : MemoryStore) Evaluator.standard isReadable_default
  obtain ⟨base, hb, hp⟩ := Swatch.exists_of_any h
  have hread : Swatch.isReadable text = true := by
    rw [Swatch.isReadable, (Swatch.read_eq_ok hb).1]
    rfl
  obtain ⟨base', panel, hr⟩ := exists_readBase hread
  have hbase : base' = base := by
    have hb' := (readBase_eq_ok.mp hr).1
    rw [hb] at hb'
    exact (Except.ok.inj hb').symm
  refine ⟨s, _, hs, evaluator_of_start hs, value_setBase_of_read s hr, ?_⟩
  rw [recomputed_base, hbase]
  exact hp

/-- A base of whole degrees and percent, half transparent. -/
theorem output_eq_base_of_whole_hsl : ∃ s s' : Session MemoryStore,
    (start {} {} Evaluator.standard).value = .ok s ∧
      (s.setBase "hsla(210, 60%, 40%, 0.5)").value = (true, s') ∧
      s'.output.rgbText = s'.base.rgbText := by
  have hlossless : (Swatch.read "hsla(210, 60%, 40%, 0.5)").toOption.any
      (fun b => decide b.Lossless) = true := by
    decide +kernel
  obtain ⟨s, s', hs, he, h, hp⟩ := exists_setBase "hsla(210, 60%, 40%, 0.5)" hlossless
  exact ⟨s, s', hs, h, (output_eq_base_iff_lossless he h).1.mpr (of_decide_eq_true hp)⟩

/-- An alpha just below 1 is written as 1 for the evaluator, and the output becomes solid. -/
theorem output_ne_base_of_almost_solid : ∃ s s' : Session MemoryStore,
    (start {} {} Evaluator.standard).value = .ok s ∧
      (s.setBase "#ff0000fe").value = (true, s') ∧ s'.output.rgbText ≠ s'.base.rgbText := by
  have hlossy : (Swatch.read "#ff0000fe").toOption.any (fun b => decide ¬b.Lossless) = true := by
    decide +kernel
  obtain ⟨s, s', hs, he, h, hp⟩ := exists_setBase "#ff0000fe" hlossy
  exact ⟨s, s', hs, h, fun heq => of_decide_eq_true hp ((rgbText_output_iff he h).mp heq)⟩

/-- A fraction of a percent is not written for the evaluator, and a byte of the output differs. -/
theorem output_ne_base_of_fraction : ∃ s s' : Session MemoryStore,
    (start {} {} Evaluator.standard).value = .ok s ∧
      (s.setBase "hsl(0, 0%, 50.4%)").value = (true, s') ∧ s'.output.rgbText ≠ s'.base.rgbText := by
  have hlossy : (Swatch.read "hsl(0, 0%, 50.4%)").toOption.any
      (fun b => decide ¬b.Lossless) = true := by
    decide +kernel
  obtain ⟨s, s', hs, he, h, hp⟩ := exists_setBase "hsl(0, 0%, 50.4%)" hlossy
  exact ⟨s, s', hs, h, fun heq => of_decide_eq_true hp ((rgbText_output_iff he h).mp heq)⟩

end Session

end CssColor
