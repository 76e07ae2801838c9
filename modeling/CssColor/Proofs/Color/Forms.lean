import CssColor.Proofs.Color.ReadRange
import CssColor.Swatch

/-! # The forms of a swatch

The renderings of a swatch keep what they promise. The form of the source is one of them, and each
of them is read again in the form it stands under (`Swatch.renderings_truthful`). Those by bytes,
the hexadecimal ones and the keyword, lose nothing but what lies between two bytes: what they are
read as has the same bytes, and the same text again (`Swatch.renderings_lossless`). Which forms
there are is told by alpha and the bytes alone (`Color.Fits`,
`Swatch.exists_rendering_iff_fits`). -/

namespace CssColor

open Number Number.Scalar Number.Binary64 Text

/-! ### Colors by their bytes -/

namespace Rgba

/-- The byte of an alpha in range is 255 times it, rounded, with nothing cut off. -/
theorem toNat_alphaByte {c : Color} (h : Within 0 1 c.alpha) :
    (c.alphaByte.toNat : ℤ) = Scalar.toIntNearest (c.alpha * 255) := by
  have hmem : 0 ≤ Scalar.toIntNearest (c.alpha * 255) ∧
      Scalar.toIntNearest (c.alpha * 255) ≤ (255 : ℕ) := h.toIntNearest_share_mem (by norm_num)
  rw [alphaByte, toByte, UInt8.toNat_ofNat']
  omega

end Rgba

namespace Color

theorem rounded_byBytes (c : Color) (f : Format) : (c.byBytes f).rounded = c.rounded :=
  Rgba.rounded_ofRgb _ _

theorem alpha_byBytes (c : Color) (f : Format) :
    (c.byBytes f).alpha = if f.isAlphaHex then alphaOfByte c.alphaByte else 1 := by
  unfold byBytes
  split_ifs
  · exact clampUnit_eq_self (within_alphaOfByte _)
  · exact Rgba.clampUnit_one

theorem byBytes_of_isAlphaHex (c : Color) {f : Format} (h : f.isAlphaHex = true) :
    c.byBytes f = .ofRgb c.rounded (alphaOfByte c.alphaByte) := by rw [byBytes, if_pos h]

theorem byBytes_of_not_isAlphaHex (c : Color) {f : Format} (h : f.isAlphaHex = false) :
    c.byBytes f = .solid c.rounded := by
  rw [byBytes, h]
  rfl

/-- The text of a color by its bytes is that of the color. -/
theorem render?_byBytes {c : Color} {f : Format}
    (hf : f ∈ [Format.hex, .hex3, .hex4, .hex8, .keyword]) {t : String}
    (ht : c.render? f = some t) : (c.byBytes f).render? f = some t := by
  have hbytes : bytes (.solid c.rounded) = c.bytes := by
    rw [bytes_eq, Rgba.rounded_solid, bytes_eq]
  have halpha : alphaBytes (.ofRgb c.rounded (alphaOfByte c.alphaByte)) = c.alphaBytes := by
    rw [alphaBytes_eq, Rgba.rounded_ofRgb, alphaByte_ofRgb_alphaOfByte, alphaBytes_eq]
  have hsolid := Rgba.isSolid_solid c.rounded
  cases f with
  | hex =>
    rw [byBytes_of_not_isAlphaHex c rfl, ← ht, render?, render?, hbytes, hsolid,
      isSolid_of_render? (by decide) ht]
  | hex3 =>
    rw [byBytes_of_not_isAlphaHex c rfl, render?_hex3_eq_some, hbytes]
    exact ⟨hsolid, (render?_hex3_eq_some.mp ht).2⟩
  | hex4 =>
    rw [byBytes_of_isAlphaHex c rfl, render?_hex4_eq_some, halpha]
    exact render?_hex4_eq_some.mp ht
  | hex8 => rw [byBytes_of_isAlphaHex c rfl, ← ht, render?, render?, halpha]
  | keyword =>
    have hs := isSolid_of_render? (by decide) ht
    rw [byBytes_of_not_isAlphaHex c rfl, ← ht, render?, render?, hs, hsolid,
      keyword?_of_isSolid hs, keyword?_of_isSolid hsolid, hbytes, Rgba.rounded_solid]
  | hsl | rgb => exact absurd hf (by decide)

end Color

/-! ### Swatches -/

namespace Swatch

theorem read_eq_ok {text : String} {s : Swatch} (h : read text = .ok s) :
    Color.read text = .ok (s.color, s.format) ∧ s.source = text := by
  unfold read at h
  obtain ⟨⟨c, f⟩, hr, h⟩ := exists_of_bind_eq_ok h
  cases h
  exact ⟨hr, rfl⟩

theorem read_of_read {text : String} {c : Color} {f : Format} (h : Color.read text = .ok (c, f)) :
    read text = .ok ⟨text, f, c⟩ := by
  rw [read, h]
  rfl

theorem exists_of_any {text : String} {p : Swatch → Bool}
    (h : (read text).toOption.any p = true) :
    ∃ s, read text = .ok s ∧ p s = true := by
  cases hr : read text with
  | error f => rw [hr] at h; cases h
  | ok s => rw [hr] at h; exact ⟨s, rfl, h⟩

theorem inRange_of_read {text : String} {s : Swatch} (h : read text = .ok s) : s.color.InRange :=
  Color.inRange_of_read (read_eq_ok h).1

/-- A form stands in the renderings once, with the color in that form. -/
theorem mem_renderings {s : Swatch} {f : Format} {t : String} :
    (f, t) ∈ s.renderings ↔ s.rendering? f = some t := by
  have hall : f ∈ Format.all := by cases f <;> decide
  unfold renderings
  simp only [List.mem_filterMap, Option.map_eq_some_iff, Prod.mk.injEq]
  constructor
  · rintro ⟨_, -, _, ht, rfl, rfl⟩
    exact ht
  · exact fun ht => ⟨f, hall, t, ht, rfl, rfl⟩

theorem rendering?_format {text : String} {s : Swatch} (h : read text = .ok s) :
    s.rendering? s.format = some s.display := by
  obtain ⟨t, ht⟩ := Option.isSome_iff_exists.mp (Color.isSome_render?_of_read (read_eq_ok h).1)
  have ht' : s.rendering? s.format = some t := ht
  rw [display, ht']
  rfl

/-- **The renderings of a swatch are truthful.** The form of the source is among them, so that the
display never falls back to the source, and each of them is read in the form it stands under. -/
theorem renderings_truthful {text : String} {s : Swatch} (h : read text = .ok s) :
    (s.format, s.display) ∈ s.renderings ∧
      ∀ f t, (f, t) ∈ s.renderings → ∃ r, read t = .ok r ∧ r.format = f := by
  refine ⟨mem_renderings.mpr (rendering?_format h), fun f t ht => ?_⟩
  obtain ⟨c, hc⟩ := Color.exists_read_render? (inRange_of_read h) (mem_renderings.mp ht)
  exact ⟨_, read_of_read hc, rfl⟩

theorem renderings_truthful_rebeccapurple :
    ∃ s, read "rebeccapurple" = .ok s ∧ s.display = "rebeccapurple" ∧ s.renderings.length = 7 ∧
      ∀ f t, (f, t) ∈ s.renderings → ∃ r, read t = .ok r ∧ r.format = f := by
  have hread : read "rebeccapurple" = .ok ⟨"rebeccapurple", .keyword, .solid ⟨102, 51, 153⟩⟩ := by
    decide +kernel
  exact ⟨_, hread, by decide +kernel, by decide +kernel, (renderings_truthful hread).2⟩

/-- A hexadecimal rendering or a keyword is read as the color of its bytes. -/
theorem read_of_mem_renderings {s : Swatch} {f : Format} {t : String}
    (hf : f ∈ [Format.hex, .hex3, .hex4, .hex8, .keyword]) (ht : (f, t) ∈ s.renderings) :
    read t = .ok ⟨t, f, s.color.byBytes f⟩ :=
  read_of_read (Color.read_byBytes hf (mem_renderings.mp ht))

/-- **The renderings by bytes are lossless,** up to bytes. What is read from one has the bytes of
the color, an alpha of 1 or of as many 255ths as the alpha of the color is nearest to, and the same
rendering. The short and the long row of digits are read as the same color. -/
theorem renderings_lossless {text : String} {s : Swatch} (h : read text = .ok s) :
    (∀ f ∈ [Format.hex, .hex3, .hex4, .hex8, .keyword], ∀ t, (f, t) ∈ s.renderings →
      ∃ r, read t = .ok r ∧ r.color.rounded = s.color.rounded ∧
        (f ∈ [Format.hex, .hex3, .keyword] → r.color.alpha = 1) ∧
        (f ∈ [Format.hex4, .hex8] → ∃ n : ℕ, (n : ℤ) = Scalar.toIntNearest (s.color.alpha * 255) ∧
          r.color.alpha = ofNat n / 255) ∧
        (f, t) ∈ r.renderings) ∧
      ∀ p ∈ [(Format.hex3, Format.hex), (.hex4, .hex8)], ∀ short long,
        (p.1, short) ∈ s.renderings → (p.2, long) ∈ s.renderings →
          ∃ r r', read short = .ok r ∧ read long = .ok r' ∧ r.color = r'.color := by
  constructor
  · intro f hf t ht
    refine ⟨_, read_of_mem_renderings hf ht, Color.rounded_byBytes _ f, fun ha => ?_, fun ha => ?_,
      mem_renderings.mpr (Color.render?_byBytes hf (mem_renderings.mp ht))⟩
    · have ha' : f.isAlphaHex = false := by
        revert ha
        cases f <;> decide
      simp only [Color.alpha_byBytes, ha', if_false, Bool.false_eq_true]
    · have ha' : f.isAlphaHex = true := by
        revert ha
        cases f <;> decide
      refine ⟨_, Rgba.toNat_alphaByte (inRange_of_read h).alpha, ?_⟩
      simp only [Color.alpha_byBytes, ha', if_true]
      rfl
  · intro p hp short long hshort hlong
    simp only [List.mem_cons, List.not_mem_nil, or_false] at hp
    -- alpha has digits in both rows or in none, so the colors of the bytes are the same
    rcases hp with rfl | rfl <;> exact ⟨_, _, read_of_mem_renderings (by decide) hshort,
      read_of_mem_renderings (by decide) hlong, rfl⟩

theorem renderings_lossless_three_fifths :
    ∃ s r, read "rgba(102, 51, 153, 0.6)" = .ok s ∧ (Format.hex4, "#6399") ∈ s.renderings ∧
      read "#6399" = .ok r ∧ r.color.rounded = s.color.rounded ∧
      (Format.hex4, "#6399") ∈ r.renderings := by
  have hread : read "rgba(102, 51, 153, 0.6)"
      = .ok ⟨"rgba(102, 51, 153, 0.6)", .rgb, .ofRgb ⟨102, 51, 153⟩ (ofRat (3 / 5))⟩ := by
    decide +kernel
  have hmem := mem_renderings.mpr (show rendering?
    ⟨"rgba(102, 51, 153, 0.6)", .rgb, .ofRgb ⟨102, 51, 153⟩ (ofRat (3 / 5))⟩ .hex4 = some "#6399" by
      decide +kernel)
  obtain ⟨r, hr, hrounded, -, -, hback⟩ :=
    (renderings_lossless hread).1 .hex4 (by decide) "#6399" hmem
  exact ⟨_, r, hread, hmem, hr, hrounded, hback⟩

end Swatch

/-! ### Which forms there are -/

namespace Color

/-- What a form asks of a color: an alpha of 1 or more, bytes of two equal digits, a keyword of its
own, or nothing. -/
def Fits (c : Color) : Format → Prop
  | .hex => 1 ≤ c.alpha
  | .hex3 => 1 ≤ c.alpha ∧
      ∀ b ∈ [c.rounded.red, c.rounded.green, c.rounded.blue], b.toNat / 16 = b.toNat % 16
  | .hex4 => ∀ b ∈ [c.rounded.red, c.rounded.green, c.rounded.blue, c.alphaByte],
      b.toNat / 16 = b.toNat % 16
  | .keyword => 1 ≤ c.alpha ∧ ∃ name, (name, c.rounded) ∈ Keyword.table
  | .hex8 | .hsl | .rgb => True

theorem all_isDouble_iff (bytes : List UInt8) :
    bytes.all isDouble = true ↔ ∀ b ∈ bytes, b.toNat / 16 = b.toNat % 16 := by
  simp [isDouble]

/-- A color has a text in the forms that fit it. -/
theorem isSome_render?_iff (c : Color) (f : Format) : (c.render? f).isSome = true ↔ c.Fits f := by
  rw [Option.isSome_iff_exists]
  cases f with
  | hex =>
    rw [Fits, ← Rgba.isSolid_iff]
    simp [render?]
  | hex3 =>
    rw [Fits, ← Rgba.isSolid_iff, ← all_isDouble_iff]
    simp [render?_hex3_eq_some, bytes_eq]
  | hex4 =>
    rw [Fits, ← all_isDouble_iff]
    simp [render?_hex4_eq_some, alphaBytes_eq]
  | keyword =>
    rw [Fits, ← Rgba.isSolid_iff, ← Option.isSome_iff_exists, render?]
    cases hs : c.isSolid with
    | false => simp
    | true => simpa using isSome_keyword?_iff hs
  | hex8 | hsl | rgb => exact iff_of_true ⟨_, rfl⟩ trivial

end Color

theorem Keyword.lookup?_of_mem {c : Rgb} {name : String} (h : (name, c) ∈ table) :
    lookup? name = some c := by
  have hread := rgb?_of_mem h
  have hlower := lower_eq_self fun d hd => (isLower_spec ((isLower_of_rgb? hread).2 d hd)).1
  rw [lookup?, hlower, String.ofList_toList, hread]

namespace Swatch

/-- **Which forms a swatch has.** A text in a form is among its renderings if alpha and the bytes
of the color allow that form; a keyword there is looked up to the very bytes. -/
theorem exists_rendering_iff_fits (s : Swatch) :
    (∀ f, (∃ t, (f, t) ∈ s.renderings) ↔ s.color.Fits f) ∧
      ∀ t, (Format.keyword, t) ∈ s.renderings → Keyword.lookup? t = some s.color.rounded := by
  constructor
  · intro f
    rw [← Color.isSome_render?_iff, Option.isSome_iff_exists]
    exact exists_congr fun t => mem_renderings
  · intro t ht
    obtain ⟨hs, hname⟩ := Option.ite_none_right_eq_some.mp (mem_renderings.mp ht)
    exact Keyword.lookup?_of_mem (Color.keyword?_eq_some hs hname)

theorem exists_rendering_iff_fits_rebeccapurple :
    ∃ s, read "rgb(102, 51, 153)" = .ok s ∧ (∃ t, (Format.hex3, t) ∈ s.renderings) ∧
      (Format.keyword, "rebeccapurple") ∈ s.renderings ∧
      Keyword.lookup? "rebeccapurple" = some s.color.rounded := by
  have hread : read "rgb(102, 51, 153)"
      = .ok ⟨"rgb(102, 51, 153)", .rgb, .solid ⟨102, 51, 153⟩⟩ := by decide +kernel
  have hmem := mem_renderings.mpr (show rendering?
    ⟨"rgb(102, 51, 153)", .rgb, .solid ⟨102, 51, 153⟩⟩ .keyword = some "rebeccapurple" by
      decide +kernel)
  have hfits : Color.Fits (.solid ⟨102, 51, 153⟩) .hex3 := ⟨by decide +kernel, by decide +kernel⟩
  obtain ⟨hforms, hlookup⟩ := exists_rendering_iff_fits
    ⟨"rgb(102, 51, 153)", .rgb, .solid ⟨102, 51, 153⟩⟩
  exact ⟨_, hread, (hforms .hex3).mpr hfits, hmem, hlookup _ hmem⟩

end Swatch

end CssColor
