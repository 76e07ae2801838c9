import CssColor.Proofs.Color.ReadBack

/-! # What is read is a color

A text that is read is a keyword, a row of hexadecimal digits (`Color.HexReading`) or a functional
form (`Color.RgbReading`, `Color.HslReading`), which `Color.ReadAs` puts together. In each case the
color is in range (`Color.inRange_of_read`), whatever numbers the text holds, and it can be written
in the form it was read in (`Color.isSome_render?_of_read`). -/

namespace CssColor

open Number Number.Scalar Number.Binary64 Text

theorem exists_of_bind_eq_ok {ε α β : Type} {x : Except ε α} {f : α → Except ε β} {b : β}
    (h : x >>= f = .ok b) : ∃ a, x = .ok a ∧ f a = .ok b := by
  cases x with
  | error e => cases h
  | ok a => exact ⟨a, rfl, h⟩

theorem eq_error_or_of_bind {ε α β : Type} {x : Except ε α} {f : α → Except ε β} {e : ε}
    (h : x >>= f = .error e) : x = .error e ∨ ∃ a, x = .ok a ∧ f a = .error e := by
  cases x with
  | error e' => exact Or.inl (congrArg _ (Except.error.inj h))
  | ok a => exact Or.inr ⟨a, rfl, h⟩

theorem exists_of_map_eq_ok {ε α β : Type} {x : Except ε α} {f : α → β} {b : β}
    (h : x.map f = .ok b) : ∃ a, x = .ok a ∧ f a = b := by
  cases x with
  | error e => cases h
  | ok a => exact ⟨a, rfl, Except.ok.inj h⟩

/-- Both fail, for whatever reasons, or both give results, which are related. -/
inductive Agree {ε ε' α β : Type} (R : α → β → Prop) : Except ε α → Except ε' β → Prop
  | error (e : ε) (f : ε') : Agree R (.error e) (.error f)
  | ok {a : α} {b : β} (h : R a b) : Agree R (.ok a) (.ok b)

namespace Agree

variable {ε ε' α β γ δ : Type} {R : α → β → Prop}

theorem refl (x : Except ε α) : Agree Eq x x := by
  cases x with
  | error e => exact .error e e
  | ok a => exact .ok rfl

/-- What is done to related results keeps the agreement if it agrees. -/
theorem bind {S : γ → δ → Prop} {x : Except ε α} {y : Except ε' β} {f : α → Except ε γ}
    {g : β → Except ε' δ} (h : Agree R x y) (hf : ∀ a b, R a b → Agree S (f a) (g b)) :
    Agree S (x >>= f) (y >>= g) := by
  cases h with
  | error e e' => exact .error e e'
  | ok h => exact hf _ _ h

theorem map {S : γ → δ → Prop} {x : Except ε α} {y : Except ε' β} {f : α → γ} {g : β → δ}
    (h : Agree R x y) (hf : ∀ a b, R a b → S (f a) (g b)) : Agree S (x.map f) (y.map g) := by
  cases h with
  | error e e' => exact .error e e'
  | ok h => exact .ok (hf _ _ h)

end Agree

namespace Color

/-! ### Hexadecimal digits -/

theorem hexValue?_lt {c : Char} {n : ℕ} (h : hexValue? c = some n) : n < 16 := by
  have hle : ∀ d : Char, c ≤ d → c.toNat ≤ d.toNat := fun _ hd => hd
  unfold hexValue? at h
  split_ifs at h with h0 ha hA
  · have := hle _ h0.2
    have h9 : '9'.toNat = 57 := by decide
    have h48 : '0'.toNat = 48 := by decide
    cases h
    omega
  · have := hle _ ha.2
    have hf : 'f'.toNat = 102 := by decide
    have h97 : 'a'.toNat = 97 := by decide
    cases h
    omega
  · have := hle _ hA.2
    have hF : 'F'.toNat = 70 := by decide
    have h65 : 'A'.toNat = 65 := by decide
    cases h
    omega

/-- A digit that stands for two of its kind gives a byte of two equal digits. -/
theorem isDouble_of_readByte {c : Char} {b : UInt8} (h : readByte c c = .ok b) :
    isDouble b = true := by
  unfold readByte at h
  cases hv : hexValue? c with
  | none => simp [hv] at h
  | some n =>
    have hn := hexValue?_lt hv
    simp only [hv, Except.ok.injEq] at h
    have htoNat : b.toNat = 16 * n + n := by
      rw [← h, UInt8.toNat_ofNat']
      omega
    unfold isDouble
    rw [htoNat]
    exact decide_eq_true (by omega)

/-- What a row of hexadecimal digits is read as: every digit, or every two digits, as a byte. -/
inductive HexReading : List Char → Color × Format → Prop
  | short {r g b : Char} {x y z : UInt8} (hr : readByte r r = .ok x) (hg : readByte g g = .ok y)
    (hb : readByte b b = .ok z) : HexReading [r, g, b] (.solid ⟨x, y, z⟩, .hex3)
  | shortAlpha {r g b a : Char} {x y z t : UInt8} (hr : readByte r r = .ok x)
    (hg : readByte g g = .ok y) (hb : readByte b b = .ok z) (ha : readByte a a = .ok t) :
    HexReading [r, g, b, a] (.ofRgb ⟨x, y, z⟩ (alphaOfByte t), .hex4)
  | long {r r' g g' b b' : Char} {x y z : UInt8} (hr : readByte r r' = .ok x)
    (hg : readByte g g' = .ok y) (hb : readByte b b' = .ok z) :
    HexReading [r, r', g, g', b, b'] (.solid ⟨x, y, z⟩, .hex)
  | longAlpha {r r' g g' b b' a a' : Char} {x y z t : UInt8} (hr : readByte r r' = .ok x)
    (hg : readByte g g' = .ok y) (hb : readByte b b' = .ok z) (ha : readByte a a' = .ok t) :
    HexReading [r, r', g, g', b, b', a, a'] (.ofRgb ⟨x, y, z⟩ (alphaOfByte t), .hex8)

theorem hexReading_of_readHex {cs : List Char} {p : Color × Format} (h : readHex cs = .ok p) :
    HexReading cs p := by
  unfold readHex at h
  split at h
  · obtain ⟨x, hr, h⟩ := exists_of_bind_eq_ok h
    obtain ⟨y, hg, h⟩ := exists_of_bind_eq_ok h
    obtain ⟨z, hb, h⟩ := exists_of_bind_eq_ok h
    cases h
    exact .short hr hg hb
  · obtain ⟨x, hr, h⟩ := exists_of_bind_eq_ok h
    obtain ⟨y, hg, h⟩ := exists_of_bind_eq_ok h
    obtain ⟨z, hb, h⟩ := exists_of_bind_eq_ok h
    obtain ⟨t, ha, h⟩ := exists_of_bind_eq_ok h
    cases h
    exact .shortAlpha hr hg hb ha
  · obtain ⟨x, hr, h⟩ := exists_of_bind_eq_ok h
    obtain ⟨y, hg, h⟩ := exists_of_bind_eq_ok h
    obtain ⟨z, hb, h⟩ := exists_of_bind_eq_ok h
    cases h
    exact .long hr hg hb
  · obtain ⟨x, hr, h⟩ := exists_of_bind_eq_ok h
    obtain ⟨y, hg, h⟩ := exists_of_bind_eq_ok h
    obtain ⟨z, hb, h⟩ := exists_of_bind_eq_ok h
    obtain ⟨t, ha, h⟩ := exists_of_bind_eq_ok h
    cases h
    exact .longAlpha hr hg hb ha
  · cases h

theorem readHex_eq_ok {cs : List Char} {c : Color} {f : Format} (h : readHex cs = .ok (c, f)) :
    (∃ rgb : Rgb, c = .solid rgb ∧
        (f = .hex ∨ f = .hex3 ∧ [rgb.red, rgb.green, rgb.blue].all isDouble = true)) ∨
      ∃ (rgb : Rgb) (b : UInt8), c = .ofRgb rgb (alphaOfByte b) ∧
        (f = .hex8 ∨ f = .hex4 ∧ [rgb.red, rgb.green, rgb.blue, b].all isDouble = true) := by
  cases hexReading_of_readHex h with
  | short hr hg hb =>
    refine Or.inl ⟨_, rfl, Or.inr ⟨rfl, ?_⟩⟩
    simp [isDouble_of_readByte hr, isDouble_of_readByte hg, isDouble_of_readByte hb]
  | shortAlpha hr hg hb ha =>
    refine Or.inr ⟨_, _, rfl, Or.inr ⟨rfl, ?_⟩⟩
    simp [isDouble_of_readByte hr, isDouble_of_readByte hg, isDouble_of_readByte hb,
      isDouble_of_readByte ha]
  | long => exact Or.inl ⟨_, rfl, Or.inl rfl⟩
  | longAlpha => exact Or.inr ⟨_, _, rfl, Or.inl rfl⟩

/-! ### Alpha digits -/

theorem within_alphaOfByte (b : UInt8) : Within 0 1 (alphaOfByte b) :=
  within_share (Rgba.within_byte b) (by norm_num) (by norm_num)

theorem toIntNearest_alphaOfByte (b : UInt8) :
    Scalar.toIntNearest (alphaOfByte b * 255) = (b.toNat : ℤ) := by
  have hb : b.toNat < 256 := b.toNat_lt
  exact toIntNearest_div_mul (d := 255) (by norm_num) (by omega) (by norm_num)

theorem alphaByte_ofRgb_alphaOfByte (c : Rgb) (b : UInt8) :
    (Rgba.ofRgb c (alphaOfByte b) : Color).alphaByte = b := by
  have halpha : (Rgba.ofRgb c (alphaOfByte b) : Color).alpha = alphaOfByte b :=
    clampUnit_eq_self (within_alphaOfByte b)
  rw [Rgba.alphaByte, halpha]
  exact toByte_of_toIntNearest (toIntNearest_alphaOfByte b)

/-- Only alpha just below 1 is rounded up to it. -/
theorem hundredths_alphaOfByte_ne {b : UInt8} (h : b.toNat < 254) :
    hundredths (alphaOfByte b) ≠ 100 := by
  have hv : (255 : Binary64).value = 255 := value_literal (by norm_num)
  have hb := value_ofNat (n := b.toNat) (by omega)
  have h253 : (b.toNat : ℚ) ≤ 253 := by exact_mod_cast (by omega : b.toNat ≤ 253)
  have hq : IsDouble (127 / 128) := ⟨127, -7, by norm_num, by norm_num, by norm_num, by norm_num⟩
  have hd : IsDouble (127 / 128 * 100) :=
    ⟨3175, -5, by norm_num, by norm_num, by norm_num, by norm_num⟩
  have hw : Within 0 (127 / 128) (alphaOfByte b) := by
    refine within_div (isFinite_ofNat (by omega)) (isFinite_ofNat (by norm_num)) ?_ isDouble_zero
      hq ?_ ?_ <;> rw [hv]
    · norm_num
    · rw [hb]
      positivity
    · rw [hb, div_le_div_iff₀ (by norm_num) (by norm_num)]
      linarith
  have h99 : hundredths (alphaOfByte b) ≤ 99 := hundredths_le_of_within hw hd (by decide +kernel)
  omega

/-- A byte of alpha is shown without being rounded up to 1, unless it is the last but one. -/
theorem one_le_or_hundredths_iff (b : UInt8) :
    (1 ≤ alphaOfByte b ∨ hundredths (alphaOfByte b) ≠ 100) ↔ b ≠ 254 := by
  constructor
  · rintro h rfl
    revert h
    decide +kernel
  · intro hne
    by_cases hlt : b.toNat < 254
    · exact Or.inr (hundredths_alphaOfByte_ne hlt)
    · have hb : b = 255 := by
        have hne' : b.toNat ≠ 254 := fun h => hne (UInt8.toNat_inj.mp h)
        have := b.toNat_lt
        exact UInt8.toNat_inj.mp (show b.toNat = 255 by omega)
      rw [hb]
      exact Or.inl (by decide +kernel)

theorem alphaOfByte_eq_iff (b : UInt8) : alphaOfByte b = alphaOfByte 254 ↔ b = 254 := by
  refine ⟨fun heq => ?_, fun hb => by rw [hb]⟩
  by_contra hne
  have hb := (one_le_or_hundredths_iff b).mpr hne
  rw [heq, one_le_or_hundredths_iff] at hb
  exact hb rfl

/-! ### Numbers -/

theorem readNumber_eq_ok {cs : List Char} {x : Binary64} (h : readNumber cs = .ok x) :
    x.isFinite = true ∧ x.IsNumber := by
  unfold readNumber at h
  split at h
  · next hx =>
    cases h
    exact Decimal.isFinite_readFinite? hx
  · cases h

theorem isNumber_div_hundred {x : Binary64} (h : x.IsNumber) : (x / 100).IsNumber :=
  h.div_ofNat (n := 100) (by norm_num) (by norm_num)

theorem isNumber_readShare {cs : List Char} {n : ℕ} {x : Binary64} (hn0 : n ≠ 0) (hn : n < 2 ^ 53)
    (h : readShare (ofNat n) cs = .ok x) : x.IsNumber := by
  have hclamp : ∀ {y : Binary64}, y.IsNumber → (clamp 0 (ofNat n) y).IsNumber := fun hy =>
    (within_clamp (Nat.zero_le n) hn hy).isNumber
  unfold readShare at h
  split at h
  · obtain ⟨y, hy, h⟩ := exists_of_bind_eq_ok h
    cases h
    exact hclamp ((isNumber_div_hundred (readNumber_eq_ok hy).2).mul_ofNat hn0 hn)
  · obtain ⟨y, hy, h⟩ := exists_of_bind_eq_ok h
    cases h
    exact hclamp (readNumber_eq_ok hy).2

theorem isNumber_readAlpha {args : List (List Char)} {x : Binary64} (h : readAlpha args = .ok x) :
    x.IsNumber := by
  cases args with
  | nil => cases h; exact Rgba.within_one.isNumber
  | cons w ws => exact isNumber_readShare (n := 1) (by norm_num) (by norm_num) h

theorem isNumber_readPercentage {cs : List Char} {x : Binary64} (h : readPercentage cs = .ok x) :
    x.IsNumber := by
  obtain ⟨y, hy, h⟩ := exists_of_bind_eq_ok h
  cases h
  exact (within_clampUnit (isNumber_div_hundred (readNumber_eq_ok hy).2)).isNumber

/-! ### Functional forms -/

/-- What a text in the form `rgb` is read as: three arguments that are shares of 255, and alpha. -/
inductive RgbReading : List Char → Color → Prop
  | intro {cs red green blue : List Char} {rest : List (List Char)} {r g b a : Binary64}
    (hargs : functionArguments ["rgb", "rgba"] cs = .ok (red :: green :: blue :: rest))
    (hr : readShare 255 red = .ok r) (hg : readShare 255 green = .ok g)
    (hb : readShare 255 blue = .ok b) (hlength : rest.length ≤ 1) (ha : readAlpha rest = .ok a) :
    RgbReading cs (.clamped r g b a)

theorem rgbReading_of_readRgb {cs : List Char} {c : Color} (h : readRgb cs = .ok c) :
    RgbReading cs c := by
  obtain ⟨args, hargs, h⟩ := exists_of_bind_eq_ok h
  split at h
  · split_ifs at h with hlength
    obtain ⟨r, hr, h⟩ := exists_of_bind_eq_ok h
    obtain ⟨g, hg, h⟩ := exists_of_bind_eq_ok h
    obtain ⟨b, hb, h⟩ := exists_of_bind_eq_ok h
    obtain ⟨a, ha, h⟩ := exists_of_bind_eq_ok h
    cases h
    exact .intro hargs hr hg hb hlength ha
  · cases h

/-- What a text in the form `hsl` is read as: a hue and two percentages, and alpha. -/
inductive HslReading : List Char → Color → Prop
  | intro {cs hue saturation lightness : List Char} {rest : List (List Char)} {h s l a : Binary64}
    (hargs : functionArguments ["hsl", "hsla"] cs = .ok (hue :: saturation :: lightness :: rest))
    (hh : readHue hue = .ok h) (hs : readPercentage saturation = .ok s)
    (hl : readPercentage lightness = .ok l) (hlength : rest.length ≤ 1)
    (ha : readAlpha rest = .ok a) : HslReading cs ((⟨h, s, l⟩ : Hsl Binary64).toRgba a)

theorem hslReading_of_readHsl {cs : List Char} {c : Color} (h : readHsl cs = .ok c) :
    HslReading cs c := by
  obtain ⟨args, hargs, h⟩ := exists_of_bind_eq_ok h
  split at h
  · split_ifs at h with hlength
    obtain ⟨hue, hh, h⟩ := exists_of_bind_eq_ok h
    obtain ⟨s, hs, h⟩ := exists_of_bind_eq_ok h
    obtain ⟨l, hl, h⟩ := exists_of_bind_eq_ok h
    obtain ⟨a, ha, h⟩ := exists_of_bind_eq_ok h
    cases h
    exact .intro hargs hh hs hl hlength ha
  · cases h

/-! ### Colors -/

theorem inRange_of_readHex {cs : List Char} {c : Color} {f : Format} (h : readHex cs = .ok (c, f)) :
    c.InRange := by
  rcases readHex_eq_ok h with ⟨rgb, rfl, -⟩ | ⟨rgb, b, rfl, -⟩
  · exact Rgba.inRange_solid rgb
  · exact Rgba.inRange_ofRgb rgb
      ((Rgba.within_byte b).isNumber.div_ofNat (n := 255) (by norm_num) (by norm_num))

theorem inRange_of_readRgb {cs : List Char} {c : Color} (h : readRgb cs = .ok c) : c.InRange := by
  obtain ⟨-, hr, hg, hb, -, ha⟩ := rgbReading_of_readRgb h
  have hshare : ∀ {w : List Char} {x : Binary64}, readShare 255 w = .ok x → x.IsNumber :=
    fun hx => isNumber_readShare (n := 255) (by norm_num) (by norm_num) hx
  exact Rgba.inRange_clamped (hshare hr) (hshare hg) (hshare hb) (isNumber_readAlpha ha)

theorem inRange_of_readHsl {cs : List Char} {c : Color} (h : readHsl cs = .ok c) : c.InRange := by
  obtain ⟨-, hh, hs, hl, -, ha⟩ := hslReading_of_readHsl h
  exact Hsl.inRange_toRgba (readNumber_eq_ok hh).1 (isNumber_readPercentage hs)
    (isNumber_readPercentage hl) (isNumber_readAlpha ha)

/-! ### All forms -/

/-- What a text in lower case and without white space around it is read as, and by which of the
forms. -/
inductive ReadAs : List Char → Color × Format → Prop
  | keyword {cs : List Char} {rgb : Rgb} (h : Keyword.rgb? (String.ofList cs) = some rgb) :
    ReadAs cs (.solid rgb, .keyword)
  | hash {cs : List Char} {r : Color × Format} (h : readHex cs = .ok r) : ReadAs ('#' :: cs) r
  | bare {cs : List Char} {r : Color × Format} (hb : isBareHex cs = true) (h : readHex cs = .ok r) :
    ReadAs cs r
  | rgb {cs : List Char} {c : Color} (h : readRgb cs = .ok c) : ReadAs cs (c, .rgb)
  | hsl {cs : List Char} {c : Color} (h : readHsl cs = .ok c) : ReadAs cs (c, .hsl)

theorem readAs_of_read {t : String} {r : Color × Format} (h : read t = .ok r) :
    ReadAs (lower (trim t.toList)) r := by
  unfold read at h
  dsimp only at h
  split at h
  · cases h
  · next first rest hsmall =>
    split at h
    · next c hk =>
      obtain rfl := Except.ok.inj h
      exact .keyword hk
    · split_ifs at h with hhash hbare hrgb hhsl
      · rw [hsmall, hhash]
        exact .hash h
      · exact .bare hbare h
      · obtain ⟨c, hc, rfl⟩ := exists_of_map_eq_ok h
        exact .rgb hc
      · obtain ⟨c, hc, rfl⟩ := exists_of_map_eq_ok h
        exact .hsl hc

/-- What a text that is read can be. -/
theorem read_eq_ok {t : String} {c : Color} {f : Format} (h : read t = .ok (c, f)) :
    (f = .keyword ∧ ∃ (name : String) (rgb : Rgb), Keyword.rgb? name = some rgb ∧ c = .solid rgb) ∨
      (∃ cs, readHex cs = .ok (c, f)) ∨ (f = .rgb ∧ ∃ cs, readRgb cs = .ok c) ∨
      (f = .hsl ∧ ∃ cs, readHsl cs = .ok c) := by
  have hread := readAs_of_read h
  generalize lower (trim t.toList) = small at hread
  cases hread with
  | keyword hk => exact Or.inl ⟨rfl, _, _, hk, rfl⟩
  | hash hx => exact Or.inr (Or.inl ⟨_, hx⟩)
  | bare _ hx => exact Or.inr (Or.inl ⟨_, hx⟩)
  | rgb hc => exact Or.inr (Or.inr (Or.inl ⟨rfl, _, hc⟩))
  | hsl hc => exact Or.inr (Or.inr (Or.inr ⟨rfl, _, hc⟩))

/-- **Every color that is read is in range.** -/
theorem inRange_of_read {t : String} {c : Color} {f : Format} (h : read t = .ok (c, f)) :
    c.InRange := by
  rcases read_eq_ok h with ⟨-, name, rgb, -, rfl⟩ | ⟨cs, h⟩ | ⟨-, cs, h⟩ | ⟨-, cs, h⟩
  · exact Rgba.inRange_solid rgb
  · exact inRange_of_readHex h
  · exact inRange_of_readRgb h
  · exact inRange_of_readHsl h

theorem isSolid_of_read {t : String} {c : Color} {f : Format} (h : read t = .ok (c, f))
    (hf : f ∈ [Format.hex, .hex3, .keyword]) : c.isSolid = true ∧ c = .solid c.rounded := by
  have hsolid : ∀ rgb : Rgb, (Rgba.solid rgb : Color).isSolid = true ∧
      (Rgba.solid rgb : Color) = .solid (Rgba.solid rgb : Color).rounded := fun rgb =>
    ⟨Rgba.isSolid_solid rgb, by rw [Rgba.rounded_solid]⟩
  rcases read_eq_ok h with ⟨-, name, rgb, -, rfl⟩ | ⟨cs, h⟩ | ⟨rfl, -⟩ | ⟨rfl, -⟩
  · exact hsolid rgb
  · rcases readHex_eq_ok h with ⟨rgb, rfl, -⟩ | ⟨rgb, b, rfl, ha⟩
    · exact hsolid rgb
    · rcases ha with rfl | ⟨rfl, -⟩ <;> exact absurd hf (by decide)
  · exact absurd hf (by decide)
  · exact absurd hf (by decide)

/-- Alpha digits tell alpha as a byte, which one digit for both makes a double one. -/
theorem exists_alphaOfByte_of_read {t : String} {c : Color} {f : Format}
    (h : read t = .ok (c, f)) (hf : f.isAlphaHex = true) :
    ∃ b : UInt8, c.alpha = alphaOfByte b ∧ (f = .hex4 → isDouble b = true) := by
  rcases read_eq_ok h with ⟨rfl, -⟩ | ⟨cs, h⟩ | ⟨rfl, -⟩ | ⟨rfl, -⟩
  · exact absurd hf (by decide)
  · rcases readHex_eq_ok h with ⟨rgb, -, rfl | ⟨rfl, -⟩⟩ | ⟨rgb, b, rfl, ha⟩
    · exact absurd hf (by decide)
    · exact absurd hf (by decide)
    · refine ⟨b, clampUnit_eq_self (within_alphaOfByte b), ?_⟩
      rcases ha with rfl | ⟨-, hd⟩
      · exact fun h => absurd h (by decide)
      · exact fun _ => List.all_eq_true.mp hd b (by simp)
  · exact absurd hf (by decide)
  · exact absurd hf (by decide)

/-- **A color can be written in the form it was read in.** -/
theorem isSome_render?_of_read {t : String} {c : Color} {f : Format} (h : read t = .ok (c, f)) :
    (c.render? f).isSome = true := by
  rcases read_eq_ok h with ⟨rfl, name, rgb, hk, rfl⟩ | ⟨cs, h⟩ | ⟨rfl, -⟩ | ⟨rfl, -⟩
  · rw [render?, if_pos (Rgba.isSolid_solid rgb), isSome_keyword?_iff (Rgba.isSolid_solid rgb),
      Rgba.rounded_solid]
    exact ⟨name, Keyword.mem_table_of_rgb? hk⟩
  · rcases readHex_eq_ok h with ⟨rgb, rfl, rfl | ⟨rfl, hd⟩⟩ | ⟨rgb, b, rfl, rfl | ⟨rfl, hd⟩⟩
    · simp [render?, Rgba.isSolid_solid]
    · refine Option.isSome_iff_exists.mpr ⟨_, render?_hex3_eq_some.mpr ⟨?_, ?_, rfl⟩⟩
      · exact Rgba.isSolid_solid rgb
      · simpa only [bytes_eq, Rgba.rounded_solid] using hd
    · rfl
    · refine Option.isSome_iff_exists.mpr ⟨_, render?_hex4_eq_some.mpr ⟨?_, rfl⟩⟩
      simpa only [alphaBytes_eq, Rgba.rounded_ofRgb, alphaByte_ofRgb_alphaOfByte] using hd
  · rfl
  · rfl

end Color

end CssColor
