import CssColor.Proofs.Color.Call

/-! # Reading back what was written

A text written for a color is read again, in the form it was written in (`exists_read_render?`).
What comes back is the color as that form shows it: bytes and hundredths of alpha (`Rgba.shown`),
hue, saturation and lightness in whole degrees and percent (`Rgba.shownHsl`), or, from a row of
digits or a keyword, the nearest bytes (`Color.byBytes`). -/

namespace CssColor

open Number Number.Scalar Number.Binary64 Text

/-! ### Bytes -/

theorem toByte_of_toIntNearest {x : Binary64} {b : UInt8}
    (h : Scalar.toIntNearest x = (b.toNat : ℤ)) : Rgba.toByte x = b := by
  have hb : b.toNat < 256 := b.toNat_lt
  rw [Rgba.toByte, h, Int.toNat_natCast, min_eq_right (by omega), UInt8.ofNat_toNat]

theorem toByte_byte (b : UInt8) : Rgba.toByte (ofNat b.toNat : Binary64) = b := by
  have hb : b.toNat < 256 := b.toNat_lt
  refine toByte_of_toIntNearest ?_
  show roundHalfAway (ofNat b.toNat : Binary64).value = _
  rw [value_ofNat (by omega), ← Int.cast_natCast, roundHalfAway_intCast]

namespace Rgba

theorem rounded_ofRgb (c : Rgb) (a : Binary64) : (ofRgb c a).rounded = c := by
  simp only [rounded, ofRgb, toByte_byte]

theorem rounded_solid (c : Rgb) : (solid c : Color).rounded = c := rounded_ofRgb c 1

theorem clampUnit_one : clampUnit (1 : Binary64) = 1 := clampUnit_eq_self within_one

theorem isSolid_iff (c : Color) : c.isSolid = true ↔ 1 ≤ c.alpha := decide_eq_true_iff

theorem one_le_one : (1 : Binary64) ≤ 1 :=
  (le_iff within_one.isFinite within_one.isFinite).mpr le_rfl

theorem isSolid_solid (c : Rgb) : (solid c : Color).isSolid = true := by
  show decide (1 ≤ clampUnit (1 : Binary64)) = true
  rw [clampUnit_one]
  exact decide_eq_true one_le_one

theorem rgbText_black : Color.rgbText .black = "rgb(0, 0, 0)" := by
  unfold Color.rgbText black
  rw [isSolid_solid, rounded_solid]
  rfl

/-- The color of a triple of bytes whose channels are moved into their ranges once more. -/
theorem clamped_bytes (c : Rgb) (a : Binary64) :
    clamped (ofNat c.red.toNat) (ofNat c.green.toNat) (ofNat c.blue.toNat) a = ofRgb c a := by
  have hb : ∀ b : UInt8, clamp (0 : Binary64) 255 (ofNat b.toNat) = ofNat b.toNat := fun b =>
    clampChannel_eq_self (within_byte b)
  simp only [clamped, ofRgb, hb]

/-! ### Colors as they are shown -/

/-- Alpha as the functional forms show it. -/
def shownOpacity (c : Color) : Binary64 := if c.isSolid then 1 else shownAlpha c.alpha

/-- The color that the `rgb` text of a color stands for. -/
def shown (c : Color) : Color := ofRgb c.rounded c.shownOpacity

/-- Hue, saturation and lightness of whole degrees and percent. -/
def wholeHsl (c : Color) : Hsl Binary64 :=
  ⟨ofRat c.toHsl.toWhole.1, clampUnit (ofRat c.toHsl.toWhole.2.1 / 100),
    clampUnit (ofRat c.toHsl.toWhole.2.2 / 100)⟩

/-- The color that the `hsl` text of a color stands for. -/
def shownHsl (c : Color) : Color := c.wholeHsl.toRgba c.shownOpacity

/-- The color that the text of a color in a form stands for. -/
def restored (c : Color) : Format → Color
  | .hsl => c.shownHsl
  | _ => c.shown

theorem restored_hsl (c : Color) : c.restored .hsl = c.shownHsl := rfl

theorem restored_of_ne (c : Color) {f : Format} (h : f ≠ .hsl) : c.restored f = c.shown := by
  cases f with
  | hsl => exact absurd rfl h
  | _ => rfl

theorem within_shownOpacity {c : Color} (h : Within 0 1 c.alpha) : Within 0 1 c.shownOpacity := by
  unfold shownOpacity
  split_ifs
  · exact within_one
  · exact within_shownAlpha h

theorem shown_of_isSolid {c : Color} (h : c.isSolid = true) : c.shown = solid c.rounded := by
  rw [shown, shownOpacity, if_pos h, solid]

end Rgba

/-! ### Numbers in functional forms -/

namespace Color

theorem trim_figures {w : List Char} (h : ∀ c ∈ w, isFigure c = true) : trim w = w :=
  trim_of_all fun c hc => (isFigure_spec (h c hc)).2.1

theorem readNumber_of_readFinite? {w : List Char} {x : Binary64} (h : ∀ c ∈ w, isFigure c = true)
    (hx : Decimal.readFinite? w = some x) : readNumber w = .ok x := by
  rw [readNumber, trim_figures h, hx]

theorem readShare_of_readFinite? {w : List Char} {n : ℕ} {x : Binary64} (hn : n < 2 ^ 53)
    (h : ∀ c ∈ w, isFigure c = true) (hp : '%' ∉ w) (hx : Decimal.readFinite? w = some x)
    (hr : Within 0 n x) : readShare (ofNat n) w = .ok x := by
  have hc : clamp (ofNat 0) (ofNat n) x = x :=
    clamp_eq_self (by norm_num) hn (by rw [Nat.cast_zero]; exact hr)
  unfold readShare
  rw [beforeEnd?_eq_none hp, readNumber_of_readFinite? h hx]
  exact congrArg Except.ok hc

theorem percent_not_mem_digits (n : ℕ) : '%' ∉ Nat.toDigits 10 n := fun h =>
  absurd (Decimal.isDigit_of_mem_digits h) (by decide)

theorem readShare_byte (b : UInt8) :
    readShare 255 (Nat.toDigits 10 b.toNat) = .ok (ofNat b.toNat) := by
  have hb : b.toNat < 256 := b.toNat_lt
  exact readShare_of_readFinite? (by norm_num) isFigure_of_mem_digits (percent_not_mem_digits _)
    (Decimal.readFinite?_digits (by omega)) (by exact_mod_cast Rgba.within_byte b)

theorem percent_not_mem_alphaDigits (a : Binary64) : '%' ∉ alphaDigits a := by
  have hk : ∀ k, '%' ∉ hundredthsDigits k := by
    intro k hk
    have ht := isDigit_digitChar (d := k / 10 % 10) (by omega)
    have hh := isDigit_digitChar (d := k % 10) (by omega)
    have hdigits := percent_not_mem_digits (k / 100)
    have hne : ∀ d : Char, d.isDigit = true → '%' ≠ d := by
      rintro d hd rfl
      exact absurd hd (by decide)
    unfold hundredthsDigits at hk
    dsimp only at hk
    split_ifs at hk <;> simp_all
  unfold alphaDigits
  split_ifs
  · simp [hk]
  · exact hk _

/-- The alpha of a functional form is read as it is shown. -/
theorem readAlpha_form {c : Color} (h : Within 0 1 c.alpha) :
    readAlpha (if c.isSolid then [] else [alphaDigits c.alpha]) = .ok c.shownOpacity := by
  unfold Rgba.shownOpacity
  split_ifs
  · rfl
  · exact readShare_of_readFinite? (by norm_num) isFigure_of_mem_alphaDigits
      (percent_not_mem_alphaDigits _) (readFinite?_alphaDigits h)
      (by exact_mod_cast within_shownAlpha h)

/-! ### The functional forms -/

theorem mem_formName {c : Color} {model long : String} (h : model.toList ++ ['a'] = long.toList) :
    String.ofList (c.formName model.toList) ∈ [model, long] := by
  unfold Rgba.formName
  split_ifs
  · simp
  · simp [h]

/-- Alpha is a last argument, of a color that is not solid. -/
theorem formArgs_eq (c : Color) (parts : List (List Char)) :
    c.formArgs parts = parts ++ if c.isSolid then [] else [alphaDigits c.alpha] := by
  unfold Rgba.formArgs
  split_ifs
  · rw [List.append_nil]
  · rfl

theorem length_alphaArgument_le (c : Color) :
    (if c.isSolid then [] else [alphaDigits c.alpha] : List (List Char)).length ≤ 1 := by
  split_ifs <;> simp

theorem readRgb_form {c : Color} (h : Within 0 1 c.alpha) :
    readRgb (callText (c.formName "rgb".toList) (c.formArgs c.rgbParts)) = .ok c.shown := by
  unfold readRgb
  rw [functionArguments_callText isCall_rgb (mem_formName (by decide)), formArgs_eq]
  simp only [Rgba.rgbParts, List.cons_append, List.nil_append, bind, Except.bind,
    if_pos (length_alphaArgument_le c), readShare_byte, readAlpha_form h]
  exact congrArg Except.ok (Rgba.clamped_bytes c.rounded c.shownOpacity)

theorem dropDegrees_eq_self {w : List Char} (h : 'g' ∉ w) : dropDegrees w = w := by
  unfold dropDegrees
  split
  · exact absurd List.mem_cons_self h
  · rfl

theorem readHue_toString {i : ℤ} (hi : i.natAbs < 2 ^ 53) :
    readHue (toString i).toList = .ok (ofRat i) := by
  have hf : ∀ c ∈ (toString i).toList, isFigure c = true :=
    fun _ => Decimal.isFigure_of_mem_toString
  have hg : 'g' ∉ (toString i).toList.reverse := by
    intro hg
    exact absurd (hf _ (List.mem_reverse.mp hg)) (by decide)
  unfold readHue
  rw [dropDegrees_eq_self hg, List.reverse_reverse]
  exact readNumber_of_readFinite? hf (Decimal.readFinite?_toString hi)

theorem readPercentage_toString {i : ℤ} (hi : i.natAbs < 2 ^ 53) :
    readPercentage ((toString i).toList ++ ['%']) = .ok (clampUnit (ofRat i / 100)) := by
  have hf : ∀ c ∈ (toString i).toList, isFigure c = true :=
    fun _ => Decimal.isFigure_of_mem_toString
  have hp : '%' ∉ (toString i).toList := by
    rw [Decimal.toList_toString]
    split_ifs
    · simp [percent_not_mem_digits]
    · exact percent_not_mem_digits _
  unfold readPercentage
  rw [beforeAll_append_singleton hp, readNumber_of_readFinite? hf (Decimal.readFinite?_toString hi)]
  rfl

theorem natAbs_toWhole {c : Color} (h : c.InRange) : c.toHsl.toWhole.1.natAbs < 360 ∧
    c.toHsl.toWhole.2.1.natAbs ≤ 100 ∧ c.toHsl.toWhole.2.2.natAbs ≤ 100 := by
  obtain ⟨-, hs, hl⟩ := h.toHsl
  refine ⟨?_, hundredths_le hs, hundredths_le hl⟩
  show ((Scalar.toIntNearest c.toHsl.hue).tmod 360).natAbs < 360
  rw [Int.natAbs_tmod]
  exact Nat.mod_lt _ (by norm_num)

theorem readHsl_form {c : Color} (h : c.InRange) :
    readHsl (callText (c.formName "hsl".toList) (c.formArgs c.hslParts)) = .ok c.shownHsl := by
  obtain ⟨hh, hs, hl⟩ := natAbs_toWhole h
  unfold readHsl
  rw [functionArguments_callText isCall_hsl (mem_formName (by decide)), formArgs_eq]
  simp only [Rgba.hslParts, List.cons_append, List.nil_append, bind, Except.bind,
    if_pos (length_alphaArgument_le c), readHue_toString (i := c.toHsl.toWhole.1) (by omega),
    readPercentage_toString (i := c.toHsl.toWhole.2.1) (by omega),
    readPercentage_toString (i := c.toHsl.toWhole.2.2) (by omega), readAlpha_form h.alpha]
  rfl

theorem afterStart?_form {c : Color} {model : List Char} {args : List (List Char)} :
    (afterStart? model (callText (c.formName model) args)).isSome = true := by
  unfold callText Rgba.formName
  split_ifs
  · rw [afterStart?_append]
    rfl
  · rw [List.append_assoc, afterStart?_append]
    rfl

theorem read_rgbText {c : Color} (h : Within 0 1 c.alpha) :
    read c.rgbText = .ok (c.shown, .rgb) := by
  rw [← String.ofList_toList (s := c.rgbText), toList_rgbText h.isNumber.isNaN,
    read_callText isCall_rgb, if_pos afterStart?_form, readRgb_form h]
  rfl

theorem read_hslText {c : Color} (h : c.InRange) : read c.hslText = .ok (c.shownHsl, .hsl) := by
  have hno : afterStart? "rgb".toList (callText (c.formName "hsl".toList) (c.formArgs c.hslParts))
      = none := by
    unfold Rgba.formName
    split_ifs <;> rfl
  rw [← String.ofList_toList (s := c.hslText), toList_hslText h.alpha.isNumber.isNaN,
    read_callText isCall_hsl, hno, if_neg (by simp), if_pos afterStart?_form, readHsl_form h]
  rfl

/-! ### The hexadecimal forms and keywords -/

theorem hexValue?_digitChar : ∀ d < 16, hexValue? d.digitChar = some d := by decide

theorem digitChar_spec : ∀ d < 16, isPlain d.digitChar = true ∧ isSpace d.digitChar = false ∧
    d.digitChar ≠ '(' ∧ d.digitChar ≠ ')' := by decide

theorem readByte_byteDigits (b : UInt8) :
    readByte (Nat.digitChar (b.toNat / 16)) (Nat.digitChar (b.toNat % 16)) = .ok b := by
  have hb : b.toNat < 256 := b.toNat_lt
  unfold readByte
  rw [hexValue?_digitChar _ (by omega), hexValue?_digitChar _ (by omega)]
  show Except.ok (UInt8.ofNat (16 * (b.toNat / 16) + b.toNat % 16)) = _
  rw [Nat.div_add_mod, UInt8.ofNat_toNat]

theorem read_hash {ds : List Char} (h : IsHexRow ds) :
    read (String.ofList ('#' :: ds)) = readHex ds := by
  have hspec : ∀ c ∈ '#' :: ds, isPlain c = true ∧ isSpace c = false := by
    intro c hc
    rcases List.mem_cons.mp hc with rfl | hc
    · decide
    · obtain ⟨d, hd, rfl⟩ := h c hc
      exact ⟨(digitChar_spec d hd).1, (digitChar_spec d hd).2.1⟩
  have hno : Keyword.rgb? (String.ofList ('#' :: ds)) = none := by
    rw [Option.eq_none_iff_forall_ne_some]
    intro c hc
    have hl := (Keyword.isLower_of_rgb? hc).2 '#' (by simp)
    revert hl
    decide
  unfold read
  dsimp only
  rw [String.toList_ofList, trim_of_all fun c hc => (hspec c hc).2,
    lower_eq_self fun c hc => (hspec c hc).1]
  simp only [hno, if_true]

theorem bytes_eq (c : Color) : c.bytes = [c.rounded.red, c.rounded.green, c.rounded.blue] := rfl

theorem alphaBytes_eq (c : Color) :
    c.alphaBytes = [c.rounded.red, c.rounded.green, c.rounded.blue, c.alphaByte] := rfl

theorem read_longHex (c : Color) : read (longHex c.bytes) = .ok (.solid c.rounded, .hex) := by
  rw [longHex, read_hash (isHexRow_byteDigits _), bytes_eq]
  simp only [List.flatMap_cons, List.flatMap_nil, byteDigits, List.cons_append, List.nil_append,
    readHex, readByte_byteDigits]
  rfl

theorem read_longAlphaHex (c : Color) : read (longHex c.alphaBytes)
    = .ok (.ofRgb c.rounded (alphaOfByte c.alphaByte), .hex8) := by
  rw [longHex, read_hash (isHexRow_byteDigits _), alphaBytes_eq]
  simp only [List.flatMap_cons, List.flatMap_nil, byteDigits, List.cons_append, List.nil_append,
    readHex, readByte_byteDigits]
  rfl

/-- A byte of two equal digits is read from one of them. -/
theorem readByte_of_isDouble {b : UInt8} (h : isDouble b = true) :
    readByte (Nat.digitChar (b.toNat % 16)) (Nat.digitChar (b.toNat % 16)) = .ok b := by
  have heq := readByte_byteDigits b
  rwa [of_decide_eq_true h] at heq

theorem read_briefHex {c : Color} (h : c.bytes.all isDouble = true) :
    read (briefHex c.bytes) = .ok (.solid c.rounded, .hex3) := by
  rw [briefHex_of_isDouble h, read_hash (isHexRow_brief _)]
  rw [bytes_eq] at h ⊢
  simp only [List.all_cons, List.all_nil, Bool.and_true, Bool.and_eq_true] at h
  simp only [List.map_cons, List.map_nil, readHex, readByte_of_isDouble h.1,
    readByte_of_isDouble h.2.1, readByte_of_isDouble h.2.2]
  rfl

theorem read_briefAlphaHex {c : Color} (h : c.alphaBytes.all isDouble = true) :
    read (briefHex c.alphaBytes) = .ok (.ofRgb c.rounded (alphaOfByte c.alphaByte), .hex4) := by
  rw [briefHex_of_isDouble h, read_hash (isHexRow_brief _)]
  rw [alphaBytes_eq] at h ⊢
  simp only [List.all_cons, List.all_nil, Bool.and_true, Bool.and_eq_true] at h
  simp only [List.map_cons, List.map_nil, readHex, readByte_of_isDouble h.1,
    readByte_of_isDouble h.2.1, readByte_of_isDouble h.2.2.1, readByte_of_isDouble h.2.2.2]
  rfl

theorem read_of_rgb? {text : String} {c : Rgb}
    (h : Keyword.rgb? (String.ofList (lower (trim text.toList))) = some c) :
    read text = .ok (.solid c, .keyword) := by
  have hne := (Keyword.isLower_of_rgb? h).1
  rw [String.toList_ofList] at hne
  unfold read
  dsimp only
  rw [h]
  split
  · next hnil => exact absurd hnil hne
  · rfl

theorem read_keyword {name : String} {c : Rgb} (h : Keyword.rgb? name = some c) :
    read name = .ok (.solid c, .keyword) := by
  have hl := (Keyword.isLower_of_rgb? h).2
  refine read_of_rgb? ?_
  rw [trim_of_all fun d hd => (isLower_spec (hl d hd)).2.1,
    lower_eq_self fun d hd => (isLower_spec (hl d hd)).1, String.ofList_toList, h]

/-- The color that the text of a color by bytes stands for: the nearest bytes, alpha among them in
the forms with alpha digits. -/
def byBytes (c : Color) (f : Format) : Color :=
  .ofRgb c.rounded (if f.isAlphaHex then alphaOfByte c.alphaByte else 1)

/-- The text of three digits is the brief one of a solid color whose bytes have equal digits. -/
theorem render?_hex3_eq_some {c : Color} {t : String} :
    c.render? .hex3 = some t ↔
      c.isSolid = true ∧ c.bytes.all isDouble = true ∧ briefHex c.bytes = t := by
  have hsize : (briefHex c.bytes).utf8ByteSize = 4 ↔ c.bytes.all isDouble = true :=
    utf8ByteSize_briefHex_iff (List.cons_ne_nil _ _)
  simp only [render?, Option.ite_none_right_eq_some, Bool.and_eq_true, decide_eq_true_eq, hsize,
    Option.some.injEq, and_assoc]

/-- The text of four digits is the brief one of a color whose bytes have equal digits. -/
theorem render?_hex4_eq_some {c : Color} {t : String} :
    c.render? .hex4 = some t ↔ c.alphaBytes.all isDouble = true ∧ briefHex c.alphaBytes = t := by
  have hsize : (briefHex c.alphaBytes).utf8ByteSize = 5 ↔ c.alphaBytes.all isDouble = true :=
    utf8ByteSize_briefHex_iff (List.cons_ne_nil _ _)
  simp only [render?, Option.ite_none_right_eq_some, hsize, Option.some.injEq]

/-- The forms that have no alpha are those of solid colors. -/
theorem isSolid_of_render? {c : Color} {f : Format} (hf : f ∈ [Format.hex, .hex3, .keyword])
    {t : String} (ht : c.render? f = some t) : c.isSolid = true := by
  cases f with
  | hex | keyword => exact (Option.ite_none_right_eq_some.mp ht).1
  | hex3 => exact (render?_hex3_eq_some.mp ht).1
  | _ => exact absurd hf (by decide)

/-- A hexadecimal text or a keyword is read again, as the color of its bytes. -/
theorem read_byBytes {c : Color} {f : Format}
    (hf : f ∈ [Format.hex, .hex3, .hex4, .hex8, .keyword]) {t : String}
    (ht : c.render? f = some t) : read t = .ok (c.byBytes f, f) := by
  cases f with
  | hex =>
    obtain ⟨-, ht⟩ := Option.ite_none_right_eq_some.mp ht
    rw [← Option.some.inj ht, read_longHex]
    rfl
  | hex3 =>
    obtain ⟨-, hall, rfl⟩ := render?_hex3_eq_some.mp ht
    exact read_briefHex hall
  | hex4 =>
    obtain ⟨hall, rfl⟩ := render?_hex4_eq_some.mp ht
    exact read_briefAlphaHex hall
  | hex8 =>
    rw [← Option.some.inj ht, read_longAlphaHex]
    rfl
  | keyword =>
    obtain ⟨hs, ht⟩ := Option.ite_none_right_eq_some.mp ht
    exact read_keyword (Keyword.rgb?_of_mem (keyword?_eq_some hs ht))
  | hsl | rgb => exact absurd hf (by decide)

/-! ### All forms -/

/-- **A text written for a color is read again,** in the same form, as the color that the form
shows. -/
theorem read_render? {c : Color} (h : c.InRange) {f : Format} (hf : f.isAlphaHex = false)
    {t : String} (ht : c.render? f = some t) : read t = .ok (c.restored f, f) := by
  cases f with
  | hex | hex3 | keyword =>
    have hs := isSolid_of_render? (by decide) ht
    rw [read_byBytes (by decide) ht, Rgba.restored_of_ne _ (by decide), Rgba.shown_of_isSolid hs]
    rfl
  | hex4 | hex8 => exact absurd hf (by decide)
  | hsl => rw [← Option.some.inj ht, read_hslText h, Rgba.restored_hsl]
  | rgb => rw [← Option.some.inj ht, read_rgbText h.alpha, Rgba.restored_of_ne _ (by decide)]

/-- No text written for a color is taken for one in another form. -/
theorem exists_read_render? {c : Color} (h : c.InRange) {f : Format} {t : String}
    (ht : c.render? f = some t) : ∃ d, read t = .ok (d, f) := by
  by_cases hf : f.isAlphaHex = false
  · exact ⟨_, read_render? h hf ht⟩
  · refine ⟨_, read_byBytes ?_ ht⟩
    cases f with
    | hex4 | hex8 => decide
    | _ => exact absurd rfl hf

end Color

end CssColor
