import CssColor.Proofs.Color.Spelling

/-! # The grammar of color texts

What a color text looks like in each of its forms (`ColorText`), as relations between a text and the
numbers it holds, and the proof that the reader takes exactly these texts and tells the form
(`Color.read_classifies`). The readers of the parts are shown to agree with the grammar one by one.
They meet it from the left and from the right end of a text, where the grammar says nothing about
an order; no part can be mistaken since a number has no parenthesis, comma or letter of a unit in
it. -/

namespace CssColor.Color

open Number Number.Scalar Number.Binary64 Text

/-! ### The parts of a color text -/

/-- A decimal in the range of doubles, with white space around it. -/
def NumberText (x : Binary64) (w : List Char) : Prop := Decimal.readFinite? (trim w) = some x

/-- A number with any number of copies of a unit attached, with white space around it. -/
def MeasureText (unit : List Char) (x : Binary64) (w : List Char) : Prop :=
  ∃ v n, trim w = v ++ (List.replicate n unit).flatten ∧ NumberText x v

/-- A number, or a percentage of `top`, with white space around it. -/
def ShareText (top x : Binary64) (w : List Char) : Prop :=
  NumberText x (trim w) ∨ ∃ v y, trim w = v ++ ['%'] ∧ NumberText y v ∧ x = y / 100 * top

/-- A fourth argument, which may be left out. -/
inductive AlphaArgument : Binary64 → List (List Char) → Prop
  | absent : AlphaArgument 1 []
  | present {a : Binary64} {w : List Char} (h : ShareText 1 a w) : AlphaArgument a [w]

/-- A name, white space, and arguments in parentheses. -/
def functionText (name blanks : List Char) (args : List (List Char)) : List Char :=
  name ++ (blanks ++ '(' :: ([','].intercalate args ++ [')']))

/-! ### Color texts -/

/-- The form `rgb` with the numbers its arguments stand for, which may lie outside their ranges. -/
inductive RgbText (r g b a : Binary64) : List Char → Prop
  | intro {name blanks red green blue : List Char} {rest : List (List Char)}
    (hn : String.ofList name ∈ ["rgb", "rgba"]) (hb : ∀ c ∈ blanks, isSpace c = true)
    (hr : ShareText 255 r red) (hg : ShareText 255 g green) (hbl : ShareText 255 b blue)
    (ha : AlphaArgument a rest) :
    RgbText r g b a (functionText name blanks (red :: green :: blue :: rest))

/-- The form `hsl` with the numbers its arguments stand for, which may lie outside their ranges. -/
inductive HslText (h s l a : Binary64) : List Char → Prop
  | intro {name blanks hue saturation lightness : List Char} {rest : List (List Char)}
    (hn : String.ofList name ∈ ["hsl", "hsla"]) (hb : ∀ c ∈ blanks, isSpace c = true)
    (hh : MeasureText ['d', 'e', 'g'] h hue) (hs : MeasureText ['%'] s saturation)
    (hl : MeasureText ['%'] l lightness) (ha : AlphaArgument a rest) :
    HslText h s l a (functionText name blanks (hue :: saturation :: lightness :: rest))

/-- The form of as many hexadecimal digits. -/
def hexFormat? : ℕ → Option Format
  | 3 => some .hex3
  | 4 => some .hex4
  | 6 => some .hex
  | 8 => some .hex8
  | _ => none

theorem isHex_of_hexFormat? {n : ℕ} {f : Format} (h : hexFormat? n = some f) : f.isHex = true := by
  unfold hexFormat? at h
  split at h <;> cases h <;> rfl

/-- **The color texts,** in lower case and without white space around them, by their forms. -/
inductive ColorText : Format → List Char → Prop
  | keyword {name : String} {c : Rgb} (h : (name, c) ∈ Keyword.table) :
    ColorText .keyword name.toList
  | hash {f : Format} {ds : List Char} (hf : hexFormat? ds.length = some f)
    (hd : ∀ c ∈ ds, isHexDigit c = true) : ColorText f ('#' :: ds)
  | bare {f : Format} {ds : List Char} (hf : hexFormat? ds.length = some f)
    (hd : ∀ c ∈ ds, isHexDigit c = true) : ColorText f ds
  | rgb {r g b a : Binary64} {cs : List Char} (h : RgbText r g b a cs) : ColorText .rgb cs
  | hsl {h s l a : Binary64} {cs : List Char} (hh : HslText h s l a cs) : ColorText .hsl cs

/-! ### Numbers and units -/

variable {x y top a : Binary64} {w v unit : List Char}

theorem readNumber_eq_ok_iff : readNumber w = .ok x ↔ NumberText x w := by
  unfold readNumber NumberText
  cases Decimal.readFinite? (trim w) <;> simp

theorem NumberText.isNumeral_or (h : NumberText x w) {c : Char} (hc : c ∈ w) :
    isNumeral c = true ∨ isSpace c = true :=
  (mem_trim_or hc).imp_left (isNumeral_of_readFinite? h)

theorem NumberText.not_mem (h : NumberText x w) {c : Char} (hn : isNumeral c = false)
    (hs : isSpace c = false) : c ∉ w := by
  intro hc
  rcases h.isNumeral_or hc with hc | hc
  · exact absurd hc (by simp [hn])
  · exact absurd hc (by simp [hs])

theorem MeasureText.comma_not_mem (h : MeasureText unit x w) (hu : ',' ∉ unit) : ',' ∉ w := by
  obtain ⟨v, n, hv, hx⟩ := h
  intro hc
  rcases mem_trim_or hc with hc | hc
  · rw [hv, List.mem_append] at hc
    rcases hc with hc | hc
    · exact hx.not_mem (by decide) (by decide) hc
    · obtain ⟨u, hu', hc⟩ := List.mem_flatten.mp hc
      rw [List.eq_of_mem_replicate hu'] at hc
      exact hu hc
  · exact absurd hc (by decide)

theorem ShareText.exists_measureText (h : ShareText top x w) : ∃ y, MeasureText ['%'] y w := by
  rcases h with hx | ⟨v, y, hv, hy, -⟩
  · exact ⟨x, trim w, 0, by simp, hx⟩
  · exact ⟨y, v, 1, hv, hy⟩

theorem ShareText.comma_not_mem (h : ShareText top x w) : ',' ∉ w := by
  obtain ⟨y, hy⟩ := h.exists_measureText
  exact hy.comma_not_mem (by decide)

theorem AlphaArgument.comma_not_mem {rest : List (List Char)} (h : AlphaArgument x rest) :
    ∀ w ∈ rest, ',' ∉ w := by
  cases h with
  | absent => simp
  | present hx => simpa using hx.comma_not_mem

theorem readShare_eq_ok_iff : readShare top (trim w) = .ok y ↔
    ∃ x, ShareText top x w ∧ y = clamp 0 top x := by
  unfold readShare ShareText
  constructor
  · intro h
    split at h
    · next percent hp =>
      obtain ⟨z, hz, h⟩ := exists_of_bind_eq_ok h
      exact ⟨_, Or.inr ⟨percent, z, eq_of_beforeEnd? hp, readNumber_eq_ok_iff.mp hz, rfl⟩,
        (Except.ok.inj h).symm⟩
    · obtain ⟨z, hz, h⟩ := exists_of_bind_eq_ok h
      exact ⟨z, Or.inl (readNumber_eq_ok_iff.mp hz), (Except.ok.inj h).symm⟩
  · rintro ⟨x, hx | ⟨v, z, hv, hz, rfl⟩, rfl⟩
    · rw [beforeEnd?_eq_none (hx.not_mem (by decide) (by decide))]
      simp only [readNumber_eq_ok_iff.mpr hx]
      rfl
    · rw [hv, beforeEnd?_append]
      simp only [readNumber_eq_ok_iff.mpr hz]
      rfl

theorem flatten_replicate_singleton (n : ℕ) (c : Char) :
    (List.replicate n [c]).flatten = List.replicate n c := by
  simp

theorem readPercentage_eq_ok_iff : readPercentage (trim w) = .ok y ↔
    ∃ x, MeasureText ['%'] x w ∧ y = clampUnit (x / 100) := by
  unfold readPercentage MeasureText
  simp only [flatten_replicate_singleton]
  constructor
  · intro h
    obtain ⟨x, hx, h⟩ := exists_of_bind_eq_ok h
    obtain ⟨n, hn⟩ := exists_beforeAll '%' (trim w)
    exact ⟨x, ⟨_, n, hn, readNumber_eq_ok_iff.mp hx⟩, (Except.ok.inj h).symm⟩
  · rintro ⟨x, ⟨v, n, hv, hx⟩, rfl⟩
    rw [hv, beforeAll_append_replicate (hx.not_mem (by decide) (by decide)),
      readNumber_eq_ok_iff.mpr hx]
    rfl

theorem exists_dropDegrees (w : List Char) :
    ∃ n, w = (List.replicate n ['g', 'e', 'd']).flatten ++ dropDegrees w := by
  fun_induction dropDegrees w with
  | case1 w ih =>
    obtain ⟨n, hn⟩ := ih
    refine ⟨n + 1, ?_⟩
    rw [List.replicate_succ, List.flatten_cons, List.append_assoc, ← hn]
    rfl
  | case2 w _ => exact ⟨0, rfl⟩

theorem dropDegrees_append (n : ℕ) (h : 'g' ∉ w) :
    dropDegrees ((List.replicate n ['g', 'e', 'd']).flatten ++ w) = w := by
  induction n with
  | zero => rwa [List.replicate_zero, List.flatten_nil, List.nil_append, dropDegrees_eq_self]
  | succ n ih =>
    rw [List.replicate_succ, List.flatten_cons, List.append_assoc]
    exact ih

theorem reverse_degrees (v : List Char) (n : ℕ) :
    (v ++ (List.replicate n ['d', 'e', 'g']).flatten).reverse =
      (List.replicate n ['g', 'e', 'd']).flatten ++ v.reverse := by
  rw [List.reverse_append, List.reverse_flatten, List.map_replicate, List.reverse_replicate]
  rfl

theorem readHue_eq_ok_iff : readHue (trim w) = .ok x ↔ MeasureText ['d', 'e', 'g'] x w := by
  unfold readHue MeasureText
  rw [readNumber_eq_ok_iff]
  constructor
  · intro h
    obtain ⟨n, hn⟩ := exists_dropDegrees (trim w).reverse
    refine ⟨_, n, List.reverse_injective ?_, h⟩
    rw [reverse_degrees, List.reverse_reverse]
    exact hn
  · rintro ⟨v, n, hv, hx⟩
    have hg : 'g' ∉ v.reverse := by
      rw [List.mem_reverse]
      exact hx.not_mem (by decide) (by decide)
    rwa [hv, reverse_degrees, dropDegrees_append n hg, List.reverse_reverse]

theorem readAlpha_eq_ok_iff {rest : List (List Char)} :
    rest.length ≤ 1 ∧ readAlpha (rest.map trim) = .ok y ↔
      ∃ x, AlphaArgument x rest ∧ y = clampUnit x := by
  constructor
  · rintro ⟨hl, h⟩
    match rest with
    | [] => exact ⟨1, .absent, by rw [← Except.ok.inj h, Rgba.clampUnit_one]⟩
    | [w] =>
      obtain ⟨x, hx, hy⟩ := readShare_eq_ok_iff.mp h
      exact ⟨x, .present hx, hy⟩
  · rintro ⟨x, hx, rfl⟩
    cases hx with
    | absent => exact ⟨by simp, by rw [Rgba.clampUnit_one]; rfl⟩
    | present hx => exact ⟨by simp, readShare_eq_ok_iff.mpr ⟨x, hx, rfl⟩⟩

/-! ### Functional forms -/

/-- The names of the functional forms are words of small letters. -/
theorem isLower_of_mem_names {name : List Char}
    (h : String.ofList name ∈ ["rgb", "rgba", "hsl", "hsla"]) : ∀ c ∈ name, c.isLower = true := by
  have hall : ∀ s ∈ ["rgb", "rgba", "hsl", "hsla"], ∀ c ∈ s.toList, c.isLower = true := by simp
  intro c hc
  exact hall _ h c (by rwa [String.toList_ofList])

section

variable {names : List String} (hnames : ∀ s ∈ names, s ∈ ["rgb", "rgba", "hsl", "hsla"])

include hnames

/-- The arguments of a functional form are its parts without white space around them. -/
theorem functionArguments_functionText {name blanks : List Char} {args : List (List Char)}
    (hn : String.ofList name ∈ names) (hb : ∀ c ∈ blanks, isSpace c = true) (hne : args ≠ [])
    (hc : ∀ w ∈ args, ',' ∉ w) :
    functionArguments names (functionText name blanks args) = .ok (args.map trim) := by
  have hl := isLower_of_mem_names (hnames _ hn)
  have htrim : trim (name ++ blanks) = name :=
    trim_run (fun c hc => (isLower_spec (hl c hc)).2.1) hb
  have hopen : '(' ∉ name ++ blanks := by
    rw [List.mem_append, not_or]
    exact ⟨fun h => absurd (hl _ h) (by decide), fun h => absurd (hb _ h) (by decide)⟩
  unfold functionArguments functionText
  rw [← List.append_assoc, splitFirst?_run hopen]
  simp only [htrim, if_pos hn, beforeEnd?_append, List.splitOn_intercalate _ hc hne]

end

theorem exists_functionText {names : List String} {args : List (List Char)} (ht : trim w = w)
    (h : functionArguments names w = .ok args) : ∃ name blanks parts,
      w = functionText name blanks parts ∧ String.ofList name ∈ names ∧
        (∀ c ∈ blanks, isSpace c = true) ∧ parts.map trim = args := by
  obtain ⟨before, content, rfl, hn, rfl⟩ := functionArguments_eq_ok h
  obtain ⟨u, v, hbefore, hu, hv⟩ := exists_trim before
  have hnil : u = [] := by
    cases u with
    | nil => rfl
    | cons c cs =>
      have hhead := (trim_eq_self_iff.mp ht).1
      rw [hbefore] at hhead
      exact absurd (congrArg some (hu c List.mem_cons_self)) hhead
  rw [hnil, List.nil_append] at hbefore
  refine ⟨trim before, v, content.splitOn ',', ?_, hn, hv, rfl⟩
  rw [functionText, List.intercalate_splitOn, ← List.append_assoc, ← hbefore]

theorem ShareText.isNumber {n : ℕ} (hn0 : n ≠ 0) (hn : n < 2 ^ 53)
    (h : ShareText (ofNat n) x w) : x.IsNumber := by
  rcases h with hx | ⟨v, y, -, hy, rfl⟩
  · exact (readNumber_eq_ok (readNumber_eq_ok_iff.mpr hx)).2
  · exact (isNumber_div_hundred (readNumber_eq_ok (readNumber_eq_ok_iff.mpr hy)).2).mul_ofNat hn0 hn

theorem AlphaArgument.isNumber {rest : List (List Char)} (h : AlphaArgument x rest) :
    x.IsNumber := by
  cases h with
  | absent => exact Rgba.within_one.isNumber
  | present hx => exact ShareText.isNumber (n := 1) (by norm_num) (by norm_num) hx

/-- Numbers moved into their ranges once do not change when they are moved again. -/
theorem clamped_clamp {r g b : Binary64} {red green blue : List Char} {rest : List (List Char)}
    (hr : ShareText 255 r red) (hg : ShareText 255 g green) (hb : ShareText 255 b blue)
    (ha : AlphaArgument a rest) :
    Rgba.clamped (clamp 0 255 r) (clamp 0 255 g) (clamp 0 255 b) (clampUnit a) =
      (Rgba.clamped r g b a : Color) :=
  have hshare : ∀ {y : Binary64} {w : List Char}, ShareText 255 y w → y.IsNumber :=
    ShareText.isNumber (n := 255) (by norm_num) (by norm_num)
  (Rgba.inRange_clamped (hshare hr) (hshare hg) (hshare hb) ha.isNumber).clamped_eq

/-- The form `rgb` is read as the color of its numbers, each moved into its range. -/
theorem readRgb_of_rgbText {r g b : Binary64} (h : RgbText r g b a w) :
    readRgb w = .ok (.clamped r g b a) := by
  obtain ⟨hn, hb, hr, hg, hbl, ha⟩ := h
  obtain ⟨hl, halpha⟩ := readAlpha_eq_ok_iff.mpr ⟨a, ha, rfl⟩
  have hcomma := ha.comma_not_mem
  unfold readRgb
  rw [functionArguments_functionText (by decide) hn hb (by simp)
    (by simpa [hr.comma_not_mem, hg.comma_not_mem, hbl.comma_not_mem] using hcomma)]
  simp only [List.map_cons, List.length_map, if_pos hl, readShare_eq_ok_iff.mpr ⟨r, hr, rfl⟩,
    readShare_eq_ok_iff.mpr ⟨g, hg, rfl⟩, readShare_eq_ok_iff.mpr ⟨b, hbl, rfl⟩, halpha, bind,
    Except.bind]
  exact congrArg Except.ok (clamped_clamp hr hg hbl ha)

theorem rgbText_of_readRgb {c : Color} (ht : trim w = w) (h : readRgb w = .ok c) :
    ∃ r g b a, RgbText r g b a w ∧ c = .clamped r g b a := by
  obtain ⟨hargs, hr, hg, hbl, hlength, ha⟩ := rgbReading_of_readRgb h
  obtain ⟨name, blanks, parts, rfl, hn, hb, hparts⟩ := exists_functionText ht hargs
  obtain ⟨red, others, rfl, rfl, hothers⟩ := List.map_eq_cons_iff.mp hparts
  obtain ⟨green, others, rfl, rfl, hlast⟩ := List.map_eq_cons_iff.mp hothers
  obtain ⟨blue, rest, rfl, rfl, rfl⟩ := List.map_eq_cons_iff.mp hlast
  obtain ⟨r, hred, rfl⟩ := readShare_eq_ok_iff.mp hr
  obtain ⟨g, hgreen, rfl⟩ := readShare_eq_ok_iff.mp hg
  obtain ⟨b, hblue, rfl⟩ := readShare_eq_ok_iff.mp hbl
  obtain ⟨a, halpha, rfl⟩ := readAlpha_eq_ok_iff.mp ⟨by simpa using hlength, ha⟩
  exact ⟨r, g, b, a, .intro hn hb hred hgreen hblue halpha,
    clamped_clamp hred hgreen hblue halpha⟩

/-- The color that the numbers of an `hsl` text stand for. Only the hue may lie anywhere, since it
goes round a circle. -/
def ofHslNumbers (h s l a : Binary64) : Color :=
  (⟨h, clampUnit (s / 100), clampUnit (l / 100)⟩ : Hsl Binary64).toRgba (clampUnit a)

theorem HslText.alpha_ofHslNumbers {h s l : Binary64} (ht : HslText h s l a w) :
    (ofHslNumbers h s l a).alpha = clampUnit a := by
  obtain ⟨-, -, -, -, -, ha⟩ := ht
  rw [ofHslNumbers, Hsl.alpha_toRgba, clampUnit_eq_self (within_clampUnit ha.isNumber)]

theorem readHsl_of_hslText {h s l : Binary64} (ht : HslText h s l a w) :
    readHsl w = .ok (ofHslNumbers h s l a) := by
  obtain ⟨hn, hb, hh, hs, hl, ha⟩ := ht
  obtain ⟨hlen, halpha⟩ := readAlpha_eq_ok_iff.mpr ⟨a, ha, rfl⟩
  have hcomma := ha.comma_not_mem
  unfold readHsl
  rw [functionArguments_functionText (by decide) hn hb (by simp)
    (by simpa [hh.comma_not_mem, hs.comma_not_mem, hl.comma_not_mem] using hcomma)]
  simp only [List.map_cons, List.length_map, if_pos hlen, readHue_eq_ok_iff.mpr hh,
    readPercentage_eq_ok_iff.mpr ⟨s, hs, rfl⟩, readPercentage_eq_ok_iff.mpr ⟨l, hl, rfl⟩, halpha,
    bind, Except.bind]
  rfl

theorem hslText_of_readHsl {c : Color} (ht : trim w = w) (hc : readHsl w = .ok c) :
    ∃ h s l a, HslText h s l a w ∧ c = ofHslNumbers h s l a := by
  obtain ⟨hargs, hh, hs, hl, hlength, ha⟩ := hslReading_of_readHsl hc
  obtain ⟨name, blanks, parts, rfl, hn, hb, hparts⟩ := exists_functionText ht hargs
  obtain ⟨hue, others, rfl, rfl, hothers⟩ := List.map_eq_cons_iff.mp hparts
  obtain ⟨saturation, others, rfl, rfl, hlast⟩ := List.map_eq_cons_iff.mp hothers
  obtain ⟨lightness, rest, rfl, rfl, rfl⟩ := List.map_eq_cons_iff.mp hlast
  obtain ⟨s, hsat, rfl⟩ := readPercentage_eq_ok_iff.mp hs
  obtain ⟨l, hlight, rfl⟩ := readPercentage_eq_ok_iff.mp hl
  obtain ⟨a, halpha, rfl⟩ := readAlpha_eq_ok_iff.mp ⟨by simpa using hlength, ha⟩
  exact ⟨_, s, l, a, .intro hn hb (readHue_eq_ok_iff.mp hh) hsat hlight halpha, rfl⟩

/-! ### Hexadecimal digits -/

theorem exists_readByte : ∃ byte : Char → Char → UInt8, ∀ d e, isHexDigit d = true →
    isHexDigit e = true → readByte d e = .ok (byte d e) := by
  refine ⟨fun d e => UInt8.ofNat (16 * (hexValue? d).getD 0 + (hexValue? e).getD 0), ?_⟩
  intro d e hd he
  obtain ⟨m, hm⟩ := Option.isSome_iff_exists.mp hd
  obtain ⟨n, hn⟩ := Option.isSome_iff_exists.mp he
  simp only [readByte, hm, hn, Option.getD_some]

theorem exists_readHex {f : Format} : ∀ {w : List Char}, hexFormat? w.length = some f →
    (∀ c ∈ w, isHexDigit c = true) → ∃ c, readHex w = .ok (c, f)
  | [r, g, b], hf, hd => by
    obtain ⟨byte, hbyte⟩ := exists_readByte
    simp only [List.forall_mem_cons] at hd
    cases hf
    simp [readHex, hbyte, hd, bind, Except.bind, pure, Except.pure]
  | [r, g, b, a], hf, hd => by
    obtain ⟨byte, hbyte⟩ := exists_readByte
    simp only [List.forall_mem_cons] at hd
    cases hf
    simp [readHex, hbyte, hd, bind, Except.bind, pure, Except.pure]
  | [r, r', g, g', b, b'], hf, hd => by
    obtain ⟨byte, hbyte⟩ := exists_readByte
    simp only [List.forall_mem_cons] at hd
    cases hf
    simp [readHex, hbyte, hd, bind, Except.bind, pure, Except.pure]
  | [r, r', g, g', b, b', a, a'], hf, hd => by
    obtain ⟨byte, hbyte⟩ := exists_readByte
    simp only [List.forall_mem_cons] at hd
    cases hf
    simp [readHex, hbyte, hd, bind, Except.bind, pure, Except.pure]
  | [], hf, _ | [_], hf, _ | [_, _], hf, _ | [_, _, _, _, _], hf, _ | [_, _, _, _, _, _, _], hf, _
  | _ :: _ :: _ :: _ :: _ :: _ :: _ :: _ :: _ :: _, hf, _ => by cases hf

/-- What is read as hexadecimal digits is as many of them as its form has. -/
theorem hexFormat?_of_readHex {c : Color} {f : Format} (h : readHex w = .ok (c, f)) :
    hexFormat? w.length = some f := by
  cases hexReading_of_readHex h <;> rfl

theorem isBareHex_iff : isBareHex w = true ↔
    (∃ f, hexFormat? w.length = some f) ∧ ∀ c ∈ w, isHexDigit c = true := by
  have hlength : w.length ∈ [3, 4, 6, 8] ↔ ∃ f, hexFormat? w.length = some f := by
    unfold hexFormat?
    split <;> simp_all
  rw [isBareHex, Bool.and_eq_true, decide_eq_true_eq, hlength, List.all_eq_true]

/-! ### Telling the forms apart -/

set_option maxRecDepth 100000 in
/-- No keyword could be a row of hexadecimal digits. -/
theorem all_isHexDigit_keyword : ∀ p ∈ Keyword.table, p.1.toList.all isHexDigit = false := by
  decide +kernel

/-- The form of a color text, told by the characters in it. -/
def formOf (cs : List Char) : Option Format :=
  if '(' ∈ cs then (if cs.head? = some 'r' then some .rgb else some .hsl)
  else if cs.head? = some '#' then hexFormat? cs.tail.length
  else if cs.all isHexDigit then hexFormat? cs.length
  else some .keyword

theorem paren_not_mem_of_isHexDigit (h : ∀ c ∈ w, isHexDigit c = true) : '(' ∉ w := fun hp =>
  absurd (h _ hp) (by decide)

/-- A functional form begins as all names for it do. -/
theorem exists_functionText_eq {model name blanks : List Char} {args : List (List Char)}
    {names : List String} (hnames : ∀ s ∈ names, (afterStart? model s.toList).isSome = true)
    (hn : String.ofList name ∈ names) :
    ∃ rest, functionText name blanks args = model ++ rest ∧ '(' ∈ rest := by
  have hstart := hnames _ hn
  rw [String.toList_ofList] at hstart
  obtain ⟨more, hmore⟩ := Option.isSome_iff_exists.mp hstart
  refine ⟨more ++ (blanks ++ '(' :: ([','].intercalate args ++ [')'])), ?_, by simp⟩
  rw [functionText, eq_of_afterStart? hmore, List.append_assoc]

theorem RgbText.exists_eq {r g b : Binary64} (h : RgbText r g b a w) :
    ∃ rest, w = "rgb".toList ++ rest ∧ '(' ∈ rest := by
  obtain ⟨hn, -, -, -, -, -⟩ := h
  exact exists_functionText_eq (by decide) hn

theorem HslText.exists_eq {h s l : Binary64} (ht : HslText h s l a w) :
    ∃ rest, w = "hsl".toList ++ rest ∧ '(' ∈ rest := by
  obtain ⟨hn, -, -, -, -, -⟩ := ht
  exact exists_functionText_eq (by decide) hn

theorem ColorText.formOf_eq {f : Format} (h : ColorText f w) : formOf w = some f := by
  unfold formOf
  cases h with
  | @keyword name c hk =>
    have hlower := List.all_eq_true.mp (Keyword.isWord_of_mem hk).2
    have hopen : '(' ∉ name.toList := fun hp => absurd (hlower _ hp) (by decide)
    have hhash : name.toList.head? ≠ some '#' := fun hp =>
      absurd (hlower _ (List.mem_of_head? hp)) (by decide)
    rw [if_neg hopen, if_neg hhash, all_isHexDigit_keyword _ hk]
    rfl
  | @hash _ ds hf hd =>
    have hopen : '(' ∉ '#' :: ds := by
      rw [List.mem_cons, not_or]
      exact ⟨by decide, paren_not_mem_of_isHexDigit hd⟩
    rw [if_neg hopen, List.head?_cons, if_pos rfl]
    exact hf
  | bare hf hd =>
    have hhash : w.head? ≠ some '#' := fun hp =>
      absurd (hd _ (List.mem_of_head? hp)) (by decide)
    rw [if_neg (paren_not_mem_of_isHexDigit hd), if_neg hhash, if_pos (List.all_eq_true.mpr hd)]
    exact hf
  | rgb h =>
    obtain ⟨rest, rfl, hopen⟩ := h.exists_eq
    rw [if_pos (List.mem_append_right _ hopen)]
    rfl
  | hsl h =>
    obtain ⟨rest, rfl, hopen⟩ := h.exists_eq
    rw [if_pos (List.mem_append_right _ hopen)]
    rfl

/-- No text has two forms. -/
theorem ColorText.unique {f g : Format} (hf : ColorText f w) (hg : ColorText g w) : f = g :=
  Option.some.inj (hf.formOf_eq.symm.trans hg.formOf_eq)

/-! ### Whole texts -/

theorem colorText_of_rgb? {c : Rgb} (h : Keyword.rgb? (String.ofList w) = some c) :
    ColorText .keyword w := by
  have hk := ColorText.keyword (Keyword.mem_table_of_rgb? h)
  rwa [String.toList_ofList] at hk

theorem read_of_rgbText {text : String} {r g b : Binary64}
    (h : RgbText r g b a (lower (trim text.toList))) :
    read text = .ok (.clamped r g b a, .rgb) := by
  obtain ⟨more, hmore, hopen⟩ := h.exists_eq
  rw [read_of_paren_mem hmore (List.mem_append_right _ hopen) (by simp), afterStart?_append,
    Option.isSome_some, if_pos rfl, ← hmore, readRgb_of_rgbText h]
  rfl

theorem read_of_hslText {text : String} {h s l : Binary64}
    (ht : HslText h s l a (lower (trim text.toList))) :
    read text = .ok (ofHslNumbers h s l a, .hsl) := by
  obtain ⟨more, hmore, hopen⟩ := ht.exists_eq
  have hrgb : afterStart? "rgb".toList ("hsl".toList ++ more) = none := rfl
  rw [read_of_paren_mem hmore (List.mem_append_right _ hopen) (by simp), hrgb, afterStart?_append,
    if_neg (by simp), Option.isSome_some, if_pos rfl, ← hmore, readHsl_of_hslText ht]
  rfl

/-- Digits without a number sign are read by the reader for digits. -/
theorem read_of_isBareHex {text : String} (h : isBareHex (lower (trim text.toList)) = true) :
    read text = readHex (lower (trim text.toList)) := by
  obtain ⟨⟨f, hf⟩, hd⟩ := isBareHex_iff.mp h
  have hk : Keyword.rgb? (String.ofList (lower (trim text.toList))) = none := by
    rw [Option.eq_none_iff_forall_ne_some]
    intro c hc
    obtain rfl := (ColorText.bare hf hd).unique (colorText_of_rgb? hc)
    exact absurd (isHex_of_hexFormat? hf) (by decide)
  unfold read
  dsimp only
  split
  · next hnil =>
    rw [hnil] at hf
    cases hf
  · next first rest hsmall =>
    have hfirst : first ≠ '#' := by
      rintro rfl
      exact absurd (hd '#' (by simp [hsmall])) (by decide)
    rw [hk]
    simp only [if_neg hfirst, if_pos h]

/-- Every color text is read in its form: no earlier test of the reader takes it for another. -/
theorem exists_read_of_colorText {text : String} {f : Format}
    (h : ColorText f (lower (trim text.toList))) : ∃ c, read text = .ok (c, f) := by
  generalize hsmall : lower (trim text.toList) = small at h
  cases h with
  | keyword hk =>
    have hrgb := Keyword.rgb?_of_mem hk
    exact ⟨_, read_of_rgb? (by rw [hsmall, String.ofList_toList, hrgb])⟩
  | hash hf hd =>
    rw [read_of_hash hsmall]
    exact exists_readHex hf hd
  | bare hf hd =>
    rw [read_of_isBareHex (by rw [hsmall]; exact isBareHex_iff.mpr ⟨⟨f, hf⟩, hd⟩), hsmall]
    exact exists_readHex hf hd
  | rgb h => exact ⟨_, read_of_rgbText (by rwa [hsmall])⟩
  | hsl h => exact ⟨_, read_of_hslText (by rwa [hsmall])⟩

theorem colorText_of_read {text : String} {c : Color} {f : Format} (h : read text = .ok (c, f)) :
    ColorText f (lower (trim text.toList)) := by
  have ht := trim_lower_of_read h
  have hread := readAs_of_read h
  generalize lower (trim text.toList) = small at ht hread
  cases hread with
  | keyword hk => exact colorText_of_rgb? hk
  | hash hx => exact .hash (hexFormat?_of_readHex hx) (isHexDigit_of_readHex hx).2
  | bare _ hx => exact .bare (hexFormat?_of_readHex hx) (isHexDigit_of_readHex hx).2
  | rgb hc =>
    obtain ⟨r, g, b, a, hrgb, -⟩ := rgbText_of_readRgb ht hc
    exact .rgb hrgb
  | hsl hc =>
    obtain ⟨h, s, l, a, hhsl, -⟩ := hslText_of_readHsl ht hc
    exact .hsl hhsl

theorem hslText_of_read {text : String} {c : Color} (h : read text = .ok (c, .hsl)) :
    ∃ hue s l a, HslText hue s l a (lower (trim text.toList)) ∧ c = ofHslNumbers hue s l a := by
  have htext := colorText_of_read h
  generalize hsmall : lower (trim text.toList) = small at htext
  cases htext with
  | hash hf _ => exact absurd (isHex_of_hexFormat? hf) (by decide)
  | bare hf _ => exact absurd (isHex_of_hexFormat? hf) (by decide)
  | @hsl hue s l a _ ht =>
    have hread : read text = .ok (ofHslNumbers hue s l a, .hsl) :=
      read_of_hslText (by rwa [hsmall])
    rw [h] at hread
    cases hread
    exact ⟨hue, s, l, a, ht, rfl⟩

/-- **The reader takes exactly the color texts and tells their form.** White space around a text and
its case do not matter. No text has two forms, and every color that is read is in range: the numbers
of an `rgb` text are moved into their ranges, and so is alpha of an `hsl` text. -/
theorem read_classifies (text : String) :
    (∀ f, (∃ c, read text = .ok (c, f)) ↔ ColorText f (lower (trim text.toList))) ∧
      (∀ f g cs, ColorText f cs → ColorText g cs → f = g) ∧
      (∀ c f, read text = .ok (c, f) → c.InRange) ∧
      (∀ r g b a, RgbText r g b a (lower (trim text.toList)) →
        read text = .ok (.clamped r g b a, .rgb)) ∧
      ∀ h s l a, HslText h s l a (lower (trim text.toList)) →
        ∃ c, read text = .ok (c, .hsl) ∧ c.alpha = clampUnit a := by
  refine ⟨fun f => ⟨fun ⟨c, hc⟩ => colorText_of_read hc, exists_read_of_colorText⟩,
    fun f g cs hf hg => hf.unique hg, fun c f hc => inRange_of_read hc,
    fun r g b a h => read_of_rgbText h, fun h s l a ht => ⟨_, read_of_hslText ht, ?_⟩⟩
  exact ht.alpha_ofHslNumbers

end CssColor.Color
