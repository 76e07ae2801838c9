import CssColor.Proofs.Color.ReadRange
import CssColor.Proofs.Text.Lowercase

/-! # How color texts are spelled

A text that is read as a color is ordinary throughout once it is in lower case: ASCII, and white
space in the functional forms. A percent sign in it stands before a percent sign, white space, a
comma or the closing parenthesis, so no two hexadecimal digits follow the last one of an argument
(`Spelled`, `spelled_of_read`). Only the text in lower case and without white space around it
matters for what is read (`read_of_lower_eq`). -/

namespace CssColor.Color

open Number Text

/-! ### Numbers -/

/-- A character of a decimal. -/
def isNumeral (c : Char) : Bool := c.isDigit || c ∈ ['.', '+', '-', 'e', 'E']

theorem toNat_lt_of_isNumeral {c : Char} (h : isNumeral c = true) : c.toNat < 128 := by
  simp only [isNumeral, Bool.or_eq_true, decide_eq_true_eq, List.mem_cons, List.not_mem_nil,
    or_false] at h
  rcases h with h | rfl | rfl | rfl | rfl | rfl
  · exact toNat_lt_of_isDigit h
  all_goals decide

theorem isNumeral_spec {c : Char} (h : isNumeral c = true) :
    isOrdinary c = true ∧ isSpace c = false ∧ c ≠ '%' :=
  forall_ascii (P := fun c => isNumeral c = true →
    isOrdinary c = true ∧ isSpace c = false ∧ c ≠ '%') (by decide) (toNat_lt_of_isNumeral h) h

theorem isNumeral_of_isDigit {c : Char} (h : c.isDigit = true) : isNumeral c = true := by
  simp [isNumeral, h]

theorem mem_splitSign {cs : List Char} {c : Char} (h : c ∈ cs) :
    isNumeral c = true ∨ c ∈ (Decimal.splitSign cs).2 := by
  unfold Decimal.splitSign
  split
  · rcases List.mem_cons.mp h with rfl | h
    · exact Or.inl (by decide)
    · exact Or.inr h
  · rcases List.mem_cons.mp h with rfl | h
    · exact Or.inl (by decide)
    · exact Or.inr h
  · exact Or.inr h

theorem mem_digits_or {cs : List Char} {c : Char} (h : c ∈ cs) :
    isNumeral c = true ∨ c ∈ cs.dropWhile Char.isDigit := by
  rw [← List.takeWhile_append_dropWhile (p := Char.isDigit) (l := cs), List.mem_append] at h
  rcases h with h | h
  · exact Or.inl (isNumeral_of_isDigit (List.mem_takeWhile_imp h))
  · exact Or.inr h

theorem mem_splitFraction {cs : List Char} {c : Char} (h : c ∈ cs) :
    isNumeral c = true ∨ c ∈ (Decimal.splitFraction cs).2 := by
  unfold Decimal.splitFraction
  split
  · rcases List.mem_cons.mp h with rfl | h
    · exact Or.inl (by decide)
    · exact mem_digits_or h
  · exact Or.inr h

theorem isNumeral_of_readExponent? {cs : List Char} {e : ℤ} (h : Decimal.readExponent? cs = some e)
    {c : Char} (hc : c ∈ cs) : isNumeral c = true := by
  unfold Decimal.readExponent? at h
  split at h
  · cases hc
  · next m ds =>
    obtain ⟨⟨hm, -, hds⟩, -⟩ := Option.ite_none_right_eq_some.mp h
    rcases List.mem_cons.mp hc with rfl | hc
    · rcases hm with rfl | rfl <;> decide
    · rcases mem_splitSign hc with hc | hc
      · exact hc
      · exact isNumeral_of_isDigit (List.all_eq_true.mp hds c hc)

/-- A decimal has no characters but those of decimals. -/
theorem isNumeral_of_readFinite? {cs : List Char} {x : Binary64}
    (h : Decimal.readFinite? cs = some x) {c : Char} (hc : c ∈ cs) : isNumeral c = true := by
  obtain ⟨hsigned, -⟩ := Option.filter_eq_some_iff.mp h
  obtain ⟨y, hunsigned, -⟩ := Option.map_eq_some_iff.mp hsigned
  unfold Decimal.readUnsigned? at hunsigned
  dsimp only at hunsigned
  obtain ⟨-, hexp⟩ := Option.ite_none_left_eq_some.mp hunsigned
  obtain ⟨e, he, -⟩ := Option.map_eq_some_iff.mp hexp
  rcases mem_splitSign hc with hc | hc
  · exact hc
  · rcases mem_digits_or hc with hc | hc
    · exact hc
    · rcases mem_splitFraction hc with hc | hc
      · exact hc
      · exact isNumeral_of_readExponent? he hc

/-! ### Arguments -/

/-- An ordinary text without percent signs, and some percent signs behind it. -/
def IsArgument (w : List Char) : Prop :=
  ∃ body k, w = body ++ List.replicate k '%' ∧ ∀ c ∈ body, isOrdinary c = true ∧ c ≠ '%'

theorem ordinary_of_readNumber {cs : List Char} {x : Binary64} (h : readNumber cs = .ok x) :
    ∀ c ∈ cs, isOrdinary c = true ∧ c ≠ '%' := by
  intro c hc
  unfold readNumber at h
  split at h
  · next hx =>
    rcases mem_trim_or hc with hc | hc
    · obtain ⟨hord, -, hne⟩ := isNumeral_spec (isNumeral_of_readFinite? hx hc)
      exact ⟨hord, hne⟩
    · refine ⟨by simp [isOrdinary, hc], ?_⟩
      rintro rfl
      exact absurd hc (by decide)
  · cases h

theorem isArgument_of_readShare {top x : Binary64} {w : List Char} (h : readShare top w = .ok x) :
    IsArgument w := by
  unfold readShare at h
  split at h
  · next percent hp =>
    obtain ⟨y, hy, -⟩ := exists_of_bind_eq_ok h
    exact ⟨percent, 1, eq_of_beforeEnd? hp, ordinary_of_readNumber hy⟩
  · obtain ⟨y, hy, -⟩ := exists_of_bind_eq_ok h
    exact ⟨w, 0, by simp, ordinary_of_readNumber hy⟩

theorem isArgument_of_readPercentage {x : Binary64} {w : List Char}
    (h : readPercentage w = .ok x) : IsArgument w := by
  obtain ⟨y, hy, -⟩ := exists_of_bind_eq_ok h
  obtain ⟨k, hk⟩ := exists_beforeAll '%' w
  exact ⟨_, k, hk, ordinary_of_readNumber hy⟩

theorem mem_dropDegrees {w : List Char} {c : Char} (h : c ∈ w) :
    c ∈ ['d', 'e', 'g'] ∨ c ∈ dropDegrees w := by
  fun_induction dropDegrees w with
  | case1 w ih =>
    simp only [List.mem_cons] at h
    rcases h with rfl | rfl | rfl | h
    · exact Or.inl (by decide)
    · exact Or.inl (by decide)
    · exact Or.inl (by decide)
    · exact ih h
  | case2 w _ => exact Or.inr h

theorem isArgument_of_readHue {x : Binary64} {w : List Char} (h : readHue w = .ok x) :
    IsArgument w := by
  refine ⟨w, 0, by simp, fun c hc => ?_⟩
  have hall : ['d', 'e', 'g'].all (fun c => isOrdinary c && c ≠ '%') = true := by decide
  have hdeg : ∀ c ∈ ['d', 'e', 'g'], isOrdinary c = true ∧ c ≠ '%' := by
    simpa only [Bool.and_eq_true, decide_eq_true_eq] using List.all_eq_true.mp hall
  rcases mem_dropDegrees (List.mem_reverse.mpr hc) with hc | hc
  · exact hdeg c hc
  · exact ordinary_of_readNumber h c (List.mem_reverse.mpr hc)

theorem isArgument_of_readAlpha {x : Binary64} {args : List (List Char)}
    (h : readAlpha args = .ok x) (hl : args.length ≤ 1) : ∀ w ∈ args, IsArgument w := by
  cases args with
  | nil => simp
  | cons a more =>
    have hnil : more = [] := by simpa using hl
    intro w hw
    rw [hnil, List.mem_singleton] at hw
    rw [hw]
    exact isArgument_of_readShare h

/-! ### Functional forms -/

theorem toNat_lt_of_isHexDigit {c : Char} (h : isHexDigit c = true) : c.toNat < 128 := by
  unfold isHexDigit hexValue? at h
  have hle : ∀ d : Char, c ≤ d → c.toNat ≤ d.toNat := fun _ hd => hd
  have hf : '9'.toNat = 57 ∧ 'f'.toNat = 102 ∧ 'F'.toNat = 70 := by decide
  split_ifs at h with h0 ha hA
  · have := hle _ h0.2
    omega
  · have := hle _ ha.2
    omega
  · have := hle _ hA.2
    omega
  · cases h

theorem isHexDigit_spec {c : Char} (h : isHexDigit c = true) :
    isOrdinary c = true ∧ isSpace c = false ∧ c ≠ '%' := by
  have hascii := toNat_lt_of_isHexDigit h
  exact forall_ascii (P := fun c => isHexDigit c = true →
    isOrdinary c = true ∧ isSpace c = false ∧ c ≠ '%') (by decide) hascii h

theorem isHexDigit_of_isSpace {c : Char} (h : isSpace c = true) : isHexDigit c = false := by
  rw [Bool.eq_false_iff]
  intro hx
  rw [(isHexDigit_spec hx).2.1] at h
  cases h

/-- A text in lower case that is ordinary, and in which some percent sign, if there is one, stands
before a character that is no hexadecimal digit. -/
structure Spelled (cs : List Char) : Prop where
  ordinary : ∀ c ∈ cs, isOrdinary c = true
  percent : '%' ∈ cs → ∃ u d v, cs = u ++ '%' :: d :: v ∧ isHexDigit d = false

theorem functionArguments_eq_ok {names : List String} {cs : List Char} {args : List (List Char)}
    (h : functionArguments names cs = .ok args) : ∃ before content,
      cs = before ++ '(' :: (content ++ [')']) ∧ String.ofList (trim before) ∈ names ∧
        args = (content.splitOn ',').map trim := by
  unfold functionArguments at h
  split at h
  · cases h
  · next before rest hs =>
    dsimp only at h
    split_ifs at h with hn
    split at h
    · cases h
    · next content hc =>
      rw [eq_of_splitFirst? hs, eq_of_beforeEnd? hc]
      exact ⟨before, content, rfl, hn, (Except.ok.inj h).symm⟩

/-- A part that is an argument within white space has its last percent sign at its end or before
white space. -/
theorem exists_last_percent {w : List Char} (h : IsArgument (trim w)) (hp : '%' ∈ w) :
    ∃ u v, w = u ++ '%' :: v ∧ ∀ c ∈ v, isSpace c = true := by
  obtain ⟨body, k, hw, hbody⟩ := h
  obtain ⟨u, v, heq, -, hv⟩ := exists_trim w
  have hk : k ≠ 0 := by
    rintro rfl
    rcases mem_trim_or hp with hm | hm
    · rw [hw, List.replicate_zero, List.append_nil] at hm
      exact (hbody _ hm).2 rfl
    · exact absurd hm (by decide)
  obtain ⟨n, rfl⟩ := Nat.exists_eq_succ_of_ne_zero hk
  refine ⟨u ++ body ++ List.replicate n '%', v, ?_, hv⟩
  rw [heq, hw, List.replicate_succ']
  simp

theorem eq_comma_or_mem_part {content : List Char} {c : Char} (hc : c ∈ content) :
    c = ',' ∨ ∃ w ∈ content.splitOn ',', c ∈ w := by
  have hjoined : [','].intercalate (content.splitOn ',') = content := List.intercalate_splitOn ','
  rw [← hjoined] at hc
  simpa using mem_intercalate hc

theorem ordinary_of_mem_argument {w : List Char} (h : IsArgument (trim w)) {c : Char}
    (hc : c ∈ w) : isOrdinary c = true := by
  rcases mem_trim_or hc with hc | hc
  · obtain ⟨body, k, heq, hbody⟩ := h
    rw [heq, List.mem_append] at hc
    rcases hc with hc | hc
    · exact (hbody c hc).1
    · rw [List.eq_of_mem_replicate hc]
      decide
  · simp [isOrdinary, hc]

/-- Behind the last percent sign of an argument stands white space, a comma or the parenthesis. -/
theorem exists_stray {content w : List Char} (hw : w ∈ content.splitOn ',')
    (h : IsArgument (trim w)) (hp : '%' ∈ w) :
    ∃ u d v, content ++ [')'] = u ++ '%' :: d :: v ∧ isHexDigit d = false := by
  obtain ⟨x, y, hcon, hy⟩ := exists_of_mem_splitOn hw
  obtain ⟨u, v, hw', hv⟩ := exists_last_percent h hp
  have hnext : ∀ d ∈ (v ++ (y ++ [')'])).head?, isHexDigit d = false := by
    intro d hd
    cases v with
    | cons e v =>
      rw [← Option.some.inj hd]
      exact isHexDigit_of_isSpace (hv e List.mem_cons_self)
    | nil =>
      cases y with
      | cons e y =>
        have he := hy e rfl
        rw [← Option.some.inj hd, he]
        decide
      | nil =>
        rw [← Option.some.inj hd]
        decide
  obtain ⟨d, ds, hds⟩ : ∃ d ds, v ++ (y ++ [')']) = d :: ds :=
    List.exists_cons_of_ne_nil (by simp)
  refine ⟨x ++ u, d, ds, ?_, hnext d (by rw [hds]; rfl)⟩
  rw [← hds, hcon, hw']
  simp

section

variable {names : List String}
  (hnames : (names.all fun n => n.toList.all Char.isLower) = true)

include hnames

theorem ordinary_of_name {before : List Char} (h : String.ofList (trim before) ∈ names) :
    ∀ c ∈ before, isOrdinary c = true ∧ c ≠ '%' := by
  intro c hc
  rcases mem_trim_or hc with hc | hc
  · have hname := List.all_eq_true.mp (List.all_eq_true.mp hnames _ h)
    have hl := hname c (by rwa [String.toList_ofList])
    refine ⟨by simp [isOrdinary, toNat_lt_of_isLower hl], ?_⟩
    rintro rfl
    exact absurd hl (by decide)
  · refine ⟨by simp [isOrdinary, hc], ?_⟩
    rintro rfl
    exact absurd hc (by decide)

theorem spelled_of_functionArguments {cs : List Char} {args : List (List Char)}
    (h : functionArguments names cs = .ok args) (hargs : ∀ w ∈ args, IsArgument w) :
    Spelled cs := by
  obtain ⟨before, content, rfl, hn, rfl⟩ := functionArguments_eq_ok h
  have hname := ordinary_of_name hnames hn
  have hpart : ∀ w ∈ content.splitOn ',', IsArgument (trim w) := fun w hw =>
    hargs _ (List.mem_map_of_mem hw)
  constructor
  · intro c hc
    simp only [List.mem_append, List.mem_cons, List.not_mem_nil, or_false] at hc
    rcases hc with hc | rfl | hc | rfl
    · exact (hname c hc).1
    · decide
    · rcases eq_comma_or_mem_part hc with rfl | ⟨w, hw, hc⟩
      · decide
      · exact ordinary_of_mem_argument (hpart w hw) hc
    · decide
  · intro hp
    simp only [List.mem_append, List.mem_cons, List.not_mem_nil, or_false] at hp
    rcases hp with hp | hp | hp | hp
    · exact absurd rfl (hname _ hp).2
    · exact absurd hp (by decide)
    · rcases eq_comma_or_mem_part hp with hc | ⟨w, hw, hp⟩
      · exact absurd hc (by decide)
      · obtain ⟨u, d, v, heq, hd⟩ := exists_stray hw (hpart w hw) hp
        exact ⟨before ++ '(' :: u, d, v, by rw [heq]; simp, hd⟩
    · exact absurd hp (by decide)

end

theorem spelled_of_readRgb {cs : List Char} {c : Color} (h : readRgb cs = .ok c) : Spelled cs := by
  obtain ⟨hargs, hr, hg, hb, hlength, ha⟩ := rgbReading_of_readRgb h
  refine spelled_of_functionArguments (by decide) hargs fun w hw => ?_
  simp only [List.mem_cons] at hw
  rcases hw with rfl | rfl | rfl | hw
  · exact isArgument_of_readShare hr
  · exact isArgument_of_readShare hg
  · exact isArgument_of_readShare hb
  · exact isArgument_of_readAlpha ha hlength w hw

theorem spelled_of_readHsl {cs : List Char} {c : Color} (h : readHsl cs = .ok c) : Spelled cs := by
  obtain ⟨hargs, hh, hs, hl, hlength, ha⟩ := hslReading_of_readHsl h
  refine spelled_of_functionArguments (by decide) hargs fun w hw => ?_
  simp only [List.mem_cons] at hw
  rcases hw with rfl | rfl | rfl | hw
  · exact isArgument_of_readHue hh
  · exact isArgument_of_readPercentage hs
  · exact isArgument_of_readPercentage hl
  · exact isArgument_of_readAlpha ha hlength w hw

/-! ### Keywords and digits -/

theorem spelled_of_forall {cs : List Char} (h : ∀ c ∈ cs, isOrdinary c = true ∧ c ≠ '%') :
    Spelled cs :=
  ⟨fun c hc => (h c hc).1, fun hp => absurd rfl (h _ hp).2⟩

theorem isHexDigit_of_readByte {x y : Char} {b : UInt8} (h : readByte x y = .ok b) :
    isHexDigit x = true ∧ isHexDigit y = true := by
  unfold readByte at h
  unfold isHexDigit
  split at h
  · next hx hy => simp [hx, hy]
  · cases h
  · cases h

/-- Whatever is read as hexadecimal digits consists of these. -/
theorem isHexDigit_of_readHex {cs : List Char} {r : Color × Format} (h : readHex cs = .ok r) :
    cs ≠ [] ∧ ∀ c ∈ cs, isHexDigit c = true := by
  cases hexReading_of_readHex h with
  | short hr hg hb | long hr hg hb =>
    simp [isHexDigit_of_readByte hr, isHexDigit_of_readByte hg, isHexDigit_of_readByte hb]
  | shortAlpha hr hg hb ha | longAlpha hr hg hb ha =>
    simp [isHexDigit_of_readByte hr, isHexDigit_of_readByte hg, isHexDigit_of_readByte hb,
      isHexDigit_of_readByte ha]

/-! ### All forms -/

theorem read_of_hash {t : String} {cs : List Char} (h : lower (trim t.toList) = '#' :: cs) :
    read t = readHex cs := by
  have hno : Keyword.rgb? (String.ofList ('#' :: cs)) = none := by
    rw [Option.eq_none_iff_forall_ne_some]
    intro c hc
    have hl := (Keyword.isLower_of_rgb? hc).2 '#' (by simp)
    exact absurd hl (by decide)
  unfold read
  dsimp only
  rw [h]
  simp only [hno, if_true]

/-- **A color text is spelled** without anything but ordinary characters, and with no escape behind
a percent sign. -/
theorem spelled_of_read {t : String} {r : Color × Format} (h : read t = .ok r) :
    Spelled (lower (trim t.toList)) := by
  have hdigits : ∀ {cs : List Char}, readHex cs = .ok r →
      ∀ c ∈ cs, isOrdinary c = true ∧ c ≠ '%' := by
    intro cs hcs c hc
    have hspec := isHexDigit_spec ((isHexDigit_of_readHex hcs).2 c hc)
    exact ⟨hspec.1, hspec.2.2⟩
  have hread := readAs_of_read h
  generalize lower (trim t.toList) = small at hread ⊢
  cases hread with
  | keyword hk =>
    refine spelled_of_forall fun c hc => ?_
    have hl := (Keyword.isLower_of_rgb? hk).2 c (by rwa [String.toList_ofList])
    refine ⟨by simp [isOrdinary, toNat_lt_of_isLower hl], ?_⟩
    rintro rfl
    exact absurd hl (by decide)
  | hash hx =>
    refine spelled_of_forall fun c hc => ?_
    rcases List.mem_cons.mp hc with rfl | hc
    · decide
    · exact hdigits hx c hc
  | bare _ hx => exact spelled_of_forall (hdigits hx)
  | rgb hc => exact spelled_of_readRgb hc
  | hsl hc => exact spelled_of_readHsl hc

/-- Lower case leaves no white space around the text of a color. -/
theorem trim_lower_of_read {t : String} {r : Color × Format} (h : read t = .ok r) :
    trim (lower (trim t.toList)) = lower (trim t.toList) := by
  have hord := (spelled_of_read h).ordinary
  obtain ⟨hsigma, hs⟩ := settled_of_lower hord
  have hlow := lowering_flatMap hs
  rw [← lowerAfter_eq_flatMap [] _ hsigma] at hlow
  exact hlow.trim_eq hord (trim_trim _)

/-- White space around a text and its case do not matter for the color that is read. -/
theorem agree_read_of_lower_eq {s t : String}
    (h : lower (trim s.toList) = lower (trim t.toList)) : Agree Eq (read s) (read t) := by
  unfold read
  dsimp only
  rw [h]
  split
  · exact .refl _
  · split
    · exact .refl _
    · -- only the fault of an unknown text quotes it as it was written
      split_ifs
      iterate 4 exact .refl _
      exact .error _ _

theorem read_of_lower_eq {s t : String} {r : Color × Format} (h : read s = .ok r)
    (heq : lower (trim t.toList) = lower (trim s.toList)) : read t = .ok r := by
  have hagree := agree_read_of_lower_eq heq.symm
  rw [h] at hagree
  generalize read t = outcome at hagree
  cases hagree with
  | ok hr => rw [hr]

end CssColor.Color
