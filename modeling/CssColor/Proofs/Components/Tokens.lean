import CssColor.Proofs.Components.Leading
import CssColor.Proofs.Components.Range
import CssColor.Proofs.Number.Numeral

/-! # What an `hsl` text states

Hue, saturation and lightness of an `hsl` text are read from it a second time, by a reader of its
own: it drops white space and percent signs and takes the integers that the arguments begin with.
`hslTokens?_of_spelling` says what it takes from each text that is read as a color. It takes nothing
where white space stands before the parenthesis, it passes over a numeral that begins with its point
or is too large, and it does not look at a power of ten. All other numerals come back as they were
written, without their fraction (`Components.read_states`). -/

namespace CssColor

open Number Number.Decimal Text Color

/-! ### Spellings -/

/-- An argument by the numeral in it: copies of a unit may be attached, and there may be white space
around both. -/
def ArgumentText (n : Numeral) (w : List Char) : Prop :=
  ∃ unit ∈ [['%'], ['d', 'e', 'g']], ∃ v k,
    trim w = v ++ (List.replicate k unit).flatten ∧ NumeralText n (trim v)

/-- A text in the form `hsl`, with the white space before its parenthesis and the numerals of its
arguments. -/
inductive HslSpelling : List Char → List Numeral → List Char → Prop
  | intro {name blanks : List Char} {ns : List Numeral} {args : List (List Char)}
    (hn : String.ofList name ∈ ["hsl", "hsla"]) (hb : ∀ c ∈ blanks, isSpace c = true)
    (ha : List.Forall₂ ArgumentText ns args) :
    HslSpelling blanks ns (functionText name blanks args)

/-- What is taken of a numeral: the digits before its point, if there are some and they do not make
too large a number. -/
def frontInt? (n : Numeral) : Option Int :=
  if n.whole = [] ∨ maxLeading < natOfDigits n.whole then none else some n.wholePart

/-- The first three of some numbers. -/
def firstThree? : List Int → Option (Int × Int × Int)
  | h :: s :: l :: _ => some (h, s, l)
  | _ => none

/-! ### Single arguments -/

variable {n : Numeral} {w : List Char}

theorem isNumeral_of_numeralText (h : NumeralText n w) : ∀ c ∈ w, isNumeral c = true := by
  have hsign : ∀ {negative : Bool} {sign : List Char}, Expression.SignText negative sign →
      ∀ c ∈ sign, isNumeral c = true := by
    rintro _ _ (_ | _ | _) c hc
    · cases hc
    · rw [List.mem_singleton.mp hc]
      decide
    · rw [List.mem_singleton.mp hc]
      decide
  obtain ⟨hs, hw, hp, -, he⟩ := h
  intro c hc
  simp only [List.mem_append] at hc
  rcases hc with hc | hc | hc | hc
  · exact hsign hs c hc
  · exact isNumeral_of_isDigit (hw c hc)
  · cases hp with
    | absent => cases hc
    | pointed hds =>
      rcases List.mem_cons.mp hc with rfl | hc
      · decide
      · exact isNumeral_of_isDigit (hds c hc)
  · cases he with
    | absent => cases hc
    | marked hm hs hd =>
      rcases List.mem_cons.mp hc with rfl | hc
      · rcases hm with rfl | rfl <;> decide
      · rcases List.mem_append.mp hc with hc | hc
        · exact hsign hs c hc
        · exact isNumeral_of_isDigit (hd.2 c hc)

/-- The token reader takes the sign and the digits before the point. -/
theorem leadingInt?_append {rest : List Char} (h : NumeralText n w)
    (hr : ∀ c ∈ rest.head?, c.isDigit = false) (hs : ∀ c ∈ w ++ rest, isSpace c = false) :
    leadingInt? (w ++ rest) = frontInt? n := by
  have htrim := trim_of_all hs
  obtain @⟨negative, sign, whole, fraction, point, power, e, hsign, hw, hp, hd, he⟩ := h
  have hpower : ∀ c ∈ (power ++ rest).head?, c.isDigit = false := by
    cases he with
    | absent => exact hr
    | marked hm _ _ => rcases hm with rfl | rfl <;> exact forall_head?_cons (by decide) _
  have hpoint : ∀ c ∈ (point ++ (power ++ rest)).head?, c.isDigit = false := by
    cases hp with
    | absent => exact hpower
    | pointed _ => exact forall_head?_cons (by decide) _
  have hfront : ∀ c ∈ (whole ++ (point ++ (power ++ rest))).head?, c ≠ '-' ∧ c ≠ '+' := by
    cases whole with
    | cons d ds =>
      exact forall_head?_cons (ne_sign_of_isDigit (hw d List.mem_cons_self)) _
    | nil =>
      cases hp with
      | absent => simp at hd
      | pointed _ => exact forall_head?_cons (by decide) _
  simp only [List.append_assoc] at htrim ⊢
  rw [leadingInt?_of_splitSign (htrim ▸ Expression.splitSign_of_signText hsign hfront) hw hpoint]
  rfl

/-- The characters the token reader looks at. -/
def isKept (c : Char) : Bool := !isSpace c && c ≠ '%'

theorem isKept_of_isNumeral {c : Char} (h : isNumeral c = true) : isKept c = true := by
  obtain ⟨-, hspace, hpercent⟩ := isNumeral_spec h
  simp [isKept, hspace, hpercent]

theorem filter_trim (w : List Char) : w.filter isKept = (trim w).filter isKept := by
  have hspace : ∀ {u : List Char}, (∀ c ∈ u, isSpace c = true) → u.filter isKept = [] := by
    intro u hu
    rw [List.filter_eq_nil_iff]
    intro c hc
    simp [isKept, hu c hc]
  obtain ⟨u, v, hw, hu, hv⟩ := exists_trim w
  conv_lhs => rw [hw]
  rw [List.filter_append, List.filter_append, hspace hu, hspace hv, List.nil_append,
    List.append_nil]

/-- What is left of an argument is its numeral, and the letters of its unit. -/
theorem exists_filter_argument (h : ArgumentText n w) : ∃ cs rest,
    w.filter isKept = cs ++ rest ∧ NumeralText n cs ∧ ',' ∉ cs ++ rest ∧
      ∀ c ∈ rest.head?, c.isDigit = false := by
  obtain ⟨unit, hunit, v, k, hw, hn⟩ := h
  have hkept : (trim v).filter isKept = trim v := by
    rw [List.filter_eq_self]
    exact fun c hc => isKept_of_isNumeral (isNumeral_of_numeralText hn c hc)
  have hunits : ∀ c ∈ (List.replicate k unit).flatten.filter isKept, c ∈ ['d', 'e', 'g'] := by
    intro c hc
    obtain ⟨hc, hk⟩ := List.mem_filter.mp hc
    obtain ⟨u, hu, hc⟩ := List.mem_flatten.mp hc
    rw [List.eq_of_mem_replicate hu] at hc
    rcases List.mem_pair.mp hunit with rfl | rfl
    · rw [List.mem_singleton.mp hc] at hk
      exact absurd hk (by decide)
    · exact hc
  refine ⟨trim v, (List.replicate k unit).flatten.filter isKept, ?_, hn, ?_, fun c hc => ?_⟩
  · rw [filter_trim, hw, List.filter_append, filter_trim v, hkept]
  · rw [List.mem_append, not_or]
    exact ⟨fun hc => absurd (isNumeral_of_numeralText hn _ hc) (by decide),
      fun hc => absurd (hunits _ hc) (by decide)⟩
  · have hall : ∀ d ∈ ['d', 'e', 'g'], d.isDigit = false := by simp
    exact hall c (hunits c (List.mem_of_head? hc))

theorem leadingInt?_filter (h : ArgumentText n w) :
    leadingInt? (w.filter isKept) = frontInt? n := by
  obtain ⟨cs, rest, heq, hn, -, hr⟩ := exists_filter_argument h
  rw [heq]
  refine leadingInt?_append hn hr fun c hc => ?_
  rw [← heq, List.mem_filter] at hc
  have hk := hc.2
  simp only [isKept, Bool.and_eq_true, Bool.not_eq_true'] at hk
  exact hk.1

/-! ### Whole texts -/

theorem filter_intercalate (args : List (List Char)) :
    ([','].intercalate args).filter isKept = [','].intercalate (args.map (List.filter isKept)) := by
  have hcomma : [','].filter isKept = [','] := by decide
  induction args with
  | nil => rfl
  | cons v vs ih =>
    cases vs with
    | nil => simp
    | cons u us =>
      rw [List.intercalate_cons_cons, List.filter_append, List.filter_append, ih, hcomma]
      simp only [List.map_cons, List.intercalate_cons_cons]

theorem filterMap_leadingInt? {ns : List Numeral} {args : List (List Char)}
    (h : List.Forall₂ ArgumentText ns args) :
    (args.map (List.filter isKept)).filterMap leadingInt? = ns.filterMap frontInt? := by
  induction h with
  | nil => rfl
  | cons hn _ ih => rw [List.map_cons, List.filterMap_cons, List.filterMap_cons, ih,
      leadingInt?_filter hn]

theorem comma_not_mem_filter {ns : List Numeral} {args : List (List Char)}
    (h : List.Forall₂ ArgumentText ns args) : ∀ w ∈ args.map (List.filter isKept), ',' ∉ w := by
  induction h with
  | nil => simp
  | cons hn _ ih =>
    obtain ⟨cs, rest, heq, -, hcomma, -⟩ := exists_filter_argument hn
    rw [List.map_cons, List.forall_mem_cons, heq]
    exact ⟨hcomma, ih⟩

/-- The token reader finds its beginning in a functional form without white space before the
parenthesis. -/
theorem afterStart?_functionText {name blanks : List Char} {args : List (List Char)}
    (hn : String.ofList name ∈ ["hsl", "hsla"]) (hb : ∀ c ∈ blanks, isSpace c = true) :
    (afterStart? "hsla(".toList (functionText name blanks args)).or
        (afterStart? "hsl(".toList (functionText name blanks args)) =
      if blanks = [] then some ([','].intercalate args ++ [')']) else none := by
  have hname : name = "hsl".toList ∨ name = "hsla".toList := by
    rcases List.mem_pair.mp hn with h | h
    · exact Or.inl (by rw [← h, String.toList_ofList])
    · exact Or.inr (by rw [← h, String.toList_ofList])
  cases blanks with
  | nil =>
    rcases hname with rfl | rfl
    · have heq : functionText "hsl".toList [] args
          = "hsl(".toList ++ ([','].intercalate args ++ [')']) := rfl
      have hlong : afterStart? "hsla(".toList ("hsl(".toList ++ ([','].intercalate args ++ [')']))
          = none := rfl
      rw [heq, hlong, afterStart?_append]
      rfl
    · have heq : functionText "hsla".toList [] args
          = "hsla(".toList ++ ([','].intercalate args ++ [')']) := rfl
      rw [heq, afterStart?_append]
      rfl
  | cons b bs =>
    have hne : 'a' ≠ b ∧ '(' ≠ b := by
      constructor <;> rintro rfl <;> exact absurd (hb _ List.mem_cons_self) (by decide)
    rcases hname with rfl | rfl <;> simp [functionText, afterStart?, hne]

/-- **What the token reader takes from a color text.** -/
theorem hslTokens?_of_spelling {text : String} {blanks : List Char} {ns : List Numeral}
    (h : HslSpelling blanks ns (lower (trim text.toList))) (hne : ns ≠ []) :
    hslTokens? text = if blanks = [] then firstThree? (ns.filterMap frontInt?) else none := by
  unfold hslTokens?
  dsimp only
  generalize lower (trim text.toList) = small at h
  obtain @⟨name, blanks, ns, args, hn, hb, ha⟩ := h
  have hargs : args.map (List.filter isKept) ≠ [] := by
    rw [ne_eq, List.map_eq_nil_iff]
    rintro rfl
    exact hne (List.forall₂_nil_right_iff.mp ha)
  rw [afterStart?_functionText hn hb]
  split_ifs with hblanks
  · dsimp only
    rw [beforeEnd?_append, Option.getD_some, show (fun c => !isSpace c && decide (c ≠ '%')) = isKept
      from rfl, filter_intercalate, List.splitOn_intercalate _ (comma_not_mem_filter ha) hargs,
      filterMap_leadingInt? ha]
    rfl
  · rfl

/-! ### Every `hsl` text -/

theorem exists_numeral_of_numberText {x : Binary64} (h : NumberText x w) :
    ∃ n, NumeralText n (trim w) ∧ x = n.nearest :=
  exists_numeralText (Option.filter_eq_some_iff.mp h).1

theorem argumentText_of_measureText {unit : List Char} (hu : unit ∈ [['%'], ['d', 'e', 'g']])
    {x : Binary64} (h : MeasureText unit x w) : ∃ n, ArgumentText n w ∧ x = n.nearest := by
  obtain ⟨v, k, hv, hx⟩ := h
  obtain ⟨n, hn, rfl⟩ := exists_numeral_of_numberText hx
  exact ⟨n, ⟨unit, hu, v, k, hv, hn⟩, rfl⟩

theorem argumentTexts_of_alphaArgument {a : Binary64} {rest : List (List Char)}
    (h : AlphaArgument a rest) :
    ∃ ns : List Numeral, ns.length ≤ 1 ∧ List.Forall₂ ArgumentText ns rest := by
  cases h with
  | absent => exact ⟨[], by simp, .nil⟩
  | present hw =>
    obtain ⟨y, hy⟩ := hw.exists_measureText
    obtain ⟨n, hn, -⟩ := argumentText_of_measureText (by simp) hy
    exact ⟨[n], by simp, .cons hn .nil⟩

/-- Every `hsl` text is spelled with numerals, and its color is that of the doubles nearest to
them. -/
theorem exists_hslSpelling {text : String} {c : Color} (h : Color.read text = .ok (c, .hsl)) :
    ∃ blanks hue saturation lightness ns, ns.length ≤ 1 ∧
      HslSpelling blanks (hue :: saturation :: lightness :: ns) (lower (trim text.toList)) ∧
        ∃ a, c = ofHslNumbers hue.nearest saturation.nearest lightness.nearest a := by
  obtain ⟨x, y, z, a, ht, rfl⟩ := hslText_of_read h
  generalize lower (trim text.toList) = small at ht
  obtain ⟨hn, hb, hx, hy, hz, ha⟩ := ht
  obtain ⟨hue, hhue, rfl⟩ := argumentText_of_measureText (by simp) hx
  obtain ⟨saturation, hsaturation, rfl⟩ := argumentText_of_measureText (by simp) hy
  obtain ⟨lightness, hlightness, rfl⟩ := argumentText_of_measureText (by simp) hz
  obtain ⟨ns, hlen, hns⟩ := argumentTexts_of_alphaArgument ha
  exact ⟨_, hue, saturation, lightness, ns, hlen,
    .intro hn hb (.cons hhue (.cons hsaturation (.cons hlightness hns))), a, rfl⟩

/-! ### The components that are stated -/

/-- A numeral with a digit before its point and no power of ten. -/
def IsTypical (n : Numeral) : Prop := n.whole ≠ [] ∧ n.exponent = 0

/-- A typical numeral of at most 360 is taken without its fraction. -/
theorem frontInt?_of_isTypical (hn : ∃ cs, NumeralText n cs) (h : IsTypical n)
    (h0 : 0 ≤ n.value) (hle : n.value ≤ 360) : frontInt? n = some (truncate n.value) := by
  obtain ⟨cs, hn⟩ := hn
  have hdigits : natOfDigits n.whole ≤ 360 := by
    have hwhole := Numeral.natOfDigits_whole_le h.2
    rw [abs_of_nonneg h0] at hwhole
    exact_mod_cast hwhole.trans hle
  rw [frontInt?, if_neg, Numeral.truncate_value hn h.2]
  rw [not_or]
  exact ⟨h.1, not_lt.mpr (hdigits.trans (by decide))⟩

theorem HslSpelling.exists_numeralText {blanks cs : List Char} {ns : List Numeral}
    (h : HslSpelling blanks ns cs) : ∀ n ∈ ns, ∃ w, NumeralText n w := by
  obtain ⟨-, -, ha⟩ := h
  induction ha with
  | nil => simp
  | cons hn _ ih =>
    obtain ⟨unit, -, v, k, -, hv⟩ := hn
    exact List.forall_mem_cons.mpr ⟨⟨_, hv⟩, ih⟩

/-- **Hue, saturation and lightness of an `hsl` text** are those of its first three numerals that
have digits before the point and make no large number, if the parenthesis follows the name at once
and there are three of them; else they are computed from the color. So typical numerals in the usual
ranges come back as they were written, without their fraction. -/
theorem Components.read_states {text : String} {c : Color} (h : Color.read text = .ok (c, .hsl)) :
    (∃ blanks hue saturation lightness ns, ns.length ≤ 1 ∧
      HslSpelling blanks (hue :: saturation :: lightness :: ns) (lower (trim text.toList)) ∧
        ∃ a, c = ofHslNumbers hue.nearest saturation.nearest lightness.nearest a) ∧
    ∃ k, read text = .ok k ∧ ∀ blanks hue saturation lightness ns,
      HslSpelling blanks (hue :: saturation :: lightness :: ns) (lower (trim text.toList)) →
        (k.hue, k.saturation, k.lightness) =
          (if blanks = [] then
            firstThree? ((hue :: saturation :: lightness :: ns).filterMap frontInt?)
          else none).getD (hslOf c) ∧
        (blanks = [] → IsTypical hue → IsTypical saturation → IsTypical lightness →
          0 ≤ hue.value ∧ hue.value ≤ 360 → 0 ≤ saturation.value ∧ saturation.value ≤ 100 →
          0 ≤ lightness.value ∧ lightness.value ≤ 100 →
            k.hue = truncate hue.value ∧ k.saturation = truncate saturation.value ∧
              k.lightness = truncate lightness.value) := by
  refine ⟨exists_hslSpelling h, _, read_of_read h, ?_⟩
  intro blanks hue saturation lightness ns hspelling
  have htext := hspelling.exists_numeralText
  rw [hslTokens?_of_spelling hspelling (by simp)]
  refine ⟨rfl, ?_⟩
  rintro hblanks hh hs hl ⟨hh0, hh1⟩ ⟨hs0, hs1⟩ ⟨hl0, hl1⟩
  have hfront := frontInt?_of_isTypical (htext hue (by simp)) hh hh0 hh1
  have hfront' := frontInt?_of_isTypical (htext saturation (by simp)) hs hs0
    (hs1.trans (by norm_num))
  have hfront'' := frontInt?_of_isTypical (htext lightness (by simp)) hl hl0
    (hl1.trans (by norm_num))
  rw [if_pos hblanks, List.filterMap_cons_some hfront, List.filterMap_cons_some hfront',
    List.filterMap_cons_some hfront'']
  exact ⟨rfl, rfl, rfl⟩

theorem Components.read_states_fractions : ∃ k,
    read "hsla(359.9deg, +82.5%, 54.%, .5)" = .ok k ∧ k.hue = 359 ∧ k.saturation = 82 ∧
      k.lightness = 54 := by
  have hread : Color.read "hsla(359.9deg, +82.5%, 54.%, .5)"
      = .ok (ofHslNumbers (.ofRat (3599 / 10)) (.ofRat (825 / 10)) (.ofRat 54) (.ofRat (1 / 2)),
        .hsl) := by decide +kernel
  have hlower : lower (trim "hsla(359.9deg, +82.5%, 54.%, .5)".toList)
      = functionText "hsla".toList [] ["359.9deg".toList, " +82.5%".toList, " 54.%".toList,
          " .5".toList] := by decide
  have hspelling : HslSpelling [] [⟨false, ['3', '5', '9'], ['9'], 0⟩,
      ⟨false, ['8', '2'], ['5'], 0⟩, ⟨false, ['5', '4'], [], 0⟩, ⟨false, [], ['5'], 0⟩]
      (lower (trim "hsla(359.9deg, +82.5%, 54.%, .5)".toList)) := by
    rw [hlower]
    refine .intro (by decide) (by simp) (.cons ?_ (.cons ?_ (.cons ?_ (.cons ?_ .nil))))
    · exact ⟨['d', 'e', 'g'], by decide, ['3', '5', '9', '.', '9'], 1, by decide,
        .intro .absent (by simp) (.pointed (by simp)) (.inl (by decide)) .absent⟩
    · exact ⟨['%'], by decide, ['+', '8', '2', '.', '5'], 1, by decide,
        .intro .plus (by simp) (.pointed (by simp)) (.inl (by decide)) .absent⟩
    · exact ⟨['%'], by decide, ['5', '4', '.'], 1, by decide,
        .intro .absent (by simp) (.pointed (by simp)) (.inl (by decide)) .absent⟩
    · exact ⟨['%'], by decide, ['.', '5'], 0, by decide,
        .intro .absent (by simp) (.pointed (by simp)) (.inr (by decide)) .absent⟩
  obtain ⟨-, k, hk, hstates⟩ := Components.read_states hread
  obtain ⟨-, htypical⟩ := hstates _ _ _ _ _ hspelling
  obtain ⟨hh, hs, hl⟩ := htypical rfl ⟨by decide, rfl⟩ ⟨by decide, rfl⟩ ⟨by decide, rfl⟩
    (by decide +kernel) (by decide +kernel) (by decide +kernel)
  refine ⟨k, hk, ?_, ?_, ?_⟩
  · rw [hh]
    decide +kernel
  · rw [hs]
    decide +kernel
  · rw [hl]
    decide +kernel

/-- A power of ten is not looked at, a numeral without digits before its point is passed over, and
white space before the parenthesis hides all numerals. -/
theorem Components.read_states_less :
    Decimal.readFinite? "1e2".toList = some (Scalar.ofNat 100) ∧
      (read "hsl(1e2, 50%, 50%)").toOption.map (·.hue) = some 1 ∧
      (read "hsla(.5, 50%, 60%, 0.3)").toOption.map (fun k => (k.hue, k.saturation, k.lightness))
        = some (50, 60, 0) ∧
      (read "hsl (120, 0%, 50%)").toOption.map (·.hue) = some 0 := by
  decide +kernel

end CssColor
