import CssColor.Expression.Reader
import CssColor.Proofs.Number.Decimal
import CssColor.Proofs.Text.Parts
import CssColor.Proofs.Color.ReadRange

/-! # The grammar of adjustments

What the parts of an expression look like, as relations between a text and what it stands for, and
the proof that each reader takes its part off the front of a text exactly if it stands there. A
reader is greedy where the grammar is not; the two agree because every part ends where a blank or a
closing parenthesis follows (`IsDelimited`), which no number, unit or name runs on into. -/

namespace CssColor.Expression

open Number Number.Binary64 Number.Decimal Text

/-! ### The parts of an expression -/

/-- A word in letters of either case; the word itself is given in small letters. -/
def IsWord (word cs : List Char) : Prop := cs.map Char.toLower = word

/-- Any number of blanks. -/
def IsBlanks (cs : List Char) : Prop := ∀ c ∈ cs, isBlank c = true

/-- One or more characters of a class. -/
def IsRun (p : Char → Bool) (cs : List Char) : Prop := cs ≠ [] ∧ ∀ c ∈ cs, p c = true

/-- Something that may be left out. -/
inductive OptionalText {α : Type} (P : α → List Char → Prop) : Option α → List Char → Prop
  | absent : OptionalText P none []
  | present {a : α} {cs : List Char} (h : P a cs) : OptionalText P (some a) cs

/-- An attached sign, true for a minus. -/
inductive SignText : Bool → List Char → Prop
  | absent : SignText false []
  | plus : SignText false ['+']
  | minus : SignText true ['-']

/-- A point with the digits after it, or nothing. -/
inductive FractionText : List Char → List Char → Prop
  | absent : FractionText [] []
  | pointed {ds : List Char} (h : IsRun Char.isDigit ds) : FractionText ds ('.' :: ds)

/-- A unit. -/
inductive UnitText : AmountUnit → List Char → Prop
  | number : UnitText .number []
  | percent : UnitText .percent ['%']
  | degrees {w : List Char} (h : IsWord ['d', 'e', 'g'] w) : UnitText .degrees w

/-- The number that the digits before and after a point stand for. -/
def decimalValue (whole fraction : List Char) : ℚ :=
  natOfDigits whole + natOfDigits fraction / 10 ^ fraction.length

/-- An amount: digits with an attached sign, a fraction and a unit. It stands for the double nearest
to the number. -/
inductive AmountText : Amount Binary64 → List Char → Prop
  | intro {negative : Bool} {unit : AmountUnit} {sign whole fraction pointed measure : List Char}
      (hs : SignText negative sign) (hw : IsRun Char.isDigit whole)
      (hf : FractionText fraction pointed) (hu : UnitText unit measure) :
      AmountText ⟨applySign negative (ofRat (decimalValue whole fraction)), unit⟩
        (sign ++ (whole ++ (pointed ++ measure)))

/-- A modifier: its sign and a first blank after it. -/
inductive ModifierText (m : Modifier) : List Char → Prop
  | intro {b : Char} (hb : isBlank b = true) : ModifierText m [m.sign, b]

/-- An adjustment: a name, and in parentheses a modifier and an amount, both of which may be left
out, with blanks about them. -/
inductive AdjustmentText : Adjustment Binary64 → List Char → Prop
  | intro {m : Option Modifier} {a : Option (Amount Binary64)}
      {name before sign between number after : List Char} (hn : IsRun isNameChar name)
      (hb : IsBlanks before) (hm : OptionalText ModifierText m sign) (hc : IsBlanks between)
      (ha : OptionalText AmountText a number) (hd : IsBlanks after) :
      AdjustmentText ⟨String.ofList (lower name), m, a⟩
        (name ++ '(' :: (before ++ (sign ++ (between ++ (number ++ (after ++ [')']))))))

/-- Some adjustments, each with any blanks in front. -/
inductive AdjustmentsText : List (Adjustment Binary64) → List Char → Prop
  | nil : AdjustmentsText [] []
  | cons {a : Adjustment Binary64} {as : List (Adjustment Binary64)} {b t ts : List Char}
      (hb : IsBlanks b) (ha : AdjustmentText a t) (has : AdjustmentsText as ts) :
      AdjustmentsText (a :: as) (b ++ (t ++ ts))

/-- What follows a base: adjustments, blanks and the closing parenthesis. -/
inductive TailText : List (Adjustment Binary64) → List Char → Prop
  | intro {as : List (Adjustment Binary64)} {ts b : List Char} (ha : AdjustmentsText as ts)
      (hb : IsBlanks b) : TailText as (ts ++ (b ++ [')']))

/-! ### Blanks -/

theorem eq_of_isBlank {c : Char} (h : isBlank c = true) :
    c = ' ' ∨ c = '\t' ∨ c = '\r' ∨ c = '\n' := by
  simpa [isBlank, or_assoc] using h

theorem isBlank_of_isSpace_eq_false {c : Char} (h : isSpace c = false) : isBlank c = false := by
  rw [Bool.eq_false_iff]
  intro hb
  rcases eq_of_isBlank hb with rfl | rfl | rfl | rfl <;> exact absurd h (by decide)

theorem isBlank_of_isNameChar {c : Char} (h : isNameChar c = true) : isBlank c = false := by
  rw [Bool.eq_false_iff]
  intro hb
  rcases eq_of_isBlank hb with rfl | rfl | rfl | rfl <;> exact absurd h (by decide)

/-- A part ends in front of such a text. -/
def IsDelimited (rest : List Char) : Prop := ∃ b cs, rest = b ++ ')' :: cs ∧ IsBlanks b

theorem IsDelimited.head? {rest : List Char} (h : IsDelimited rest) :
    ∀ c ∈ rest.head?, isBlank c = true ∨ c = ')' := by
  obtain ⟨b, cs, rfl, hb⟩ := h
  intro c hc
  cases b with
  | nil => exact Or.inr (Option.some.inj hc).symm
  | cons d ds => exact Or.inl (Option.some.inj hc ▸ hb d List.mem_cons_self)

/-- What is settled for the four blanks and the parenthesis is settled for what delimits a part. -/
theorem IsDelimited.forall {rest : List Char} (h : IsDelimited rest) {p : Char → Prop}
    (hp : p ' ' ∧ p '\t' ∧ p '\r' ∧ p '\n' ∧ p ')') : ∀ c ∈ rest.head?, p c := by
  obtain ⟨hspace, htab, hreturn, hnewline, hclose⟩ := hp
  intro c hc
  rcases h.head? c hc with hb | rfl
  · rcases eq_of_isBlank hb with rfl | rfl | rfl | rfl <;> assumption
  · exact hclose

theorem exists_blanks (cs : List Char) : ∃ b, cs = b ++ skipBlanks cs ∧ IsBlanks b :=
  ⟨cs.takeWhile isBlank, List.takeWhile_append_dropWhile.symm, fun _ => List.mem_takeWhile_imp⟩

theorem skipBlanks_append {b rest : List Char} (hb : IsBlanks b) :
    skipBlanks (b ++ rest) = skipBlanks rest :=
  List.dropWhile_append_of_pos hb

theorem skipBlanks_run {b rest : List Char} (hb : IsBlanks b)
    (hr : ∀ c ∈ rest.head?, isBlank c = false) : skipBlanks (b ++ rest) = rest :=
  dropWhile_run hb hr

theorem skipBlanks_eq_self {cs : List Char} (h : ∀ c ∈ cs.head?, isBlank c = false) :
    skipBlanks cs = cs :=
  skipBlanks_run (b := []) (by simp [IsBlanks]) h

theorem skipBlanks_closing {b : List Char} (hb : IsBlanks b) (cs : List Char) :
    skipBlanks (b ++ ')' :: cs) = ')' :: cs :=
  skipBlanks_run hb (forall_head?_cons (by decide) cs)

theorem skipBlanks_skipBlanks (cs : List Char) : skipBlanks (skipBlanks cs) = skipBlanks cs := by
  refine skipBlanks_eq_self fun c hc => ?_
  have hnot := List.head?_dropWhile_not isBlank cs
  rw [show cs.dropWhile isBlank = skipBlanks cs from rfl, hc] at hnot
  exact hnot

/-! ### Names and single characters -/

theorem readRun_of_isRun {p : Char → Bool} {w rest : List Char} (hw : IsRun p w)
    (hr : ∀ c ∈ rest.head?, p c = false) : readRun p (w ++ rest) = .ok (w, rest) := by
  unfold readRun
  rw [takeWhile_run hw.2 hr, dropWhile_run hw.2 hr, if_neg (by simpa using hw.1)]

theorem isRun_of_readRun {p : Char → Bool} {cs w rest : List Char}
    (h : readRun p cs = .ok (w, rest)) :
    cs = w ++ rest ∧ IsRun p w ∧ ∀ c ∈ rest.head?, p c = false := by
  unfold readRun at h
  split_ifs at h with hempty
  cases h
  refine ⟨List.takeWhile_append_dropWhile.symm, ⟨by simpa using hempty, ?_⟩, ?_⟩
  · exact fun _ => List.mem_takeWhile_imp
  · intro c hc
    have hnot := List.head?_dropWhile_not p cs
    rw [hc] at hnot
    exact hnot

theorem readCharacter_eq_ok {c : Char} {cs rest : List Char} :
    readCharacter c cs = .ok rest ↔ cs = c :: rest := by
  cases cs with
  | nil => simp [readCharacter]
  | cons d ds =>
    simp only [readCharacter, List.cons.injEq]
    split_ifs with h <;> simp [h]

theorem afterStartAnyCase?_eq_some {p cs rest : List Char} :
    afterStartAnyCase? p cs = some rest ↔ ∃ w, cs = w ++ rest ∧ IsWord p w := by
  induction p generalizing cs with
  | nil => simp [afterStartAnyCase?, IsWord]
  | cons a p ih =>
    cases cs with
    | nil =>
      simp only [afterStartAnyCase?, reduceCtorEq, false_iff]
      rintro ⟨w, hw, hword⟩
      rw [(List.append_eq_nil_iff.mp hw.symm).1] at hword
      cases hword
    | cons c cs =>
      simp only [afterStartAnyCase?, Option.ite_none_right_eq_some, ih]
      constructor
      · rintro ⟨rfl, w, rfl, hw⟩
        exact ⟨c :: w, rfl, congrArg (c.toLower :: ·) hw⟩
      · rintro ⟨w, hw, hword⟩
        obtain ⟨d, w, rfl⟩ := List.exists_cons_of_ne_nil (l := w) (by rintro rfl; cases hword)
        obtain ⟨rfl, hcs⟩ := List.cons.inj hw
        obtain ⟨ha, hp⟩ := List.cons.inj hword
        exact ⟨ha.symm, w, hcs, hp⟩

/-! ### Numbers -/

theorem decimalValue_eq (whole fraction : List Char) :
    ofParts whole fraction 0 = ofRat (decimalValue whole fraction) := by
  unfold ofParts decimalValue
  rw [ofDecimal_eq, natOfDigits_append, zero_sub, zpow_neg, zpow_natCast]
  congr 1
  push_cast
  field_simp

theorem splitFraction_pointed {ds rest : List Char} (hd : ∀ c ∈ ds, c.isDigit = true)
    (hr : ∀ c ∈ rest.head?, c.isDigit = false) :
    splitFraction ('.' :: (ds ++ rest)) = (ds, rest) := by
  rw [splitFraction, takeWhile_run hd hr, dropWhile_run hd hr]

theorem splitFraction_of_ne {rest : List Char} (h : ∀ c ∈ rest.head?, c ≠ '.') :
    splitFraction rest = ([], rest) := by
  unfold splitFraction
  split
  · exact absurd rfl (h '.' rfl)
  · rfl

theorem splitPointed_of_fractionText {fraction pointed rest : List Char}
    (h : FractionText fraction pointed)
    (hr : ∀ c ∈ rest.head?, c.isDigit = false ∧ c ≠ '.') :
    splitPointed (pointed ++ rest) = (fraction, rest) := by
  unfold splitPointed
  cases h with
  | absent =>
    rw [List.nil_append, splitFraction_of_ne fun c hc => (hr c hc).2]
    rfl
  | pointed hds =>
    rw [List.cons_append, splitFraction_pointed hds.2 fun c hc => (hr c hc).1, if_neg hds.1]

theorem fractionText_of_splitPointed (cs : List Char) :
    ∃ pointed, cs = pointed ++ (splitPointed cs).2 ∧
      FractionText (splitPointed cs).1 pointed := by
  unfold splitPointed
  split_ifs with hnil
  · exact ⟨[], rfl, .absent⟩
  · unfold splitFraction at hnil ⊢
    split at hnil
    · next ds =>
      refine ⟨'.' :: ds.takeWhile Char.isDigit, ?_,
        .pointed ⟨hnil, fun _ => List.mem_takeWhile_imp⟩⟩
      rw [List.cons_append, List.takeWhile_append_dropWhile]
    · exact absurd rfl hnil

theorem plain?_of_text {whole fraction pointed rest : List Char} (hw : IsRun Char.isDigit whole)
    (hf : FractionText fraction pointed)
    (hr : ∀ c ∈ rest.head?, c.isDigit = false ∧ c ≠ '.') :
    plain? (whole ++ (pointed ++ rest)) = some (ofRat (decimalValue whole fraction), rest) := by
  have hstop : ∀ c ∈ (pointed ++ rest).head?, c.isDigit = false := by
    cases hf with
    | absent => exact fun c hc => (hr c hc).1
    | pointed => exact forall_head?_cons (by decide) _
  unfold plain?
  rw [takeWhile_run hw.2 hstop, dropWhile_run hw.2 hstop, splitPointed_of_fractionText hf hr,
    ← decimalValue_eq]
  simp [hw.1]

theorem text_of_plain? {cs rest : List Char} {x : Binary64} (h : plain? cs = some (x, rest)) :
    ∃ whole fraction pointed, cs = whole ++ (pointed ++ rest) ∧ IsRun Char.isDigit whole ∧
      FractionText fraction pointed ∧ x = ofRat (decimalValue whole fraction) := by
  unfold plain? at h
  simp only [Option.ite_none_left_eq_some, Option.some.injEq, Prod.mk.injEq] at h
  obtain ⟨hne, rfl, hrest⟩ := h
  obtain ⟨pointed, hp, hf⟩ := fractionText_of_splitPointed (cs.dropWhile Char.isDigit)
  refine ⟨cs.takeWhile Char.isDigit, _, pointed, ?_, ⟨hne, fun _ => List.mem_takeWhile_imp⟩, hf,
    decimalValue_eq _ _⟩
  rw [← hrest, ← hp, List.takeWhile_append_dropWhile]

/-! ### Amounts -/

theorem readUnit_of_unitText {u : AmountUnit} {measure rest : List Char} (h : UnitText u measure)
    (hr : IsDelimited rest) : readUnit (measure ++ rest) = (u, rest) := by
  cases h with
  | number =>
    have hpercent : afterStart? ['%'] rest = none := by
      cases rest with
      | nil => rfl
      | cons c cs =>
        have hc : ∀ d ∈ (c :: cs).head?, '%' ≠ d := hr.forall (by decide)
        exact if_neg (hc c rfl)
    have hdegrees : afterStartAnyCase? ['d', 'e', 'g'] rest = none := by
      cases rest with
      | nil => rfl
      | cons c cs =>
        have hc : ∀ d ∈ (c :: cs).head?, 'd' ≠ d.toLower := hr.forall (by decide)
        exact if_neg (hc c rfl)
    simp [readUnit, hpercent, hdegrees]
  | percent => simp [readUnit, afterStart?]
  | degrees hw =>
    have hdegrees : afterStartAnyCase? ['d', 'e', 'g'] (measure ++ rest) = some rest :=
      afterStartAnyCase?_eq_some.mpr ⟨measure, rfl, hw⟩
    have hpercent : afterStart? ['%'] (measure ++ rest) = none := by
      cases measure with
      | nil => cases hw
      | cons c cs =>
        refine if_neg ?_
        rintro rfl
        exact absurd (List.cons.inj hw).1 (by decide)
    simp [readUnit, hpercent, hdegrees]

theorem unitText_of_readUnit (cs : List Char) :
    ∃ measure, cs = measure ++ (readUnit cs).2 ∧ UnitText (readUnit cs).1 measure := by
  unfold readUnit
  split
  · next h => exact ⟨['%'], eq_of_afterStart? h, .percent⟩
  · next h =>
    obtain ⟨w, hw, hword⟩ := afterStartAnyCase?_eq_some.mp h
    exact ⟨w, hw, .degrees hword⟩
  · exact ⟨[], rfl, .number⟩

theorem UnitText.head? {u : AmountUnit} {measure rest : List Char} (h : UnitText u measure)
    (hr : IsDelimited rest) : ∀ c ∈ (measure ++ rest).head?, c.isDigit = false ∧ c ≠ '.' := by
  cases h with
  | number => exact hr.forall (by decide)
  | percent => exact forall_head?_cons (by decide) _
  | degrees hw =>
    cases measure with
    | nil => cases hw
    | cons c cs =>
      refine forall_head?_cons ?_ _
      have hc : c.toLower = 'd' := (List.cons.inj hw).1
      constructor
      · rw [Bool.eq_false_iff]
        intro hd
        have hlow : c.isDigit = true → c.toLower ≠ 'd' :=
          forall_ascii (P := fun c => c.isDigit = true → c.toLower ≠ 'd') (by decide)
            (toNat_lt_of_isDigit hd)
        exact hlow hd hc
      · rintro rfl
        exact absurd hc (by decide)

theorem splitSign_of_signText {negative : Bool} {sign rest : List Char} (h : SignText negative sign)
    (hr : ∀ c ∈ rest.head?, c ≠ '-' ∧ c ≠ '+') : splitSign (sign ++ rest) = (negative, rest) := by
  cases h with
  | absent => exact splitSign_unsigned hr
  | plus => rfl
  | minus => rfl

theorem signText_of_splitSign (cs : List Char) :
    ∃ sign, cs = sign ++ (splitSign cs).2 ∧ SignText (splitSign cs).1 sign := by
  unfold splitSign
  split
  · exact ⟨['-'], rfl, .minus⟩
  · exact ⟨['+'], rfl, .plus⟩
  · exact ⟨[], rfl, .absent⟩

theorem head?_isRun {p : Char → Bool} {w rest : List Char} (h : IsRun p w) :
    ∀ c ∈ (w ++ rest).head?, p c = true := by
  intro c hc
  rw [List.head?_append_of_ne_nil _ h.1] at hc
  exact h.2 c (List.mem_of_head? hc)

theorem readAmount_of_amountText {a : Amount Binary64} {t rest : List Char} (h : AmountText a t)
    (hr : IsDelimited rest) : readAmount (t ++ rest) = .ok (a, rest) := by
  obtain ⟨hs, hw, hf, hu⟩ := h
  unfold readAmount readNumber
  simp only [List.append_assoc]
  rw [splitSign_of_signText hs fun c hc => ne_sign_of_isDigit (head?_isRun hw c hc)]
  dsimp only
  rw [plain?_of_text hw hf (hu.head? hr)]
  simp only [bind, Except.bind, readUnit_of_unitText hu hr]
  rfl

theorem amountText_of_readAmount {a : Amount Binary64} {cs rest : List Char}
    (h : readAmount cs = .ok (a, rest)) : ∃ t, cs = t ++ rest ∧ AmountText a t := by
  unfold readAmount readNumber at h
  obtain ⟨sign, hsign, hs⟩ := signText_of_splitSign cs
  generalize splitSign cs = signed at h hsign hs
  obtain ⟨negative, unsigned⟩ := signed
  dsimp only at h hsign hs
  cases hx : plain? unsigned with
  | none => simp [hx, bind, Except.bind] at h
  | some r =>
    obtain ⟨x, more⟩ := r
    obtain ⟨whole, fraction, pointed, hplain, hw, hf, rfl⟩ := text_of_plain? hx
    obtain ⟨measure, hmeasure, hu⟩ := unitText_of_readUnit more
    simp only [hx, bind, Except.bind, pure, Except.pure, Except.ok.injEq, Prod.mk.injEq] at h
    obtain ⟨rfl, rfl⟩ := h
    refine ⟨_, ?_, .intro hs hw hf hu⟩
    rw [hsign, hplain]
    simp only [List.append_assoc]
    rw [← hmeasure]

/-! ### Adjustments -/

theorem isBlank_of_isDigit {c : Char} (h : c.isDigit = true) : isBlank c = false :=
  forall_ascii (P := fun c => c.isDigit = true → isBlank c = false) (by decide)
    (toNat_lt_of_isDigit h) h

theorem modifierOf?_of_isDigit {c : Char} (h : c.isDigit = true) : modifierOf? c = none :=
  forall_ascii (P := fun c => c.isDigit = true → modifierOf? c = none) (by decide)
    (toNat_lt_of_isDigit h) h

theorem modifierOf?_sign (m : Modifier) : modifierOf? m.sign = some m := by cases m <;> decide

theorem isBlank_sign (m : Modifier) : isBlank m.sign = false := by cases m <;> decide

theorem sign_of_modifierOf? {c : Char} {m : Modifier} (h : modifierOf? c = some m) :
    m.sign = c := by
  simpa using List.find?_some h

theorem readModifier_of_modifierText {m : Modifier} {sign rest : List Char}
    (h : ModifierText m sign) : readModifier (sign ++ rest) = (some m, skipBlanks rest) := by
  obtain ⟨hb⟩ := h
  simp only [List.cons_append, List.nil_append, readModifier, modifierOf?_sign, hb, if_true]

/-- There is no modifier where a sign has no blank after it. -/
theorem readModifier_of_unmodified {cs : List Char}
    (h : ∀ s b rest, cs = s :: b :: rest → isBlank b = true → modifierOf? s = none) :
    readModifier cs = (none, cs) := by
  unfold readModifier
  split
  · next s b rest =>
    split
    · next m hm =>
      split_ifs with hb
      · rw [h s b rest rfl hb] at hm
        cases hm
      · rfl
    · rfl
  · rfl

theorem modifierText_of_readModifier (cs : List Char) :
    ∃ sign between, cs = sign ++ (between ++ (readModifier cs).2) ∧
      OptionalText ModifierText (readModifier cs).1 sign ∧ IsBlanks between := by
  have hnone : ∃ sign between, cs = sign ++ (between ++ cs) ∧
      OptionalText ModifierText none sign ∧ IsBlanks between :=
    ⟨[], [], rfl, .absent, by simp [IsBlanks]⟩
  unfold readModifier
  split
  · next s b rest =>
    split
    · next m hm =>
      split_ifs with hb
      · obtain ⟨between, hbetween, hblanks⟩ := exists_blanks rest
        refine ⟨[m.sign, b], between, ?_, .present (.intro hb), hblanks⟩
        rw [← hbetween, sign_of_modifierOf? hm]
        rfl
      · exact hnone
    · exact hnone
  · exact hnone

/-- An amount begins with a digit, or with a sign that a digit is attached to. -/
theorem AmountText.cases_head {a : Amount Binary64} {t : List Char} (h : AmountText a t) :
    (∃ d ds, t = d :: ds ∧ d.isDigit = true) ∨
      ∃ s d ds, t = s :: d :: ds ∧ isBlank s = false ∧ d.isDigit = true := by
  obtain ⟨hs, hw, -, -⟩ := h
  obtain ⟨d, ds, rfl⟩ := List.exists_cons_of_ne_nil hw.1
  have hd := hw.2 d List.mem_cons_self
  cases hs with
  | absent => exact Or.inl ⟨d, _, rfl, hd⟩
  | plus => exact Or.inr ⟨'+', d, _, rfl, by decide, hd⟩
  | minus => exact Or.inr ⟨'-', d, _, rfl, by decide, hd⟩

theorem AmountText.skipBlanks_append {a : Amount Binary64} {t rest : List Char}
    (h : AmountText a t) : skipBlanks (t ++ rest) = t ++ rest := by
  refine skipBlanks_eq_self ?_
  rcases h.cases_head with ⟨d, ds, rfl, hd⟩ | ⟨s, d, ds, rfl, hs, -⟩
  · exact forall_head?_cons (isBlank_of_isDigit hd) _
  · exact forall_head?_cons hs _

/-- An amount, or the parenthesis in its place, is not taken for a modifier. -/
theorem readModifier_of_amount {a : Option (Amount Binary64)} {number after cs : List Char}
    (h : OptionalText AmountText a number) (hd : IsBlanks after) :
    readModifier (skipBlanks (number ++ (after ++ ')' :: cs)))
      = (none, skipBlanks (number ++ (after ++ ')' :: cs))) := by
  refine readModifier_of_unmodified fun s b rest heq hb => ?_
  cases h with
  | absent =>
    rw [List.nil_append, skipBlanks_closing hd] at heq
    rw [← (List.cons.inj heq).1]
    decide
  | present ha =>
    rw [ha.skipBlanks_append] at heq
    rcases ha.cases_head with ⟨d, ds, rfl, hdigit⟩ | ⟨s', d, ds, rfl, -, hdigit⟩
    · rw [← (List.cons.inj heq).1]
      exact modifierOf?_of_isDigit hdigit
    · rw [← (List.cons.inj (List.cons.inj heq).2).1, isBlank_of_isDigit hdigit] at hb
      cases hb

theorem readModifier_of_text {m : Option Modifier} {a : Option (Amount Binary64)}
    {sign between number after cs : List Char} (hm : OptionalText ModifierText m sign)
    (hc : IsBlanks between) (ha : OptionalText AmountText a number) (hd : IsBlanks after) :
    readModifier (skipBlanks (sign ++ (between ++ (number ++ (after ++ ')' :: cs)))))
      = (m, skipBlanks (number ++ (after ++ ')' :: cs))) := by
  cases hm with
  | absent =>
    rw [List.nil_append, skipBlanks_append hc]
    exact readModifier_of_amount ha hd
  | present hm =>
    have hstart : ∀ c ∈ (sign ++ (between ++ (number ++ (after ++ ')' :: cs)))).head?,
        isBlank c = false := by
      obtain ⟨-⟩ := hm
      exact forall_head?_cons (isBlank_sign _) _
    rw [skipBlanks_eq_self hstart, readModifier_of_modifierText hm, skipBlanks_append hc]

theorem readAmount?_of_text {a : Option (Amount Binary64)} {number after : List Char}
    (h : OptionalText AmountText a number) (hd : IsBlanks after) (cs : List Char) :
    ∃ rest, readAmount? (skipBlanks (number ++ (after ++ ')' :: cs))) = (a, rest) ∧
      skipBlanks rest = ')' :: cs := by
  cases h with
  | absent =>
    refine ⟨')' :: cs, ?_, skipBlanks_closing (b := []) (by simp [IsBlanks]) cs⟩
    rw [List.nil_append, skipBlanks_closing hd]
    rfl
  | present ha =>
    refine ⟨after ++ ')' :: cs, ?_, skipBlanks_closing hd cs⟩
    rw [ha.skipBlanks_append, readAmount?, readAmount_of_amountText ha ⟨after, cs, rfl, hd⟩]

theorem amountText_of_readAmount? (cs : List Char) :
    ∃ number, cs = number ++ (readAmount? cs).2 ∧
      OptionalText AmountText (readAmount? cs).1 number := by
  unfold readAmount?
  split
  · next h =>
    obtain ⟨t, ht, ha⟩ := amountText_of_readAmount h
    exact ⟨t, ht, .present ha⟩
  · exact ⟨[], rfl, .absent⟩

/-- **An adjustment is read** where one stands. -/
theorem readAdjustment_of_adjustmentText {a : Adjustment Binary64} {t : List Char}
    (h : AdjustmentText a t) (rest : List Char) : readAdjustment (t ++ rest) = .ok (a, rest) := by
  obtain ⟨hn, hb, hm, hc, ha, hd⟩ := h
  obtain ⟨more, hamount, hmore⟩ := readAmount?_of_text ha hd rest
  unfold readAdjustment readName
  simp only [List.append_assoc, List.cons_append, List.nil_append]
  rw [readRun_of_isRun hn (forall_head?_cons (by decide) _)]
  simp only [bind, Except.bind, readCharacter, if_true, skipBlanks_append hb,
    readModifier_of_text hm hc ha hd, skipBlanks_skipBlanks, hamount, hmore]
  rfl

theorem adjustmentText_of_readAdjustment {a : Adjustment Binary64} {cs rest : List Char}
    (h : readAdjustment cs = .ok (a, rest)) : ∃ t, cs = t ++ rest ∧ AdjustmentText a t := by
  unfold readAdjustment at h
  obtain ⟨⟨name, r₁⟩, hname, hr₁⟩ := exists_of_bind_eq_ok h
  obtain ⟨r₂, hopen, hr₂⟩ := exists_of_bind_eq_ok hr₁
  obtain ⟨before, hbefore, hb⟩ := exists_blanks r₂
  obtain ⟨sign, between, hsign, hm, hc⟩ := modifierText_of_readModifier (skipBlanks r₂)
  generalize readModifier (skipBlanks r₂) = modified at hr₂ hsign hm
  obtain ⟨m, r₃⟩ := modified
  obtain ⟨between', hbetween, hc'⟩ := exists_blanks r₃
  obtain ⟨number, hnumber, ha⟩ := amountText_of_readAmount? (skipBlanks r₃)
  dsimp only at hr₂ hnumber ha hsign hm
  generalize readAmount? (skipBlanks r₃) = read at hr₂ hnumber ha
  obtain ⟨amount, r₄⟩ := read
  obtain ⟨after, hafter, hd⟩ := exists_blanks r₄
  obtain ⟨r₅, hclose, heq⟩ := exists_of_bind_eq_ok hr₂
  obtain ⟨rfl, rfl⟩ := Prod.mk.inj (Except.ok.inj heq)
  obtain ⟨hcs, hn, -⟩ := isRun_of_readRun hname
  have hblanks : IsBlanks (between ++ between') := by
    intro c hmem
    exact (List.mem_append.mp hmem).elim (hc c) (hc' c)
  refine ⟨_, ?_, .intro hn hb hm hblanks ha hd⟩
  rw [hcs, readCharacter_eq_ok.mp hopen, hbefore, hsign, hbetween, hnumber, hafter,
    readCharacter_eq_ok.mp hclose]
  simp

/-! ### Adjustments in a row -/

theorem readAdjustment_closing (cs : List Char) :
    readAdjustment (')' :: cs) = .error ⟨')' :: cs, .token⟩ := by
  have hn : isNameChar ')' = false := by decide
  simp [readAdjustment, readName, readRun, hn, bind, Except.bind]

theorem readAdjustments_of_ok {cs rest : List Char} {a : Adjustment Binary64}
    (h : readAdjustment (skipBlanks cs) = .ok (a, rest)) :
    readAdjustments cs = (a :: (readAdjustments rest).1, (readAdjustments rest).2) := by
  rw [readAdjustments]
  split
  · next heq =>
    rw [h] at heq
    cases heq
    rfl
  · next heq =>
    rw [h] at heq
    cases heq

theorem readAdjustments_of_error {cs : List Char} {m : Misread}
    (h : readAdjustment (skipBlanks cs) = .error m) : readAdjustments cs = ([], cs) := by
  rw [readAdjustments]
  split
  · next heq =>
    rw [h] at heq
    cases heq
  · rfl

theorem AdjustmentText.head? {a : Adjustment Binary64} {t : List Char} (h : AdjustmentText a t)
    (rest : List Char) : ∀ c ∈ (t ++ rest).head?, isNameChar c = true := by
  obtain ⟨hn, -, -, -, -, -⟩ := h
  rw [List.append_assoc]
  exact head?_isRun hn

theorem readAdjustments_of_adjustmentsText {as : List (Adjustment Binary64)} {ts b : List Char}
    (h : AdjustmentsText as ts) (hb : IsBlanks b) (cs : List Char) :
    readAdjustments (ts ++ (b ++ ')' :: cs)) = (as, b ++ ')' :: cs) := by
  induction h with
  | nil =>
    refine readAdjustments_of_error (m := ⟨')' :: cs, .token⟩) ?_
    rw [List.nil_append, skipBlanks_closing hb, readAdjustment_closing]
  | @cons a as blanks t ts hblanks ha has ih =>
    have hread : readAdjustment (skipBlanks (blanks ++ (t ++ ts) ++ (b ++ ')' :: cs)))
        = .ok (a, ts ++ (b ++ ')' :: cs)) := by
      rw [List.append_assoc, List.append_assoc, skipBlanks_run hblanks fun c hc =>
        isBlank_of_isNameChar (ha.head? _ c hc)]
      exact readAdjustment_of_adjustmentText ha _
    rw [readAdjustments_of_ok hread, ih]

theorem adjustmentsText_of_readAdjustments (cs : List Char) :
    ∃ ts, cs = ts ++ (readAdjustments cs).2 ∧ AdjustmentsText (readAdjustments cs).1 ts := by
  fun_induction readAdjustments cs with
  | case1 cs a rest h hlt more rest' heq ih =>
    obtain ⟨b, hb, hblanks⟩ := exists_blanks cs
    obtain ⟨t, ht, ha⟩ := adjustmentText_of_readAdjustment h
    obtain ⟨ts, hts, has⟩ := ih
    rw [heq] at hts has
    refine ⟨b ++ (t ++ ts), ?_, .cons hblanks ha has⟩
    rw [hb, ht, hts]
    simp
  | case2 cs m h => exact ⟨[], rfl, .nil⟩

/-! ### What follows a base -/

theorem readTail_of_tailText {as : List (Adjustment Binary64)} {s : List Char}
    (h : TailText as s) (build : List (Adjustment Binary64) → Expression Binary64)
    (cs : List Char) : readTail build (s ++ cs) = .ok (build as, cs) := by
  obtain ⟨ha, hb⟩ := h
  unfold readTail
  simp only [List.append_assoc, List.cons_append, List.nil_append,
    readAdjustments_of_adjustmentsText ha hb, skipBlanks_closing hb, bind, Except.bind,
    readCharacter, if_true]
  rfl

theorem tailText_of_readTail {build : List (Adjustment Binary64) → Expression Binary64}
    {e : Expression Binary64} {cs rest : List Char} (h : readTail build cs = .ok (e, rest)) :
    ∃ as s, cs = s ++ rest ∧ TailText as s ∧ e = build as := by
  unfold readTail at h
  obtain ⟨ts, hts, has⟩ := adjustmentsText_of_readAdjustments cs
  obtain ⟨more, hclose, heq⟩ := exists_of_bind_eq_ok h
  obtain ⟨b, hb, hblanks⟩ := exists_blanks (readAdjustments cs).2
  obtain ⟨rfl, rfl⟩ := Prod.mk.inj (Except.ok.inj heq)
  refine ⟨_, ts ++ (b ++ [')']), ?_, .intro has hblanks, rfl⟩
  rw [hts, hb, readCharacter_eq_ok.mp hclose]
  simp

end CssColor.Expression
