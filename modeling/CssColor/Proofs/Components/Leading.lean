import CssColor.Components
import CssColor.Proofs.Expression.Grammar
import CssColor.Proofs.Text.Parts

/-! # The integer at the front of a text

`leadingInt?` reads a sign or none and all the digits behind it, of whatever length, once the white
space around the text is taken off (`leadingInt?_of_splitSign`). It reads every text of this form
whose digits make no number over 2147483647, and no other (`leadingInt?_eq_some_iff`). So each
integer up to this size comes back from its own text, whatever follows, if only the digits end there
(`leadingInt?_reads`). -/

namespace CssColor

open Number Number.Decimal Text Expression

/-- A text with an integer at its front: a sign or none, all the digits that follow, which make no
number over 2147483647, and anything behind them. -/
inductive LeadingText : ℤ → List Char → Prop
  | intro {negative : Bool} {sign ds rest : List Char} (hs : SignText negative sign)
    (hd : IsRun Char.isDigit ds) (hr : ∀ c ∈ rest.head?, c.isDigit = false)
    (hm : Nat.ofDigitChars 10 ds 0 ≤ 2147483647) :
    LeadingText (if negative then -(Nat.ofDigitChars 10 ds 0 : ℤ) else Nat.ofDigitChars 10 ds 0)
      (sign ++ (ds ++ rest))

variable {cs w ds rest : List Char} {negative : Bool} {n : ℤ}

/-! ### What is read -/

/-- **The number behind a sign** is that of all digits there, if there are some and they do not make
too large a number. -/
theorem leadingInt?_of_splitSign (h : splitSign (trim cs) = (negative, ds ++ rest))
    (hd : ∀ c ∈ ds, c.isDigit = true) (hr : ∀ c ∈ rest.head?, c.isDigit = false) :
    leadingInt? cs = if ds = [] ∨ maxLeading < natOfDigits ds then none
      else some (if negative then -(natOfDigits ds : ℤ) else natOfDigits ds) := by
  unfold leadingInt?
  simp only [h, takeWhile_run hd hr, List.isEmpty_iff, Bool.or_eq_true, decide_eq_true_eq]

theorem leadingText_of_leadingInt? (h : leadingInt? cs = some n) : LeadingText n (trim cs) := by
  obtain ⟨sign, hsign, hs⟩ := signText_of_splitSign (trim cs)
  cases hsplit : splitSign (trim cs) with
  | mk negative signed =>
    have hparts := List.takeWhile_append_dropWhile (p := Char.isDigit) (l := signed)
    have hd : ∀ c ∈ signed.takeWhile Char.isDigit, c.isDigit = true :=
      fun _ => List.mem_takeWhile_imp
    have hr : ∀ c ∈ (signed.dropWhile Char.isDigit).head?, c.isDigit = false := by
      intro c hc
      have hnot := List.head?_dropWhile_not Char.isDigit signed
      rwa [hc] at hnot
    rw [hsplit] at hsign hs
    rw [leadingInt?_of_splitSign (hsplit.trans (by rw [hparts])) hd hr] at h
    obtain ⟨hread, hn⟩ := Option.ite_none_left_eq_some.mp h
    obtain ⟨hne, hm⟩ := not_or.mp hread
    rw [natOfDigits_eq] at hm hn
    rw [hsign, ← hparts, ← Option.some.inj hn]
    exact .intro hs ⟨hne, hd⟩ hr (not_lt.mp hm)

theorem LeadingText.leadingInt?_eq (h : LeadingText n (trim cs)) : leadingInt? cs = some n := by
  generalize hw : trim cs = w at h
  obtain @⟨negative, sign, ds, rest, hs, hd, hr, hm⟩ := h
  have hsplit : splitSign (trim cs) = (negative, ds ++ rest) := by
    rw [hw]
    exact splitSign_of_signText hs fun c hc => ne_sign_of_isDigit (head?_isRun hd c hc)
  have hread : ¬(ds = [] ∨ maxLeading < natOfDigits ds) :=
    not_or.mpr ⟨hd.1, not_lt.mpr (natOfDigits_eq ds ▸ hm)⟩
  rw [leadingInt?_of_splitSign hsplit hd.2 hr, if_neg hread, natOfDigits_eq]

/-- **The texts that are read.** -/
theorem leadingInt?_eq_some_iff : leadingInt? cs = some n ↔ LeadingText n (trim cs) :=
  ⟨leadingText_of_leadingInt?, LeadingText.leadingInt?_eq⟩

theorem LeadingText.bounds (h : LeadingText n w) : -2147483647 ≤ n ∧ n ≤ 2147483647 := by
  obtain ⟨-, -, -, hm⟩ := h
  split_ifs <;> omega

/-! ### What is written -/

theorem isSpace_of_signText {sign : List Char} (h : SignText negative sign) :
    ∀ c ∈ sign, isSpace c = false := by
  cases h with
  | absent => simp
  | plus | minus => simpa using (by decide)

/-- White space at the end of a text is part of what stands behind the integer. -/
theorem LeadingText.trim (h : LeadingText n w) : LeadingText n (trim w) := by
  obtain @⟨negative, sign, ds, rest, hs, hd, hr, hm⟩ := h
  have hsolid : ∀ c ∈ sign ++ ds, isSpace c = false := by
    intro c hc
    rcases List.mem_append.mp hc with hc | hc
    · exact isSpace_of_signText hs c hc
    · exact (isFigure_spec (isFigure_of_isDigit (hd.2 c hc))).2.1
  have hne : sign ++ ds ≠ [] := List.append_ne_nil_of_right_ne_nil _ hd.1
  rw [← List.append_assoc, trim_append hne hsolid, List.append_assoc]
  obtain ⟨v, hv, -⟩ := exists_dropRightWhile isSpace rest
  refine .intro hs hd (fun c hc => hr c ?_) hm
  rw [hv, List.head?_append_of_ne_nil _ (List.ne_nil_of_mem (List.mem_of_head? hc))]
  exact hc

theorem leadingText_toString (h0 : -2147483647 ≤ n) (h1 : n ≤ 2147483647)
    (hr : ∀ c ∈ rest.head?, c.isDigit = false) : LeadingText n ((toString n).toList ++ rest) := by
  have hd : IsRun Char.isDigit (Nat.toDigits 10 n.natAbs) :=
    ⟨Nat.toDigits_ne_nil, fun _ => isDigit_of_mem_digits⟩
  have hvalue : Nat.ofDigitChars 10 (Nat.toDigits 10 n.natAbs) 0 = n.natAbs :=
    Nat.ofDigitChars_ten_toDigits
  have hm : Nat.ofDigitChars 10 (Nat.toDigits 10 n.natAbs) 0 ≤ 2147483647 := by omega
  rw [toList_toString]
  split_ifs with hneg
  · have hread := LeadingText.intro .minus hd hr hm
    rwa [if_pos rfl, hvalue, show -(n.natAbs : ℤ) = n by omega] at hread
  · have hread := LeadingText.intro .absent hd hr hm
    rwa [if_neg Bool.false_ne_true, hvalue, show (n.natAbs : ℤ) = n by omega] at hread

/-- **The integer at the front of a text** is read if and only if the text, without the white space
around it, is a sign or none, some digits and a rest that begins with no digit, and the digits make
no number over 2147483647. So what is read lies between this number and its negative, and every such
integer is read again from its own text with anything behind it that begins with no digit. -/
theorem leadingInt?_reads :
    (∀ cs n, leadingInt? cs = some n ↔ LeadingText n (trim cs)) ∧
    (∀ cs, leadingInt? cs = none ↔ ∀ n, ¬LeadingText n (trim cs)) ∧
    (∀ cs n, leadingInt? cs = some n → -2147483647 ≤ n ∧ n ≤ 2147483647) ∧
    ∀ (n : ℤ) (rest : List Char), -2147483647 ≤ n → n ≤ 2147483647 →
      (∀ c ∈ rest.head?, c.isDigit = false) →
        leadingInt? ((toString n).toList ++ rest) = some n := by
  refine ⟨fun cs n => leadingInt?_eq_some_iff, fun cs => ?_, fun cs n h => ?_,
    fun n rest h0 h1 hr => (leadingText_toString h0 h1 hr).trim.leadingInt?_eq⟩
  · simp only [Option.eq_none_iff_forall_ne_some, ne_eq, leadingInt?_eq_some_iff]
  · exact (leadingText_of_leadingInt? h).bounds

/-- The least integer with a unit and white space behind it, and one with zeros and a fraction
behind white space. -/
theorem leadingInt?_reads_least :
    leadingInt? ((toString (-2147483647 : ℤ)).toList ++ "deg ".toList) = some (-2147483647) ∧
      leadingInt? "\u2003+00082.5".toList = some 82 := by
  obtain ⟨hiff, -, -, hback⟩ := leadingInt?_reads
  refine ⟨hback _ _ le_rfl (by decide) (by simp), (hiff _ _).mpr ?_⟩
  have htrim : trim "\u2003+00082.5".toList = ['+'] ++ ("00082".toList ++ ".5".toList) := by decide
  have hdigits : IsRun Char.isDigit "00082".toList := ⟨by decide, by simp⟩
  rw [htrim]
  exact .intro .plus hdigits (by simp) (by decide)

end CssColor
