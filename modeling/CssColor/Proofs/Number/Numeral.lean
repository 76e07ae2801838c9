import CssColor.Proofs.Expression.Grammar

/-! # Numerals

A `Numeral` is a decimal as it is written, with a sign, digits before and after a point and a power
of ten. Every decimal that is read is one, and the double it is read as is the nearest to its value
(`exists_numeralText`). The whole digits alone are its value without the fraction if there are any
and there is no power of ten (`Numeral.truncate_value`). -/

namespace CssColor.Number.Decimal

open Binary64 Text Expression

/-! ### Numerals and their text -/

/-- A decimal as it is written. -/
structure Numeral where
  negative : Bool
  /-- The digits before the point. -/
  whole : List Char
  /-- The digits after the point. -/
  fraction : List Char
  /-- The power of ten. -/
  exponent : ℤ

namespace Numeral

/-- The number without its sign. -/
def magnitude (n : Numeral) : ℚ := decimalValue n.whole n.fraction * 10 ^ n.exponent

/-- **The number that is written.** -/
def value (n : Numeral) : ℚ := if n.negative then -n.magnitude else n.magnitude

/-- The double that is read. -/
def nearest (n : Numeral) : Binary64 := applySign n.negative (ofRat n.magnitude)

end Numeral

/-- A point with any digits after it, or nothing. -/
inductive PointText : List Char → List Char → Prop
  | absent : PointText [] []
  | pointed {ds : List Char} (h : ∀ c ∈ ds, c.isDigit = true) : PointText ds ('.' :: ds)

/-- A mark and a power of ten with an attached sign, or nothing. -/
inductive ExponentText : ℤ → List Char → Prop
  | absent : ExponentText 0 []
  | marked {mark : Char} {negative : Bool} {sign ds : List Char} (hm : mark = 'e' ∨ mark = 'E')
    (hs : SignText negative sign) (hd : IsRun Char.isDigit ds) :
    ExponentText (if negative then -(natOfDigits ds : ℤ) else natOfDigits ds) (mark :: (sign ++ ds))

/-- The text of a numeral; it has a digit before or after its point. -/
inductive NumeralText : Numeral → List Char → Prop
  | intro {negative : Bool} {sign whole fraction point power : List Char} {e : ℤ}
    (hs : SignText negative sign) (hw : ∀ c ∈ whole, c.isDigit = true)
    (hp : PointText fraction point) (hd : whole ≠ [] ∨ fraction ≠ []) (he : ExponentText e power) :
    NumeralText ⟨negative, whole, fraction, e⟩ (sign ++ (whole ++ (point ++ power)))

/-! ### Reading numerals -/

theorem ofParts_eq (whole fraction : List Char) (e : ℤ) :
    ofParts whole fraction e = ofRat (decimalValue whole fraction * 10 ^ e) := by
  unfold ofParts decimalValue
  rw [ofDecimal_eq, natOfDigits_append, zpow_sub₀ (by norm_num), zpow_natCast]
  congr 1
  push_cast
  field_simp

theorem pointText_of_splitFraction (cs : List Char) :
    ∃ point, cs = point ++ (splitFraction cs).2 ∧ PointText (splitFraction cs).1 point := by
  unfold splitFraction
  split
  · next ds =>
    refine ⟨'.' :: ds.takeWhile Char.isDigit, ?_, .pointed fun _ => List.mem_takeWhile_imp⟩
    rw [List.cons_append, List.takeWhile_append_dropWhile]
  · exact ⟨[], rfl, .absent⟩

theorem exponentText_of_readExponent? {cs : List Char} {e : ℤ} (h : readExponent? cs = some e) :
    ExponentText e cs := by
  unfold readExponent? at h
  split at h
  · cases h
    exact .absent
  · next mark rest =>
    obtain ⟨sign, hsign, hs⟩ := signText_of_splitSign rest
    generalize splitSign rest = signed at h hsign hs
    obtain ⟨negative, ds⟩ := signed
    obtain ⟨⟨hm, hne, hds⟩, he⟩ := Option.ite_none_right_eq_some.mp h
    rw [hsign, ← Option.some.inj he]
    exact .marked hm hs ⟨hne, List.all_eq_true.mp hds⟩

/-- **Every decimal that is read is a numeral,** and it is read as the double nearest to its
value. -/
theorem exists_numeralText {cs : List Char} {x : Binary64} (h : readSigned? cs = some x) :
    ∃ n, NumeralText n cs ∧ x = n.nearest := by
  obtain ⟨sign, hsign, hs⟩ := signText_of_splitSign cs
  unfold readSigned? at h
  generalize splitSign cs = signed at h hsign hs
  obtain ⟨negative, unsigned⟩ := signed
  obtain ⟨y, hy, rfl⟩ := Option.map_eq_some_iff.mp h
  unfold readUnsigned? at hy
  obtain ⟨point, hpoint, hp⟩ := pointText_of_splitFraction (unsigned.dropWhile Char.isDigit)
  generalize splitFraction (unsigned.dropWhile Char.isDigit) = parts at hy hpoint hp
  obtain ⟨fraction, rest⟩ := parts
  obtain ⟨hne, hy⟩ := Option.ite_none_left_eq_some.mp hy
  obtain ⟨e, he, rfl⟩ := Option.map_eq_some_iff.mp hy
  refine ⟨⟨negative, unsigned.takeWhile Char.isDigit, fraction, e⟩, ?_, ?_⟩
  · have heq : cs = sign ++ (unsigned.takeWhile Char.isDigit ++ (point ++ rest)) := by
      rw [← hpoint, List.takeWhile_append_dropWhile]
      exact hsign
    rw [heq]
    exact .intro hs (fun _ => List.mem_takeWhile_imp) hp (not_and_or.mp hne)
      (exponentText_of_readExponent? he)
  · rw [ofParts_eq]
    rfl

/-! ### The whole part of a numeral -/

theorem natOfDigits_lt {ds : List Char} (h : ∀ c ∈ ds, c.isDigit = true) :
    natOfDigits ds < 10 ^ ds.length := by
  induction ds using List.reverseRecOn with
  | nil => simp [natOfDigits]
  | append_singleton ds d ih =>
    have hds := ih fun c hc => h c (List.mem_append_left _ hc)
    have hd : d.toNat - '0'.toNat ≤ 9 := by
      have hdigit := h d (by simp)
      simp only [Char.isDigit, ge_iff_le, Bool.and_eq_true, decide_eq_true_eq,
        UInt32.le_iff_toNat_le] at hdigit
      have h57 : d.toNat ≤ 57 := hdigit.2
      have h48 : '0'.toNat = 48 := by decide
      omega
    rw [natOfDigits_concat, List.length_append, List.length_singleton, pow_succ]
    omega

/-- The digits behind the point are worth less than one. -/
theorem floor_decimalValue {whole fraction : List Char} (h : ∀ c ∈ fraction, c.isDigit = true) :
    ⌊decimalValue whole fraction⌋ = natOfDigits whole := by
  have hlt : (natOfDigits fraction : ℚ) < 10 ^ fraction.length := by
    exact_mod_cast natOfDigits_lt h
  have hfraction : (natOfDigits fraction : ℚ) / 10 ^ fraction.length < 1 :=
    (div_lt_one (by positivity)).mpr hlt
  have hnonneg : (0 : ℚ) ≤ natOfDigits fraction / 10 ^ fraction.length := by positivity
  unfold decimalValue
  rw [Int.floor_eq_iff]
  push_cast
  constructor <;> linarith

theorem NumeralText.isDigit_fraction {n : Numeral} {w : List Char} (h : NumeralText n w) :
    ∀ c ∈ n.fraction, c.isDigit = true := by
  obtain ⟨-, -, hp, -, -⟩ := h
  cases hp with
  | absent => simp
  | pointed hds => exact hds

namespace Numeral

/-- The digits before the point, with the sign. -/
def wholePart (n : Numeral) : ℤ :=
  if n.negative then -(natOfDigits n.whole : ℤ) else natOfDigits n.whole

/-- Without a power of ten, the digits before the point are the number without its fraction. -/
theorem truncate_value {n : Numeral} {w : List Char} (h : NumeralText n w) (he : n.exponent = 0) :
    truncate n.value = n.wholePart := by
  have hnonneg : 0 ≤ decimalValue n.whole n.fraction := by
    unfold decimalValue
    positivity
  have hwhole := truncate_of_nonneg hnonneg
  rw [floor_decimalValue h.isDigit_fraction] at hwhole
  unfold value wholePart magnitude
  rw [he, zpow_zero, mul_one]
  split_ifs
  · rw [truncate_neg, hwhole]
  · exact hwhole

theorem natOfDigits_whole_le {n : Numeral} (he : n.exponent = 0) :
    (natOfDigits n.whole : ℚ) ≤ |n.value| := by
  have hnonneg : (0 : ℚ) ≤ natOfDigits n.fraction / 10 ^ n.fraction.length := by positivity
  have habs : |n.value| = |n.magnitude| := by
    unfold value
    split_ifs
    · exact abs_neg _
    · rfl
  rw [habs, magnitude, he, zpow_zero, mul_one, decimalValue, abs_of_nonneg (by positivity)]
  linarith

end Numeral

end CssColor.Number.Decimal
