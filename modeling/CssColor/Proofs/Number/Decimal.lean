import CssColor.Number.Decimal
import CssColor.Proofs.Number.Arithmetic
import CssColor.Proofs.Text.Runs

/-! # Reading decimals

The decimal digits of a number are read as that number (`readUnsigned?_digits`,
`readUnsigned?_pointed`). Whatever is read is a number: no decimal is read as `nan`
(`isNumber_readSigned?`). -/

namespace CssColor.Number.Decimal

open Binary64 Text

/-! ### Digits -/

theorem natOfDigits_eq (ds : List Char) : natOfDigits ds = Nat.ofDigitChars 10 ds 0 :=
  Nat.ofDigitChars_eq_foldl.symm

theorem natOfDigits_toDigits (n : ℕ) : natOfDigits (Nat.toDigits 10 n) = n := by
  rw [natOfDigits_eq, Nat.ofDigitChars_ten_toDigits]

theorem toDigits_injective : Function.Injective (Nat.toDigits 10) :=
  Function.LeftInverse.injective natOfDigits_toDigits

theorem natOfDigits_concat (ds : List Char) (c : Char) :
    natOfDigits (ds ++ [c]) = 10 * natOfDigits ds + (c.toNat - '0'.toNat) := by
  simp [natOfDigits]

theorem natOfDigits_append (ds es : List Char) :
    natOfDigits (ds ++ es) = natOfDigits ds * 10 ^ es.length + natOfDigits es := by
  induction es using List.reverseRecOn with
  | nil => simp [natOfDigits]
  | append_singleton es e ih =>
    rw [← List.append_assoc, natOfDigits_concat, ih, natOfDigits_concat, List.length_append,
      List.length_singleton]
    ring

theorem natOfDigits_append_digitChar (ds : List Char) {d : ℕ} (hd : d < 10) :
    natOfDigits (ds ++ [d.digitChar]) = 10 * natOfDigits ds + d := by
  rw [natOfDigits_concat]
  congr 1
  exact Nat.toNat_digitChar_sub_48_of_lt_ten hd

theorem isDigit_of_mem_digits {n : ℕ} {c : Char} (h : c ∈ Nat.toDigits 10 n) : c.isDigit = true :=
  Nat.isDigit_of_mem_toDigits (by decide) (by decide) h

theorem isDigit_head_digits (n : ℕ) (rest : List Char) :
    ∀ c ∈ (Nat.toDigits 10 n ++ rest).head?, c.isDigit = true := by
  intro c hc
  rw [List.head?_append_of_ne_nil _ Nat.toDigits_ne_nil] at hc
  exact isDigit_of_mem_digits (List.mem_of_head? hc)

/-! ### Values -/

theorem isNumber_ofDecimal (n : ℕ) (e : ℤ) : (ofDecimal n e).IsNumber := by
  unfold ofDecimal
  dsimp only
  split_ifs
  · exact isNumber_zero false
  · exact isNumber_infinity false
  · exact isNumber_zero false
  · exact isNumber_ofRat _

theorem isNumber_applySign (s : Bool) {x : Binary64} (h : x.IsNumber) :
    (applySign s x).IsNumber := by
  unfold applySign
  split_ifs
  · exact h.neg
  · exact h

/-- The guards of `ofDecimal` only answer what rounding would. -/
theorem ofDecimal_eq (n : ℕ) (e : ℤ) : ofDecimal n e = ofRat (n * (10 : ℚ) ^ e) := by
  have hpow : ∀ k : ℕ, (2 : ℚ) ^ (3 * k) ≤ 10 ^ k := by
    intro k
    rw [pow_mul]
    exact pow_le_pow_left₀ (by norm_num) (by norm_num) k
  unfold ofDecimal
  dsimp only
  by_cases h0 : n = 0
  · rw [if_pos h0, h0, Nat.cast_zero, zero_mul, ofRat_eq_finite isDouble_zero]
  · obtain ⟨hlo, hhi⟩ := log2_bounds h0
    rw [if_neg h0]
    split_ifs with hlarge hsmall
    · obtain ⟨k, rfl⟩ := Int.eq_ofNat_of_zero_le hlarge.1
      refine (ofRat_eq_infinity ?_).symm
      calc bound ≤ 2 ^ (n.log2 + 3 * k) := pow_le_pow_right₀ (by norm_num) (by omega)
        _ = 2 ^ n.log2 * 2 ^ (3 * k) := pow_add _ _ _
        _ ≤ n * 10 ^ k := mul_le_mul hlo (hpow k) (by positivity) (Nat.cast_nonneg n)
        _ = n * (10 : ℚ) ^ (k : ℤ) := by rw [zpow_natCast]
    · obtain ⟨k, rfl⟩ : ∃ k : ℕ, e = -k := ⟨e.natAbs, by omega⟩
      refine (ofRat_eq_zero (by positivity) ?_).symm
      rw [zpow_neg, zpow_natCast, ← div_eq_mul_inv, div_lt_iff₀ (by positivity)]
      calc (n : ℚ) < 2 ^ (n.log2 + 1) := hhi
        _ ≤ 2 ^ (-1075 + (3 * k : ℕ) : ℤ) := by
          rw [← zpow_natCast]
          exact zpow_le_zpow_right₀ (by norm_num) (by push_cast; omega)
        _ = 2 ^ (-1075 : ℤ) * 2 ^ (3 * k) := by rw [zpow_add₀ (by norm_num), zpow_natCast]
        _ ≤ 2 ^ (-1075 : ℤ) * 10 ^ k := mul_le_mul_of_nonneg_left (hpow k) (by positivity)
    · rfl

theorem ofDecimal_nat (n : ℕ) : ofDecimal n 0 = Scalar.ofNat n := by
  rw [ofDecimal_eq, zpow_zero, mul_one]
  rfl

/-! ### Unsigned decimals -/

theorem readUnsigned?_digits (n : ℕ) :
    readUnsigned? (Nat.toDigits 10 n) = some (ofDecimal n 0) := by
  have hd : ∀ c ∈ Nat.toDigits 10 n, c.isDigit = true := fun _ => isDigit_of_mem_digits
  have ht := List.takeWhile_eq_self_iff.mpr hd
  have hr := List.dropWhile_eq_nil_iff.mpr hd
  unfold readUnsigned?
  rw [ht, hr]
  simp [splitFraction, readExponent?, ofParts, natOfDigits_toDigits]

theorem readUnsigned?_pointed (n : ℕ) {fraction : List Char}
    (hf : ∀ c ∈ fraction, c.isDigit = true) :
    readUnsigned? (Nat.toDigits 10 n ++ '.' :: fraction)
      = some (ofDecimal (natOfDigits (Nat.toDigits 10 n ++ fraction)) (-fraction.length)) := by
  have hd : ∀ c ∈ Nat.toDigits 10 n, c.isDigit = true := fun _ => isDigit_of_mem_digits
  have ht := List.takeWhile_eq_self_iff.mpr hf
  have hr := List.dropWhile_eq_nil_iff.mpr hf
  unfold readUnsigned?
  rw [takeWhile_run hd (by simp), dropWhile_run hd (by simp), splitFraction, ht, hr]
  simp [readExponent?, ofParts]

theorem isNumber_readUnsigned? {cs : List Char} {x : Binary64} (h : readUnsigned? cs = some x) :
    x.IsNumber := by
  unfold readUnsigned? at h
  simp only [Option.ite_none_left_eq_some, Option.map_eq_some_iff] at h
  obtain ⟨-, e, -, rfl⟩ := h
  exact isNumber_ofDecimal _ _

/-! ### Signed decimals -/

theorem splitSign_unsigned {cs : List Char} (h : ∀ c ∈ cs.head?, c ≠ '-' ∧ c ≠ '+') :
    splitSign cs = (false, cs) := by
  unfold splitSign
  split
  · exact absurd rfl (h '-' rfl).1
  · exact absurd rfl (h '+' rfl).2
  · rfl

theorem ne_sign_of_isDigit {c : Char} (h : c.isDigit = true) : c ≠ '-' ∧ c ≠ '+' := by
  constructor <;> rintro rfl <;> exact absurd h (by decide)

theorem splitSign_of_isDigit {cs : List Char} (h : ∀ c ∈ cs.head?, c.isDigit = true) :
    splitSign cs = (false, cs) :=
  splitSign_unsigned fun c hc => ne_sign_of_isDigit (h c hc)

theorem readSigned?_of_isDigit {cs : List Char} (h : ∀ c ∈ cs.head?, c.isDigit = true) :
    readSigned? cs = readUnsigned? cs := by
  have hid : applySign false = id := rfl
  simp [readSigned?, splitSign_of_isDigit h, hid]

theorem readSigned?_minus (cs : List Char) :
    readSigned? ('-' :: cs) = (readUnsigned? cs).map fun x => -x := rfl

theorem isNumber_readSigned? {cs : List Char} {x : Binary64} (h : readSigned? cs = some x) :
    x.IsNumber := by
  unfold readSigned? at h
  obtain ⟨y, hy, rfl⟩ := Option.map_eq_some_iff.mp h
  exact isNumber_applySign _ (isNumber_readUnsigned? hy)

theorem isFinite_readFinite? {cs : List Char} {x : Binary64} (h : readFinite? cs = some x) :
    x.isFinite = true ∧ x.IsNumber := by
  obtain ⟨hx, hf⟩ := Option.filter_eq_some_iff.mp h
  exact ⟨hf, isNumber_readSigned? hx⟩

theorem readFinite?_eq {cs : List Char} {x : Binary64} (h : readSigned? cs = some x)
    (hf : x.isFinite = true) : readFinite? cs = some x := by
  rw [readFinite?, h]
  simp [hf]

theorem readFinite?_digits {n : ℕ} (hn : n < 2 ^ 53) :
    readFinite? (Nat.toDigits 10 n) = some (Scalar.ofNat n) := by
  have hd := isDigit_head_digits n []
  rw [List.append_nil] at hd
  refine readFinite?_eq ?_ ?_
  · rw [readSigned?_of_isDigit hd, readUnsigned?_digits, ofDecimal_nat]
  · rw [ofNat_eq_finite hn]; rfl

/-! ### Integers -/

theorem toList_toString (i : ℤ) : (toString i).toList =
    if i < 0 then '-' :: Nat.toDigits 10 i.natAbs else Nat.toDigits 10 i.natAbs := by
  rw [Int.toString_eq_repr, Int.repr_eq_if]
  rcases lt_or_ge i 0 with h | h
  · rw [if_neg (not_le.mpr h), if_pos h, String.toList_append, Nat.toList_repr,
      show (-i).toNat = i.natAbs by omega]
    rfl
  · rw [if_pos h, if_neg (not_lt.mpr h), Nat.toList_repr, show i.toNat = i.natAbs by omega]

theorem toString_injective : Function.Injective fun i : ℤ => (toString i).toList := by
  have hsign : ∀ m n : ℕ, '-' :: Nat.toDigits 10 m ≠ Nat.toDigits 10 n := fun m n h =>
    absurd (isDigit_of_mem_digits (h ▸ List.mem_cons_self)) (by decide)
  intro i j h
  simp only [toList_toString] at h
  split_ifs at h with hi hj hj
  · have habs := toDigits_injective (List.cons.inj h).2
    omega
  · exact absurd h (hsign _ _)
  · exact absurd h.symm (hsign _ _)
  · have habs := toDigits_injective h
    omega

theorem isFigure_of_mem_toString {i : ℤ} {c : Char} (h : c ∈ (toString i).toList) :
    isFigure c = true := by
  rw [toList_toString] at h
  split_ifs at h
  · rcases List.mem_cons.mp h with rfl | h
    · decide
    · exact isFigure_of_isDigit (isDigit_of_mem_digits h)
  · exact isFigure_of_isDigit (isDigit_of_mem_digits h)

/-- The digits of an integer with its sign are the integer. -/
theorem applySign_ofDecimal {i : ℤ} (hi : i.natAbs < 2 ^ 53) :
    applySign (i < 0) (ofDecimal i.natAbs 0) = finite i := by
  rw [ofDecimal_nat, ofNat_eq_finite hi]
  rcases lt_or_ge i 0 with hneg | hpos
  · have hne : ((i.natAbs : ℕ) : ℚ) ≠ 0 := by exact_mod_cast (by omega : i.natAbs ≠ 0)
    have hcast : -((i.natAbs : ℕ) : ℚ) = (i : ℚ) := by
      exact_mod_cast (by omega : -(i.natAbs : ℤ) = i)
    rw [decide_eq_true hneg]
    show neg (finite (i.natAbs : ℚ)) = _
    rw [neg, if_neg hne, hcast]
  · have hcast : ((i.natAbs : ℕ) : ℚ) = (i : ℚ) := by
      rw [← Int.cast_natCast, show (i.natAbs : ℤ) = i by omega]
    rw [decide_eq_false (not_lt.mpr hpos), hcast]
    rfl

theorem readFinite?_toString {i : ℤ} (hi : i.natAbs < 2 ^ 53) :
    readFinite? (toString i).toList = some (ofRat i) := by
  have hd : IsDouble (i : ℚ) := isDouble_intCast (by rw [Int.abs_eq_natAbs]; exact_mod_cast hi)
  have hval := applySign_ofDecimal hi
  rw [ofRat_eq_finite hd, toList_toString]
  split_ifs with hneg
  · rw [decide_eq_true hneg] at hval
    refine readFinite?_eq ?_ rfl
    rw [readSigned?_minus, readUnsigned?_digits]
    exact congrArg some hval
  · rw [decide_eq_false hneg] at hval
    rw [readFinite?_digits hi, ← ofDecimal_nat]
    exact congrArg some hval

end CssColor.Number.Decimal
