import CssColor.Color.Render
import CssColor.Proofs.Color.Range
import CssColor.Proofs.Number.Decimal
import CssColor.Proofs.Number.Rounding

/-! # Alpha in hundredths

Alpha is written with at most two decimals and read back as `shownAlpha`, the double nearest to
those hundredths (`readFinite?_alphaDigits`). Writing that again changes nothing
(`hundredths_shownAlpha`), but it can make a color solid that was not: from 99.5 hundredths on,
alpha is shown as 1 (`one_le_shownAlpha_iff`). -/

namespace CssColor

open Number Number.Scalar Number.Binary64 Decimal Text

/-- The alpha that the text of an alpha stands for. -/
def shownAlpha (a : Binary64) : Binary64 :=
  applySign a.isNegative (ofRat ((hundredths a : ℚ) / 100))

/-- The characters of the text of an alpha. -/
def alphaDigits (a : Binary64) : List Char :=
  if a.isNegative then '-' :: hundredthsDigits (hundredths a) else hundredthsDigits (hundredths a)

theorem toList_alphaText {a : Binary64} (h : a.isNaN = false) :
    (alphaText a).toList = alphaDigits a := by
  unfold alphaText alphaDigits
  dsimp only
  rw [h, if_neg (by decide), String.toList_ofList]

/-! ### Hundredths -/

/-- A bound of alpha bounds the hundredths, if a hundred times it is a double. -/
theorem hundredths_le_of_within {a : Binary64} {q : ℚ} {k : ℕ} (h : Within 0 q a)
    (hd : IsDouble (q * 100)) (hk : roundHalfAway (q * 100) ≤ k) : hundredths a ≤ k := by
  obtain ⟨h0, hle⟩ := (h.mul_ofNat (n := 100) (by norm_num) hd).toIntNearest_mem
  rw [Nat.cast_ofNat] at hle
  show (Scalar.toIntNearest (a * ofNat 100)).natAbs ≤ k
  omega

theorem hundredths_le {a : Binary64} (h : Within 0 1 a) : hundredths a ≤ 100 := by
  obtain ⟨h0, hle⟩ := h.toIntNearest_share_mem (n := 100) (by norm_num)
  show (Scalar.toIntNearest (a * ofNat 100)).natAbs ≤ 100
  omega

/-- Whole hundredths survive the way through double precision; none becomes negative there, and the
last one alone is one. -/
theorem hundredths_ofRat : ∀ k : ℕ, k ≤ 100 → hundredths (ofRat ((k : ℚ) / 100)) = k ∧
    (1 ≤ ofRat ((k : ℚ) / 100) ↔ k = 100) ∧ (ofRat ((k : ℚ) / 100)).isNegative = false := by
  decide +kernel

theorem hundredths_one : hundredths (1 : Binary64) = 100 := by
  have h := (hundredths_ofRat 100 le_rfl).1
  have hone : ((100 : ℕ) : ℚ) / 100 = (1 : ℕ) := by norm_num
  rw [hone] at h
  exact h

theorem eq_negZero {a : Binary64} (h : Within 0 1 a) (hs : a.isNegative = true) : a = negZero := by
  cases a with
  | nan => cases hs
  | infinity s => exact absurd h.isFinite (by simp [isFinite])
  | negZero => rfl
  | finite q =>
    have hq : q < 0 := of_decide_eq_true hs
    exact absurd h.lo_le (not_le.mpr hq)

/-- Alpha as it is shown is that of hundredths, or the negative zero. -/
theorem shownAlpha_cases {a : Binary64} (h : Within 0 1 a) :
    (a = negZero ∧ shownAlpha a = negZero) ∨
      (a.isNegative = false ∧ shownAlpha a = ofRat ((hundredths a : ℚ) / 100)) := by
  by_cases hs : a.isNegative = true
  · have ha := eq_negZero h hs
    refine Or.inl ⟨ha, ?_⟩
    rw [ha]
    decide +kernel
  · rw [Bool.not_eq_true] at hs
    refine Or.inr ⟨hs, ?_⟩
    rw [shownAlpha, hs]
    rfl

section

variable {a : Binary64} (h : Within 0 1 a)

include h

theorem within_shownAlpha : Within 0 1 (shownAlpha a) := by
  rcases shownAlpha_cases h with ⟨-, hs⟩ | ⟨-, hs⟩ <;> rw [hs]
  · exact ⟨rfl, isDouble_zero, le_rfl, zero_le_one⟩
  · have hk : (hundredths a : ℚ) ≤ 100 := by exact_mod_cast hundredths_le h
    refine within_ofRat isDouble_zero isDouble_one (by positivity) ?_
    rwa [div_le_one (by norm_num)]

theorem hundredths_shownAlpha : hundredths (shownAlpha a) = hundredths a := by
  rcases shownAlpha_cases h with ⟨ha, hs⟩ | ⟨-, hs⟩ <;> rw [hs]
  · rw [ha]
  · exact (hundredths_ofRat _ (hundredths_le h)).1

theorem isNegative_shownAlpha : (shownAlpha a).isNegative = a.isNegative := by
  rcases shownAlpha_cases h with ⟨ha, hs⟩ | ⟨ha, hs⟩ <;> rw [hs, ha]
  exact (hundredths_ofRat _ (hundredths_le h)).2.2

theorem alphaDigits_shownAlpha : alphaDigits (shownAlpha a) = alphaDigits a := by
  rw [alphaDigits, isNegative_shownAlpha h, hundredths_shownAlpha h, alphaDigits]

theorem one_le_shownAlpha_iff : 1 ≤ shownAlpha a ↔ hundredths a = 100 := by
  rcases shownAlpha_cases h with ⟨ha, hs⟩ | ⟨-, hs⟩ <;> rw [hs]
  · rw [ha]
    decide +kernel
  · exact (hundredths_ofRat _ (hundredths_le h)).2.1

end

/-! ### The text of an alpha -/

theorem natOfDigits_hundredths (k : ℕ) :
    natOfDigits (Nat.toDigits 10 (k / 100) ++ [(k / 10 % 10).digitChar]) = k / 10 ∧
      natOfDigits (Nat.toDigits 10 (k / 100) ++ [(k / 10 % 10).digitChar, (k % 10).digitChar])
        = k := by
  have htenth : natOfDigits (Nat.toDigits 10 (k / 100) ++ [(k / 10 % 10).digitChar]) = k / 10 := by
    rw [natOfDigits_append_digitChar _ (by omega), natOfDigits_toDigits]
    omega
  refine ⟨htenth, ?_⟩
  have hsplit : Nat.toDigits 10 (k / 100) ++ [(k / 10 % 10).digitChar, (k % 10).digitChar]
      = (Nat.toDigits 10 (k / 100) ++ [(k / 10 % 10).digitChar]) ++ [(k % 10).digitChar] := by simp
  rw [hsplit, natOfDigits_append_digitChar _ (by omega), htenth]
  omega

theorem isDigit_digitChar {d : ℕ} (h : d < 10) : d.digitChar.isDigit = true := by
  rw [Nat.isDigit_digitChar, decide_eq_true h]

theorem readUnsigned?_hundredthsDigits (k : ℕ) :
    readUnsigned? (hundredthsDigits k) = some (ofRat ((k : ℚ) / 100)) := by
  obtain ⟨htenth, hall⟩ := natOfDigits_hundredths k
  have ht := isDigit_digitChar (d := k / 10 % 10) (by omega)
  have hh := isDigit_digitChar (d := k % 10) (by omega)
  unfold hundredthsDigits
  dsimp only
  split_ifs with h100 h10
  · have hk' : (k : ℚ) = 100 * (k / 100 : ℕ) := by exact_mod_cast (by omega : k = 100 * (k / 100))
    have hq : (k : ℚ) / 100 = (k / 100 : ℕ) * (10 : ℚ) ^ (0 : ℤ) := by rw [hk']; norm_num
    rw [readUnsigned?_digits, ofDecimal_eq, hq]
  · have hk' : (k : ℚ) = 10 * (k / 10 : ℕ) := by exact_mod_cast (by omega : k = 10 * (k / 10))
    have hq : (k : ℚ) / 100 = (k / 10 : ℕ) * (10 : ℚ) ^ (-1 : ℤ) := by rw [hk']; norm_num; ring
    have hf : ∀ c ∈ [(k / 10 % 10).digitChar], c.isDigit = true := by
      intro c hc
      rw [List.mem_singleton.mp hc]
      exact ht
    rw [readUnsigned?_pointed _ hf, htenth, hq]
    exact congrArg some (ofDecimal_eq _ _)
  · have hq : (k : ℚ) / 100 = (k : ℚ) * (10 : ℚ) ^ (-2 : ℤ) := by norm_num; ring
    have hf : ∀ c ∈ [(k / 10 % 10).digitChar, (k % 10).digitChar], c.isDigit = true := by
      intro c hc
      rcases List.mem_pair.mp hc with rfl | rfl
      · exact ht
      · exact hh
    rw [readUnsigned?_pointed _ hf, hall, hq]
    exact congrArg some (ofDecimal_eq _ _)

theorem isDigit_head_hundredthsDigits (k : ℕ) :
    ∀ c ∈ (hundredthsDigits k).head?, c.isDigit = true := by
  have h0 := isDigit_head_digits (k / 100) []
  rw [List.append_nil] at h0
  unfold hundredthsDigits
  dsimp only
  split_ifs
  · exact h0
  · exact isDigit_head_digits _ _
  · exact isDigit_head_digits _ _

theorem readFinite?_alphaDigits {a : Binary64} (h : Within 0 1 a) :
    readFinite? (alphaDigits a) = some (shownAlpha a) := by
  refine readFinite?_eq ?_ (within_shownAlpha h).isFinite
  have hu := readUnsigned?_hundredthsDigits (hundredths a)
  unfold alphaDigits shownAlpha
  split_ifs with hs
  · rw [readSigned?_minus, hu, hs]
    rfl
  · rw [readSigned?_of_isDigit (isDigit_head_hundredthsDigits _), hu, Bool.eq_false_iff.mpr hs]
    rfl

end CssColor
