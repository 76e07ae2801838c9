import CssColor.Proofs.Number.Range

/-! # Doubles up to the sign of a zero

Where a formula comes back to a number it can come back to the other zero. `Alike x y` says that two
doubles are the same or both zeros. The operations do not tell such doubles apart, except by a zero
again (`Alike.add`, `Alike.sub`, `Alike.mul`), and comparisons do not either
(`Alike.one_le_iff`). -/

namespace CssColor.Number.Binary64

open Scalar

/-- The same double, or two zeros. -/
def Alike (x y : Binary64) : Prop := x = y ∨ (x.isZero = true ∧ y.isZero = true)

theorem Alike.refl (x : Binary64) : Alike x x := Or.inl rfl

theorem Alike.symm {x y : Binary64} (h : Alike x y) : Alike y x := h.imp Eq.symm And.symm

theorem Alike.trans {x y z : Binary64} (h : Alike x y) (h' : Alike y z) : Alike x z := by
  rcases h with rfl | ⟨hx, hy⟩
  · exact h'
  · rcases h' with rfl | ⟨-, hz⟩
    · exact Or.inr ⟨hx, hy⟩
    · exact Or.inr ⟨hx, hz⟩

/-! ### Zeros -/

theorem isZero_zero (s : Bool) : (zero s).isZero = true := by cases s <;> rfl

theorem within_of_isZero {x : Binary64} (h : x.isZero = true) : Within 0 0 x := by
  cases x with
  | nan => cases h
  | infinity s => cases h
  | negZero => exact ⟨rfl, isDouble_zero, le_rfl, le_rfl⟩
  | finite q =>
    obtain rfl : q = 0 := of_decide_eq_true h
    exact ⟨rfl, isDouble_zero, le_rfl, le_rfl⟩

theorem alike_signed (s s' : Bool) (q : ℚ) : Alike (signed s q) (signed s' q) := by
  unfold signed
  split_ifs
  · exact Or.inr ⟨isZero_zero s, isZero_zero s'⟩
  · exact Or.inl rfl

/-- Finite doubles are alike if they stand for the same number. -/
theorem alike_of_value_eq {x y : Binary64} (hx : x.isFinite = true) (hy : y.isFinite = true)
    (h : x.value = y.value) : Alike x y := by
  by_cases h0 : x.value = 0
  · exact Or.inr ⟨(isZero_iff hx).mpr h0, (isZero_iff hy).mpr (h ▸ h0)⟩
  · -- a negative zero stands for zero, so neither is one
    cases x with
    | nan => cases hx
    | infinity s => cases hx
    | negZero => exact absurd rfl h0
    | finite q =>
      cases y with
      | nan => cases hy
      | infinity s => cases hy
      | negZero => exact absurd h h0
      | finite r => exact Or.inl (congrArg finite h)

theorem Alike.value_eq {x y : Binary64} (h : Alike x y) : x.value = y.value := by
  rcases h with rfl | ⟨hx, hy⟩
  · rfl
  · rw [(within_of_isZero hx).value_eq, (within_of_isZero hy).value_eq]

theorem Alike.isFinite {x y : Binary64} (h : Alike x y) (hy : y.isFinite = true) :
    x.isFinite = true := by
  rcases h with rfl | ⟨hx, -⟩
  · exact hy
  · exact (within_of_isZero hx).isFinite

theorem Alike.within {a b : ℚ} {x y : Binary64} (h : Alike x y) (hy : Within a b y) :
    Within a b x := by
  rcases h with rfl | ⟨hx, hy0⟩
  · exact hy
  · have hvalue := (within_of_isZero hy0).value_eq
    exact (within_of_isZero hx).weaken (hvalue ▸ hy.lo_le) (hvalue ▸ hy.le_hi)

/-! ### Operations -/

theorem isZero_sub {x y : Binary64} (h : Alike x y) (hy : y.isFinite = true) :
    (x - y).isZero = true := by
  obtain ⟨s, hs⟩ := exists_sub_eq (h.isFinite hy) hy
  rw [hs, h.value_eq, sub_self, signed, if_pos rfl]
  exact isZero_zero s

theorem isZero_mul {x y : Binary64} (hx : x.isZero = true) (hy : y.isFinite = true) :
    (x * y).isZero = true := by
  obtain ⟨s, hs⟩ := exists_mul_eq (within_of_isZero hx).isFinite hy
  rw [hs, (within_of_isZero hx).value_eq, zero_mul, signed, if_pos rfl]
  exact isZero_zero s

/-- A zero adds nothing to a double. -/
theorem alike_add_of_isZero {a b : ℚ} {x z : Binary64} (hx : Within a b x) (hz : z.isZero = true) :
    Alike (x + z) x := by
  have hz' := within_of_isZero hz
  have hnearest : nearest (x.value + z.value) = x.value := by
    rw [hz'.value_eq, add_zero, nearest_eq_self hx.isDouble]
  have hlt : |nearest (x.value + z.value)| < bound := by
    rw [hnearest]
    exact hx.isDouble.abs_lt_bound
  obtain ⟨s, hs⟩ := exists_add_eq hx.isFinite hz'.isFinite
  have hfinite : (x + z).isFinite = true := by
    rw [hs]
    exact isFinite_signed s hlt
  exact alike_of_value_eq hfinite hx.isFinite
    ((value_add hx.isFinite hz'.isFinite hlt).trans hnearest)

theorem Alike.add {x y : Binary64} (h : Alike x y) (f : Binary64) : Alike (x + f) (y + f) := by
  rcases h with rfl | ⟨hx, hy⟩
  · exact .refl _
  have hx' := within_of_isZero hx
  have hy' := within_of_isZero hy
  by_cases hf : f.isFinite = true
  · obtain ⟨s, hs⟩ := exists_add_eq hx'.isFinite hf
    obtain ⟨s', hs'⟩ := exists_add_eq hy'.isFinite hf
    rw [hs, hs', hx'.value_eq, hy'.value_eq]
    exact alike_signed s s' _
  · cases f with
    | nan => cases x <;> cases y <;> exact Or.inl rfl
    | infinity s =>
      rw [add_infinity hx'.isFinite, add_infinity hy'.isFinite]
      exact .refl _
    | negZero => exact absurd rfl hf
    | finite q => exact absurd rfl hf

theorem Alike.sub {x y : Binary64} (h : Alike x y) (f : Binary64) : Alike (x - f) (y - f) :=
  h.add (-f)

theorem Alike.mul {x y : Binary64} (h : Alike x y) (f : Binary64) : Alike (x * f) (y * f) := by
  rcases h with rfl | ⟨hx, hy⟩
  · exact .refl _
  by_cases hf : f.isFinite = true
  · exact Or.inr ⟨isZero_mul hx hf, isZero_mul hy hf⟩
  · cases f with
    | nan => cases x <;> cases y <;> exact Or.inl rfl
    | infinity s =>
      rw [mul_infinity (within_of_isZero hx).isFinite, mul_infinity (within_of_isZero hy).isFinite,
        if_pos hx, if_pos hy]
      exact .refl _
    | negZero => exact absurd rfl hf
    | finite q => exact absurd rfl hf

theorem Alike.clampUnit {x y : Binary64} (h : Alike x y) : Alike (clampUnit x) (clampUnit y) := by
  rcases h with rfl | ⟨hx, hy⟩
  · exact .refl _
  · rw [clampUnit_eq_self ((within_of_isZero hx).weaken le_rfl zero_le_one),
      clampUnit_eq_self ((within_of_isZero hy).weaken le_rfl zero_le_one)]
    exact Or.inr ⟨hx, hy⟩

/-! ### Comparisons -/

theorem Alike.one_le_iff {x y : Binary64} (h : Alike x y) : 1 ≤ x ↔ 1 ≤ y := by
  rcases h with rfl | ⟨hx, hy⟩
  · rfl
  · have hone : (1 : Binary64).isFinite = true := isFinite_ofNat (n := 1) (by norm_num)
    rw [le_iff hone (within_of_isZero hx).isFinite, le_iff hone (within_of_isZero hy).isFinite,
      (within_of_isZero hx).value_eq, (within_of_isZero hy).value_eq]

end CssColor.Number.Binary64
