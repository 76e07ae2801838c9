import CssColor.Number.Scalar
import CssColor.Proofs.Number.Nearest

/-! # Arithmetic in double precision

On finite doubles an operation is the exact one with a single rounding, as long as the result is in
range. `Within lo hi x` says that `x` is a finite double from `lo` to `hi`; since rounding is
monotone, bounds that are doubles carry over from the exact result to the rounded one. `IsNumber x`
admits the infinities as well. -/

namespace CssColor.Number.Binary64

/-- A finite double from `lo` to `hi`. -/
structure Within (lo hi : ℚ) (x : Binary64) : Prop where
  isFinite : x.isFinite = true
  isDouble : IsDouble x.value
  lo_le : lo ≤ x.value
  le_hi : x.value ≤ hi

theorem Within.weaken {a b c d : ℚ} {x : Binary64} (h : Within a b x) (hc : c ≤ a) (hd : b ≤ d) :
    Within c d x :=
  ⟨h.isFinite, h.isDouble, hc.trans h.lo_le, h.le_hi.trans hd⟩

theorem Within.value_eq {a : ℚ} {x : Binary64} (h : Within a a x) : x.value = a :=
  le_antisymm h.le_hi h.lo_le

/-- A double of the format other than `nan`. -/
structure IsNumber (x : Binary64) : Prop where
  isNaN : x.isNaN = false
  isDouble : IsDouble x.value

theorem within_finite {a b q : ℚ} (h : IsDouble q) (ha : a ≤ q) (hb : q ≤ b) :
    Within a b (finite q) :=
  ⟨rfl, h, ha, hb⟩

/-! ### Rounding to a double -/

theorem isFinite_zero (s : Bool) : (zero s).isFinite = true := by cases s <;> rfl

theorem value_zero (s : Bool) : (zero s).value = 0 := by cases s <;> rfl

theorem ofRat_eq {q : ℚ} (h : |nearest q| < bound) :
    ofRat q = if nearest q = 0 then zero (q < 0) else finite (nearest q) := by
  have hb := abs_lt.mp h
  unfold ofRat
  simp only [if_neg (not_le.mpr hb.2), if_neg (not_le.mpr hb.1)]

theorem isFinite_ofRat {q : ℚ} (h : |nearest q| < bound) : (ofRat q).isFinite = true := by
  rw [ofRat_eq h]
  split_ifs
  · exact isFinite_zero _
  · rfl

theorem value_ofRat {q : ℚ} (h : |nearest q| < bound) : (ofRat q).value = nearest q := by
  rw [ofRat_eq h]
  split_ifs with h0
  · rw [value_zero, h0]
  · rfl

theorem isFinite_signed {q : ℚ} (s : Bool) (h : |nearest q| < bound) :
    (signed s q).isFinite = true := by
  unfold signed
  split_ifs
  · exact isFinite_zero _
  · exact isFinite_ofRat h

theorem value_signed {q : ℚ} (s : Bool) (h : |nearest q| < bound) :
    (signed s q).value = nearest q := by
  unfold signed
  split_ifs with h0
  · rw [value_zero, h0, nearest_zero]
  · exact value_ofRat h

/-- A double stands for itself. -/
theorem ofRat_eq_finite {q : ℚ} (h : IsDouble q) : ofRat q = finite q := by
  have hn := nearest_eq_self h
  rw [ofRat_eq (by rw [hn]; exact h.abs_lt_bound), hn]
  split_ifs with h0
  · subst h0; rfl
  · rfl

theorem ofRat_eq_infinity {q : ℚ} (h : bound ≤ q) : ofRat q = infinity false := by
  have hb : (0 : ℚ) < bound := by unfold bound; positivity
  have hn := bound_le_nearest h
  unfold ofRat
  dsimp only
  rw [if_neg (hb.trans_le hn).ne', if_pos hn]

theorem ofRat_eq_zero {q : ℚ} (h0 : 0 ≤ q) (h : q < 2 ^ (-1075 : ℤ)) : ofRat q = finite 0 := by
  unfold ofRat
  dsimp only
  rw [if_pos (nearest_eq_zero h0 h), decide_eq_false (not_lt.mpr h0)]
  rfl

theorem ofNat_eq_finite {n : ℕ} (h : n < 2 ^ 53) : (Scalar.ofNat n : Binary64) = finite n :=
  ofRat_eq_finite (isDouble_natCast h)

theorem abs_nearest_lt_bound {a b q : ℚ} (ha : IsDouble a) (hb : IsDouble b) (haq : a ≤ q)
    (hqb : q ≤ b) : |nearest q| < bound := by
  have h1 := le_nearest ha haq
  have h2 := nearest_le hb hqb
  exact abs_lt.mpr
    ⟨(abs_lt.mp ha.abs_lt_bound).1.trans_le h1, h2.trans_lt (abs_lt.mp hb.abs_lt_bound).2⟩

theorem within_signed {a b q : ℚ} (s : Bool) (ha : IsDouble a) (hb : IsDouble b) (haq : a ≤ q)
    (hqb : q ≤ b) : Within a b (signed s q) := by
  have hlt := abs_nearest_lt_bound ha hb haq hqb
  refine ⟨isFinite_signed s hlt, ?_, ?_, ?_⟩
  · rw [value_signed s hlt]; exact isDouble_nearest hlt
  · rw [value_signed s hlt]; exact le_nearest ha haq
  · rw [value_signed s hlt]; exact nearest_le hb hqb

theorem within_ofRat {a b q : ℚ} (ha : IsDouble a) (hb : IsDouble b) (haq : a ≤ q)
    (hqb : q ≤ b) : Within a b (ofRat q) := by
  have hlt := abs_nearest_lt_bound ha hb haq hqb
  refine ⟨isFinite_ofRat hlt, ?_, ?_, ?_⟩
  · rw [value_ofRat hlt]; exact isDouble_nearest hlt
  · rw [value_ofRat hlt]; exact le_nearest ha haq
  · rw [value_ofRat hlt]; exact nearest_le hb hqb

/-! ### The operations on finite doubles -/

theorem isNaN_of_isFinite {x : Binary64} (h : x.isFinite = true) : x.isNaN = false := by
  cases x <;> simp_all [isFinite, isNaN]

theorem isInfinite_of_isFinite {x : Binary64} (h : x.isFinite = true) : x.isInfinite = false := by
  cases x <;> simp_all [isFinite, isInfinite]

theorem isZero_iff {x : Binary64} (h : x.isFinite = true) : x.isZero = true ↔ x.value = 0 := by
  cases x <;> simp_all [isFinite, isZero, value]

theorem isFinite_neg {x : Binary64} (h : x.isFinite = true) : (-x).isFinite = true := by
  show (neg x).isFinite = true
  cases x <;> simp_all [isFinite, neg]
  split_ifs <;> rfl

theorem value_neg {x : Binary64} (h : x.isFinite = true) : (-x).value = -x.value := by
  show (neg x).value = -x.value
  cases x <;> simp_all [isFinite, neg, value]
  split_ifs with h0
  · rw [h0]; rfl
  · rfl

theorem exists_add_eq {x y : Binary64} (hx : x.isFinite = true) (hy : y.isFinite = true) :
    ∃ s, x + y = signed s (x.value + y.value) := by
  refine ⟨x.isNegative && y.isNegative, ?_⟩
  show add x y = _
  unfold add
  simp [isNaN_of_isFinite hx, isNaN_of_isFinite hy, isInfinite_of_isFinite hx,
    isInfinite_of_isFinite hy]

theorem exists_sub_eq {x y : Binary64} (hx : x.isFinite = true) (hy : y.isFinite = true) :
    ∃ s, x - y = signed s (x.value - y.value) := by
  obtain ⟨s, hs⟩ := exists_add_eq hx (isFinite_neg hy)
  exact ⟨s, by rw [sub_eq_add_neg, ← value_neg hy]; exact hs⟩

theorem exists_mul_eq {x y : Binary64} (hx : x.isFinite = true) (hy : y.isFinite = true) :
    ∃ s, x * y = signed s (x.value * y.value) := by
  refine ⟨x.isNegative != y.isNegative, ?_⟩
  show mul x y = _
  unfold mul
  simp [isNaN_of_isFinite hx, isNaN_of_isFinite hy, isInfinite_of_isFinite hx,
    isInfinite_of_isFinite hy]

theorem exists_div_eq {x y : Binary64} (hx : x.isFinite = true) (hy : y.isFinite = true)
    (h0 : y.value ≠ 0) : ∃ s, x / y = signed s (x.value / y.value) := by
  refine ⟨x.isNegative != y.isNegative, ?_⟩
  show div x y = _
  have hz : y.isZero = false := by rw [Bool.eq_false_iff, ne_eq, isZero_iff hy]; exact h0
  unfold div
  simp [isNaN_of_isFinite hx, isNaN_of_isFinite hy, isInfinite_of_isFinite hx,
    isInfinite_of_isFinite hy, hz]

theorem value_add {x y : Binary64} (hx : x.isFinite = true) (hy : y.isFinite = true)
    (h : |nearest (x.value + y.value)| < bound) : (x + y).value = nearest (x.value + y.value) := by
  obtain ⟨s, hs⟩ := exists_add_eq hx hy
  rw [hs, value_signed s h]

theorem value_sub {x y : Binary64} (hx : x.isFinite = true) (hy : y.isFinite = true)
    (h : |nearest (x.value - y.value)| < bound) : (x - y).value = nearest (x.value - y.value) := by
  obtain ⟨s, hs⟩ := exists_sub_eq hx hy
  rw [hs, value_signed s h]

/-! ### Bounds of results -/

section Bounds

variable {a b : ℚ} {x y : Binary64}

theorem within_add (hx : x.isFinite = true) (hy : y.isFinite = true) (ha : IsDouble a)
    (hb : IsDouble b) (hl : a ≤ x.value + y.value) (hu : x.value + y.value ≤ b) :
    Within a b (x + y) := by
  obtain ⟨s, hs⟩ := exists_add_eq hx hy
  rw [hs]
  exact within_signed s ha hb hl hu

theorem within_sub (hx : x.isFinite = true) (hy : y.isFinite = true) (ha : IsDouble a)
    (hb : IsDouble b) (hl : a ≤ x.value - y.value) (hu : x.value - y.value ≤ b) :
    Within a b (x - y) := by
  obtain ⟨s, hs⟩ := exists_sub_eq hx hy
  rw [hs]
  exact within_signed s ha hb hl hu

theorem within_mul (hx : x.isFinite = true) (hy : y.isFinite = true) (ha : IsDouble a)
    (hb : IsDouble b) (hl : a ≤ x.value * y.value) (hu : x.value * y.value ≤ b) :
    Within a b (x * y) := by
  obtain ⟨s, hs⟩ := exists_mul_eq hx hy
  rw [hs]
  exact within_signed s ha hb hl hu

theorem within_div (hx : x.isFinite = true) (hy : y.isFinite = true) (h0 : y.value ≠ 0)
    (ha : IsDouble a) (hb : IsDouble b) (hl : a ≤ x.value / y.value) (hu : x.value / y.value ≤ b) :
    Within a b (x / y) := by
  obtain ⟨s, hs⟩ := exists_div_eq hx hy h0
  rw [hs]
  exact within_signed s ha hb hl hu

end Bounds

/-! ### Numbers that may be infinite -/

theorem Within.isNumber {a b : ℚ} {x : Binary64} (h : Within a b x) : x.IsNumber :=
  ⟨isNaN_of_isFinite h.isFinite, h.isDouble⟩

theorem isNumber_infinity (s : Bool) : (infinity s).IsNumber := ⟨rfl, isDouble_zero⟩

theorem isNumber_zero (s : Bool) : (zero s).IsNumber := by
  cases s <;> exact ⟨rfl, isDouble_zero⟩

theorem isNumber_ofRat (q : ℚ) : (ofRat q).IsNumber := by
  by_cases h : |nearest q| < bound
  · refine ⟨isNaN_of_isFinite (isFinite_ofRat h), ?_⟩
    rw [value_ofRat h]
    exact isDouble_nearest h
  · have hb : (0 : ℚ) < bound := by unfold bound; positivity
    have hv : bound ≤ |nearest q| := not_lt.mp h
    unfold ofRat
    simp only
    rw [if_neg (by intro h0; rw [h0, abs_zero] at hv; linarith)]
    rcases le_abs.mp hv with hv | hv
    · rw [if_pos hv]; exact isNumber_infinity _
    · rw [if_neg (by linarith), if_pos (by linarith)]; exact isNumber_infinity _

theorem isNumber_signed (s : Bool) (q : ℚ) : (signed s q).IsNumber := by
  unfold signed
  split_ifs
  · exact isNumber_zero s
  · exact isNumber_ofRat q

theorem IsNumber.neg {x : Binary64} (h : x.IsNumber) : (-x).IsNumber := by
  cases x with
  | nan => exact absurd h.isNaN (by decide)
  | infinity s => exact isNumber_infinity _
  | negZero => exact isNumber_zero false
  | finite q =>
    refine ⟨isNaN_of_isFinite (isFinite_neg rfl), ?_⟩
    rw [value_neg rfl]
    exact h.isDouble.neg

/-- A number times a finite one other than zero is a number. -/
theorem IsNumber.mul {x y : Binary64} (hx : x.IsNumber) (hy : y.isFinite = true)
    (h0 : y.value ≠ 0) : (x * y).IsNumber := by
  show (Binary64.mul x y).IsNumber
  have hz : y.isZero = false := by rw [Bool.eq_false_iff, ne_eq, isZero_iff hy]; exact h0
  unfold Binary64.mul
  simp only [hx.isNaN, isNaN_of_isFinite hy, isInfinite_of_isFinite hy, hz]
  split_ifs with h1 h2 h3
  · simp at h1
  · cases x <;> simp_all [isInfinite, isZero]
  · exact isNumber_infinity _
  · exact isNumber_signed _ _

/-- What is not `nan`, divided by a finite double other than zero, is a number. -/
theorem isNumber_div {x y : Binary64} (hx : x.isNaN = false) (hy : y.isFinite = true)
    (h0 : y.value ≠ 0) : (x / y).IsNumber := by
  show (Binary64.div x y).IsNumber
  have hz : y.isZero = false := by rw [Bool.eq_false_iff, ne_eq, isZero_iff hy]; exact h0
  unfold Binary64.div
  simp only [hx, isNaN_of_isFinite hy, isInfinite_of_isFinite hy, hz]
  split_ifs <;> first | exact isNumber_infinity _ | exact isNumber_signed _ _ | simp_all

theorem IsNumber.finite_or_infinity {x : Binary64} (h : x.IsNumber) :
    x.isFinite = true ∨ ∃ s, x = infinity s := by
  cases x with
  | nan => exact absurd h.isNaN (by decide)
  | infinity s => exact Or.inr ⟨s, rfl⟩
  | negZero => exact Or.inl rfl
  | finite q => exact Or.inl rfl

theorem add_infinity {x : Binary64} (hx : x.isFinite = true) (s : Bool) :
    x + infinity s = infinity s := by
  cases x with
  | nan => cases hx
  | infinity s => cases hx
  | negZero => rfl
  | finite q => rfl

theorem mul_infinity {x : Binary64} (hx : x.isFinite = true) (s : Bool) :
    x * infinity s = if x.isZero then nan else infinity (x.isNegative != s) := by
  cases x with
  | nan => cases hx
  | infinity s => cases hx
  | negZero => rfl
  | finite q =>
    show (if (finite q).isZero || false then nan else infinity ((finite q).isNegative != s)) = _
    rw [Bool.or_false]

/-- A number added to a finite double is a number. -/
theorem IsNumber.add {x y : Binary64} (hy : y.IsNumber) (hx : x.isFinite = true) :
    (x + y).IsNumber := by
  rcases hy.finite_or_infinity with hf | ⟨s, rfl⟩
  · obtain ⟨s, hs⟩ := exists_add_eq hx hf
    rw [hs]
    exact isNumber_signed _ _
  · rw [add_infinity hx]
    exact isNumber_infinity s

theorem IsNumber.sub {x y : Binary64} (hy : y.IsNumber) (hx : x.isFinite = true) :
    (x - y).IsNumber :=
  hy.neg.add hx

/-- A finite double times a number is a number, but for zero times an infinity. -/
theorem IsNumber.mul_cases {x y : Binary64} (hy : y.IsNumber) (hx : x.isFinite = true) :
    (x.isZero = true ∧ y.isInfinite = true ∧ x * y = nan) ∨
      (¬(x.isZero = true ∧ y.isInfinite = true) ∧ (x * y).IsNumber) := by
  rcases hy.finite_or_infinity with hf | ⟨s, rfl⟩
  · obtain ⟨s, hs⟩ := exists_mul_eq hx hf
    refine Or.inr ⟨fun h => ?_, hs ▸ isNumber_signed _ _⟩
    rw [isInfinite_of_isFinite hf] at h
    exact absurd h.2 (by decide)
  · rw [mul_infinity hx]
    by_cases hz : x.isZero = true
    · exact Or.inl ⟨hz, rfl, if_pos hz⟩
    · refine Or.inr ⟨fun h => hz h.1, ?_⟩
      rw [if_neg hz]
      exact isNumber_infinity _

theorem nan_add (x : Binary64) : nan + x = nan := rfl

/-! ### Comparisons -/

theorem place_eq_value {x : Binary64} (h : x.isFinite = true) : x.place = x.value := by
  cases x <;> simp_all [isFinite, place]

theorem lt_iff {x y : Binary64} (hx : x.isFinite = true) (hy : y.isFinite = true) :
    x < y ↔ x.value < y.value := by
  show ((x.isNaN || y.isNaN) = false ∧ x.place < y.place) ↔ _
  simp [isNaN_of_isFinite hx, isNaN_of_isFinite hy, place_eq_value hx, place_eq_value hy]

theorem le_iff {x y : Binary64} (hx : x.isFinite = true) (hy : y.isFinite = true) :
    x ≤ y ↔ x.value ≤ y.value := by
  show ((x.isNaN || y.isNaN) = false ∧ x.place ≤ y.place) ↔ _
  simp [isNaN_of_isFinite hx, isNaN_of_isFinite hy, place_eq_value hx, place_eq_value hy]

end CssColor.Number.Binary64
