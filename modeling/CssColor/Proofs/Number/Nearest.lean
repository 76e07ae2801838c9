import CssColor.Number.Binary64
import CssColor.Proofs.Number.Rounding
import Mathlib.Algebra.Order.Field.Power
import Mathlib.Data.Int.Log
import Mathlib.Tactic.Positivity
import Mathlib.Tactic.NormNum
import Mathlib.Tactic.FieldSimp

/-! # Rounding to double precision

`IsDouble q` says that the rational `q` is a finite double: at most 53 significant bits in the range
of exponents. The rounding `nearest` fixes the doubles (`nearest_eq_self`), is odd (`nearest_neg`)
and monotone (`nearest_mono`), and errs by at most half a unit in the last place
(`abs_nearest_sub_le`). With the first and the third, a bound that is a double survives rounding. -/

namespace CssColor.Number.Binary64

/-- The rationals the format holds: a whole multiple below `2 ^ 53` of a power of two. -/
def IsDouble (q : ℚ) : Prop :=
  ∃ m e : ℤ, |m| < 2 ^ 53 ∧ -1074 ≤ e ∧ e ≤ 971 ∧ q = m * 2 ^ e

theorem IsDouble.neg {q : ℚ} (h : IsDouble q) : IsDouble (-q) := by
  obtain ⟨m, e, hm, he, he', rfl⟩ := h
  exact ⟨-m, e, by rwa [abs_neg], he, he', by push_cast; ring⟩

theorem isDouble_intCast {n : ℤ} (h : |n| < 2 ^ 53) : IsDouble n :=
  ⟨n, 0, h, by norm_num, by norm_num, by norm_num⟩

theorem isDouble_natCast {n : ℕ} (h : n < 2 ^ 53) : IsDouble n := by
  have habs : |(n : ℤ)| < 2 ^ 53 := by
    rw [abs_of_nonneg (by omega)]
    exact_mod_cast h
  exact_mod_cast isDouble_intCast habs

theorem isDouble_zero : IsDouble 0 := by exact_mod_cast isDouble_natCast (n := 0) (by norm_num)

theorem isDouble_one : IsDouble 1 := by exact_mod_cast isDouble_natCast (n := 1) (by norm_num)

theorem isDouble_two : IsDouble 2 := by exact_mod_cast isDouble_natCast (n := 2) (by norm_num)

theorem IsDouble.abs_lt_bound {q : ℚ} (h : IsDouble q) : |q| < bound := by
  obtain ⟨m, e, hm, -, he, rfl⟩ := h
  have h2 : (0 : ℚ) < 2 ^ e := by positivity
  rw [abs_mul, abs_of_pos h2]
  calc |(m : ℚ)| * 2 ^ e < 2 ^ 53 * 2 ^ e := by
        refine mul_lt_mul_of_pos_right ?_ h2
        exact_mod_cast hm
    _ ≤ 2 ^ 53 * 2 ^ (971 : ℤ) := by
        refine mul_le_mul_of_nonneg_left ?_ (by positivity)
        exact zpow_le_zpow_right₀ (by norm_num) he
    _ = bound := by
        rw [← zpow_natCast, ← zpow_add₀ (by norm_num)]
        exact zpow_natCast 2 1024

/-! ### The binade of a number -/

theorem two_zpow_sub (a b : ℕ) : (2 : ℚ) ^ ((a : ℤ) - b) = 2 ^ a / 2 ^ b := by
  rw [zpow_sub₀ (by norm_num), zpow_natCast, zpow_natCast]

theorem log2_bounds {n : ℕ} (h : n ≠ 0) :
    (2 : ℚ) ^ n.log2 ≤ n ∧ (n : ℚ) < 2 ^ (n.log2 + 1) := by
  constructor
  · exact_mod_cast Nat.log2_self_le h
  · exact_mod_cast Nat.lt_log2_self

theorem binade_spec {q : ℚ} (h : 0 < q) :
    (2 : ℚ) ^ binade q ≤ q ∧ q < 2 ^ (binade q + 1) := by
  have hnum : 0 < q.num := Rat.num_pos.mpr h
  obtain ⟨hn1, hn2⟩ := log2_bounds (n := q.num.natAbs) (by omega)
  obtain ⟨hd1, hd2⟩ := log2_bounds (n := q.den) q.den_nz
  have hd0 : (0 : ℚ) < q.den := by exact_mod_cast q.den_pos
  have hq : q = q.num.natAbs / q.den := by
    rw [Nat.cast_natAbs, abs_of_pos hnum]; exact (Rat.num_div_den q).symm
  unfold binade
  generalize q.num.natAbs.log2 = a at hn1 hn2 ⊢
  generalize q.den.log2 = b at hd1 hd2 ⊢
  have hlow : (2 : ℚ) ^ ((a : ℤ) - b - 1) ≤ q := by
    rw [show (a : ℤ) - b - 1 = a - (b + 1 : ℕ) by push_cast; ring, two_zpow_sub, hq]
    exact div_le_div₀ (by positivity) hn1 hd0 hd2.le
  have hhigh : q < (2 : ℚ) ^ ((a : ℤ) - b + 1) := by
    rw [show (a : ℤ) - b + 1 = (a + 1 : ℕ) - b by push_cast; ring, two_zpow_sub, hq]
    exact div_lt_div₀ hn2 hd1 (by positivity) (by positivity)
  dsimp only
  split_ifs with hle
  · exact ⟨hle, hhigh⟩
  · exact ⟨hlow, by rw [sub_add_cancel]; exact not_le.mp hle⟩

theorem binade_mono {p q : ℚ} (hp : 0 < p) (h : p ≤ q) : binade p ≤ binade q := by
  have h1 := (binade_spec hp).1
  have h2 := (binade_spec (lt_of_lt_of_le hp h)).2
  have h3 : (2 : ℚ) ^ binade p < 2 ^ (binade q + 1) := lt_of_le_of_lt (h1.trans h) h2
  have h4 := (zpow_lt_zpow_iff_right₀ (by norm_num)).mp h3
  omega

/-! ### The spacing of the doubles -/

/-- The exponent of the spacing about a number. -/
def grain (q : ℚ) : ℤ := max (binade |q| - 52) (-1074)

theorem ratAbs_eq (q : ℚ) : q.abs = |q| := by
  rcases le_total 0 q with h | h
  · rw [Rat.abs_of_nonneg h, abs_of_nonneg h]
  · rw [Rat.abs_of_nonpos h, abs_of_nonpos h]

theorem spacing_eq (q : ℚ) : spacing q = 2 ^ grain q := by
  unfold spacing grain
  rw [ratAbs_eq]

theorem grain_neg (q : ℚ) : grain (-q) = grain q := by unfold grain; rw [abs_neg]

theorem grain_mono {p q : ℚ} (hp : 0 < p) (h : p ≤ q) : grain p ≤ grain q := by
  have hb := binade_mono hp h
  unfold grain
  rw [abs_of_pos hp, abs_of_pos (lt_of_lt_of_le hp h)]
  omega

theorem spacing_le (q : ℚ) (hq : q ≠ 0) : spacing q ≤ max (|q| / 2 ^ 52) (2 ^ (-1074 : ℤ)) := by
  have hb := (binade_spec (abs_pos.mpr hq)).1
  rw [spacing_eq]
  unfold grain
  rcases le_total (binade |q| - 52) (-1074) with h | h
  · rw [max_eq_right h]; exact le_max_right _ _
  · rw [max_eq_left h]
    refine le_trans ?_ (le_max_left _ _)
    rw [zpow_sub₀ (by norm_num), show ((2 : ℚ) ^ (52 : ℤ)) = 2 ^ 52 from zpow_natCast 2 52]
    exact div_le_div_of_nonneg_right hb (by norm_num)

/-! ### The rounding -/

theorem nearest_zero : nearest 0 = 0 := by simp [nearest]

theorem nearest_eq {q : ℚ} (hq : q ≠ 0) :
    nearest q = roundHalfEven (q / 2 ^ grain q) * 2 ^ grain q := by
  unfold nearest
  rw [if_neg hq, spacing_eq]

theorem nearest_neg (q : ℚ) : nearest (-q) = -nearest q := by
  by_cases hq : q = 0
  · subst hq; simp [nearest_zero]
  · rw [nearest_eq hq, nearest_eq (neg_ne_zero.mpr hq), grain_neg, neg_div, roundHalfEven_neg]
    push_cast; ring

/-- A multiple of the spacing is not moved. -/
theorem nearest_of_multiple {q : ℚ} {n : ℤ} (h : q = n * 2 ^ grain q) : nearest q = q := by
  by_cases hq : q = 0
  · rw [hq, nearest_zero]
  · have h2 : (2 : ℚ) ^ grain q ≠ 0 := by positivity
    have hn : q / 2 ^ grain q = n := by rw [div_eq_iff h2]; exact h
    rw [nearest_eq hq, hn, roundHalfEven_intCast]
    exact h.symm

/-- A multiple of a power of two that is no finer than the spacing is a multiple of the spacing. -/
theorem exists_multiple {q : ℚ} {k e m : ℤ} (h : k ≤ e) (hq : q = m * 2 ^ e) :
    ∃ n : ℤ, q = n * 2 ^ k := by
  refine ⟨m * 2 ^ (e - k).toNat, ?_⟩
  rw [hq]
  push_cast
  rw [← zpow_natCast, Int.toNat_of_nonneg (by omega), mul_assoc, ← zpow_add₀ (by norm_num)]
  congr 2
  omega

theorem IsDouble.grain_le {q : ℚ} {m e : ℤ} (hq : q ≠ 0) (hm : |m| < 2 ^ 53) (he : -1074 ≤ e)
    (h : q = m * 2 ^ e) : grain q ≤ e := by
  have hb := (binade_spec (abs_pos.mpr hq)).1
  have h2 : (0 : ℚ) < 2 ^ e := by positivity
  have hlt : (2 : ℚ) ^ binade |q| < 2 ^ (53 + e) := by
    refine lt_of_le_of_lt hb ?_
    rw [h, abs_mul, abs_of_pos h2, zpow_add₀ (by norm_num)]
    refine mul_lt_mul_of_pos_right ?_ h2
    exact_mod_cast hm
  have := (zpow_lt_zpow_iff_right₀ (by norm_num)).mp hlt
  unfold grain
  omega

/-- **Rounding fixes the doubles.** -/
theorem nearest_eq_self {q : ℚ} (h : IsDouble q) : nearest q = q := by
  by_cases hq : q = 0
  · rw [hq, nearest_zero]
  · obtain ⟨m, e, hm, he, -, heq⟩ := h
    obtain ⟨n, hn⟩ := exists_multiple (IsDouble.grain_le hq hm he heq) heq
    exact nearest_of_multiple hn

theorem nearest_nonneg {q : ℚ} (h : 0 ≤ q) : 0 ≤ nearest q := by
  rcases eq_or_lt_of_le h with rfl | hq
  · rw [nearest_zero]
  · rw [nearest_eq hq.ne']
    have h2 : (0 : ℚ) < 2 ^ grain q := by positivity
    have h0 : roundHalfEven 0 ≤ roundHalfEven (q / 2 ^ grain q) :=
      roundHalfEven_mono (by positivity)
    rw [show roundHalfEven 0 = 0 from roundHalfEven_intCast 0] at h0
    have : (0 : ℚ) ≤ roundHalfEven (q / 2 ^ grain q) := by exact_mod_cast h0
    positivity

theorem round_le_multiple {q t : ℚ} {k n : ℤ} (ht : t = n * 2 ^ k) (h : q ≤ t) :
    (roundHalfEven (q / 2 ^ k) : ℚ) * 2 ^ k ≤ t := by
  have hk : (0 : ℚ) < 2 ^ k := by positivity
  have hr : roundHalfEven (q / 2 ^ k) ≤ roundHalfEven n :=
    roundHalfEven_mono ((div_le_iff₀ hk).mpr (by rwa [← ht]))
  rw [roundHalfEven_intCast] at hr
  rw [ht]
  exact mul_le_mul_of_nonneg_right (by exact_mod_cast hr) hk.le

theorem multiple_le_round {q t : ℚ} {k n : ℤ} (ht : t = n * 2 ^ k) (h : t ≤ q) :
    t ≤ (roundHalfEven (q / 2 ^ k) : ℚ) * 2 ^ k := by
  have hk : (0 : ℚ) < 2 ^ k := by positivity
  have hr : roundHalfEven n ≤ roundHalfEven (q / 2 ^ k) :=
    roundHalfEven_mono ((le_div_iff₀ hk).mpr (by rwa [← ht]))
  rw [roundHalfEven_intCast] at hr
  rw [ht]
  exact mul_le_mul_of_nonneg_right (by exact_mod_cast hr) hk.le

theorem nearest_mono_of_pos {p q : ℚ} (hp : 0 < p) (h : p ≤ q) : nearest p ≤ nearest q := by
  have hq := lt_of_lt_of_le hp h
  have hgp : (0 : ℚ) < 2 ^ grain p := by positivity
  rw [nearest_eq hp.ne', nearest_eq hq.ne']
  rcases eq_or_lt_of_le (grain_mono hp h) with hg | hg
  · rw [← hg]
    refine mul_le_mul_of_nonneg_right ?_ hgp.le
    exact_mod_cast roundHalfEven_mono (div_le_div_of_nonneg_right h hgp.le)
  · -- the power of two below `q` lies above `p` and is a multiple of both spacings
    have hb : binade p + 1 ≤ binade q ∧ grain p ≤ binade q ∧ grain q ≤ binade q := by
      unfold grain at hg ⊢
      rw [abs_of_pos hp, abs_of_pos hq] at *
      omega
    have hpt : p ≤ 2 ^ binade q :=
      (binade_spec hp).2.le.trans (zpow_le_zpow_right₀ (by norm_num) hb.1)
    have hone : (2 : ℚ) ^ binade q = (1 : ℤ) * 2 ^ binade q := by norm_num
    obtain ⟨m, hm⟩ := exists_multiple hb.2.1 hone
    obtain ⟨n, hn⟩ := exists_multiple hb.2.2 hone
    exact (round_le_multiple hm hpt).trans (multiple_le_round hn (binade_spec hq).1)

/-- **Rounding is monotone.** -/
theorem nearest_mono {p q : ℚ} (h : p ≤ q) : nearest p ≤ nearest q := by
  rcases lt_or_ge 0 p with hp | hp
  · exact nearest_mono_of_pos hp h
  · rcases lt_or_ge q 0 with hq | hq
    · have := nearest_mono_of_pos (neg_pos.mpr hq) (neg_le_neg h)
      rw [nearest_neg, nearest_neg] at this
      exact neg_le_neg_iff.mp this
    · have hp' := nearest_nonneg (neg_nonneg.mpr hp)
      rw [nearest_neg] at hp'
      exact (neg_nonneg.mp hp').trans (nearest_nonneg hq)

theorem nearest_le {q b : ℚ} (hb : IsDouble b) (h : q ≤ b) : nearest q ≤ b := by
  rw [← nearest_eq_self hb]; exact nearest_mono h

theorem le_nearest {q b : ℚ} (hb : IsDouble b) (h : b ≤ q) : b ≤ nearest q := by
  rw [← nearest_eq_self hb]; exact nearest_mono h

theorem bound_le_nearest {q : ℚ} (h : bound ≤ q) : bound ≤ nearest q := by
  have hb : (0 : ℚ) < bound := by unfold bound; positivity
  have heq : bound = (1 : ℤ) * (2 : ℚ) ^ (1024 : ℤ) := by
    rw [Int.cast_one, one_mul]
    exact (zpow_natCast 2 1024).symm
  have hle : (2 : ℚ) ^ binade bound ≤ 2 ^ (1024 : ℤ) := by
    have hspec := (binade_spec hb).1
    rwa [heq, Int.cast_one, one_mul] at hspec
  have hbinade := (zpow_le_zpow_iff_right₀ (by norm_num)).mp hle
  have hgrain : grain bound ≤ 1024 := by
    unfold grain
    rw [abs_of_pos hb]
    omega
  obtain ⟨n, hn⟩ := exists_multiple hgrain heq
  have hmono := nearest_mono h
  rwa [nearest_of_multiple hn] at hmono

/-- Below half the least positive double, nothing is left. -/
theorem nearest_eq_zero {q : ℚ} (h0 : 0 ≤ q) (h : q < 2 ^ (-1075 : ℤ)) : nearest q = 0 := by
  rcases eq_or_lt_of_le h0 with rfl | hq
  · exact nearest_zero
  · have hbinade : binade q < -1075 :=
      (zpow_lt_zpow_iff_right₀ (by norm_num)).mp ((binade_spec hq).1.trans_lt h)
    have hgrain : grain q = -1074 := by
      unfold grain
      rw [abs_of_pos hq]
      omega
    have hhalf : q / 2 ^ (-1074 : ℤ) < 1 / 2 := by
      rw [div_lt_iff₀ (by positivity)]
      calc q < 2 ^ (-1075 : ℤ) := h
        _ = 1 / 2 * 2 ^ (-1074 : ℤ) := by
          rw [show (-1075 : ℤ) = -1074 - 1 by norm_num, zpow_sub_one₀ (by norm_num)]
          ring
    have hfloor : ⌊q / 2 ^ (-1074 : ℤ)⌋ = 0 :=
      Int.floor_eq_zero_iff.mpr ⟨by positivity, hhalf.trans (by norm_num)⟩
    have hround : roundHalfEven (q / 2 ^ (-1074 : ℤ)) = 0 := by
      unfold roundHalfEven
      have hf : (q / 2 ^ (-1074 : ℤ)).floor = 0 := hfloor
      simp only [hf, Int.cast_zero, sub_zero, if_pos hhalf]
    rw [nearest_eq hq.ne', hgrain, hround]
    norm_num

/-- The multiple of the spacing that is rounded to has at most 53 bits, or is a power of two. -/
theorem abs_round_le (q : ℚ) : |roundHalfEven (q / 2 ^ grain q)| ≤ 2 ^ 53 := by
  by_cases hq : q = 0
  · subst hq
    rw [zero_div, show roundHalfEven 0 = 0 from roundHalfEven_intCast 0]
    norm_num
  · have hk : (0 : ℚ) < 2 ^ grain q := by positivity
    have hlt : |q| ≤ 2 ^ 53 * 2 ^ grain q := by
      refine (binade_spec (abs_pos.mpr hq)).2.le.trans ?_
      rw [← zpow_natCast, ← zpow_add₀ (by norm_num)]
      refine zpow_le_zpow_right₀ (by norm_num) ?_
      unfold grain
      push_cast
      omega
    obtain ⟨h1, h2⟩ := abs_le.mp hlt
    have hhigh : roundHalfEven (q / 2 ^ grain q) ≤ roundHalfEven ((2 ^ 53 : ℤ) : ℚ) :=
      roundHalfEven_mono ((div_le_iff₀ hk).mpr (by push_cast; exact h2))
    have hlow : roundHalfEven ((-2 ^ 53 : ℤ) : ℚ) ≤ roundHalfEven (q / 2 ^ grain q) :=
      roundHalfEven_mono ((le_div_iff₀ hk).mpr (by push_cast; linarith))
    rw [roundHalfEven_intCast] at hhigh hlow
    exact abs_le.mpr ⟨hlow, hhigh⟩

/-- A spacing above the finest means at least 52 bits. -/
theorem le_abs_round {q : ℚ} (hq : q ≠ 0) (hg : -1074 < grain q) :
    2 ^ 52 ≤ |roundHalfEven (q / 2 ^ grain q)| := by
  have hk : (0 : ℚ) < 2 ^ grain q := by positivity
  have hle : (2 : ℚ) ^ 52 * 2 ^ grain q ≤ |q| := by
    refine le_trans ?_ (binade_spec (abs_pos.mpr hq)).1
    rw [← zpow_natCast, ← zpow_add₀ (by norm_num)]
    refine zpow_le_zpow_right₀ (by norm_num) ?_
    unfold grain at hg ⊢
    push_cast
    omega
  rcases le_total 0 q with h0 | h0
  · rw [abs_of_nonneg h0] at hle
    have := roundHalfEven_mono (p := ((2 ^ 52 : ℤ) : ℚ))
      ((le_div_iff₀ hk).mpr (by push_cast; exact hle))
    rw [roundHalfEven_intCast] at this
    exact this.trans (le_abs_self _)
  · rw [abs_of_nonpos h0] at hle
    have := roundHalfEven_mono (q := ((-2 ^ 52 : ℤ) : ℚ))
      ((div_le_iff₀ hk).mpr (by push_cast; linarith))
    rw [roundHalfEven_intCast] at this
    rw [← abs_neg]
    exact (le_neg_of_le_neg this).trans (le_abs_self _)

/-- **Rounding leads to doubles,** in the range of the format. -/
theorem isDouble_nearest {q : ℚ} (h : |nearest q| < bound) : IsDouble (nearest q) := by
  by_cases hq : q = 0
  · rw [hq, nearest_zero]; exact isDouble_zero
  have hk : (0 : ℚ) < 2 ^ grain q := by positivity
  have hgr : -1074 ≤ grain q := le_max_right _ _
  have htop : ∀ n : ℕ, 2 ^ n ≤ |roundHalfEven (q / 2 ^ grain q)| → n + grain q < 1024 := by
    intro n hn
    refine (zpow_lt_zpow_iff_right₀ (a := (2 : ℚ)) (by norm_num)).mp ?_
    calc (2 : ℚ) ^ (n + grain q) = 2 ^ n * 2 ^ grain q := by
          rw [zpow_add₀ (by norm_num), zpow_natCast]
      _ ≤ |(roundHalfEven (q / 2 ^ grain q) : ℚ)| * 2 ^ grain q := by
          refine mul_le_mul_of_nonneg_right ?_ hk.le
          exact_mod_cast hn
      _ = |nearest q| := by rw [nearest_eq hq, abs_mul, abs_of_pos hk]
      _ < 2 ^ (1024 : ℤ) := by
          rw [show (2 : ℚ) ^ (1024 : ℤ) = bound from zpow_natCast 2 1024]; exact h
  rw [nearest_eq hq]
  rcases eq_or_lt_of_le (abs_round_le q) with hmax | hlt
  · -- a carry into the 54th bit: half the multiple of twice the spacing
    have hle := htop 53 hmax.ge
    obtain ⟨n, hn⟩ : ∃ n, roundHalfEven (q / 2 ^ grain q) = 2 * n := by
      rcases abs_cases (roundHalfEven (q / 2 ^ grain q)) with ⟨hc, -⟩ | ⟨hc, -⟩ <;>
        exact ⟨roundHalfEven (q / 2 ^ grain q) / 2, by omega⟩
    rw [hn, abs_mul] at hmax
    refine ⟨n, grain q + 1, ?_, by omega, by omega, ?_⟩
    · norm_num at hmax; omega
    · rw [hn, zpow_add₀ (by norm_num)]; push_cast; ring
  · refine ⟨_, grain q, hlt, hgr, ?_, rfl⟩
    rcases eq_or_lt_of_le hgr with he | he
    · omega
    · have := htop 52 (le_abs_round hq he)
      omega

theorem isDouble_least : IsDouble (2 ^ (-1074 : ℤ)) :=
  ⟨1, -1074, by norm_num, le_rfl, by norm_num, by norm_num⟩

/-- The difference of two doubles does not vanish in rounding: it is a multiple of the least one. -/
theorem nearest_sub_pos {p q : ℚ} (hp : IsDouble p) (hq : IsDouble q) (h : p < q) :
    0 < nearest (q - p) := by
  obtain ⟨m, e, -, he, -, hm⟩ := hp
  obtain ⟨n, f, -, hf, -, hn⟩ := hq
  obtain ⟨a, ha⟩ := exists_multiple he hm
  obtain ⟨b, hb⟩ := exists_multiple hf hn
  have hk : (0 : ℚ) < 2 ^ (-1074 : ℤ) := by positivity
  have hab : a + 1 ≤ b := by
    have : (a : ℚ) < b := lt_of_mul_lt_mul_right (by rwa [← ha, ← hb]) hk.le
    exact_mod_cast this
  have hle : (2 : ℚ) ^ (-1074 : ℤ) ≤ q - p := by
    have hab' : (a : ℚ) + 1 ≤ b := by exact_mod_cast hab
    rw [ha, hb, ← sub_mul]
    nlinarith
  exact hk.trans_le (le_nearest isDouble_least hle)

/-- **The error of rounding** is at most half a unit in the last place. -/
theorem abs_nearest_sub_le (q : ℚ) :
    |nearest q - q| ≤ max (|q| / 2 ^ 53) (2 ^ (-1075 : ℤ)) := by
  by_cases hq : q = 0
  · subst hq; simp [nearest_zero]
  · have hk : (0 : ℚ) < 2 ^ grain q := by positivity
    have he := abs_roundHalfEven_sub_le (q / 2 ^ grain q)
    have hs := spacing_le q hq
    rw [spacing_eq] at hs
    have hdiff : nearest q - q
        = (roundHalfEven (q / 2 ^ grain q) - q / 2 ^ grain q) * 2 ^ grain q := by
      rw [nearest_eq hq, sub_mul, div_mul_cancel₀ _ hk.ne']
    rw [hdiff, abs_mul, abs_of_pos hk]
    calc _ ≤ 1 / 2 * (2 : ℚ) ^ grain q := mul_le_mul_of_nonneg_right he hk.le
      _ ≤ 1 / 2 * max (|q| / 2 ^ 52) (2 ^ (-1074 : ℤ)) :=
          mul_le_mul_of_nonneg_left hs (by norm_num)
      _ = max (|q| / 2 ^ 53) (2 ^ (-1075 : ℤ)) := by
          rw [mul_max_of_nonneg _ _ (by norm_num : (0 : ℚ) ≤ 1 / 2)]
          congr 1
          · ring
          · rw [show (-1074 : ℤ) = -1075 + 1 by norm_num, zpow_add₀ (by norm_num)]; ring

theorem abs_nearest_sub_le_of_le {q b : ℚ} (h : |q| ≤ b) (hb : 1 ≤ b) :
    |nearest q - q| ≤ b / 2 ^ 53 := by
  have hleast : (2 : ℚ) ^ (-1075 : ℤ) ≤ 1 / 2 ^ 53 := by
    rw [one_div, ← zpow_natCast, ← zpow_neg]
    exact (zpow_le_zpow_iff_right₀ (by norm_num)).mpr (by norm_num)
  refine (abs_nearest_sub_le q).trans (max_le ?_ (hleast.trans ?_))
  · exact (div_le_div_iff_of_pos_right (by norm_num)).mpr h
  · exact (div_le_div_iff_of_pos_right (by norm_num)).mpr hb

end CssColor.Number.Binary64
