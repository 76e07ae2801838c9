import CssColor.Text.Alphanumeric
import CssColor.Text.Space
import Mathlib.Data.List.TakeWhile

/-! # Sets of characters

No code between two others is in a set that has no bound between them and misses their ends
(`contains_eq_false`); every character of a set lies in a stretch between two bounds
(`exists_stretch`). By the two of them, a question about all the characters of two sets is one about
the bounds. -/

namespace CssColor.Text

namespace CharSet

/-! ### Stretches without a character of a set -/

/-- The number of bounds up to a code. -/
def rank (s : CharSet) (n : ℕ) : ℕ := (s.bounds.takeWhile (· ≤ n)).length

theorem rank_mono (s : CharSet) {m n : ℕ} (h : m ≤ n) : s.rank m ≤ s.rank n := by
  have heq : (s.bounds.takeWhile (· ≤ n)).takeWhile (· ≤ m) = s.bounds.takeWhile (· ≤ m) := by
    rw [List.takeWhile_takeWhile]
    congr 1
    funext b
    simp only [decide_eq_true_eq, decide_eq_decide]
    omega
  unfold rank
  rw [← heq]
  exact (List.takeWhile_sublist _).length_le

/-- No code from one to another is in a set: there is no bound between, and they are outside. -/
def misses (s : CharSet) (first last : ℕ) : Bool :=
  s.rank first = s.rank last && s.rank last % 2 = 0

theorem contains_eq_false {s : CharSet} {first last : ℕ} (h : s.misses first last = true) {c : Char}
    (hf : first ≤ c.toNat) (hl : c.toNat ≤ last) : s.contains c = false := by
  simp only [misses, Bool.and_eq_true, decide_eq_true_eq] at h
  have h1 := s.rank_mono hf
  have h2 := s.rank_mono hl
  have hc : s.contains c = decide (s.rank c.toNat % 2 = 1) := rfl
  rw [hc, decide_eq_false_iff_not]
  omega

/-! ### Stretches of characters of a set -/

/-- The stretches of codes between bounds, each with the first code behind it. -/
def stretches : List ℕ → List (ℕ × ℕ)
  | first :: behind :: more => (first, behind) :: stretches more
  | _ => []

/-- A character of a set lies in one of its stretches. -/
theorem exists_stretch {s : CharSet} (heven : s.bounds.length % 2 = 0) {c : Char}
    (h : s.contains c = true) : ∃ r ∈ stretches s.bounds, r.1 ≤ c.toNat ∧ c.toNat < r.2 := by
  obtain ⟨bounds⟩ := s
  replace h : (bounds.takeWhile (· ≤ c.toNat)).length % 2 = 1 := of_decide_eq_true h
  dsimp only at heven ⊢
  fun_induction stretches bounds with
  | case1 first behind more ih =>
    by_cases hf : first ≤ c.toNat
    · by_cases hb : behind ≤ c.toNat
      · simp only [List.takeWhile_cons, hf, hb, decide_true, if_true, List.length_cons] at h heven
        obtain ⟨r, hr, hc⟩ := ih (by omega) (by omega)
        exact ⟨r, List.mem_cons_of_mem _ hr, hc⟩
      · exact ⟨(first, behind), List.mem_cons_self, hf, Nat.lt_of_not_le hb⟩
    · simp [hf] at h
  | case2 bounds hne =>
    match bounds with
    | [] => simp at h
    | [_] => simp at heven
    | first :: behind :: more => exact absurd rfl (hne first behind more)

end CharSet

theorem isAlphanumeric_of_isSpace {c : Char} (h : isSpace c = true) : isAlphanumeric c = false := by
  have hmiss : ∀ r ∈ CharSet.stretches whiteSpace.bounds,
      alphanumeric.misses r.1 (r.2 - 1) = true := by decide +kernel
  obtain ⟨r, hr, hf, hl⟩ := CharSet.exists_stretch (by decide) h
  exact CharSet.contains_eq_false (hmiss r hr) hf (by omega)

end CssColor.Text
