import CssColor.Proofs.Text.CharSet
import CssColor.Proofs.Text.Parts
import Mathlib.Data.List.Forall2

/-! # Lower case, one character at a time

Without a capital sigma, the lower case of a text is that of its characters one by one
(`lowerAfter_eq_flatMap`). A text whose lower case is ordinary, of ASCII and white space only, has
no sigma, and each of its characters either keeps or becomes a small letter of ASCII
(`Settled`, `settled_of_lower`): the one capital from outside ASCII that does is the Kelvin sign. So
such a text may have any of its characters in lower case already (`Lowering`); neither its lower
case nor the white space around it changes. -/

namespace CssColor.Text

/-! ### Single characters -/

/-- No capital is white space, and no small letter of a capital outside ASCII is, or is in ASCII,
but for the Kelvin sign. -/
theorem capitalRuns_spec : ∀ r ∈ capitalRuns, whiteSpace.misses r.first r.last = true ∧
    (r.first = 0x212a ∧ r.last = 0x212a ∧ r.shift = -8383 ∨ 128 ≤ r.first + r.shift ∧
      whiteSpace.misses (r.first + r.shift).toNat (r.last + r.shift).toNat = true ∧
      (r.last + r.shift < 0xd800 ∨ 0xdfff < r.first + r.shift ∧ r.last + r.shift < 0x110000)) := by
  decide +kernel

/-- A character of ASCII, or white space. -/
def isOrdinary (c : Char) : Bool := isSpace c || c.toNat < 128

theorem exists_run_of_smallLetter_ne {c : Char} (h : smallLetter c ≠ c) :
    ∃ r ∈ capitalRuns, r.first ≤ c.toNat ∧ c.toNat ≤ r.last ∧
      smallLetter c = Char.ofNat (c.toNat + r.shift).toNat := by
  unfold smallLetter at h ⊢
  split at h
  · next r hr =>
    have hc := List.find?_some hr
    simp only [CapitalRun.covers, Bool.and_eq_true, decide_eq_true_eq] at hc
    exact ⟨r, List.mem_of_find?_eq_some hr, hc.1.1, hc.1.2, rfl⟩
  · exact absurd rfl h

theorem lowerChar_of_isSpace {c : Char} (h : isSpace c = true) : lowerChar c = [c] := by
  unfold lowerChar
  split_ifs with ha hi
  · have hlow : c.toLower = c := forall_ascii (P := fun c => isSpace c = true → c.toLower = c)
      (by decide) ha h
    rw [hlow]
  · rw [hi] at h
    exact absurd h (by decide)
  · by_contra hne
    obtain ⟨r, hr, hf, hl, -⟩ := exists_run_of_smallLetter_ne fun heq => hne (by rw [heq])
    have hno := CharSet.contains_eq_false (capitalRuns_spec r hr).1 hf hl
    rw [isSpace, hno] at h
    cases h

theorem smallLetter_ordinary {c : Char} (h : isOrdinary (smallLetter c) = true) :
    smallLetter c = c ∨ smallLetter c = 'k' := by
  by_cases hne : smallLetter c = c
  · exact Or.inl hne
  · obtain ⟨r, hr, hf, hl, heq⟩ := exists_run_of_smallLetter_ne hne
    rcases (capitalRuns_spec r hr).2 with ⟨hfirst, hlast, hshift⟩ | ⟨hascii, hspace, hvalid⟩
    · have hc : c.toNat = 0x212a := by omega
      refine Or.inr ?_
      rw [heq, hc, hshift]
      decide
    · have hn : (smallLetter c).toNat = (c.toNat + r.shift).toNat := by
        have hv : (c.toNat + r.shift).toNat.isValidChar := by
          unfold Nat.isValidChar
          omega
        rw [heq, Char.ofNat, dif_pos hv]
        rfl
      have hno : isSpace (smallLetter c) = false :=
        CharSet.contains_eq_false hspace (by omega) (by omega)
      simp only [isOrdinary, hno, Bool.false_or, decide_eq_true_eq] at h
      omega

/-- A character that is its own lower case, or whose lower case is a small letter of ASCII. -/
def Settled (c : Char) : Prop := lowerChar c = [c] ∨ ∃ d, lowerChar c = [d] ∧ d.isLower = true

theorem settled_of_lowerChar {c : Char} (h : ∀ d ∈ lowerChar c, isOrdinary d = true) :
    Settled c := by
  unfold Settled
  by_cases ha : c.toNat < 128
  · have hlow : c.toLower = c ∨ c.toLower.isLower = true :=
      forall_ascii (P := fun c => c.toLower = c ∨ c.toLower.isLower = true) (by decide) ha
    rw [lowerChar, if_pos ha]
    rcases hlow with hc | hc
    · exact Or.inl (by rw [hc])
    · exact Or.inr ⟨_, rfl, hc⟩
  · by_cases hi : c = '\u0130'
    · have hdot := h '\u0307' (by rw [hi]; decide)
      exact absurd hdot (by decide)
    · rw [lowerChar, if_neg ha, if_neg hi] at h ⊢
      rcases smallLetter_ordinary (h _ (List.mem_singleton_self _)) with hc | hc
      · exact Or.inl (by rw [hc])
      · exact Or.inr ⟨'k', by rw [hc], by decide⟩

theorem lowerChar_of_isLower {c : Char} (h : c.isLower = true) : lowerChar c = [c] :=
  lowerChar_of_isPlain (isLower_spec h).1

/-! ### Texts -/

theorem lowerAfter_eq_flatMap : ∀ (before w : List Char), 'Σ' ∉ w →
    lowerAfter before w = w.flatMap lowerChar
  | _, [], _ => rfl
  | before, c :: cs, h => by
    have hc : c ≠ 'Σ' := fun hc => h (hc ▸ List.mem_cons_self)
    rw [lowerAfter, if_neg hc,
      lowerAfter_eq_flatMap (c :: before) cs fun hm => h (List.mem_cons_of_mem _ hm),
      List.flatMap_cons]

/-- A capital sigma leaves one of its small letters. -/
theorem exists_sigma : ∀ (before w : List Char), 'Σ' ∈ w →
    ∃ d ∈ lowerAfter before w, isOrdinary d = false
  | before, c :: cs, h => by
    rw [lowerAfter]
    by_cases hc : c = 'Σ'
    · rw [if_pos hc]
      refine ⟨_, List.mem_append_left _ (List.mem_singleton_self _), ?_⟩
      split_ifs <;> decide
    · obtain ⟨d, hd, ho⟩ :=
        exists_sigma (c :: before) cs ((List.mem_cons.mp h).resolve_left fun hs => hc hs.symm)
      exact ⟨d, List.mem_append_right _ hd, ho⟩

variable {w v : List Char}

/-- A text whose lower case is ordinary has no sigma, and its characters are settled. -/
theorem settled_of_lower (h : ∀ d ∈ lower w, isOrdinary d = true) :
    'Σ' ∉ w ∧ ∀ c ∈ w, Settled c := by
  have hsigma : 'Σ' ∉ w := by
    intro hs
    obtain ⟨d, hd, ho⟩ := exists_sigma [] w hs
    exact absurd (h d hd) (by simp [ho])
  refine ⟨hsigma, fun c hc => settled_of_lowerChar fun d hd => h d ?_⟩
  rw [lower, lowerAfter_eq_flatMap [] w hsigma]
  exact List.mem_flatMap.mpr ⟨c, hc, hd⟩

/-! ### Texts in lower case at some places -/

/-- A text with some of its characters in lower case. -/
def Lowering (w v : List Char) : Prop := List.Forall₂ (fun c d => d = c ∨ lowerChar c = [d]) w v

theorem Settled.lowerChar_eq {c d : Char} (hc : Settled c) (h : d = c ∨ lowerChar c = [d]) :
    lowerChar d = lowerChar c ∧ isSpace d = isSpace c ∧ (c ≠ 'Σ' → d ≠ 'Σ') := by
  rcases h with rfl | h
  · exact ⟨rfl, rfl, id⟩
  · rcases hc with hc | ⟨e, he, hl⟩
    · obtain rfl : c = d := List.singleton_inj.mp (hc.symm.trans h)
      exact ⟨rfl, rfl, id⟩
    · obtain rfl : e = d := List.singleton_inj.mp (he.symm.trans h)
      have hsp : isSpace c = false := by
        rw [Bool.eq_false_iff]
        intro hs
        obtain rfl : c = e := List.singleton_inj.mp ((lowerChar_of_isSpace hs).symm.trans he)
        rw [(isLower_spec hl).2.1] at hs
        cases hs
      refine ⟨by rw [he, lowerChar_of_isLower hl], by rw [hsp, (isLower_spec hl).2.1], fun _ => ?_⟩
      rintro rfl
      exact absurd hl (by decide)

theorem Lowering.spec (h : Lowering w v) (hw : 'Σ' ∉ w) (hs : ∀ c ∈ w, Settled c) :
    'Σ' ∉ v ∧ v.flatMap lowerChar = w.flatMap lowerChar ∧ v.map isSpace = w.map isSpace := by
  induction h with
  | nil => simp
  | @cons c d w v hcd _ ih =>
    obtain ⟨hlow, hsp, hne⟩ := (hs c List.mem_cons_self).lowerChar_eq hcd
    obtain ⟨hv, hflat, hmap⟩ := ih (fun hm => hw (List.mem_cons_of_mem _ hm))
      fun e he => hs e (List.mem_cons_of_mem _ he)
    have hd : d ≠ 'Σ' := hne fun hc => hw (hc ▸ List.mem_cons_self)
    refine ⟨?_, ?_, ?_⟩
    · rw [List.mem_cons, not_or]
      exact ⟨hd.symm, hv⟩
    · rw [List.flatMap_cons, List.flatMap_cons, hlow, hflat]
    · rw [List.map_cons, List.map_cons, hsp, hmap]

/-- A text in lower case at some places has the same lower case. -/
theorem Lowering.lower_eq (h : Lowering w v) (hw : ∀ d ∈ lower w, isOrdinary d = true) :
    lower v = lower w := by
  obtain ⟨hsigma, hs⟩ := settled_of_lower hw
  obtain ⟨hv, hflat, -⟩ := h.spec hsigma hs
  rw [lower, lower, lowerAfter_eq_flatMap [] v hv, lowerAfter_eq_flatMap [] w hsigma, hflat]

theorem lowering_flatMap : ∀ {w : List Char}, (∀ c ∈ w, Settled c) →
    Lowering w (w.flatMap lowerChar)
  | [], _ => .nil
  | c :: cs, hs => by
    have ih := lowering_flatMap fun e he => hs e (List.mem_cons_of_mem c he)
    rw [List.flatMap_cons]
    rcases hs c List.mem_cons_self with hc | ⟨d, hd, -⟩
    · rw [hc]
      exact .cons (Or.inl rfl) ih
    · rw [hd]
      exact .cons (Or.inr hd) ih

/-- Lower case moves no white space. -/
theorem Lowering.trim_eq (h : Lowering w v) (hw : ∀ d ∈ lower w, isOrdinary d = true)
    (ht : trim w = w) : trim v = v := by
  obtain ⟨hsigma, hs⟩ := settled_of_lower hw
  rw [trim_eq_self_iff] at ht ⊢
  rwa [(h.spec hsigma hs).2.2]

end CssColor.Text
