import CssColor.Proofs.Text.Parts

/-! # Texts in either case

Two texts are `Recased` if they differ in the case of letters of ASCII only, and `Respelled` if they
also differ in the white space around them. A question about characters that has the same answer for
a letter in either case (`CaseBlind`) has the same answers along both texts. So trimming leaves such
texts recased (`respelled_iff`), and in lower case they are the same (`Recased.lower_eq`): a final
sigma is one in both, since a letter has case in either case. -/

namespace CssColor.Text

/-! ### Characters -/

/-- What is asked of a character has the same answer for a letter of ASCII in either case. -/
def CaseBlind {α : Type} (f : Char → α) : Prop := ∀ c : Char, f c.toLower = f c

section

variable {α : Type} {f : Char → α}

theorem caseBlind_of_ascii (h : ∀ n < 128, f (Char.ofNat n).toLower = f (Char.ofNat n)) :
    CaseBlind f := by
  intro c
  by_cases hc : c.toNat < 128
  · exact forall_ascii (P := fun c => f c.toLower = f c) h hc
  · rw [toLower_eq_self hc]

theorem CaseBlind.eq (h : CaseBlind f) {c d : Char} (hcd : c.toLower = d.toLower) : f c = f d := by
  rw [← h c, hcd, h d]

end

theorem caseBlind_isSpace : CaseBlind isSpace := caseBlind_of_ascii (by decide)

theorem caseBlind_isAlpha : CaseBlind Char.isAlpha := caseBlind_of_ascii (by decide)

theorem caseBlind_isCased : CaseBlind isCased := caseBlind_of_ascii (by decide)

theorem caseBlind_isCaseIgnorable : CaseBlind isCaseIgnorable := caseBlind_of_ascii (by decide)

theorem caseBlind_lowerChar : CaseBlind lowerChar := caseBlind_of_ascii (by decide)

theorem toLower_eq_self_of_isAlpha_eq_false {c : Char} (h : c.isAlpha = false) : c.toLower = c := by
  by_cases hc : c.toNat < 128
  · exact forall_ascii (P := fun c => c.isAlpha = false → c.toLower = c) (by decide) hc h
  · exact toLower_eq_self hc

theorem toLower_eq_sigma_iff (c : Char) : c.toLower = 'Σ' ↔ c = 'Σ' := by
  have hblind : CaseBlind fun c => decide (c = 'Σ') := caseBlind_of_ascii (by decide)
  exact decide_eq_decide.mp (hblind c)

/-! ### Texts in lower case -/

section

variable {p : Char → Bool}

theorem CaseBlind.dropWhile_map (h : CaseBlind p) (w : List Char) :
    (w.map Char.toLower).dropWhile p = (w.dropWhile p).map Char.toLower := by
  have hcomp : p ∘ Char.toLower = p := funext h
  rw [List.dropWhile_map, hcomp]

theorem trim_map_toLower (w : List Char) :
    trim (w.map Char.toLower) = (trim w).map Char.toLower := by
  simp only [trim, dropRightWhile, caseBlind_isSpace.dropWhile_map, ← List.map_reverse]

theorem meetsCased_map_toLower (w : List Char) :
    meetsCased (w.map Char.toLower) = meetsCased w := by
  unfold meetsCased
  rw [caseBlind_isCaseIgnorable.dropWhile_map]
  cases w.dropWhile isCaseIgnorable with
  | nil => rfl
  | cons c cs => exact caseBlind_isCased c

/-- Lower case forgets the case there was; whether a sigma is final does not depend on it either. -/
theorem lowerAfter_map_toLower (before w : List Char) :
    lowerAfter (before.map Char.toLower) (w.map Char.toLower) = lowerAfter before w := by
  induction w generalizing before with
  | nil => rfl
  | cons c cs ih =>
    have hrest := ih (c :: before)
    rw [List.map_cons] at hrest
    rw [List.map_cons, lowerAfter, lowerAfter, hrest]
    by_cases hc : c = 'Σ'
    · rw [if_pos hc, if_pos ((toLower_eq_sigma_iff c).mpr hc), endsWord, endsWord,
        meetsCased_map_toLower, meetsCased_map_toLower]
    · rw [if_neg hc, if_neg (mt (toLower_eq_sigma_iff c).mp hc), caseBlind_lowerChar c]

end

/-! ### The same text in another case -/

/-- **The same text but for the case of letters of ASCII.** -/
def Recased (v w : List Char) : Prop := v.map Char.toLower = w.map Char.toLower

namespace Recased

variable {u v w : List Char}

theorem symm (h : Recased v w) : Recased w v := Eq.symm h

theorem trim (h : Recased v w) : Recased (trim v) (trim w) := by
  unfold Recased
  rw [← trim_map_toLower, ← trim_map_toLower, h]

theorem lower_eq (h : Recased v w) : lower v = lower w := by
  have hmap (w : List Char) : lower (w.map Char.toLower) = lower w := lowerAfter_map_toLower [] w
  rw [← hmap, h, hmap]

/-! A text that is put together comes apart into the same parts. -/

theorem eq_nil (h : Recased v []) : v = [] := List.map_eq_nil_iff.mp h

theorem exists_append (h : Recased v (u ++ w)) :
    ∃ u' w', v = u' ++ w' ∧ Recased u' u ∧ Recased w' w := by
  unfold Recased at h
  rw [List.map_append] at h
  exact List.map_eq_append_iff.mp h

theorem forall_mem {α : Type} {f : Char → α} {a : α} (h : Recased v w) (hf : CaseBlind f)
    (hw : ∀ c ∈ w, f c = a) : ∀ c ∈ v, f c = a := by
  intro c hc
  have hmem : c.toLower ∈ w.map Char.toLower := h ▸ List.mem_map_of_mem hc
  obtain ⟨d, hd, hdc⟩ := List.mem_map.mp hmem
  rw [← hf.eq hdc]
  exact hw d hd

/-- Without letters it is the same text. -/
theorem eq_of_forall (h : Recased v w) (hw : ∀ c ∈ w, c.isAlpha = false) : v = w := by
  have hsame {w : List Char} (hw : ∀ c ∈ w, c.isAlpha = false) : w.map Char.toLower = w :=
    (List.map_congr_left fun c hc => toLower_eq_self_of_isAlpha_eq_false (hw c hc)).trans
      (List.map_id w)
  rw [← hsame hw, ← hsame (h.forall_mem caseBlind_isAlpha hw)]
  exact h

theorem exists_cons {c : Char} (hc : c.isAlpha = false) (h : Recased v (c :: w)) :
    ∃ w', v = c :: w' ∧ Recased w' w := by
  obtain ⟨u', w', rfl, hu, hw⟩ := exists_append (u := [c]) h
  obtain rfl := hu.eq_of_forall (List.forall_mem_singleton.mpr hc)
  exact ⟨w', rfl, hw⟩

theorem eq_singleton {c : Char} (hc : c.isAlpha = false) (h : Recased v [c]) : v = [c] := by
  obtain ⟨w', rfl, hw⟩ := h.exists_cons hc
  rw [hw.eq_nil]

theorem forall_head? {α : Type} {f : Char → α} {a : α} (h : Recased v w) (hf : CaseBlind f)
    (hw : ∀ c ∈ w.head?, f c = a) : ∀ c ∈ v.head?, f c = a := by
  intro c hc
  have hhead := congrArg List.head? h
  rw [List.head?_map, List.head?_map, hc] at hhead
  obtain ⟨d, hd, hdc⟩ := Option.map_eq_some_iff.mp hhead.symm
  rw [← hf.eq hdc]
  exact hw d hd

end Recased

/-! ### White space around a text -/

/-- A text with white space around it. -/
inductive Padded (core : List Char) : List Char → Prop
  | intro {u v : List Char} (hu : ∀ c ∈ u, isSpace c = true) (hv : ∀ c ∈ v, isSpace c = true) :
      Padded core (u ++ (core ++ v))

theorem padded_trim (w : List Char) : Padded (trim w) w := by
  obtain ⟨u, v, hw, hu, hv⟩ := exists_trim w
  have hpadded : Padded (trim w) (u ++ (trim w ++ v)) := .intro hu hv
  rwa [← hw] at hpadded

theorem Padded.trim_eq {w s : List Char} (h : Padded w s) : trim s = trim w := by
  obtain ⟨hu, hv⟩ := h
  rw [trim, List.dropWhile_append_of_pos hu, List.dropWhile_append, trim]
  split_ifs with hempty
  · rw [List.isEmpty_iff.mp hempty, List.dropWhile_eq_nil_iff.mpr hv]
  · exact dropRightWhile_append hv

/-- **The same text but for the case of letters of ASCII and white space around it.** -/
def Respelled (s t : List Char) : Prop := ∃ v w, Padded v s ∧ Padded w t ∧ Recased v w

theorem respelled_iff {s t : List Char} : Respelled s t ↔ Recased (trim s) (trim t) := by
  constructor
  · rintro ⟨v, w, hs, ht, h⟩
    rw [hs.trim_eq, ht.trim_eq]
    exact h.trim
  · exact fun h => ⟨_, _, padded_trim s, padded_trim t, h⟩

theorem Respelled.symm {s t : List Char} (h : Respelled s t) : Respelled t s :=
  respelled_iff.mpr (respelled_iff.mp h).symm

theorem Recased.respelled {v w : List Char} (h : Recased v w) : Respelled v w :=
  respelled_iff.mpr h.trim

end CssColor.Text
