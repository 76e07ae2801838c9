import CssColor.Proofs.Link.Percent

/-! # The color text of a value

A value is taken for its decoded text in lower case, or for the fragment where that is empty
(`candidate`), and what is handed out for a candidate that is a color text is `handedOut`. It is
read as the same color in the same form, and begins with a number sign if the form is hexadecimal
(`read_handedOut`, `head?_handedOut`). The exception is a hexadecimal candidate with white space in
front (`isSpoilt`): the number sign is set before the white space, and the text is not read at all.

A color text without white space around it always survives: behind the text itself, and behind every
encoding of it, is the text with some of its letters in lower case (`exists_lowering`). -/

namespace CssColor.Link

open Text

/-! ### Candidates -/

/-- The text behind a value: the value in lower case, decoded if it is an encoding. -/
def decoded (raw : String) : String :=
  match decode (String.ofList (lower raw.toList)) with
  | .ok text => text
  | .error _ => String.ofList (lower raw.toList)

/-- The text a value is taken for; an empty one is replaced by the fragment where there is one. -/
def candidate (raw : String) (fragment : Option String) : String :=
  match fragment with
  | some text => if decoded raw = "" then text else decoded raw
  | none => decoded raw

/-- A color text in a form as it is handed out: with a number sign in front of digits. -/
def handedOut (f : Format) (text : String) : String :=
  if f.isHex ∧ text.toList.head? ≠ some '#' then "#" ++ text else text

theorem value_decodeLeniently (raw : String) : (decodeLeniently raw).value = decoded raw := by
  unfold decodeLeniently decoded
  dsimp only
  cases decode (String.ofList (lower raw.toList)) with
  | ok text => rfl
  | error f => rfl

theorem value_color? (raw : String) (fragment : Option String) : (color? raw fragment).value =
    match Color.read (candidate raw fragment) with
    | .ok (_, f) => some (handedOut f (candidate raw fragment))
    | .error _ => none := by
  have hcandidate : (if (decodeLeniently raw).value.isEmpty
      then fragment.getD (decodeLeniently raw).value else (decodeLeniently raw).value)
      = candidate raw fragment := by
    unfold candidate
    rw [value_decodeLeniently]
    cases fragment with
    | none => exact ite_self _
    | some text => simp only [String.isEmpty_iff, Option.getD_some]
  unfold color?
  rw [Logged.value_bind]
  dsimp only
  rw [hcandidate]
  cases Color.read (candidate raw fragment) with
  | ok r =>
    obtain ⟨c, f⟩ := r
    simp only [handedOut, Bool.and_eq_true, decide_eq_true_eq]
    split_ifs <;> rfl
  | error f => rfl

/-! ### A number sign in front of a text -/

theorem trim_cons {c : Char} (h : isSpace c = false) (w : List Char) :
    trim (c :: w) = c :: dropRightWhile isSpace w := by
  have hd : (c :: w).dropWhile isSpace = c :: w := List.dropWhile_cons_of_neg (by simp [h])
  rw [trim, hd, dropRightWhile, dropRightWhile, List.reverse_cons, List.dropWhile_append]
  split_ifs with he
  · rw [List.isEmpty_iff.mp he]
    simp [h]
  · simp

/-- Whether a text begins with white space. -/
def isIndented (text : String) : Bool := text.toList.head?.any isSpace

theorem trim_eq_dropRightWhile {w : List Char} (h : w.head?.any isSpace = false) :
    trim w = dropRightWhile isSpace w := by
  have hd : w.dropWhile isSpace = w := by
    cases w with
    | nil => rfl
    | cons c cs => exact List.dropWhile_cons_of_neg (by simpa using h)
  rw [trim, hd]

/-- Whether a text stands for a hexadecimal color with white space in front, which is lost when the
number sign is set. -/
def isSpoilt (text : String) : Bool :=
  isIndented text && (Color.read text).toOption.any fun r => r.2.isHex

theorem isSpoilt_of_read {t : String} {c : Color} {f : Format} (h : Color.read t = .ok (c, f)) :
    isSpoilt t = (isIndented t && f.isHex) := by
  rw [isSpoilt, h]
  rfl

/-- With a number sign in front, the text keeps the white space at its own beginning. -/
theorem lower_trim_hash (t : String) : lower (trim ("#" ++ t).toList)
    = '#' :: lowerAfter ['#'] (dropRightWhile isSpace t.toList) := by
  have hlist : ("#" ++ t).toList = '#' :: t.toList := by simp
  have hno : '#' ≠ 'Σ' := by decide
  have hlow : lowerChar '#' = ['#'] := by decide
  rw [hlist, trim_cons (by decide), lower, lowerAfter, if_neg hno, hlow]
  rfl

theorem head?_trim_ne {t : List Char} (hi : t.head?.any isSpace = false) {c : Char}
    (hc : t.head? ≠ some c) : (trim t).head? ≠ some c := by
  obtain ⟨u, v, heq, hu, -⟩ := exists_trim t
  intro hhead
  cases u with
  | nil =>
    refine hc ?_
    rw [heq, List.nil_append, List.head?_append, hhead]
    rfl
  | cons e u =>
    rw [heq] at hi
    simp [hu e List.mem_cons_self] at hi

/-- A hexadecimal color that lacks its number sign is read from its digits. -/
theorem readHex_of_read {t : String} {c : Color} {f : Format} (h : Color.read t = .ok (c, f))
    (hf : f.isHex = true) (hhead : (trim t.toList).head? ≠ some '#') :
    Color.readHex (lower (trim t.toList)) = .ok (c, f) := by
  obtain ⟨hsigma, hset⟩ := settled_of_lower (Color.spelled_of_read h).ordinary
  have hlower : lower (trim t.toList) = (trim t.toList).flatMap lowerChar :=
    lowerAfter_eq_flatMap [] _ hsigma
  have hread := Color.readAs_of_read h
  generalize hsmall : lower (trim t.toList) = small at hread
  cases hread with
  | keyword => exact absurd hf (by decide)
  | bare _ hx => exact hx
  | rgb => exact absurd hf (by decide)
  | hsl => exact absurd hf (by decide)
  | @hash cs _ hx =>
    -- only the number sign itself has the number sign for its lower case
    exfalso
    rw [hlower] at hsmall
    cases hw : trim t.toList with
    | nil => rw [hw] at hsmall; cases hsmall
    | cons d ds =>
      rw [hw] at hhead hsmall
      rw [List.flatMap_cons] at hsmall
      rcases hset d (by rw [hw]; exact List.mem_cons_self) with hd | ⟨e, hd, he⟩
      · rw [hd] at hsmall
        exact hhead (congrArg some (List.cons.inj hsmall).1)
      · rw [hd] at hsmall
        rw [(List.cons.inj hsmall).1] at he
        exact absurd he (by decide)

/-- The text of a hexadecimal color that lacks its number sign is read as the same color with it. -/
theorem read_handedOut {t : String} {c : Color} {f : Format} (h : Color.read t = .ok (c, f))
    (hs : isSpoilt t = false) : Color.read (handedOut f t) = .ok (c, f) := by
  rw [isSpoilt_of_read h] at hs
  unfold handedOut
  split_ifs with hcond
  · obtain ⟨hf, hhead⟩ := hcond
    have hind : t.toList.head?.any isSpace = false := by
      rw [hf, Bool.and_true] at hs
      exact hs
    have hsigma := (settled_of_lower (Color.spelled_of_read h).ordinary).1
    have hsmall : lower (trim ("#" ++ t).toList) = '#' :: lower (trim t.toList) := by
      rw [lower_trim_hash, ← trim_eq_dropRightWhile hind, lowerAfter_eq_flatMap _ _ hsigma, lower,
        lowerAfter_eq_flatMap _ _ hsigma]
    rw [Color.read_of_hash hsmall]
    exact readHex_of_read h hf (head?_trim_ne hind hhead)
  · exact h

/-- With white space behind the number sign nothing is read. -/
theorem read_ne_ok_of_indented {t : String} (hi : isIndented t = true) (r : Color × Format) :
    Color.read ("#" ++ t) ≠ .ok r := by
  intro h
  rw [Color.read_of_hash (lower_trim_hash t)] at h
  obtain ⟨hne, hall⟩ := Color.isHexDigit_of_readHex h
  obtain ⟨v, hv, -⟩ := exists_dropRightWhile isSpace t.toList
  cases hw : dropRightWhile isSpace t.toList with
  | nil => rw [hw] at hne; exact hne rfl
  | cons d ds =>
    rw [hw] at hv hall
    have hd : isSpace d = true := by
      unfold isIndented at hi
      rw [hv] at hi
      simpa using hi
    have hds : d ≠ 'Σ' := by
      rintro rfl
      exact absurd hd (by decide)
    rw [lowerAfter, if_neg hds, lowerChar_of_isSpace hd] at hall
    have hx := hall d List.mem_cons_self
    rw [Color.isHexDigit_of_isSpace hd] at hx
    cases hx

theorem read_handedOut_of_spoilt {t : String} {c : Color} {f : Format}
    (h : Color.read t = .ok (c, f)) (hs : isSpoilt t = true) (r : Color × Format) :
    Color.read (handedOut f t) ≠ .ok r := by
  rw [isSpoilt_of_read h] at hs
  obtain ⟨hi, hf⟩ := Bool.and_eq_true_iff.mp hs
  have hhead : t.toList.head? ≠ some '#' := by
    intro hhash
    rw [isIndented, hhash] at hi
    exact absurd hi (by decide)
  rw [handedOut, if_pos ⟨hf, hhead⟩]
  exact read_ne_ok_of_indented hi r

theorem head?_handedOut {f : Format} (hf : f.isHex = true) (t : String) :
    (handedOut f t).toList.head? = some '#' := by
  unfold handedOut
  split_ifs with hcond
  · simp
  · by_contra hne
    exact hcond ⟨hf, hne⟩

theorem value_color?_of_read {raw : String} {fragment : Option String} {c : Color} {f : Format}
    (h : Color.read (candidate raw fragment) = .ok (c, f)) :
    (color? raw fragment).value = some (handedOut f (candidate raw fragment)) := by
  rw [value_color?, h]

theorem value_color?_eq_none_iff {raw : String} {fragment : Option String} :
    (color? raw fragment).value = none ↔ ∀ r, Color.read (candidate raw fragment) ≠ .ok r := by
  rw [value_color?]
  cases Color.read (candidate raw fragment) with
  | error e => simp
  | ok r => simp

/-- **The texts that are handed out for values.** A value leads to a text exactly if its candidate
is a color text. The text is then read as the same color in the same form, unless the candidate is
spoilt, and begins with a number sign if the form is hexadecimal; for a spoilt candidate it is not
read at all. -/
theorem color_of_candidate (raw : String) (fragment : Option String) :
    ((color? raw fragment).value = none ↔ ∀ r, Color.read (candidate raw fragment) ≠ .ok r) ∧
      ∀ c f, Color.read (candidate raw fragment) = .ok (c, f) →
        ∃ t, (color? raw fragment).value = some t ∧
          (f.isHex = true → t.toList.head? = some '#') ∧
          (isSpoilt (candidate raw fragment) = false → Color.read t = .ok (c, f)) ∧
          (isSpoilt (candidate raw fragment) = true → ∀ r, Color.read t ≠ .ok r) := by
  refine ⟨value_color?_eq_none_iff, fun c f h => ?_⟩
  exact ⟨_, value_color?_of_read h, fun hf => head?_handedOut hf _, read_handedOut h,
    read_handedOut_of_spoilt h⟩

/-- Digits in capitals get their number sign. -/
theorem color_of_candidate_capitals : ∃ t, (color? "C0FFEE" none).value = some t ∧
    t.toList.head? = some '#' ∧ Color.read t = .ok (.solid ⟨192, 255, 238⟩, .hex) := by
  have hc : candidate "C0FFEE" none = "c0ffee" := by decide +kernel
  have hr : Color.read (candidate "C0FFEE" none) = .ok (.solid ⟨192, 255, 238⟩, .hex) := by
    rw [hc]
    rfl
  have hs : isSpoilt (candidate "C0FFEE" none) = false := by decide +kernel
  obtain ⟨t, ht, hhead, hread, -⟩ := (color_of_candidate "C0FFEE" none).2 _ _ hr
  exact ⟨t, ht, hhead rfl, hread hs⟩

/-- Digits behind white space are a color text, and the text handed out for them is none. -/
theorem color_of_candidate_indented : (Color.read (candidate "%20842" none)).isOk = true ∧
    (color? "%20842" none).value = some "# 842" ∧ (Color.read "# 842").isOk = false := by
  decide +kernel

/-! ### Encodings of color texts -/

section

variable {s e : String} {r : Color × Format} (h : Color.read s = .ok r)
  (ht : trim s.toList = s.toList) (he : e = s ∨ Encodes s.toList e.toList)

include h ht he

/-- The text behind a color text, or behind any encoding of it, is the color text with some of its
characters in lower case. -/
theorem exists_lowering : ∃ v, Lowering s.toList v ∧ decoded e = String.ofList v := by
  have hspelled := Color.spelled_of_read h
  rw [ht] at hspelled
  rcases he with rfl | he
  · obtain ⟨hsigma, hset⟩ := settled_of_lower hspelled.ordinary
    have hlower : lower e.toList = e.toList.flatMap lowerChar := lowerAfter_eq_flatMap [] _ hsigma
    refine ⟨lower e.toList, hlower ▸ lowering_flatMap hset, ?_⟩
    unfold decoded
    by_cases hp : '%' ∈ lower e.toList
    · -- the text is taken as it is, since a percent sign in it begins no escape
      obtain ⟨u, d, v, heq, hd⟩ := hspelled.percent hp
      rw [heq, decode_of_stray hd]
    · rw [decode_of_unescape (unescape_of_percent_not_mem hp)]
  · obtain ⟨v, hv, hdec⟩ := decode_lower he hspelled.ordinary
    refine ⟨v, hv, ?_⟩
    rw [decoded, hdec]

/-- **A color text survives every encoding.** -/
theorem exists_color?_of_encoding (fragment : Option String) :
    ∃ t, (color? e fragment).value = some t ∧ Color.read t = .ok r := by
  obtain ⟨v, hv, hdec⟩ := exists_lowering h ht he
  have hord := (Color.spelled_of_read h).ordinary
  rw [ht] at hord
  have hvtrim : trim v = v := hv.trim_eq hord ht
  have hread : Color.read (String.ofList v) = .ok r := by
    refine Color.read_of_lower_eq h ?_
    rw [String.toList_ofList, hvtrim, ht, hv.lower_eq hord]
  have hcandidate : candidate e fragment = String.ofList v := by
    have hne : String.ofList v ≠ "" := by
      intro hnil
      rw [hnil] at hread
      cases hread
    unfold candidate
    rw [hdec]
    cases fragment with
    | none => rfl
    | some text => exact if_neg hne
  obtain ⟨c, f⟩ := r
  have hspoilt : isSpoilt (String.ofList v) = false := by
    have hhead := (trim_eq_self_iff.mp hvtrim).1
    have hindented : isIndented (String.ofList v) = false := by
      rw [isIndented, String.toList_ofList]
      cases v with
      | nil => rfl
      | cons d ds => simpa using hhead
    rw [isSpoilt, hindented, Bool.false_and]
  refine ⟨handedOut f (String.ofList v), ?_, read_handedOut hread hspoilt⟩
  rw [value_color?_of_read (hcandidate ▸ hread), hcandidate]

end

end CssColor.Link
