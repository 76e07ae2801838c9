import CssColor.Color.Reader
import CssColor.Color.Render
import CssColor.Proofs.Color.Alpha
import CssColor.Proofs.Color.Keyword

/-! # Functional forms

`callText` is the text of a functional form: a name and arguments in parentheses. Such a text is
solid and plain, so no reader changes it before it looks at its parts, and its arguments come back
as they were put in (`functionArguments_callText`). The `rgb` and `hsl` texts of a color are such
texts (`toList_rgbText`, `toList_hslText`). -/

namespace CssColor

open Number Number.Scalar Text

/-- A name with arguments in parentheses. -/
def callText (name : List Char) (args : List (List Char)) : List Char :=
  name ++ '(' :: ([',', ' '].intercalate args ++ [')'])

/-- A word of small letters, and some arguments of figures or small letters. -/
structure IsCall (name : List Char) (args : List (List Char)) : Prop where
  name_ne_nil : name ≠ []
  isLower : ∀ c ∈ name, c.isLower = true
  args_ne_nil : args ≠ []
  isSymbol : ∀ w ∈ args, ∀ c ∈ w, isSymbol c = true

theorem mem_intercalate {sep : List Char} {args : List (List Char)} {c : Char}
    (h : c ∈ sep.intercalate args) : c ∈ sep ∨ ∃ w ∈ args, c ∈ w := by
  induction args with
  | nil => simp at h
  | cons w ws ih =>
    cases ws with
    | nil => exact Or.inr ⟨w, by simp, by simpa using h⟩
    | cons v vs =>
      rw [List.intercalate_cons_cons, List.mem_append, List.mem_append] at h
      rcases h with (h | h) | h
      · exact Or.inr ⟨w, List.mem_cons_self, h⟩
      · exact Or.inl h
      · rcases ih h with h | ⟨u, hu, hc⟩
        · exact Or.inl h
        · exact Or.inr ⟨u, List.mem_cons_of_mem _ hu, hc⟩

section

variable {name : List Char} {args : List (List Char)} (h : IsCall name args)

include h

theorem mem_arguments {c : Char} (hc : c ∈ [',', ' '].intercalate args) :
    c = ',' ∨ c = ' ' ∨ isSymbol c = true := by
  rcases mem_intercalate hc with hc | ⟨w, hw, hc⟩
  · rcases List.mem_pair.mp hc with hc | hc
    · exact Or.inl hc
    · exact Or.inr (Or.inl hc)
  · exact Or.inr (Or.inr (h.isSymbol w hw c hc))

theorem ne_paren_of_mem_arguments {c : Char} (hc : c ∈ [',', ' '].intercalate args) :
    c ≠ '(' ∧ c ≠ ')' := by
  rcases mem_arguments h hc with rfl | rfl | hc
  · decide
  · decide
  · exact (isSymbol_spec hc).2.2.2

theorem isPlain_callText {c : Char} (hc : c ∈ callText name args) : isPlain c = true := by
  simp only [callText, List.mem_append, List.mem_cons, List.not_mem_nil, or_false] at hc
  rcases hc with hc | rfl | hc | rfl
  · exact (isLower_spec (h.isLower c hc)).1
  · decide
  · rcases mem_arguments h hc with rfl | rfl | hc
    · decide
    · decide
    · exact (isSymbol_spec hc).1
  · decide

theorem lower_callText : lower (callText name args) = callText name args :=
  lower_eq_self fun _ => isPlain_callText h

theorem head?_callText (rest : List Char) :
    ∀ c ∈ (callText name args ++ rest).head?, c.isLower = true := by
  intro c hc
  rw [callText, List.append_assoc, List.head?_append_of_ne_nil _ h.name_ne_nil] at hc
  exact h.isLower c (List.mem_of_head? hc)

omit h in
theorem getLast?_callText : (callText name args).getLast? = some ')' := by
  unfold callText
  rw [← List.cons_append, ← List.append_assoc, List.getLast?_append]
  rfl

theorem trim_callText : trim (callText name args) = callText name args := by
  refine trim_eq_self (fun c hc => ?_) fun c hc => ?_
  · have hl := head?_callText h []
    rw [List.append_nil] at hl
    exact (isLower_spec (hl c hc)).2.1
  · rw [getLast?_callText] at hc
    cases hc
    decide

/-- The arguments of a functional form come back as they were put in. -/
theorem functionArguments_callText {names : List String} (hn : String.ofList name ∈ names) :
    Color.functionArguments names (callText name args) = .ok args := by
  have hopen : '(' ∉ name := fun hc => (isLower_spec (h.isLower _ hc)).2.2.1 rfl
  have hname : trim name = name := trim_of_all fun c hc => (isLower_spec (h.isLower c hc)).2.1
  have hargs := splitOn_joined h.args_ne_nil
    (fun w hw hc => (isSymbol_spec (h.isSymbol w hw _ hc)).2.2.1 rfl)
    fun w hw c hc => (isSymbol_spec (h.isSymbol w hw c hc)).2.1
  unfold Color.functionArguments callText
  rw [splitFirst?_run hopen]
  simp only [hname, if_pos hn, beforeEnd?_append, hargs]

end

/-! ### Reading functional forms -/

theorem rgb?_of_paren_mem {cs : List Char} (h : '(' ∈ cs) :
    Keyword.rgb? (String.ofList cs) = none := by
  rw [Option.eq_none_iff_forall_ne_some]
  intro c hc
  have hl := (Keyword.isLower_of_rgb? hc).2 '(' (by rwa [String.toList_ofList])
  revert hl
  decide

theorem isBareHex_of_paren_mem {cs : List Char} (h : '(' ∈ cs) : Color.isBareHex cs = false := by
  have hparen : isHexDigit '(' = false := by decide
  have hall : cs.all isHexDigit = false := List.all_eq_false.mpr ⟨'(', h, by simp [hparen]⟩
  rw [Color.isBareHex, hall, Bool.and_false]

/-- A text with a parenthesis in it is read by one of the readers of functional forms. -/
theorem read_of_paren_mem {text : String} {cs : List Char} (ht : lower (trim text.toList) = cs)
    (hp : '(' ∈ cs) (hh : cs.head? ≠ some '#') :
    Color.read text =
      if (afterStart? "rgb".toList cs).isSome then (Color.readRgb cs).map (·, .rgb)
      else if (afterStart? "hsl".toList cs).isSome then (Color.readHsl cs).map (·, .hsl)
      else .error (.unknown (String.ofList (trim text.toList))) := by
  unfold Color.read
  dsimp only
  rw [ht]
  split
  · next hnil => cases hp
  · next first rest =>
    have hfirst : first ≠ '#' := fun h => hh (congrArg some h)
    rw [rgb?_of_paren_mem hp]
    simp only [if_neg hfirst, isBareHex_of_paren_mem hp]
    rfl

/-- A functional form is read by the reader for its name. -/
theorem read_callText {name : List Char} {args : List (List Char)} (h : IsCall name args) :
    Color.read (String.ofList (callText name args)) =
      if (afterStart? "rgb".toList (callText name args)).isSome then
        (Color.readRgb (callText name args)).map (·, .rgb)
      else if (afterStart? "hsl".toList (callText name args)).isSome then
        (Color.readHsl (callText name args)).map (·, .hsl)
      else .error (.unknown (String.ofList (callText name args))) := by
  have htrim : trim (String.ofList (callText name args)).toList = callText name args := by
    rw [String.toList_ofList, trim_callText h]
  have hhead := head?_callText h []
  rw [List.append_nil] at hhead
  have hhash : (callText name args).head? ≠ some '#' := fun hc =>
    (isLower_spec (hhead _ hc)).2.2.2.2 rfl
  rw [read_of_paren_mem (by rw [htrim, lower_callText h]) (by simp [callText]) hhash, htrim]

/-! ### The functional texts of a color -/

namespace Rgba

/-- The name of a functional form, with a letter behind it for a color that is not solid. -/
def formName (c : Color) (model : List Char) : List Char :=
  if c.isSolid then model else model ++ ['a']

/-- The arguments of a functional form, with alpha behind them for a color that is not solid. -/
def formArgs (c : Color) (parts : List (List Char)) : List (List Char) :=
  if c.isSolid then parts else parts ++ [alphaDigits c.alpha]

/-- The bytes of a color in decimal. -/
def rgbParts (c : Color) : List (List Char) :=
  [Nat.toDigits 10 c.rounded.red.toNat, Nat.toDigits 10 c.rounded.green.toNat,
    Nat.toDigits 10 c.rounded.blue.toNat]

/-- Hue, saturation and lightness of a color in whole degrees and percent. -/
def hslParts (c : Color) : List (List Char) :=
  [(toString c.toHsl.toWhole.1).toList, (toString c.toHsl.toWhole.2.1).toList ++ ['%'],
    (toString c.toHsl.toWhole.2.2).toList ++ ['%']]

end Rgba

section

variable {c : Color} (h : c.alpha.isNaN = false)

theorem isFigure_of_mem_digits {n : ℕ} : ∀ d ∈ Nat.toDigits 10 n, isFigure d = true := fun _ hd =>
  isFigure_of_isDigit (Decimal.isDigit_of_mem_digits hd)

theorem isFigure_of_mem_hundredthsDigits {k : ℕ} : ∀ d ∈ hundredthsDigits k, isFigure d = true := by
  have ht := isFigure_of_isDigit (isDigit_digitChar (d := k / 10 % 10) (by omega))
  have hh := isFigure_of_isDigit (isDigit_digitChar (d := k % 10) (by omega))
  have hp : isFigure '.' = true := by decide
  intro d hd
  unfold hundredthsDigits at hd
  dsimp only at hd
  split_ifs at hd
  · exact isFigure_of_mem_digits d hd
  · rcases List.mem_append.mp hd with hd | hd
    · exact isFigure_of_mem_digits d hd
    · rcases List.mem_pair.mp hd with rfl | rfl
      · exact hp
      · exact ht
  · rcases List.mem_append.mp hd with hd | hd
    · exact isFigure_of_mem_digits d hd
    · simp only [List.mem_cons, List.not_mem_nil, or_false] at hd
      rcases hd with rfl | rfl | rfl
      · exact hp
      · exact ht
      · exact hh

theorem isFigure_of_mem_alphaDigits {a : Binary64} : ∀ d ∈ alphaDigits a, isFigure d = true := by
  intro d hd
  unfold alphaDigits at hd
  split_ifs at hd
  · rcases List.mem_cons.mp hd with rfl | hd
    · decide
    · exact isFigure_of_mem_hundredthsDigits d hd
  · exact isFigure_of_mem_hundredthsDigits d hd

theorem isCall_form {model : List Char} {parts : List (List Char)} (hne : model ≠ [])
    (hm : ∀ d ∈ model, d.isLower = true) (hp : parts ≠ [])
    (hf : ∀ w ∈ parts, ∀ d ∈ w, isFigure d = true) :
    IsCall (c.formName model) (c.formArgs parts) := by
  have hs : ∀ w ∈ parts, ∀ d ∈ w, isSymbol d = true := fun w hw d hd =>
    isSymbol_of_isFigure (hf w hw d hd)
  unfold Rgba.formName Rgba.formArgs
  split_ifs
  · exact ⟨hne, hm, hp, hs⟩
  · refine ⟨by simp, fun d hd => ?_, by simp, fun w hw => ?_⟩
    · rcases List.mem_append.mp hd with hd | hd
      · exact hm d hd
      · rw [List.mem_singleton.mp hd]
        decide
    · rcases List.mem_append.mp hw with hw | hw
      · exact hs w hw
      · rw [List.mem_singleton.mp hw]
        exact fun d hd => isSymbol_of_isFigure (isFigure_of_mem_alphaDigits d hd)

theorem isCall_rgb : IsCall (c.formName "rgb".toList) (c.formArgs c.rgbParts) := by
  refine isCall_form (by simp) (by simp) (by simp [Rgba.rgbParts]) fun w hw => ?_
  simp only [Rgba.rgbParts, List.mem_cons, List.not_mem_nil, or_false] at hw
  rcases hw with rfl | rfl | rfl <;> exact isFigure_of_mem_digits

theorem isCall_hsl : IsCall (c.formName "hsl".toList) (c.formArgs c.hslParts) := by
  have hpercent : ∀ (i : ℤ), ∀ d ∈ (toString i).toList ++ ['%'], isFigure d = true := by
    intro i d hd
    rcases List.mem_append.mp hd with hd | hd
    · exact Decimal.isFigure_of_mem_toString hd
    · rw [List.mem_singleton.mp hd]
      decide
  refine isCall_form (by simp) (by simp) (by simp [Rgba.hslParts]) fun w hw => ?_
  simp only [Rgba.hslParts, List.mem_cons, List.not_mem_nil, or_false] at hw
  rcases hw with rfl | rfl | rfl
  · exact fun d hd => Decimal.isFigure_of_mem_toString hd
  · exact hpercent _
  · exact hpercent _

include h

theorem toList_rgbText :
    c.rgbText.toList = callText (c.formName "rgb".toList) (c.formArgs c.rgbParts) := by
  have hself : ∀ s : String, toString s = s := fun _ => rfl
  unfold Color.rgbText Rgba.formName Rgba.formArgs
  dsimp only
  split_ifs
  · simp [hself, callText, Rgba.rgbParts, List.intercalate_cons_cons, String.toList_append]
  · simp [hself, callText, Rgba.rgbParts, List.intercalate_cons_cons, String.toList_append,
      toList_alphaText h]

theorem toList_hslText :
    c.hslText.toList = callText (c.formName "hsl".toList) (c.formArgs c.hslParts) := by
  have hself : ∀ s : String, toString s = s := fun _ => rfl
  unfold Color.hslText Rgba.formName Rgba.formArgs
  dsimp only
  split_ifs
  · simp [hself, callText, Rgba.hslParts, List.intercalate_cons_cons, String.toList_append]
  · simp [hself, callText, Rgba.hslParts, List.intercalate_cons_cons, String.toList_append,
      toList_alphaText h]

end

end CssColor
