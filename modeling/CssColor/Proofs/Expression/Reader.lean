import CssColor.Proofs.Color.Call
import CssColor.Proofs.Expression.Language

/-! # Reading expressions that were put together

An expression text that was put together from a base (`IsBase`) and calls of adjusters with whole
numbers (`WholeCall`) is derived from these parts, with no other expression in its base, and so it
is read as them (`read_wrap`). Behind a functional color text any text at all is read as adjustments
and the closing parenthesis, or not at all (`read_wrap_eq_ok_iff`). -/

namespace CssColor.Expression

open Number Number.Binary64 Text

/-! ### Bases -/

/-- A text the language takes as a base: a token, or a functional form whose name does not begin as
`color` does. -/
inductive IsBase : List Char → Prop
  | token {w : List Char} (hne : w ≠ []) (h : ∀ c ∈ w, isTokenChar c = true) : IsBase w
  | call {name : List Char} {args : List (List Char)} (h : IsCall name args)
      (hc : ∀ c ∈ name.head?, c ≠ 'c') : IsBase (callText name args)

theorem isNameChar_of_isLower {c : Char} (h : c.isLower = true) : isNameChar c = true :=
  forall_ascii (P := fun c => c.isLower = true → isNameChar c = true) (by decide)
    (toNat_lt_of_isLower h) h

theorem functionalText_callText {name : List Char} {args : List (List Char)}
    (h : IsCall name args) : FunctionalText (callText name args) := by
  refine .intro ⟨h.name_ne_nil, fun c hc => isNameChar_of_isLower (h.isLower c hc)⟩ fun c hc => ?_
  obtain ⟨hopen, hclose⟩ := ne_paren_of_mem_arguments h hc
  simp [isArgumentChar, hopen, hclose]

/-- An expression begins with the word `color`, which a base does not. -/
theorem IsBase.not_derives {b : List Char} (h : IsBase b) (e : Expression Binary64) :
    ¬Derives e b := by
  intro hd
  obtain ⟨word, inner, hb, hword, -⟩ := hd.exists_inner
  cases h with
  | token hne ht =>
    have hopen := ht '(' (by rw [hb]; simp)
    exact absurd hopen (by decide)
  | @call name args hcall hc =>
    have hname : '(' ∉ name := fun hmem => absurd (hcall.isLower _ hmem) (by decide)
    have hword' : '(' ∉ word := fun hmem =>
      absurd (isTokenChar_of_mem_word hword _ hmem) (by decide)
    have hsplit := congrArg (splitFirst? '(') hb
    rw [callText, splitFirst?_run hname, splitFirst?_run hword'] at hsplit
    obtain ⟨rfl, -⟩ := Prod.mk.inj (Option.some.inj hsplit)
    obtain ⟨d, ds, rfl⟩ := List.exists_cons_of_ne_nil hcall.name_ne_nil
    have hlow : d.toLower = d := by
      have hplain := (isLower_spec (hcall.isLower d List.mem_cons_self)).1
      simp only [isPlain, Bool.and_eq_true, decide_eq_true_eq] at hplain
      exact hplain.2
    exact hc d rfl (hlow.symm.trans (List.cons.inj hword).1)

/-- A base with adjustments behind it, none of which runs on from a token. -/
theorem IsBase.derives {b s : List Char} {as : List (Adjustment Binary64)} (h : IsBase b)
    (hstop : ∀ c ∈ s.head?, isTokenChar c = false) (hs : TailText as s) :
    Derives (.literal (String.ofList b) as) ("color(".toList ++ (b ++ s)) := by
  have ho : OpeningText ("color".toList ++ ['(']) := .intro rfl (by simp [IsBlanks])
  cases h with
  | token hne ht => exact .token ho ⟨hne, ht⟩ hstop hs
  | call hcall hc => exact .functional ho (functionalText_callText hcall) hs

/-! ### Calls of adjusters -/

/-- A call of an adjuster with a whole number, in percent or without a unit. -/
structure WholeCall where
  name : List Char
  value : ℤ
  percent : Bool

namespace WholeCall

/-- The text of a call. -/
def text (w : WholeCall) : List Char :=
  w.name ++ '(' :: ((toString w.value).toList ++ ((if w.percent then ['%'] else []) ++ [')']))

/-- The number of a call as it is read. -/
def amount (w : WholeCall) : Amount Binary64 :=
  ⟨Decimal.applySign (w.value < 0) (Decimal.ofDecimal w.value.natAbs 0),
    if w.percent then .percent else .number⟩

/-- The adjustment a call stands for. -/
def adjustment (w : WholeCall) : Adjustment Binary64 := ⟨String.ofList w.name, none, some w.amount⟩

/-- The name is a word of small letters. -/
def Valid (w : WholeCall) : Prop := w.name ≠ [] ∧ ∀ c ∈ w.name, c.isLower = true

theorem amountText (w : WholeCall) :
    AmountText w.amount ((toString w.value).toList ++ if w.percent then ['%'] else []) := by
  have hsign : ∃ sign, SignText (decide (w.value < 0)) sign ∧
      (toString w.value).toList = sign ++ Nat.toDigits 10 w.value.natAbs := by
    rw [Decimal.toList_toString]
    split_ifs with h
    · rw [decide_eq_true h]
      exact ⟨['-'], .minus, rfl⟩
    · rw [decide_eq_false h]
      exact ⟨[], .absent, rfl⟩
  have hdigits : IsRun Char.isDigit (Nat.toDigits 10 w.value.natAbs) :=
    ⟨Nat.toDigits_ne_nil, fun _ => Decimal.isDigit_of_mem_digits⟩
  have hunit : UnitText (if w.percent then .percent else .number)
      (if w.percent then ['%'] else []) := by
    split_ifs
    · exact .percent
    · exact .number
  have hvalue : ofRat (decimalValue (Nat.toDigits 10 w.value.natAbs) [])
      = Decimal.ofDecimal w.value.natAbs 0 := by
    rw [← decimalValue_eq]
    simp [Decimal.ofParts, Decimal.natOfDigits_toDigits]
  obtain ⟨sign, hs, htext⟩ := hsign
  have h := AmountText.intro hs hdigits .absent hunit
  rw [hvalue] at h
  rw [htext, List.append_assoc]
  exact h

theorem adjustmentText {w : WholeCall} (h : w.Valid) : AdjustmentText w.adjustment w.text := by
  have hn : IsRun isNameChar w.name := ⟨h.1, fun c hc => isNameChar_of_isLower (h.2 c hc)⟩
  have hlower : lower w.name = w.name := lower_eq_self fun c hc => (isLower_spec (h.2 c hc)).1
  have hnone : IsBlanks [] := by simp [IsBlanks]
  have ht := AdjustmentText.intro hn hnone .absent hnone (.present w.amountText) hnone
  rw [hlower] at ht
  rw [text, ← List.append_assoc (toString w.value).toList]
  exact ht

end WholeCall

/-- The texts of some calls, each with a space in front. -/
def callsText (ws : List WholeCall) : List Char := ws.flatMap fun w => ' ' :: w.text

theorem adjustmentsText_callsText {ws : List WholeCall} (h : ∀ w ∈ ws, w.Valid) :
    AdjustmentsText (ws.map WholeCall.adjustment) (callsText ws) := by
  induction ws with
  | nil => exact .nil
  | cons w ws ih =>
    have hspace : IsBlanks [' '] := by simp [IsBlanks, isBlank]
    exact .cons hspace (WholeCall.adjustmentText (h w List.mem_cons_self))
      (ih fun v hv => h v (List.mem_cons_of_mem _ hv))

theorem isTokenChar_head?_callsText (ws : List WholeCall) :
    ∀ c ∈ (callsText ws ++ [')']).head?, isTokenChar c = false := by
  cases ws with
  | nil => exact forall_head?_cons (by decide) _
  | cons w ws => exact forall_head?_cons (by decide) _

/-! ### Expressions -/

theorem toList_wrap (base adjustments : String) : (wrap base adjustments).toList
    = "color(".toList ++ (base.toList ++ (adjustments.toList ++ [')'])) := by
  rw [wrap, String.toList_append, String.toList_append, String.toList_append]
  simp

theorem trim_wrap (base adjustments : String) :
    trim (wrap base adjustments).toList = (wrap base adjustments).toList := by
  rw [toList_wrap]
  refine trim_eq_self (forall_head?_cons (by decide) _) fun c hc => ?_
  rw [← List.append_assoc, ← List.append_assoc, List.getLast?_append] at hc
  rw [← Option.some.inj hc]
  decide

/-- **An expression put together** from a base and calls is read as these. -/
theorem read_wrap {base adjustments : String} (hb : IsBase base.toList) {ws : List WholeCall}
    (h : ∀ w ∈ ws, w.Valid) (ha : adjustments.toList = callsText ws) :
    read (wrap base adjustments) = .ok (.literal base (ws.map WholeCall.adjustment)) := by
  have htail : TailText (ws.map WholeCall.adjustment) (callsText ws ++ [')']) :=
    .intro (b := []) (adjustmentsText_callsText h) (by simp [IsBlanks])
  have hd := hb.derives (isTokenChar_head?_callsText ws) htail
  rw [String.ofList_toList] at hd
  rw [read_eq_ok_iff, trim_wrap, toList_wrap, ha]
  exact ⟨hd, not_exists.mpr hb.not_derives⟩

/-- **Behind a functional color text** that is no expression itself, a text is read as what follows
a base, whatever it is. -/
theorem read_wrap_eq_ok_iff {base adjustments : String} {e : Expression Binary64}
    (hf : FunctionalText base.toList) (hno : ¬∃ e, Derives e base.toList) :
    read (wrap base adjustments) = .ok e ↔
      ∃ as, e = .literal base as ∧ TailText as (adjustments.toList ++ [')']) := by
  have hopen : OpeningText ("color".toList ++ ['(']) := .intro rfl (by simp [IsBlanks])
  have ho : OpeningText "color(".toList := hopen
  rw [read_eq_ok_iff, trim_wrap, toList_wrap]
  constructor
  · rintro ⟨hd, horder⟩
    obtain ⟨e', hread, heq⟩ := readFront_of_derives hd []
    obtain rfl := heq horder
    rw [List.append_nil, readFront_of_openingText ho (hf.head? _),
      readLiteral_of_functionalText hf] at hread
    split at hread
    · next inner rest hinner =>
      -- an expression in front would end where the base does
      obtain ⟨u, hu, hinner'⟩ := derives_of_readFront hinner
      obtain rfl := hinner'.eq_of_functionalText hf hu
      exact absurd ⟨inner, hinner'⟩ hno
    · obtain ⟨as, s, hs, htail, rfl⟩ := tailText_of_readTail hread
      rw [List.append_nil] at hs
      rw [hs, String.ofList_toList]
      exact ⟨as, rfl, htail⟩
  · rintro ⟨as, rfl, htail⟩
    have hd := Derives.functional ho hf htail
    rw [String.ofList_toList] at hd
    exact ⟨hd, hno⟩

end CssColor.Expression
