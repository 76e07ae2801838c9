import CssColor.Expression.Evaluation
import CssColor.Proofs.Expression.Grammar
import CssColor.Proofs.Text.AnyCase
import CssColor.Proofs.Text.CharSet

/-! # The language of expressions

`Derives e t`: the text `t` may be written for the expression `e`. A base is an expression, a name
with a text in parentheses, or a token; `InOrder` says that of these the first possible was taken.
The order matters for one kind of text only, `color(…)` without inner parentheses, which may be an
expression and has the form of a color text. Names need no condition on their length, since a
parenthesis follows; a token has one.

The reader never takes back what it has taken. That nothing is missed by this is a fact about
parentheses: an expression and a color text at the front of the same text end at the same place
(`Derives.eq_of_functionalText`), and a token ends in front of no opening parenthesis
(`token_not_opened`). So the first alternative that is possible is also the only one that could lead
on. -/

namespace CssColor.Expression

open Number Number.Binary64 Text

/-! ### Expressions -/

/-- The word `color` in either case, an opening parenthesis and blanks. -/
inductive OpeningText : List Char → Prop
  | intro {word b : List Char} (hw : IsWord "color".toList word) (hb : IsBlanks b) :
      OpeningText (word ++ '(' :: b)

/-- A name, and a text without parentheses in parentheses. -/
inductive FunctionalText : List Char → Prop
  | intro {name content : List Char} (hn : IsRun isNameChar name)
      (hc : ∀ c ∈ content, isArgumentChar c = true) :
      FunctionalText (name ++ '(' :: (content ++ [')']))

/-- **What an expression may be written as.** A base is an expression, a functional color text, or
all the characters up to the first white space or parenthesis. -/
inductive Derives : Expression Binary64 → List Char → Prop
  | nested {base : Expression Binary64} {as : List (Adjustment Binary64)} {o t s : List Char}
      (ho : OpeningText o) (ht : Derives base t) (hs : TailText as s) :
      Derives (.nested base as) (o ++ (t ++ s))
  | functional {as : List (Adjustment Binary64)} {o t s : List Char} (ho : OpeningText o)
      (ht : FunctionalText t) (hs : TailText as s) :
      Derives (.literal (String.ofList t) as) (o ++ (t ++ s))
  | token {as : List (Adjustment Binary64)} {o t s : List Char} (ho : OpeningText o)
      (ht : IsRun isTokenChar t) (hmax : ∀ c ∈ s.head?, isTokenChar c = false)
      (hs : TailText as s) : Derives (.literal (String.ofList t) as) (o ++ (t ++ s))

/-- The order of the alternatives for a base: one that may be an expression is not taken for a color
text. -/
def InOrder : Expression Binary64 → Prop
  | .literal base _ => ¬∃ e, Derives e base.toList
  | .nested base _ => base.InOrder

/-! ### Classes of characters -/

theorem isArgumentChar_of_isNameChar {c : Char} (h : isNameChar c = true) :
    isArgumentChar c = true := by
  rw [isArgumentChar, Bool.and_eq_true, decide_eq_true_eq, decide_eq_true_eq]
  constructor <;> rintro rfl <;> exact absurd h (by decide)

theorem isArgumentChar_of_isTokenChar {c : Char} (h : isTokenChar c = true) :
    isArgumentChar c = true := by
  simp only [isTokenChar, Bool.and_eq_true, isArgumentChar] at h ⊢
  exact ⟨h.1.2, h.2⟩

theorem isArgumentChar_of_isBlank {c : Char} (h : isBlank c = true) : isArgumentChar c = true := by
  rw [isArgumentChar, Bool.and_eq_true, decide_eq_true_eq, decide_eq_true_eq]
  constructor <;> rintro rfl <;> exact absurd h (by decide)

theorem isTokenChar_of_isNameChar {c : Char} (h : isNameChar c = true) : isTokenChar c = true := by
  have hspace : isSpace c = false := by
    rw [Bool.eq_false_iff]
    intro hs
    simp only [isNameChar, isAlphanumeric_of_isSpace hs, Bool.false_or, Bool.or_eq_true,
      decide_eq_true_eq] at h
    rcases h with rfl | rfl <;> exact absurd hs (by decide)
  have harg := isArgumentChar_of_isNameChar h
  simpa [isTokenChar, isArgumentChar, hspace] using harg

theorem caseBlind_isTokenChar : CaseBlind isTokenChar := caseBlind_of_ascii (by decide)

theorem isTokenChar_of_mem_word {word : List Char} (h : IsWord "color".toList word) :
    ∀ c ∈ word, isTokenChar c = true := by
  intro c hc
  have hsmall : "color".toList.all isTokenChar = true := by decide
  have hlow : c.toLower ∈ "color".toList := h ▸ List.mem_map_of_mem hc
  rw [← caseBlind_isTokenChar c]
  exact List.all_eq_true.mp hsmall _ hlow

theorem isBlank_of_isTokenChar {c : Char} (h : isTokenChar c = true) : isBlank c = false := by
  simp only [isTokenChar, Bool.and_eq_true, Bool.not_eq_true'] at h
  exact isBlank_of_isSpace_eq_false h.1.1

/-! ### Beginnings of parts -/

theorem OpeningText.head? {o : List Char} (h : OpeningText o) (rest : List Char) :
    ∀ c ∈ (o ++ rest).head?, isTokenChar c = true := by
  obtain ⟨hw, -⟩ := h
  rw [List.append_assoc]
  refine head?_isRun ⟨?_, isTokenChar_of_mem_word hw⟩
  rintro rfl
  cases hw

theorem FunctionalText.head? {t : List Char} (h : FunctionalText t) (rest : List Char) :
    ∀ c ∈ (t ++ rest).head?, isBlank c = false := by
  obtain ⟨hn, -⟩ := h
  intro c hc
  rw [List.append_assoc] at hc
  exact isBlank_of_isNameChar (head?_isRun hn c hc)

theorem Derives.head? {e : Expression Binary64} {t : List Char} (h : Derives e t)
    (rest : List Char) : ∀ c ∈ (t ++ rest).head?, isBlank c = false := by
  have hopening : ∀ {o more : List Char}, OpeningText o →
      ∀ c ∈ (o ++ more ++ rest).head?, isBlank c = false := by
    intro o more ho c hc
    rw [List.append_assoc] at hc
    exact isBlank_of_isTokenChar (ho.head? _ c hc)
  cases h with
  | nested ho => exact hopening ho
  | functional ho => exact hopening ho
  | token ho => exact hopening ho

theorem head?_blanks {b rest : List Char} (hb : IsBlanks b) {c : Char}
    (h : c ∈ (b ++ rest).head?) : isBlank c = true ∨ c ∈ rest.head? := by
  cases b with
  | nil => exact Or.inr h
  | cons d ds => exact Or.inl (hb c (Option.some.inj h ▸ List.mem_cons_self))

/-- What follows a base does not open. -/
theorem TailText.head?_ne {as : List (Adjustment Binary64)} {s : List Char} (h : TailText as s) :
    s.head? ≠ some '(' := by
  intro hopen
  obtain ⟨ha, hb⟩ := h
  cases ha with
  | nil =>
    rcases head?_blanks hb hopen with hblank | hclose
    · exact absurd hblank (by decide)
    · exact absurd hclose (by decide)
  | cons hblanks hadj _ =>
    rw [List.append_assoc, List.append_assoc] at hopen
    rcases head?_blanks hblanks hopen with hblank | hname
    · exact absurd hblank (by decide)
    · exact absurd (hadj.head? _ _ hname) (by decide)

theorem TailText.ne_nil {as : List (Adjustment Binary64)} {s : List Char} (h : TailText as s) :
    s ≠ [] := by
  obtain ⟨-, -⟩ := h
  simp

/-! ### The readers of a base -/

theorem readOpening_eq_ok {cs rest : List Char} :
    readOpening cs = .ok rest ↔ ∃ word, cs = word ++ '(' :: rest ∧ IsWord "color".toList word := by
  unfold readOpening
  constructor
  · intro h
    split at h
    · next more hword =>
      obtain ⟨word, hcs, hw⟩ := afterStartAnyCase?_eq_some.mp hword
      exact ⟨word, by rw [hcs, readCharacter_eq_ok.mp h], hw⟩
    · cases h
  · rintro ⟨word, hcs, hw⟩
    rw [afterStartAnyCase?_eq_some.mpr ⟨word, hcs, hw⟩]
    exact readCharacter_eq_ok.mpr rfl

/-- What was opened is an opening and the text of the base. -/
theorem openingText_of_readOpening {cs opened : List Char} (h : readOpening cs = .ok opened) :
    ∃ o, cs = o ++ skipBlanks opened ∧ OpeningText o := by
  obtain ⟨word, hcs, hw⟩ := readOpening_eq_ok.mp h
  obtain ⟨b, hb, hblanks⟩ := exists_blanks opened
  refine ⟨word ++ '(' :: b, ?_, .intro hw hblanks⟩
  rw [hcs, List.append_assoc, List.cons_append, ← hb]

theorem readFunctional_of_functionalText {t : List Char} (h : FunctionalText t)
    (rest : List Char) : readFunctional (t ++ rest) = .ok (t, rest) := by
  obtain ⟨hn, hc⟩ := h
  have hclose : ∀ c ∈ (')' :: rest).head?, isArgumentChar c = false :=
    forall_head?_cons (by decide) rest
  unfold readFunctional readName
  simp only [List.append_assoc, List.cons_append, List.nil_append]
  rw [readRun_of_isRun hn (forall_head?_cons (by decide) _)]
  simp only [bind, Except.bind, readCharacter, if_true, takeWhile_run hc hclose,
    dropWhile_run hc hclose]
  simp [pure, Except.pure]

theorem functionalText_of_readFunctional {cs t rest : List Char}
    (h : readFunctional cs = .ok (t, rest)) : cs = t ++ rest ∧ FunctionalText t := by
  unfold readFunctional at h
  obtain ⟨⟨name, r₁⟩, hname, hr₁⟩ := exists_of_bind_eq_ok h
  obtain ⟨r₂, hopen, hr₂⟩ := exists_of_bind_eq_ok hr₁
  obtain ⟨r₃, hclose, heq⟩ := exists_of_bind_eq_ok hr₂
  obtain ⟨rfl, rfl⟩ := Prod.mk.inj (Except.ok.inj heq)
  obtain ⟨hcs, hn, -⟩ := isRun_of_readRun hname
  have hsplit := List.takeWhile_append_dropWhile (p := isArgumentChar) (l := r₂)
  rw [readCharacter_eq_ok.mp hclose] at hsplit
  refine ⟨?_, ?_⟩
  · rw [hcs, readCharacter_eq_ok.mp hopen]
    simp [hsplit]
  · rw [List.append_assoc, List.cons_append]
    exact .intro hn fun _ => List.mem_takeWhile_imp

/-- A base that is a color text, with what follows it. -/
theorem text_of_readLiteral {cs t rest : List Char} (h : readLiteral cs = .ok (t, rest)) :
    cs = t ++ rest ∧
      (FunctionalText t ∨ IsRun isTokenChar t ∧ ∀ c ∈ rest.head?, isTokenChar c = false) := by
  unfold readLiteral at h
  split at h
  · next r hf =>
    cases h
    obtain ⟨hcs, ht⟩ := functionalText_of_readFunctional hf
    exact ⟨hcs, Or.inl ht⟩
  · obtain ⟨hcs, ht⟩ := isRun_of_readRun h
    exact ⟨hcs, Or.inr ht⟩

/-- An expression begins with its base, which is tried as an expression first. -/
theorem readFront_of_readOpening {cs opened : List Char} (h : readOpening cs = .ok opened) :
    readFront cs = match readFront (skipBlanks opened) with
      | .ok (base, rest) => readTail (.nested base) rest
      | .error _ =>
        match readLiteral (skipBlanks opened) with
        | .ok (base, rest) => readTail (.literal (String.ofList base)) rest
        | .error m => .error m := by
  rw [readFront]
  split
  · next heq =>
    rw [h] at heq
    cases heq
  · next heq =>
    rw [h] at heq
    cases heq
    rfl

theorem readFront_of_openingText {o cs : List Char} (h : OpeningText o)
    (hcs : ∀ c ∈ cs.head?, isBlank c = false) :
    readFront (o ++ cs) = match readFront cs with
      | .ok (base, rest) => readTail (.nested base) rest
      | .error _ =>
        match readLiteral cs with
        | .ok (base, rest) => readTail (.literal (String.ofList base)) rest
        | .error m => .error m := by
  obtain ⟨hw, hb⟩ := h
  rw [List.append_assoc, List.cons_append,
    readFront_of_readOpening (readOpening_eq_ok.mpr ⟨_, rfl, hw⟩), skipBlanks_run hb hcs]

/-! ### What is read is derived -/

/-- **What is read off the front of a text** is derived. -/
theorem derives_of_readFront {e : Expression Binary64} {cs rest : List Char}
    (h : readFront cs = .ok (e, rest)) : ∃ t, cs = t ++ rest ∧ Derives e t := by
  fun_induction readFront cs generalizing e rest with
  | case1 cs m => cases h
  | case2 cs opened hopen hlt base r hbase ih =>
    obtain ⟨o, hcs, ho⟩ := openingText_of_readOpening hopen
    obtain ⟨t, ht, hd⟩ := ih hbase
    obtain ⟨as, s, hs, htail, rfl⟩ := tailText_of_readTail h
    refine ⟨o ++ (t ++ s), ?_, .nested ho hd htail⟩
    rw [hcs, ht, hs]
    simp
  | case3 cs opened hopen hlt m hbase base r hlit ih =>
    obtain ⟨o, hcs, ho⟩ := openingText_of_readOpening hopen
    obtain ⟨hbase, hkind⟩ := text_of_readLiteral hlit
    obtain ⟨as, s, hs, htail, rfl⟩ := tailText_of_readTail h
    refine ⟨o ++ (base ++ s), ?_, ?_⟩
    · rw [hcs, hbase, hs]
      simp
    · rcases hkind with hf | ⟨hrun, hstop⟩
      · exact .functional ho hf htail
      · rw [hs, List.head?_append_of_ne_nil _ htail.ne_nil] at hstop
        exact .token ho hrun hstop htail
  | case4 => cases h

/-! ### Where a base ends -/

/-- The first parenthesis of a text opens. -/
def Opens (cs : List Char) : Prop :=
  ∃ v rest, cs = v ++ '(' :: rest ∧ ∀ c ∈ v, isArgumentChar c = true

theorem Opens.append {v cs : List Char} (hv : ∀ c ∈ v, isArgumentChar c = true) (h : Opens cs)
    (rest : List Char) : Opens (v ++ (cs ++ rest)) := by
  obtain ⟨w, more, rfl, hw⟩ := h
  refine ⟨v ++ w, more ++ rest, by simp, fun c hc => ?_⟩
  exact (List.mem_append.mp hc).elim (hv c) (hw c)

/-- A text without parentheses that is closed does not open first. -/
theorem not_opens {v : List Char} (hv : ∀ c ∈ v, isArgumentChar c = true) (rest : List Char) :
    ¬Opens (v ++ ')' :: rest) := by
  rintro ⟨w, more, heq, hw⟩
  have hdrop := congrArg (List.dropWhile isArgumentChar) heq
  rw [dropWhile_run hv (forall_head?_cons (by decide) _),
    dropWhile_run hw (forall_head?_cons (by decide) _)] at hdrop
  exact absurd (List.cons.inj hdrop).1 (by decide)

theorem FunctionalText.opens {t : List Char} (h : FunctionalText t) : Opens t := by
  obtain ⟨hn, -⟩ := h
  exact ⟨_, _, rfl, fun c hc => isArgumentChar_of_isNameChar (hn.2 c hc)⟩

theorem OpeningText.opens {o : List Char} (h : OpeningText o) : Opens o := by
  obtain ⟨hw, -⟩ := h
  exact ⟨_, _, rfl, fun c hc =>
    isArgumentChar_of_isTokenChar (isTokenChar_of_mem_word hw c hc)⟩

theorem Derives.opens {e : Expression Binary64} {t : List Char} (h : Derives e t) : Opens t := by
  have happend : ∀ {o rest : List Char}, OpeningText o → Opens (o ++ rest) := fun ho =>
    ho.opens.append (v := []) (by simp) _
  cases h with
  | nested ho => exact happend ho
  | functional ho => exact happend ho
  | token ho => exact happend ho

/-- Behind a token the closing parenthesis comes first, unless there are adjustments. -/
theorem TailText.cases {as : List (Adjustment Binary64)} {s : List Char} (h : TailText as s) :
    (∃ b, s = b ++ [')'] ∧ IsBlanks b) ∨ Opens s := by
  obtain ⟨ha, hb⟩ := h
  cases ha with
  | nil => exact Or.inl ⟨_, rfl, hb⟩
  | cons hblanks hadj _ =>
    obtain ⟨hn, -, -, -, -, -⟩ := hadj
    refine Or.inr ?_
    rw [List.append_assoc, List.append_assoc]
    refine Opens.append (fun c hc => isArgumentChar_of_isBlank (hblanks c hc)) ⟨_, _, rfl, ?_⟩ _
    exact fun c hc => isArgumentChar_of_isNameChar (hn.2 c hc)

/-- Behind its first parenthesis an expression opens another one, or has none but the last. -/
theorem Derives.exists_inner {e : Expression Binary64} {t : List Char} (h : Derives e t) :
    ∃ word inner, t = word ++ '(' :: inner ∧ IsWord "color".toList word ∧
      (Opens inner ∨ ∃ v, inner = v ++ [')'] ∧ ∀ c ∈ v, isArgumentChar c = true) := by
  have hblank : ∀ {b : List Char}, IsBlanks b → ∀ c ∈ b, isArgumentChar c = true :=
    fun hb c hc => isArgumentChar_of_isBlank (hb c hc)
  cases h with
  | nested ho ht hs =>
    obtain ⟨hw, hb⟩ := ho
    exact ⟨_, _, by rw [List.append_assoc, List.cons_append], hw,
      Or.inl (ht.opens.append (hblank hb) _)⟩
  | functional ho ht hs =>
    obtain ⟨hw, hb⟩ := ho
    exact ⟨_, _, by rw [List.append_assoc, List.cons_append], hw,
      Or.inl (ht.opens.append (hblank hb) _)⟩
  | @token as o t s ho ht hmax hs =>
    obtain ⟨hw, hb⟩ := ho
    have ht' : ∀ c ∈ t, isArgumentChar c = true := fun c hc =>
      isArgumentChar_of_isTokenChar (ht.2 c hc)
    refine ⟨_, _, by rw [List.append_assoc, List.cons_append], hw, ?_⟩
    rcases hs.cases with ⟨b', rfl, hb'⟩ | hopens
    · rw [← List.append_assoc t, ← List.append_assoc]
      refine Or.inr ⟨_, rfl, fun c hc => ?_⟩
      rcases List.mem_append.mp hc with hc | hc
      · exact hblank hb c hc
      · exact (List.mem_append.mp hc).elim (ht' c) (hblank hb' c)
    · have hinner := (hopens.append ht' []).append (hblank hb) []
      simp only [List.append_nil] at hinner
      exact Or.inl hinner

/-- An expression in front of a text that begins with a functional color text is this text: both
end at the first closing parenthesis. -/
theorem Derives.eq_of_functionalText {e : Expression Binary64} {t u rest rest' : List Char}
    (h : Derives e u) (ht : FunctionalText t) (heq : t ++ rest = u ++ rest') : u = t := by
  suffices hrest : rest' = rest by
    rw [hrest] at heq
    exact (List.append_cancel_right heq).symm
  obtain ⟨word, inner, rfl, hword, hinner⟩ := h.exists_inner
  obtain ⟨hn, hc⟩ := ht
  have hsplit := congrArg (splitFirst? '(') heq
  simp only [List.append_assoc, List.cons_append, List.nil_append] at hsplit
  rw [splitFirst?_run fun hmem => absurd (hn.2 _ hmem) (by decide), splitFirst?_run fun hmem =>
    absurd (isTokenChar_of_mem_word hword _ hmem) (by decide)] at hsplit
  have htail := (Prod.mk.inj (Option.some.inj hsplit)).2
  rcases hinner with hopens | ⟨v, rfl, hv⟩
  · have hbad := hopens.append (v := []) (by simp) rest'
    rw [List.nil_append, ← htail] at hbad
    exact absurd hbad (not_opens hc rest)
  · have hdrop := congrArg (List.dropWhile isArgumentChar) htail
    rw [List.append_assoc, dropWhile_run hc (forall_head?_cons (by decide) _), List.cons_append,
      dropWhile_run hv (forall_head?_cons (by decide) _)] at hdrop
    exact (List.cons.inj hdrop).2.symm

/-- A parenthesis opens neither within a token nor right behind it. -/
theorem token_not_opened {as : List (Adjustment Binary64)} {w t s rest rest' : List Char}
    (ht : IsRun isTokenChar t) (hmax : ∀ c ∈ s.head?, isTokenChar c = false) (hs : TailText as s)
    (hw : ∀ c ∈ w, isTokenChar c = true) : t ++ (s ++ rest) ≠ w ++ '(' :: rest' := by
  intro heq
  have hopen := hs.head?_ne
  have hdrop := congrArg (List.dropWhile isTokenChar) heq
  have hhead : (s ++ rest).head? = s.head? := List.head?_append_of_ne_nil s hs.ne_nil
  rw [← hhead] at hmax hopen
  rw [dropWhile_run ht.2 hmax, dropWhile_run hw (forall_head?_cons (by decide) _)] at hdrop
  rw [hdrop] at hopen
  exact hopen rfl

/-- No expression begins where a token stands for the base. -/
theorem exists_readFront_error {as : List (Adjustment Binary64)} {t s : List Char}
    (ht : IsRun isTokenChar t) (hmax : ∀ c ∈ s.head?, isTokenChar c = false) (hs : TailText as s)
    (rest : List Char) : ∃ m, readFront (t ++ (s ++ rest)) = .error m := by
  cases hread : readFront (t ++ (s ++ rest)) with
  | error m => exact ⟨m, rfl⟩
  | ok r =>
    obtain ⟨u, hu, hd⟩ := derives_of_readFront hread
    obtain ⟨word, inner, rfl, hword, -⟩ := hd.exists_inner
    rw [List.append_assoc, List.cons_append] at hu
    exact absurd hu (token_not_opened ht hmax hs (isTokenChar_of_mem_word hword))

/-! ### What is derived is read -/

theorem readLiteral_of_functionalText {t : List Char} (h : FunctionalText t) (rest : List Char) :
    readLiteral (t ++ rest) = .ok (t, rest) := by
  rw [readLiteral, readFunctional_of_functionalText h]

theorem readLiteral_of_token {as : List (Adjustment Binary64)} {t s : List Char}
    (ht : IsRun isTokenChar t) (hmax : ∀ c ∈ s.head?, isTokenChar c = false) (hs : TailText as s)
    (rest : List Char) : readLiteral (t ++ (s ++ rest)) = .ok (t, s ++ rest) := by
  have hmax' : ∀ c ∈ (s ++ rest).head?, isTokenChar c = false := by
    rwa [List.head?_append_of_ne_nil s hs.ne_nil]
  cases hread : readFunctional (t ++ (s ++ rest)) with
  | error m => rw [readLiteral, hread]; exact readRun_of_isRun ht hmax'
  | ok r =>
    obtain ⟨functional, more⟩ := r
    obtain ⟨heq, hn, hc⟩ := functionalText_of_readFunctional hread
    rw [List.append_assoc, List.cons_append] at heq
    exact absurd heq (token_not_opened ht hmax hs fun c hc => isTokenChar_of_isNameChar (hn.2 c hc))

/-- **A derived text is read** at the front of any other, and as the expression it is derived as if
this minds the order. -/
theorem readFront_of_derives {e : Expression Binary64} {t : List Char} (h : Derives e t)
    (cs : List Char) : ∃ e', readFront (t ++ cs) = .ok (e', cs) ∧ (e.InOrder → e' = e) := by
  induction h generalizing cs with
  | @nested base as o t s ho ht hs ih =>
    obtain ⟨base', hread, horder⟩ := ih (s ++ cs)
    refine ⟨.nested base' as, ?_, fun h => by rw [horder h]⟩
    rw [List.append_assoc, List.append_assoc, readFront_of_openingText ho (ht.head? _), hread]
    exact readTail_of_tailText hs _ cs
  | @functional as o t s ho ht hs =>
    rw [List.append_assoc, List.append_assoc, readFront_of_openingText ho (ht.head? _),
      readLiteral_of_functionalText ht]
    cases hread : readFront (t ++ (s ++ cs)) with
    | error m => exact ⟨_, readTail_of_tailText hs _ cs, fun _ => rfl⟩
    | ok r =>
      obtain ⟨base, rest⟩ := r
      obtain ⟨u, hu, hd⟩ := derives_of_readFront hread
      obtain rfl := hd.eq_of_functionalText ht hu
      obtain rfl := List.append_cancel_left hu
      refine ⟨_, readTail_of_tailText hs _ cs, fun h => absurd ⟨base, ?_⟩ h⟩
      rwa [String.toList_ofList]
  | @token as o t s ho ht hmax hs =>
    obtain ⟨m, hm⟩ := exists_readFront_error ht hmax hs cs
    refine ⟨_, ?_, fun _ => rfl⟩
    rw [List.append_assoc, List.append_assoc, readFront_of_openingText ho fun c hc =>
      isBlank_of_isTokenChar (head?_isRun ht c hc), hm, readLiteral_of_token ht hmax hs]
    exact readTail_of_tailText hs _ cs

/-- A reader tries the alternatives in order. -/
theorem inOrder_of_readFront {e : Expression Binary64} {cs rest : List Char}
    (h : readFront cs = .ok (e, rest)) : e.InOrder := by
  fun_induction readFront cs generalizing e rest with
  | case1 cs m => cases h
  | case2 cs opened hopen hlt base r hbase ih =>
    obtain ⟨as, s, -, -, rfl⟩ := tailText_of_readTail h
    have hbaseOrder : base.InOrder := ih hbase
    exact hbaseOrder
  | case3 cs opened hopen hlt m hbase base r hlit ih =>
    obtain ⟨as, s, -, -, rfl⟩ := tailText_of_readTail h
    rintro ⟨e', hd⟩
    rw [String.toList_ofList] at hd
    obtain ⟨e'', hread, -⟩ := readFront_of_derives hd r
    rw [← (text_of_readLiteral hlit).1, hbase] at hread
    cases hread
  | case4 => cases h

/-! ### Whole texts -/

/-- Behind a part of a trimmed text there is more than white space, or nothing. -/
theorem eq_nil_of_trim_eq_nil {w t rest : List Char} (h : trim w = t ++ rest)
    (hrest : trim rest = []) : rest = [] := by
  by_contra hne
  obtain ⟨c, hc⟩ := Option.isSome_iff_exists.mp (List.getLast?_isSome.mpr hne)
  have hlast : (trim w).getLast? = some c := by
    rw [h, List.getLast?_append, hc]
    rfl
  rcases mem_trim_or (List.mem_of_getLast? hc) with hmem | hspace
  · rw [hrest] at hmem
    cases hmem
  · rw [getLast?_trim c hlast] at hspace
    cases hspace

theorem read_eq_ok_iff {text : String} {e : Expression Binary64} :
    read text = .ok e ↔ Derives e (trim text.toList) ∧ e.InOrder := by
  unfold read
  constructor
  · intro h
    split at h
    · cases h
    · next e' rest hread =>
      split_ifs at h with hrest
      cases h
      obtain ⟨t, ht, hd⟩ := derives_of_readFront hread
      have hnil := eq_nil_of_trim_eq_nil ht (List.isEmpty_iff.mp hrest)
      rw [hnil, List.append_nil] at ht
      exact ⟨ht ▸ hd, inOrder_of_readFront hread⟩
  · rintro ⟨hd, horder⟩
    obtain ⟨e', hread, heq⟩ := readFront_of_derives hd []
    rw [List.append_nil] at hread
    rw [hread, heq horder]
    rfl

theorem exists_error_of_read {text : String} {f : Fault} (h : read text = .error f) :
    ∃ m, f = .expression m := by
  unfold read at h
  split at h
  · cases h
    exact ⟨_, rfl⟩
  · split_ifs at h
    cases h
    exact ⟨_, rfl⟩

/-- **The grammar decides.** A text is read as an expression exactly if it is, without the white
space around it, derived as this expression in order; each derived text is derived in order as one
expression, and every other text is a fault in the expression. -/
theorem read_decides_grammar (text : String) :
    (∀ e, read text = .ok e ↔ Derives e (trim text.toList) ∧ e.InOrder) ∧
      ((∃! e, Derives e (trim text.toList) ∧ e.InOrder) ∨
        (¬∃ e, Derives e (trim text.toList)) ∧ ∃ f, read text = .error (.expression f)) := by
  refine ⟨fun e => read_eq_ok_iff, ?_⟩
  cases hread : read text with
  | ok e =>
    refine Or.inl ⟨e, read_eq_ok_iff.mp hread, fun e' h => ?_⟩
    rw [read_eq_ok_iff.mpr h] at hread
    exact Except.ok.inj hread
  | error f =>
    obtain ⟨m, rfl⟩ := exists_error_of_read hread
    refine Or.inr ⟨?_, m, rfl⟩
    rintro ⟨e, hd⟩
    obtain ⟨e', hfront, -⟩ := readFront_of_derives hd []
    rw [List.append_nil] at hfront
    rw [read, hfront] at hread
    cases hread

end CssColor.Expression
