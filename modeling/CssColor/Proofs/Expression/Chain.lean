import CssColor.Proofs.Expression.Language

/-! # Expressions without nesting

An expression has one base text inside all others (`innermost`) and one row of adjustments, those of
an inner expression before those of the outer one (`chain`). Its evaluation is that of this base
with this row (`evaluate_eq`), records included, so an inner expression may give both to the outer
one. Adjustments made one after the other are made in two parts (`adjust_append`). An amount that
was read is a number, if an infinite one (`Derives.numeric`). -/

namespace CssColor

open Number Number.Binary64 Text

/-! ### Reports in a row -/

instance : LawfulMonad Logged := LawfulMonad.mk' Logged
  (fun x => by
    show Logged.mk x.value (x.records ++ []) = x
    rw [List.append_nil])
  (fun a f => by
    show Logged.mk (f a).value ([] ++ (f a).records) = f a
    rw [List.nil_append])
  (fun x f g => by
    show Logged.mk _ ((x.records ++ _) ++ _) = Logged.mk _ (x.records ++ (_ ++ _))
    rw [List.append_assoc]
    rfl)

namespace Expression

variable {α : Type}

/-- The base text inside all others. -/
def innermost : Expression α → String
  | literal base _ => base
  | nested base _ => base.innermost

/-- The adjustments of all levels, from the inside out. -/
def chain : Expression α → List (Adjustment α)
  | literal _ adjustments => adjustments
  | nested base adjustments => base.chain ++ adjustments

/-! ### Evaluation -/

/-- Adjustments are made in two parts; a fault in the first is the fault of both. -/
theorem adjust_append (c : Color) (as bs : List (Adjustment Binary64)) :
    adjust c (as ++ bs) = adjust c as >>= (adjustResult · bs) := by
  induction as generalizing c with
  | nil =>
    rw [List.nil_append, adjust, pure_bind]
    rfl
  | cons a as ih =>
    rw [List.cons_append, adjust, adjust, bind_assoc]
    congr 1
    funext _
    cases a.apply Color.luminance c with
    | ok d => exact ih d
    | error f => rfl

theorem adjustResult_append (r : Except Fault Color) (as bs : List (Adjustment Binary64)) :
    adjustResult r (as ++ bs) = adjustResult r as >>= (adjustResult · bs) := by
  cases r with
  | ok c => exact adjust_append c as bs
  | error f => rfl

/-- **An expression is evaluated** as its innermost base with all adjustments in a row. -/
theorem evaluate_eq (e : Expression Binary64) :
    e.evaluate = adjustResult (evaluateLiteral e.innermost) e.chain := by
  induction e with
  | literal base as => rfl
  | nested base as ih =>
    rw [evaluate, ih, chain, adjustResult_append]
    rfl

/-! ### Nesting -/

/-- An expression with more adjustments behind its own. -/
def extend : Expression α → List (Adjustment α) → Expression α
  | literal base as, bs => literal base (as ++ bs)
  | nested base as, bs => nested base (as ++ bs)

/-- The expression that has its innermost base as a literal, and all adjustments in a row. -/
def flat (e : Expression α) : Expression α := literal e.innermost e.chain

theorem innermost_extend (e : Expression α) (as : List (Adjustment α)) :
    (e.extend as).innermost = e.innermost := by
  cases e <;> rfl

theorem chain_extend (e : Expression α) (as : List (Adjustment α)) :
    (e.extend as).chain = e.chain ++ as := by
  cases e with
  | literal base bs => rfl
  | nested base bs => exact (List.append_assoc _ _ _).symm

/-- **Nesting is composition.** An expression in another one may give its base and its adjustments,
these before the outer ones, to the outer one: color or fault and all records stay the same. So an
expression of any depth is evaluated as one without nesting, which is the same before and after. -/
theorem evaluate_nested (inner : Expression Binary64) (outer : List (Adjustment Binary64)) :
    (nested inner outer).evaluate = (inner.extend outer).evaluate ∧
      (nested inner outer).flat = (inner.extend outer).flat ∧
      ∀ e : Expression Binary64, e.evaluate = e.flat.evaluate := by
  have hflat : (nested inner outer).flat = (inner.extend outer).flat := by
    rw [flat, flat, innermost_extend, chain_extend]
    rfl
  have hevaluate (e : Expression Binary64) : e.evaluate = e.flat.evaluate := evaluate_eq e
  exact ⟨by rw [hevaluate, hflat, ← hevaluate], hflat, hevaluate⟩

/-! ### One adjustment of a row -/

section

variable {c d : Color} {a : Adjustment Binary64} (as : List (Adjustment Binary64))

theorem value_adjust_of_ok (h : a.apply Color.luminance c = .ok d) :
    (adjust c (a :: as)).value = (adjust d as).value := by
  rw [adjust, Logged.value_bind, h]

theorem value_adjust_of_error {f : Fault} (h : a.apply Color.luminance c = .error f) :
    (adjust c (a :: as)).value = .error f := by
  rw [adjust, Logged.value_bind, h, Logged.value_pure]

end

/-- The first adjustment is made to the color itself, the others to what it leads to. -/
theorem value_adjust_cons {c d : Color} {a : Adjustment Binary64}
    {as : List (Adjustment Binary64)} (h : (adjust c (a :: as)).value = .ok d) :
    ∃ b, a.apply Color.luminance c = .ok b ∧ (adjust b as).value = .ok d := by
  cases ha : a.apply Color.luminance c with
  | error f =>
    rw [value_adjust_of_error as ha] at h
    cases h
  | ok b => exact ⟨b, rfl, (value_adjust_of_ok as ha).symm.trans h⟩

/-- Where all adjustments can be made, so can the first of them. -/
theorem value_adjust_append {c d : Color} {as bs : List (Adjustment Binary64)}
    (h : (adjust c (as ++ bs)).value = .ok d) :
    ∃ b, (adjust c as).value = .ok b ∧ (adjust b bs).value = .ok d := by
  rw [adjust_append, Logged.value_bind] at h
  cases hb : (adjust c as).value with
  | error f =>
    rw [hb] at h
    cases h
  | ok b =>
    rw [hb] at h
    exact ⟨b, rfl, h⟩

/-- What one more adjustment does to the color so far. -/
theorem value_adjust_concat {c d : Color} {as : List (Adjustment Binary64)}
    {a : Adjustment Binary64} (h : (adjust c (as ++ [a])).value = .ok d) :
    ∃ b, (adjust c as).value = .ok b ∧ a.apply Color.luminance b = .ok d := by
  obtain ⟨b, hb, hlast⟩ := value_adjust_append h
  obtain ⟨d', ha, hd⟩ := value_adjust_cons hlast
  obtain rfl := Except.ok.inj hd
  exact ⟨b, hb, ha⟩

/-! ### Amounts that were read -/

/-- The amounts of adjustments, where there are some, are numbers. -/
def Numeric (as : List (Adjustment Binary64)) : Prop :=
  ∀ a ∈ as, ∀ x, a.amount = some x → x.value.IsNumber

theorem AmountText.isNumber {a : Amount Binary64} {t : List Char} (h : AmountText a t) :
    a.value.IsNumber := by
  obtain ⟨-, -, -, -⟩ := h
  exact Decimal.isNumber_applySign _ (isNumber_ofRat _)

theorem AdjustmentsText.numeric {as : List (Adjustment Binary64)} {ts : List Char}
    (h : AdjustmentsText as ts) : Numeric as := by
  induction h with
  | nil => simp [Numeric]
  | cons hb ha has ih =>
    intro a hmem x hx
    rcases List.mem_cons.mp hmem with rfl | hmem
    · obtain ⟨-, -, -, -, hamount, -⟩ := ha
      cases hx
      cases hamount with
      | present hamount => exact hamount.isNumber
    · exact ih a hmem x hx

theorem TailText.numeric {as : List (Adjustment Binary64)} {s : List Char} (h : TailText as s) :
    Numeric as := by
  obtain ⟨ha, -⟩ := h
  exact ha.numeric

theorem Derives.numeric {e : Expression Binary64} {t : List Char} (h : Derives e t) :
    Numeric e.chain := by
  induction h with
  | nested ho ht hs ih =>
    intro a hmem
    exact (List.mem_append.mp hmem).elim (ih a) (hs.numeric a)
  | functional ho ht hs => exact hs.numeric
  | token ho ht hmax hs => exact hs.numeric

end Expression
end CssColor
