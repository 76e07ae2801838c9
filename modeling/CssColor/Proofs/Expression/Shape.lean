import CssColor.Proofs.Expression.Chain
import CssColor.Proofs.Expression.Names

/-! # When an expression evaluates

Whether an adjustment can be made lies in how it is written, not in the color it is made to: it is
`WellShaped`, or it `Offends` by an unknown name, a modifier or a missing amount
(`Adjustment.apply_eq_error_iff`). Along a row of adjustments the first one that offends gives the
fault (`value_adjust_eq_error_iff`), by induction on the row. So an expression has a color exactly
if its innermost base is one that expressions take and all its adjustments are well shaped, and else
the fault of the first of them that is at fault, from the inside out. -/

namespace CssColor

open Number Number.Binary64 Expression

/-! ### Names -/

/-- The names and letters of all adjusters. -/
def Adjuster.names : List String :=
  ["alpha", "a", "hue", "h", "saturation", "s", "lightness", "l", "whiteness", "w", "blackness", "b",
    "red", "green", "blue", "tint", "shade", "contrast"]

/-- The adjusters that take a plain amount only. -/
def Adjuster.mixtures : List String := ["tint", "shade", "contrast"]

namespace Adjuster

theorem ofName?_eq_none_iff {name : String} : ofName? name = none ↔ name ∉ names := by
  have hfound : ∀ n ∈ names, ofName? n ≠ none := by decide
  have hlisted (a : Adjuster) : a.name ∈ names ∧ ∀ l ∈ a.letter?, l ∈ names := by
    cases a with
    | channel c => cases c <;> decide
    | tint | shade | contrast => decide
  constructor
  · exact fun hnone hmem => hfound name hmem hnone
  · intro hmem
    cases ha : ofName? name with
    | none => rfl
    | some a =>
      rcases ofName?_eq_some_iff.mp ha with rfl | hletter
      · exact absurd (hlisted a).1 hmem
      · exact absurd ((hlisted a).2 name hletter) hmem

theorem mem_names {name : String} {a : Adjuster} (h : ofName? name = some a) : name ∈ names := by
  by_contra hmem
  rw [ofName?_eq_none_iff.mpr hmem] at h
  cases h

theorem mem_names_of_mem_mixtures {name : String} (h : name ∈ mixtures) : name ∈ names := by
  have hlisted : ∀ n ∈ mixtures, n ∈ names := by decide
  exact hlisted name h

/-- A name of a channel is none of a mixture. -/
theorem not_mem_mixtures {name : String} {c : Channel} (h : ofName? name = some (.channel c)) :
    name ∉ mixtures := by
  have hmixture : ∀ n ∈ mixtures, ∀ c, ofName? n ≠ some (.channel c) := by
    intro n hn c
    simp only [mixtures, List.mem_cons, List.not_mem_nil, or_false] at hn
    rcases hn with rfl | rfl | rfl <;> cases c <;> decide
  exact fun hmem => hmixture name hmem c h

/-- An adjuster without a letter goes by its name only. -/
theorem eq_name {name : String} {a : Adjuster} (h : ofName? name = some a) (hl : a.letter? = none) :
    name = a.name := by
  refine (ofName?_eq_some_iff.mp h).resolve_right ?_
  rw [hl]
  simp

end Adjuster

/-! ### One adjustment -/

namespace Adjustment

/-- An adjustment that can be made: its name is one of the names, it has an amount unless it is a
contrast, and a mixture has no modifier. -/
structure WellShaped (a : Adjustment Binary64) : Prop where
  known : a.name ∈ Adjuster.names
  amount : a.name ≠ "contrast" → a.amount ≠ none
  modifier : a.name ∈ Adjuster.mixtures → a.modifier = none

/-- The fault of an adjustment that cannot be made. Of a modifier in a mixture and a missing amount
the modifier counts. -/
inductive Offends (a : Adjustment Binary64) : Fault → Prop
  | unknown (hn : a.name ∉ Adjuster.names) : Offends a (.unknownAdjuster a.name)
  | modified (hn : a.name ∈ Adjuster.mixtures) (hm : a.modifier ≠ none) :
      Offends a (.expression (.modified a.name))
  | missing (hn : a.name ∈ Adjuster.names) (hc : a.name ≠ "contrast")
      (hm : a.name ∈ Adjuster.mixtures → a.modifier = none) (hx : a.amount = none) :
      Offends a (.expression (.missingAmount a.name))

variable {luminance : Color → Binary64} {a : Adjustment Binary64} {c d : Color} {f g : Fault}

theorem WellShaped.not_offends (h : a.WellShaped) : ¬a.Offends f := by
  intro ho
  cases ho with
  | unknown hn => exact hn h.known
  | modified hn hm => exact hm (h.modifier hn)
  | missing hn hc hm hx => exact h.amount hc hx

/-- An adjustment has one fault at most. -/
theorem Offends.unique (hf : a.Offends f) (hg : a.Offends g) : f = g := by
  cases hf with
  | unknown hn =>
    cases hg with
    | unknown => rfl
    | modified hn' => exact absurd (Adjuster.mem_names_of_mem_mixtures hn') hn
    | missing hn' => exact absurd hn' hn
  | modified hn hm =>
    cases hg with
    | unknown hn' => exact absurd (Adjuster.mem_names_of_mem_mixtures hn) hn'
    | modified => rfl
    | missing _ _ hm' => exact absurd (hm' hn) hm
  | missing hn _ hm =>
    cases hg with
    | unknown hn' => exact absurd hn hn'
    | modified hn' hm' => exact absurd (hm hn') hm'
    | missing => rfl

theorem offends_of_unmodified (hn : a.name ∈ Adjuster.mixtures) (h : a.unmodified = .error f) :
    a.Offends f := by
  unfold unmodified at h
  split_ifs at h with hm
  cases h
  exact .modified hn (Option.isSome_iff_ne_none.mp hm)

theorem offends_of_required (hn : a.name ∈ Adjuster.names) (hc : a.name ≠ "contrast")
    (hm : a.name ∈ Adjuster.mixtures → a.modifier = none) (h : a.required = .error f) :
    a.Offends f := by
  unfold required at h
  split at h
  · cases h
  · next hx =>
    cases h
    exact .missing hn hc hm hx

/-- A mixture with an amount is looked through for a modifier first, and then for its amount. -/
theorem offends_of_mixture {mixed : Amount Binary64 → Color} (hn : a.name ∈ Adjuster.mixtures)
    (hc : a.name ≠ "contrast")
    (h : (a.unmodified >>= fun _ => a.required >>= fun x => pure (mixed x)) = .error f) :
    a.Offends f := by
  rcases eq_error_or_of_bind h with h | ⟨_, hm, h⟩
  · exact offends_of_unmodified hn h
  rcases eq_error_or_of_bind h with h | ⟨x, -, h⟩
  · exact offends_of_required (Adjuster.mem_names_of_mem_mixtures hn) hc
      (fun _ => unmodified_eq_ok hm) h
  · cases h

/-- **What fails offends,** whatever color it was to be made to. -/
theorem offends_of_apply (h : a.apply luminance c = .error f) : a.Offends f := by
  unfold apply at h
  split at h
  · next hn =>
    cases h
    exact .unknown (Adjuster.ofName?_eq_none_iff.mp hn)
  · next hn =>
    have hmixture := Adjuster.not_mem_mixtures hn
    rcases eq_error_or_of_bind h with h | ⟨x, -, h⟩
    · refine offends_of_required (Adjuster.mem_names hn) (fun hc => ?_)
        (fun hm => absurd hm hmixture) h
      exact hmixture (by rw [hc]; decide)
    · cases h
  · next hn =>
    have hname : a.name = "tint" := Adjuster.eq_name hn rfl
    exact offends_of_mixture (by rw [hname]; decide) (by rw [hname]; decide) h
  · next hn =>
    have hname : a.name = "shade" := Adjuster.eq_name hn rfl
    exact offends_of_mixture (by rw [hname]; decide) (by rw [hname]; decide) h
  · next hn =>
    have hname : a.name = "contrast" := Adjuster.eq_name hn rfl
    rcases eq_error_or_of_bind h with h | ⟨_, -, h⟩
    · exact offends_of_unmodified (by rw [hname]; decide) h
    · cases h

/-- What was made was well shaped. -/
theorem Made.wellShaped (h : a.Made luminance c d) : a.WellShaped := by
  cases h with
  | channel hn hx =>
    exact ⟨Adjuster.mem_names hn, fun _ => by simp [hx],
      fun hm => absurd hm (Adjuster.not_mem_mixtures hn)⟩
  | tint hn hm hx => exact ⟨Adjuster.mem_names hn, fun _ => by simp [hx], fun _ => hm⟩
  | shade hn hm hx => exact ⟨Adjuster.mem_names hn, fun _ => by simp [hx], fun _ => hm⟩
  | contrast hn hm =>
    exact ⟨Adjuster.mem_names hn, fun hne => absurd (Adjuster.eq_name hn rfl) hne, fun _ => hm⟩

theorem apply_eq_error_iff : a.apply luminance c = .error f ↔ a.Offends f := by
  refine ⟨offends_of_apply, fun ho => ?_⟩
  cases h : a.apply luminance c with
  | ok d => exact absurd ho (made_of_apply h).wellShaped.not_offends
  | error g => rw [(offends_of_apply h).unique ho]

/-- **What is well shaped can be made,** and to every color, and nothing else can. -/
theorem exists_apply_iff : (∃ d, a.apply luminance c = .ok d) ↔ a.WellShaped := by
  constructor
  · rintro ⟨d, hd⟩
    exact (made_of_apply hd).wellShaped
  · intro hw
    cases h : a.apply luminance c with
    | ok d => exact ⟨d, rfl⟩
    | error f => exact absurd (offends_of_apply h) hw.not_offends

end Adjustment

/-! ### A row of adjustments -/

/-- The fault of the first adjustment in a row that has one. -/
def FirstOffence (as : List (Adjustment Binary64)) (f : Fault) : Prop :=
  ∃ before a after, as = before ++ a :: after ∧ (∀ b ∈ before, b.WellShaped) ∧ a.Offends f

theorem firstOffence_cons {a : Adjustment Binary64} {as : List (Adjustment Binary64)} {f : Fault} :
    FirstOffence (a :: as) f ↔ a.Offends f ∨ a.WellShaped ∧ FirstOffence as f := by
  constructor
  · rintro ⟨before, b, after, heq, hbefore, hb⟩
    cases before with
    | nil =>
      obtain ⟨rfl, -⟩ := List.cons.inj heq
      exact Or.inl hb
    | cons e before =>
      obtain ⟨rfl, hrest⟩ := List.cons.inj heq
      obtain ⟨ha, hbefore⟩ := List.forall_mem_cons.mp hbefore
      exact Or.inr ⟨ha, before, b, after, hrest, hbefore, hb⟩
  · rintro (ha | ⟨ha, before, b, after, rfl, hbefore, hb⟩)
    · exact ⟨[], a, as, rfl, by simp, ha⟩
    · exact ⟨a :: before, b, after, rfl, List.forall_mem_cons.mpr ⟨ha, hbefore⟩, hb⟩

section

variable {c : Color} {as : List (Adjustment Binary64)} {f : Fault}

/-- **A row of adjustments fails** with the fault of the first that offends. -/
theorem value_adjust_eq_error_iff : (adjust c as).value = .error f ↔ FirstOffence as f := by
  induction as generalizing c with
  | nil => simp [adjust, FirstOffence]
  | cons a as ih =>
    rw [firstOffence_cons, ← Adjustment.apply_eq_error_iff]
    cases ha : a.apply Color.luminance c with
    | ok d =>
      rw [value_adjust_of_ok as ha, ih]
      simp [Adjustment.exists_apply_iff.mp ⟨d, ha⟩]
    | error g =>
      have hno : ¬a.WellShaped := fun hw => hw.not_offends (Adjustment.offends_of_apply ha)
      rw [value_adjust_of_error as ha]
      simp [hno]

/-- A row of adjustments leads to a color exactly if all of them are well shaped. -/
theorem exists_value_adjust_iff : (∃ d, (adjust c as).value = .ok d) ↔ ∀ a ∈ as, a.WellShaped := by
  induction as generalizing c with
  | nil => simp [adjust]
  | cons a as ih =>
    rw [List.forall_mem_cons]
    cases ha : a.apply Color.luminance c with
    | ok d =>
      rw [value_adjust_of_ok as ha, ih]
      simp [Adjustment.exists_apply_iff.mp ⟨d, ha⟩]
    | error g =>
      have hno : ¬a.WellShaped := fun hw => hw.not_offends (Adjustment.offends_of_apply ha)
      rw [value_adjust_of_error as ha]
      simp [hno]

end

/-! ### Bases -/

/-- A base text that expressions take: a color that is not written with alpha digits. -/
def BaseTaken (text : String) : Prop :=
  ∃ c format, Color.read text = .ok (c, format) ∧ format ≠ .hex4 ∧ format ≠ .hex8

/-- The fault of a base text that expressions do not take. -/
inductive BaseRefused (text : String) : Fault → Prop
  | unread {f : ColorFault} (hr : Color.read text = .error f) : BaseRefused text (.color f)
  | alphaHex {c : Color} {format : Format} (hr : Color.read text = .ok (c, format))
      (hf : format = .hex4 ∨ format = .hex8) : BaseRefused text (.unsupportedBase text)

section

variable {text : String}

theorem isAlphaHex_iff {format : Format} :
    format.isAlphaHex = true ↔ format = .hex4 ∨ format = .hex8 := by
  cases format <;> decide

theorem exists_evaluateLiteral_iff : (∃ c, evaluateLiteral text = .ok c) ↔ BaseTaken text := by
  unfold evaluateLiteral BaseTaken
  cases Color.read text with
  | error f => simp
  | ok r =>
    obtain ⟨c, format⟩ := r
    by_cases hf : format = .hex4 ∨ format = .hex8
    · simp [isAlphaHex_iff.mpr hf]
      tauto
    · have hplain : format.isAlphaHex = false := by
        rw [Bool.eq_false_iff, ne_eq, isAlphaHex_iff]
        exact hf
      simpa [hplain] using hf

theorem evaluateLiteral_eq_error_iff {f : Fault} :
    evaluateLiteral text = .error f ↔ BaseRefused text f := by
  unfold evaluateLiteral
  constructor
  · intro h
    split at h
    · next hr =>
      cases h
      exact .unread hr
    · next hr =>
      split_ifs at h with hf
      cases h
      exact .alphaHex hr (isAlphaHex_iff.mp hf)
  · rintro (hr | ⟨hr, hf⟩)
    · rw [hr]
    · rw [hr]
      exact if_pos (isAlphaHex_iff.mpr hf)

end

/-! ### Expressions -/

/-- The fault of the innermost base, if it has one, and else of the first adjustment that offends,
in the order of evaluation. -/
def Expression.FirstFault (e : Expression Binary64) (f : Fault) : Prop :=
  BaseRefused e.innermost f ∨ BaseTaken e.innermost ∧ FirstOffence e.chain f

/-- **An expression has a color** exactly if its innermost base is a color that is not written with
alpha digits, and all adjustments, at every level, are well shaped. Otherwise it has the fault of
the first of these that is at fault. -/
theorem Expression.evaluates_iff (e : Expression Binary64) :
    ((∃ d, e.evaluate.value = .ok d) ↔ BaseTaken e.innermost ∧ ∀ a ∈ e.chain, a.WellShaped) ∧
      ∀ f, e.evaluate.value = .error f ↔ e.FirstFault f := by
  unfold FirstFault
  simp only [evaluate_eq, ← exists_evaluateLiteral_iff, ← evaluateLiteral_eq_error_iff]
  cases evaluateLiteral e.innermost with
  | ok c => simp [adjustResult, exists_value_adjust_iff, value_adjust_eq_error_iff]
  | error g => simp [adjustResult]

end CssColor
