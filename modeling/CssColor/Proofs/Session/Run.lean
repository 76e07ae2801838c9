import CssColor.Proofs.Session.Derived

/-! # Runs of a session

A `Command` is a call that may change a session, with its arguments; `perform` carries it out and
gives the answer, and `Effect` lists what it can do. A session is `Reachable` if commands lead to it
from a session that was started, whatever others do to its store. The derived fields of every
reachable session agree with a fresh computation: a started session is `Consistent`, and every
effect keeps it so (`Effect.keeps_consistent`). What else every effect keeps is kept by a run
(`Consistent.after_of_effect`). -/

namespace CssColor.Session

variable {σ : Type} [PreferenceStore σ]

/-! ### Commands -/

/-- A call that may change a session. -/
inductive Command where
  | setBase (text : String)
  | editPanel (target : String) (e : Edit)
  | setShortNames (useShortNames : Bool)
  | selectFormat (format : Option Format)
deriving DecidableEq, Repr

/-- What a call returns. -/
inductive Answer where
  /-- Whether the text was read. -/
  | typed (accepted : Bool)
  | done
  | failed (f : SessionFault)
deriving DecidableEq, Repr

/-- What a call that may fail returns. -/
def Answer.ofExcept : Except SessionFault Unit → Answer
  | .ok () => done
  | .error f => failed f

/-- **The answer to a command and the session after it.** -/
def perform (s : Session σ) : Command → Logged (Answer × Session σ)
  | .setBase text => do
    let (accepted, s') ← s.setBase text
    return (.typed accepted, s')
  | .editPanel target e => do
    let (answer, s') ← s.editPanel target e
    return (.ofExcept answer, s')
  | .setShortNames useShortNames => do
    let (answer, s') ← s.setShortNames useShortNames
    return (.ofExcept answer, s')
  | .selectFormat format => pure (.done, s.selectFormat format)

/-- The session after some commands. -/
def after (s : Session σ) (cs : List Command) : Session σ :=
  cs.foldl (fun s c => (s.perform c).value.2) s

theorem after_cons (s : Session σ) (c : Command) (cs : List Command) :
    s.after (c :: cs) = (s.perform c).value.2.after cs := rfl

theorem after_append (s : Session σ) (cs : List Command) (c : Command) :
    s.after (cs ++ [c]) = ((s.after cs).perform c).value.2 := by
  simp [after]

/-- A session that commands lead to from a new session or from one opened by a link, whatever
happens to its store meanwhile. -/
inductive Reachable : Session σ → Prop
  | start {settings : Settings} {store : σ} {evaluator : Evaluator} {s : Session σ}
      (h : (start settings store evaluator).value = .ok s) : Reachable s
  | openLink {settings : Settings} {store : σ} {evaluator : Evaluator} {query : String}
      {fragment : Option String} {s : Session σ}
      (h : (openLink settings store evaluator query fragment).value = .ok s) : Reachable s
  | perform {s : Session σ} (h : Reachable s) (c : Command) : Reachable (s.perform c).value.2
  -- others may write to a store, and a write may change it although it fails
  | storeChanged {s : Session σ} (h : Reachable s) (store : σ) : Reachable { s with store }

theorem Reachable.after {s : Session σ} (h : Reachable s) (cs : List Command) :
    Reachable (s.after cs) := by
  induction cs generalizing s with
  | nil => exact h
  | cons c cs ih => exact ih (h.perform c)

/-! ### One command -/

theorem value_perform_setBase (s : Session σ) (text : String) :
    (s.perform (.setBase text)).value
      = (.typed (s.setBase text).value.1, (s.setBase text).value.2) := by
  rw [perform, Logged.value_bind]
  rfl

theorem value_perform_editPanel (s : Session σ) (target : String) (e : Edit) :
    (s.perform (.editPanel target e)).value
      = (.ofExcept (s.editPanel target e).value.1, (s.editPanel target e).value.2) := by
  rw [perform, Logged.value_bind]
  rfl

theorem value_perform_setShortNames (s : Session σ) (flag : Bool) :
    (s.perform (.setShortNames flag)).value
      = (.ofExcept (s.setShortNames flag).value.1, (s.setShortNames flag).value.2) := by
  rw [perform, Logged.value_bind]
  rfl

/-- **What a command does:** the answer and the session after it, by the outcome of what it
tries. -/
inductive Effect (s : Session σ) : Command → Answer → Session σ → Prop
  | accepted {text : String} {base : Swatch} {panel : Panel}
      (h : readBase text = .ok (base, panel)) :
      Effect s (.setBase text) (.typed true) (recomputed { s with baseInput := text, base, panel })
  | rejected {text : String} {f : ColorFault} (h : readBase text = .error f) :
      Effect s (.setBase text) (.typed false) { s with baseInput := text }
  | edited {target : String} {e : Edit} {panel : Panel}
      (h : s.panel.edit target e = (.ok (), panel)) :
      Effect s (.editPanel target e) .done (recomputed { s with panel })
  | editFailed {target : String} {e : Edit} {f : Fault}
      (h : (s.panel.edit target e).1 = .error f) :
      Effect s (.editPanel target e) (.failed (.color f)) s
  | kept {flag : Bool} {store : σ}
      (h : PreferenceStore.writeFlag s.store s.settings.shortNamesKey flag = .ok store) :
      Effect s (.setShortNames flag) .done { s with store, useShortNames := flag }
  | writeFailed {flag : Bool} {f : StoreFault}
      (h : PreferenceStore.writeFlag s.store s.settings.shortNamesKey flag = .error f) :
      Effect s (.setShortNames flag) (.failed (.store f)) s
  | chosen (format : Option Format) :
      Effect s (.selectFormat format) .done { s with selectedFormat := format }

/-- Every command has one of these effects on a session whose derived fields agree. -/
theorem Consistent.exists_effect {s : Session σ} (hs : s.Consistent) (c : Command) :
    ∃ a s', (s.perform c).value = (a, s') ∧ s.Effect c a s' := by
  cases c with
  | setBase text =>
    rw [value_perform_setBase]
    cases hr : readBase text with
    | ok r => exact ⟨_, _, by rw [value_setBase_of_read s hr], .accepted hr⟩
    | error f => exact ⟨_, _, by rw [value_setBase_of_error s hr], .rejected hr⟩
  | editPanel target e =>
    rw [value_perform_editPanel]
    cases he : (s.panel.edit target e).1 with
    | ok =>
      have hedit : s.panel.edit target e = (.ok (), (s.panel.edit target e).2) := Prod.ext he rfl
      exact ⟨_, _, by rw [value_editPanel_of_edit hs hedit]; rfl, .edited hedit⟩
    | error f => exact ⟨_, _, by rw [value_editPanel_of_error s he]; rfl, .editFailed he⟩
  | setShortNames flag =>
    rw [value_perform_setShortNames]
    cases hw : PreferenceStore.writeFlag s.store s.settings.shortNamesKey flag with
    | ok store => exact ⟨_, _, by rw [value_setShortNames_of_write s hw]; rfl, .kept hw⟩
    | error f => exact ⟨_, _, by rw [value_setShortNames_of_error s hw]; rfl, .writeFailed hw⟩
  | selectFormat format => exact ⟨_, _, rfl, .chosen format⟩

/-! ### What every command keeps -/

/-- A command that fails leaves the session as it was. -/
theorem Effect.eq_of_failed {s s' : Session σ} {c : Command} {f : SessionFault}
    (h : s.Effect c (.failed f) s') : s' = s := by
  cases h <;> rfl

/-- **Every command keeps the derived fields in agreement.** -/
theorem Effect.keeps_consistent {s s' : Session σ} {c : Command} {a : Answer} (h : s.Effect c a s')
    (hs : s.Consistent) : s'.Consistent := by
  obtain ⟨h1, h2, h3, h4, h5⟩ := id hs
  cases h with
  | accepted h => exact consistent_recomputed _
  | rejected h => exact ⟨h1, h2, h3, h4, h5⟩
  | edited h => exact consistent_recomputed _
  | editFailed h => exact hs
  | kept h => exact ⟨h1, h2, h3, h4, h5⟩
  | writeFailed h => exact hs
  | chosen format => exact ⟨h1, h2, h3, h4, h5⟩

/-- No command replaces the evaluator. -/
theorem Effect.evaluator_eq {s s' : Session σ} {c : Command} {a : Answer} (h : s.Effect c a s') :
    s'.evaluator = s.evaluator := by
  cases h <;> rfl

theorem Consistent.perform_failed {s : Session σ} (hs : s.Consistent) {c : Command}
    {f : SessionFault} (h : (s.perform c).value.1 = .failed f) : (s.perform c).value.2 = s := by
  obtain ⟨a, s', hv, he⟩ := hs.exists_effect c
  rw [hv] at h ⊢
  cases h
  exact he.eq_of_failed

/-- **What every effect keeps is kept by a run,** with the agreement of the derived fields. -/
theorem Consistent.after_of_effect {P : Session σ → Prop}
    (hstep : ∀ {s s' : Session σ} {c : Command} {a : Answer}, s.Effect c a s' → P s → P s')
    {s : Session σ} (hs : s.Consistent) (hp : P s) (cs : List Command) :
    (s.after cs).Consistent ∧ P (s.after cs) := by
  induction cs generalizing s with
  | nil => exact ⟨hs, hp⟩
  | cons c cs ih =>
    obtain ⟨a, s', h, he⟩ := hs.exists_effect c
    rw [after_cons, h]
    exact ih (he.keeps_consistent hs) (hstep he hp)

theorem Consistent.evaluator_after {s : Session σ} (hs : s.Consistent) (cs : List Command) :
    (s.after cs).evaluator = s.evaluator :=
  (hs.after_of_effect (P := fun t => t.evaluator = s.evaluator)
    (fun he ht => he.evaluator_eq.trans ht) rfl cs).2

/-! ### Reachable sessions -/

omit [PreferenceStore σ] in
/-- What holds of every reachable session: its derived fields agree, and its base was read. -/
structure Invariant (s : Session σ) : Prop extends Consistent s where
  exists_source : ∃ text, Swatch.read text = .ok s.base

theorem invariant_of_startOn {settings : Settings} {store : σ} {evaluator : Evaluator}
    {text : String} {s : Session σ} (h : (startOn settings store evaluator text).value = .ok s) :
    s.Invariant := by
  obtain ⟨base, panel, hr, rfl⟩ := exists_of_startOn_eq_ok h
  exact ⟨consistent_recomputed _, text, (readBase_eq_ok.mp hr).1⟩

/-- A session opened by a link is started on some base text. -/
theorem exists_startOn_of_openLink {settings : Settings} {store : σ} {evaluator : Evaluator}
    {query : String} {fragment : Option String} {s : Session σ}
    (h : (openLink settings store evaluator query fragment).value = .ok s) :
    ∃ text, (startOn settings store evaluator text).value = .ok s := by
  unfold openLink at h
  dsimp only at h
  split at h
  · rw [Logged.value_bind] at h
    exact ⟨_, h⟩
  · rw [Logged.value_bind] at h
    exact ⟨_, h⟩

/-- A new base is read from its text. -/
theorem Effect.keeps_invariant {s s' : Session σ} {c : Command} {a : Answer} (h : s.Effect c a s')
    (hs : s.Invariant) : s'.Invariant := by
  refine ⟨h.keeps_consistent hs.toConsistent, ?_⟩
  cases h with
  | accepted h => exact ⟨_, (readBase_eq_ok.mp h).1⟩
  | rejected h => exact hs.exists_source
  | edited h => exact hs.exists_source
  | editFailed h => exact hs.exists_source
  | kept h => exact hs.exists_source
  | writeFailed h => exact hs.exists_source
  | chosen format => exact hs.exists_source

theorem Invariant.perform {s : Session σ} (hs : s.Invariant) (c : Command) :
    (s.perform c).value.2.Invariant := by
  obtain ⟨a, s', h, he⟩ := hs.exists_effect c
  rw [h]
  exact he.keeps_invariant hs

omit [PreferenceStore σ] in
/-- Nothing is derived from the store. -/
theorem Invariant.storeChanged {s : Session σ} (hs : s.Invariant) (store : σ) :
    Invariant { s with store } := by
  obtain ⟨⟨h1, h2, h3, h4, h5⟩, hsource⟩ := hs
  exact ⟨⟨h1, h2, h3, h4, h5⟩, hsource⟩

theorem Reachable.invariant {s : Session σ} (h : Reachable s) : s.Invariant := by
  induction h with
  | start h => exact invariant_of_startOn h
  | openLink h =>
    obtain ⟨text, h⟩ := exists_startOn_of_openLink h
    exact invariant_of_startOn h
  | perform _ c ih => exact ih.perform c
  | storeChanged _ store ih => exact ih.storeChanged store

/-- **The derived fields of every reachable session agree** with a fresh computation from its base
and panel, whatever commands were given, and whether or not they failed. -/
theorem Reachable.consistent {s : Session σ} (h : Reachable s) : s.Consistent :=
  h.invariant.toConsistent

/-- A session can be started on every color text. -/
theorem exists_start {settings : Settings} (store : σ) (evaluator : Evaluator)
    (h : Swatch.isReadable settings.defaultBase = true) :
    ∃ s, (start settings store evaluator).value = .ok s := by
  obtain ⟨base, panel, hr⟩ := exists_readBase h
  exact ⟨_, value_startOn_of_read settings store evaluator hr⟩

/-- A session starts with the evaluator it is given. -/
theorem evaluator_of_start {settings : Settings} {store : σ} {evaluator : Evaluator} {s : Session σ}
    (h : (start settings store evaluator).value = .ok s) : s.evaluator = evaluator := by
  obtain ⟨base, panel, -, rfl⟩ := exists_of_startOn_eq_ok h
  rfl

theorem isReadable_default : Swatch.isReadable ({} : Settings).defaultBase = true := by
  decide

/-- A session with the defaults, after a change to its panel, a base that is none, a choice of names
and one of a form. -/
theorem consistent_of_defaults : ∃ s : Session MemoryStore,
    (start {} {} Evaluator.standard).value = .ok s ∧
      (s.after [.editPanel "hueValue" (.setValue "40"), .setBase "no color", .setShortNames true,
        .selectFormat (some .hsl)]).Consistent := by
  obtain ⟨s, hs⟩ := exists_start ({} : MemoryStore) Evaluator.standard isReadable_default
  exact ⟨s, hs, Reachable.consistent ((Reachable.start hs).after _)⟩

end CssColor.Session
