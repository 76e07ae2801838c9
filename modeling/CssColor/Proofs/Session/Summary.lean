import CssColor.Proofs.Session.Run
import Mathlib.Data.List.Induction

/-! # What a run leaves of itself

The session after a run depends on a `Summary` of the run only: the last base text that was read and
the changes to the panel made after it, the last text typed, the choices of names that were kept,
and the last form chosen. `Summary.session?` builds a session from these alone, and it is the one
the run ends in (`session?_after`); in particular nothing is left of a command that failed, and of
a base before the last only what was kept in the store. -/

namespace CssColor.Session

variable {σ : Type} [PreferenceStore σ]

/-! ### Events -/

/-- A command with the answer to it. -/
abbrev Event := Command × Answer

/-- The events of a run. -/
def events (s : Session σ) : List Command → List Event
  | [] => []
  | c :: cs => (c, (s.perform c).value.1) :: events (s.perform c).value.2 cs

namespace Event

/-- The text of a base that was read. -/
def acceptedText? : Event → Option String
  | (.setBase text, .typed true) => some text
  | _ => none

/-- The text of a base, read or not. -/
def typedText? : Event → Option String
  | (.setBase text, _) => some text
  | _ => none

/-- A change to the panel that was made. -/
def madeEdit? : Event → Option (String × Edit)
  | (.editPanel target e, .done) => some (target, e)
  | _ => none

/-- A choice of names that was kept. -/
def keptFlag? : Event → Option Bool
  | (.setShortNames flag, .done) => some flag
  | _ => none

/-- A form that was chosen. -/
def chosenFormat? : Event → Option (Option Format)
  | (.selectFormat format, _) => some format
  | _ => none

end Event

/-! ### Summaries -/

/-- What the session after a run depends on. -/
structure Summary where
  /-- The last base text that was read. -/
  accepted : String
  /-- The changes made to the panel after that. -/
  edits : List (String × Edit)
  /-- The last base text that was typed. -/
  typed : String
  /-- The choices of names that were kept. -/
  flags : List Bool
  /-- The last form chosen. -/
  format : Option Format
deriving DecidableEq, Repr

open Event in
/-- The summary of a run, from the text it started on and its events. -/
def summary (start : String) (es : List Event) : Summary where
  accepted := (es.filterMap acceptedText?).getLast?.getD start
  edits := (es.reverse.takeWhile fun e => (acceptedText? e).isNone).reverse.filterMap madeEdit?
  typed := (es.filterMap typedText?).getLast?.getD start
  flags := es.filterMap keptFlag?
  format := (es.filterMap chosenFormat?).getLast?.getD none

/-- A panel after a change, which has to be possible. -/
def edited? (p : Panel) (target : String) (e : Edit) : Option Panel :=
  match p.edit target e with
  | (.ok (), p') => some p'
  | (.error _, _) => none

/-- A panel after some changes, all of which have to be possible. -/
def editAll? (p : Panel) (edits : List (String × Edit)) : Option Panel :=
  edits.foldlM (fun p e => edited? p e.1 e.2) p

/-- A store in which some choices of names were kept one after the other. -/
def writeAll? (store : σ) (key : String) (flags : List Bool) : Option σ :=
  flags.foldlM (fun store flag => (PreferenceStore.writeFlag store key flag).toOption) store

/-- The session with a summary, a base, a panel and a store, everything derived computed afresh. -/
def Summary.build (m : Summary) (settings : Settings) (kept : Bool) (evaluator : Evaluator)
    (base : Swatch) (panel : Panel) (store : σ) : Session σ :=
  recomputed {
    settings, store, evaluator, base, panel
    baseInput := m.typed
    baseContrast := ""
    expression := ""
    shortExpression := ""
    output := base
    outputContrast := ""
    useShortNames := m.flags.getLast?.getD kept
    selectedFormat := m.format }

/-- **The session of a summary:** the color of the accepted text as base, and the panel seeded from
that text and changed by the edits. -/
def Summary.session? (m : Summary) (settings : Settings) (store : σ) (evaluator : Evaluator) :
    Option (Session σ) := do
  let base ← (Swatch.read m.accepted).toOption
  let seeded ← (Panel.seeded {} m.accepted).toOption
  let panel ← editAll? seeded m.edits
  let written ← writeAll? store settings.shortNamesKey m.flags
  return m.build settings (keptShortNames settings store).value evaluator base panel written

/-! ### One more event -/

section

variable (start : String) (es : List Event)

theorem summary_accepted (text : String) :
    summary start (es ++ [(.setBase text, .typed true)])
      = { summary start es with accepted := text, edits := [], typed := text } := by
  simp [summary, Event.acceptedText?, Event.typedText?, Event.keptFlag?, Event.chosenFormat?]

theorem summary_rejected (text : String) :
    summary start (es ++ [(.setBase text, .typed false)])
      = { summary start es with typed := text } := by
  simp [summary, Event.acceptedText?, Event.madeEdit?, Event.typedText?, Event.keptFlag?,
    Event.chosenFormat?]

theorem summary_edited (target : String) (e : Edit) :
    summary start (es ++ [(.editPanel target e, .done)])
      = { summary start es with edits := (summary start es).edits ++ [(target, e)] } := by
  simp [summary, Event.acceptedText?, Event.madeEdit?, Event.typedText?, Event.keptFlag?,
    Event.chosenFormat?]

theorem summary_kept (flag : Bool) :
    summary start (es ++ [(.setShortNames flag, .done)])
      = { summary start es with flags := (summary start es).flags ++ [flag] } := by
  simp [summary, Event.acceptedText?, Event.madeEdit?, Event.typedText?, Event.keptFlag?,
    Event.chosenFormat?]

theorem summary_chosen (format : Option Format) :
    summary start (es ++ [(.selectFormat format, .done)])
      = { summary start es with format } := by
  simp [summary, Event.acceptedText?, Event.madeEdit?, Event.typedText?, Event.keptFlag?,
    Event.chosenFormat?]

theorem summary_failedEdit (target : String) (e : Edit) (f : SessionFault) :
    summary start (es ++ [(.editPanel target e, .failed f)]) = summary start es := by
  simp [summary, Event.acceptedText?, Event.madeEdit?, Event.typedText?, Event.keptFlag?,
    Event.chosenFormat?]

theorem summary_failedWrite (flag : Bool) (f : SessionFault) :
    summary start (es ++ [(.setShortNames flag, .failed f)]) = summary start es := by
  simp [summary, Event.acceptedText?, Event.madeEdit?, Event.typedText?, Event.keptFlag?,
    Event.chosenFormat?]

end

theorem events_append (s : Session σ) (cs : List Command) (c : Command) :
    s.events (cs ++ [c]) = s.events cs ++ [(c, ((s.after cs).perform c).value.1)] := by
  induction cs generalizing s with
  | nil => rfl
  | cons d cs ih =>
    have h := ih (s.perform d).value.2
    rw [List.cons_append, events, events, h, List.cons_append]
    rfl

/-! ### The session of a summary -/

section

variable {m : Summary} {settings : Settings} {store : σ} {evaluator : Evaluator} {s : Session σ}

theorem toOption_eq_some {ε α : Type} {x : Except ε α} {a : α} :
    x.toOption = some a ↔ x = .ok a := by
  cases x <;> simp [Except.toOption]

theorem session?_eq_some :
    m.session? settings store evaluator = some s ↔
      ∃ base seeded panel written, Swatch.read m.accepted = .ok base ∧
        Panel.seeded {} m.accepted = .ok seeded ∧ editAll? seeded m.edits = some panel ∧
        writeAll? store settings.shortNamesKey m.flags = some written ∧
        m.build settings (keptShortNames settings store).value evaluator base panel written
          = s := by
  unfold Summary.session?
  simp only [bind, Option.bind_eq_some_iff, pure, Option.some.injEq, toOption_eq_some]
  constructor
  · rintro ⟨base, hb, seeded, hs, panel, hp, written, hw, h⟩
    exact ⟨base, seeded, panel, written, hb, hs, hp, hw, h⟩
  · rintro ⟨base, seeded, panel, written, hb, hs, hp, hw, h⟩
    exact ⟨base, hb, seeded, hs, panel, hp, written, hw, h⟩

theorem consistent_of_session? (h : m.session? settings store evaluator = some s) :
    s.Consistent := by
  obtain ⟨base, seeded, panel, written, -, -, -, -, rfl⟩ := session?_eq_some.mp h
  exact consistent_recomputed _

theorem session?_accepted (h : m.session? settings store evaluator = some s) {text : String}
    {base : Swatch} {panel : Panel} (hr : readBase text = .ok (base, panel)) :
    Summary.session? { m with accepted := text, edits := [], typed := text } settings store
        evaluator
      = some (recomputed { s with baseInput := text, base, panel }) := by
  obtain ⟨-, -, -, written, -, -, -, hw, rfl⟩ := session?_eq_some.mp h
  obtain ⟨hb, hp⟩ := readBase_eq_ok.mp hr
  exact session?_eq_some.mpr ⟨base, panel, panel, written, hb, hp, rfl, hw, rfl⟩

theorem session?_rejected (h : m.session? settings store evaluator = some s) (text : String) :
    Summary.session? { m with typed := text } settings store evaluator
      = some { s with baseInput := text } := by
  obtain ⟨base, seeded, panel, written, hb, hs, hp, hw, rfl⟩ := session?_eq_some.mp h
  refine session?_eq_some.mpr ⟨base, seeded, panel, written, hb, hs, hp, hw, ?_⟩
  simp [Summary.build, recomputed]

theorem session?_edited (h : m.session? settings store evaluator = some s) {target : String}
    {e : Edit} {panel : Panel} (he : s.panel.edit target e = (.ok (), panel)) :
    Summary.session? { m with edits := m.edits ++ [(target, e)] } settings store evaluator
      = some (recomputed { s with panel }) := by
  obtain ⟨base, seeded, p, written, hb, hs, hp, hw, rfl⟩ := session?_eq_some.mp h
  have he' : edited? p target e = some panel := by
    have hp : p.edit target e = (.ok (), panel) := he
    unfold edited?
    rw [hp]
  have hall : editAll? seeded (m.edits ++ [(target, e)]) = some panel := by
    unfold editAll? at hp ⊢
    rw [List.foldlM_append, hp]
    simp [he']
  exact session?_eq_some.mpr ⟨base, seeded, panel, written, hb, hs, hall, hw, rfl⟩

theorem session?_kept (h : m.session? settings store evaluator = some s) {flag : Bool} {written : σ}
    (hw : PreferenceStore.writeFlag s.store s.settings.shortNamesKey flag = .ok written) :
    Summary.session? { m with flags := m.flags ++ [flag] } settings store evaluator
      = some { s with store := written, useShortNames := flag } := by
  obtain ⟨base, seeded, panel, before, hb, hs, hp, hf, rfl⟩ := session?_eq_some.mp h
  have hw' : PreferenceStore.writeFlag before settings.shortNamesKey flag = .ok written := hw
  have hall : writeAll? store settings.shortNamesKey (m.flags ++ [flag]) = some written := by
    unfold writeAll? at hf ⊢
    rw [List.foldlM_append, hf]
    simp [hw', Except.toOption]
  refine session?_eq_some.mpr ⟨base, seeded, panel, written, hb, hs, hp, hall, ?_⟩
  simp [Summary.build, recomputed]

theorem session?_chosen (h : m.session? settings store evaluator = some s)
    (format : Option Format) :
    Summary.session? { m with format } settings store evaluator
      = some { s with selectedFormat := format } := by
  obtain ⟨base, seeded, panel, written, hb, hs, hp, hw, rfl⟩ := session?_eq_some.mp h
  refine session?_eq_some.mpr ⟨base, seeded, panel, written, hb, hs, hp, hw, ?_⟩
  simp [Summary.build, recomputed]

/-- **One more command** leads from the session of a summary to that of the next. -/
theorem session?_perform {start : String} {es : List Event}
    (h : (summary start es).session? settings store evaluator = some s) (c : Command) :
    (summary start (es ++ [(c, (s.perform c).value.1)])).session? settings store evaluator
      = some (s.perform c).value.2 := by
  obtain ⟨a, s', hv, he⟩ := (consistent_of_session? h).exists_effect c
  rw [hv]
  cases he with
  | accepted hr => rw [summary_accepted]; exact session?_accepted h hr
  | rejected hr => rw [summary_rejected]; exact session?_rejected h _
  | edited he => rw [summary_edited]; exact session?_edited h he
  | editFailed he => rw [summary_failedEdit]; exact h
  | kept hw => rw [summary_kept]; exact session?_kept h hw
  | writeFailed hw => rw [summary_failedWrite]; exact h
  | chosen format => rw [summary_chosen]; exact session?_chosen h format

theorem session?_start {text : String}
    (h : (startOn settings store evaluator text).value = .ok s) :
    (summary text []).session? settings store evaluator = some s := by
  obtain ⟨base, panel, hr, rfl⟩ := exists_of_startOn_eq_ok h
  obtain ⟨hb, hp⟩ := readBase_eq_ok.mp hr
  exact session?_eq_some.mpr ⟨base, panel, panel, store, hb, hp, rfl, rfl, rfl⟩

/-- The session a run ends in is that of its summary. -/
theorem session?_after {text : String} (h : (startOn settings store evaluator text).value = .ok s)
    (cs : List Command) :
    (summary text (s.events cs)).session? settings store evaluator = some (s.after cs) := by
  induction cs using List.reverseRecOn with
  | nil => exact session?_start h
  | append_singleton cs c ih =>
    rw [events_append, after_append]
    exact session?_perform ih c

end

/-! ### A new base -/

omit [PreferenceStore σ] in
/-- Agreement in base, panel and everything derived from them. -/
structure AgreesWith (s t : Session σ) : Prop where
  base : s.base = t.base
  panel : s.panel = t.panel
  expression : s.expression = t.expression
  shortExpression : s.shortExpression = t.shortExpression
  output : s.output = t.output
  baseContrast : s.baseContrast = t.baseContrast
  outputContrast : s.outputContrast = t.outputContrast

omit [PreferenceStore σ] in
theorem agreesWith_recomputed {s t : Session σ} (hb : s.base = t.base) (hp : s.panel = t.panel)
    (he : s.evaluator = t.evaluator) : s.recomputed.AgreesWith t.recomputed := by
  unfold recomputed
  rw [hb, hp, he]
  exact ⟨rfl, rfl, rfl, rfl, rfl, rfl, rfl⟩

omit [PreferenceStore σ] in
theorem setBase_accepted (s : Session σ) (text : String) :
    (s.setBase text).value.1 = Swatch.isReadable text := by
  cases h : Swatch.isReadable text with
  | true =>
    obtain ⟨base, panel, hr⟩ := exists_readBase h
    rw [value_setBase_of_read s hr]
  | false =>
    obtain ⟨f, hr⟩ := exists_readBase_error h
    rw [value_setBase_of_error s hr]

omit [PreferenceStore σ] in
theorem setBase_rejected (s : Session σ) {text : String} (h : Swatch.isReadable text = false) :
    (s.setBase text).value.2 = { s with baseInput := text } := by
  obtain ⟨f, hr⟩ := exists_readBase_error h
  rw [value_setBase_of_error s hr]

/-- After a base that is read, nothing is left of what was done before. -/
theorem exists_start_agreesWith (s : Session σ) {text : String} (h : Swatch.isReadable text = true)
    (settings : Settings) (store : σ) :
    ∃ t, (start { settings with defaultBase := text } store s.evaluator).value = .ok t ∧
      (s.setBase text).value.2.AgreesWith t := by
  obtain ⟨base, panel, hr⟩ := exists_readBase h
  refine ⟨_, value_startOn_of_read _ store s.evaluator hr, ?_⟩
  rw [value_setBase_of_read s hr]
  exact agreesWith_recomputed rfl rfl rfl

/-! ### Runs -/

/-- **A run leaves no more than its summary,** from every starting color and for every evaluator:
the session it ends in is the one built from the last text that was read, the changes made since
then, the last text typed, the choices kept and the last form chosen. A base is accepted exactly
when it can be read. If it cannot, only the typed text changes; a command that fails changes
nothing; and after a base that is read, the session shows what a new one on that text does. -/
theorem after_eq_session_of_summary {settings : Settings} {store : σ} {evaluator : Evaluator}
    {text : String} {s : Session σ} (h : (startOn settings store evaluator text).value = .ok s)
    (cs : List Command) :
    (summary text (s.events cs)).session? settings store evaluator = some (s.after cs) ∧
      (∀ input, ((s.after cs).setBase input).value.1 = Swatch.isReadable input) ∧
      (∀ input, Swatch.isReadable input = false →
        ((s.after cs).setBase input).value.2 = { s.after cs with baseInput := input }) ∧
      (∀ c f, ((s.after cs).perform c).value.1 = .failed f →
        ((s.after cs).perform c).value.2 = s.after cs) ∧
      ∀ input, Swatch.isReadable input = true → ∀ (settings' : Settings) (store' : σ),
        ∃ t, (start { settings' with defaultBase := input } store' evaluator).value = .ok t ∧
          ((s.after cs).setBase input).value.2.AgreesWith t := by
  have hsum := session?_after h cs
  have hcons := consistent_of_session? hsum
  have heval : (s.after cs).evaluator = evaluator := by
    obtain ⟨base, seeded, panel, written, -, -, -, -, hs⟩ := session?_eq_some.mp hsum
    rw [← hs, Summary.build, recomputed_evaluator]
  refine ⟨hsum, setBase_accepted _, fun _ => setBase_rejected _,
    fun _ _ => hcons.perform_failed, ?_⟩
  intro input hin settings' store'
  rw [← heval]
  exact exists_start_agreesWith _ hin settings' store'

/-- A run with two changes, between which a base is read and after which another is not. -/
theorem after_eq_session_of_summary_defaults : ∃ s : Session MemoryStore,
    (startOn {} {} Evaluator.standard "#2ac20d").value = .ok s ∧
      (summary "#2ac20d" (s.events [.editPanel "tint" .toggle, .setBase "red", .setShortNames true,
        .editPanel "hueValue" (.setValue "40"), .setBase "no color"])).session? {} {}
          Evaluator.standard
        = some (s.after [.editPanel "tint" .toggle, .setBase "red", .setShortNames true,
            .editPanel "hueValue" (.setValue "40"), .setBase "no color"]) := by
  obtain ⟨s, hs⟩ := exists_start ({} : MemoryStore) Evaluator.standard isReadable_default
  exact ⟨s, hs, (after_eq_session_of_summary hs _).1⟩

end CssColor.Session
