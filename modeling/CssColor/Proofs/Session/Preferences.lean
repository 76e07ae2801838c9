import CssColor.Proofs.Session.Link

/-! # The choice of names and its store

A session reads the choice of names from its store when it is opened and writes every later choice
there before it takes it. So the two never drift apart (`InStep`): opening a session puts them in
step (`inStep_of_startOn`), and every command keeps them so (`Effect.keeps_inStep`). All that is
asked of a store is that it gives back what was last put under a key (`LawfulStore`), as one in
memory does. -/

namespace CssColor

/-! ### Stores -/

/-- A store that gives back what was last put under a key. -/
class LawfulStore (σ : Type) [PreferenceStore σ] : Prop where
  get_set_self {s s' : σ} {key value : String} (h : PreferenceStore.set s key value = .ok s') :
    PreferenceStore.get s' key = .ok (some value)
  get_set_of_ne {s s' : σ} {key value : String} (h : PreferenceStore.set s key value = .ok s')
    {other : String} (hne : other ≠ key) :
    PreferenceStore.get s' other = PreferenceStore.get s other

namespace MemoryStore

theorem lookup_filter_of_ne {key other : String} (hne : other ≠ key)
    (entries : List (String × String)) :
    (entries.filter fun e => e.1 ≠ key).lookup other = entries.lookup other := by
  induction entries with
  | nil => rfl
  | cons e entries ih =>
    obtain ⟨k, value⟩ := e
    by_cases hk : k = key
    · subst hk
      have hother : (other == k) = false := beq_eq_false_iff_ne.mpr hne
      simpa [List.lookup_cons, hother] using ih
    · simp only [ne_eq, hk, not_false_eq_true, decide_true, List.filter_cons_of_pos,
        List.lookup_cons, ih]

theorem get?_insert_self (s : MemoryStore) (key value : String) :
    (s.insert key value).get? key = some value := by
  rw [get?, insert, List.lookup_cons_self]

theorem get?_insert_of_ne (s : MemoryStore) {key other : String} (value : String)
    (hne : other ≠ key) : (s.insert key value).get? other = s.get? other := by
  have hother : (other == key) = false := beq_eq_false_iff_ne.mpr hne
  rw [get?, insert, List.lookup_cons, hother]
  exact lookup_filter_of_ne hne s.entries

instance : LawfulStore MemoryStore where
  get_set_self h := by
    rw [← Except.ok.inj h]
    exact congrArg Except.ok (get?_insert_self _ _ _)
  get_set_of_ne h _ hne := by
    rw [← Except.ok.inj h]
    exact congrArg Except.ok (get?_insert_of_ne _ _ hne)

end MemoryStore

namespace PreferenceStore

variable {σ : Type} [PreferenceStore σ]

/-- A flag that was written is read again. -/
theorem readFlag_of_writeFlag [LawfulStore σ] {s s' : σ} {key : String} {flag : Bool}
    (h : writeFlag s key flag = .ok s') : readFlag s' key = .ok flag := by
  rw [readFlag, LawfulStore.get_set_self h]
  cases flag <;> rfl

/-- The flags of a store in memory can always be read. -/
theorem readFlag_memory (s : MemoryStore) (key : String) :
    readFlag s key = .ok (s.get? key = some "true") := rfl

end PreferenceStore

namespace Session

open PreferenceStore

variable {σ : Type} [PreferenceStore σ]

/-! ### One command -/

/-- The choice of names is the one the store holds. -/
def InStep (s : Session σ) : Prop := readFlag s.store s.settings.shortNamesKey = .ok s.useShortNames

/-- No command replaces the settings. -/
theorem Effect.settings_eq {s s' : Session σ} {c : Command} {a : Answer} (h : s.Effect c a s') :
    s'.settings = s.settings := by
  cases h <;> rfl

/-- Only a choice of names touches the store. -/
theorem Effect.store_eq {s s' : Session σ} {c : Command} {a : Answer} (h : s.Effect c a s')
    (hc : ∀ flag, c ≠ .setShortNames flag) : s'.store = s.store := by
  cases h with
  | accepted h => rfl
  | rejected h => rfl
  | edited h => rfl
  | editFailed h => rfl
  | kept h => exact absurd rfl (hc _)
  | writeFailed h => rfl
  | chosen format => rfl

/-- **Every command keeps the choice and the store in step:** either it touches neither, or it
writes to the store what it chooses. -/
theorem Effect.keeps_inStep [LawfulStore σ] {s s' : Session σ} {c : Command} {a : Answer}
    (h : s.Effect c a s') (hs : s.InStep) : s'.InStep := by
  cases h with
  | accepted h => exact hs
  | rejected h => exact hs
  | edited h => exact hs
  | editFailed h => exact hs
  | kept h => exact readFlag_of_writeFlag h
  | writeFailed h => exact hs
  | chosen format => exact hs

theorem Consistent.store_perform {s : Session σ} (hs : s.Consistent) {c : Command}
    (hc : ∀ flag, c ≠ .setShortNames flag) : (s.perform c).value.2.store = s.store := by
  obtain ⟨a, s', h, he⟩ := hs.exists_effect c
  rw [h]
  exact he.store_eq hc

/-- A choice of names over a store in memory, which never fails. -/
theorem perform_setShortNames_memory (s : Session MemoryStore) (flag : Bool) :
    (s.perform (.setShortNames flag)).value.2 = { s with
      store := s.store.insert s.settings.shortNamesKey (flagWord flag)
      useShortNames := flag } := by
  rw [value_perform_setShortNames, value_setShortNames_of_write s rfl]

/-! ### Runs -/

/-- A run keeps the choice and the store in step, and the settings. -/
theorem Consistent.inStep_after [LawfulStore σ] {s : Session σ} (hc : s.Consistent) (hs : s.InStep)
    (cs : List Command) :
    (s.after cs).Consistent ∧ (s.after cs).InStep ∧ (s.after cs).settings = s.settings :=
  hc.after_of_effect (P := fun t => t.InStep ∧ t.settings = s.settings)
    (fun he ht => ⟨he.keeps_inStep ht.1, he.settings_eq.trans ht.2⟩) ⟨hs, rfl⟩ cs

/-! ### Opening -/

/-- A way to open a session. -/
inductive Opening where
  /-- On the default base. -/
  | new
  | link (query : String) (fragment : Option String)

/-- A session opened in one of the ways. -/
def Opening.session (o : Opening) (settings : Settings) (store : σ) (evaluator : Evaluator) :
    Logged (Except SessionFault (Session σ)) :=
  match o with
  | new => start settings store evaluator
  | link query fragment => openLink settings store evaluator query fragment

omit [PreferenceStore σ] in
/-- The text a session is opened on, which does not depend on the store. -/
def Opening.text (settings : Settings) : Opening → String
  | new => settings.defaultBase
  | link query fragment => (linked? settings query fragment).getD settings.defaultBase

theorem Opening.value_session (o : Opening) (settings : Settings) (store : σ)
    (evaluator : Evaluator) : (o.session settings store evaluator).value
      = (startOn settings store evaluator (o.text settings)).value := by
  cases o with
  | new => rfl
  | link query fragment => exact value_openLink settings store evaluator query fragment

section

variable {settings : Settings} {store : σ} {evaluator : Evaluator} {text : String} {s : Session σ}

theorem keptShortNames_of_readFlag {flag : Bool}
    (h : readFlag store settings.shortNamesKey = .ok flag) :
    (keptShortNames settings store).value = flag := by
  rw [keptShortNames, h]
  rfl

/-- A session starts with the choice that its store holds. -/
theorem inStep_of_startOn {flag : Bool} (hflag : readFlag store settings.shortNamesKey = .ok flag)
    (h : (startOn settings store evaluator text).value = .ok s) :
    s.InStep ∧ s.settings = settings ∧ s.store = store ∧ s.useShortNames = flag := by
  obtain ⟨base, panel, -, rfl⟩ := exists_of_startOn_eq_ok h
  have hkept := keptShortNames_of_readFlag hflag
  exact ⟨hflag.trans (congrArg Except.ok hkept.symm), rfl, rfl, hkept⟩

/-- Whether a session can be started lies in the text alone. -/
theorem exists_startOn_of_startOn (h : (startOn settings store evaluator text).value = .ok s)
    (store' : σ) (evaluator' : Evaluator) :
    ∃ s', (startOn settings store' evaluator' text).value = .ok s' := by
  obtain ⟨base, panel, hr, -⟩ := exists_of_startOn_eq_ok h
  exact ⟨_, value_startOn_of_read settings store' evaluator' hr⟩

end

/-! ### The choice of names over a run -/

/-- **The choice of names and its store never drift apart.** Whatever a store in memory holds when
a session is opened on it, after any commands the flag in it is the choice of the session. A session
opened on it then has the same choice, and one can be opened in the same way. A choice of names sets
the one key of the settings, other commands leave the store alone. Over any store that fails to
write, a choice fails with its fault and leaves the session as it was. -/
theorem shortNames_kept :
    (∀ (o : Opening) (settings : Settings) (store : MemoryStore) (evaluator : Evaluator)
        (s : Session MemoryStore) (cs : List Command),
      (o.session settings store evaluator).value = .ok s →
        readFlag (s.after cs).store settings.shortNamesKey = .ok (s.after cs).useShortNames ∧
        (∃ s', (o.session settings (s.after cs).store evaluator).value = .ok s') ∧
        (∀ (o' : Opening) (evaluator' : Evaluator) (s' : Session MemoryStore),
          (o'.session settings (s.after cs).store evaluator').value = .ok s' →
            s'.useShortNames = (s.after cs).useShortNames) ∧
        (∀ c, (∀ flag, c ≠ .setShortNames flag) →
          (s.after (cs ++ [c])).store = (s.after cs).store) ∧
        ∀ flag, (s.after (cs ++ [.setShortNames flag])).useShortNames = flag ∧
          (s.after (cs ++ [.setShortNames flag])).store.get? settings.shortNamesKey
            = some (flagWord flag) ∧
          ∀ key ≠ settings.shortNamesKey,
            (s.after (cs ++ [.setShortNames flag])).store.get? key = (s.after cs).store.get? key) ∧
    ∀ {σ : Type} [PreferenceStore σ] (s : Session σ) (flag : Bool) (f : StoreFault),
      set s.store s.settings.shortNamesKey (flagWord flag) = .error f →
        (s.setShortNames flag).value = (.error (.store f), s) ∧
        (s.perform (.setShortNames flag)).value = (.failed (.store f), s) := by
  constructor
  · intro o settings store evaluator s cs h
    rw [o.value_session] at h
    obtain ⟨hstart, hsettings, -, -⟩ := inStep_of_startOn (readFlag_memory _ _) h
    obtain ⟨hc, hs, hkeep⟩ := (invariant_of_startOn h).toConsistent.inStep_after hstart cs
    rw [hsettings] at hkeep
    have hflag : readFlag (s.after cs).store settings.shortNamesKey
        = .ok (s.after cs).useShortNames := hkeep ▸ hs
    refine ⟨hflag, ?_, fun o' evaluator' s' h' => ?_, fun c hother => ?_, fun flag => ?_⟩
    · obtain ⟨s', h'⟩ := exists_startOn_of_startOn h (s.after cs).store evaluator
      exact ⟨s', (o.value_session settings _ evaluator).trans h'⟩
    · rw [o'.value_session] at h'
      exact (inStep_of_startOn hflag h').2.2.2
    · rw [after_append]
      exact hc.store_perform hother
    · rw [after_append, perform_setShortNames_memory, hkeep]
      exact ⟨rfl, MemoryStore.get?_insert_self _ _ _,
        fun key hkey => MemoryStore.get?_insert_of_ne _ _ hkey⟩
  · intro σ _ s flag f h
    have herror := value_setShortNames_of_error s h
    exact ⟨herror, by rw [value_perform_setShortNames, herror]; rfl⟩

/-- A store that holds nothing and takes nothing. -/
structure ClosedStore where

instance : PreferenceStore ClosedStore where
  get _ _ := .ok none
  set _ _ _ := .error ⟨"closed"⟩

/-- A store in memory that holds no flag under the key, and a store that is closed. -/
theorem shortNames_kept_defaults :
    (∃ s : Session MemoryStore,
      (Opening.new.session {} ⟨[("useShortNames", "yes"), ("theme", "dark")]⟩
        Evaluator.standard).value = .ok s ∧
      readFlag s.store "useShortNames" = .ok s.useShortNames ∧
      (s.after [.setShortNames true]).useShortNames = true ∧
      (s.after [.setShortNames true]).store.get? "theme" = s.store.get? "theme") ∧
    ∃ s : Session ClosedStore, (Opening.new.session {} ⟨⟩ Evaluator.standard).value = .ok s ∧
      (s.perform (.setShortNames true)).value = (.failed (.store ⟨"closed"⟩), s) := by
  constructor
  · obtain ⟨s, hs⟩ := exists_start (⟨[("useShortNames", "yes"), ("theme", "dark")]⟩ : MemoryStore)
      Evaluator.standard isReadable_default
    obtain ⟨hflag, -, -, -, hset⟩ := shortNames_kept.1 .new {} _ Evaluator.standard s [] hs
    obtain ⟨htrue, -, hkept⟩ := hset true
    exact ⟨s, hs, hflag, htrue, hkept "theme" (by decide)⟩
  · obtain ⟨s, hs⟩ := exists_start (⟨⟩ : ClosedStore) Evaluator.standard isReadable_default
    exact ⟨s, hs, (shortNames_kept.2 s true ⟨"closed"⟩ rfl).2⟩

end Session

end CssColor
