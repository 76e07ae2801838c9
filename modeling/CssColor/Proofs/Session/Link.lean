import CssColor.Proofs.Link.Parameter
import CssColor.Proofs.Link.Resolve
import CssColor.Proofs.Session.Run

/-! # Sessions opened by links

A session is opened on the color text of a link, `linked?`, or on the default base if the link has
none (`value_openLink`); it opens exactly if that text can be read (`exists_startOn`,
`exists_startOn_error`). The text of a link can always be read, unless it was spoilt by the number
sign that is set in front of it (`isReadable_of_color?`, `exists_color?_of_spoilt`). -/

namespace CssColor.Session

variable {σ : Type} [PreferenceStore σ]

/-! ### The text a session is opened on -/

/-- The color text of a link: what the first part of the query with the name of the parameter leads
to. -/
def linked? (settings : Settings) (query : String) (fragment : Option String) : Option String :=
  (Link.named? query settings.parameter).bind fun raw => (Link.color? raw fragment).value

theorem value_openLink (settings : Settings) (store : σ) (evaluator : Evaluator) (query : String)
    (fragment : Option String) : (openLink settings store evaluator query fragment).value =
      (startOn settings store evaluator
        ((linked? settings query fragment).getD settings.defaultBase)).value := by
  unfold openLink linked?
  rw [← Link.parameter?_eq_named?]
  dsimp only
  cases Link.parameter? query settings.parameter with
  | none => rfl
  | some raw => rw [Logged.value_bind, Option.bind_some]

theorem exists_startOn (settings : Settings) (store : σ) (evaluator : Evaluator) {text : String}
    (h : Swatch.isReadable text = true) :
    ∃ s, (startOn settings store evaluator text).value = .ok s ∧ Swatch.read text = .ok s.base := by
  obtain ⟨base, panel, hr⟩ := exists_readBase h
  exact ⟨_, value_startOn_of_read settings store evaluator hr, (readBase_eq_ok.mp hr).1⟩

theorem exists_startOn_error (settings : Settings) (store : σ) (evaluator : Evaluator)
    {text : String} (h : Swatch.isReadable text = false) :
    ∃ f, (startOn settings store evaluator text).value = .error f := by
  obtain ⟨f, hf⟩ := exists_readBase_error h
  refine ⟨.color (.color f), ?_⟩
  unfold startOn
  rw [hf]
  rfl

/-! ### Texts of links that can be read -/

section

variable {raw : String} {fragment : Option String}

theorem isReadable_of_color? {t : String} (h : (Link.color? raw fragment).value = some t)
    (hs : Link.isSpoilt (Link.candidate raw fragment) = false) : Swatch.isReadable t = true := by
  cases hr : Color.read (Link.candidate raw fragment) with
  | error f =>
    rw [Link.value_color?, hr] at h
    cases h
  | ok r =>
    rw [Link.value_color?_of_read hr] at h
    obtain rfl := Option.some.inj h
    rw [Swatch.isReadable, Link.read_handedOut hr hs]
    rfl

theorem exists_color?_of_spoilt (hs : Link.isSpoilt (Link.candidate raw fragment) = true) :
    ∃ t, (Link.color? raw fragment).value = some t ∧ Swatch.isReadable t = false := by
  cases hr : Color.read (Link.candidate raw fragment) with
  | error f =>
    rw [Link.isSpoilt, hr] at hs
    simp [Except.toOption] at hs
  | ok r =>
    refine ⟨_, Link.value_color?_of_read hr, ?_⟩
    have hne := Link.read_handedOut_of_spoilt hr hs
    unfold Swatch.isReadable
    cases ht : Color.read (Link.handedOut r.2 (Link.candidate raw fragment)) with
    | error f => rfl
    | ok q => exact absurd ht (hne q)

end

/-! ### Opening -/

/-- **A link never prevents a session from opening,** with a default base that can be read, unless
its color is spoilt: the session is opened on the color of the first part with the name of the
parameter, if there is one, and on the default base otherwise. On a spoilt color it fails. -/
theorem openLink_opens (settings : Settings) (store : σ) (evaluator : Evaluator) (query : String)
    (fragment : Option String) (h : Swatch.isReadable settings.defaultBase = true) :
    ((∀ raw ∈ Link.named? query settings.parameter,
        Link.isSpoilt (Link.candidate raw fragment) = false) →
      ∃ s, (openLink settings store evaluator query fragment).value = .ok s ∧
        Swatch.read ((linked? settings query fragment).getD settings.defaultBase) = .ok s.base) ∧
    ((∃ raw ∈ Link.named? query settings.parameter,
        Link.isSpoilt (Link.candidate raw fragment) = true) →
      ∃ f, (openLink settings store evaluator query fragment).value = .error f) := by
  rw [value_openLink]
  constructor
  · intro hs
    refine exists_startOn settings store evaluator ?_
    cases hl : linked? settings query fragment with
    | none => exact h
    | some t =>
      obtain ⟨raw, hraw, ht⟩ := Option.bind_eq_some_iff.mp hl
      exact isReadable_of_color? ht (hs raw hraw)
  · rintro ⟨raw, hraw, hs⟩
    obtain ⟨t, ht, hread⟩ := exists_color?_of_spoilt hs
    have hl : linked? settings query fragment = some t := by
      rw [linked?, Option.mem_def.mp hraw]
      exact ht
    rw [hl]
    exact exists_startOn_error settings store evaluator hread

/-- A link with an escaped number sign and a capital. -/
theorem openLink_opens_escaped : ∃ s : Session MemoryStore,
    (openLink {} {} Evaluator.standard "?x=1&color=%23B577f2&color=red" none).value = .ok s ∧
      Swatch.read "#b577f2" = .ok s.base := by
  have hraw : Link.named? "?x=1&color=%23B577f2&color=red" "color" = some "%23B577f2" := by
    decide
  have hlinked : linked? {} "?x=1&color=%23B577f2&color=red" none = some "#b577f2" := by
    decide +kernel
  have hopen := (openLink_opens {} ({} : MemoryStore) Evaluator.standard
    "?x=1&color=%23B577f2&color=red" none isReadable_default).1
  rw [hlinked, hraw] at hopen
  refine hopen fun raw hmem => ?_
  obtain rfl := Option.some.inj hmem
  decide +kernel

/-- A link whose color has a space in front, with a default base that can be read. -/
theorem openLink_fails_of_indented : Swatch.isReadable ({} : Settings).defaultBase = true ∧
    (Color.read (Link.candidate "%20842" none)).isOk = true ∧
    ∃ f, (openLink {} ({} : MemoryStore) Evaluator.standard "?color=%20842" none).value
      = .error f := by
  have hlinked : linked? {} "?color=%20842" none = some "# 842" := by decide +kernel
  refine ⟨isReadable_default, by decide +kernel, ?_⟩
  rw [value_openLink, hlinked]
  exact exists_startOn_error {} _ _ (by decide)

/-! ### Links made from colors -/

/-- **A color survives being put in a link,** as it is or in any encoding: it is the color of the
value, and a session opened by a query that carries the value starts on it, whatever the fragment
is. The parts of the query are those behind all its leading question marks. -/
theorem openLink_of_encoding {s e : String} {r : Color × Format} (h : Color.read s = .ok r)
    (ht : Text.trim s.toList = s.toList) (he : e = s ∨ Link.Encodes s.toList e.toList)
    (fragment : Option String) :
    (∃ t, (Link.color? e fragment).value = some t ∧ Color.read t = .ok r) ∧
      ∀ (settings : Settings) (store : σ) (evaluator : Evaluator) (query : String) (marks : ℕ)
        (before after : List (List Char)),
        Link.Carries query settings.parameter e marks before after →
          ∃ session, (openLink settings store evaluator query fragment).value = .ok session ∧
            session.base.color = r.1 ∧ session.base.format = r.2 := by
  obtain ⟨t, hcolor, hread⟩ := Link.exists_color?_of_encoding h ht he fragment
  refine ⟨⟨t, hcolor, hread⟩, ?_⟩
  intro settings store evaluator query marks before after hq
  have hl : linked? settings query fragment = some t := by
    rw [linked?, Link.named?_of_carries hq]
    exact hcolor
  have hreadable : Swatch.isReadable t = true := by
    rw [Swatch.isReadable, hread]
    rfl
  obtain ⟨session, hopen, hbase⟩ := exists_startOn settings store evaluator hreadable
  refine ⟨session, ?_, ?_⟩
  · rw [value_openLink, hl]
    exact hopen
  · rw [Swatch.read, hread] at hbase
    have hs : session.base = ⟨t, r.2, r.1⟩ := (Except.ok.inj hbase).symm
    rw [hs]
    exact ⟨rfl, rfl⟩

/-- Three digits with their number sign escaped, behind two question marks and another part. -/
theorem openLink_of_encoding_escaped : ∃ session : Session MemoryStore,
    (openLink {} {} Evaluator.standard "??x=1&color=%23842" (some "red")).value = .ok session ∧
      session.base.color = .solid ⟨136, 68, 34⟩ ∧ session.base.format = .hex3 := by
  have hread : Color.read "#842" = .ok (.solid ⟨136, 68, 34⟩, .hex3) := by rfl
  have hcarries : Link.Carries "??x=1&color=%23842" "color" "%23842" 2 ["x=1".toList] [] :=
    ⟨by decide +kernel, by decide +kernel, by decide +kernel, by decide +kernel, by decide +kernel⟩
  have henc : Link.Encodes "#842".toList "%23842".toList := by
    refine .escaped (x := ['%', '2', '3']) (.cons (i := 2) (j := 3) rfl rfl rfl .nil) ?_
    exact .literal (by decide) (.literal (by decide) (.literal (by decide) .nil))
  have htrim : Text.trim "#842".toList = "#842".toList := by decide +kernel
  obtain ⟨-, hopen⟩ :=
    openLink_of_encoding (σ := MemoryStore) hread htrim (Or.inr henc) (some "red")
  exact hopen {} {} Evaluator.standard "??x=1&color=%23842" 2 ["x=1".toList] [] hcarries

/-- The first part with the key of the parameter is the second one, but the session is opened on the
color of the first one, whose key begins with a question mark. -/
theorem openLink_of_marked_part :
    "??color=blue&color=red".toList
        = '?' :: ['&'].intercalate ["?color=blue".toList, Link.assignment "color" "red"] ∧
      Link.key "?color=blue".toList ≠ "color".toList ∧
      (Color.read "red").toOption = some (.solid ⟨255, 0, 0⟩, .keyword) ∧
      ∃ session, (openLink {} ({} : MemoryStore) Evaluator.standard "??color=blue&color=red"
        none).value = .ok session ∧ session.base.color = .solid ⟨0, 0, 255⟩ := by
  refine ⟨by decide +kernel, by decide +kernel, by decide +kernel, ?_⟩
  have hlinked : linked? {} "??color=blue&color=red" none = some "blue" := by decide +kernel
  have hblue : Swatch.read "blue" = .ok ⟨"blue", .keyword, .solid ⟨0, 0, 255⟩⟩ := by rfl
  have hreadable : Swatch.isReadable "blue" = true := by decide
  obtain ⟨session, hopen, hbase⟩ :=
    exists_startOn {} ({} : MemoryStore) Evaluator.standard hreadable
  refine ⟨session, ?_, ?_⟩
  · rw [value_openLink, hlinked]
    exact hopen
  · rw [hblue] at hbase
    rw [← Except.ok.inj hbase]

end CssColor.Session
