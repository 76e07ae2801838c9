import CssColor.Link
import CssColor.Proofs.Text.Runs

/-! # Parameters of a query

A part of a query has a key, the text before its first equals sign, and a value, the text behind it
(`key`, `valueOf`). `named?` is the value of the first part with a key, among the parts of a query
behind its leading question marks, and it is what `parameter?` finds (`parameter?_eq_named?`). In a
query that is put together from parts, it is the value of the first of these with the key
(`named?_of_carries`). -/

namespace CssColor.Link

open Text

/-! ### Parts -/

/-- The text before the first equals sign of a part. -/
def key (part : List Char) : List Char := part.takeWhile (· ≠ '=')

/-- The text behind the first equals sign of a part; empty if it has none. -/
def valueOf (part : List Char) : List Char := (part.dropWhile (· ≠ '=')).drop 1

theorem valueOf?_eq (name : String) (part : List Char) : valueOf? name part =
    if key part = name.toList then some (String.ofList (valueOf part)) else none := by
  have hname : ∀ w : List Char, String.ofList w = name ↔ w = name.toList := by
    intro w
    rw [← String.toList_inj, String.toList_ofList]
  have hparts := List.takeWhile_append_dropWhile (p := (· ≠ '=')) (l := part)
  unfold valueOf? splitFirst? key valueOf
  cases hd : part.dropWhile (· ≠ '=') with
  | nil =>
    have hkey : part.takeWhile (· ≠ '=') = part := by
      rwa [hd, List.append_nil] at hparts
    rw [hkey]
    simp only [hname]
    rfl
  | cons d after =>
    simp only [hname]
    rfl

/-- The parts of a query behind its leading question marks. -/
def parts (query : String) : List (List Char) := (afterAll '?' query.toList).splitOn '&'

/-- The value of the first part with a key. -/
def named? (query name : String) : Option String :=
  ((parts query).find? fun part => key part = name.toList).map fun part =>
    String.ofList (valueOf part)

theorem findSome?_valueOf? (name : String) : ∀ ws : List (List Char),
    ws.findSome? (valueOf? name) = (ws.find? fun part => key part = name.toList).map fun part =>
      String.ofList (valueOf part)
  | [] => rfl
  | w :: ws => by
    have ih := findSome?_valueOf? name ws
    rw [List.findSome?_cons, List.find?_cons, valueOf?_eq]
    by_cases hk : key w = name.toList
    · simp [hk]
    · simp [hk, ih]

/-- **A parameter is the value of the first part with its name.** -/
theorem parameter?_eq_named? (query name : String) : parameter? query name = named? query name :=
  findSome?_valueOf? name (parts query)

/-! ### Queries put together from parts -/

/-- A parameter with a value as a part of a query. -/
def assignment (name value : String) : List Char := name.toList ++ '=' :: value.toList

/-- A query of parts joined by ampersands, behind any number of question marks, in which the first
part with a key gives it a value. The text of the parts itself begins with no question mark. -/
structure Carries (query name value : String) (marks : ℕ) (before after : List (List Char)) :
    Prop where
  query_eq : query.toList = List.replicate marks '?'
    ++ ['&'].intercalate (before ++ assignment name value :: after)
  head_ne : (['&'].intercalate (before ++ assignment name value :: after)).head? ≠ some '?'
  part_plain : ∀ part ∈ before ++ assignment name value :: after, '&' ∉ part
  name_plain : '=' ∉ name.toList
  key_ne : ∀ part ∈ before, key part ≠ name.toList

theorem key_value_assignment {name : String} (h : '=' ∉ name.toList) (value : String) :
    key (assignment name value) = name.toList ∧
      valueOf (assignment name value) = value.toList := by
  have hp : ∀ c ∈ name.toList, decide (c ≠ '=') = true := fun c hc =>
    decide_eq_true fun he => h (he ▸ hc)
  have hstop : ∀ c ∈ ('=' :: value.toList).head?, decide (c ≠ '=') = false :=
    forall_head?_cons (by decide) _
  constructor
  · exact takeWhile_run hp hstop
  · have hd : (assignment name value).dropWhile (· ≠ '=') = '=' :: value.toList :=
      dropWhile_run hp hstop
    rw [valueOf, hd]
    rfl

section

variable {query name value : String} {marks : ℕ} {before after : List (List Char)}
  (h : Carries query name value marks before after)

include h

theorem Carries.parts_eq : parts query = before ++ assignment name value :: after := by
  have hq : afterAll '?' query.toList
      = ['&'].intercalate (before ++ assignment name value :: after) := by
    rw [h.query_eq]
    refine dropWhile_run (fun c hc => ?_) fun c hc => ?_
    · rw [List.eq_of_mem_replicate hc]
      decide
    · refine decide_eq_false fun hmark => h.head_ne ?_
      rw [← hmark]
      exact hc
  rw [parts, hq]
  exact List.splitOn_intercalate '&' h.part_plain (by simp)

theorem named?_of_carries : named? query name = some value := by
  have hbefore : before.find? (fun part => key part = name.toList) = none := by
    rw [List.find?_eq_none]
    intro part hpart
    simpa using h.key_ne part hpart
  obtain ⟨hkey, hvalue⟩ := key_value_assignment h.name_plain value
  rw [named?, h.parts_eq, List.find?_append, hbefore, List.find?_cons_of_pos (by simpa using hkey)]
  rw [Option.or_eq_right_of_none rfl, Option.map_some, hvalue, String.ofList_toList]

end

end CssColor.Link
