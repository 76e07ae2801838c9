import CssColor.Color.Render
import CssColor.Proofs.Color.Hex

/-! # The tables of keywords

No name stands in the table of names twice (`rgb?_of_mem`), and every name is a word of small
letters (`isLower_of_rgb?`). The table by digits is that of the names in another order, the last
name alone where a color has several (`byDigits_eq`). So under the digits of a color stands the last
of its names, and nothing if it has none (`level3Name?_eq_last`). With the one name told apart from
it, the colors that have a keyword are those of the names, and each has one of its own
(`Color.keyword?_eq_some`, `Color.isSome_keyword?_iff`). -/

namespace CssColor

open Number

/-- The number that the digits of a color stand for. -/
def Rgb.number (c : Rgb) : ℕ := 65536 * c.red.toNat + 256 * c.green.toNat + c.blue.toNat

namespace Keyword

/-! ### From names to colors -/

/-- All names with their colors. -/
def table : List (String × Rgb) := rebeccapurple :: level3

set_option maxRecDepth 100000 in
-- one evaluation for both, since taking the names apart is what takes time
theorem alphabetical_level3_and_isWord :
    ((level3.map (·.1)).map String.toList).IsChain (· < ·) ∧
      ∀ p ∈ table, p.1.toList ≠ [] ∧ p.1.toList.all Char.isLower = true := by
  decide +kernel

set_option maxRecDepth 100000 in
theorem rebeccapurple_not_mem : ∀ p ∈ level3, rebeccapurple.1 ≠ p.1 := by decide +kernel

/-- No name stands for two colors. -/
theorem nodup_names : (table.map (·.1)).Nodup := by
  have hletters : ((level3.map (·.1)).map String.toList).Nodup :=
    alphabetical_level3_and_isWord.1.pairwise.imp ne_of_lt
  have hlevel3 : (level3.map (·.1)).Nodup :=
    List.Pairwise.of_map String.toList (fun _ _ hne heq => hne (congrArg _ heq)) hletters
  refine List.nodup_cons.mpr ⟨fun hmem => ?_, hlevel3⟩
  obtain ⟨p, hp, heq⟩ := List.mem_map.mp hmem
  exact rebeccapurple_not_mem p hp heq.symm

theorem lookup_of_mem {names : List (String × Rgb)} (h : (names.map (·.1)).Nodup)
    {p : String × Rgb} (hp : p ∈ names) : names.lookup p.1 = some p.2 := by
  induction names with
  | nil => simp at hp
  | cons q names ih =>
    rw [List.map_cons, List.nodup_cons] at h
    rw [List.lookup_cons]
    rcases List.mem_cons.mp hp with rfl | hp
    · simp
    · have hne : (p.1 == q.1) = false :=
        beq_false_of_ne fun heq => h.1 (heq ▸ List.mem_map_of_mem hp)
      rw [hne]
      exact ih h.2 hp

theorem rgb?_of_mem {p : String × Rgb} (hp : p ∈ table) : rgb? p.1 = some p.2 :=
  lookup_of_mem nodup_names hp

theorem mem_table_of_rgb? {name : String} {c : Rgb} (h : rgb? name = some c) :
    (name, c) ∈ table := by
  obtain ⟨before, after, ht, -⟩ := List.lookup_eq_some_iff.mp h
  rw [table, ht]
  simp

theorem isWord_of_mem {p : String × Rgb} (hp : p ∈ table) :
    p.1.toList ≠ [] ∧ p.1.toList.all Char.isLower = true :=
  alphabetical_level3_and_isWord.2 p hp

theorem isLower_of_rgb? {name : String} {c : Rgb} (h : rgb? name = some c) :
    name.toList ≠ [] ∧ ∀ d ∈ name.toList, d.isLower = true :=
  let hw := isWord_of_mem (mem_table_of_rgb? h)
  ⟨hw.1, List.all_eq_true.mp hw.2⟩

/-! ### From digits to names -/

/-- The last name of the third level for a color. -/
def lastName? (c : Rgb) : Option String := (level3.reverse.find? (·.2 = c)).map (·.1)

theorem lastName?_eq_some {c : Rgb} {name : String} (h : lastName? c = some name) :
    (name, c) ∈ level3 := by
  obtain ⟨p, hp, rfl⟩ := Option.map_eq_some_iff.mp h
  have hc : p.2 = c := by simpa using List.find?_some hp
  rw [← hc]
  exact List.mem_reverse.mp (List.mem_of_find?_eq_some hp)

/-- A name put in the order of the digits, in the place of another one for the same color. -/
def put (p : String × Rgb) : List (String × Rgb) → List (String × Rgb)
  | [] => [p]
  | q :: names =>
    if p.2.number < q.2.number then p :: q :: names
    else if p.2 = q.2 then p :: names
    else q :: put p names

theorem find?_color_cons (c : Rgb) (p : String × Rgb) (names : List (String × Rgb)) :
    (p :: names).find? (·.2 = c) = if p.2 = c then some p else names.find? (·.2 = c) := by
  rw [List.find?_cons]
  by_cases hp : p.2 = c <;> simp [hp]

theorem find?_put (c : Rgb) (p : String × Rgb) (names : List (String × Rgb)) :
    (put p names).find? (·.2 = c) = if p.2 = c then some p else names.find? (·.2 = c) := by
  induction names with
  | nil => exact find?_color_cons c p []
  | cons q names ih =>
    unfold put
    split
    · exact find?_color_cons c p (q :: names)
    · split
      · next heq =>
        -- the name that makes room is one for the same color
        rw [find?_color_cons, find?_color_cons, heq]
        split <;> rfl
      · next hne =>
        rw [find?_color_cons, find?_color_cons, ih]
        by_cases hq : q.2 = c
        · rw [if_pos hq, if_pos hq, if_neg fun hp => hne (hp.trans hq.symm)]
        · rw [if_neg hq, if_neg hq]

/-- Names in the order of the digits, the first one alone where a color has several. -/
def index (names : List (String × Rgb)) : List (String × Rgb) := names.foldr put []

theorem find?_index (c : Rgb) (names : List (String × Rgb)) :
    (index names).find? (·.2 = c) = names.find? (·.2 = c) := by
  induction names with
  | nil => rfl
  | cons p names ih =>
    show (put p (index names)).find? (·.2 = c) = _
    rw [find?_put, ih, find?_color_cons]

theorem lookup_digits (c : Rgb) (names : List (String × Rgb)) :
    (names.map fun p => (p.2.digits, p.1)).lookup c.digits
      = (names.find? (·.2 = c)).map (·.1) := by
  induction names with
  | nil => rfl
  | cons p names ih =>
    rw [List.map_cons, List.lookup_cons, ih]
    by_cases hp : p.2 = c
    · simp [hp]
    · have hdigits : (c.digits == p.2.digits) = false :=
        beq_false_of_ne fun h => hp (Rgb.digits_injective h).symm
      simp [hp, hdigits]

set_option maxRecDepth 100000 in
theorem byDigits_eq : byDigits = (index level3.reverse).map fun p => (p.2.digits, p.1) := by
  rfl

/-- **The table by digits inverts the names.** Under the digits of a color stands the last of its
names. -/
theorem level3Name?_eq_last (c : Rgb) : level3Name? c = lastName? c := by
  rw [level3Name?, byDigits_eq, lookup_digits, find?_index, lastName?]

theorem level3Name?_eq_some {c : Rgb} {name : String} (h : level3Name? c = some name) :
    (name, c) ∈ level3 := lastName?_eq_some (level3Name?_eq_last c ▸ h)

theorem isSome_level3Name? {c : Rgb} {name : String} (h : (name, c) ∈ level3) :
    (level3Name? c).isSome = true := by
  have hf : (level3.reverse.find? (·.2 = c)).isSome = true :=
    List.find?_isSome.mpr ⟨(name, c), List.mem_reverse.mpr h, by simp⟩
  rw [level3Name?_eq_last, lastName?, Option.isSome_map, hf]

end Keyword

/-! ### The keyword of a color -/

namespace Color

/-- The name of the fourth level is told apart by the digits of its color. -/
theorem longHex_bytes_eq_iff (c : Color) :
    longHex c.bytes = "#663399" ↔ c.rounded = Keyword.rebeccapurple.2 := by
  have hdigits : longHex [102, 51, 153] = "#663399" := by decide
  rw [← hdigits]
  constructor
  · intro h
    have hbytes : [c.rounded.red, c.rounded.green, c.rounded.blue] = [102, 51, 153] :=
      longHex_injective h
    simp only [List.cons.injEq, and_true] at hbytes
    obtain ⟨hr, hg, hb⟩ := hbytes
    calc c.rounded = ⟨c.rounded.red, c.rounded.green, c.rounded.blue⟩ := rfl
      _ = Keyword.rebeccapurple.2 := by rw [hr, hg, hb]; rfl
  · intro h
    rw [bytes, h]
    rfl

variable {c : Color}

theorem level3Keyword?_of_isSolid (h : c.isSolid = true) :
    c.level3Keyword? = Keyword.level3Name? c.rounded := by
  have hle : (1 : Binary64) ≤ c.alpha := of_decide_eq_true h
  exact if_neg fun hlt => Rat.not_lt.mpr hle.2 hlt.2

theorem keyword?_of_isSolid (h : c.isSolid = true) :
    c.keyword? = (Keyword.level3Name? c.rounded).or
      (if longHex c.bytes = "#663399" then some "rebeccapurple" else none) := by
  rw [keyword?, level3Keyword?_of_isSolid h]
  cases Keyword.level3Name? c.rounded <;> rfl

/-- A keyword of a color is one of its names. -/
theorem keyword?_eq_some (h : c.isSolid = true) {name : String} (hk : c.keyword? = some name) :
    (name, c.rounded) ∈ Keyword.table := by
  rw [keyword?_of_isSolid h] at hk
  rcases Option.or_eq_some_iff.mp hk with hname | ⟨-, hname⟩
  · exact List.mem_cons_of_mem _ (Keyword.level3Name?_eq_some hname)
  · obtain ⟨hhex, hname⟩ := Option.ite_none_right_eq_some.mp hname
    rw [(longHex_bytes_eq_iff c).mp hhex, ← Option.some.inj hname]
    exact List.mem_cons_self

/-- **The colors with a keyword are those of the names.** -/
theorem isSome_keyword?_iff (h : c.isSolid = true) :
    c.keyword?.isSome = true ↔ ∃ name, (name, c.rounded) ∈ Keyword.table := by
  constructor
  · intro hk
    obtain ⟨name, hname⟩ := Option.isSome_iff_exists.mp hk
    exact ⟨name, keyword?_eq_some h hname⟩
  · rintro ⟨name, hmem⟩
    rw [keyword?_of_isSolid h]
    rcases List.mem_cons.mp hmem with heq | hmem
    · have hhex := (longHex_bytes_eq_iff c).mpr (congrArg Prod.snd heq)
      simp [hhex]
    · simp [Option.isSome_or, Keyword.isSome_level3Name? hmem]

end Color

end CssColor
