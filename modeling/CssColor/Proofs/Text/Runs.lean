import CssColor.Text.Lowercase
import CssColor.Text.Space
import Mathlib.Data.List.TakeWhile

/-! # Runs of characters and plain texts

What the readers of texts do on a text put together from known parts: a run of a class ends where
the next character is not in the class (`takeWhile_run`, `dropWhile_run`), and arguments joined by
commas and spaces come apart again (`splitOn_joined`). Trimming and lower case leave a text alone
that is solid at both ends (`trim_eq_self`) and plain throughout (`lower_eq_self`). -/

namespace CssColor.Text

variable {p : Char → Bool} {w rest : List Char}

/-! ### Runs -/

theorem forall_head?_cons {P : Char → Prop} {c : Char} (h : P c) (cs : List Char) :
    ∀ d ∈ (c :: cs).head?, P d := by
  intro d hd
  rwa [← Option.some.inj hd]

theorem takeWhile_run (hw : ∀ c ∈ w, p c = true) (hr : ∀ c ∈ rest.head?, p c = false) :
    (w ++ rest).takeWhile p = w := by
  rw [List.takeWhile_append_of_pos hw]
  cases rest with
  | nil => simp
  | cons c cs => simp [hr c rfl]

theorem dropWhile_run (hw : ∀ c ∈ w, p c = true) (hr : ∀ c ∈ rest.head?, p c = false) :
    (w ++ rest).dropWhile p = rest := by
  rw [List.dropWhile_append_of_pos hw]
  cases rest with
  | nil => rfl
  | cons c cs => simp [hr c rfl]

theorem dropRightWhile_eq_self (h : ∀ c ∈ w.getLast?, p c = false) : dropRightWhile p w = w := by
  have hhead : ∀ c ∈ w.reverse.head?, p c = false := by rwa [List.head?_reverse]
  have hd : w.reverse.dropWhile p = w.reverse := dropWhile_run (w := []) (by simp) hhead
  rw [dropRightWhile, hd, List.reverse_reverse]

/-- What is in the class at the end of a text does not matter. -/
theorem dropRightWhile_append (h : ∀ c ∈ rest, p c = true) :
    dropRightWhile p (w ++ rest) = dropRightWhile p w := by
  have hr : ∀ c ∈ rest.reverse, p c = true := fun c hc => h c (List.mem_reverse.mp hc)
  rw [dropRightWhile, List.reverse_append, List.dropWhile_append_of_pos hr, dropRightWhile]

theorem splitFirst?_run {a : Char} (hw : a ∉ w) :
    splitFirst? a (w ++ a :: rest) = some (w, rest) := by
  have hw' : ∀ c ∈ w, decide (c ≠ a) = true := by
    intro c hc
    exact decide_eq_true fun h => hw (h ▸ hc)
  unfold splitFirst?
  rw [dropWhile_run hw' (by simp), takeWhile_run hw' (by simp)]

/-! ### Beginnings and ends -/

theorem afterStart?_append (w rest : List Char) : afterStart? w (w ++ rest) = some rest := by
  induction w with
  | nil => rfl
  | cons c cs ih => simp [afterStart?, ih]

theorem beforeEnd?_append (w e : List Char) : beforeEnd? e (w ++ e) = some w := by
  rw [beforeEnd?, List.reverse_append, afterStart?_append]
  simp

theorem beforeEnd?_eq_none {a : Char} (h : a ∉ w) : beforeEnd? [a] w = none := by
  unfold beforeEnd?
  cases hr : w.reverse with
  | nil => rfl
  | cons c cs =>
    have hc : c ∈ w := by rw [← List.mem_reverse, hr]; exact List.mem_cons_self
    have hne : a ≠ c := fun hac => h (hac ▸ hc)
    simp [afterStart?, hne]

theorem beforeAll_append_replicate {a : Char} (h : a ∉ w) (n : ℕ) :
    beforeAll a (w ++ List.replicate n a) = w := by
  unfold beforeAll
  rw [dropRightWhile_append (by simp)]
  refine dropRightWhile_eq_self fun c hc => decide_eq_false fun hca => h ?_
  exact hca ▸ List.mem_of_getLast? hc

theorem beforeAll_append_singleton {a : Char} (h : a ∉ w) : beforeAll a (w ++ [a]) = w :=
  beforeAll_append_replicate h 1

/-! ### White space -/

theorem trim_eq_self (hf : ∀ c ∈ w.head?, isSpace c = false)
    (hl : ∀ c ∈ w.getLast?, isSpace c = false) : trim w = w := by
  have hd : w.dropWhile isSpace = w := dropWhile_run (w := []) (by simp) hf
  rw [trim, hd, dropRightWhile_eq_self hl]

theorem trim_of_all (h : ∀ c ∈ w, isSpace c = false) : trim w = w :=
  trim_eq_self (fun c hc => h c (List.mem_of_head? hc)) fun c hc => h c (List.mem_of_getLast? hc)

/-- Trimming takes white space off the end of a solid text. -/
theorem trim_run (hw : ∀ c ∈ w, isSpace c = false) (hr : ∀ c ∈ rest, isSpace c = true) :
    trim (w ++ rest) = w := by
  have hd : dropRightWhile isSpace ((w ++ rest).dropWhile isSpace) = dropRightWhile isSpace w := by
    cases w with
    | nil =>
      have hnil : rest.dropWhile isSpace = [] := List.dropWhile_eq_nil_iff.mpr hr
      rw [List.nil_append, hnil]
    | cons c cs =>
      rw [List.cons_append, List.dropWhile_cons_of_neg (by simp [hw c List.mem_cons_self]),
        ← List.cons_append, dropRightWhile_append hr]
  rw [trim, hd]
  exact dropRightWhile_eq_self fun c hc => hw c (List.mem_of_getLast? hc)

theorem trim_space_cons (w : List Char) : trim (' ' :: w) = trim w := by
  have h : isSpace ' ' = true := by decide
  simp [trim, h]

theorem splitOn_joined {args : List (List Char)} (hne : args ≠ []) (hc : ∀ w ∈ args, ',' ∉ w)
    (hs : ∀ w ∈ args, ∀ c ∈ w, isSpace c = false) :
    (([',', ' '].intercalate args).splitOn ',').map trim = args := by
  obtain ⟨first, more, rfl⟩ := List.exists_cons_of_ne_nil hne
  -- the space of each separator belongs to the argument behind it
  have hj : ∀ (v : List Char) (ws : List (List Char)), [',', ' '].intercalate (v :: ws)
      = [','].intercalate (v :: ws.map (' ' :: ·)) := by
    intro v ws
    induction ws generalizing v with
    | nil => simp
    | cons u us ih =>
      rw [List.map_cons, List.intercalate_cons_cons, List.intercalate_cons_cons, ih]
      simp [List.intercalate_cons_cons_left]
  rw [hj, List.splitOn_intercalate]
  · rw [List.map_cons, List.map_map, trim_of_all (hs first List.mem_cons_self)]
    have hmore : ∀ w ∈ more, (trim ∘ (' ' :: ·)) w = id w := by
      intro w hw
      rw [Function.comp_apply, trim_space_cons, trim_of_all (hs w (List.mem_cons_of_mem _ hw)), id]
    rw [List.map_congr_left hmore, List.map_id]
  · intro l hl
    rcases List.mem_cons.mp hl with rfl | hl
    · exact hc _ List.mem_cons_self
    · obtain ⟨w, hw, rfl⟩ := List.mem_map.mp hl
      simp [hc w (List.mem_cons_of_mem _ hw)]
  · simp

/-! ### Plain characters -/

/-- A character of ASCII that is no capital letter. -/
def isPlain (c : Char) : Bool := c.toNat < 128 && c.toLower = c

theorem lowerChar_of_isPlain {c : Char} (h : isPlain c = true) : lowerChar c = [c] := by
  simp only [isPlain, Bool.and_eq_true, decide_eq_true_eq] at h
  rw [lowerChar, if_pos h.1, h.2]

/-- Lower case leaves a plain beginning of a text alone. -/
theorem lowerAfter_append (before : List Char) (h : ∀ c ∈ w, isPlain c = true) (v : List Char) :
    lowerAfter before (w ++ v) = w ++ lowerAfter (w.reverse ++ before) v := by
  induction w generalizing before with
  | nil => rfl
  | cons c cs ih =>
    have hc := h c List.mem_cons_self
    have hsigma : c ≠ 'Σ' := by
      rintro rfl
      revert hc
      decide
    rw [List.cons_append, lowerAfter, if_neg hsigma, lowerChar_of_isPlain hc,
      ih _ fun d hd => h d (List.mem_cons_of_mem _ hd)]
    simp

theorem lower_eq_self (h : ∀ c ∈ w, isPlain c = true) : lower w = w := by
  have happend := lowerAfter_append [] h []
  rwa [List.append_nil, lowerAfter, List.append_nil] at happend

/-! ### Figures and small letters -/

/-- A character of a number or of a percentage. -/
def isFigure (c : Char) : Bool := c.isDigit || c = '.' || c = '-' || c = '%'

/-- What holds of the characters of ASCII one by one holds of each. -/
theorem forall_ascii {P : Char → Prop} (h : ∀ n < 128, P (Char.ofNat n)) {c : Char}
    (hc : c.toNat < 128) : P c := by
  rw [← Char.ofNat_toNat c]
  exact h _ hc

/-- Outside ASCII no character changes with the case of the letters of ASCII. -/
theorem toLower_eq_self {c : Char} (h : ¬c.toNat < 128) : c.toLower = c := by
  unfold Char.toLower
  split_ifs with hup
  · have hle : c.toNat ≤ 'Z'.toNat := UInt32.le_iff_toNat_le.mp hup.2
    exact absurd (Nat.lt_of_le_of_lt hle (by decide)) h
  · rfl

theorem toNat_lt_of_isDigit {c : Char} (h : c.isDigit = true) : c.toNat < 128 := by
  simp only [Char.isDigit, ge_iff_le, Bool.and_eq_true, decide_eq_true_eq,
    UInt32.le_iff_toNat_le] at h
  have h57 : c.toNat ≤ 57 := h.2
  omega

theorem toNat_lt_of_isLower {c : Char} (h : c.isLower = true) : c.toNat < 128 := by
  obtain ⟨-, hz⟩ := (Bool.and_eq_true _ _).mp h
  have h122 : c.toNat ≤ 122 := UInt32.le_iff_toNat_le.mp (of_decide_eq_true hz)
  omega

theorem toNat_lt_of_isFigure {c : Char} (h : isFigure c = true) : c.toNat < 128 := by
  simp only [isFigure, Bool.or_eq_true, decide_eq_true_eq] at h
  rcases h with ((h | rfl) | rfl) | rfl
  · exact toNat_lt_of_isDigit h
  all_goals decide

/-- Figures are plain and solid, and none of them is punctuation of a functional form. -/
theorem isFigure_spec {c : Char} (h : isFigure c = true) :
    isPlain c = true ∧ isSpace c = false ∧ c ≠ ',' ∧ c ≠ '(' ∧ c ≠ ')' :=
  forall_ascii (P := fun c => isFigure c = true →
    isPlain c = true ∧ isSpace c = false ∧ c ≠ ',' ∧ c ≠ '(' ∧ c ≠ ')') (by decide)
    (toNat_lt_of_isFigure h) h

theorem isLower_spec {c : Char} (h : c.isLower = true) :
    isPlain c = true ∧ isSpace c = false ∧ c ≠ '(' ∧ c ≠ ')' ∧ c ≠ '#' :=
  forall_ascii (P := fun c => c.isLower = true →
    isPlain c = true ∧ isSpace c = false ∧ c ≠ '(' ∧ c ≠ ')' ∧ c ≠ '#') (by decide)
    (toNat_lt_of_isLower h) h

theorem isFigure_of_isDigit {c : Char} (h : c.isDigit = true) : isFigure c = true := by
  simp [isFigure, h]

/-- A figure or a small letter. -/
def isSymbol (c : Char) : Bool := isFigure c || c.isLower

theorem isSymbol_spec {c : Char} (h : isSymbol c = true) :
    isPlain c = true ∧ isSpace c = false ∧ c ≠ ',' ∧ c ≠ '(' ∧ c ≠ ')' := by
  have hcomma : c.isLower = true → c ≠ ',' := by
    rintro hl rfl
    exact absurd hl (by decide)
  rcases (Bool.or_eq_true _ _).mp h with hf | hl
  · exact isFigure_spec hf
  · obtain ⟨hplain, hspace, hopen, hclose, -⟩ := isLower_spec hl
    exact ⟨hplain, hspace, hcomma hl, hopen, hclose⟩

theorem isSymbol_of_isFigure {c : Char} (h : isFigure c = true) : isSymbol c = true := by
  simp [isSymbol, h]

end CssColor.Text
