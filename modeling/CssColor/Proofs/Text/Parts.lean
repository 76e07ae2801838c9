import CssColor.Proofs.Text.Runs

/-! # The parts of a text

What the functions that take a text apart tell about it: a text is the beginning that was found and
what follows (`eq_of_afterStart?`), its trimmed core within white space (`exists_trim`), or the
parts it was split into with the separator between them (`exists_of_mem_splitOn`). -/

namespace CssColor.Text

variable {p : Char → Bool} {a : Char} {w v rest : List Char}

/-! ### Beginnings and ends -/

theorem eq_of_afterStart? {e : List Char} (h : afterStart? e w = some rest) : w = e ++ rest := by
  induction e generalizing w with
  | nil => exact Option.some.inj h
  | cons a e ih =>
    cases w with
    | nil => cases h
    | cons c cs =>
      obtain ⟨rfl, hrest⟩ := Option.ite_none_right_eq_some.mp h
      rw [ih hrest, List.cons_append]

theorem eq_of_beforeEnd? {e : List Char} (h : beforeEnd? e w = some v) : w = v ++ e := by
  obtain ⟨r, hr, rfl⟩ := Option.map_eq_some_iff.mp h
  have heq := congrArg List.reverse (eq_of_afterStart? hr)
  rwa [List.reverse_reverse, List.reverse_append, List.reverse_reverse] at heq

theorem eq_of_splitFirst? (h : splitFirst? a w = some (v, rest)) : w = v ++ a :: rest := by
  unfold splitFirst? at h
  split at h
  · cases h
  · next c after hd =>
    have hc : c = a := by
      have hhead := List.head?_dropWhile_not (fun c => decide (c ≠ a)) w
      rw [hd] at hhead
      simpa using hhead
    obtain ⟨rfl, rfl⟩ := Prod.mk.inj (Option.some.inj h)
    have hsplit := List.takeWhile_append_dropWhile (p := fun c => decide (c ≠ a)) (l := w)
    rw [hd, hc] at hsplit
    exact hsplit.symm

theorem exists_dropRightWhile (p : Char → Bool) (w : List Char) :
    ∃ v, w = dropRightWhile p w ++ v ∧ ∀ c ∈ v, p c = true := by
  refine ⟨(w.reverse.takeWhile p).reverse, ?_, fun c hc => ?_⟩
  · rw [dropRightWhile, ← List.reverse_append, List.takeWhile_append_dropWhile,
      List.reverse_reverse]
  · exact List.mem_takeWhile_imp (List.mem_reverse.mp hc)

theorem exists_beforeAll (a : Char) (w : List Char) :
    ∃ k, w = beforeAll a w ++ List.replicate k a := by
  obtain ⟨v, hv, hall⟩ := exists_dropRightWhile (· = a) w
  refine ⟨v.length, ?_⟩
  rw [← List.eq_replicate_of_mem fun c hc => of_decide_eq_true (hall c hc)]
  exact hv

/-! ### White space around a text -/

theorem exists_trim (w : List Char) : ∃ u v, w = u ++ (trim w ++ v) ∧
    (∀ c ∈ u, isSpace c = true) ∧ ∀ c ∈ v, isSpace c = true := by
  obtain ⟨v, hv, hall⟩ := exists_dropRightWhile isSpace (w.dropWhile isSpace)
  refine ⟨w.takeWhile isSpace, v, ?_, fun c hc => List.mem_takeWhile_imp hc, hall⟩
  rw [trim, ← hv, List.takeWhile_append_dropWhile]

theorem mem_trim_or {c : Char} (h : c ∈ w) : c ∈ trim w ∨ isSpace c = true := by
  obtain ⟨u, v, hw, hu, hv⟩ := exists_trim w
  rw [hw, List.mem_append, List.mem_append] at h
  rcases h with h | h | h
  · exact Or.inr (hu c h)
  · exact Or.inl h
  · exact Or.inr (hv c h)

theorem head?_of_dropWhile_eq_self (h : w.dropWhile p = w) : ∀ c ∈ w.head?, p c = false := by
  rw [List.dropWhile_eq_self_iff] at h
  cases w with
  | nil => simp
  | cons d ds => exact forall_head?_cons (by simpa using h) ds

theorem getLast?_dropRightWhile : ∀ c ∈ (dropRightWhile p w).getLast?, p c = false := by
  intro c hc
  rw [dropRightWhile, List.getLast?_reverse] at hc
  have hnot := List.head?_dropWhile_not p w.reverse
  rw [hc] at hnot
  exact hnot

theorem getLast?_trim : ∀ c ∈ (trim w).getLast?, isSpace c = false := getLast?_dropRightWhile

/-- A solid beginning of a text stays when white space is taken off. -/
theorem trim_append (hne : w ≠ []) (hw : ∀ c ∈ w, isSpace c = false) (rest : List Char) :
    trim (w ++ rest) = w ++ dropRightWhile isSpace rest := by
  obtain ⟨v, hv, hall⟩ := exists_dropRightWhile isSpace rest
  have hstart : (w ++ rest).dropWhile isSpace = w ++ rest := by
    obtain ⟨c, cs, rfl⟩ := List.exists_cons_of_ne_nil hne
    exact List.dropWhile_cons_of_neg (by simp [hw c List.mem_cons_self])
  have hlast : ∀ c ∈ (w ++ dropRightWhile isSpace rest).getLast?, isSpace c = false := by
    intro c hc
    rw [List.getLast?_append] at hc
    rcases Option.or_eq_some_iff.mp hc with hc | ⟨-, hc⟩
    · exact getLast?_dropRightWhile c hc
    · exact hw c (List.mem_of_getLast? hc)
  have hend : dropRightWhile isSpace (w ++ (dropRightWhile isSpace rest ++ v))
      = w ++ dropRightWhile isSpace rest := by
    rw [← List.append_assoc, dropRightWhile_append hall, dropRightWhile_eq_self hlast]
  rw [← hv] at hend
  rw [trim, hstart, hend]

theorem trim_eq_self_iff : trim w = w ↔
    (w.map isSpace).head? ≠ some true ∧ (w.map isSpace).getLast? ≠ some true := by
  have hhead : (w.map isSpace).head? ≠ some true ↔ ∀ c ∈ w.head?, isSpace c = false := by
    cases w <;> simp
  have hlast : (w.map isSpace).getLast? ≠ some true ↔ ∀ c ∈ w.getLast?, isSpace c = false := by
    rw [List.getLast?_map]
    cases w.getLast? <;> simp
  rw [hhead, hlast]
  refine ⟨fun h => ?_, fun h => trim_eq_self h.1 h.2⟩
  -- a text as long as its trimmed core has lost nothing at either end
  have hsub := List.dropWhile_sublist (l := w) isSpace
  have hback := List.dropWhile_sublist (l := (w.dropWhile isSpace).reverse) isSpace
  have hlen := congrArg List.length h
  have h1 := hsub.length_le
  have h2 := hback.length_le
  simp only [trim, dropRightWhile, List.length_reverse] at hlen h2
  have hd : w.dropWhile isSpace = w := hsub.eq_of_length (by omega)
  rw [hd] at hback hlen
  have hr : w.reverse.dropWhile isSpace = w.reverse :=
    hback.eq_of_length (by rw [List.length_reverse]; exact hlen)
  rw [← List.head?_reverse]
  exact ⟨head?_of_dropWhile_eq_self hd, head?_of_dropWhile_eq_self hr⟩

theorem head?_trim : ∀ c ∈ (trim w).head?, isSpace c = false := by
  intro c hc
  obtain ⟨v, hv, -⟩ := exists_dropRightWhile isSpace (w.dropWhile isSpace)
  have hnot := List.head?_dropWhile_not isSpace w
  rw [hv, List.head?_append, ← trim, hc] at hnot
  exact hnot

theorem trim_trim (w : List Char) : trim (trim w) = trim w := trim_eq_self head?_trim getLast?_trim

/-! ### Separated parts -/

theorem exists_of_mem_intercalate : ∀ {ws : List (List Char)}, w ∈ ws →
    ∃ u v, [a].intercalate ws = u ++ (w ++ v) ∧ ∀ c ∈ v.head?, c = a
  | [x], h => by
    obtain rfl := List.mem_singleton.mp h
    exact ⟨[], [], by simp, by simp⟩
  | x :: y :: ws, h => by
    rw [List.intercalate_cons_cons]
    rcases List.mem_cons.mp h with rfl | h
    · exact ⟨[], a :: [a].intercalate (y :: ws), by simp, forall_head?_cons (P := (· = a)) rfl _⟩
    · obtain ⟨u, v, heq, hv⟩ := exists_of_mem_intercalate h
      exact ⟨x ++ [a] ++ u, v, by rw [heq]; simp, hv⟩

/-- A part stands somewhere in the text, at its end or before a separator. -/
theorem exists_of_mem_splitOn (h : v ∈ w.splitOn a) :
    ∃ u rest, w = u ++ (v ++ rest) ∧ ∀ c ∈ rest.head?, c = a := by
  have := exists_of_mem_intercalate (a := a) h
  rwa [List.intercalate_splitOn] at this

end CssColor.Text
