import CssColor.Proofs.Link.Percent

/-! # What percent decoding accepts

Decoding can be done in two passes: one finds that every percent sign stands before two hexadecimal
digits (`IsEscaped`), the other replaces each of these escapes by its byte and passes over a percent
sign that begins none (`replaced`). Where the first pass succeeds, the second one does what
`unescape` does (`unescape_eq_some_iff`), although the first goes by characters and the second by
bytes: the bytes of a character outside ASCII are neither a percent sign nor a digit. What is
decoded has to be the bytes of a text besides (`Decodes`, `decode_strict`). -/

namespace CssColor.Link

open Text

/-! ### Escapes among the characters -/

/-- Every percent sign stands before two hexadecimal digits. -/
def IsEscaped (v : List Char) : Prop :=
  ∀ before after, v = before ++ '%' :: after →
    ∃ x y rest, after = x :: y :: rest ∧ isHexDigit x = true ∧ isHexDigit y = true

theorem IsEscaped.of_append {u v : List Char} (h : IsEscaped (u ++ v)) : IsEscaped v := by
  intro before after hv
  exact h (u ++ before) after (by rw [hv, List.append_assoc])

/-- A byte that is a hexadecimal digit is a character of its own. -/
theorem exists_digit_of_bytesOf {w : List Char} {b : UInt8} {bs : List UInt8}
    (h : bytesOf w = b :: bs) (hb : hexValue? (Char.ofNat b.toNat) ≠ none) :
    ∃ x rest, w = x :: rest ∧ isHexDigit x = true ∧ bytesOf rest = bs := by
  cases w with
  | nil => cases h
  | cons x rest =>
    obtain ⟨d, ds, hd⟩ := List.exists_cons_of_ne_nil (String.utf8EncodeChar_ne_nil (c := x))
    rw [bytesOf_cons, hd, List.cons_append] at h
    obtain ⟨rfl, hds⟩ := List.cons.inj h
    have hx : isHexDigit x = true := by
      by_contra hno
      exact hb (hexValue?_first_byte (Bool.eq_false_iff.mpr hno) hd)
    rcases utf8EncodeChar_cases x with ⟨-, heq⟩ | ⟨hge, -⟩
    · obtain ⟨-, rfl⟩ := List.cons.inj (hd.symm.trans heq)
      exact ⟨x, rest, rfl, hx, hds⟩
    · exact absurd (Color.toNat_lt_of_isHexDigit hx) (Nat.not_lt.mpr hge)

theorem isEscaped_of_unescape {v : List Char} {out : List UInt8}
    (h : unescape (bytesOf v) = some out) : IsEscaped v := by
  rintro before after rfl
  have hbytes : bytesOf (before ++ '%' :: after)
      = bytesOf before ++ percentSign :: bytesOf after := by
    rw [bytesOf_append, bytesOf_cons, utf8EncodeChar_percentSign]
    rfl
  obtain ⟨high, low, more, b, hafter, hb⟩ := escape_of_unescape h hbytes
  obtain ⟨hhigh, hlow⟩ := ne_none_of_escapedByte? hb
  obtain ⟨x, w, rfl, hx, hw⟩ := exists_digit_of_bytesOf hafter hhigh
  obtain ⟨y, rest, rfl, hy, -⟩ := exists_digit_of_bytesOf hw hlow
  exact ⟨x, y, rest, rfl, hx, hy⟩

theorem exists_unescape : ∀ {v : List Char}, IsEscaped v → ∃ out, unescape (bytesOf v) = some out
  | [], _ => ⟨[], rfl⟩
  | c :: v, h => by
    by_cases hc : c = '%'
    · subst hc
      obtain ⟨x, y, rest, rfl, hx, hy⟩ := h [] v rfl
      obtain ⟨i, hi⟩ := Option.isSome_iff_exists.mp hx
      obtain ⟨j, hj⟩ := Option.isSome_iff_exists.mp hy
      obtain ⟨out, hout⟩ := exists_unescape (IsEscaped.of_append (u := ['%', x, y]) h)
      rw [unescape_escape hi hj, hout]
      exact ⟨_, rfl⟩
    · obtain ⟨out, hout⟩ := exists_unescape (IsEscaped.of_append (u := [c]) h)
      rw [unescape_literal hc, hout]
      exact ⟨_, rfl⟩

/-! ### Escapes among the bytes -/

/-- The bytes with each percent sign before two hexadecimal digits replaced, along with these, by
the byte they tell; all others stay as they are. -/
def replaced : List UInt8 → List UInt8
  | b :: high :: low :: rest =>
    if b = percentSign then
      match escapedByte? high low with
      | some e => e :: replaced rest
      | none => b :: replaced (high :: low :: rest)
    else b :: replaced (high :: low :: rest)
  | bs => bs

theorem replaced_cons {b : UInt8} (h : b ≠ percentSign) :
    ∀ rest : List UInt8, replaced (b :: rest) = b :: replaced rest
  | [] => rfl
  | [_] => rfl
  | _ :: _ :: _ => if_neg h

theorem replaced_percentSign {high low b : UInt8} (h : escapedByte? high low = some b)
    (rest : List UInt8) : replaced (percentSign :: high :: low :: rest) = b :: replaced rest := by
  rw [replaced, if_pos rfl, h]

theorem replaced_of_unescape {bs out : List UInt8} (h : unescape bs = some out) :
    replaced bs = out := by
  induction bs using unescape.induct generalizing out with
  | case1 => exact Option.some.inj h
  | case2 high low rest ih =>
    rw [unescape_percentSign] at h
    obtain ⟨b, hb, h⟩ := Option.bind_eq_some_iff.mp h
    obtain ⟨more, hmore, rfl⟩ := Option.map_eq_some_iff.mp h
    rw [replaced_percentSign hb, ih hmore]
  | case3 rest hshort =>
    rw [unescape_of_short fun high low more hrest => hshort high low more hrest] at h
    cases h
  | case4 b rest hb ih =>
    rw [unescape_cons hb] at h
    obtain ⟨more, hmore, rfl⟩ := Option.map_eq_some_iff.mp h
    rw [replaced_cons hb, ih hmore]

/-- **The two passes** together are one. -/
theorem unescape_eq_some_iff {v : List Char} {out : List UInt8} :
    unescape (bytesOf v) = some out ↔ IsEscaped v ∧ replaced (bytesOf v) = out := by
  refine ⟨fun h => ⟨isEscaped_of_unescape h, replaced_of_unescape h⟩, ?_⟩
  rintro ⟨hv, rfl⟩
  obtain ⟨out, hout⟩ := exists_unescape hv
  rw [hout, replaced_of_unescape hout]

/-! ### Texts -/

/-- The bytes of a text in UTF-8. -/
def utf8Bytes (t : String) : List UInt8 := t.toUTF8.data.toList

theorem utf8Bytes_eq (t : String) : utf8Bytes t = bytesOf t.toList := by
  rw [← toUTF8_ofList, String.ofList_toList]
  rfl

theorem fromUTF8?_eq_some_iff {bs : List UInt8} {t : String} :
    String.fromUTF8? ⟨bs.toArray⟩ = some t ↔ bs = utf8Bytes t := by
  constructor
  · intro h
    unfold String.fromUTF8? at h
    split at h
    · rw [← Option.some.inj h]
      rfl
    · cases h
  · rintro rfl
    rw [utf8Bytes_eq, fromUTF8?_bytesOf, String.ofList_toList]

/-- **A text stands for another one** if every percent sign in it begins an escape and its bytes
with the escapes replaced are those of the other. -/
structure Decodes (v t : String) : Prop where
  escaped : IsEscaped v.toList
  bytes : replaced (utf8Bytes v) = utf8Bytes t

theorem decode_eq_ok_iff {v t : String} : decode v = .ok t ↔ Decodes v t := by
  have hunescape : decode v = .ok t ↔ unescape (utf8Bytes v) = some (utf8Bytes t) := by
    constructor
    · intro h
      unfold decode at h
      split at h
      · next text htext =>
        obtain rfl := Except.ok.inj h
        obtain ⟨out, hout, ht⟩ := Option.bind_eq_some_iff.mp htext
        obtain rfl := fromUTF8?_eq_some_iff.mp ht
        exact hout
      · cases h
    · intro h
      have ht : String.fromUTF8? ⟨(utf8Bytes t).toArray⟩ = some t := fromUTF8?_eq_some_iff.mpr rfl
      unfold utf8Bytes at h ht
      unfold decode
      rw [h, Option.bind_some, ht]
  rw [hunescape, utf8Bytes_eq v, unescape_eq_some_iff, ← utf8Bytes_eq v]
  exact ⟨fun ⟨hescaped, hbytes⟩ => ⟨hescaped, hbytes⟩, fun ⟨hescaped, hbytes⟩ => ⟨hescaped, hbytes⟩⟩

theorem decode_eq_error_of_not {v : String} (h : ¬∃ t, Decodes v t) :
    decode v = .error (.percentEncoding v) := by
  cases hd : decode v with
  | ok t => exact absurd ⟨t, decode_eq_ok_iff.mp hd⟩ h
  | error f =>
    unfold decode at hd
    split at hd
    · cases hd
    · exact hd.symm

/-- **Decoding is strict and exact.** A text is decoded to another one exactly if every percent sign
in it stands before two hexadecimal digits, and its bytes with these escapes replaced are those of
the other text in UTF-8. Every text that stands for none is refused as it is. And whichever of the
characters of a text are escaped, the percent signs among them, decoding gives the text back. -/
theorem decode_strict (v : String) :
    (∀ t, decode v = .ok t ↔ Decodes v t) ∧
      ((¬∃ t, Decodes v t) → decode v = .error (.percentEncoding v)) ∧
      ∀ t : String, Encodes t.toList v.toList → decode v = .ok t := by
  refine ⟨fun t => decode_eq_ok_iff, decode_eq_error_of_not, fun t h => ?_⟩
  have hdecode := decode_of_encodes h
  rwa [String.ofList_toList, String.ofList_toList] at hdecode

/-- Escapes with digits of both cases, a percent sign that begins none, and a byte that is no
text. -/
theorem decode_strict_euro : decode "%e2%82%AC%25" = .ok "€%" ∧
    decode "19%," = .error (.percentEncoding "19%,") ∧
    decode "%ff" = .error (.percentEncoding "%ff") := by
  have heuro : String.utf8EncodeChar '€' = [0xe2, 0x82, 0xac] := by decide
  have htext : "€%".toList = ['€', '%'] := by decide
  have henc : Encodes "€%".toList "%e2%82%AC%25".toList := by
    rw [htext]
    refine .escaped (x := "%e2%82%AC".toList) ?_ (.escaped (x := "%25".toList) ?_ .nil)
    · rw [heuro]
      exact .cons (i := 14) (j := 2) rfl rfl rfl (.cons (i := 8) (j := 2) rfl rfl rfl
        (.cons (i := 10) (j := 12) rfl rfl rfl .nil))
    · exact .cons (i := 2) (j := 5) rfl rfl rfl .nil
  refine ⟨(decode_strict _).2.2 _ henc, (decode_strict _).2.1 ?_, (decode_strict _).2.1 ?_⟩
  · rintro ⟨t, hescaped, -⟩
    obtain ⟨x, y, rest, heq, -⟩ := hescaped "19".toList [','] rfl
    cases heq
  · rintro ⟨t, -, hbytes⟩
    have hnone : String.fromUTF8? ⟨(replaced (utf8Bytes "%ff")).toArray⟩ = none := by decide
    rw [fromUTF8?_eq_some_iff.mpr hbytes] at hnone
    cases hnone

end CssColor.Link
