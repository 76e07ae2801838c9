import CssColor.Link
import CssColor.Proofs.Color.Spelling

/-! # Percent encoding

A text may be encoded in many ways: each of its characters is written as it is, or as the escapes of
its bytes, with digits of either case (`Encodes`). Decoding undoes them all (`decode_of_encodes`),
also when the encoding is put in lower case first, which reaches the characters that are written as
they are and leaves the escapes what they were (`decode_lower`). A text in which a percent sign
begins no escape is no encoding (`decode_of_stray`). -/

namespace CssColor.Link

open Text

/-! ### Bytes -/

/-- The bytes of a text. -/
def bytesOf (cs : List Char) : List UInt8 := cs.flatMap String.utf8EncodeChar

theorem bytesOf_cons (c : Char) (cs : List Char) :
    bytesOf (c :: cs) = String.utf8EncodeChar c ++ bytesOf cs := List.flatMap_cons

theorem bytesOf_append (cs ds : List Char) : bytesOf (cs ++ ds) = bytesOf cs ++ bytesOf ds :=
  List.flatMap_append

theorem toUTF8_ofList (cs : List Char) : (String.ofList cs).toUTF8.data.toList = bytesOf cs := by
  rw [String.toUTF8_eq_toByteArray, String.toByteArray_ofList, List.utf8Encode,
    List.data_toByteArray]
  rfl

theorem fromUTF8?_bytesOf (cs : List Char) :
    String.fromUTF8? ⟨(bytesOf cs).toArray⟩ = some (String.ofList cs) := by
  have hbytes : (⟨(bytesOf cs).toArray⟩ : ByteArray) = (String.ofList cs).toByteArray := by
    refine ByteArray.ext ?_
    rw [String.toByteArray_ofList, List.utf8Encode, List.data_toByteArray]
    rfl
  rw [hbytes, String.fromUTF8?, dif_pos (String.ofList cs).isValidUTF8]
  rfl

/-- A character of ASCII is a single byte, every other one has bytes above those of ASCII. -/
theorem utf8EncodeChar_cases (c : Char) :
    (c.toNat < 128 ∧ String.utf8EncodeChar c = [UInt8.ofNat c.toNat]) ∨
      (128 ≤ c.toNat ∧ ∀ b ∈ String.utf8EncodeChar c, 128 ≤ b.toNat) := by
  have hval : c.val.toNat = c.toNat := rfl
  have hmax : c.toNat < 0x110000 := by
    have hv := c.valid
    simp only [UInt32.isValidChar, Nat.isValidChar] at hv
    omega
  unfold String.utf8EncodeChar
  dsimp only
  rw [hval]
  split_ifs with h1 h2 h3
  · exact Or.inl ⟨by omega, rfl⟩
  all_goals
    refine Or.inr ⟨by omega, fun b hb => ?_⟩
    simp only [List.mem_cons, List.not_mem_nil, or_false] at hb
  · rcases hb with rfl | rfl <;> rw [UInt8.toNat_ofNat'] <;> omega
  · rcases hb with rfl | rfl | rfl <;> rw [UInt8.toNat_ofNat'] <;> omega
  · rcases hb with rfl | rfl | rfl | rfl <;> rw [UInt8.toNat_ofNat'] <;> omega

theorem ofNat_toNat_ofNat {c : Char} (h : c.toNat < 128) :
    Char.ofNat (UInt8.ofNat c.toNat).toNat = c := by
  have hn : (UInt8.ofNat c.toNat).toNat = c.toNat := by
    rw [UInt8.toNat_ofNat']
    omega
  rw [hn, Char.ofNat_toNat]

theorem utf8EncodeChar_percentSign : String.utf8EncodeChar '%' = [percentSign] := by decide

/-- Only the percent sign has the byte of the percent sign. -/
theorem percentSign_not_mem {c : Char} (h : c ≠ '%') :
    ∀ b ∈ String.utf8EncodeChar c, b ≠ percentSign := by
  rintro b hb rfl
  rcases utf8EncodeChar_cases c with ⟨ha, heq⟩ | ⟨-, hall⟩
  · rw [heq, List.mem_singleton] at hb
    refine h ?_
    rw [← ofNat_toNat_ofNat ha, ← hb]
    decide
  · exact absurd (hall _ hb) (by decide)

/-- The first byte of a character is a hexadecimal digit only if the character is. -/
theorem hexValue?_first_byte {c : Char} (h : isHexDigit c = false) {b : UInt8} {bs : List UInt8}
    (hb : String.utf8EncodeChar c = b :: bs) : hexValue? (Char.ofNat b.toNat) = none := by
  rcases utf8EncodeChar_cases c with ⟨ha, heq⟩ | ⟨-, hall⟩
  · obtain ⟨rfl, -⟩ := List.cons.inj (hb.symm.trans heq)
    rw [ofNat_toNat_ofNat ha]
    exact Option.not_isSome_iff_eq_none.mp (by simpa [isHexDigit] using h)
  · have hbyte := hall b (by rw [hb]; exact List.mem_cons_self)
    have hlt := b.toNat_lt
    have hv : b.toNat.isValidChar := Or.inl (by omega)
    have hn : (Char.ofNat b.toNat).toNat = b.toNat := by
      rw [Char.ofNat, dif_pos hv]
      rfl
    by_contra hne
    have hx : isHexDigit (Char.ofNat b.toNat) = true := Option.isSome_iff_ne_none.mpr hne
    have := Color.toNat_lt_of_isHexDigit hx
    omega

/-! ### Unescaping -/

theorem unescape_cons {b : UInt8} (h : b ≠ percentSign) (rest : List UInt8) :
    unescape (b :: rest) = (unescape rest).map (b :: ·) := by
  rw [unescape.eq_def]
  exact if_neg h

theorem unescape_percentSign (high low : UInt8) (rest : List UInt8) :
    unescape (percentSign :: high :: low :: rest)
      = (escapedByte? high low).bind fun b => (unescape rest).map (b :: ·) := by
  rw [unescape.eq_def]
  dsimp only
  rw [if_pos rfl]
  cases escapedByte? high low <;> cases unescape rest <;> rfl

theorem unescape_append : ∀ {bs : List UInt8}, (∀ b ∈ bs, b ≠ percentSign) → ∀ rest : List UInt8,
    unescape (bs ++ rest) = (unescape rest).map (bs ++ ·)
  | [], _, rest => by simp
  | b :: bs, h, rest => by
    have ih := unescape_append (fun d hd => h d (List.mem_cons_of_mem b hd)) rest
    rw [List.cons_append, unescape_cons (h b List.mem_cons_self), ih, Option.map_map]
    rfl

theorem unescape_literal {c : Char} (h : c ≠ '%') (cs : List Char) :
    unescape (bytesOf (c :: cs))
      = (unescape (bytesOf cs)).map (String.utf8EncodeChar c ++ ·) := by
  rw [bytesOf_cons]
  exact unescape_append (percentSign_not_mem h) _

theorem unescape_escape {x y : Char} {i j : ℕ} (hx : hexValue? x = some i)
    (hy : hexValue? y = some j) (cs : List Char) :
    unescape (bytesOf ('%' :: x :: y :: cs))
      = (unescape (bytesOf cs)).map (UInt8.ofNat (16 * i + j) :: ·) := by
  have hbyte : ∀ {c : Char} {n : ℕ}, hexValue? c = some n →
      String.utf8EncodeChar c = [UInt8.ofNat c.toNat] ∧
        hexValue? (Char.ofNat (UInt8.ofNat c.toNat).toNat) = some n := by
    intro c n hc
    have ha := Color.toNat_lt_of_isHexDigit (c := c) (by rw [isHexDigit, hc]; rfl)
    rcases utf8EncodeChar_cases c with ⟨-, heq⟩ | ⟨hge, -⟩
    · exact ⟨heq, by rw [ofNat_toNat_ofNat ha, hc]⟩
    · omega
  obtain ⟨hbx, hvx⟩ := hbyte hx
  obtain ⟨hby, hvy⟩ := hbyte hy
  rw [bytesOf_cons, bytesOf_cons, bytesOf_cons, utf8EncodeChar_percentSign, hbx, hby]
  simp only [List.cons_append, List.nil_append, unescape_percentSign, escapedByte?, hvx, hvy,
    Option.bind_some]

theorem ne_none_of_escapedByte? {high low b : UInt8} (h : escapedByte? high low = some b) :
    hexValue? (Char.ofNat high.toNat) ≠ none ∧ hexValue? (Char.ofNat low.toNat) ≠ none := by
  unfold escapedByte? at h
  split at h
  · next hh hl => simp [hh, hl]
  · cases h

/-- With less than two bytes behind it a percent sign begins no escape. -/
theorem unescape_of_short {rest : List UInt8} (h : ∀ high low more, rest ≠ high :: low :: more) :
    unescape (percentSign :: rest) = none := by
  rw [unescape.eq_def]
  dsimp only
  rw [if_pos rfl]
  split
  · next high low more => exact absurd rfl (h high low more)
  · rfl

/-- Every percent sign in bytes that can be unescaped begins an escape. -/
theorem escape_of_unescape {bs out : List UInt8} (h : unescape bs = some out)
    {before after : List UInt8} (hbs : bs = before ++ percentSign :: after) :
    ∃ high low rest b, after = high :: low :: rest ∧ escapedByte? high low = some b := by
  have hno : hexValue? (Char.ofNat percentSign.toNat) = none := by decide
  induction bs using unescape.induct generalizing out before with
  | case1 => simp at hbs
  | case2 high low rest ih =>
    rw [unescape_percentSign] at h
    obtain ⟨b, hb, h⟩ := Option.bind_eq_some_iff.mp h
    obtain ⟨more, hmore, -⟩ := Option.map_eq_some_iff.mp h
    obtain ⟨hhigh, hlow⟩ := ne_none_of_escapedByte? hb
    match before with
    | [] =>
      obtain ⟨-, rfl⟩ := List.cons.inj hbs
      exact ⟨high, low, rest, b, rfl, hb⟩
    | [_] =>
      rw [(List.cons.inj (List.cons.inj hbs).2).1] at hhigh
      exact absurd hno hhigh
    | [_, _] =>
      rw [(List.cons.inj (List.cons.inj (List.cons.inj hbs).2).2).1] at hlow
      exact absurd hno hlow
    | _ :: _ :: _ :: before =>
      exact ih hmore (List.cons.inj (List.cons.inj (List.cons.inj hbs).2).2).2
  | case3 rest hshort =>
    rw [unescape_of_short fun high low more hrest => hshort high low more hrest] at h
    cases h
  | case4 b rest hb ih =>
    rw [unescape_cons hb] at h
    obtain ⟨more, hmore, -⟩ := Option.map_eq_some_iff.mp h
    cases before with
    | nil => exact absurd (List.cons.inj hbs).1 hb
    | cons d before => exact ih hmore (List.cons.inj hbs).2

/-! ### Decoding -/

theorem decode_of_unescape {e s : List Char} (h : unescape (bytesOf e) = some (bytesOf s)) :
    decode (String.ofList e) = .ok (String.ofList s) := by
  unfold decode
  rw [toUTF8_ofList, h]
  simp only [Option.bind_some, fromUTF8?_bytesOf]

theorem decode_of_unescape_eq_none {e : List Char} (h : unescape (bytesOf e) = none) :
    decode (String.ofList e) = .error (.percentEncoding (String.ofList e)) := by
  unfold decode
  rw [toUTF8_ofList, h]
  rfl

/-- A percent sign with something behind it that is no hexadecimal digit spoils an encoding. -/
theorem decode_of_stray {u v : List Char} {d : Char} (h : isHexDigit d = false) :
    decode (String.ofList (u ++ '%' :: d :: v))
      = .error (.percentEncoding (String.ofList (u ++ '%' :: d :: v))) := by
  refine decode_of_unescape_eq_none ?_
  by_contra hne
  obtain ⟨out, hout⟩ := Option.ne_none_iff_exists'.mp hne
  obtain ⟨b, bs, hd⟩ := List.exists_cons_of_ne_nil (String.utf8EncodeChar_ne_nil (c := d))
  have hbytes : bytesOf (u ++ '%' :: d :: v)
      = bytesOf u ++ percentSign :: (b :: (bs ++ bytesOf v)) := by
    rw [bytesOf_append, bytesOf_cons, bytesOf_cons, utf8EncodeChar_percentSign, hd]
    rfl
  obtain ⟨high, low, rest, e, heq, he⟩ := escape_of_unescape hout hbytes
  obtain ⟨rfl, -⟩ := List.cons.inj heq
  rw [escapedByte?, hexValue?_first_byte h hd] at he
  cases he

theorem unescape_of_percent_not_mem : ∀ {s : List Char}, '%' ∉ s →
    unescape (bytesOf s) = some (bytesOf s)
  | [], _ => rfl
  | c :: s, h => by
    have hc : c ≠ '%' := fun hc => h (hc ▸ List.mem_cons_self)
    rw [unescape_literal hc,
      unescape_of_percent_not_mem fun hm => h (List.mem_cons_of_mem _ hm), bytesOf_cons]
    rfl

/-! ### Encodings -/

/-- The escapes of some bytes: a percent sign and two digits, of either case, for each. -/
inductive Escapes : List UInt8 → List Char → Prop
  | nil : Escapes [] []
  | cons {b : UInt8} {bs : List UInt8} {x y : Char} {cs : List Char} {i j : ℕ}
      (hx : hexValue? x = some i) (hy : hexValue? y = some j) (hb : b.toNat = 16 * i + j)
      (h : Escapes bs cs) : Escapes (b :: bs) ('%' :: x :: y :: cs)

/-- **The encodings of a text.** Each character is written as it is, the percent sign excepted, or
as the escapes of all its bytes. -/
inductive Encodes : List Char → List Char → Prop
  | nil : Encodes [] []
  | literal {c : Char} {s e : List Char} (hc : c ≠ '%') (h : Encodes s e) :
      Encodes (c :: s) (c :: e)
  | escaped {c : Char} {s x e : List Char} (hx : Escapes (String.utf8EncodeChar c) x)
      (h : Encodes s e) : Encodes (c :: s) (x ++ e)

theorem unescape_escapes {bs : List UInt8} {x : List Char} (h : Escapes bs x) (e : List Char) :
    unescape (bytesOf (x ++ e)) = (unescape (bytesOf e)).map (bs ++ ·) := by
  induction h with
  | nil => simp
  | @cons b bs x y cs i j hx hy hb _ ih =>
    have hb' : UInt8.ofNat (16 * i + j) = b := by rw [← hb, UInt8.ofNat_toNat]
    rw [List.cons_append, List.cons_append, List.cons_append, unescape_escape hx hy, ih, hb',
      Option.map_map]
    rfl

theorem unescape_of_encodes {s e : List Char} (h : Encodes s e) :
    unescape (bytesOf e) = some (bytesOf s) := by
  induction h with
  | nil => rfl
  | literal hc _ ih => rw [unescape_literal hc, ih, bytesOf_cons]; rfl
  | escaped hx _ ih => rw [unescape_escapes hx, ih, bytesOf_cons]; rfl

/-- **Decoding undoes every encoding.** -/
theorem decode_of_encodes {s e : List Char} (h : Encodes s e) :
    decode (String.ofList e) = .ok (String.ofList s) :=
  decode_of_unescape (unescape_of_encodes h)

/-! ### Encodings in lower case -/

/-- Digits are the same in lower case. -/
theorem hexValue?_spec {c : Char} {n : ℕ} (h : hexValue? c = some n) :
    lowerChar c = [c.toLower] ∧ hexValue? c.toLower = some n ∧ c ≠ 'Σ' := by
  have ha := Color.toNat_lt_of_isHexDigit (c := c) (by rw [isHexDigit, h]; rfl)
  have hlow : hexValue? c.toLower = hexValue? c :=
    forall_ascii (P := fun c => (hexValue? c).isSome = true → hexValue? c.toLower = hexValue? c)
      (by decide) ha (by rw [h]; rfl)
  refine ⟨if_pos ha, hlow.trans h, ?_⟩
  rintro rfl
  exact absurd ha (by decide)

theorem Escapes.lower {bs : List UInt8} {x : List Char} (h : Escapes bs x) :
    'Σ' ∉ x ∧ Escapes bs (x.flatMap lowerChar) := by
  induction h with
  | nil => exact ⟨by simp, .nil⟩
  | @cons b bs x y cs i j hx hy hb _ ih =>
    obtain ⟨hlx, hvx, hsx⟩ := hexValue?_spec hx
    obtain ⟨hly, hvy, hsy⟩ := hexValue?_spec hy
    have hp : lowerChar '%' = ['%'] := by decide
    refine ⟨?_, ?_⟩
    · simp only [List.mem_cons, not_or]
      exact ⟨by decide, hsx.symm, hsy.symm, ih.1⟩
    · rw [List.flatMap_cons, List.flatMap_cons, List.flatMap_cons, hp, hlx, hly]
      exact .cons hvx hvy hb ih.2

/-- In lower case an encoding of a text encodes the text with what was written as it is in lower
case. -/
theorem Encodes.lower {s e : List Char} (h : Encodes s e) (hsigma : 'Σ' ∉ s)
    (hs : ∀ c ∈ s, Settled c) :
    'Σ' ∉ e ∧ ∃ v, Lowering s v ∧ Encodes v (e.flatMap lowerChar) := by
  induction h with
  | nil => exact ⟨by simp, [], .nil, .nil⟩
  | @literal c s e hc _ ih =>
    obtain ⟨he, v, hv, henc⟩ := ih (fun hm => hsigma (List.mem_cons_of_mem _ hm))
      fun d hd => hs d (List.mem_cons_of_mem _ hd)
    have hce : c ≠ 'Σ' := fun h => hsigma (h ▸ List.mem_cons_self)
    refine ⟨by simp [hce.symm, he], ?_⟩
    rw [List.flatMap_cons]
    rcases hs c List.mem_cons_self with hlow | ⟨d, hlow, hd⟩
    · rw [hlow]
      exact ⟨c :: v, .cons (Or.inl rfl) hv, .literal hc henc⟩
    · have hdp : d ≠ '%' := by
        rintro rfl
        exact absurd hd (by decide)
      rw [hlow]
      exact ⟨d :: v, .cons (Or.inr hlow) hv, .literal hdp henc⟩
  | @escaped c s x e hx _ ih =>
    obtain ⟨he, v, hv, henc⟩ := ih (fun hm => hsigma (List.mem_cons_of_mem _ hm))
      fun d hd => hs d (List.mem_cons_of_mem _ hd)
    obtain ⟨hxs, hxl⟩ := hx.lower
    refine ⟨by simp [hxs, he], c :: v, .cons (Or.inl rfl) hv, ?_⟩
    rw [List.flatMap_append]
    exact .escaped hxl henc

theorem decode_lower {s e : List Char} (h : Encodes s e)
    (hs : ∀ d ∈ lower s, isOrdinary d = true) :
    ∃ v, Lowering s v ∧ decode (String.ofList (lower e)) = .ok (String.ofList v) := by
  obtain ⟨hsigma, hset⟩ := settled_of_lower hs
  obtain ⟨he, v, hv, henc⟩ := h.lower hsigma hset
  refine ⟨v, hv, ?_⟩
  rw [lower, lowerAfter_eq_flatMap [] e he]
  exact decode_of_encodes henc

end CssColor.Link
