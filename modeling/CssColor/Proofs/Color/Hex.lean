import CssColor.Color.Hex
import Mathlib.Data.String.Basic

/-! # Hexadecimal digits

Different bytes have different digits, so a color is told by its six digits (`Rgb.digits_injective`)
and bytes by their text (`Color.longHex_injective`). A digit takes one byte of text. The size of the
shortest text of some bytes therefore tells whether each of them has two equal digits
(`Color.utf8ByteSize_briefHex_iff`). -/

namespace CssColor

namespace Color

/-! ### Digits -/

theorem digitChar_injOn : ∀ m < 16, ∀ n < 16, m.digitChar = n.digitChar → m = n := by decide

theorem utf8Size_digitChar : ∀ d < 16, d.digitChar.utf8Size = 1 := by decide

theorem byteDigits_injective {b c : UInt8} (h : byteDigits b = byteDigits c) : b = c := by
  have hb : b.toNat < 256 := b.toNat_lt
  have hc : c.toNat < 256 := c.toNat_lt
  obtain ⟨hhigh, hlow⟩ : (b.toNat / 16).digitChar = (c.toNat / 16).digitChar ∧
      (b.toNat % 16).digitChar = (c.toNat % 16).digitChar := by simpa [byteDigits] using h
  have hdiv := digitChar_injOn _ (by omega) _ (by omega) hhigh
  have hmod := digitChar_injOn _ (by omega) _ (by omega) hlow
  exact UInt8.toNat_inj.mp (by omega)

theorem flatMap_byteDigits_injective {bs cs : List UInt8}
    (h : bs.flatMap byteDigits = cs.flatMap byteDigits) : bs = cs := by
  induction bs generalizing cs with
  | nil =>
    cases cs with
    | nil => rfl
    | cons c cs => cases h
  | cons b bs ih =>
    cases cs with
    | nil => cases h
    | cons c cs =>
      simp only [List.flatMap_cons] at h
      obtain ⟨hhead, htail⟩ := List.append_inj h rfl
      rw [byteDigits_injective hhead, ih htail]

/-- **Bytes are told by their text.** -/
theorem longHex_injective {bs cs : List UInt8} (h : longHex bs = longHex cs) : bs = cs :=
  flatMap_byteDigits_injective (List.cons.inj (String.ofList_injective h)).2

/-! ### The size of a text -/

/-- A row of hexadecimal digits without capital letters. -/
def IsHexRow (ds : List Char) : Prop := ∀ c ∈ ds, ∃ d < 16, c = Nat.digitChar d

theorem isHexRow_byteDigits (bytes : List UInt8) : IsHexRow (bytes.flatMap byteDigits) := by
  intro c hc
  obtain ⟨b, -, hb⟩ := List.mem_flatMap.mp hc
  have hlt : b.toNat < 256 := b.toNat_lt
  rcases List.mem_pair.mp hb with rfl | rfl
  · exact ⟨_, by omega, rfl⟩
  · exact ⟨_, by omega, rfl⟩

theorem isHexRow_brief (bytes : List UInt8) :
    IsHexRow (bytes.map fun b => Nat.digitChar (b.toNat % 16)) := by
  intro c hc
  obtain ⟨b, -, rfl⟩ := List.mem_map.mp hc
  exact ⟨_, Nat.mod_lt _ (by decide), rfl⟩

theorem IsHexRow.utf8Len {ds : List Char} (h : IsHexRow ds) : String.utf8Len ds = ds.length := by
  induction ds with
  | nil => rfl
  | cons c ds ih =>
    obtain ⟨d, hd, rfl⟩ := h c List.mem_cons_self
    rw [String.utf8Len_cons, ih fun c hc => h c (List.mem_cons_of_mem _ hc), List.length_cons,
      utf8Size_digitChar d hd]

theorem IsHexRow.utf8ByteSize {ds : List Char} (h : IsHexRow ds) :
    (String.ofList ('#' :: ds)).utf8ByteSize = ds.length + 1 := by
  rw [String.utf8ByteSize_ofList, String.utf8Len_cons, h.utf8Len]
  rfl

theorem utf8ByteSize_longHex (bytes : List UInt8) :
    (longHex bytes).utf8ByteSize = 2 * bytes.length + 1 := by
  have hdigits : ∀ b, (byteDigits b).length = 2 := fun _ => rfl
  rw [longHex, (isHexRow_byteDigits bytes).utf8ByteSize, List.length_flatMap]
  simp [hdigits, mul_comm]

theorem briefHex_of_isDouble {bytes : List UInt8} (h : bytes.all isDouble = true) :
    briefHex bytes = String.ofList ('#' :: bytes.map fun b => Nat.digitChar (b.toNat % 16)) :=
  if_pos h

/-- **The text of some bytes comes out short** if each of them has two equal digits. -/
theorem utf8ByteSize_briefHex_iff {bytes : List UInt8} (h : bytes ≠ []) :
    (briefHex bytes).utf8ByteSize = bytes.length + 1 ↔ bytes.all isDouble = true := by
  have hpos : 0 < bytes.length := List.length_pos_iff.mpr h
  constructor
  · intro hsize
    by_contra hall
    rw [briefHex, if_neg hall, utf8ByteSize_longHex] at hsize
    omega
  · intro hall
    rw [briefHex_of_isDouble hall, (isHexRow_brief bytes).utf8ByteSize, List.length_map]

end Color

/-- **A color is told by its digits.** -/
theorem Rgb.digits_injective {c d : Rgb} (h : c.digits = d.digits) : c = d := by
  have hbytes := Color.flatMap_byteDigits_injective (String.ofList_injective h)
  cases c
  cases d
  simpa using hbytes

end CssColor
