import CssColor.TextColor
import CssColor.Proofs.Color.Legible
import CssColor.Proofs.Expression.Alpha

/-! # When a text color is solid

A text color is made from a base taken as solid, so it is solid unless alpha is adjusted on the way.
The amount of the contrast is put into the expression as it is, and its own parentheses can close
the call and begin others, alpha among them. So whether the text color is solid lies in the calls
that the text of the amount comes to (`textColor_isSolid_iff`). An adjustment has one closing
parenthesis (`AdjustmentText.count_closing`), so there is one call for each of those in the amount,
behind the contrast that comes first (`ContrastText.exists_more`). -/

namespace CssColor

open Number Number.Scalar Number.Binary64 Text Expression

/-! ### Closing parentheses -/

namespace Expression

theorem closing_not_mem_of_forall {p : Char → Bool} {cs : List Char}
    (h : ∀ c ∈ cs, p c = true) (hp : p ')' = false) : ')' ∉ cs := by
  intro hmem
  rw [h _ hmem] at hp
  cases hp

theorem IsBlanks.closing_not_mem {b : List Char} (h : IsBlanks b) : ')' ∉ b :=
  closing_not_mem_of_forall h (by decide)

theorem AmountText.closing_not_mem {a : Amount Binary64} {t : List Char} (h : AmountText a t) :
    ')' ∉ t := by
  obtain ⟨hs, hw, hf, hu⟩ := h
  have hdigits : ∀ {ds : List Char}, IsRun Char.isDigit ds → ')' ∉ ds := fun hd =>
    closing_not_mem_of_forall hd.2 (by decide)
  simp only [List.mem_append, not_or]
  refine ⟨?_, hdigits hw, ?_, ?_⟩
  · cases hs <;> decide
  · cases hf with
    | absent => decide
    | pointed hd => simpa using hdigits hd
  · cases hu with
    | number => decide
    | percent => decide
    | degrees hdeg =>
      intro hmem
      have hlow : ')'.toLower ∈ ['d', 'e', 'g'] := hdeg ▸ List.mem_map_of_mem hmem
      exact absurd hlow (by decide)

theorem ModifierText.closing_not_mem {m : Modifier} {t : List Char} (h : ModifierText m t) :
    ')' ∉ t := by
  obtain ⟨hb⟩ := h
  have hsign : ')' ≠ m.sign := by cases m <;> decide
  have hblank := IsBlanks.closing_not_mem (b := [_]) (by simpa [IsBlanks] using hb)
  simp only [List.mem_cons, not_or] at hblank ⊢
  exact ⟨hsign, hblank⟩

theorem OptionalText.not_mem {α : Type} {P : α → List Char → Prop} {a : Option α} {t : List Char}
    {d : Char} (h : OptionalText P a t) (hP : ∀ {a t}, P a t → d ∉ t) : d ∉ t := by
  cases h with
  | absent => simp
  | present h => exact hP h

/-- An adjustment has one closing parenthesis. -/
theorem AdjustmentText.count_closing {a : Adjustment Binary64} {t : List Char}
    (h : AdjustmentText a t) : t.count ')' = 1 := by
  obtain ⟨hn, hb, hm, hc, ha, hd⟩ := h
  have hname := closing_not_mem_of_forall hn.2 (by decide)
  have hsign := hm.not_mem ModifierText.closing_not_mem
  have hamount := ha.not_mem AmountText.closing_not_mem
  simp [List.count_append, List.count_eq_zero_of_not_mem, hname, hsign, hamount,
    hb.closing_not_mem, hc.closing_not_mem, hd.closing_not_mem]

theorem AdjustmentsText.count_closing {as : List (Adjustment Binary64)} {ts : List Char}
    (h : AdjustmentsText as ts) : ts.count ')' = as.length := by
  induction h with
  | nil => rfl
  | cons hb ha has ih =>
    rw [List.count_append, List.count_append, List.count_eq_zero_of_not_mem hb.closing_not_mem,
      ha.count_closing, ih, List.length_cons]
    omega

theorem TailText.count_closing {as : List (Adjustment Binary64)} {s : List Char}
    (h : TailText as s) : s.count ')' = as.length + 1 := by
  obtain ⟨ha, hb⟩ := h
  rw [List.count_append, List.count_append, ha.count_closing,
    List.count_eq_zero_of_not_mem hb.closing_not_mem]
  simp

/-- Behind a base and blanks a name with a parenthesis begins the first adjustment. -/
theorem TailText.exists_name {as : List (Adjustment Binary64)} {b name rest : List Char}
    (h : TailText as (b ++ (name ++ '(' :: rest))) (hb : IsBlanks b) (hn : IsRun isNameChar name) :
    ∃ a more, as = a :: more ∧ a.name = String.ofList (lower name) := by
  have hopen : ∀ cs, ∀ c ∈ ('(' :: cs).head?, isNameChar c = false :=
    forall_head?_cons (by decide)
  have hstart : ∀ {w cs : List Char}, IsRun isNameChar w →
      ∀ c ∈ (w ++ '(' :: cs).head?, isBlank c = false := fun hw c hc =>
    isBlank_of_isNameChar (head?_isRun hw c hc)
  generalize hs : b ++ (name ++ '(' :: rest) = s at h
  obtain ⟨ha, hb'⟩ := h
  have hskip := congrArg skipBlanks hs
  rw [skipBlanks_run hb (hstart hn)] at hskip
  cases ha with
  | nil =>
    rw [List.nil_append, skipBlanks_closing hb'] at hskip
    have hclose : isNameChar ')' = true :=
      head?_isRun hn ')' (by rw [hskip]; rfl)
    exact absurd hclose (by decide)
  | @cons a as blanks t ts hblanks hadj has =>
    obtain ⟨hn', -, -, -, -, -⟩ := hadj
    simp only [List.append_assoc, List.cons_append] at hskip
    rw [skipBlanks_run hblanks (hstart hn')] at hskip
    have hname := congrArg (List.takeWhile isNameChar) hskip
    rw [takeWhile_run hn.2 (hopen _), takeWhile_run hn'.2 (hopen _)] at hname
    exact ⟨_, as, rfl, by rw [hname]⟩

end Expression

/-! ### Solid answers -/

/-- A text `rgb(r, g, b)`. -/
def IsSolidText (out : String) : Prop := ∃ c : Rgb, out = "rgb(" ++ c.channels ++ ")"

/-- The fourth character tells the two forms apart. -/
theorem not_isSolidText_withAlphaText (c : Rgb) (alpha : String) :
    ¬IsSolidText (c.withAlphaText alpha) := by
  rintro ⟨d, hd⟩
  have hfourth := congrArg (fun t : String => t.toList[3]?) hd
  simp [Rgb.withAlphaText, String.toList_append] at hfourth

theorem isSolidText_rgbText_iff (c : Color) : IsSolidText c.rgbText ↔ 1 ≤ c.alpha := by
  rw [← Rgba.isSolid_iff, rgbText_eq]
  split_ifs with hs
  · exact iff_of_true ⟨c.rounded, rfl⟩ hs
  · exact iff_of_false (not_isSolidText_withAlphaText _ _) hs

theorem IsSolidText.read {out : String} (h : IsSolidText out) :
    ∃ s, Swatch.read out = .ok s ∧ s.color.alpha = 1 := by
  obtain ⟨c, rfl⟩ := h
  have hs := Rgba.isSolid_solid c
  have htext : Color.rgbText (Rgba.solid c) = "rgb(" ++ c.channels ++ ")" := by
    rw [rgbText_eq, if_pos hs, Rgba.rounded_solid]
  have hread := Color.read_rgbText (Rgba.inRange_solid c).alpha
  rw [htext, Rgba.shown_of_isSolid hs] at hread
  exact ⟨_, Swatch.read_of_read hread, Rgba.clampUnit_one⟩

/-! ### Text colors -/

/-- The calls that the text of an amount comes to, in the place of the amount of a contrast. -/
def ContrastText (as : List (Adjustment Binary64)) (amount : String) : Prop :=
  TailText as ((" contrast(" ++ amount ++ ")").toList ++ [')'])

/-- The first call is the contrast; each closing parenthesis in the amount makes one more. -/
theorem ContrastText.exists_more {amount : String} {as : List (Adjustment Binary64)}
    (h : ContrastText as amount) : ∃ a more, as = a :: more ∧ a.name = "contrast" ∧
      more.length = amount.toList.count ')' := by
  have htext : (" contrast(" ++ amount ++ ")").toList ++ [')']
      = [' '] ++ ("contrast".toList ++ '(' :: (amount.toList ++ "))".toList)) := by
    simp [String.toList_append]
  have hlower : String.ofList (lower "contrast".toList) = "contrast" := by decide
  unfold ContrastText at h
  rw [htext] at h
  obtain ⟨a, more, rfl, hname⟩ := h.exists_name (by simp [IsBlanks, isBlank])
    ⟨by decide, List.all_eq_true.mp (by decide)⟩
  have hcount := h.count_closing
  simp [List.count_append] at hcount
  exact ⟨a, more, rfl, hname.trans hlower, by omega⟩

theorem exists_of_textColor_eq_ok {evaluate : Evaluator} {amount base out : String}
    (h : (evaluate.textColor amount base).value = .ok out) :
    ∃ k c f, Components.read base = .ok k ∧ Color.read base = .ok (c, f) := by
  unfold Evaluator.textColor at h
  split at h
  · next k c f hk hc => exact ⟨k, c, f, hk, hc⟩
  · cases h
  · cases h

theorem functionalText_rgbText {c : Color} (h : c.alpha.isNaN = false) :
    FunctionalText c.rgbText.toList := by
  rw [toList_rgbText h]
  exact functionalText_callText isCall_rgb

/-- What is made of any amount: of its calls, those behind the contrast settle alpha. -/
theorem isSolidText_contrast_iff {amount out : String} {c : Color}
    (h : (Evaluator.standard (wrap (Color.rgbText (c.withAlpha 1))
      (" contrast(" ++ amount ++ ")"))).value = .ok out) :
    ∃ a more, ContrastText (a :: more) amount ∧ a.name = "contrast" ∧
      more.length = amount.toList.count ')' ∧ (IsSolidText out ↔ 1 ≤ alphaAlong 1 more) := by
  have hnan := isNaN_alpha_withAlpha_one c
  obtain ⟨e, base, d, hread, hbase, hadjust, rfl⟩ := value_standard_eq_ok_iff.mp h
  obtain ⟨as, rfl, htext⟩ := (read_wrap_eq_ok_iff (functionalText_rgbText hnan)
    (not_exists.mpr (isBase_rgbText hnan).not_derives)).mp hread
  obtain ⟨a, more, rfl, hname, hlength⟩ := ContrastText.exists_more htext
  have hsolid : evaluateLiteral (Color.rgbText (c.withAlpha 1)) = .ok (.solid c.rounded) :=
    evaluateLiteral_of_read (read_rgbText_withAlpha_one c) rfl
  obtain rfl := Except.ok.inj (hsolid.symm.trans hbase)
  have hfirst : a.alphaAfter 1 = 1 :=
    Adjustment.alphaAfter_of_ne (by rw [hname]; decide) 1
  have halpha : Rgba.alpha (.solid c.rounded : Color) = 1 := Rgba.clampUnit_one
  have halike : Alike d.alpha (alphaAlong 1 more) := by
    have hrow := alike_alphaAlong htext.numeric (Rgba.inRange_solid c.rounded).alpha hadjust
    rwa [halpha, alphaAlong, List.foldl_cons, hfirst] at hrow
  exact ⟨a, more, htext, hname, hlength, (isSolidText_rgbText_iff d).trans halike.one_le_iff⟩

/-- **When a text color is solid.** A base that shines through gets black. Every other answer is
solid exactly if alpha, from 1 on, comes to 1 along the calls behind the contrast, of which the
amount makes one with each closing parenthesis. So it is solid if there is none, and what is solid
is read as a color with an alpha of 1. -/
theorem textColor_isSolid_iff {amount base out : String}
    (h : (Evaluator.standard.textColor amount base).value = .ok out) :
    ∃ k, Components.read base = .ok k ∧
      (k.alpha < 50 → out = "rgb(0, 0, 0)") ∧
      (50 ≤ k.alpha → ∃ a more, ContrastText (a :: more) amount ∧ a.name = "contrast" ∧
        more.length = amount.toList.count ')' ∧ (IsSolidText out ↔ 1 ≤ alphaAlong 1 more)) ∧
      (')' ∉ amount.toList → IsSolidText out) ∧
      (IsSolidText out → ∃ s, Swatch.read out = .ok s ∧ s.color.alpha = 1) := by
  obtain ⟨k, c, f, hk, hc⟩ := exists_of_textColor_eq_ok h
  rw [value_textColor _ _ hk hc] at h
  by_cases halpha : k.alpha < 50
  · rw [if_pos halpha] at h
    obtain rfl := Except.ok.inj h
    have hblack : IsSolidText "rgb(0, 0, 0)" := ⟨⟨0, 0, 0⟩, by decide⟩
    exact ⟨k, hk, fun _ => rfl, fun hle => absurd halpha (not_lt.mpr hle), fun _ => hblack,
      IsSolidText.read⟩
  · rw [if_neg halpha] at h
    obtain ⟨a, more, htext, hname, hlength, hiff⟩ := isSolidText_contrast_iff h
    refine ⟨k, hk, fun hlt => absurd hlt halpha, fun _ => ⟨a, more, htext, hname, hlength, hiff⟩,
      fun hclosing => ?_, IsSolidText.read⟩
    rw [List.count_eq_zero_of_not_mem hclosing] at hlength
    obtain rfl := List.length_eq_zero_iff.mp hlength
    exact hiff.mpr Rgba.one_le_one

/-- What is made of red: the contrast turns it white, and calls of alpha follow. -/
theorem value_textColor_red :
    (Evaluator.standard.textColor "100%) a(50%) alpha(100%" "red").value
        = .ok "rgb(255, 255, 255)" ∧
      (Evaluator.standard.textColor "100%) alpha(50%" "red").value
        = .ok "rgba(255, 255, 255, 0.5)" := by
  have hk : Components.read "red" = .ok ⟨100, 0, 100, 50, 0, 0, 255, 0, 0⟩ := by decide +kernel
  have hc : Color.read "red" = .ok (.solid ⟨255, 0, 0⟩, .keyword) := rfl
  have hwhite : (ControlKind.contrast.wholeCall 100 false).adjustment.apply Color.luminance
      (.solid ⟨255, 0, 0⟩) = .ok (.solid ⟨255, 255, 255⟩) := by
    rw [apply_contrast, legible_red_one]
  have hanswer {amount : String} {ws : List WholeCall}
      (hv : ∀ w ∈ ControlKind.contrast.wholeCall 100 false :: ws, w.Valid)
      (ha : (" contrast(" ++ amount ++ ")").toList
        = callsText (ControlKind.contrast.wholeCall 100 false :: ws)) :
      (Evaluator.standard.textColor amount "red").value
        = (adjust (.solid ⟨255, 255, 255⟩) (ws.map WholeCall.adjustment)).value.map
            Color.rgbText := by
    rw [value_textColor_of_calls hk hc (by decide) hv ha, Rgba.rounded_solid, List.map_cons,
      value_adjust_of_ok _ hwhite]
  constructor
  · have htext : (" contrast(" ++ "100%) a(50%) alpha(100%" ++ ")").toList
        = callsText [ControlKind.contrast.wholeCall 100 false, ControlKind.alpha.wholeCall 50 true,
            ControlKind.alpha.wholeCall 100 false] := by decide
    exact (hanswer (by simp [ControlKind.valid_wholeCall]) htext).trans (by decide +kernel)
  · have htext : (" contrast(" ++ "100%) alpha(50%" ++ ")").toList
        = callsText [ControlKind.contrast.wholeCall 100 false,
            ControlKind.alpha.wholeCall 50 false] := by decide
    exact (hanswer (by simp [ControlKind.valid_wholeCall]) htext).trans (by decide +kernel)

/-- A call of alpha that takes back what another did. -/
theorem textColor_isSolid_iff_replaced :
    (Evaluator.standard.textColor "100%) a(50%) alpha(100%" "red").value
      = .ok "rgb(255, 255, 255)" ∧
    ∃ s, Swatch.read "rgb(255, 255, 255)" = .ok s ∧ s.color.alpha = 1 := by
  have hvalue := value_textColor_red.1
  obtain ⟨-, -, -, -, -, hread⟩ := textColor_isSolid_iff hvalue
  exact ⟨hvalue, hread ⟨⟨255, 255, 255⟩, by decide⟩⟩

/-- A call of alpha that lets the answer shine through. -/
theorem textColor_shines_through :
    (Evaluator.standard.textColor "100%) alpha(50%" "red").value
      = .ok "rgba(255, 255, 255, 0.5)" ∧
    ¬IsSolidText "rgba(255, 255, 255, 0.5)" := by
  have halpha : "rgba(255, 255, 255, 0.5)" = Rgb.withAlphaText ⟨255, 255, 255⟩ "0.5" := by decide
  refine ⟨value_textColor_red.2, ?_⟩
  rw [halpha]
  exact not_isSolidText_withAlphaText _ _

end CssColor
