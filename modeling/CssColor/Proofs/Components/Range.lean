import CssColor.Panel
import CssColor.Proofs.Color.Grammar

/-! # The ranges of components

Every component has a range, from zero up to `Channel.top`. The components that are computed keep to
it on every color in range (`Components.hslInRange_hslOf`, `Components.ofColor_mem`), since the
numbers they are cut down from do. What a text in the form `hsl` states itself is not looked at: its
hue, saturation and lightness come through as they are. So the components are in range, and with
them the values of a panel they are put into, exactly if the numbers of the text are
(`Components.inRange_iff`). -/

namespace CssColor

open Number Number.Scalar Number.Binary64 Text

/-- The upper end of the range of a component. -/
def Channel.top : Channel → Int
  | .hue => 360
  | .red | .green | .blue => 255
  | .alpha | .saturation | .lightness | .whiteness | .blackness => 100

/-- Every component lies in its range. -/
def Components.InRange (k : Components) : Prop := ∀ ch : Channel, 0 ≤ k.get ch ∧ k.get ch ≤ ch.top

/-- Every control of a panel has a value in the range it shows. -/
def Panel.InRange (p : Panel) : Prop :=
  ∀ kind : ControlKind, 0 ≤ (p.setting kind).value ∧ (p.setting kind).value ≤ kind.maxValue

/-- A whole hue, saturation and lightness in their ranges. -/
def HslInRange (hsl : Int × Int × Int) : Prop :=
  (0 ≤ hsl.1 ∧ hsl.1 ≤ 360) ∧ (0 ≤ hsl.2.1 ∧ hsl.2.1 ≤ 100) ∧ 0 ≤ hsl.2.2 ∧ hsl.2.2 ≤ 100

/-! ### Whole numbers -/

theorem truncate_mem {q : ℚ} {n : ℕ} (h0 : 0 ≤ q) (h : q < n + 1) :
    0 ≤ truncate q ∧ truncate q ≤ n := by
  have hlt : ⌊q⌋ < (n : ℤ) + 1 := Int.floor_lt.mpr (by exact_mod_cast h)
  rw [truncate_of_nonneg h0]
  exact ⟨Int.floor_nonneg.mpr h0, Int.lt_add_one_iff.mp hlt⟩

namespace Components

/-- What is added before a fraction is dropped is far less than a half. -/
theorem within_tolerance : Within 0 (1 / 2) (1 / 1000000000 : Binary64) := by
  have hv : (1000000000 : Binary64).value = 1000000000 := value_literal (by norm_num)
  have hhalf : IsDouble (1 / 2) := ⟨1, -1, by norm_num, by norm_num, by norm_num, by norm_num⟩
  refine within_div (isFinite_ofNat (by norm_num)) (isFinite_ofNat (by norm_num)) ?_ isDouble_zero
    hhalf ?_ ?_ <;> rw [hv]
  · norm_num
  · rw [value_one]
    norm_num
  · rw [value_one]
    norm_num

/-- Dropping a fraction does not lead out of a range of whole numbers, not even for a number that is
at the upper end of it. -/
theorem whole_mem {n : ℕ} {x : Binary64} (h : Within 0 n x) (hn : n < 2 ^ 50) :
    0 ≤ whole x ∧ whole x ≤ n := by
  have hn' : (n : ℚ) < 2 ^ 50 := by exact_mod_cast hn
  have hd : IsDouble (n + 1 / 2) := by
    refine ⟨2 * n + 1, -1, ?_, by norm_num, by norm_num, ?_⟩
    · rw [abs_of_nonneg (by positivity)]
      omega
    · push_cast
      rw [zpow_neg_one]
      ring
  have hsum : Within 0 (n + 1 / 2) (x + 1 / 1000000000) :=
    within_add h.isFinite within_tolerance.isFinite isDouble_zero hd
      (by linarith [h.lo_le, within_tolerance.lo_le])
      (by linarith [h.le_hi, within_tolerance.le_hi])
  exact truncate_mem hsum.lo_le (by linarith [hsum.le_hi])

/-- A share of one in whole percent. -/
theorem whole_percent_mem {x : Binary64} (h : Within 0 1 x) :
    0 ≤ whole (x * 100) ∧ whole (x * 100) ≤ 100 := by
  have hp := h.mul_ofNat (n := 100) (by norm_num)
    (by exact_mod_cast isDouble_natCast (n := 100) (by norm_num))
  exact whole_mem (n := 100) (by exact_mod_cast hp) (by norm_num)

theorem hslInRange_hslOf {c : Color} (h : c.InRange) : HslInRange (hslOf c) := by
  obtain ⟨hh, hs, hl⟩ := h.toHsl
  exact ⟨whole_mem (n := 360) (by exact_mod_cast hh) (by norm_num), whole_percent_mem hs,
    whole_percent_mem hl⟩

theorem alpha_mem {c : Color} (h : c.InRange) :
    0 ≤ Scalar.toIntNearest (c.alpha * 100) ∧ Scalar.toIntNearest (c.alpha * 100) ≤ 100 :=
  h.alpha.toIntNearest_share_mem (n := 100) (by norm_num)

/-- The components of a color, with a given hue, saturation and lightness. -/
def ofColor (c : Color) (hsl : Int × Int × Int) : Components where
  alpha := Scalar.toIntNearest (c.alpha * 100)
  hue := hsl.1
  saturation := hsl.2.1
  lightness := hsl.2.2
  whiteness := whole ((Rgba.solid c.rounded : Color).toHwb.whiteness * 100)
  blackness := whole ((Rgba.solid c.rounded : Color).toHwb.blackness * 100)
  red := whole c.red
  green := whole c.green
  blue := whole c.blue

/-- Only a text in the form `hsl` states a hue. -/
theorem format_of_hslTokens? {text : String} {c : Color} {f : Format}
    (h : Color.read text = .ok (c, f)) {tokens : Int × Int × Int}
    (ht : hslTokens? text = some tokens) : f = .hsl := by
  have hform := (Color.colorText_of_read h).formOf_eq
  unfold hslTokens? at ht
  dsimp only at ht
  generalize lower (trim text.toList) = small at hform ht
  split at ht
  · cases ht
  · next body hbody =>
    have hstart : '(' ∈ small ∧ small.head? ≠ some 'r' := by
      rcases Option.or_eq_some_iff.mp hbody with hb | ⟨-, hb⟩ <;> rw [eq_of_afterStart? hb]
      all_goals exact ⟨List.mem_append_left _ (by decide),
        fun hr => absurd (Option.some.inj hr) (by decide)⟩
    rw [Color.formOf, if_pos hstart.1, if_neg hstart.2] at hform
    exact (Option.some.inj hform).symm

/-- The components of a color text are those of its color, but for the hue, saturation and lightness
that it states. -/
theorem read_of_read {text : String} {c : Color} {f : Format} (h : Color.read text = .ok (c, f)) :
    read text = .ok (ofColor c ((hslTokens? text).getD (hslOf c))) := by
  have htokens : (if f = .hsl then hslTokens? text else none) = hslTokens? text := by
    cases ht : hslTokens? text with
    | none => exact ite_self none
    | some tokens => rw [if_pos (format_of_hslTokens? h ht)]
  rw [← htokens]
  show (Color.read text >>= _) = _
  rw [h]
  rfl

theorem ofColor_mem {c : Color} (h : c.InRange) {hsl : Int × Int × Int} {ch : Channel}
    (hch : ch ∉ [Channel.hue, .saturation, .lightness]) :
    0 ≤ (ofColor c hsl).get ch ∧ (ofColor c hsl).get ch ≤ ch.top := by
  have hsolid := Rgba.inRange_solid c.rounded
  have hbyte : ∀ {x : Binary64}, Within 0 255 x → 0 ≤ whole x ∧ whole x ≤ 255 := fun hx =>
    whole_mem (n := 255) (by exact_mod_cast hx) (by norm_num)
  cases ch with
  | alpha => exact alpha_mem h
  | red => exact hbyte h.red
  | green => exact hbyte h.green
  | blue => exact hbyte h.blue
  | whiteness =>
    exact whole_percent_mem (Rgba.within_channelShare
      (Rgba.within_smallest hsolid.red hsolid.green hsolid.blue))
  | blackness =>
    exact whole_percent_mem (Rgba.within_distanceShare
      (Rgba.within_largest hsolid.red hsolid.green hsolid.blue))
  | hue | saturation | lightness => exact absurd (by decide) hch

theorem inRange_ofColor_iff {c : Color} (h : c.InRange) {hsl : Int × Int × Int} :
    (ofColor c hsl).InRange ↔ HslInRange hsl := by
  constructor
  · exact fun hk => ⟨hk .hue, hk .saturation, hk .lightness⟩
  · rintro ⟨hh, hs, hl⟩ ch
    by_cases hch : ch ∈ [Channel.hue, .saturation, .lightness]
    · simp only [List.mem_cons, List.not_mem_nil, or_false] at hch
      rcases hch with rfl | rfl | rfl
      · exact hh
      · exact hs
      · exact hl
    · exact ofColor_mem h hch

/-- What a text states replaces what is computed, which is in range. -/
theorem hslInRange_getD_iff {c : Color} (h : c.InRange) {stated : Option (Int × Int × Int)} :
    HslInRange (stated.getD (hslOf c)) ↔ ∀ hsl, stated = some hsl → HslInRange hsl := by
  cases stated with
  | none => simpa using hslInRange_hslOf h
  | some hsl => simp

end Components

/-! ### Panels -/

theorem ControlKind.maxValue_eq {kind : ControlKind} {ch : Channel} (h : kind.channel? = some ch) :
    kind.maxValue = ch.top := by
  revert h
  cases kind <;> cases ch <;> decide

theorem ControlKind.maxValue_nonneg (kind : ControlKind) : 0 ≤ kind.maxValue := by
  cases kind <;> decide

/-- The values of a new panel are components, and zero where there is no component. -/
theorem Panel.inRange_seeded_iff {text : String} {c : Color} {hsl : Int × Int × Int}
    (hc : c.InRange) (h : Components.read text = .ok (.ofColor c hsl)) :
    ∃ p, seeded {} text = .ok p ∧ (p.InRange ↔ HslInRange hsl) := by
  refine ⟨⟨fun kind => ⟨false, (kind.channel?.map (Components.ofColor c hsl).get).getD 0⟩⟩,
    by rw [seeded, h]; rfl, ?_⟩
  rw [← Components.inRange_ofColor_iff hc]
  constructor
  · exact fun hp => (Components.inRange_ofColor_iff hc).mpr ⟨hp .hue, hp .saturation, hp .lightness⟩
  · intro hk kind
    cases hch : kind.channel? with
    | none => simpa [hch] using kind.maxValue_nonneg
    | some ch => simpa [hch, ControlKind.maxValue_eq hch] using hk ch

/-- **The range of every component** of a color text, and of every value a new panel is given for
it. Alpha, whiteness, blackness and the bytes always keep to their ranges. Hue, saturation and
lightness do unless the text states them itself, as only a text in the form `hsl` can; then they are
in range exactly if what it states is. -/
theorem Components.inRange_iff {text : String} {c : Color} {f : Format}
    (h : Color.read text = .ok (c, f)) :
    ∃ k p, read text = .ok k ∧ Panel.seeded {} text = .ok p ∧
      (∀ ch ∉ [Channel.hue, .saturation, .lightness], 0 ≤ k.get ch ∧ k.get ch ≤ ch.top) ∧
      (k.InRange ↔ ∀ hsl, hslTokens? text = some hsl → HslInRange hsl) ∧
      (p.InRange ↔ ∀ hsl, hslTokens? text = some hsl → HslInRange hsl) ∧
      (f ≠ .hsl → k.InRange ∧ p.InRange) := by
  have hc := Color.inRange_of_read h
  have hk := read_of_read h
  obtain ⟨p, hp, hpiff⟩ := Panel.inRange_seeded_iff hc hk
  rw [hslInRange_getD_iff hc] at hpiff
  have hkiff : (ofColor c ((hslTokens? text).getD (hslOf c))).InRange ↔ _ :=
    (inRange_ofColor_iff hc).trans (hslInRange_getD_iff hc)
  refine ⟨_, p, hk, hp, fun ch hch => ofColor_mem hc hch, hkiff, hpiff, fun hf => ?_⟩
  have hnone : ∀ hsl, hslTokens? text = some hsl → HslInRange hsl := fun hsl ht =>
    absurd (format_of_hslTokens? h ht) hf
  exact ⟨hkiff.mpr hnone, hpiff.mpr hnone⟩

theorem Components.inRange_iff_full_turn : ∃ k p,
    Components.read "hsl(360, 100%, 50%)" = .ok k ∧ Panel.seeded {} "hsl(360, 100%, 50%)" = .ok p ∧
      k.hue = 360 ∧ k.InRange ∧ p.InRange := by
  have hread : Color.read "hsl(360, 100%, 50%)" = .ok (.solid ⟨255, 0, 0⟩, .hsl) := by
    decide +kernel
  have hcomponents : Components.read "hsl(360, 100%, 50%)"
      = .ok { alpha := 100, hue := 360, saturation := 100, lightness := 50, red := 255 } := by
    decide +kernel
  have htokens : hslTokens? "hsl(360, 100%, 50%)" = some (360, 100, 50) := by decide
  have hstated : ∀ hsl, hslTokens? "hsl(360, 100%, 50%)" = some hsl → HslInRange hsl := by
    rintro hsl h
    obtain rfl := Option.some.inj (htokens.symm.trans h)
    simp [HslInRange]
  obtain ⟨k, p, hk, hp, -, hkiff, hpiff, -⟩ := Components.inRange_iff hread
  refine ⟨k, p, hk, hp, ?_, hkiff.mpr hstated, hpiff.mpr hstated⟩
  rw [← Except.ok.inj (hcomponents.symm.trans hk)]

/-- A hue beyond the full turn is read as a color, and comes through as it is. -/
theorem Components.not_inRange_over_full_turn : ∃ k p,
    Components.read "hsl(400, 50%, 50%)" = .ok k ∧ Panel.seeded {} "hsl(400, 50%, 50%)" = .ok p ∧
      k.hue = 400 ∧ ¬k.InRange ∧ ¬p.InRange := by
  have hcomponents : Components.read "hsl(400, 50%, 50%)"
      = .ok ⟨100, 400, 50, 50, 25, 25, 191, 148, 63⟩ := by decide +kernel
  refine ⟨_, _, hcomponents, by rw [Panel.seeded, hcomponents]; rfl, rfl, fun hk => ?_,
    fun hp => ?_⟩
  · exact absurd (hk .hue).2 (by decide)
  · exact absurd (hp .hue).2 (by decide)

end CssColor
