import CssColor.Panel
import CssColor.Proofs.Text.Parts
import Mathlib.Data.Nat.Bits
import Mathlib.Data.List.Induction

/-! # Changes to a panel

A change is a target and an edit. A target means at most one control, by its name with or without
`Value` behind it (`ControlKind.ofTarget?_eq_some_iff`), so a change leaves every other control as
it is (`Panel.setting_edit`), and by induction on the changes a control goes through those of its
own only (`Panel.setting_after`). What these make of it is told by the last value among them and the
number of switches since then (`Setting.foldl_step`). Whether a change is refused lies in the change
alone (`Panel.edit_eq_error_iff`), and one that is refused has not changed anything
(`Panel.edit_of_error`). -/

namespace CssColor

/-! ### Targets -/

namespace ControlKind

/-- Whether a target means a control. -/
def AddressedBy (k : ControlKind) (target : String) : Prop :=
  target = k.name ∨ target = k.name ++ "Value"

instance (k : ControlKind) (target : String) : Decidable (k.AddressedBy target) :=
  inferInstanceAs (Decidable (_ ∨ _))

theorem ofName?_eq_some_iff {name : String} {k : ControlKind} :
    ofName? name = some k ↔ name = k.name := by
  constructor
  · intro h
    have hname := List.find?_some h
    exact (of_decide_eq_true hname).symm
  · rintro rfl
    cases k <;> decide

/-- A target means one control at most. -/
theorem ofTarget?_eq_some_iff {target : String} {k : ControlKind} :
    ofTarget? target = some k ↔ k.AddressedBy target := by
  constructor
  · intro h
    unfold ofTarget? at h
    rw [ofName?_eq_some_iff] at h
    cases hv : Text.beforeEnd? "Value".toList target.toList with
    | none =>
      rw [hv] at h
      exact Or.inl h
    | some v =>
      rw [hv] at h
      have hv' : String.ofList v = k.name := h
      refine Or.inr (String.toList_injective ?_)
      rw [Text.eq_of_beforeEnd? hv, ← hv']
      simp [String.toList_append]
  · rintro (rfl | rfl) <;> cases k <;> decide

theorem ofTarget?_eq_none_iff {target : String} :
    ofTarget? target = none ↔ ∀ k : ControlKind, ¬k.AddressedBy target := by
  simp only [← ofTarget?_eq_some_iff, Option.eq_none_iff_forall_ne_some, ne_eq]

end ControlKind

/-! ### One control -/

/-- The integer an edit sets, if it sets one. -/
def Edit.integer? : Edit → Option ℤ
  | toggle => none
  | setValue text => leadingInt? text.toList

namespace Panel

variable (s : Setting)

theorem changed_toggle : changed s .toggle = (.ok (), { s with enabled := !s.enabled }) := rfl

theorem changed_of_integer {e : Edit} {n : ℤ} (h : e.integer? = some n) :
    changed s e = (.ok (), ⟨true, n⟩) := by
  cases e with
  | toggle => cases h
  | setValue text =>
    have hn : leadingInt? text.toList = some n := h
    simp only [changed, hn]

theorem changed_of_unreadable {text : String} (h : leadingInt? text.toList = none) :
    changed s (.setValue text) = (.error (.adjusterValue text), s) := by
  simp only [changed, h]

/-- A change that cannot be made leaves the control as it was. -/
theorem changed_of_error {e : Edit} {f : Fault} (h : (changed s e).1 = .error f) :
    (changed s e).2 = s := by
  cases hi : e.integer? with
  | some n =>
    rw [changed_of_integer s hi] at h
    cases h
  | none =>
    cases e with
    | toggle => cases h
    | setValue text => rw [changed_of_unreadable s hi]

end Panel

namespace Setting

/-- A setting after an edit. -/
def step (s : Setting) (e : Edit) : Setting := (Panel.changed s e).2

/-- The switches since the last edit that set a value. -/
def switches (es : List Edit) : ℕ := (es.reverse.takeWhile fun e => e.integer?.isNone).count .toggle

/-- **The setting that some edits come to:** the last value that was set, and switched on by it, or
what was there before, with as many switches as followed. -/
def settled (s : Setting) (es : List Edit) : Setting where
  value := (es.filterMap Edit.integer?).getLast?.getD s.value
  enabled := (if es.filterMap Edit.integer? = [] then s.enabled else true) ^^ (switches es).bodd

variable (s : Setting) (es : List Edit)

theorem switches_concat_toggle : switches (es ++ [Edit.toggle]) = switches es + 1 := by
  have hnone : Edit.toggle.integer?.isNone = true := rfl
  simp [switches, hnone]

theorem settled_concat_toggle :
    s.settled (es ++ [Edit.toggle]) = { s.settled es with enabled := !(s.settled es).enabled } := by
  have hnone : Edit.toggle.integer? = none := rfl
  unfold settled
  rw [switches_concat_toggle, Nat.bodd_succ, Bool.xor_not, List.filterMap_append,
    List.filterMap_cons_none hnone, List.filterMap_nil, List.append_nil]

theorem settled_concat_of_integer {e : Edit} {n : ℤ} (h : e.integer? = some n) :
    s.settled (es ++ [e]) = ⟨true, n⟩ := by
  simp [settled, switches, h]

theorem settled_concat_of_unreadable {text : String} (h : leadingInt? text.toList = none) :
    s.settled (es ++ [Edit.setValue text]) = s.settled es := by
  have hnone : (Edit.setValue text).integer? = none := h
  simp [settled, switches, hnone]

/-- **Edits come to a setting** one after the other. -/
theorem foldl_step : es.foldl step s = s.settled es := by
  induction es using List.reverseRecOn with
  | nil => simp [settled, switches]
  | append_singleton es e ih =>
    rw [List.foldl_append, ih, List.foldl_cons, List.foldl_nil]
    cases he : e.integer? with
    | some n => rw [step, Panel.changed_of_integer _ he, settled_concat_of_integer _ _ he]
    | none =>
      cases e with
      | toggle => rw [step, Panel.changed_toggle, settled_concat_toggle]
      | setValue text =>
        rw [step, Panel.changed_of_unreadable _ he, settled_concat_of_unreadable _ _ he]

end Setting

/-! ### All controls -/

namespace Panel

/-- A target with the edit there. -/
abbrev Change := String × Edit

/-- The panel after some changes, those that fail having been tried. -/
def after (p : Panel) (cs : List Change) : Panel := cs.foldl (fun p c => (p.edit c.1 c.2).2) p

/-- The edits among some changes that a control is meant by. -/
def own (k : ControlKind) (cs : List Change) : List Edit :=
  (cs.filter fun c => k.AddressedBy c.1).map Prod.snd

/-- The controls in their order. -/
def entries (p : Panel) : List (ControlKind × Setting) :=
  ControlKind.all.map fun k => (k, p.setting k)

/-- The fault of a change that is refused: its target means no control, or the text is no value. -/
inductive Refused (c : Change) : Fault → Prop
  | unknown (h : ∀ k : ControlKind, ¬k.AddressedBy c.1) : Refused c (.unknownAdjuster c.1)
  | unreadable {k : ControlKind} {text : String} (h : k.AddressedBy c.1)
      (he : c.2 = .setValue text) (hn : leadingInt? text.toList = none) :
      Refused c (.adjusterValue text)

variable {p : Panel} {c : Change}

theorem after_cons (p : Panel) (c : Change) (cs : List Change) :
    p.after (c :: cs) = (p.edit c.1 c.2).2.after cs := by
  rw [after, List.foldl_cons, after]

theorem update_setting (p : Panel) (k : ControlKind) : p.update k (p.setting k) = p := by
  refine congrArg Panel.mk (funext fun j => ?_)
  split_ifs with hj
  · rw [hj]
  · rfl

theorem edit_of_target {target : String} {k : ControlKind} (h : k.AddressedBy target) (e : Edit) :
    p.edit target e = ((changed (p.setting k) e).1, p.update k ((p.setting k).step e)) := by
  rw [edit, ControlKind.ofTarget?_eq_some_iff.mpr h]
  rfl

theorem edit_of_no_target {target : String} (h : ∀ k : ControlKind, ¬k.AddressedBy target)
    (e : Edit) : p.edit target e = (.error (.unknownAdjuster target), p) := by
  rw [edit, ControlKind.ofTarget?_eq_none_iff.mpr h]

/-- **What is refused,** by every panel alike. -/
theorem edit_eq_error_iff {f : Fault} : (p.edit c.1 c.2).1 = .error f ↔ Refused c f := by
  constructor
  · intro h
    by_cases hk : ∃ k : ControlKind, k.AddressedBy c.1
    · obtain ⟨k, hk⟩ := hk
      rw [edit_of_target hk] at h
      cases hi : c.2.integer? with
      | some n =>
        rw [changed_of_integer _ hi] at h
        cases h
      | none =>
        cases he : c.2 with
        | toggle =>
          rw [he, changed_toggle] at h
          cases h
        | setValue text =>
          have hn : leadingInt? text.toList = none := by rwa [he] at hi
          rw [he, changed_of_unreadable _ hn] at h
          cases h
          exact .unreadable hk he hn
    · rw [edit_of_no_target (not_exists.mp hk)] at h
      cases h
      exact .unknown (not_exists.mp hk)
  · rintro (h | ⟨h, he, hn⟩)
    · rw [edit_of_no_target h]
    · rw [edit_of_target h, he, changed_of_unreadable _ hn]

/-- **A change that is refused has not changed anything.** -/
theorem edit_of_error {target : String} {e : Edit} {f : Fault}
    (h : (p.edit target e).1 = .error f) : (p.edit target e).2 = p := by
  by_cases hk : ∃ k : ControlKind, k.AddressedBy target
  · obtain ⟨k, hk⟩ := hk
    rw [edit_of_target hk] at h ⊢
    show p.update k (changed (p.setting k) e).2 = p
    rw [changed_of_error _ h, update_setting]
  · rw [edit_of_no_target (not_exists.mp hk)]

/-- **A change is for one control:** it makes a step there, and leaves the others as they are. -/
theorem setting_edit (p : Panel) (target : String) (e : Edit) (k : ControlKind) :
    (p.edit target e).2.setting k
      = if k.AddressedBy target then (p.setting k).step e else p.setting k := by
  by_cases hj : ∃ j : ControlKind, j.AddressedBy target
  · obtain ⟨j, hj⟩ := hj
    have hk : k.AddressedBy target ↔ k = j := by
      rw [← ControlKind.ofTarget?_eq_some_iff, ControlKind.ofTarget?_eq_some_iff.mpr hj,
        Option.some.injEq, eq_comm]
    rw [edit_of_target hj]
    show (if k = j then (p.setting j).step e else p.setting k) = _
    by_cases hkj : k = j
    · rw [if_pos hkj, if_pos (hk.mpr hkj), hkj]
    · rw [if_neg hkj, if_neg (mt hk.mp hkj)]
  · rw [edit_of_no_target (not_exists.mp hj) e, if_neg fun hk => hj ⟨k, hk⟩]

theorem own_cons (k : ControlKind) (c : Change) (cs : List Change) :
    own k (c :: cs) = if k.AddressedBy c.1 then c.2 :: own k cs else own k cs := by
  unfold own
  split_ifs with h
  · rw [List.filter_cons_of_pos (by simpa using h), List.map_cons]
  · rw [List.filter_cons_of_neg (by simpa using h)]

/-- **A control goes through its own edits only,** whatever changes there are. -/
theorem setting_after (p : Panel) (cs : List Change) (k : ControlKind) :
    (p.after cs).setting k = (p.setting k).settled (own k cs) := by
  rw [← Setting.foldl_step]
  induction cs generalizing p with
  | nil => rfl
  | cons c cs ih =>
    rw [after_cons, ih, setting_edit, own_cons]
    split_ifs <;> rfl

/-- **Changes to different controls are independent.** After any changes to a panel, the controls
stand in the same order, each with what its own edits come to. A change fails for what it is, on any
panel, and leaves the panel as it was. So only the order among the edits of one control counts. -/
theorem edits_independent (p : Panel) (cs : List Change) :
    (p.after cs).entries = p.entries.map (fun e => (e.1, e.2.settled (own e.1 cs))) ∧
      (∀ c f, ((p.after cs).edit c.1 c.2).1 = .error f ↔ Refused c f) ∧
      (∀ c f, Refused c f → ((p.after cs).edit c.1 c.2).2 = p.after cs) ∧
      ∀ ds, (∀ k, own k ds = own k cs) → p.after ds = p.after cs := by
  refine ⟨?_, fun c f => edit_eq_error_iff, fun c f h => edit_of_error (edit_eq_error_iff.mpr h),
    fun ds h => ?_⟩
  · simp only [entries, List.map_map, Function.comp_def, setting_after]
  · have hsetting : (p.after ds).setting = (p.after cs).setting := by
      funext k
      rw [setting_after, setting_after, h]
    exact congrArg Panel.mk hsetting

/-- The edits of the hue and those of the tint in two orders, with a target that means no control in
one of them. -/
theorem edits_independent_interleaved :
    (∀ k, own k [("hueValue", .setValue "+40deg"), ("hue", .toggle), ("tint", .toggle)]
        = own k [("tint", .toggle), ("hueValue", .setValue "+40deg"), ("red", .toggle),
            ("hue", .toggle)]) ∧
      Panel.after {} [("hueValue", .setValue "+40deg"), ("hue", .toggle), ("tint", .toggle)]
        = Panel.after {} [("tint", .toggle), ("hueValue", .setValue "+40deg"), ("red", .toggle),
            ("hue", .toggle)] := by
  have hown (k : ControlKind) :
      own k [("hueValue", .setValue "+40deg"), ("hue", .toggle), ("tint", .toggle)]
        = own k [("tint", .toggle), ("hueValue", .setValue "+40deg"), ("red", .toggle),
            ("hue", .toggle)] := by
    cases k <;> decide
  obtain ⟨-, -, -, horder⟩ := edits_independent {} [("tint", .toggle),
    ("hueValue", .setValue "+40deg"), ("red", .toggle), ("hue", .toggle)]
  exact ⟨hown, horder _ hown⟩

end Panel

end CssColor
