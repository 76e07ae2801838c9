import CssColor.Components
import CssColor.Proofs.Color.Forms
import CssColor.Proofs.Color.Spelling
import CssColor.Proofs.Text.AnyCase

/-! # Color texts in either case

A color text is read in lower case and without the white space around it, as a color, as a swatch
and as components alike. So two spellings of a text agree (`Agree`) in each way of reading, but for
the source a swatch keeps (`Swatch.SameButSource`). -/

namespace CssColor

open Text

/-! ### Colors and components -/

variable {s t : String}

theorem lower_trim_eq (h : Respelled s.toList t.toList) :
    lower (trim s.toList) = lower (trim t.toList) :=
  (respelled_iff.mp h).lower_eq

theorem Color.agree_read (h : Respelled s.toList t.toList) : Agree Eq (read s) (read t) :=
  agree_read_of_lower_eq (lower_trim_eq h)

theorem hslTokens?_respelled (h : Respelled s.toList t.toList) : hslTokens? s = hslTokens? t := by
  unfold hslTokens?
  rw [lower_trim_eq h]

theorem Components.agree_read (h : Respelled s.toList t.toList) :
    Agree Eq (read s) (read t) := by
  unfold read
  refine (Color.agree_read h).bind ?_
  rintro r _ rfl
  rw [hslTokens?_respelled h]
  exact .refl _

/-! ### Swatches -/

namespace Swatch

/-- Equal in everything but the source, with all that is shown of the color. -/
structure SameButSource (u w : Swatch) : Prop where
  format : u.format = w.format
  color : u.color = w.color
  renderings : u.renderings = w.renderings
  display : u.display = w.display

/-- A swatch shows its source only if the color has no text in the form of the source. -/
theorem sameButSource_of_read {u : Swatch} (h : read s = .ok u) :
    SameButSource u { u with source := t } := by
  have hdisplay : (u.rendering? u.format).getD t = u.display := by
    rw [rendering?_format h]
    rfl
  exact ⟨rfl, rfl, rfl, hdisplay.symm⟩

theorem agree_read (h : Respelled s.toList t.toList) : Agree SameButSource (read s) (read t) := by
  have hcolor := Color.agree_read h
  generalize hs : Color.read s = x, ht : Color.read t = y at hcolor
  cases hcolor with
  | error f g =>
    rw [read, read, hs, ht]
    exact .error f g
  | @ok r _ hr =>
    obtain ⟨c, f⟩ := r
    obtain rfl := hr
    rw [read_of_read hs, read_of_read ht]
    exact .ok (sameButSource_of_read (read_of_read hs))

end Swatch

end CssColor
