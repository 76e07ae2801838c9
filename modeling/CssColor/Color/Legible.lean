import CssColor.Color.Luminance

/-! # Colors: legible shades

`legible luminance c p` moves a color toward white if it is dark and toward black if it is light.
The position `p` runs from the nearest shade that is just legible on `c` to white or black itself.
That nearest shade is found by bisection (`bisect`), which keeps an illegible share of the target on
the one side and a legible one on the other. -/

namespace CssColor

open Number Number.Scalar

variable {α : Type} [Scalar α] (luminance : Rgba α → α)

/-- The contrast ratio from which a shade is legible. -/
def legibleRatio : α := 9 / 2

/-- Whether the shade at a share of the target is legible on `c`. -/
def IsLegible (c target : Rgba α) (share : α) : Prop :=
  legibleRatio ≤ contrastRatio luminance c (c.mix target share)

instance (c target : Rgba α) (share : α) : Decidable (IsLegible luminance c target share) :=
  inferInstanceAs (Decidable (_ ≤ _))

/-- The interval after some halvings, its upper end legible where a middle was. -/
def bisect (c target : Rgba α) : Nat → α × α → α × α
  | 0, ends => ends
  | n + 1, (lo, hi) =>
    let mid := (lo + hi) / 2
    bisect c target n (if IsLegible luminance c target mid then (lo, mid) else (mid, hi))

/-- White for a dark color, black for a light one, with the same alpha. -/
def farEnd (c : Rgba α) : Rgba α :=
  (if luminance c < 1 / 2 then Rgba.white else Rgba.black).withAlpha c.alpha

/-- Halvings of the interval of shares. -/
def bisectSteps : Nat := 24

/-- The shade nearest to `c` that is legible on it, or the target if that is not legible either. -/
def nearestLegible (c : Rgba α) : Rgba α :=
  let target := farEnd luminance c
  if legibleRatio < contrastRatio luminance c target then
    c.mix target (bisect luminance c target bisectSteps (0, 1)).2
  else target

/-- The shade at a position between the nearest legible one and the target. -/
def legible (c : Rgba α) (position : α) : Rgba α :=
  (nearestLegible luminance c).mix (farEnd luminance c) position

end CssColor
