import GameBundle.Numeric.Binary64

set_option autoImplicit false

/-! # Lengths of segments

The distance of two points in doubles. The root of a sum of two squares, taken in doubles, can be
off by almost a unit of its last place, so it is corrected by one step of Newton's method whose
residual is computed without the squares themselves: as the difference of nearly equal numbers it
keeps digits that the squares have lost. Numbers whose squares would overflow or vanish are moved to
the middle of the range by a power of two first, which costs no digit. -/

namespace GameBundle.Binary64

/-! ## The corrected root -/

/-- What `root * root - (a * a + b * b)` comes to, for a `root` that is nearly right and
    `b ≤ a`. -/
def residual (root a b : Float) : Float :=
  let two := ofInt 2
  if root ≤ two * b then
    let rest := root - b
    a * (two * rest - a) + (rest - two * (a - b)) * rest
  else
    let rest := root - a
    two * rest * (a - two * b) + ((ofInt 4 * rest - b) * b + rest * rest)

/-- The root of `a * a + b * b` for `b ≤ a`, if the squares are far from the ends of the range. -/
def rootOfSquares (a b : Float) : Float :=
  let root := (a * a + b * b).sqrt
  root - residual root a b / (ofInt 2 * root)

/-! ## Distances -/

/-- A number whose square may overflow. -/
def huge : Float := nearest 1 511

/-- A number below which squares may vanish. -/
def tiny : Float := nearest 1 (-459)

/-- The power of two that moves huge numbers to the middle of the range. -/
def shrink : Float := nearest 1 (-600)

/-- The share of the greater number below which the smaller one does not count. -/
def negligible : Float := nearest 1 (-54)

/-- The root of `a * a + b * b` for finite `0 ≤ b ≤ a`. -/
def hypotenuse (a b : Float) : Float :=
  if huge < a then
    if b ≤ a * negligible then a + b
    else rootOfSquares (a * shrink) (b * shrink) / shrink
  else if b < tiny then
    if b / negligible ≤ a then a + b
    else rootOfSquares (a / shrink) (b / shrink) * shrink
  else if b ≤ a * negligible then a + b
  else rootOfSquares a b

/-- The distance of `(x, y)` from the origin. An infinite coordinate makes it infinite, else one
    that is no number makes it none. -/
def distance (x y : Float) : Float :=
  match decode x, decode y with
  | .infinite _, _ => Float.ofBits 0x7ff0000000000000
  | _, .infinite _ => Float.ofBits 0x7ff0000000000000
  | .finite .., .finite .. =>
    let x := x.abs
    let y := y.abs
    if x < y then hypotenuse y x else hypotenuse x y
  | _, _ => Float.ofBits 0x7ff8000000000000

end GameBundle.Binary64
