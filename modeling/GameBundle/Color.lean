import GameBundle.Json.Token
import GameBundle.Text.Blank

set_option autoImplicit false

/-! # Colours

The screen shows sixteen bits for a pixel: five of red, six of green and five of blue. One value is
set aside for pixels that let the background through. Colours are written as `#` and two
hexadecimal digits for each channel. Scripts put alpha last, the map editor puts it first, and both
may leave it out. -/

namespace GameBundle.Color

/-- Pixels with less alpha are transparent. -/
def alphaThreshold : UInt8 := 100

/-- The value of a transparent pixel. -/
def transparent : UInt16 := 32

/-- The sixteen bits of a colour. -/
def pack (r g b a : UInt8) : UInt16 :=
  if a < alphaThreshold then transparent
  else (r.toUInt16 &&& 0xf8) <<< 8 ||| (g.toUInt16 &&& 0xfc) <<< 3 ||| b.toUInt16 >>> 3

/-! ## Written colours -/

/-- The bytes written as pairs of hexadecimal digits. -/
def hexBytes? : List Char → Option (List UInt8)
  | [] => some []
  | [_] => none
  | high :: low :: rest => do
    let high ← Json.hexDigit? high
    let low ← Json.hexDigit? low
    return UInt8.ofNat (16 * high + low) :: (← hexBytes? rest)

/-- The three or four channels of a colour, blanks around it aside. -/
def channels? (text : String) : Option (List UInt8) :=
  match Text.trim text.toList with
  | '#' :: digits =>
    if digits.length = 6 ∨ digits.length = 8 then hexBytes? digits else none
  | _ => none

/-- A colour with alpha last, `#RRGGBB` or `#RRGGBBAA`. -/
def ofRgba? (text : String) : Option UInt16 :=
  match channels? text with
  | some [r, g, b] => some (pack r g b 255)
  | some [r, g, b, a] => some (pack r g b a)
  | _ => none

/-- A colour with alpha first, `#RRGGBB` or `#AARRGGBB`. -/
def ofArgb? (text : String) : Option UInt16 :=
  match channels? text with
  | some [r, g, b] => some (pack r g b 255)
  | some [a, r, g, b] => some (pack r g b a)
  | _ => none

end GameBundle.Color
