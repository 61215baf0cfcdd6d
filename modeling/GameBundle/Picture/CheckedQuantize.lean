import GameBundle.Bundle.CheckedIndex
import GameBundle.Picture.Quantize

set_option autoImplicit false

/-! # Regrouping pixels in machine words

The quantizer once more, step by step as a machine takes it. Counts, byte ranges and places of
pixels are 64-bit words, and so is every number on the way to them. What leaves this limit is an
overrun, and so are a range that is not one of the bytes and a division by zero. -/

namespace GameBundle

/-- Quotient and remainder. -/
def checkedDivMod (a b : Nat) : Except Failure (Nat × Nat) :=
  if b = 0 then .error .overrun else .ok (a / b, a % b)

/-- The byte number `i`, which has to be there. -/
def Bytes.checkedByte (bytes : Bytes) (i : Nat) : Except Failure UInt8 :=
  match bytes[i]? with
  | some byte => .ok byte
  | none => .error .overrun

/-- The colour of pixel number `i`, cut out of the bytes of the image. -/
def Raster.checkedColor (image : Raster) (i : Nat) : Except Failure UInt16 := do
  let channels := image.channels.toNat
  let start ← checkedMul i channels
  let stop ← checkedMul (← checkedAdd i 1) channels
  let pixel ← image.pixels.checkedRange start stop
  let alpha ← if channels = 4 then pixel.checkedByte 3 else .ok 255
  let red ← pixel.checkedByte 0
  let green ← pixel.checkedByte 1
  let blue ← pixel.checkedByte 2
  return Color.pack red green blue alpha

/-- The place of the pixel in column `x` and row `y` when a tile has `perTile` pixels. -/
def TileLayout.checkedTarget (l : TileLayout) (perTile x y : Nat) : Except Failure Nat := do
  let (column, left) ← checkedDivMod x l.tileWidth
  let (row, top) ← checkedDivMod y l.tileHeight
  let within ← checkedAdd left (← checkedMul top l.tileWidth)
  let tile ← checkedAdd (← checkedMul row l.columns) column
  checkedAdd within (← checkedMul tile perTile)

/-- Store pixel number `i`. -/
def checkedStore (image : Raster) (layout : TileLayout) (file : String) (perTile : Nat)
    (picture : Picture) (i : Nat) : Except Failure Picture := do
  let (index, palette) := indexColor picture.palette (← image.checkedColor i)
  if paletteLimit ≤ index then .error (.error (.tooManyColors file))
  else
    let (y, x) ← checkedDivMod i image.width.toNat
    let target ← layout.checkedTarget perTile x y
    if picture.pixels.size ≤ target then
      .error (.error (.malformed s!"image \"{file}\""
        (s!"a {image.width}x{image.height} image does not fit {layout.columns} columns of " ++
          s!"{layout.tileWidth}x{layout.tileHeight} tiles")))
    else .ok ⟨picture.pixels.setIfInBounds target (UInt8.ofNat index), palette⟩

/-- Turn an image into a picture whose tiles form one strip. -/
def checkedQuantize (image : Raster) (layout : TileLayout) (file : String) :
    Except Failure Picture := do
  if layout.tileWidth = 0 ∨ layout.tileHeight = 0 then
    reject (.malformed s!"image \"{file}\"" "tile width and height must be greater than zero")
  let channels := image.channels.toNat
  if channels < 3 then
    reject (.imageDecode file (.channels channels))
  let count ← checkedMul image.width.toNat image.height.toNat
  if image.pixels.size < (← checkedMul count channels) then
    reject (.imageDecode file .shortBuffer)
  let perTile ← checkedMul layout.tileWidth layout.tileHeight
  (List.range count).foldlM (checkedStore image layout file perTile) ⟨Array.replicate count 0, #[]⟩

end GameBundle
