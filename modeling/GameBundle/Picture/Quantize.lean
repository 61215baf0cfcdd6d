import GameBundle.Color
import GameBundle.Project.Source
import GameBundle.Record.Writer

set_option autoImplicit false

/-! # Indexed pictures

A picture is stored as one byte for each pixel, the index of its colour in a palette of at most 256
colours, listed as they first occur. The pixels are regrouped: a tileset cuts its image into tiles,
and the pixels of a tile are stored together, so that all tiles form one long strip.
`TileLayout.target` says where a pixel goes. -/

namespace GameBundle

/-! ## Where pixels go -/

/-- How an image is cut into tiles. -/
structure TileLayout where
  tileWidth : Nat
  tileHeight : Nat
  columns : Nat
  deriving Repr, DecidableEq, Inhabited

/-- The place of the pixel in column `x` and row `y` when all tiles form one strip. -/
def TileLayout.target (l : TileLayout) (x y : Nat) : Nat :=
  x % l.tileWidth + y % l.tileHeight * l.tileWidth +
    (y / l.tileHeight * l.columns + x / l.tileWidth) * (l.tileWidth * l.tileHeight)

/-! ## Palettes -/

/-- A picture of palette indices. -/
structure Picture where
  pixels : Bytes
  palette : Array UInt16
  deriving Repr, DecidableEq, Inhabited

/-- A palette index is one byte. -/
def paletteLimit : Nat := 256

/-- The index of a colour, which joins the palette if it is new. -/
def indexColor (palette : Array UInt16) (color : UInt16) : Nat × Array UInt16 :=
  match palette.findIdx? (· == color) with
  | some index => (index, palette)
  | none => (palette.size, palette.push color)

/-! ## Regrouping -/

/-- The colour of pixel number `i`. Images with four channels have alpha in the last one. -/
def Raster.color (image : Raster) (i : Nat) : UInt16 :=
  let channels := image.channels.toNat
  let channel := fun c => image.pixels.getD (i * channels + c) 0
  Color.pack (channel 0) (channel 1) (channel 2) (if channels = 4 then channel 3 else 255)

/-- Store pixel number `i` of an image of the given width and height. -/
def storePixel (image : Raster) (layout : TileLayout) (file : String) (picture : Picture)
    (i : Nat) : Except Failure Picture :=
  let width := image.width.toNat
  let (index, palette) := indexColor picture.palette (image.color i)
  if paletteLimit ≤ index then .error (.error (.tooManyColors file))
  else
    let target := layout.target (i % width) (i / width)
    if wordLimit ≤ target then .error .overrun
    else if picture.pixels.size ≤ target then
      .error (.error (.malformed s!"image \"{file}\""
        (s!"a {image.width}x{image.height} image does not fit {layout.columns} columns of " ++
          s!"{layout.tileWidth}x{layout.tileHeight} tiles")))
    else .ok ⟨picture.pixels.setIfInBounds target (UInt8.ofNat index), palette⟩

/-- Turn an image into a picture whose tiles form one strip. -/
def quantize (image : Raster) (layout : TileLayout) (file : String) : Except Failure Picture := do
  if layout.tileWidth = 0 ∨ layout.tileHeight = 0 then
    reject (.malformed s!"image \"{file}\"" "tile width and height must be greater than zero")
  let channels := image.channels.toNat
  if channels < 3 then
    reject (.imageDecode file (.channels channels))
  let count := image.width.toNat * image.height.toNat
  if wordLimit ≤ count * channels then
    throw .overrun
  if image.pixels.size < count * channels then
    reject (.imageDecode file .shortBuffer)
  (List.range count).foldlM (storePixel image layout file) ⟨Array.replicate count 0, #[]⟩

/-! ## Records -/

/-- A palette: the name of its image, the number of colours, and the colours as the screen takes
    them. A full palette of 256 colours stores zero as their number. -/
def encodePalette (name : String) (colors : List UInt16) : Except Failure Bytes :=
  Record.encode (34 + 2 * colors.length) <|
    [.chars name 32, .byte (UInt8.ofNat colors.length), .gap 1] ++
      colors.map fun color => .word color .screen

end GameBundle
