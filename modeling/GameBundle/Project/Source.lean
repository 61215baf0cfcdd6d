import GameBundle.Error
import GameBundle.Ordered
import GameBundle.Record.Bytes
import GameBundle.Text.Path

set_option autoImplicit false

/-! # Where project files come from

A build sees a project as a `Source`: it asks for files and images by name and gets contents or a
reason why there are none. How images are stored is known to a `Codec` only. -/

namespace GameBundle

/-! ## Images -/

/-- Pixels row after row, three or four bytes for each: red, green, blue and perhaps alpha. -/
structure Raster where
  width : UInt32
  height : UInt32
  channels : UInt8
  pixels : Bytes
  deriving Repr, Inhabited

/-- A decoder of image files. -/
abbrev Codec : Type := ByteArray → Option Raster

/-- The decoder that knows no format. -/
def Codec.none : Codec := fun _ => Option.none

/-! ## Sources -/

/-- The files of a project. -/
structure Source where
  /-- The contents of a file. -/
  read : String → Except BuildError ByteArray
  /-- Is there a file or an image of this name? -/
  contains : String → Bool
  /-- The pixels of an image. -/
  image : String → Except BuildError Raster

/-- Decode the image file `name`, whose name has to end in `png` or `gif`. -/
def decodeImage (codec : Codec) (read : String → Except BuildError ByteArray) (name : String) :
    Except BuildError Raster :=
  match Text.extension? name with
  | some "png" | some "gif" => do
    match codec (← read name) with
    | some raster => return raster
    | none => .error (.imageDecode name .undecodable)
  | _ => .error (.unsupportedImage name)

/-- A project held in memory: files, and images that are decoded already. -/
def Source.inMemory (codec : Codec) (files : Ordered ByteArray) (images : Ordered Raster) :
    Source :=
  let read := fun name =>
    match files.find? name with
    | some contents => Except.ok contents
    | none => .error (.missingFile name)
  { read
    contains := fun name => files.contains name || images.contains name
    image := fun name =>
      match images.find? name with
      | some raster => .ok raster
      | none => decodeImage codec read name }

end GameBundle
