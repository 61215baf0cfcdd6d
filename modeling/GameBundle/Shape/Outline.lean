import GameBundle.Numeric.Distance
import GameBundle.Properties
import GameBundle.Record.Writer

set_option autoImplicit false

/-! # Outlines

Every object without a tile is a shape that the engine tests against or walks along. Whatever it was
drawn as, it is stored as an `Outline`: one point, a line of points, or a closed line. Points are
whole pixels, and the length of every segment is stored with them. -/

namespace GameBundle

/-- How the points of an outline belong together. -/
inductive OutlineKind
  | point
  /-- Open. -/
  | polyline
  /-- Closed: the last point is joined to the first. -/
  | polygon
  deriving Repr, DecidableEq, Inhabited

/-- The number that stands for a kind in a record. -/
def OutlineKind.code : OutlineKind → UInt8
  | .point => 0
  | .polyline => 1
  | .polygon => 2

/-- A shape as a list of points on the map. -/
structure Outline where
  kind : OutlineKind
  points : List (Float × Float)
  deriving Repr, Inhabited

namespace Outline

/-! ## Segments -/

/-- The number of segments that the kind calls for. -/
def segmentCount (o : Outline) : Nat :=
  match o.kind with
  | .point => 0
  | .polyline => o.points.length - 1
  | .polygon => o.points.length

/-- The ends of the segments. An outline of fewer than two points has none. -/
def segments (o : Outline) : List ((Float × Float) × (Float × Float)) :=
  match o.points with
  | first :: second :: rest =>
    (o.points.zip (second :: rest ++ [first])).take o.segmentCount
  | _ => []

/-- The length of a segment. -/
def segmentLength (s : (Float × Float) × (Float × Float)) : Float :=
  Binary64.distance (s.2.1 - s.1.1) (s.2.2 - s.1.2)

/-- The lengths of the segments. -/
def segmentLengths (o : Outline) : List Float := o.segments.map segmentLength

/-- The length of the whole outline. The sum starts from negative zero, which is also the length of
    an outline without segments. -/
def totalLength (o : Outline) : Float :=
  o.segmentLengths.foldl (· + ·) (Float.ofBits 0x8000000000000000)

/-! ## Objects as outlines -/

/-- The points of an ellipse unless it says otherwise. -/
def defaultEllipsePoints : Nat := 16

/-- The points of an ellipse. -/
def ellipsePoints (properties : Properties) : Nat :=
  match properties.float? "points" with
  | some n =>
    if Binary64.ofInt 1 ≤ n then (Binary64.trunc n).toUnsigned64 else defaultEllipsePoints
  | none => defaultEllipsePoints

/-- Half the circumference of a circle of radius one. -/
def pi : Float := Float.ofBits 0x400921fb54442d18

/-- `count` points of the ellipse in a box, evenly spaced in angle. -/
def ellipse (x y width height : Float) (count : Nat) : List (Float × Float) :=
  let two := Binary64.ofInt 2
  let step := pi * two / Binary64.ofInt count
  let centreX := x + width / two
  let centreY := y + height / two
  (List.range count).map fun (i : Nat) =>
    let angle := step * Binary64.ofInt i
    (centreX + angle.cos * width / two, centreY + angle.sin * height / two)

/-- The number of points of an object. -/
def pointCount (o : Tiled.Object) (properties : Properties) : Nat :=
  if o.point then 1
  else match o.polyline, o.polygon with
    | some points, _ => points.length
    | none, some points => points.length
    | none, none => if o.ellipse then ellipsePoints properties else 4

/-- The shape of an object. Rectangles and text boxes are polygons, and so are ellipses. -/
def ofObject (o : Tiled.Object) (properties : Properties) : Outline :=
  let onMap := fun (p : Tiled.Point) => (p.x + o.x, p.y + o.y)
  if o.point then ⟨.point, [(o.x, o.y)]⟩
  else match o.polyline, o.polygon with
    | some points, _ => ⟨.polyline, points.map onMap⟩
    | none, some points => ⟨.polygon, points.map onMap⟩
    | none, none =>
      if o.ellipse then
        ⟨.polygon, ellipse o.x o.y o.width o.height (ellipsePoints properties)⟩
      else
        let right := o.x + o.width
        let bottom := o.y + o.height
        ⟨.polygon, [(o.x, o.y), (right, o.y), (right, bottom), (o.x, bottom)]⟩

/-! ## Records -/

/-- The number of points is stored in one byte. -/
def pointLimit : Nat := 255

/-- A list of points takes at most half the address space, sixteen bytes for each. -/
def pointCapacity : Nat := UInt64.size / 2 / 16

end Outline

/-- Round a coordinate to a whole pixel that fits 16 bits. -/
def coordinate (context : String) (value : Float) : Except Failure UInt16 :=
  let rounded := Binary64.round value
  match rounded.within 0xffff with
  | some pixel => .ok (UInt16.ofNat pixel)
  | none => reject (.fieldOverflow context rounded.toSigned64 2)

/-- Round the two coordinates of a point. -/
def Outline.pixel (name : String) (point : Float × Float) : Except Failure (UInt16 × UInt16) := do
  let x ← coordinate s!"geometry \"{name}\" x" point.1
  let y ← coordinate s!"geometry \"{name}\" y" point.2
  return (x, y)

/-- The record of an outline: its name, kind, numbers of points and segments, whole length, points
    and segment lengths. -/
def Outline.encode (name : String) (o : Outline) : Except Failure Bytes := do
  if Outline.pointLimit < o.points.length then
    reject (.tooManyPoints name o.points.length)
  let lengths := o.segmentLengths
  let pixels ← o.points.mapM (Outline.pixel name)
  Record.encode (40 + 4 * o.points.length + 4 * lengths.length) <|
    [.chars name 32, .byte o.kind.code, .byte (UInt8.ofNat o.points.length),
      .byte (UInt8.ofNat lengths.length), .gap 1, .long (Binary64.toSingleBits o.totalLength)] ++
      pixels.flatMap (fun (x, y) => [.word x, .word y]) ++
      lengths.map fun length => .long (Binary64.toSingleBits length)

/-- The properties of an object by itself. -/
def Outline.properties (o : Tiled.Object) : Except BuildError Properties :=
  Properties.merge s!"object {o.label}" ∅ o.properties

/-- The shape of an object by itself. An ellipse of more points than a list can hold is an
    overrun. -/
def Outline.read (o : Tiled.Object) : Except Failure Outline := do
  let properties ← Outline.properties o
  if Outline.pointCapacity ≤ Outline.pointCount o properties then
    throw .overrun
  return Outline.ofObject o properties

/-- The record of an object. An outline with too many points is refused before its points are
    worked out. -/
def Outline.encodeObject (o : Tiled.Object) : Except Failure Bytes := do
  let properties ← Outline.properties o
  let count := Outline.pointCount o properties
  if Outline.pointCapacity ≤ count then
    throw .overrun
  if Outline.pointLimit < count then
    reject (.tooManyPoints o.name count)
  Outline.encode o.name (Outline.ofObject o properties)

end GameBundle
