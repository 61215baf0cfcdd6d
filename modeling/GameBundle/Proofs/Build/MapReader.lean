import GameBundle.Proofs.Build.Events
import GameBundle.Proofs.Build.MapSound
import GameBundle.Proofs.Build.Run
import GameBundle.Proofs.Record.Contents

set_option autoImplicit false

/-! # The record of a map from front to back

The engine finds the lists of a map only through the counts in front of them, and the tile layers
only behind the lists. `ReadMap.reader` takes a record apart in this way, and nothing is left over.
What it finds is what the map was built from, for no size and no count is cut off: a map with one
that is too large is refused. -/

namespace GameBundle

/-! ## Reading -/

/-- What the record of a map says. The lists are as long as the counts in front of them. -/
structure ReadMap where
  name : List UInt8
  tileWidth : Nat
  tileHeight : Nat
  width : Nat
  height : Nat
  onLoad : UInt16
  onTick : UInt16
  onLook : UInt16
  player : Nat
  entities : List UInt16
  geometry : List UInt16
  scripts : List UInt16
  directions : List (List UInt8 × UInt16)
  layers : List (List UInt8)
  deriving DecidableEq

namespace ReadMap

open Reader

/-- How long the fields in front of the layers are. -/
def fieldsLength (entities geometry scripts directions : Nat) : Nat :=
  40 + 2 * (entities + geometry + scripts) + 16 * directions

def direction : Reader (List UInt8 × UInt16) := do
  let name ← bytes 12
  let script ← word
  zeros 2
  return (name, script)

/-- Read a map in the order in which its fields are declared. -/
def reader : Reader ReadMap := do
  let name ← bytes 16
  let tileWidth ← wordNumber
  let tileHeight ← wordNumber
  let width ← wordNumber
  let height ← wordNumber
  let onLoad ← word
  let onTick ← word
  let onLook ← word
  let layerCount ← byteNumber
  let player ← byteNumber
  let entityCount ← wordNumber
  let geometryCount ← wordNumber
  let scriptCount ← wordNumber
  let directionCount ← byteNumber
  zeros 1
  let entities ← many word entityCount
  let geometry ← many word geometryCount
  let scripts ← many word scriptCount
  let directions ← many direction directionCount
  let length := fieldsLength entityCount geometryCount scriptCount directionCount
  zeros (paddedLength length - length)
  let layers ← many (bytes (4 * (width * height))) layerCount
  return { name, tileWidth, tileHeight, width, height, onLoad, onTick, onLook, player, entities,
           geometry, scripts, directions, layers }

end ReadMap

/-! ## Fields -/

variable {tiled : Tiled.Map} {map : MapContext} {layers : Nat} {events : Ordered UInt16}
  {directions : List (String × UInt16)}

/-- Every size and every count of a map fits its field. -/
structure MapFits (tiled : Tiled.Map) (map : MapContext) (layers directions : Nat) : Prop where
  tileWidth : tiled.tileWidth.toNat ≤ 65535
  tileHeight : tiled.tileHeight.toNat ≤ 65535
  width : tiled.width.toNat ≤ 65535
  height : tiled.height.toNat ≤ 65535
  layers : layers ≤ 255
  player : (map.player.map UInt16.toNat).getD noPlayer ≤ 255
  entities : map.entities.size ≤ 65535
  geometry : map.geometry.size ≤ 65535
  scripts : map.scripts.size ≤ 65535
  directions : directions ≤ 255

/-- The fields in front of the lists. -/
def sizeFields (tiled : Tiled.Map) (map : MapContext) (layers : Nat) (events : Ordered UInt16)
    (directions : Nat) : List Field :=
  let context := fun (field : String) => s!"map \"{map.name}\" {field}"
  [.chars map.name 16,
    .number tiled.tileWidth.toNat 2 (context "tile width"),
    .number tiled.tileHeight.toNat 2 (context "tile height"),
    .number tiled.width.toNat 2 (context "width"),
    .number tiled.height.toNat 2 (context "height"),
    .word ((events.find? "on_load").getD 0),
    .word ((events.find? "on_tick").getD 0),
    .word ((events.find? "on_look").getD 0),
    .number layers 1 (context "layer count"),
    .number ((map.player.map UInt16.toNat).getD noPlayer) 1 (context "player entity"),
    .number map.entities.size 2 (context "entity count"),
    .number map.geometry.size 2 (context "geometry count"),
    .number map.scripts.size 2 (context "script count"),
    .number directions 1 (context "direction count"),
    .gap 1]

/-- The lists. -/
def listFields (map : MapContext) (directions : List (String × UInt16)) : List Field :=
  map.entities.toList.map (fun index => .word index) ++
    map.geometry.toList.map (fun index => .word index) ++
    map.scripts.toList.map (fun index => .word index) ++
    directions.flatMap fun (direction, script) => [.chars direction 12, .word script, .gap 2]

theorem encodeMapHeader_eq : encodeMapHeader tiled map layers events directions =
    Record.encode
      (ReadMap.fieldsLength map.entities.size map.geometry.size map.scripts.size directions.length)
      (sizeFields tiled map layers events directions.length ++ listFields map directions) := by
  simp only [encodeMapHeader, ReadMap.fieldsLength, sizeFields, listFields, mapEvents,
    List.length_append, Array.length_toList, List.map_append, List.map_cons, List.map_nil,
    List.append_assoc, List.cons_append, List.nil_append, Nat.add_assoc]

theorem widthOf_sizeFields {count : Nat} :
    widthOf (sizeFields tiled map layers events count) = 40 := by
  simp only [sizeFields, widthOf_cons, widthOf_nil, Field.width]

theorem widthOf_directions (directions : List (String × UInt16)) :
    widthOf (directions.flatMap fun (direction, script) =>
      [.chars direction 12, .word script, .gap 2]) = 16 * directions.length := by
  induction directions with
  | nil => rfl
  | cons direction rest ih =>
    rw [List.flatMap_cons, widthOf_append, ih, List.length_cons, Nat.mul_succ, Nat.add_comm]
    rfl

theorem widthOf_listFields : widthOf (listFields map directions) =
    2 * (map.entities.size + map.geometry.size + map.scripts.size) + 16 * directions.length := by
  simp only [listFields, widthOf_append, widthOf_directions,
    widthOf_map (f := fun index => Field.word index) 2 (fun _ => rfl), Array.length_toList,
    Nat.mul_add]

theorem sizeFields_fit {count : Nat} :
    (∀ field ∈ sizeFields tiled map layers events count, field.Fits) ↔
      MapFits tiled map layers count := by
  simp only [sizeFields, List.forall_mem_cons, Field.Fits, maxForWidth, List.not_mem_nil,
    IsEmpty.forall_iff, implies_true, true_and, and_true]
  constructor
  · rintro ⟨h₁, h₂, h₃, h₄, h₅, h₆, h₇, h₈, h₉, h₁₀⟩
    exact ⟨h₁, h₂, h₃, h₄, h₅, h₆, h₇, h₈, h₉, h₁₀⟩
  · rintro ⟨h₁, h₂, h₃, h₄, h₅, h₆, h₇, h₈, h₉, h₁₀⟩
    exact ⟨h₁, h₂, h₃, h₄, h₅, h₆, h₇, h₈, h₉, h₁₀⟩

theorem listFields_fit : ∀ field ∈ listFields map directions, field.Fits := by
  intro field hfield
  simp only [listFields, List.mem_append, List.mem_map, List.mem_flatMap, List.mem_cons,
    List.not_mem_nil, or_false] at hfield
  rcases hfield with ((⟨_, -, rfl⟩ | ⟨_, -, rfl⟩) | ⟨_, -, rfl⟩) | ⟨_, -, rfl | rfl | rfl⟩ <;>
    exact trivial

/-- The bytes of a header whose sizes and counts fit. -/
def headerImage (tiled : Tiled.Map) (map : MapContext) (layers : Nat) (events : Ordered UInt16)
    (directions : List (String × UInt16)) : List UInt8 :=
  let length :=
    ReadMap.fieldsLength map.entities.size map.geometry.size map.scripts.size directions.length
  contentsOf (sizeFields tiled map layers events directions.length ++ listFields map directions) ++
    List.replicate (paddedLength length - length) 0

theorem encodeMapHeader_of_fits (h : MapFits tiled map layers directions.length) :
    encodeMapHeader tiled map layers events directions =
      .ok (headerImage tiled map layers events directions).toArray := by
  have hwidth : widthOf (sizeFields tiled map layers events directions.length ++
      listFields map directions) = ReadMap.fieldsLength map.entities.size map.geometry.size
        map.scripts.size directions.length := by
    rw [widthOf_append, widthOf_sizeFields, widthOf_listFields]
    exact (Nat.add_assoc _ _ _).symm
  have hword : ReadMap.fieldsLength map.entities.size map.geometry.size map.scripts.size
      directions.length < wordLimit := by
    have hentities := h.entities
    have hgeometry := h.geometry
    have hscripts := h.scripts
    have hdirections := h.directions
    unfold ReadMap.fieldsLength
    change _ < 18446744073709551616
    omega
  have hfits : ∀ field ∈ sizeFields tiled map layers events directions.length ++
      listFields map directions, field.Fits := fun field hfield =>
    (List.mem_append.1 hfield).elim (sizeFields_fit.2 h field) (listFields_fit field)
  rw [encodeMapHeader_eq, Record.encode_eq (Nat.le_of_eq hwidth) (hwidth ▸ hword) hfits, hwidth]
  rfl

theorem encodeMapHeader_of_not_fits (h : ¬MapFits tiled map layers directions.length) :
    ∃ value width context, maxForWidth width < value ∧
      encodeMapHeader tiled map layers events directions =
        .error (.error (.fieldOverflow context value width)) := by
  rw [encodeMapHeader_eq]
  refine Record.encode_eq_error ?_ ?_ (mt sizeFields_fit.1 h)
  · rw [widthOf_sizeFields, ReadMap.fieldsLength, Nat.add_assoc]
    exact Nat.le_add_right _ _
  · rw [widthOf_sizeFields]
    decide

/-! ## Reading what was written -/

namespace ReadMap

open Reader

theorem reads_words (words : List UInt16) :
    Reads (many word words.length) (contentsOf (words.map fun index => .word index)) words := by
  rw [contentsOf, List.flatMap_map, List.flatMap_def]
  refine reads_many ?_
  rw [List.forall₂_map_left_iff]
  exact List.forall₂_same.2 fun index _ => reads_wordField index

/-- How a text stands in a field of `width` bytes. -/
def zeroFilled (text : String) (width : Nat) : List UInt8 :=
  (text.toUTF8.toList ++ List.replicate width 0).take width

theorem reads_directions (directions : List (String × UInt16)) :
    Reads (many direction directions.length)
      (contentsOf (directions.flatMap fun (direction, script) =>
        [.chars direction 12, .word script, .gap 2]))
      (directions.map fun (direction, script) => (zeroFilled direction 12, script)) := by
  have hall : List.Forall₂ (Reads direction)
      (directions.map fun (direction, script) =>
        contentsOf [.chars direction 12, .word script, .gap 2])
      (directions.map fun (direction, script) => (zeroFilled direction 12, script)) := by
    rw [List.forall₂_map_left_iff, List.forall₂_map_right_iff]
    refine List.forall₂_same.2 fun (name, script) _ => ?_
    exact (reads_chars name 12).bind <| (reads_wordField script).bind <| (reads_zeros 2).map
  have hmany := reads_many hall
  rw [List.length_map] at hmany
  rwa [contentsOf, List.flatMap_assoc, List.flatMap_def]

/-- What the record of a map says when it was built from these parts. -/
def expected (tiled : Tiled.Map) (map : MapContext) (events : Ordered UInt16)
    (directions : List (String × UInt16)) (layers : List Bytes) : ReadMap where
  name := zeroFilled map.name 16
  tileWidth := tiled.tileWidth.toNat
  tileHeight := tiled.tileHeight.toNat
  width := tiled.width.toNat
  height := tiled.height.toNat
  onLoad := (events.find? "on_load").getD 0
  onTick := (events.find? "on_tick").getD 0
  onLook := (events.find? "on_look").getD 0
  player := (map.player.map UInt16.toNat).getD 255
  entities := map.entities.toList
  geometry := map.geometry.toList
  scripts := map.scripts.toList
  directions := directions.map fun (direction, script) => (zeroFilled direction 12, script)
  layers := layers.map Array.toList

theorem reads_expected {layers : List Bytes} (h : MapFits tiled map layers.length directions.length)
    (hlayers : ∀ layer ∈ layers, layer.size = 4 * (tiled.width.toNat * tiled.height.toNat)) :
    Reads reader (headerImage tiled map layers.length events directions ++
      layers.flatMap Array.toList) (expected tiled map events directions layers) := by
  have hcells : Reads (many (bytes (4 * (tiled.width.toNat * tiled.height.toNat))) layers.length)
      (layers.flatMap Array.toList) (layers.map Array.toList) := by
    have hall : List.Forall₂ (Reads (bytes (4 * (tiled.width.toNat * tiled.height.toNat))))
        (layers.map Array.toList) (layers.map Array.toList) := by
      rw [List.forall₂_map_left_iff, List.forall₂_map_right_iff]
      exact List.forall₂_same.2 fun layer hlayer => reads_bytes (hlayers layer hlayer)
    have hmany := reads_many hall
    rwa [List.length_map, ← List.flatMap_def] at hmany
  have hwords : ∀ xs : Array UInt16, Reads (many word xs.size)
      (contentsOf (xs.toList.map fun index => .word index)) xs.toList := fun xs => reads_words xs.toList
  simp only [headerImage, contentsOf_append, listFields, sizeFields, contentsOf_cons, List.append_assoc]
  refine (reads_chars map.name 16).bind ?_
  refine (reads_wordNumber h.tileWidth _).bind <| (reads_wordNumber h.tileHeight _).bind ?_
  refine (reads_wordNumber h.width _).bind <| (reads_wordNumber h.height _).bind ?_
  refine (reads_wordField _).bind <| (reads_wordField _).bind <| (reads_wordField _).bind ?_
  refine (reads_byteNumber h.layers _).bind <| (reads_byteNumber h.player _).bind ?_
  refine (reads_wordNumber h.entities _).bind <| (reads_wordNumber h.geometry _).bind ?_
  refine (reads_wordNumber h.scripts _).bind <| (reads_byteNumber h.directions _).bind ?_
  refine (reads_zeros 1).bind ?_
  refine (hwords map.entities).bind <| (hwords map.geometry).bind <| (hwords map.scripts).bind ?_
  exact (reads_directions directions).bind <| (reads_zeros _).bind hcells.map

end ReadMap

/-! ## Building a map -/

variable {input : Input} {name : String} {settings : MapSettings} {p q : Project} {s t : MapState}

/-- Everything that goes into the record of a map is built, which leaves the state `s`. -/
def PreparedMap (input : Input) (name : String) (settings : MapSettings) (p : Project)
    (tiled : Tiled.Map) (layers : List Bytes) (events : Ordered UInt16)
    (directions : List (String × UInt16)) (s : MapState) : Prop :=
  ∃ path index tilesets p' placed r v w, settings.path = some path ∧
    p.maps.find? name = some index ∧
    readJson input.source Tiled.Map.decode (Text.baseName path) = .ok tiled ∧
    Yields (loadTilesets input tiled) p tilesets p' ∧
    encodeLayers tiled tilesets s!"map \"{name}\"" = .ok layers ∧
    Yields (placeObjects tiled tilesets) ⟨{ name, index }, p'⟩ placed r ∧
    Yields (compileEvents input tiled settings) r events v ∧
    Yields (compileAll input settings.directions.entries) v directions w ∧
    Yields (placed.forM fun e => wireEntity input e.1 e.2) w () s

/-- A map is built by preparing it and filling its record. -/
theorem prepared_of_buildMap (h : Yields (buildMap input name settings) p () q) :
    ∃ tiled layers events directions s header,
      PreparedMap input name settings p tiled layers events directions s ∧
        encodeMapHeader tiled s.map layers.length events directions = .ok header ∧
        q = s.project.fill .maps s.map.index.toNat (layers.foldl (· ++ ·) header) := by
  simp only [buildMap, yields_bind, yields_orReject, yields_get, yields_except, liftM_eq_ok,
    yields_onMap, yields_buildMapContents, composeMap, yields_pure] at h
  obtain ⟨path, _, ⟨hpath, rfl⟩, _, _, ⟨rfl, rfl⟩, index, _, ⟨hindex, rfl⟩, tiled, _, ⟨htiled, rfl⟩,
    tilesets, p', htilesets, layers, _, ⟨hlayers, rfl⟩, _, ⟨_, s, ⟨placed, r, hplaced, events, v,
    hevents, directions, w, hdirections, _, _, hwired, _, _, ⟨rfl, rfl⟩, header, _, ⟨hheader, rfl⟩,
    rfl, rfl⟩, -, rfl⟩, rfl⟩ := h
  exact ⟨tiled, layers, events, directions, _, header, ⟨path, index, tilesets, p', placed, r, v, w,
    hpath, hindex, htiled, htilesets, hlayers, hplaced, hevents, hdirections, hwired⟩, hheader, rfl⟩

/-- A map whose header is refused is not built. -/
theorem fails_buildMap {layers : List Bytes} {f : Failure}
    (h : PreparedMap input name settings p tiled layers events directions s)
    (hheader : encodeMapHeader tiled s.map layers.length events directions = .error f) :
    Fails (buildMap input name settings) p f s.project := by
  obtain ⟨path, index, tilesets, p', placed, r, v, w, hpath, hindex, htiled, htilesets, hlayers,
    hplaced, hevents, hdirections, hwired⟩ := h
  refine fails_bind.2 (.inr ⟨path, p, yields_orReject.2 ⟨hpath, rfl⟩, ?_⟩)
  refine fails_bind.2 (.inr ⟨p, p, yields_get.2 ⟨rfl, rfl⟩, ?_⟩)
  refine fails_bind.2 (.inr ⟨index, p, yields_orReject.2 ⟨hindex, rfl⟩, ?_⟩)
  refine fails_bind.2 (.inr ⟨tiled, p, yields_except.2 ⟨liftM_eq_ok.2 htiled, rfl⟩, ?_⟩)
  refine fails_bind.2 (.inr ⟨tilesets, p', htilesets, ?_⟩)
  refine fails_bind.2 (.inr ⟨layers, p', yields_except.2 ⟨liftM_eq_ok.2 hlayers, rfl⟩, ?_⟩)
  refine fails_onMap.2 ⟨s, ?_, rfl⟩
  refine fails_bind.2 (.inr ⟨placed, r, hplaced, ?_⟩)
  refine fails_bind.2 (.inr ⟨events, v, hevents, ?_⟩)
  refine fails_bind.2 (.inr ⟨directions, w, hdirections, ?_⟩)
  refine fails_bind.2 (.inr ⟨(), s, hwired, ?_⟩)
  refine fails_bind.2 (.inr ⟨s, s, yields_get.2 ⟨rfl, rfl⟩, ?_⟩)
  exact fails_bind.2 (.inl (fails_except.2 ⟨hheader, rfl⟩))

theorem compileAll_finds {scripts : List (String × String)} {numbers : List (String × UInt16)}
    (h : Yields (compileAll input scripts) s numbers t) :
    List.Forall₂ (fun script number => Compiled script number t.map.meaning) scripts numbers := by
  refine (yields_mapM (fun _ => True) (Finishes input)
    (fun script number t => Compiled script number t.map.meaning) (fun s _ => .refl input s)
    (fun _ _ _ => .trans) (fun _ _ _ => trivial)
    (fun _ _ s t hst hnumber => ⟨hnumber.1, hst.follows.later.numbers _ _ hnumber.2⟩)
    (fun script _ s number t _ hscript => ?_) trivial h).2
  simp only [yields_bind, yields_pure] at hscript
  obtain ⟨value, _, hvalue, rfl, rfl⟩ := hscript
  exact ⟨(compileScript_replays script.2).finishes hvalue, rfl, compileScript_finds hvalue⟩

theorem compileEvents_finds (h : Yields (compileEvents input tiled settings) s events t) :
    ∀ event ∈ mapEvents, EventNumber tiled settings events t.map.meaning event := by
  simp only [compileEvents, yields_bind, yields_get, yields_except, liftM_eq_ok, yields_pure] at h
  obtain ⟨_, _, -, _, _, ⟨rfl, rfl⟩, scripts, _, ⟨hscripts, rfl⟩, numbers, _, hcompiled, rfl, rfl⟩ := h
  exact fun event hevent =>
    (eventNumber_of_compiled hscripts (compileAll_finds hcompiled) hevent).2

/-! ## The whole record -/

/-- What is true of a map that is ready for its record. -/
structure PreparedMap.Facts (input : Input) (name : String) (settings : MapSettings) (p : Project)
    (tiled : Tiled.Map) (layers : List Bytes) (events : Ordered UInt16)
    (directions : List (String × UInt16)) (s : MapState) : Prop where
  named : s.map.name = name
  found : p.maps.find? name = some s.map.index
  layers : ∀ layer ∈ layers, layer.size = 4 * (tiled.width.toNat * tiled.height.toNat)
  events : ∀ event ∈ mapEvents, EventNumber tiled settings events s.map.meaning event
  directions : List.Forall₂ (fun script number => Compiled script number s.map.meaning)
    settings.directions.entries directions

theorem PreparedMap.facts {layers : List Bytes}
    (h : PreparedMap input name settings p tiled layers events directions s) :
    PreparedMap.Facts input name settings p tiled layers events directions s := by
  obtain ⟨path, index, tilesets, p', placed, r, v, w, -, hindex, -, -, hlayers, hplaced, hevents,
    hdirections, hwired⟩ := h
  obtain ⟨hplaces, hrv, hvw, hwu⟩ := contents_finish hplaced hevents hdirections hwired
  have hlater := ((hrv.trans hvw).trans hwu).follows.later
  exact {
    named := hlater.name.trans hplaces.name
    found := by rw [hlater.map, hindex, hplaces.index]
    layers := fun layer hlayer => by
      obtain ⟨_, -, hencode⟩ := exists_of_mem_forall₂ (mapM_eq_ok.1 hlayers) hlayer
      exact size_of_encodeLayer hencode
    events := fun event hevent => (compileEvents_finds hevents event hevent).mono fun _ _ hnumber =>
      (hvw.trans hwu).follows.later.numbers _ _ hnumber
    directions := (compileAll_finds hdirections).imp fun _ _ hnumber =>
      ⟨hnumber.1, hwu.follows.later.numbers _ _ hnumber.2⟩ }

/-- **The record of a map reads back.** Read from its first byte on, it gives the sizes, the scripts,
    the lists and the tile layers that the map was built from, and nothing is left over. If a size or
    a count does not fit its field the map is refused. No header is longer than it declares. -/
theorem map_record_reads_back (input : Input) (name : String) (settings : MapSettings)
    (p : Project) :
    (∀ q, Yields (buildMap input name settings) p () q →
      ∃ tiled layers events directions s record,
        PreparedMap input name settings p tiled layers events directions s ∧
        PreparedMap.Facts input name settings p tiled layers events directions s ∧
        q = s.project.fill .maps s.map.index.toNat record ∧
        ReadMap.reader.readAll? record =
          some (ReadMap.expected tiled s.map events directions layers) ∧
        record.size = paddedLength (40 + 2 * (s.map.entities.size + s.map.geometry.size +
          s.map.scripts.size) + 16 * directions.length) +
            4 * (tiled.width.toNat * tiled.height.toNat) * layers.length) ∧
    (∀ tiled layers events directions s,
      PreparedMap input name settings p tiled layers events directions s →
      ¬MapFits tiled s.map layers.length directions.length →
      ∃ value width context, maxForWidth width < value ∧
        Fails (buildMap input name settings) p (.error (.fieldOverflow context value width))
          s.project) ∧
    ∀ tiled map layers events directions,
      encodeMapHeader tiled map layers events directions ≠ .error .overrun := by
  refine ⟨fun q h => ?_, fun tiled layers events directions s h hfits => ?_, ?_⟩
  · obtain ⟨tiled, layers, events, directions, s, header, hprepared, hheader, rfl⟩ :=
      prepared_of_buildMap h
    have hfacts := hprepared.facts
    have hfits : MapFits tiled s.map layers.length directions.length := by
      by_contra hnot
      obtain ⟨_, _, _, -, herror⟩ := encodeMapHeader_of_not_fits hnot
      cases herror.symm.trans hheader
    have hsize := Record.size_of_encode (encodeMapHeader_eq.symm.trans hheader)
    obtain rfl := Except.ok.inj ((encodeMapHeader_of_fits hfits).symm.trans hheader)
    refine ⟨tiled, layers, events, directions, s, _, hprepared, hfacts, rfl, ?_, ?_⟩
    · exact (ReadMap.reads_expected hfits hfacts.layers).readAll? (Bytes.toList_concat _ _)
    · rw [Bytes.size_concat, hsize, List.map_congr_left hfacts.layers, List.map_const',
        List.sum_replicate_nat, Nat.mul_comm layers.length]
      rfl
  · obtain ⟨value, width, context, hlarge, herror⟩ := encodeMapHeader_of_not_fits hfits
    exact ⟨value, width, context, hlarge, fails_buildMap h herror⟩
  · intro tiled map layers events directions herror
    by_cases hfits : MapFits tiled map layers directions.length
    · cases (encodeMapHeader_of_fits hfits).symm.trans herror
    · obtain ⟨_, _, _, -, hrefused⟩ := encodeMapHeader_of_not_fits hfits
      cases hrefused.symm.trans herror

/-! ## Examples -/

/-- The file of a map of two cells, the second with a flipped tile, with an entity and an outline. -/
def caveFile : String :=
  "\x7b\"width\":2,\"height\":1,\"tilewidth\":3,\"tileheight\":4," ++
    "\"tilesets\":[\x7b\"firstgid\":1,\"source\":\"rock.json\"\x7d],\"layers\":[" ++
    "\x7b\"type\":\"tilelayer\",\"name\":\"\",\"data\":[2,2147483649]\x7d," ++
    "\x7b\"type\":\"objectgroup\",\"name\":\"\",\"objects\":[" ++
    "\x7b\"id\":1,\"gid\":1\x7d,\x7b\"id\":2\x7d]\x7d]\x7d"

/-- The file of a tileset of two tiles. -/
def rockFile : String :=
  "\x7b\"tilewidth\":2,\"tileheight\":2,\"tilecount\":2,\"columns\":2," ++
    "\"image\":\"rock.png\",\"imagewidth\":4,\"imageheight\":2\x7d"

/-- The cave can be left in two directions. -/
def caveSettings : MapSettings where
  path := some "cave.json"
  onTick := some "drip"
  directions := .ofList [("north", "leave"), ("south", "drip")]

def mine : Input where
  source := .inMemory .none
    (.ofList [("cave.json", caveFile.toUTF8), ("rock.json", rockFile.toUTF8)])
    (.ofList [("rock.png", ⟨4, 2, 3, Array.replicate 24 0⟩)])
  definitions := {
    maps := .ofList [("cave", caveSettings)]
    scripts := .ofList [(nullScript, []), ("drip", []), ("leave", [])] }

/-- What is read of the cave. -/
def caveRead : ReadMap where
  name := [99, 97, 118, 101] ++ List.replicate 12 0
  tileWidth := 3
  tileHeight := 4
  width := 2
  height := 1
  onLoad := 0
  onTick := 1
  onLook := 0
  player := 255
  entities := [0]
  geometry := [0]
  scripts := [0, 1, 2]
  directions := [([110, 111, 114, 116, 104] ++ List.replicate 7 0, 2),
    ([115, 111, 117, 116, 104] ++ List.replicate 7 0, 1)]
  layers := [[2, 0, 0, 0, 1, 0, 0, 4]]

/-- A project with one map that is too wide. -/
def widePlain : Input where
  source := {
    read := fun _ => .ok ("\x7b\"width\": 65536, \"height\": 0, \"tilewidth\": 1, " ++
      "\"tileheight\": 1\x7d").toUTF8
    contains := fun _ => true
    image := fun name => .error (.missingFile name) }
  definitions := { maps := .ofList [("plain", { path := some "plain.json" })] }

/-- Nothing but the width stands in the way of its record. -/
theorem widePlain_prepared : ∃ tiled layers events directions s,
    PreparedMap widePlain "plain" { path := some "plain.json" } { maps := .ofList [("plain", 0)] }
      tiled layers events directions s ∧ tiled.width = 65536 := by
  have hsizes : (readJson widePlain.source Tiled.Map.decode "plain.json").toOption.map
      (fun t => decide (t.width = 65536 ∧ t.height = 0 ∧ t.tileWidth = 1 ∧ t.tileHeight = 1 ∧
        t.layers.length = 0 ∧ t.tilesets.length = 0 ∧ t.properties.length = 0)) = some true := by
    decide +kernel
  obtain ⟨⟨width, height, tileWidth, tileHeight, layers, tilesets, properties⟩, htiled, hsizes⟩ :=
    Option.map_eq_some_iff.1 hsizes
  simp only [decide_eq_true_eq, List.length_eq_zero_iff] at hsizes
  obtain ⟨rfl, rfl, rfl, rfl, rfl, rfl, rfl⟩ := hsizes
  have hplaced : (outcome (placeObjects ⟨65536, 0, 1, 1, [], [], []⟩ [])
      ⟨{ name := "plain", index := 0 }, { maps := .ofList [("plain", 0)] }⟩).1.toOption.map
        List.length = some 0 := by decide +kernel
  obtain ⟨placed, hplaced, hempty⟩ := Option.map_eq_some_iff.1 hplaced
  obtain rfl := List.eq_nil_of_length_eq_zero hempty
  obtain ⟨events, hevents⟩ := exists_of_isOk (x := (outcome (compileEvents widePlain
    ⟨65536, 0, 1, 1, [], [], []⟩ { path := some "plain.json" }) (outcome (placeObjects
      ⟨65536, 0, 1, 1, [], [], []⟩ []) ⟨{ name := "plain", index := 0 },
        { maps := .ofList [("plain", 0)] }⟩).2).1) (by decide +kernel)
  exact ⟨_, [], events, [], _, ⟨"plain.json", 0, [], _, [], _, _, _, rfl, by decide +kernel,
    eq_ok_of_toOption htiled, rfl, rfl, yields_outcome (eq_ok_of_toOption hplaced),
    yields_outcome hevents, rfl, rfl⟩, rfl⟩

/-- The cave reads back, and the map that is too wide is refused. -/
theorem map_record_reads_back_cave :
    (∃ p q tiled layers events directions s record,
      Yields (buildMap mine "cave" caveSettings) p () q ∧
      PreparedMap mine "cave" caveSettings p tiled layers events directions s ∧
      ((q.tables.records .maps)[0]? >>= Record.bytes) = some record ∧
      ReadMap.reader.readAll? record =
        some (ReadMap.expected tiled s.map events directions layers) ∧
      ReadMap.expected tiled s.map events directions layers = caveRead) ∧
    ∃ value width context s, maxForWidth width < value ∧
      Fails (buildMap widePlain "plain" { path := some "plain.json" })
        { maps := .ofList [("plain", 0)] } (.error (.fieldOverflow context value width)) s := by
  constructor
  · have hrecord : (build mine).toOption.map (fun tables => (tables.records .maps)[0]? >>=
        Record.bytes >>= ReadMap.reader.readAll?) = some (some caveRead) := by decide +kernel
    obtain ⟨tables, htables, hcaveRead⟩ := Option.map_eq_some_iff.1 hrecord
    have hmap : mine.definitions.maps.entries[0]? = some ("cave", caveSettings) := rfl
    obtain ⟨hall, rfl⟩ := yields_of_build (eq_ok_of_toOption htables)
    have hcave := (yields_buildUpTo_succ hmap hall).2
    obtain ⟨tiled, layers, events, directions, s, record, hprepared, hfacts, hq, hread, -⟩ :=
      (map_record_reads_back mine "cave" caveSettings _).1 _ hcave
    -- the map is the only one, so its record is the first
    have hfirst : (projectBefore mine 0).maps.find? "cave" = some 0 := by decide +kernel
    have hplace : s.map.index.toNat = 0 :=
      congrArg UInt16.toNat (Option.some.inj (hfacts.found.symm.trans hfirst))
    rw [hplace] at hq
    have hstored : (((projectBefore mine mine.definitions.maps.size).tables.records .maps)[0]? >>=
        Record.bytes) = some record := by
      rw [hq, Project.fill, Tables.getElem?_records_set, if_pos rfl] at hcaveRead ⊢
      cases hold : (s.project.tables.records .maps)[0]? with
      | none =>
        rw [hold] at hcaveRead
        cases hcaveRead
      | some old => rfl
    rw [hstored] at hcaveRead
    exact ⟨_, _, tiled, layers, events, directions, s, record, hcave, hprepared, hstored, hread,
      Option.some.inj (hread.symm.trans hcaveRead)⟩
  · obtain ⟨tiled, layers, events, directions, s, hprepared, hwidth⟩ := widePlain_prepared
    obtain ⟨value, width, context, hlarge, hfails⟩ :=
      (map_record_reads_back _ _ _ _).2.1 tiled layers events directions s hprepared fun hfits => by
        have hfits := hfits.width
        rw [hwidth] at hfits
        exact absurd hfits (by decide)
    exact ⟨value, width, context, _, hlarge, hfails⟩

end GameBundle
