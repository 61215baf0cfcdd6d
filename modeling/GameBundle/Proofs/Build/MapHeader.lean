import GameBundle.Build.Maps
import GameBundle.Proofs.Record.Fields

set_option autoImplicit false

/-! # The header of a map

A record of a map begins with a header that the engine reads: how many entities, outlines and
scripts there are, and the records of each. `MapHeader.read?` is such a reader, and
`read?_of_encode` says what it finds in a header that was built for a map. -/

namespace GameBundle

/-! ## Reading -/

/-- The words that follow one another from `start` on. -/
def Bytes.words? (bytes : Bytes) : Nat → Nat → Option (List UInt16)
  | _, 0 => some []
  | start, count + 1 => do
    let word ← bytes.word? start
    return word :: (← bytes.words? (start + 2) count)

/-- The lists of a map, by global number, and how many directions it has. -/
structure MapHeader where
  entities : List UInt16
  geometry : List UInt16
  scripts : List UInt16
  directions : UInt8
  deriving Repr, DecidableEq

namespace MapHeader

/-- Where the first list starts. -/
def listsOffset : Nat := 40

/-- Read the lists of a map from its record. -/
def read? (bytes : Bytes) : Option MapHeader := do
  let entities := (← bytes.word? 32).toNat
  let geometry := (← bytes.word? 34).toNat
  let scripts := (← bytes.word? 36).toNat
  let directions ← bytes[38]?
  return {
    entities := ← bytes.words? listsOffset entities
    geometry := ← bytes.words? (listsOffset + 2 * entities) geometry
    scripts := ← bytes.words? (listsOffset + 2 * (entities + geometry)) scripts
    directions }

/-- Where a direction has its script. -/
def directionOffset (h : MapHeader) (k : Nat) : Nat :=
  listsOffset + 2 * (h.entities.length + h.geometry.length + h.scripts.length) + 16 * k + 12

end MapHeader

/-! ## Writing -/

theorem Bytes.words?_of_fields {bytes : Bytes} {start : Nat} {words : List UInt16}
    (h : bytes.HasFields start (words.map fun word => .word word)) :
    bytes.words? start words.length = some words := by
  induction words generalizing start with
  | nil => rfl
  | cons word rest ih =>
    obtain ⟨hword, -, hrest⟩ := h
    have hword' : bytes.word? start = some word := hword.word?
    have hrest' : bytes.words? (start + 2) rest.length = some rest := ih hrest
    rw [List.length_cons, Bytes.words?, hword', hrest']
    rfl

theorem Bytes.HasAt.number? {bytes : Bytes} {start value : Nat} {context : String}
    (hfits : (Field.number value 2 context).Fits)
    (h : bytes.HasAt start (Field.number value 2 context).written) :
    ∃ word, bytes.word? start = some word ∧ word.toNat = value := by
  refine ⟨value.toUInt16, h.word?, UInt16.toNat_ofNat_of_lt' ?_⟩
  exact Nat.lt_succ_of_le hfits

/-- What stands in a header that was built for a map. -/
theorem read?_of_encode {tiled : Tiled.Map} {map : MapContext} {layers : Nat}
    {events : Ordered UInt16} {directions : List (String × UInt16)} {bytes record : Bytes}
    (h : encodeMapHeader tiled map layers events directions = .ok bytes)
    (hrecord : record.HasAt 0 bytes.toList) :
    ∃ header, MapHeader.read? record = some header ∧
      header.entities = map.entities.toList ∧ header.geometry = map.geometry.toList ∧
      header.scripts = map.scripts.toList ∧ header.directions.toNat = directions.length ∧
      (∀ k direction script, directions[k]? = some (direction, script) →
        record.word? (header.directionOffset k) = some script) ∧
      ∀ k event, mapEvents[k]? = some event →
        record.word? (24 + 2 * k) = some ((events.find? event).getD 0) := by
  have hfields := (Record.hasFields_of_encode h).within hrecord
  simp only [Bytes.hasFields_append, widthOf_append, widthOf_cons, widthOf_nil, Field.width,
    mapEvents, List.map_append, List.map_cons, List.map_nil, Nat.add_zero, Nat.zero_add, Nat.reduceAdd,
    widthOf_map (f := fun index => Field.word index) 2 (fun _ => rfl)] at hfields
  obtain ⟨⟨⟨⟨-, hevents⟩, hcounts⟩, ⟨hentities, hgeometry⟩, hscripts⟩, hdirections⟩ := hfields
  obtain ⟨-, -, -, -, hcountE, hfitsE, hcountG, hfitsG, hcountS, hfitsS, hcountD, hfitsD, -⟩ :=
    hcounts
  obtain ⟨countE, hwordE, hvalueE⟩ := hcountE.number? hfitsE
  obtain ⟨countG, hwordG, hvalueG⟩ := hcountG.number? hfitsG
  obtain ⟨countS, hwordS, hvalueS⟩ := hcountS.number? hfitsS
  change record.word? 32 = _ at hwordE
  change record.word? 34 = _ at hwordG
  change record.word? 36 = _ at hwordS
  have hbyteD : record[38]? = some directions.length.toUInt8 := hcountD 0 (Nat.lt_succ_self 0)
  have hlistE := Bytes.words?_of_fields hentities
  have hlistG := Bytes.words?_of_fields hgeometry
  have hlistS := Bytes.words?_of_fields hscripts
  simp only [Array.length_toList, ← hvalueE, ← hvalueG, ← hvalueS, ← Nat.mul_add]
    at hlistE hlistG hlistS
  refine ⟨⟨map.entities.toList, map.geometry.toList, map.scripts.toList, directions.length.toUInt8⟩,
    ?_, rfl, rfl, rfl, ?_, fun k direction script hk => ?_, fun k event hk => ?_⟩
  · simp only [MapHeader.read?, MapHeader.listsOffset, hwordE, hwordG, hwordS, hbyteD, hlistE,
      hlistG, hlistS, Option.bind_eq_bind, Option.bind_some, Option.pure_def]
  · exact UInt8.toNat_ofNat_of_lt' (Nat.lt_succ_of_le hfitsD)
  · have hgroup := hdirections.item 16 (fun _ _ => rfl) hk
    rw [← Nat.mul_add, ← Nat.mul_add] at hgroup
    exact hgroup.2.2.1.word?
  · obtain ⟨hload, -, htick, -, hlook, -⟩ := hevents
    rcases k with _ | _ | _ | k
    · obtain rfl := Option.some.inj hk
      exact hload.word?
    · obtain rfl := Option.some.inj hk
      exact htick.word?
    · obtain rfl := Option.some.inj hk
      exact hlook.word?
    · cases hk

/-- Where a header has the number of the player. -/
def MapHeader.playerOffset : Nat := 31

/-- The number of the player is one byte, and `noPlayer` if there is none. -/
theorem player_of_encode {tiled : Tiled.Map} {map : MapContext} {layers : Nat}
    {events : Ordered UInt16} {directions : List (String × UInt16)} {bytes record : Bytes}
    (h : encodeMapHeader tiled map layers events directions = .ok bytes)
    (hrecord : record.HasAt 0 bytes.toList) :
    ∃ byte, record[MapHeader.playerOffset]? = some byte ∧
      byte.toNat = (map.player.map UInt16.toNat).getD noPlayer := by
  have hfields := (Record.hasFields_of_encode h).within hrecord
  simp only [Bytes.hasFields_append, widthOf_append, widthOf_cons, widthOf_nil, Field.width,
    mapEvents, List.map_append, List.map_cons, List.map_nil, Nat.add_zero, Nat.zero_add,
    Nat.reduceAdd] at hfields
  obtain ⟨⟨⟨-, -, -, hplayer, hfits, -⟩, -⟩, -⟩ := hfields
  exact ⟨_, hplayer 0 (Nat.lt_succ_self 0), UInt8.toNat_ofNat_of_lt' (Nat.lt_succ_of_le hfits)⟩

end GameBundle
