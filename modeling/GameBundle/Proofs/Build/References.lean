import GameBundle.Proofs.Build.MapHeader
import GameBundle.Proofs.Build.Slots

set_option autoImplicit false

/-! # What records refer to

The records of a bundle refer to one another by index, from fixed places, from lists whose lengths
are stored with them, and from the slots of instructions. `Intact` reads a record as the engine does
and says that every index in it is below the number of records of the kind it belongs to. More
records cannot make that wrong, so it is enough that it is true when a record is filled. -/

namespace GameBundle

/-! ## Places -/

/-- How many records there are of each kind. -/
abbrev Counts : Type := Kind → Nat

namespace Bytes

/-- The word at a place is the index of a record. -/
def RefersAt (bytes : Bytes) (count : Counts) (kind : Kind) (offset : Nat) : Prop :=
  ∃ index, bytes.word? offset = some index ∧ index.toNat < count kind

/-- The byte at a place is the index of a portrait, or stands for none. -/
def PortraitAt (bytes : Bytes) (count : Counts) (offset : Nat) : Prop :=
  ∃ portrait, bytes[offset]? = some portrait ∧
    (portrait ≠ noPortrait → portrait.toNat < count .portraits)

/-- A tile seen from some side: an animation, or a tile of the tileset whose index plus one is in
    the third byte. -/
def ViewAt (bytes : Bytes) (count : Counts) (offset : Nat) : Prop :=
  ∃ id source, bytes.word? offset = some id ∧ bytes[offset + 2]? = some source ∧
    if source = 0 then id.toNat < count .animations else source.toNat - 1 < count .tilesets

/-- The index of an outline plus one, or zero for none. -/
def ShapeAt (bytes : Bytes) (count : Counts) (offset : Nat) : Prop :=
  ∃ shape, bytes.word? offset = some shape ∧ (shape ≠ 0 → shape.toNat - 1 < count .geometry)

/-- A cell of a tile layer. One that is not empty has its tileset in the third byte. -/
def CellAt (bytes : Bytes) (count : Counts) (offset : Nat) : Prop :=
  ∃ tile tileset, bytes.word? offset = some tile ∧ bytes[offset + 2]? = some tileset ∧
    (tile ≠ 0 → tileset.toNat < count .tilesets)

end Bytes

/-- The kind of the records that an argument is an index of. Other arguments are numbers by
    themselves, or count in the lists of a map. -/
def OperandKind.target? : OperandKind → Option Kind
  | .map => some .maps
  | .entityType => some .entityTypes
  | .text pool => some pool.kind
  | .dialog => some .dialogs
  | .serialDialog => some .serialDialogs
  | _ => none

/-- The kind of the records that an entity is drawn with. -/
def lookKind? (code : UInt8) : Option Kind :=
  match code.toNat with
  | 0 => some .tilesets
  | 1 => some .animations
  | 2 => some .entityTypes
  | _ => none

namespace Bytes

/-- An instruction whose slots have indices of records wherever their arguments are such. -/
def InstructionRefersAt (bytes : Bytes) (count : Counts) (start : Nat) : Prop :=
  ∃ (number : UInt8) (opcode : Opcode), bytes[start]? = some number ∧
    Opcode.all[number.toNat]? = some opcode ∧
    ∀ k operand kind, opcode.operands[k]? = some operand → operand.kind.target? = some kind →
      ∃ value, bytes.slot? (start + opcode.slotOffset k) operand.width = some value ∧
        value < count kind

/-- A screen of a dialog with so many messages and responses. -/
structure ScreenAt (bytes : Bytes) (count : Counts) (start messages responses : Nat) : Prop where
  title : bytes.RefersAt count .strings start
  border : bytes.RefersAt count .tilesets (start + 2)
  messageCount : ∃ n, bytes[start + 6]? = some n ∧ n.toNat = messages
  responseCount : ∃ n, bytes[start + 8]? = some n ∧ n.toNat = responses
  portrait : bytes.PortraitAt count (start + 10)
  texts : ∀ j < messages, bytes.RefersAt count .strings (start + 12 + 2 * j)
  labels : ∀ j < responses, bytes.RefersAt count .strings (start + 12 + 2 * messages + 4 * j)

/-- How long a screen is. -/
def screenLength (messages responses : Nat) : Nat := paddedLength (12 + 2 * messages + 4 * responses)

/-- Screens follow one another up to the end. -/
inductive ScreensFrom (bytes : Bytes) (count : Counts) : Nat → Prop
  | done : ScreensFrom bytes count bytes.size
  | screen {start messages responses : Nat} (first : bytes.ScreenAt count start messages responses)
      (rest : ScreensFrom bytes count (start + screenLength messages responses)) :
      ScreensFrom bytes count start

end Bytes

/-! ## Records -/

/-- Where the tile layers of a map begin. -/
def MapHeader.length (h : MapHeader) : Nat :=
  paddedLength (listsOffset + 2 * (h.entities.length + h.geometry.length + h.scripts.length) +
    16 * h.directions.toNat)

/-- The lists of a map and the cells of its layers. -/
structure MapIntact (count : Counts) (bytes : Bytes) (header : MapHeader) : Prop where
  entities : ∀ index ∈ header.entities, index.toNat < count .entities
  geometry : ∀ index ∈ header.geometry, index.toNat < count .geometry
  scripts : ∀ index ∈ header.scripts, index.toNat < count .scripts
  cells : ∀ j, header.length + 4 * j < bytes.size → bytes.CellAt count (header.length + 4 * j)

/-- **Every index in a record is below the number of records it counts in.** -/
def Intact (count : Counts) (kind : Kind) (bytes : Bytes) : Prop :=
  match kind with
  | .maps => ∃ header, MapHeader.read? bytes = some header ∧ MapIntact count bytes header
  | .tilesets => bytes.RefersAt count .images 16 ∧
      ∀ j, 32 + 2 * j < bytes.size → bytes.ShapeAt count (32 + 2 * j)
  | .animations => bytes.RefersAt count .tilesets 0
  | .entityTypes => bytes.PortraitAt count 34 ∧ ∃ animations, bytes[35]? = some animations ∧
      ∀ j < directionCount * animations.toNat, bytes.ViewAt count (36 + 4 * j)
  | .portraits => ∃ emotes, bytes[35]? = some emotes ∧
      ∀ j < emotes.toNat, bytes.ViewAt count (36 + 4 * j)
  | .entities => ∃ code kind, bytes[24]? = some code ∧ lookKind? code = some kind ∧
      bytes.RefersAt count kind 20
  | .scripts => ∀ j, 36 + 8 * j < bytes.size → bytes.InstructionRefersAt count (36 + 8 * j)
  | .dialogs => bytes.ScreensFrom count 36
  | .serialDialogs => bytes.RefersAt count .strings 32 ∧ ∃ responses, bytes[35]? = some responses ∧
      ∀ j < responses.toNat, bytes.RefersAt count .strings (36 + 4 * j)
  | .geometry | .palettes | .strings | .saveFlags | .gameVariables | .images => True

/-! ## More records -/

section More

variable {bytes : Bytes} {count more : Counts} {kind : Kind} {offset : Nat}
  (hmore : ∀ kind, count kind ≤ more kind)
include hmore

namespace Bytes

theorem RefersAt.mono (h : bytes.RefersAt count kind offset) : bytes.RefersAt more kind offset := by
  obtain ⟨index, hindex, hlt⟩ := h
  exact ⟨index, hindex, Nat.lt_of_lt_of_le hlt (hmore kind)⟩

theorem PortraitAt.mono (h : bytes.PortraitAt count offset) : bytes.PortraitAt more offset := by
  obtain ⟨portrait, hportrait, hlt⟩ := h
  exact ⟨portrait, hportrait, fun hne => Nat.lt_of_lt_of_le (hlt hne) (hmore _)⟩

theorem ViewAt.mono (h : bytes.ViewAt count offset) : bytes.ViewAt more offset := by
  obtain ⟨id, source, hid, hsource, hlt⟩ := h
  refine ⟨id, source, hid, hsource, ?_⟩
  split at hlt
  · next hanimation =>
    rw [if_pos hanimation]
    exact Nat.lt_of_lt_of_le hlt (hmore _)
  · next htile =>
    rw [if_neg htile]
    exact Nat.lt_of_lt_of_le hlt (hmore _)

theorem ShapeAt.mono (h : bytes.ShapeAt count offset) : bytes.ShapeAt more offset := by
  obtain ⟨shape, hshape, hlt⟩ := h
  exact ⟨shape, hshape, fun hne => Nat.lt_of_lt_of_le (hlt hne) (hmore _)⟩

theorem CellAt.mono (h : bytes.CellAt count offset) : bytes.CellAt more offset := by
  obtain ⟨tile, tileset, htile, htileset, hlt⟩ := h
  exact ⟨tile, tileset, htile, htileset, fun hne => Nat.lt_of_lt_of_le (hlt hne) (hmore _)⟩

theorem InstructionRefersAt.mono (h : bytes.InstructionRefersAt count offset) :
    bytes.InstructionRefersAt more offset := by
  obtain ⟨number, opcode, hnumber, hopcode, hslots⟩ := h
  refine ⟨number, opcode, hnumber, hopcode, fun k operand kind hk hkind => ?_⟩
  obtain ⟨value, hvalue, hlt⟩ := hslots k operand kind hk hkind
  exact ⟨value, hvalue, Nat.lt_of_lt_of_le hlt (hmore _)⟩

theorem ScreenAt.mono {messages responses : Nat}
    (h : bytes.ScreenAt count offset messages responses) :
    bytes.ScreenAt more offset messages responses where
  title := h.title.mono hmore
  border := h.border.mono hmore
  messageCount := h.messageCount
  responseCount := h.responseCount
  portrait := h.portrait.mono hmore
  texts j hj := (h.texts j hj).mono hmore
  labels j hj := (h.labels j hj).mono hmore

theorem ScreensFrom.mono (h : bytes.ScreensFrom count offset) : bytes.ScreensFrom more offset := by
  induction h with
  | done => exact .done
  | screen first _ ih => exact .screen (first.mono hmore) ih

end Bytes

/-- **More records make no index wrong.** -/
theorem Intact.mono (h : Intact count kind bytes) : Intact more kind bytes := by
  cases kind with
  | maps =>
    obtain ⟨header, hread, hmap⟩ := h
    exact ⟨header, hread, {
      entities := fun index hindex => Nat.lt_of_lt_of_le (hmap.entities index hindex) (hmore _)
      geometry := fun index hindex => Nat.lt_of_lt_of_le (hmap.geometry index hindex) (hmore _)
      scripts := fun index hindex => Nat.lt_of_lt_of_le (hmap.scripts index hindex) (hmore _)
      cells := fun j hj => (hmap.cells j hj).mono hmore }⟩
  | tilesets => exact ⟨h.1.mono hmore, fun j hj => (h.2 j hj).mono hmore⟩
  | animations => exact Bytes.RefersAt.mono hmore h
  | entityTypes =>
    obtain ⟨hportrait, animations, hcount, hviews⟩ := h
    exact ⟨hportrait.mono hmore, animations, hcount, fun j hj => (hviews j hj).mono hmore⟩
  | portraits =>
    obtain ⟨emotes, hcount, hviews⟩ := h
    exact ⟨emotes, hcount, fun j hj => (hviews j hj).mono hmore⟩
  | entities =>
    obtain ⟨code, kind, hcode, hkind, hprimary⟩ := h
    exact ⟨code, kind, hcode, hkind, hprimary.mono hmore⟩
  | scripts => exact fun j hj => (h j hj).mono hmore
  | dialogs => exact Bytes.ScreensFrom.mono hmore h
  | serialDialogs =>
    obtain ⟨hmessage, responses, hcount, hlabels⟩ := h
    exact ⟨hmessage.mono hmore, responses, hcount, fun j hj => (hlabels j hj).mono hmore⟩
  | geometry | palettes | strings | saveFlags | gameVariables | images => trivial

end More

/-! ## Records within records -/

section Within

variable {record part : Bytes} {count : Counts} {start offset : Nat}
  (hpart : record.HasAt start part.toList)
include hpart

namespace Bytes

theorem getElem?_within {byte : UInt8} (h : part[offset]? = some byte) :
    record[start + offset]? = some byte := by
  obtain ⟨hlt, -⟩ := Array.getElem?_eq_some_iff.1 h
  rw [hpart offset (by rwa [Array.length_toList]), Array.getElem?_toList, h]

theorem RefersAt.within {kind : Kind} (h : part.RefersAt count kind offset) :
    record.RefersAt count kind (start + offset) := by
  obtain ⟨index, hindex, hlt⟩ := h
  exact ⟨index, word?_within hindex hpart, hlt⟩

theorem CellAt.within (h : part.CellAt count offset) : record.CellAt count (start + offset) := by
  obtain ⟨tile, tileset, htile, htileset, hlt⟩ := h
  exact ⟨tile, tileset, word?_within htile hpart, getElem?_within hpart htileset, hlt⟩

theorem ScreenAt.within {messages responses : Nat}
    (h : part.ScreenAt count 0 messages responses) :
    record.ScreenAt count start messages responses := by
  have hbyte : ∀ {i byte}, part[0 + i]? = some byte → record[start + i]? = some byte := by
    intro i byte hbyte
    rw [Nat.zero_add] at hbyte
    exact getElem?_within hpart hbyte
  have hword : ∀ {kind i}, part.RefersAt count kind (0 + i) →
      record.RefersAt count kind (start + i) := by
    intro kind i hword
    rw [Nat.zero_add] at hword
    exact hword.within hpart
  exact {
    title := h.title.within hpart
    border := hword h.border
    messageCount := by
      obtain ⟨n, hn, hmessages⟩ := h.messageCount
      exact ⟨n, hbyte hn, hmessages⟩
    responseCount := by
      obtain ⟨n, hn, hresponses⟩ := h.responseCount
      exact ⟨n, hbyte hn, hresponses⟩
    portrait := by
      obtain ⟨portrait, hportrait, hlt⟩ := h.portrait
      exact ⟨portrait, hbyte hportrait, hlt⟩
    texts := fun j hj => by
      have htext := h.texts j hj
      rw [Nat.add_assoc] at htext ⊢
      exact hword htext
    labels := fun j hj => by
      have hlabel := h.labels j hj
      rw [Nat.add_assoc, Nat.add_assoc] at hlabel ⊢
      exact hword hlabel }

end Bytes

end Within

/-- Screens that were put behind a header follow one another from its end on. -/
theorem Bytes.screensFrom_concat {count : Counts} {bodies : List Bytes} (header : Bytes)
    (hbodies : ∀ body ∈ bodies, ∃ messages responses,
      body.ScreenAt count 0 messages responses ∧ body.size = screenLength messages responses) :
    Bytes.ScreensFrom (bodies.foldl (· ++ ·) header) count header.size := by
  induction bodies generalizing header with
  | nil => exact .done
  | cons body rest ih =>
    obtain ⟨messages, responses, hscreen, hsize⟩ := hbodies body List.mem_cons_self
    have hat : Bytes.HasAt ((body :: rest).foldl (· ++ ·) header) header.size body.toList :=
      Bytes.hasAt_concat (j := 0) header rfl
    refine .screen (hscreen.within hat) ?_
    rw [← hsize, ← Array.size_append]
    exact ih (header ++ body) fun other hother => hbodies other (List.mem_cons_of_mem _ hother)

end GameBundle
