import GameBundle.Content.Kind
import GameBundle.Record.Bytes
import GameBundle.Script.Keys

set_option autoImplicit false

/-! # The instructions of the engine

An instruction is eight bytes: its number and then its operands, each in a slot of fixed width. The
number of an instruction is its place in `Opcode.all`, so new instructions are only ever added at
the end. -/

namespace GameBundle

/-! ## Operands -/

/-- What the argument of an operand has to be. -/
inductive OperandKind
  /-- The name of an entity of the map. -/
  | entity
  /-- The name of an outline of the map. -/
  | geometry
  /-- The name of a map. -/
  | map
  /-- The name of an entity type. -/
  | entityType
  /-- The name of a script. -/
  | script
  /-- A text that is stored in a pool. -/
  | text (pool : Pool)
  /-- The name of a dialog. -/
  | dialog
  /-- The name of a serial dialog. -/
  | serialDialog
  /-- One of a list of words. -/
  | key (keys : Keys)
  /-- A number of quarter turns to either side. -/
  | turn
  /-- A colour with alpha last. -/
  | color
  /-- A number as large as the slot allows. -/
  | number
  | byte
  | twoBytes
  | bool
  /-- The engine has no use for the operand yet. -/
  | unsupported
  deriving Repr, DecidableEq, Inhabited

/-- A slot of an instruction: the argument it is filled from, the width in bytes and their order. -/
structure Operand where
  property : String
  kind : OperandKind
  width : Nat
  order : ByteOrder
  deriving Repr, DecidableEq, Inhabited

namespace Operand

def successScript : Operand := ⟨"success_script", .script, 2, .data⟩
def expectedScript : Operand := ⟨"expected_script", .script, 2, .data⟩
def script : Operand := ⟨"script", .script, 2, .data⟩
def string : Operand := ⟨"string", (.text .strings), 2, .data⟩
def entity : Operand := ⟨"entity", .entity, 1, .data⟩
def targetEntity : Operand := ⟨"target_entity", .entity, 1, .data⟩
def entityType : Operand := ⟨"entity_type", .entityType, 2, .data⟩
def geometry : Operand := ⟨"geometry", .geometry, 2, .data⟩
def targetGeometry : Operand := ⟨"target_geometry", .geometry, 2, .data⟩
def map : Operand := ⟨"map", .map, 2, .data⟩
def dialog : Operand := ⟨"dialog", .dialog, 2, .data⟩
def serialDialog : Operand := ⟨"serial_dialog", .serialDialog, 2, .data⟩
def saveFlag : Operand := ⟨"save_flag", (.text .saveFlags), 2, .data⟩
def variableName : Operand := ⟨"variable", (.text .gameVariables), 1, .data⟩
def source : Operand := ⟨"source", (.text .gameVariables), 1, .data⟩
def expectedBool : Operand := ⟨"expected_bool", .bool, 1, .data⟩
def boolValue : Operand := ⟨"bool_value", .bool, 1, .data⟩
def inbound : Operand := ⟨"inbound", .bool, 1, .data⟩
def expectedByte : Operand := ⟨"expected_byte", .byte, 1, .data⟩
def byteValue : Operand := ⟨"byte_value", .byte, 1, .data⟩
def animation : Operand := ⟨"animation", .byte, 1, .data⟩
def playCount : Operand := ⟨"play_count", .byte, 1, .data⟩
def amplitude : Operand := ⟨"amplitude", .byte, 1, .data⟩
def slot : Operand := ⟨"slot", .byte, 1, .data⟩
def expectedU2 : Operand := ⟨"expected_u2", .twoBytes, 2, .data⟩
def u2Value : Operand := ⟨"u2_value", .twoBytes, 2, .data⟩
def address : Operand := ⟨"address", .twoBytes, 2, .data⟩
def frequency : Operand := ⟨"frequency", .twoBytes, 2, .data⟩
def value : Operand := ⟨"value", .twoBytes, 2, .data⟩
def expectedU4 : Operand := ⟨"expected_u4", .number, 4, .data⟩
def u4Value : Operand := ⟨"u4_value", .number, 4, .data⟩
def duration : Operand := ⟨"duration", .number, 4, .data⟩
def shakeDuration : Operand := ⟨"duration", .number, 2, .data⟩
def buttonId : Operand := ⟨"button_id", (.key .button), 1, .data⟩
def direction : Operand := ⟨"direction", (.key .direction), 1, .data⟩
def relativeDirection : Operand := ⟨"relative_direction", .turn, 1, .data⟩
def field : Operand := ⟨"field", (.key .field), 1, .data⟩
def operation : Operand := ⟨"operation", (.key .operation), 1, .data⟩
def comparison : Operand := ⟨"comparison", (.key .comparison), 1, .data⟩
def itemName : Operand := ⟨"item_name", .unsupported, 1, .data⟩
def bleFlag : Operand := ⟨"ble_flag", .unsupported, 1, .data⟩
def color : Operand := ⟨"color", .color, 2, .screen⟩

end Operand

/-! ## Instructions -/

/-- An instruction: its name and its slots. -/
structure Opcode where
  name : String
  operands : List Operand
  deriving Repr, DecidableEq, Inhabited

/-- The length of every instruction. -/
def instructionLength : Nat := 8

/-- The name of the instruction that stands for the contents of another script. It never reaches
    the engine and has no number. -/
def copyScript : String := "COPY_SCRIPT"

namespace Opcode

open Operand

/-- All instructions, in the order of their numbers. -/
def all : List Opcode :=
  [⟨"NULL_ACTION", []⟩,
    ⟨"CHECK_ENTITY_NAME", [successScript, string, entity, expectedBool]⟩,
    ⟨"CHECK_ENTITY_X", [successScript, expectedU2, entity, expectedBool]⟩,
    ⟨"CHECK_ENTITY_Y", [successScript, expectedU2, entity, expectedBool]⟩,
    ⟨"CHECK_ENTITY_INTERACT_SCRIPT", [successScript, expectedScript, entity, expectedBool]⟩,
    ⟨"CHECK_ENTITY_TICK_SCRIPT", [successScript, expectedScript, entity, expectedBool]⟩,
    ⟨"CHECK_ENTITY_TYPE", [successScript, entityType, entity, expectedBool]⟩,
    ⟨"CHECK_ENTITY_PRIMARY_ID", [successScript, expectedU2, entity, expectedBool]⟩,
    ⟨"CHECK_ENTITY_SECONDARY_ID", [successScript, expectedU2, entity, expectedBool]⟩,
    ⟨"CHECK_ENTITY_PRIMARY_ID_TYPE", [successScript, entity, expectedByte, expectedBool]⟩,
    ⟨"CHECK_ENTITY_CURRENT_ANIMATION", [successScript, entity, expectedByte, expectedBool]⟩,
    ⟨"CHECK_ENTITY_CURRENT_FRAME", [successScript, entity, expectedByte, expectedBool]⟩,
    ⟨"CHECK_ENTITY_DIRECTION", [successScript, entity, direction, expectedBool]⟩,
    ⟨"CHECK_ENTITY_GLITCHED", [successScript, entity, expectedBool]⟩,
    ⟨"CHECK_ENTITY_HACKABLE_STATE_A", [successScript, entity, expectedByte, expectedBool]⟩,
    ⟨"CHECK_ENTITY_HACKABLE_STATE_B", [successScript, entity, expectedByte, expectedBool]⟩,
    ⟨"CHECK_ENTITY_HACKABLE_STATE_C", [successScript, entity, expectedByte, expectedBool]⟩,
    ⟨"CHECK_ENTITY_HACKABLE_STATE_D", [successScript, entity, expectedByte, expectedBool]⟩,
    ⟨"CHECK_ENTITY_HACKABLE_STATE_A_U2", [successScript, expectedU2, entity, expectedBool]⟩,
    ⟨"CHECK_ENTITY_HACKABLE_STATE_C_U2", [successScript, expectedU2, entity, expectedBool]⟩,
    ⟨"CHECK_ENTITY_HACKABLE_STATE_A_U4", [expectedU4, successScript, entity]⟩,
    ⟨"CHECK_ENTITY_PATH", [successScript, geometry, entity, expectedBool]⟩,
    ⟨"CHECK_SAVE_FLAG", [successScript, saveFlag, expectedBool]⟩,
    ⟨"CHECK_IF_ENTITY_IS_IN_GEOMETRY", [successScript, geometry, entity, expectedBool]⟩,
    ⟨"CHECK_FOR_BUTTON_PRESS", [successScript, buttonId]⟩,
    ⟨"CHECK_FOR_BUTTON_STATE", [successScript, buttonId, expectedBool]⟩,
    ⟨"CHECK_WARP_STATE", [successScript, string, expectedBool]⟩,
    ⟨"RUN_SCRIPT", [script]⟩,
    ⟨"BLOCKING_DELAY", [duration]⟩,
    ⟨"NON_BLOCKING_DELAY", [duration]⟩,
    ⟨"SET_ENTITY_NAME", [string, entity]⟩,
    ⟨"SET_ENTITY_X", [u2Value, entity]⟩,
    ⟨"SET_ENTITY_Y", [u2Value, entity]⟩,
    ⟨"SET_ENTITY_INTERACT_SCRIPT", [script, entity]⟩,
    ⟨"SET_ENTITY_TICK_SCRIPT", [script, entity]⟩,
    ⟨"SET_ENTITY_TYPE", [entityType, entity]⟩,
    ⟨"SET_ENTITY_PRIMARY_ID", [u2Value, entity]⟩,
    ⟨"SET_ENTITY_SECONDARY_ID", [u2Value, entity]⟩,
    ⟨"SET_ENTITY_PRIMARY_ID_TYPE", [byteValue, entity]⟩,
    ⟨"SET_ENTITY_CURRENT_ANIMATION", [byteValue, entity]⟩,
    ⟨"SET_ENTITY_CURRENT_FRAME", [byteValue, entity]⟩,
    ⟨"SET_ENTITY_DIRECTION", [direction, entity]⟩,
    ⟨"SET_ENTITY_DIRECTION_RELATIVE", [relativeDirection, entity]⟩,
    ⟨"SET_ENTITY_DIRECTION_TARGET_ENTITY", [targetEntity, entity]⟩,
    ⟨"SET_ENTITY_DIRECTION_TARGET_GEOMETRY", [targetGeometry, entity]⟩,
    ⟨"SET_ENTITY_GLITCHED", [entity, boolValue]⟩,
    ⟨"SET_ENTITY_HACKABLE_STATE_A", [byteValue, entity]⟩,
    ⟨"SET_ENTITY_HACKABLE_STATE_B", [byteValue, entity]⟩,
    ⟨"SET_ENTITY_HACKABLE_STATE_C", [byteValue, entity]⟩,
    ⟨"SET_ENTITY_HACKABLE_STATE_D", [byteValue, entity]⟩,
    ⟨"SET_ENTITY_HACKABLE_STATE_A_U2", [u2Value, entity]⟩,
    ⟨"SET_ENTITY_HACKABLE_STATE_C_U2", [u2Value, entity]⟩,
    ⟨"SET_ENTITY_HACKABLE_STATE_A_U4", [u4Value, entity]⟩,
    ⟨"SET_ENTITY_PATH", [geometry, entity]⟩,
    ⟨"SET_SAVE_FLAG", [saveFlag, boolValue]⟩,
    ⟨"SET_PLAYER_CONTROL", [boolValue]⟩,
    ⟨"SET_MAP_TICK_SCRIPT", [script]⟩,
    ⟨"SET_HEX_CURSOR_LOCATION", [address]⟩,
    ⟨"SET_WARP_STATE", [string]⟩,
    ⟨"SET_HEX_EDITOR_STATE", [boolValue]⟩,
    ⟨"SET_HEX_EDITOR_DIALOG_MODE", [boolValue]⟩,
    ⟨"SET_HEX_EDITOR_CONTROL", [boolValue]⟩,
    ⟨"SET_HEX_EDITOR_CONTROL_CLIPBOARD", [boolValue]⟩,
    ⟨"LOAD_MAP", [map]⟩,
    ⟨"SHOW_DIALOG", [dialog]⟩,
    ⟨"PLAY_ENTITY_ANIMATION", [entity, animation, playCount]⟩,
    ⟨"TELEPORT_ENTITY_TO_GEOMETRY", [geometry, entity]⟩,
    ⟨"WALK_ENTITY_TO_GEOMETRY", [duration, geometry, entity]⟩,
    ⟨"WALK_ENTITY_ALONG_GEOMETRY", [duration, geometry, entity]⟩,
    ⟨"LOOP_ENTITY_ALONG_GEOMETRY", [duration, geometry, entity]⟩,
    ⟨"SET_CAMERA_TO_FOLLOW_ENTITY", [entity]⟩,
    ⟨"TELEPORT_CAMERA_TO_GEOMETRY", [geometry]⟩,
    ⟨"PAN_CAMERA_TO_ENTITY", [duration, entity]⟩,
    ⟨"PAN_CAMERA_TO_GEOMETRY", [duration, geometry]⟩,
    ⟨"PAN_CAMERA_ALONG_GEOMETRY", [duration, geometry, entity]⟩,
    ⟨"LOOP_CAMERA_ALONG_GEOMETRY", [duration, geometry, entity]⟩,
    ⟨"SET_SCREEN_SHAKE", [shakeDuration, frequency, amplitude]⟩,
    ⟨"SCREEN_FADE_OUT", [duration, color]⟩,
    ⟨"SCREEN_FADE_IN", [duration, color]⟩,
    ⟨"MUTATE_VARIABLE", [value, variableName, operation]⟩,
    ⟨"MUTATE_VARIABLES", [variableName, source, operation]⟩,
    ⟨"COPY_VARIABLE", [variableName, entity, field, inbound]⟩,
    ⟨"CHECK_VARIABLE", [successScript, value, variableName, comparison, expectedBool]⟩,
    ⟨"CHECK_VARIABLES", [successScript, variableName, source, comparison, expectedBool]⟩,
    ⟨"SLOT_SAVE", []⟩,
    ⟨"SLOT_LOAD", [slot]⟩,
    ⟨"SLOT_ERASE", [slot]⟩,
    ⟨"SET_CONNECT_SERIAL_DIALOG", [serialDialog]⟩,
    ⟨"SHOW_SERIAL_DIALOG", [serialDialog]⟩,
    ⟨"INVENTORY_GET", [itemName]⟩,
    ⟨"INVENTORY_DROP", [itemName]⟩,
    ⟨"CHECK_INVENTORY", [successScript, itemName, expectedBool]⟩,
    ⟨"SET_MAP_LOOK_SCRIPT", [script]⟩,
    ⟨"SET_ENTITY_LOOK_SCRIPT", [script, entity]⟩,
    ⟨"SET_TELEPORT_ENABLED", [boolValue]⟩,
    ⟨"CHECK_MAP", [successScript, map, expectedBool]⟩,
    ⟨"SET_BLE_FLAG", [bleFlag, boolValue]⟩,
    ⟨"CHECK_BLE_FLAG", [successScript, bleFlag, expectedBool]⟩]

/-- The number of an instruction and its slots. -/
def find? (name : String) : Option (UInt8 × Opcode) := do
  let index ← all.findIdx? (·.name == name)
  return (UInt8.ofNat index, ← all[index]?)

/-- No two instructions share a name. -/
theorem nodup_names : (all.map Opcode.name).Nodup := by decide +kernel

theorem length_all_le : all.length ≤ UInt8.size := by decide

/-- The number of an instruction is its place among all of them. -/
theorem find?_eq_some {name : String} {number : UInt8} {opcode : Opcode} :
    find? name = some (number, opcode) ↔
      all[number.toNat]? = some opcode ∧ opcode.name = name := by
  simp only [find?, Option.bind_eq_bind, Option.bind_eq_some_iff, Option.pure_def,
    Option.some.injEq, Prod.mk.injEq, List.findIdx?_eq_some_iff_getElem, beq_iff_eq]
  constructor
  · rintro ⟨index, ⟨hlt, hname, -⟩, found, hfound, rfl, rfl⟩
    rw [UInt8.toNat_ofNat_of_lt' (Nat.lt_of_lt_of_le hlt length_all_le)]
    obtain ⟨_, rfl⟩ := List.getElem?_eq_some_iff.1 hfound
    exact ⟨hfound, hname⟩
  · rintro ⟨hfound, hname⟩
    obtain ⟨hlt, heq⟩ := List.getElem?_eq_some_iff.1 hfound
    refine ⟨number.toNat, ⟨hlt, by rw [heq, hname], fun j hj hsame => ?_⟩, opcode, hfound,
      UInt8.ofNat_toNat, rfl⟩
    -- an earlier one of that name would be the same one
    have hlt' : number.toNat < (all.map Opcode.name).length := by rwa [List.length_map]
    have hj' : j < (all.map Opcode.name).length := Nat.lt_trans hj hlt'
    have hnames : (all.map Opcode.name)[j] = (all.map Opcode.name)[number.toNat] := by
      rw [List.getElem_map, List.getElem_map, hsame, heq, hname]
    exact absurd ((List.getElem_inj nodup_names).1 hnames) (Nat.ne_of_lt hj)

theorem mem_all_of_find? {name : String} {number : UInt8} {opcode : Opcode}
    (h : find? name = some (number, opcode)) : opcode ∈ all :=
  List.mem_of_getElem? (find?_eq_some.1 h).1

theorem exists_find? {opcode : Opcode} (h : opcode ∈ all) :
    ∃ number, find? opcode.name = some (number, opcode) := by
  obtain ⟨index, hindex⟩ := List.getElem?_of_mem h
  have hlt := Nat.lt_of_lt_of_le (List.getElem?_eq_some_iff.1 hindex).1 length_all_le
  refine ⟨UInt8.ofNat index, find?_eq_some.2 ⟨?_, rfl⟩⟩
  rwa [UInt8.toNat_ofNat_of_lt' hlt]

/-- Only names of the table have a number. -/
theorem find?_eq_none {name : String} : find? name = none ↔ name ∉ all.map Opcode.name := by
  constructor
  · rintro h hmem
    obtain ⟨opcode, hopcode, rfl⟩ := List.mem_map.1 hmem
    obtain ⟨number, hfind⟩ := exists_find? hopcode
    cases h.symm.trans hfind
  · intro h
    rw [Option.eq_none_iff_forall_ne_some]
    rintro ⟨number, opcode⟩ hfind
    exact h (List.mem_map.2 ⟨opcode, mem_all_of_find? hfind, (find?_eq_some.1 hfind).2⟩)

end Opcode

end GameBundle
