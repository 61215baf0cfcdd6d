import GameBundle.Bundle.Assemble
import GameBundle.Script.Opcode

set_option autoImplicit false

/-! # A C header for the engine

The numbers that a bundle and the engine have to agree on, as a header file: the version and the
magic bytes of the format, the instructions of scripts, and the kinds of records. -/

namespace GameBundle.Bundle.Header

/-- The name of the header file. -/
def fileName : String := "mage_encoder.h"

/-- One line for each name, with its number. -/
def enumerators (names : List String) : List String :=
  names.zipIdx.map fun (name, i) => s!"    {name} = {i},"

/-- The lines of the header. -/
def lines : List String :=
  let instructions := Opcode.all.map Opcode.name
  ["#pragma once", "#include <cstdint>", "// Auto-generated – DO NOT EDIT", "",
    s!"#define ENGINE_VERSION {version}", s!"#define ENGINE_MAGIC \"{magic}\"", "",
    "enum class MageActionType : uint8_t \x7b"] ++
  enumerators instructions ++
  [s!"    NUM_ACTIONS = {instructions.length}", "\x7d;", "",
    "enum class MageContentKind : uint8_t \x7b"] ++
  enumerators (Kind.all.map Kind.label) ++
  ["\x7d;"]

/-- The text of the header. -/
def text : String := String.join (lines.map (· ++ "\n"))

end GameBundle.Bundle.Header
