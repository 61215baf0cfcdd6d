set_option autoImplicit false

/-! # Named codes

Some arguments are chosen from a list of words, each of which stands for a number. Several words may
stand for the same number. -/

namespace GameBundle

/-- The accepted words with their codes, in the order in which messages list them. -/
abbrev Keys : Type := List (String × UInt8)

namespace Keys

/-- The code of a word. -/
def code? (keys : Keys) (word : String) : Option UInt8 := keys.lookup word

/-- All words, as they are listed in messages. -/
def listing (keys : Keys) : String := ", ".intercalate (keys.map Prod.fst)

/-- The buttons of the badge. The face buttons are other names of the right joystick. -/
def button : Keys :=
  [("MEM0", 0), ("MEM1", 1), ("MEM2", 2), ("MEM3", 3), ("BIT128", 4), ("BIT64", 5), ("BIT32", 6),
    ("BIT16", 7), ("BIT8", 8), ("BIT4", 9), ("BIT2", 10), ("BIT1", 11), ("XOR", 12), ("ADD", 13),
    ("SUB", 14), ("PAGE", 15), ("LJOY_CENTER", 16), ("LJOY_UP", 17), ("LJOY_DOWN", 18),
    ("LJOY_LEFT", 19), ("LJOY_RIGHT", 20), ("RJOY_CENTER", 21), ("RJOY_UP", 22), ("TRIANGLE", 22),
    ("RJOY_DOWN", 23), ("X", 23), ("CROSS", 23), ("RJOY_LEFT", 24), ("CIRCLE", 24), ("O", 24),
    ("RJOY_RIGHT", 25), ("SQUARE", 25), ("HAX", 26), ("ANY", 27)]

/-- The directions an entity can face. -/
def direction : Keys :=
  [("north", 0), ("0", 0), ("east", 1), ("1", 1), ("south", 2), ("2", 2), ("west", 3), ("3", 3)]

/-- The fields of an entity that scripts can reach, by their offset in its record. -/
def field : Keys :=
  [("x", 12), ("y", 14), ("interact_script_id", 16), ("tick_script_id", 18), ("primary_id", 20),
    ("secondary_id", 22), ("primary_id_type", 24), ("current_animation", 25), ("current_frame", 26),
    ("direction", 27), ("hackable_state_a", 28), ("hackable_state_b", 29),
    ("hackable_state_c", 30), ("hackable_state_d", 31)]

/-- What can be done to a variable. -/
def operation : Keys :=
  [("SET", 0), ("ADD", 1), ("SUB", 2), ("DIV", 3), ("MUL", 4), ("MOD", 5), ("RNG", 6)]

/-- How variables can be compared. -/
def comparison : Keys :=
  [("LT", 0), ("<", 0), ("LTEQ", 1), ("<=", 1), ("EQ", 2), ("==", 2), ("GTEQ", 3), (">=", 3),
    ("GT", 4), (">", 4)]

/-- Where a dialog is shown. -/
def alignment : Keys :=
  [("BOTTOM_LEFT", 0), ("BOTTOM_RIGHT", 1), ("TOP_LEFT", 2), ("TOP_RIGHT", 3)]

/-- How the player answers a dialog. -/
def responseType : Keys :=
  [("NO_RESPONSE", 0), ("SELECT_FROM_SHORT_LIST", 1), ("SELECT_FROM_LONG_LIST", 2),
    ("ENTER_NUMBER", 3), ("ENTER_ALPHANUMERIC", 4)]

end Keys

end GameBundle
