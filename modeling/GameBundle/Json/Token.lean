import GameBundle.Numeric.Decimal

set_option autoImplicit false

/-! # Tokens of JSON text

The scanner reads one character at a time. What it has read of an unfinished token is its `Mode`:
a word, a number, or a string with its escapes. Strings are kept even if an escape names half of a
surrogate pair, because such a string is a mistake only where somebody reads it; it then has no
text. -/

namespace GameBundle.Json

/-- A number as it is spelled, in digits. -/
structure Numeral where
  negative : Bool
  whole : List Nat
  /-- The digits behind the point, if there is a point. -/
  fraction : Option (List Nat)
  /-- The sign and digits behind the exponent mark, if there is one. -/
  exponent : Option (Bool × List Nat)
  deriving Repr, DecidableEq

/-- The smallest units of JSON text. -/
inductive Token
  | openObject
  | closeObject
  | openArray
  | closeArray
  | comma
  | colon
  | null
  | bool (value : Bool)
  | number (value : Numeral)
  /-- A string, without text if it has an unpaired surrogate. -/
  | string (text : Option String)
  deriving Repr, DecidableEq

/-! ## Numbers -/

/-- The exponent at the end of a number. -/
def exponentPart? : List Char → Option (Option (Bool × List Nat))
  | [] => some none
  | mark :: rest =>
    if mark = 'e' ∨ mark = 'E' then
      let (negative, digits) :=
        match rest with
        | '-' :: after => (true, after)
        | '+' :: after => (false, after)
        | after => (false, after)
      match Decimal.takeDigits digits with
      | (d :: ds, []) => some (some (negative, d :: ds))
      | _ => none
    else none

/-- A number: no sign but minus, no zero in front of other digits, a digit on both sides of the
    point and behind the exponent mark. -/
def numeral? (text : List Char) : Option Numeral := do
  let (negative, unsigned) :=
    match text with
    | '-' :: rest => (true, rest)
    | rest => (false, rest)
  let (whole, rest) := Decimal.takeDigits unsigned
  let wellFormed : Bool :=
    match whole with
    | [] => false
    | [_] => true
    | d :: _ => d != 0
  if !wellFormed then none
  else
    match rest with
    | '.' :: after =>
      let (fraction, rest) := Decimal.takeDigits after
      if fraction.isEmpty then none
      else return ⟨negative, whole, some fraction, ← exponentPart? rest⟩
    | rest => return ⟨negative, whole, none, ← exponentPart? rest⟩

/-! ## Strings -/

/-- The part of a string that has been read. -/
structure Quoted where
  /-- The characters, last one first. -/
  chars : List Char := []
  /-- A leading surrogate that waits for its partner. -/
  pending : Option Nat := none
  /-- Has a surrogate been left alone? -/
  broken : Bool := false
  deriving Repr

/-- Add a character that was not written as a code unit. -/
def Quoted.push (q : Quoted) (c : Char) : Quoted :=
  ⟨c :: q.chars, none, q.broken || q.pending.isSome⟩

/-- Add a UTF-16 code unit. -/
def Quoted.pushUnit (q : Quoted) (unit : Nat) : Quoted :=
  if 0xd800 ≤ unit ∧ unit < 0xdc00 then ⟨q.chars, some unit, q.broken || q.pending.isSome⟩
  else if 0xdc00 ≤ unit ∧ unit < 0xe000 then
    match q.pending with
    | some lead =>
      ⟨Char.ofNat (0x10000 + (lead - 0xd800) * 0x400 + (unit - 0xdc00)) :: q.chars, none, q.broken⟩
    | none => { q with broken := true }
  else q.push (Char.ofNat unit)

/-- The text of a finished string. -/
def Quoted.text? (q : Quoted) : Option String :=
  if q.broken || q.pending.isSome then none else some (String.ofList q.chars.reverse)

/-- The value of a hexadecimal digit. -/
def hexDigit? (c : Char) : Option Nat :=
  if '0' ≤ c ∧ c ≤ '9' then some (c.toNat - '0'.toNat)
  else if 'a' ≤ c ∧ c ≤ 'f' then some (c.toNat - 'a'.toNat + 10)
  else if 'A' ≤ c ∧ c ≤ 'F' then some (c.toNat - 'A'.toNat + 10)
  else none

/-- The character that a backslash and `c` stand for. -/
def shortEscape? (c : Char) : Option Char :=
  match c with
  | '"' => some '"'
  | '\\' => some '\\'
  | '/' => some '/'
  | 'b' => some (Char.ofNat 8)
  | 'f' => some (Char.ofNat 12)
  | 'n' => some '\n'
  | 'r' => some '\r'
  | 't' => some '\t'
  | _ => none

/-! ## The scanner -/

/-- The token being read. -/
inductive Mode
  | between
  /-- Letters, last one first. -/
  | word (letters : List Char)
  /-- Characters of a number, last one first. -/
  | numeral (chars : List Char)
  | quoted (text : Quoted)
  /-- Behind a backslash. -/
  | escape (text : Quoted)
  /-- Behind `\u` and `count` digits with the value `unit`. -/
  | code (text : Quoted) (count unit : Nat)

/-- The tokens read so far, last one first, and the one being read. -/
structure Scanner where
  tokens : List Token := []
  mode : Mode := .between

/-- Finish a word or a number. -/
def Scanner.settle? (s : Scanner) : Option Scanner :=
  match s.mode with
  | .between => some s
  | .word letters =>
    match String.ofList letters.reverse with
    | "null" => some ⟨.null :: s.tokens, .between⟩
    | "true" => some ⟨.bool true :: s.tokens, .between⟩
    | "false" => some ⟨.bool false :: s.tokens, .between⟩
    | _ => none
  | .numeral chars => (numeral? chars.reverse).map fun n => ⟨.number n :: s.tokens, .between⟩
  | _ => none

/-- Can `c` occur in a number? -/
def isNumeralChar (c : Char) : Bool :=
  c.isDigit || c == '-' || c == '+' || c == '.' || c == 'e' || c == 'E'

/-- Start a token with its first character. -/
def Scanner.start? (s : Scanner) (c : Char) : Option Scanner :=
  match c with
  | ' ' | '\n' | '\r' | '\t' => some s
  | '\x7b' => some { s with tokens := .openObject :: s.tokens }
  | '\x7d' => some { s with tokens := .closeObject :: s.tokens }
  | '[' => some { s with tokens := .openArray :: s.tokens }
  | ']' => some { s with tokens := .closeArray :: s.tokens }
  | ',' => some { s with tokens := .comma :: s.tokens }
  | ':' => some { s with tokens := .colon :: s.tokens }
  | '"' => some { s with mode := .quoted {} }
  | c =>
    if c.isDigit || c == '-' then some { s with mode := .numeral [c] }
    else if c.isLower then some { s with mode := .word [c] }
    else none

/-- Read one character. -/
def Scanner.step? (s : Scanner) (c : Char) : Option Scanner :=
  match s.mode with
  | .between => s.start? c
  | .word letters =>
    if c.isLower then some { s with mode := .word (c :: letters) }
    else s.settle? >>= fun s => s.start? c
  | .numeral chars =>
    if isNumeralChar c then some { s with mode := .numeral (c :: chars) }
    else s.settle? >>= fun s => s.start? c
  | .quoted text =>
    if c = '"' then some ⟨.string text.text? :: s.tokens, .between⟩
    else if c = '\\' then some { s with mode := .escape text }
    else if c.toNat < 32 then none
    else some { s with mode := .quoted (text.push c) }
  | .escape text =>
    if c = 'u' then some { s with mode := .code text 0 0 }
    else (shortEscape? c).map fun c => { s with mode := .quoted (text.push c) }
  | .code text count unit =>
    (hexDigit? c).map fun d =>
      let unit := unit * 16 + d
      if count = 3 then { s with mode := .quoted (text.pushUnit unit) }
      else { s with mode := .code text (count + 1) unit }

/-- The tokens of a text. -/
def scan? (text : String) : Option (List Token) := do
  let s ← text.toList.foldlM Scanner.step? {}
  let s ← s.settle?
  return s.tokens.reverse

end GameBundle.Json
