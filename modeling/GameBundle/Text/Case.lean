import GameBundle.Text.CaseTable

set_option autoImplicit false

/-! # Small letters

Typed answers are compared without regard to case, so their labels are stored in small letters.
Every capital becomes its small letter. Two have no single one: dotted capital I becomes `i` with a
dot above, and capital sigma takes its final form at the end of a word, which is where a letter with
case comes before it and none after it, passing over marks. -/

namespace GameBundle.Text

open CaseTable

/-- Does a range hold the character? -/
def inSpan (c : Char) (s : Span) : Bool := s.first ≤ c.toNat && c.toNat ≤ s.last

/-- Is `c` a letter with case? -/
def isCased (c : Char) : Bool := casedLetters.any (inSpan c)

/-- Is `c` passed over when the neighbours of a letter are looked for? -/
def isPassedOver (c : Char) : Bool := passedOver.any (inSpan c)

/-- Does `run` list the character as a capital? -/
def inRun (c : Char) (run : Run) : Bool :=
  run.first ≤ c.toNat && c.toNat ≤ run.last && (c.toNat - run.first) % run.step == 0

/-- The small letter of a capital, any other character as it is. -/
def smallLetter (c : Char) : Char :=
  if c.toNat < 0x80 then c.toLower
  else match smallLetters.find? (inRun c) with
    | some run => Char.ofNat (c.toNat + run.distance).toNat
    | none => c

/-- Is the nearest character that is not passed over a letter with case? -/
def nextIsCased (text : List Char) : Bool :=
  match text.dropWhile isPassedOver with
  | c :: _ => isCased c
  | [] => false

/-- Small letters for a text whose part before it, read backwards, is `before`. -/
def lowercaseAfter (before : List Char) : List Char → List Char
  | [] => []
  | c :: rest =>
    let small :=
      if c = 'Σ' then [if nextIsCased before && !nextIsCased rest then 'ς' else 'σ']
      else if c = 'İ' then ['i', Char.ofNat 0x307]
      else [smallLetter c]
    small ++ lowercaseAfter (c :: before) rest

/-- The text in small letters. -/
def lowercase (text : String) : String := String.ofList (lowercaseAfter [] text.toList)

end GameBundle.Text
