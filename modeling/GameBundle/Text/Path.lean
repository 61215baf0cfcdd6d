set_option autoImplicit false

/-! # Names of files

A project is addressed by file name only: whatever folders a path mentions are dropped before the
file is looked up, so files may be moved between folders freely. -/

namespace GameBundle.Text

/-! ## Searching in text -/

/-- The part behind the last character that satisfies `p`, the whole text if none does. -/
def afterLast (p : Char → Bool) (text : List Char) : List Char :=
  (text.reverse.takeWhile fun c => !p c).reverse

/-- The parts between the characters `mark`; there is always one more part than marks. -/
def splitAt (mark : Char) : List Char → List (List Char)
  | [] => [[]]
  | c :: rest =>
    if c = mark then [] :: splitAt mark rest
    else match splitAt mark rest with
      | part :: parts => (c :: part) :: parts
      | [] => [[c]]

/-- The text without the first occurrence of `pattern`. -/
def removeFirst (pattern : List Char) : List Char → List Char
  | [] => []
  | c :: rest =>
    if pattern.isPrefixOf (c :: rest) then (c :: rest).drop pattern.length
    else c :: removeFirst pattern rest

/-! ## Parts of a path -/

/-- The last segment of a path, whichever slash separates its segments. -/
def baseName (path : String) : String :=
  String.ofList (afterLast (fun c => c == '/' || c == '\\') path.toList)

/-- A file name up to its first dot. -/
def stem (file : String) : String := String.ofList (file.toList.takeWhile (· != '.'))

/-- The segments of a slash-separated path; empty ones and single dots say nothing. -/
def segments (path : String) : List String :=
  ((splitAt '/' path.toList).filter fun s => s ≠ [] ∧ s ≠ ['.']).map String.ofList

/-- Is a single dot the last thing that a path says? -/
def endsInDot (path : String) : Bool :=
  ((splitAt '/' path.toList).filter (· ≠ [])).getLast? == some ['.']

/-- The path of the folder around the last segment. -/
def parent (path : String) : String :=
  (if path.startsWith "/" then "/" else "") ++ "/".intercalate (segments path).dropLast

/-- A path takes less than this many bytes. -/
def pathLimit : Nat := 4096

/-- The name of a file or a folder takes at most this many bytes. -/
def nameLimit : Nat := 255

/-- What follows the last dot of the last segment, in small letters. A dot at the front begins a
    name and no extension. -/
def extension? (path : String) : Option String := do
  let name ← (segments path).getLast?
  if name = ".." then none
  else
    let chars := name.toList
    let extension := afterLast (· == '.') chars
    if extension.length + 1 < chars.length then
      some (String.ofList (extension.map Char.toLower))
    else none

end GameBundle.Text
