set_option autoImplicit false

/-! # Options of the command line

The program takes the folder of a project and the folder for its output, in this order. Options may
stand anywhere: `--header` at most once, `-v` or `--verbose` as often as one likes, and short ones
may share a dash. Everything behind `--` is a folder, whatever it looks like. -/

namespace GameBundle.CommandLine

/-- What the command line asks for. -/
structure Options where
  input : String
  output : String
  /-- Also write the header for the engine. -/
  header : Bool
  /-- How often more output was asked for; it is counted up to 255. -/
  verbosity : Nat
  deriving Repr, DecidableEq, Inhabited

/-- The least severe messages that are shown. -/
def Options.filter (o : Options) : String :=
  match o.verbosity with
  | 0 => "info"
  | 1 => "debug"
  | _ => "trace"

/-- Why a command line does not start a build. -/
inductive Refusal
  | missingArgument
  | unknownArgument
  /-- An option that can be given once was given again. -/
  | repeatedOption
  /-- A folder without a name. -/
  | emptyArgument
  /-- A value for an option that takes none. -/
  | unexpectedValue
  | helpWanted
  | versionWanted
  deriving Repr, DecidableEq, Inhabited

/-- What has been read of a command line. -/
structure Reading where
  /-- Folders that are known to have a name. -/
  folders : List String := []
  /-- A folder whose name has not been looked at yet. -/
  pending : Option String := none
  header : Bool := false
  verbosity : Nat := 0
  /-- Is this behind `--`? -/
  foldersOnly : Bool := false

namespace Reading

/-- Look at the pending folder. -/
def settle (r : Reading) : Except Refusal Reading :=
  match r.pending with
  | none => .ok r
  | some "" => .error .emptyArgument
  | some folder => .ok { r with folders := r.folders ++ [folder], pending := none }

/-- A folder. There are no more than two. -/
def folder (r : Reading) (name : String) : Except Refusal Reading :=
  if 2 ≤ r.folders.length + r.pending.toList.length then .error .unknownArgument
  else do return { ← r.settle with pending := some name }

/-- An option by its long or its short name. -/
def option (r : Reading) (name : String) : Except Refusal Reading :=
  match name with
  | "header" => do
    let r ← r.settle
    if r.header then .error .repeatedOption else return { r with header := true }
  | "verbose" => do
    let r ← r.settle
    return { r with verbosity := min 255 (r.verbosity + 1) }
  | "help" => do
    let _ ← r.settle
    .error .helpWanted
  | "version" => do
    let _ ← r.settle
    .error .versionWanted
  | _ => .error .unknownArgument

/-- The long name of an option letter. -/
def longName (letter : Char) : String :=
  match letter with
  | 'v' => "verbose"
  | 'h' => "help"
  | 'V' => "version"
  | _ => ""

/-- An option behind two dashes. None takes a value. -/
def long (r : Reading) (body : List Char) : Except Refusal Reading :=
  let name := String.ofList (body.takeWhile (· != '='))
  if '=' ∈ body then
    if name ∈ ["header", "verbose", "help", "version"] then .error .unexpectedValue
    else .error .unknownArgument
  else r.option name

/-- One argument. -/
def argument (r : Reading) (text : String) : Except Refusal Reading :=
  if r.foldersOnly then r.folder text
  else match text.toList with
    | ['-', '-'] => .ok { r with foldersOnly := true }
    | '-' :: '-' :: body => r.long body
    | '-' :: letter :: letters =>
      (letter :: letters).foldlM (fun r letter => r.option (longName letter)) r
    | _ => r.folder text

/-- The options, once all arguments have been read. -/
def finish (r : Reading) : Except Refusal Options := do
  let r ← r.settle
  match r.folders with
  | [input, output] =>
    return { input, output, header := r.header, verbosity := r.verbosity }
  | _ => .error .missingArgument

end Reading

/-- Read a command line without the name of the program. -/
def Options.parse (arguments : List String) : Except Refusal Options := do
  (← arguments.foldlM Reading.argument {}).finish

end GameBundle.CommandLine
