import GameBundle.Build.Run
import GameBundle.Bundle.Header
import GameBundle.CommandLine.Options
import GameBundle.Project.Folder

set_option autoImplicit false

/-! # The command

A run has phases: the project folder is scanned, its definitions are loaded, the project is built
into tables, the tables become a bundle, and the bundle is written. The first phase that fails ends
the run and is named in its report. `execute` is a whole run on a tree of files. -/

namespace GameBundle.CommandLine

/-! ## Phases -/

/-- A part of a run. -/
inductive Phase
  | scanning (folder : String)
  | loading
  | compiling
  | assembling
  | creating (folder : String)
  | writingBundle
  | writingHeader
  deriving Repr, DecidableEq, Inhabited

/-- How a report calls a phase. -/
def Phase.title : Phase → String
  | scanning folder => s!"Scanning {folder}"
  | loading => "Loading project definitions"
  | compiling => "Compiling project"
  | assembling => "Assembling bundle"
  | creating folder => s!"Creating {folder}"
  | writingBundle => "Writing game.dat"
  | writingHeader => "Writing C header"

/-- How a run ends. -/
inductive Outcome
  | done
  /-- The arguments ask for no build. -/
  | refused (reason : Refusal)
  /-- A phase failed. Phases that write have no mistake of the project to report. -/
  | failed (phase : Phase) (cause : Option BuildError)
  /-- A size limit was broken. -/
  | overrun
  deriving Repr, DecidableEq, Inhabited

/-- The exit status of a run. -/
def Outcome.status : Outcome → Nat
  | done => 0
  | refused .helpWanted => 0
  | refused .versionWanted => 0
  | refused _ => 2
  | failed _ _ => 1
  | overrun => 101

/-- How the program is called. -/
def usage : String := "Usage: game-bundle [--header] [-v]... <INPUT> <OUTPUT>"

/-- What is printed at the end of a run. -/
def Outcome.report : Outcome → String
  | done => ""
  | refused .versionWanted => s!"game-bundle, format {Bundle.version}"
  | refused _ => usage
  | failed phase none => s!"Error: {phase.title}"
  | failed phase (some cause) => s!"Error: {phase.title}: {cause.message}"
  | overrun => "Error: a size limit was broken"

/-! ## Building -/

/-- The result of a phase, or the outcome if it failed. -/
def Phase.check {α : Type} (phase : Phase) : Except Failure α → Except Outcome α
  | .ok a => .ok a
  | .error (.error e) => .error (.failed phase (some e))
  | .error .overrun => .error .overrun

/-- The phases from the project in the folder `input` to its bundle. `scanned` is what was found
    there. -/
def bundlePhases (codec : Codec) (input : String) (scanned : Except BuildError Node) :
    Except Outcome Bytes := do
  let folder ← (Phase.scanning input).check (scanned : Except Failure Node)
  let source := Source.ofFolder codec input folder
  let definitions ← Phase.loading.check (Definitions.load source : Except BuildError Definitions)
  let tables ← Phase.compiling.check (build { source, definitions })
  Phase.assembling.check (Bundle.assemble tables : Except BuildError Bytes)

/-! ## Running on a tree of files -/

/-- The name of the file that a bundle is written to. -/
def bundleFile : String := "game.dat"

/-- The path of a file of the output. -/
def Options.target (options : Options) (name : String) : String :=
  Node.display options.output [name]

/-- Write a file of the output, whose folder is at a place of the tree. Without a place the output
    goes elsewhere and leaves the tree as it is. -/
def writeTarget? (tree : Node) (place : Option (List String)) (options : Options) (name : String)
    (contents : ByteArray) : Option Node :=
  if Text.pathLimit ≤ (options.target name).utf8ByteSize then none
  else match place with
    | none => some tree
    | some place => tree.writeFile? place name contents

/-- Write the output of a run. The tree is kept as far as it has been written. -/
def writeOutput (tree : Node) (options : Options) (bundle : Bytes) : Outcome × Node :=
  match tree.createPath? options.output with
  | none => (.failed (.creating options.output) none, tree)
  | some (tree, place) =>
    match writeTarget? tree place options bundleFile ⟨bundle⟩ with
    | none => (.failed .writingBundle none, tree)
    | some tree =>
      if options.header then
        match writeTarget? tree place options Bundle.Header.fileName Bundle.Header.text.toUTF8 with
        | none => (.failed .writingHeader none, tree)
        | some tree => (.done, tree)
      else (.done, tree)

/-- Run the command in a folder. -/
def execute (codec : Codec) (tree : Node) (arguments : List String) : Outcome × Node :=
  match Options.parse arguments with
  | .error reason => (.refused reason, tree)
  | .ok options =>
    match bundlePhases codec options.input (tree.open options.input) with
    | .error outcome => (outcome, tree)
    | .ok bundle => writeOutput tree options bundle

end GameBundle.CommandLine
