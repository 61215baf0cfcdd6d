import GameBundle.CommandLine.Command

set_option autoImplicit false

/-! # The program

Reads the folder of a project into a tree, runs the phases of a build on it, and writes what they
give. Nothing is decided here: `bundlePhases` builds, and `Outcome` says how the run ends. The
program knows no image format of its own. -/

namespace GameBundle.CommandLine

/-- How deep folders are followed. A path has no more characters than this. -/
def depthLimit : Nat := 4096

/-- The tree of files at a path. A file that cannot be read has no contents. -/
def readNode : Nat → String → ExceptT BuildError IO Node
  | 0, path => throw (.unreadable path)
  | depth + 1, path => do
    let place := System.mkFilePath [path]
    if ← place.isDir then
      match ← place.readDir.toBaseIO with
      | .error _ => throw (.unreadable path)
      | .ok entries =>
        let nodes ← entries.toList.mapM fun entry => do
          return (entry.fileName, ← readNode depth (Node.display path [entry.fileName]))
        return .folder nodes
    else
      match ← (IO.FS.readBinFile path).toBaseIO with
      | .ok contents => return .file (some contents)
      | .error _ => return .file none

/-- The folder of a project. -/
def scanFolder (path : String) : ExceptT BuildError IO Node := do
  match ← readNode depthLimit path with
  | .folder entries => return .folder entries
  | .file _ => throw (.unreadable path)

/-- Make sure that there is a folder at a path. If the path ends in a dot, its last folder has to be
    there once the others are. -/
def createFolder (path : String) : IO Unit := do
  if Text.endsInDot path then
    let parent := Text.parent path
    unless parent.isEmpty do IO.FS.createDirAll parent
    unless ← (System.mkFilePath [path]).isDir do throw (IO.userError path)
  else IO.FS.createDirAll path

/-- Do a phase that writes. -/
def writePhase (phase : Phase) (action : IO Unit) : ExceptT Outcome IO Unit := do
  match ← action.toBaseIO with
  | .ok _ => return ()
  | .error _ => throw (.failed phase none)

/-- Build the project and write its bundle. -/
def buildOnDisk (options : Options) : ExceptT Outcome IO Unit := do
  let scanned ← (scanFolder options.input).run
  let bundle ← (bundlePhases Codec.none options.input scanned : Except Outcome Bytes)
  writePhase (.creating options.output) (createFolder options.output)
  writePhase .writingBundle (IO.FS.writeBinFile (options.target bundleFile) ⟨bundle⟩)
  if options.header then
    writePhase .writingHeader
      (IO.FS.writeFile (options.target Bundle.Header.fileName) Bundle.Header.text)

/-- Run the command line. -/
def runOnDisk (arguments : List String) : IO Outcome := do
  match Options.parse arguments with
  | .error reason => return .refused reason
  | .ok options =>
    match ← (buildOnDisk options).run with
    | .ok _ => return .done
    | .error outcome => return outcome

end GameBundle.CommandLine

open GameBundle.CommandLine in
/-- The program. -/
def main (arguments : List String) : IO UInt32 := do
  let outcome ← runOnDisk arguments
  let report := outcome.report
  unless report.isEmpty do
    if outcome.status = 0 then IO.println report else IO.eprintln report
  return UInt32.ofNat outcome.status
