set_option autoImplicit false

/-! # Why a build is refused

A build stops in one of two ways. A `BuildError` is a mistake in the project that the author can
mend; it names the file, object, action or value at fault, and `BuildError.message` is the sentence
shown for it. A `Failure.overrun` is a broken size limit that no message describes: a number left
its machine word, or a write went past its record. -/

namespace GameBundle

/-! ## Mistakes in a project -/

/-- Why pixels could not be taken from an image that was found. -/
inductive ImageFault
  /-- The decoder did not recognise the file. -/
  | undecodable
  /-- The image has fewer than three channels. -/
  | channels (count : Nat)
  /-- There are fewer pixel bytes than the size of the image calls for. -/
  | shortBuffer
  deriving Repr, DecidableEq, Inhabited

/-- A mistake in the project being built. -/
inductive BuildError
  | missingFile (name : String)
  | ambiguousFile (name : String) (paths : List String)
  | unreadable (path : String)
  | badJson (file : String)
  | duplicateName (kind name file : String)
  | duplicateMapScript (map slot : String)
  | reservedName (kind name : String)
  | missingField (context field : String)
  | malformed (context reason : String)
  | emptyDialog (dialog : String)
  | emptyDialogScreen (dialog : String) (screen : Nat)
  | emptySerialDialog (dialog : String)
  | unsupportedImage (file : String)
  | imageDecode (file : String) (fault : ImageFault)
  | unknownAction (action : String)
  | missingOperand (action property expected : String)
  | unknownKey (action property value valid : String)
  | invalidOperand (action property value reason : String)
  | outOfRange (action property : String) (value : Int) (limit : Nat)
  | notFound (context kind name scope : String)
  | tooManyEntities (map : String) (count limit : Nat)
  | tooManyVariables (name : String)
  | tooManyColors (image : String)
  | tooManyPoints (geometry : String) (count : Nat)
  | tooManyResponses (dialog : String) (count : Nat)
  | fieldOverflow (context : String) (value : Int) (width : Nat)
  | multiplePlayers (map first second : String)
  | rotatedObject (map object : String)
  | conflictingSerialOptions (dialog : String)
  | copyScriptCycle (script : String) (cycle : List String)
  deriving Repr, DecidableEq, Inhabited

/-- What follows the file name in the message of an image that gave no pixels; the decoder's own
    words are not repeated. -/
def ImageFault.suffix : ImageFault → String
  | .undecodable => ""
  | .channels count => ": expected 3 or 4 channels, got " ++ toString count
  | .shortBuffer => ": pixel buffer is shorter than width * height"

/-- The sentence that reports a mistake to the author. -/
def BuildError.message : BuildError → String
  | .missingFile name => s!"file `{name}` could not be found in the project folder"
  | .ambiguousFile name paths =>
    s!"file name `{name}` is ambiguous, found at: " ++ ", ".intercalate paths
  | .unreadable path => s!"reading {path}"
  | .badJson file => s!"parsing `{file}`"
  | .duplicateName kind name file => s!"duplicate {kind} name \"{name}\" found in {file}"
  | .duplicateMapScript map slot =>
    s!"duplicate \"{slot}\" definition on map \"{map}\": " ++
      "defined in both the Tiled map and the scenario; remove one"
  | .reservedName kind name => s!"\"{name}\" is reserved and cannot be defined by a {kind} file"
  | .missingField context field => s!"{context} is missing required field `{field}`"
  | .malformed context reason => s!"{context}: {reason}"
  | .emptyDialog dialog => s!"dialog \"{dialog}\" is malformed, it has no dialog screens"
  | .emptyDialogScreen dialog screen =>
    s!"dialog \"{dialog}\" is malformed, screen {screen} contains no messages"
  | .emptySerialDialog dialog =>
    s!"serial dialog \"{dialog}\" is malformed, it contains no messages"
  | .unsupportedImage file =>
    s!"unsupported image type in file \"{file}\"; supported types are: png, gif"
  | .imageDecode file fault => s!"decoding image \"{file}\"" ++ fault.suffix
  | .unknownAction action => s!"invalid action: \"{action}\""
  | .missingOperand action property expected => s!"{action} requires {expected} for \"{property}\""
  | .unknownKey action property value valid =>
    s!"{action} was given value {value} for \"{property}\", possible values: {valid}"
  | .invalidOperand action property value reason =>
    s!"{action} \"{property}\" value {value} is invalid: {reason}"
  | .outOfRange action property value limit =>
    s!"{action} \"{property}\" value {value} must be less than or equal to {limit}"
  | .notFound context kind name scope =>
    s!"{context}: no {kind} named \"{name}\" could be found{scope}"
  | .tooManyEntities map count limit =>
    s!"map \"{map}\" has {count} entities, but the limit is {limit}"
  | .tooManyVariables name =>
    "there is a limit of 255 variables; " ++
      s!"the one that broke the encoder's back was \"{name}\""
  | .tooManyColors image => s!"\"{image}\" has too many colors; max supported colors are 256"
  | .tooManyPoints geometry count =>
    s!"geometry \"{geometry}\" has {count} points, but the limit is 255"
  | .tooManyResponses dialog count =>
    s!"serial dialog \"{dialog}\" has {count} options, but the limit is 255"
  | .fieldOverflow context value width =>
    s!"{context}: value {value} does not fit in {width} byte(s)"
  | .multiplePlayers map first second =>
    s!"more than one entity on map \"{map}\" has `is_player` checked, this is not allowed; " ++
      s!"competing entities: \"{first}\", \"{second}\""
  | .rotatedObject map object =>
    s!"object rotation is not supported; object {object} on map \"{map}\" is rotated"
  | .conflictingSerialOptions dialog =>
    s!"serial dialog \"{dialog}\" has both `options` and `text_options`; pick one"
  | .copyScriptCycle script cycle =>
    s!"COPY_SCRIPT in \"{script}\" never terminates; copy cycle: " ++ " -> ".intercalate cycle

/-! ## Ways to stop -/

/-- How a build step ends without a result. -/
inductive Failure
  /-- The project is at fault. -/
  | error (e : BuildError)
  /-- A size limit that carries no message was broken. -/
  | overrun
  deriving Repr, DecidableEq, Inhabited

/-- A step over a state of type `σ`. The state it reached is kept when it fails, so whoever goes on
    afterwards sees what was done before the failure. -/
abbrev Step (σ α : Type) : Type := ExceptT Failure (StateM σ) α

/-- A mistake of the project is a failure. -/
instance : MonadLift (Except BuildError) (Except Failure) where
  monadLift
    | .ok a => .ok a
    | .error e => .error (.error e)

/-- Stop with a mistake of the project. -/
def reject {m : Type → Type} [MonadExcept Failure m] {α : Type} (e : BuildError) : m α :=
  throw (.error e)

/-- The value of an option, or stop with `e`. -/
def orReject {m : Type → Type} [Monad m] [MonadExcept Failure m] {α : Type} (o : Option α)
    (e : BuildError) : m α :=
  match o with
  | some a => pure a
  | none => reject e

end GameBundle
