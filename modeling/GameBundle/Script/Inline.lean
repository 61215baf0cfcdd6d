import GameBundle.Error
import GameBundle.Project.Load
import GameBundle.Script.Opcode

set_option autoImplicit false

/-! # Copying scripts into each other

A script can copy another one in place of an instruction. Copies are expanded in rounds, each of
which replaces every copy instruction by the script it names, until none is left. Without a circle
of copies no chain of them is longer than the number of scripts, so that many rounds are enough;
after that there is a circle, and `findCycle` finds it by walking along the copies. -/

namespace GameBundle

/-! ## Expansion -/

/-- Does an action copy a script? -/
def Action.isCopy (a : Action) : Bool := a.name == copyScript

/-- The script that a copy names. -/
def Action.copied? (a : Action) : Option String := a.args.find? "script" >>= Json.asString?

/-- What replaces an action in one round: copies become the actions of the script they name. -/
def expandAction (scripts : Ordered Script) (name : String) (a : Action) :
    Except BuildError Script :=
  if !a.isCopy then .ok [a]
  else
    match a.copied? with
    | none | some "" => .error (.missingOperand copyScript "script" "a string value")
    | some target =>
      if target = nullScript then .ok []
      else match scripts.find? target with
        | some script => .ok script
        | none => .error (.notFound s!"COPY_SCRIPT in \"{name}\"" "script" target "")

/-- One round of expansion. -/
def expandOnce (scripts : Ordered Script) (name : String) (script : Script) :
    Except BuildError Script := do
  return (← script.mapM (expandAction scripts name)).flatten

/-- At most so many rounds; nothing if copies are left after them. -/
def expandRounds (scripts : Ordered Script) (name : String) :
    Nat → Script → Except BuildError (Option Script)
  | 0, _ => .ok none
  | rounds + 1, script =>
    if script.any Action.isCopy then do
      expandRounds scripts name rounds (← expandOnce scripts name script)
    else .ok (some script)

/-! ## Circles -/

/-- The scripts that a script copies, in order. -/
def copyTargets (scripts : Ordered Script) (name : String) : List String :=
  ((scripts.find? name).getD []).filterMap fun a => if a.isCopy then a.copied? else none

/-- Walk along the copies from `name`, depth first. `path` are the scripts on the way, `done` those
    that are known to lead to no circle. The first circle is the error. A way without a circle
    visits each script of the table once and may end outside it, which bounds its length. -/
def walkCopies (scripts : Ordered Script) :
    Nat → List String → List String → String → Except (List String) (List String)
  | steps, path, done, name =>
    if name ∈ path then .error (path.dropWhile (· != name) ++ [name])
    else if name ∈ done then .ok done
    else match steps with
      | 0 => .ok done
      | steps + 1 => do
        let done ← (copyTargets scripts name).foldlM
          (walkCopies scripts steps (path ++ [name])) done
        return name :: done

/-- The first circle of copies that can be reached from a script, or else the script alone. -/
def findCycle (scripts : Ordered Script) (name : String) : List String :=
  if scripts.contains name then
    match walkCopies scripts (scripts.size + 2) [] [] name with
    | .error cycle => cycle
    | .ok _ => [name]
  else [name]

/-- A script with all copies expanded. -/
def expandCopies (scripts : Ordered Script) (name : String) (script : Script) :
    Except BuildError Script := do
  match ← expandRounds scripts name (scripts.size + 1) script with
  | some expanded => return expanded
  | none => .error (.copyScriptCycle name (findCycle scripts name))

end GameBundle
