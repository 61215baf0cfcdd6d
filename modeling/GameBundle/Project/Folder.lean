import GameBundle.Project.Source

set_option autoImplicit false

/-! # Project folders

A project on disk is a tree of folders and files that is scanned once, before anything is read.
Files are addressed by name, wherever they lie in the tree; a name that occurs more than once can
not be read. -/

namespace GameBundle

/-- A file or a folder. The contents of a file are missing if it cannot be read. -/
inductive Node
  | file (contents : Option ByteArray)
  | folder (entries : List (String × Node))
  deriving Inhabited

namespace Node

/-! ## Finding -/

def isFolder : Node → Bool
  | folder _ => true
  | file _ => false

/-- The entry of a folder. -/
def entry? : Node → String → Option Node
  | folder entries, name => entries.lookup name
  | file _, _ => none

/-- The node at a place in the tree. -/
def at? (root : Node) (place : List String) : Option Node := place.foldlM entry? root

/-- The place that a path leads to, starting in the folder at `here`. Two dots lead out of a folder;
    nothing lies outside the tree. -/
def walk? (root : Node) : List String → List String → Option (List String)
  | here, [] => some here
  | here, segment :: rest => do
    let node ← root.at? here
    if !node.isFolder then none
    else if segment = ".." then
      if here.isEmpty then none else walk? root here.dropLast rest
    else
      let _ ← node.entry? segment
      walk? root (here ++ [segment]) rest

/-- The node that a path leads to. A path that ends in a slash has to lead to a folder; one that is
    empty, too long, or starts with a slash, leads to nothing in the tree. -/
def find? (root : Node) (path : String) : Option Node := do
  if path.isEmpty || path.startsWith "/" || Text.pathLimit ≤ path.utf8ByteSize then none
  let node ← walk? root [] (Text.segments path) >>= root.at?
  if path.endsWith "/" && !node.isFolder then none else return node

/-! ## Writing -/

/-- Put a node under a name of a folder. -/
def put (node : Node) (name : String) (new : Node) : Node :=
  match node with
  | folder entries => folder (putEntry name new entries)
  | file contents => file contents

/-- Replace the node at a place, if all folders on the way exist. -/
def replace? (new : Node) : List String → Node → Option Node
  | [], _ => some new
  | name :: rest, node => do
    let below := (node.entry? name).getD (folder [])
    if !node.isFolder then none else return node.put name (← replace? new rest below)

/-- Can a folder be given this name? -/
def isFolderName (name : String) : Bool := name.utf8ByteSize ≤ Text.nameLimit

/-- Make sure that the folders on a path exist, and return the place it leads to. A path that leads
    out of the tree has no place; folders can be created there as well. -/
def createFolders? : Node → List String → List String → Option (Node × Option (List String))
  | root, here, [] => some (root, some here)
  | root, here, segment :: rest =>
    if segment = ".." then
      if !here.isEmpty then createFolders? root here.dropLast rest
      else if rest.all isFolderName then some (root, none)
      else none
    else
      let place := here ++ [segment]
      match root.at? place with
      | some (folder _) => createFolders? root place rest
      | some (file _) => none
      | none => do
        if !isFolderName segment then none
        createFolders? (← replace? (folder []) place root) place rest

/-- Make sure that there is a folder at a path. A path that starts with a slash leads out of the
    tree at once. If the path ends in a dot, its last folder is not created but has to be there once
    the others are; nothing is known to be there outside. -/
def createPath? (root : Node) (path : String) : Option (Node × Option (List String)) := do
  if Text.pathLimit ≤ path.utf8ByteSize then none
  let segments := Text.segments path
  let last := segments.getLast?.toList
  let lastIsThere := Text.endsInDot path && last ≠ [] && last ≠ [".."]
  let (root, parent) ←
    if path.startsWith "/" then createFolders? root [] (".." :: segments.dropLast)
    else createFolders? root [] segments.dropLast
  match parent with
  | some here =>
    if lastIsThere then
      let _ ← walk? root here last
    createFolders? root here last
  | none =>
    if lastIsThere || !last.all isFolderName then none
    return (root, none)

/-- Write a file into the folder at a place. A folder of that name is in the way. -/
def writeFile? (root : Node) (place : List String) (name : String) (contents : ByteArray) :
    Option Node :=
  match root.at? (place ++ [name]) with
  | some (folder _) => none
  | _ => replace? (file (some contents)) (place ++ [name]) root

/-! ## Scanning -/

mutual

/-- What a scan finds of a node whose path takes `taken` bytes. What has too long a path below it
    cannot be looked into: it counts as a file that cannot be read. -/
def visible (taken : Nat) : Node → Node
  | file contents => file contents
  | folder entries => folder (visibleEntries taken entries)

/-- What a scan finds of the entries of a folder. -/
def visibleEntries (taken : Nat) : List (String × Node) → List (String × Node)
  | [] => []
  | (name, node) :: rest =>
    let path := taken + 1 + name.utf8ByteSize
    (name, if Text.pathLimit ≤ path then file none else visible path node) ::
      visibleEntries taken rest

end

mutual

/-- All files of a tree with their places below `here`. -/
def filesBelow (here : List String) : Node → List (List String × Option ByteArray)
  | file contents => [(here, contents)]
  | folder entries => filesOfEntries here entries

/-- All files of the entries of a folder. -/
def filesOfEntries (here : List String) :
    List (String × Node) → List (List String × Option ByteArray)
  | [] => []
  | (name, node) :: rest => filesBelow (here ++ [name]) node ++ filesOfEntries here rest

end

/-- The order of paths, segment by segment. -/
def pathLe : List String → List String → Bool
  | [], _ => true
  | _ :: _, [] => false
  | a :: as, b :: bs => if a = b then pathLe as bs else decide (a < b)

/-- A place below a folder, as a path that starts with the path of the folder. -/
def display (root : String) (place : List String) : String :=
  root ++ (if root.endsWith "/" then "" else "/") ++ "/".intercalate place

end Node

/-! ## Folders as sources -/

/-- The files of a folder as a project. `root` is the path by which messages call the folder. -/
def Source.ofFolder (codec : Codec) (root : String) (folder : Node) : Source :=
  let taken := root.utf8ByteSize - if root.endsWith "/" then 1 else 0
  let files := ((folder.visible taken).filesBelow []).mergeSort fun a b => Node.pathLe a.1 b.1
  let named := fun (name : String) => files.filter fun f => f.1.getLast? == some name
  let read := fun (name : String) =>
    match named name with
    | [] => Except.error (.missingFile name)
    | [(place, contents)] =>
      match contents with
      | some contents => .ok contents
      | none => .error (.unreadable (Node.display root place))
    | many => .error (.ambiguousFile name (many.map fun f => Node.display root f.1))
  { read
    contains := fun name => !(named name).isEmpty
    image := decodeImage codec read }

/-- The folder at a path of a tree. -/
def Node.open (tree : Node) (root : String) : Except BuildError Node :=
  match tree.find? root with
  | some (.folder entries) => .ok (.folder entries)
  | _ => .error (.unreadable root)

/-- The project in the folder at a path of a tree. -/
def Source.open (codec : Codec) (tree : Node) (root : String) : Except BuildError Source := do
  return .ofFolder codec root (← tree.open root)

end GameBundle
