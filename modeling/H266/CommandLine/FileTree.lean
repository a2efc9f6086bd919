import H266.CommandLine.Path
import H266.CommandLine.Run

/-!
# Files in Memory

A tree of directories and files that serves as the storage of a command. Commands can be
carried out on it without touching a disk, and what they leave behind can be looked at.

Paths are followed name by name. Every name before the last must lead to a directory that is
there, also a name that `..` takes back; only then it matters what is asked of the last name.
-/

namespace H266.CommandLine

/-- What is found at a place of the tree. -/
inductive Node
  | directory
  | file (data : Bytes)
  /-- A file that stays empty: what is written to it is lost. -/
  | null
  deriving DecidableEq, Repr

/-- Directories and files below a root directory. -/
structure FileTree where
  /-- The nodes, each with the names that lead to it from the root. -/
  nodes : List (List String × Node)
  /-- The names that lead from the root to the working directory. -/
  working : List String
  deriving DecidableEq, Repr

namespace FileTree

/-- The tree with nothing in it but the working directory and those that it lies in. -/
def empty (working : List String) : FileTree where
  nodes := (List.range working.length).map fun n => (working.take (n + 1), .directory)
  working := working

/-! ### Nodes -/

/-- The node that the names lead to; no names lead to the root. -/
def node? (tree : FileTree) (names : List String) : Option Node :=
  if names.isEmpty then some .directory else tree.nodes.lookup names

/-- The tree with a node put in place of what was there. -/
def put (tree : FileTree) (names : List String) (node : Node) : FileTree :=
  { tree with nodes := (names, node) :: tree.nodes.filter fun entry => entry.1 ≠ names }

/-! ### Failures -/

/-- Nothing is there. -/
def notFound : IoFailure :=
  ⟨.notFound, "No such file or directory (os error 2)"⟩

/-- Something is there already. -/
def alreadyExists : IoFailure :=
  ⟨.alreadyExists, "File exists (os error 17)"⟩

/-- A file is where a directory is needed. -/
def notDirectory : IoFailure :=
  ⟨.notDirectory, "Not a directory (os error 20)"⟩

/-- A directory is where a file is needed. -/
def isDirectory : IoFailure :=
  ⟨.isDirectory, "Is a directory (os error 21)"⟩

/-- A name or a path is longer than it may be. -/
def nameTooLong : IoFailure :=
  ⟨.nameTooLong, "File name too long (os error 36)"⟩

/-- A path has a NUL character in it. -/
def nulInPath : IoFailure :=
  ⟨.invalidInput, "file name contained an unexpected NUL byte"⟩

/-! ### Following paths -/

/-- The most bytes of a name. -/
def maxNameBytes : Nat := 255

/-- The most bytes of a path. -/
def maxPathBytes : Nat := 4095

/-- Checks what no path may be, whatever is in the tree. -/
def check (path : String) : Except IoFailure Unit :=
  if path.toList.contains '\x00' then .error nulInPath
  else if path.isEmpty then .error notFound
  else if maxPathBytes < path.utf8ByteSize then .error nameTooLong
  else .ok ()

/-- Whether a name is that of an entry of a directory. The other two, `.` and `..`, always
lead to a directory. -/
def isEntryName (name : String) : Bool :=
  name ≠ "." && name ≠ ".."

/-- The place that a name leads to from a directory, whether there is a node or not. -/
def place (here : List String) (name : String) : Except IoFailure (List String) :=
  if name = "." then .ok here
  else if name = ".." then .ok here.dropLast
  else if maxNameBytes < name.utf8ByteSize then .error nameTooLong
  else .ok (here ++ [name])

/-- The directory that names lead to from the directory `here`. -/
def enter (tree : FileTree) (here : List String) : List String → Except IoFailure (List String)
  | [] => .ok here
  | name :: names => do
    let there ← place here name
    match tree.node? there with
    | none => throw notFound
    | some .directory => tree.enter there names
    | some _ => throw notDirectory

/-- Follows a path up to its last name: the directory reached, and the last name if it is
that of an entry. Any other last name is followed too. -/
def approach (tree : FileTree) (path : String) :
    Except IoFailure (List String × Option String) := do
  check path
  let start := if Path.isAbsolute path then [] else tree.working
  let names := Path.names path
  match names.getLast?.filter isEntryName with
  | some name => return (← tree.enter start names.dropLast, some name)
  | none => return (← tree.enter start names, none)

/-- The node that a path leads to. -/
def find (tree : FileTree) (path : String) : Except IoFailure Node := do
  let (here, name) ← tree.approach path
  match name with
  | none => return .directory
  | some name =>
    match tree.node? (← place here name) with
    | none => throw notFound
    | some node =>
      if Path.endsInSlash path ∧ node ≠ .directory then
        throw notDirectory
      return node

/-! ### Directories -/

/-- The tree with a new directory at a path. -/
def makeDirectory (tree : FileTree) (path : String) : Except IoFailure FileTree := do
  let (here, name) ← tree.approach path
  match name with
  | none => throw alreadyExists
  | some name =>
    let there ← place here name
    if (tree.node? there).isSome then
      throw alreadyExists
    return tree.put there .directory

/-- The tree with a directory at a path, new or not. -/
def ensureDirectory (tree : FileTree) (path : String) : Except IoFailure FileTree :=
  match tree.makeDirectory path with
  | .ok tree => .ok tree
  | .error failure =>
    match tree.find path with
    | .ok .directory => .ok tree
    | _ => .error failure

/-- The tree with a directory at a path. The directories that it lies in are made if one of
them is not there, and otherwise left alone, whatever is wrong with them. -/
def makeDirectories (tree : FileTree) (path : String) : Except IoFailure FileTree :=
  match tree.ensureDirectory path with
  | .ok tree => .ok tree
  | .error failure =>
    match h : Path.parent? path with
    | none => .error failure
    | some parent =>
      have := Path.length_lt_of_parent? h
      if failure.kind = .notFound then do
        let tree ← makeDirectories tree parent
        tree.ensureDirectory path
      else
        .error failure
termination_by path.length

/-- The tree with the directory that a path lies in. -/
def makeParents (tree : FileTree) (path : String) : Except IoFailure FileTree :=
  match Path.parent? path with
  | none => .ok tree
  | some parent => tree.makeDirectories parent

/-! ### Files -/

/-- The data of the file that a path leads to. -/
def read (tree : FileTree) (path : String) : Except IoFailure Bytes := do
  match ← tree.find path with
  | .directory => throw isDirectory
  | .file data => return data
  | .null => return []

/-- The tree with data written to the file at a path, which is made if there is none. A path
that ends in a slash is taken for that of a directory, whatever is there. -/
def write (tree : FileTree) (path : String) (data : Bytes) : Except IoFailure FileTree := do
  let (here, name) ← tree.approach path
  match name with
  | none => throw isDirectory
  | some name =>
    if Path.endsInSlash path then
      throw isDirectory
    let there ← place here name
    match tree.node? there with
    | some .directory => throw isDirectory
    | some .null => return tree
    | _ => return tree.put there (.file data)

/-! ### Storage -/

/-- Makes a change to the tree, unless it fails. -/
def change (step : FileTree → Except IoFailure FileTree) :
    StateM FileTree (Except IoFailure Unit) := do
  match step (← get) with
  | .ok tree =>
    set tree
    return .ok ()
  | .error failure => return .error failure

/-- The tree as a storage. -/
def storage : Storage (StateM FileTree) where
  read path := return (← get).read path
  makeParents path := change (·.makeParents path)
  write path data := change (·.write path data)

end FileTree

end H266.CommandLine
