/-
This file runs the command in a folder that is a value, and gives all that the run leaves
behind.

A folder is a list of files by their paths; it has a directory for every proper beginning
of such a path. Paths follow the usual rules: they are read from left to right, every step
starts from a directory, one dot stays and two dots go up. Names and paths have a greatest
length. What lies above the folder is only known to be directories, and nothing else
outside the folder is taken to exist.
-/

import PadLang.Command.Basic

namespace PadLang

/-- The content of a file. -/
abbrev Octets := List UInt8

/-- The files of a folder, by the names on their paths. -/
structure Folder where
  files : List (List String × Octets) := []
deriving DecidableEq, Repr

/-- What a path leads to. -/
inductive Node where
  | file (content : Octets)
  | directory
deriving DecidableEq, Repr

/-- A place that a path may lead to, whether or not there is anything. -/
inductive Place where
  | inside (names : List String)
  /-- A directory around the folder. -/
  | above
  /-- Any other place outside the folder. -/
  | elsewhere
deriving DecidableEq, Repr

namespace Folder

open Command

/-! ### Paths -/

/-- The greatest length of a name, in octets. -/
def longestName : Nat := 255

/-- The greatest length of a path, in octets. -/
def longestPath : Nat := 4095

/-- The names on a path. -/
def names (path : String) : List String :=
  path.splitOn "/"

/-- What is at a place. -/
def node? (folder : Folder) : Place → Option Node
  | .above => some .directory
  | .elsewhere => none
  | .inside names =>
    match folder.files.lookup names with
    | some content => some (.file content)
    | none =>
      if names = [] ∨ folder.files.any (fun file => names.isPrefixOf file.1) then
        some .directory
      else none

/-- Requires a place to be a directory. -/
def enter (folder : Folder) (place : Place) : Except Obstacle Unit :=
  match folder.node? place with
  | none => .error .notFound
  | some (.file _) => .error .notADirectory
  | some .directory => .ok ()

/-- Whether a step stays where it is. -/
def isStay (name : String) : Bool :=
  name = "" ∨ name = "."

/-- The directory around a directory. -/
def outer : Place → Place
  | .inside [] => .above
  | .inside names => .inside names.dropLast
  | .above => .above
  | .elsewhere => .elsewhere

/-- The place of a name in a directory. -/
def inner (name : String) : Place → Place
  | .inside names => .inside (names ++ [name])
  | .above => .elsewhere
  | .elsewhere => .elsewhere

/-- One step from a place, which has to be a directory. -/
def stepFrom (folder : Folder) (place : Place) (name : String) : Except Obstacle Place := do
  folder.enter place
  if isStay name then return place
  else if name = ".." then return outer place
  else if longestName < name.utf8ByteSize then throw .nameTooLong
  else return inner name place

/-- Follows names from a place. -/
def follow (folder : Folder) (place : Place) : List String → Except Obstacle Place
  | [] => .ok place
  | name :: rest => do folder.follow (← folder.stepFrom place name) rest

/-- Where a path starts. A path that is empty or too long starts nowhere. -/
def origin (path : String) : Except Obstacle Place :=
  if path = "" then .error .notFound
  else if longestPath < path.utf8ByteSize then .error .nameTooLong
  else .ok (if path.startsWith "/" then .above else .inside [])

/-! ### Files -/

/-- The content of the file at a path. -/
def read (folder : Folder) (path : String) : Except Obstacle Octets := do
  match folder.node? (← folder.follow (← origin path) (names path)) with
  | none => .error .notFound
  | some .directory => .error .isADirectory
  | some (.file content) => .ok content

/-- The same folder with a file of some content. -/
def put (folder : Folder) (names : List String) (content : Octets) : Folder :=
  ⟨folder.files.filter (fun file => file.1 ≠ names) ++ [(names, content)]⟩

/-- Writes a file at a place. What is written outside the folder is out of sight. -/
def putAt (folder : Folder) (place : Place) (content : Octets) : Except Obstacle Folder :=
  match folder.node? place, place with
  | some .directory, _ => .error .isADirectory
  | _, .inside names => .ok (folder.put names content)
  | _, _ => .ok folder

/-- The names on a path, the last one first and without the empty ones that slashes at the end
leave, and whether there are such slashes. -/
def backwards (path : String) : List String × Bool :=
  let all := (names path).reverse
  let trimmed := all.dropWhile (· = "")
  (trimmed, trimmed.length < all.length)

/-- Writes a file at a path. The last name must not be followed by a slash, which could only
name a directory. -/
def write (folder : Folder) (path : String) (content : Octets) : Except Obstacle Folder := do
  let start ← origin path
  match backwards path with
  | ([], _) => throw .isADirectory
  | (last :: before, slashed) =>
    let directory ← folder.follow start before.reverse
    folder.enter directory
    if slashed ∧ last ≠ "." ∧ last ≠ ".." then throw .isADirectory
    else folder.putAt (← folder.stepFrom directory last) content

end Folder

namespace Command

/-! ### Runs -/

/-- The state of a run. -/
structure World where
  /-- What standard input holds. -/
  input : Octets := []
  folder : Folder := {}
  /-- What has been written to standard output. -/
  output : String := ""
  /-- What has been written to standard error. -/
  errors : String := ""
deriving DecidableEq, Repr

/-- The operations of the command on such a state. -/
def World.host : Host (StateM World) where
  input := do return .ok (← get).input
  read path := do return (← get).folder.read path
  write path text := do
    let world ← get
    match world.folder.write path text.toUTF8.toList with
    | .error obstacle => return .error obstacle
    | .ok folder => set { world with folder }; return .ok ()
  print text := modify fun world => { world with output := world.output ++ text }
  report text := modify fun world => { world with errors := world.errors ++ text }

/-- Runs the command: the exit code, and the state in the end. -/
def World.run (world : World) (arguments : List String) : UInt32 × World :=
  Command.run World.host arguments world

end Command

end PadLang
