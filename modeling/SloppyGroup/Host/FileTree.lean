import Std.Data.ExtTreeMap
import SloppyGroup.Host.Basic

/-!
A host in memory: a tree of files and directories, what was printed, and the events that were
reported.
-/

namespace SloppyGroup

/-- Where a file or a directory is, below the root of the tree. -/
abbrev Location := List String

/-- What is at a location: a directory, or a file with its text. -/
inductive Entry where
  | directory
  | file (text : String)
deriving DecidableEq, Repr

/-- Files and directories by location; the root is always there. Relative paths start from the home
directory. -/
structure FileTree where
  entries : Std.ExtTreeMap Location Entry
  home : Location

namespace FileTree

def find? (tree : FileTree) (place : Location) : Option Entry :=
  if place.isEmpty then some .directory else tree.entries[place]?

def set (tree : FileTree) (place : Location) (entry : Entry) : FileTree :=
  { tree with entries := tree.entries.insert place entry }

theorem find?_set (tree : FileTree) (place : Location) (entry : Entry) {other : Location}
    (h : other ≠ []) :
    (tree.set place entry).find? other =
      if place = other then some entry else tree.find? other := by
  simp [find?, set, h, Std.ExtTreeMap.getElem?_insert]

def parts (path : String) : List String :=
  path.splitOn "/"

/-- Goes one step from a directory; the root is above itself. -/
def descend (tree : FileTree) (origin : Location) (part : String) : Except FileFault Location :=
  match tree.find? origin with
  | none => .error .notFound
  | some (.file _) => .error .notDirectory
  | some .directory =>
    if part = "" ∨ part = "." then .ok origin
    else if part = ".." then .ok origin.dropLast
    else if part.utf8ByteSize ≤ 255 then .ok (origin ++ [part])
    else .error .nameTooLong

/-- The largest number of bytes in a path. -/
def pathLimit : Nat := 4095

def checkPath (path : String) : Except FileFault Unit :=
  if path.toList.contains '\x00' then .error .nulInName
  else if pathLimit < path.utf8ByteSize then .error .nameTooLong
  else .ok ()

def start (tree : FileTree) (path : String) : Location :=
  if path.startsWith "/" then [] else tree.home

/-- The location that a path leads to, which need not be there. -/
def locate (tree : FileTree) (path : String) : Except FileFault Location := do
  checkPath path
  if path.isEmpty then throw .notFound
  (parts path).foldlM tree.descend (tree.start path)

def read (tree : FileTree) (path : String) : Except FileFault String := do
  let place ← tree.locate path
  match tree.find? place with
  | none => .error .notFound
  | some .directory => .error .isDirectory
  | some (.file text) => .ok text

/-- Makes the directory at a location, unless it is there. -/
def makeDirectory (tree : FileTree) (place : Location) : Except FileFault FileTree :=
  match tree.find? place with
  | none => .ok (tree.set place .directory)
  | some .directory => .ok tree
  | some (.file _) => .error .alreadyExists

def makeAlong (tree : FileTree) (origin : Location) : List String → Except FileFault FileTree
  | [] => .ok tree
  | part :: rest => do
    let place ← tree.descend origin part
    if (tree.find? place).isSome && !rest.isEmpty then tree.makeAlong place rest
    else
      let tree ← tree.makeDirectory place
      tree.makeAlong place rest

/-- Makes the directory that a path leads to and those before it. A path that ends in a dot names a
directory that has to be there. -/
def makeDirectories (tree : FileTree) (path : String) : Except FileFault FileTree := do
  checkPath path
  let steps := (parts path).filter (· ≠ "")
  if steps.getLast? = some "." then
    let place ← steps.foldlM tree.descend (tree.start path)
    match tree.find? place with
    | some .directory => return tree
    | _ => throw .notFound
  else tree.makeAlong (tree.start path) steps

def write (tree : FileTree) (path text : String) : Except FileFault FileTree := do
  let place ← tree.locate path
  match tree.find? place with
  | some .directory => .error .isDirectory
  | _ =>
    match tree.find? place.dropLast with
    | none => .error .notFound
    | some (.file _) => .error .notDirectory
    | some .directory => .ok (tree.set place (.file text))

/-- The directories that lead to a location, outermost first. -/
def above (place : Location) : List Location :=
  ((List.range place.length).map place.take).filter fun l => !l.isEmpty

/-- Puts a file at a location and makes the directories that lead to it. -/
def put (tree : FileTree) (place : Location) (text : String) : FileTree :=
  ((above place).foldl (fun tree l => tree.set l .directory) tree).set place (.file text)

/-- A home directory below the root, with nothing in it. -/
def blank : FileTree :=
  ⟨({} : Std.ExtTreeMap Location Entry).insert ["home"] .directory, ["home"]⟩

def ofFiles (files : List (String × String)) : FileTree :=
  files.foldl (fun tree (path, text) =>
    tree.put (tree.home ++ (parts path).filter (· ≠ "")) text) blank

/-- All files in the home directory and below it, with their paths from there. -/
def files (tree : FileTree) : List (String × String) :=
  tree.entries.toList.filterMap fun (place, entry) =>
    match entry with
    | .file text =>
      if tree.home.isPrefixOf place then
        some (String.intercalate "/" (place.drop tree.home.length), text)
      else none
    | .directory => none

end FileTree

/-- What a run in memory has done so far. -/
structure Scene where
  tree : FileTree
  printed : String
  events : List Event

namespace Scene

def ofTree (tree : FileTree) : Scene :=
  ⟨tree, "", []⟩

/-- Performs an operation on the tree, which stays as it is if the operation fails. -/
def change (operation : FileTree → Except FileFault FileTree) :
    StateM Scene (Except FileFault Unit) := do
  let scene ← get
  match operation scene.tree with
  | .error fault => return .error fault
  | .ok tree =>
    set { scene with tree }
    return .ok ()

instance : Host (StateM Scene) where
  read path := do return (← get).tree.read path
  makeDirectories path := change (·.makeDirectories path)
  write path text := change (·.write path text)
  print text := modify fun scene => { scene with printed := scene.printed ++ text }
  report event := modify fun scene => { scene with events := scene.events ++ [event] }

end Scene

end SloppyGroup
