import Scorecard.Fault
import Scorecard.FileSystem.Path
import Scorecard.Text.Utf8

/-!
# File trees

A file tree is a value: the files and directories by their components from the root, the directory
in which relative paths start, and nothing else. A path is followed one component after the other,
so each component but the last must be a directory even where the path turns back from it.
-/

namespace Scorecard

/-- A file with its octets and the time of its last change, or a directory. -/
inductive Node where
  | file (content : List UInt8) (modified : Int)
  | directory
deriving DecidableEq

/-- The files and directories below the root. -/
structure FileTree where
  /-- The components of the directory in which relative paths start. -/
  workingDirectory : List String
  /-- The nodes by their components; the root itself is not listed. -/
  nodes : List (List String × Node)
deriving DecidableEq

namespace FileTree

/-- The working directory as a path. -/
def here (tree : FileTree) : Path :=
  { anchor := .root, components := tree.workingDirectory }

/-- The node at the given components. -/
def node? (tree : FileTree) (components : List String) : Option Node :=
  if components.isEmpty then some .directory else tree.nodes.lookup components

/-- Follows components from a place of the tree to the place they lead to. -/
def walk (tree : FileTree) : (place : List String) → List String → Except FileProblem (List String)
  | place, [] =>
      match tree.node? place with
      | none => .error .missing
      | some _ => .ok place
  | place, part :: rest =>
      match tree.node? place with
      | none => .error .missing
      | some (.file ..) => .error .notDirectory
      | some .directory => walk tree (if part = ".." then place.dropLast else place ++ [part]) rest

/-- The place that a path leads to. -/
def locate (tree : FileTree) (path : Path) : Except FileProblem (List String) :=
  tree.walk (if path.isAbsolute then [] else tree.workingDirectory) path.components

/-- The node at a path. -/
def find? (tree : FileTree) (path : Path) : Option Node :=
  match tree.locate path with
  | .ok place => tree.node? place
  | .error _ => none

/-- Whether anything is at a path. -/
def contains (tree : FileTree) (path : Path) : Bool :=
  (tree.find? path).isSome

/-- Whether a directory is at a path. -/
def isDirectory (tree : FileTree) (path : Path) : Bool :=
  tree.find? path == some .directory

/-- Whether a file is at a path. -/
def isFile (tree : FileTree) (path : Path) : Bool :=
  match tree.find? path with
  | some (.file ..) => true
  | _ => false

/-- The octets of the file at a path and the time of its last change. -/
def readFile (tree : FileTree) (path : Path) : Except Fault (List UInt8 × Int) :=
  match tree.locate path with
  | .error problem => .error (.file problem path.display)
  | .ok place =>
      match tree.node? place with
      | some (.file content modified) => .ok (content, modified)
      | _ => .error (.file .isDirectory path.display)

/-- The octets of the file at a path. -/
def read (tree : FileTree) (path : Path) : Except Fault (List UInt8) := do
  return (← tree.readFile path).1

/-- The text of the file at a path, with line feeds for all line ends. -/
def readText (tree : FileTree) (path : Path) : Except Fault (List Char) := do
  match Utf8.decode (← tree.read path) with
  | .ok text => return universalNewlines text
  | .error problem => throw (.undecodable problem)

/-- The text of the file at a path as far as it can be read, with the replacement character for what
is not UTF-8 and line feeds for all line ends. -/
def readTextReplacing (tree : FileTree) (path : Path) : Except Fault (List Char) := do
  return universalNewlines (Utf8.decodeReplacing (← tree.read path))

/-- The tree with a node put at the given components. -/
def put (tree : FileTree) (components : List String) (node : Node) : FileTree :=
  let others := tree.nodes.filter fun entry => entry.1 != components
  { tree with nodes := others ++ [(components, node)] }

/-- The place of a path's last component and whether something is there; everything before it must
be a directory. -/
def target (tree : FileTree) (path : Path) : Except FileProblem (List String × Option Node) :=
  match path.components.getLast? with
  | none => do
      let place ← tree.locate path
      return (place, tree.node? place)
  | some last =>
      if last = ".." then do
        let place ← tree.locate path
        return (place, tree.node? place)
      else do
        let directory ← tree.locate path.parent
        match tree.node? directory with
        | some (.file ..) => throw .notDirectory
        | _ => return (directory ++ [last], tree.node? (directory ++ [last]))

/-- The tree with a new directory at a path whose parent exists. -/
def makeDirectory (tree : FileTree) (path : Path) : Except FileProblem FileTree := do
  match ← tree.target path with
  | (_, some _) => throw .exists
  | (place, none) => return tree.put place .directory

/-- The tree in which a directory is at the path and at every path above it. The first argument
bounds the climb towards the top. -/
def ensureDirectoryWithin : (climb : Nat) → FileTree → Path → Except Fault FileTree
  | climb, tree, path =>
      match tree.makeDirectory path, climb with
      | .ok made, _ => .ok made
      | .error .missing, climb + 1 => do
          let above ← ensureDirectoryWithin climb tree path.parent
          match above.makeDirectory path with
          | .ok made => return made
          | .error problem =>
              if above.isDirectory path then return above else throw (.file problem path.display)
      | .error problem, _ =>
          if tree.isDirectory path then .ok tree else .error (.file problem path.display)

/-- The tree in which a directory is at the path and at every path above it. -/
def ensureDirectory (tree : FileTree) (path : Path) : Except Fault FileTree :=
  ensureDirectoryWithin path.components.length tree path

/-- The tree with the octets written to the file at a path, changed at the given time. -/
def write (tree : FileTree) (path : Path) (content : List UInt8) (time : Int) :
    Except Fault FileTree :=
  match tree.target path with
  | .error problem => .error (.file problem path.display)
  | .ok (_, some .directory) => .error (.file .isDirectory path.display)
  | .ok (place, _) => .ok (tree.put place (.file content time))

/-- The tree with a text written to the file at a path, the directories above it made first. -/
def writeText (tree : FileTree) (path : Path) (text : String) (time : Int) :
    Except Fault FileTree := do
  let ready ← tree.ensureDirectory path.parent
  ready.write path (Utf8.encode text.toList) time

/-- All that is below a place, each by its components from there. -/
def below (tree : FileTree) (place : List String) : List (List String) :=
  tree.nodes.filterMap fun (components, _) =>
    if place.isPrefixOf components && place != components then
      some (components.drop place.length)
    else
      none

end FileTree

end Scorecard
