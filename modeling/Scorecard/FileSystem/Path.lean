import Scorecard.Text.Lines

/-!
# Paths

A path is a list of components after an anchor. Repeated slashes and components that name the
current directory are not kept; a component that names the directory above is kept until the path is
resolved. Paths are ordered by their components, not by their texts.
-/

namespace Scorecard

/-- Where a path starts. Exactly two leading slashes are kept apart from one. -/
inductive Anchor where
  | relative
  | root
  | doubleRoot
deriving DecidableEq

/-- A path of the file system. -/
structure Path where
  anchor : Anchor
  components : List String
deriving DecidableEq

namespace Path

/-- The anchor of a path's text. -/
def anchorOf : List Char → Anchor
  | '/' :: '/' :: '/' :: _ => .root
  | '/' :: '/' :: _ => .doubleRoot
  | '/' :: _ => .root
  | _ => .relative

/-- The path that a text denotes. -/
def ofString (text : String) : Path where
  anchor := anchorOf text.toList
  components :=
    ((splitAtChar '/' text.toList).map String.ofList).filter fun part => part != "" && part != "."

/-- The text of a path; the path without components is the current directory. -/
def display (path : Path) : String :=
  let parts := "/".intercalate path.components
  match path.anchor with
  | .relative => if path.components.isEmpty then "." else parts
  | .root => "/" ++ parts
  | .doubleRoot => "//" ++ parts

/-- Whether the path starts at the root. -/
def isAbsolute (path : Path) : Bool :=
  path.anchor != .relative

/-- The path taken from a directory; an absolute path stands for itself. -/
def join (directory path : Path) : Path :=
  if path.isAbsolute then path
  else { directory with components := directory.components ++ path.components }

/-- The path with one more component. -/
def child (directory : Path) (name : String) : Path :=
  { directory with components := directory.components ++ [name] }

/-- The path that goes on from a directory through the given components. -/
def descendant (directory : Path) (components : List String) : Path :=
  { directory with components := directory.components ++ components }

/-- The directory that holds the path; the top of a path is its own. -/
def parent (path : Path) : Path :=
  { path with components := path.components.dropLast }

/-- The last component. -/
def name (path : Path) : String :=
  path.components.getLast?.getD ""

/-- The ending of a name from its last point on. A name has none if that point is its first or its
last character. -/
def suffixOf (name : List Char) : List Char :=
  let ending := (name.reverse.takeWhile (· != '.')).reverse
  if ending.isEmpty || name.length ≤ ending.length + 1 then [] else '.' :: ending

/-- The ending of the last component. -/
def suffix (path : Path) : String :=
  String.ofList (suffixOf path.name.toList)

/-- The components with each that names the directory above taken together with the one before it;
above the top there is nothing. -/
def collapse (components : List String) : List String :=
  components.foldl (fun kept part => if part = ".." then kept.dropLast else kept ++ [part]) []

/-- The absolute path without components that name the directory above, for a path taken from the
given directory. -/
def resolve (path directory : Path) : Path :=
  { anchor := .root, components := collapse (directory.join path).components }

/-- What remains of a path below a directory. -/
def below? (path directory : Path) : Option Path :=
  if path.anchor = directory.anchor ∧ directory.components.isPrefixOf path.components then
    some { anchor := .relative, components := path.components.drop directory.components.length }
  else
    none

/-- Whether the first path stands before the second one, component by component. -/
def lessThan (left right : Path) : Bool :=
  left.components < right.components

end Path

end Scorecard
