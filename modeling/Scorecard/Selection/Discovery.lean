import Scorecard.Selection.PathFilter

/-!
# Finding source files

A target that is a file is taken as it is; a target that is a directory stands for the files below
it whose names end like those of an enabled language and which the filter keeps, in the order of
their paths. Each file is taken once, at its first appearance. The search ends with the file that
fills it: after each file it looks whether there are as many as the configuration allows.
-/

namespace Scorecard

namespace Discovery

/-- The paths below a directory whose names end with an extension, directories included. -/
def pathsBelow (tree : FileTree) (directory : Path) (extension : String) : List Path :=
  match tree.locate directory with
  | .error _ => []
  | .ok place =>
      ((tree.below place).map directory.descendant).filter fun path =>
        endsWith extension.toList path.name.toList

/-- Whether a file is at a path and its ending is one of the extensions up to case. -/
def isSupported (tree : FileTree) (extensions : List String) (path : Path) : Bool :=
  tree.isFile path && extensions.contains (String.ofList (lower path.suffix.toList))

/-- The source files below a directory that the filter keeps, in the order of their paths. -/
def sourcesBelow (tree : FileTree) (filter : PathFilter) (extensions : List String)
    (directory : Path) : List Path :=
  let candidates := (extensions.flatMap (pathsBelow tree directory)).mergeSort
    fun left right => !right.lessThan left
  candidates.filter fun path => isSupported tree extensions path && filter.keeps tree.here path

/-- The files that a target stands for. -/
def filesOf (tree : FileTree) (filter : PathFilter) (extensions : List String) (target : Path) :
    List Path :=
  match tree.find? target with
  | some .directory => sourcesBelow tree filter extensions target
  | some (.file ..) => [target]
  | none => []

/-- A search for files and what it has found. -/
inductive Search where
  /-- The search goes on; the places are those that the files lead to. -/
  | going (places files : List Path)
  /-- The search has ended. -/
  | ended (files : List Path)

namespace Search

/-- The files that are found. -/
def files : Search → List Path
  | .going _ files => files
  | .ended files => files

/-- Takes one more path, for paths that start in the given directory, unless it leads to a place
that is known. As many files as the limit end the search. -/
def take (limit : Int) (directory : Path) : Search → Path → Search
  | .ended files, _ => .ended files
  | .going places files, path =>
      let place := path.resolve directory
      if places.contains place then .going places files
      else
        let found := files ++ [path]
        if limit ≤ found.length then .ended found else .going (place :: places) found

end Search

/-- The files that targets stand for, or the root if there is no target. -/
def files (tree : FileTree) (root : Path) (config : Config) (targets : List Path) :
    Except Fault (List Path) := do
  let extensions := Language.extensionsOf config.languages
  let filter ← PathFilter.ofConfig tree root config
  let starts := if targets.isEmpty then [root] else targets
  let search := starts.foldl (fun search target =>
    (filesOf tree filter extensions target).foldl (Search.take config.maxFiles tree.here) search)
    (.going [] [])
  return search.files

end Discovery

end Scorecard
