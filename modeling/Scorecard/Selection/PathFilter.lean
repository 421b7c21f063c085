import Scorecard.Config.Basic
import Scorecard.FileSystem.Tree
import Scorecard.Selection.PathRule

/-!
# Path filters

A filter keeps the paths below its root that the patterns of a configuration include, do not
exclude, and that the file of ignore rules does not name. The patterns of a configuration are taken
from the root and written more freely than rules: a plain name without an ending stands for all
below that directory.
-/

namespace Scorecard

/-- Whether a text holds a wildcard. -/
def hasWildcard (text : List Char) : Bool :=
  text.any fun c => c == '*' || c == '?' || c == '['

/-- The rule that a pattern of a configuration stands for; the empty text is no rule. -/
def normalizePattern (pattern : List Char) : List Char :=
  let stripped := strip pattern
  if stripped.isEmpty ∨ stripped.head? = some '#' then
    []
  else
    let slashed := stripped.map fun c => if c = '\\' then '/' else c
    let fromHere := (dropStart? ['.', '/'] slashed).getD slashed
    let path := fromHere.dropWhile (· == '/')
    if path.isEmpty ∨ path = ['.'] then
      ['*', '*']
    else if path.getLast? = some '/' then
      path ++ ['*', '*']
    else if !hasWildcard path && (Path.ofString (String.ofList path)).suffix == "" then
      path ++ ['/', '*', '*']
    else
      path

/-- What decides which paths below a root are kept. -/
structure PathFilter where
  root : Path
  included : List PathRule
  excluded : List PathRule
  /-- The rules of the file of ignore rules. -/
  ignored : List PathRule
deriving DecidableEq

namespace PathFilter

/-- The name of the file of ignore rules. -/
def ignoreFileName : String := ".devscoreignore"

/-- The rules of the patterns of a configuration. -/
def rulesOf (patterns : List String) : Except Fault (List PathRule) :=
  PathRule.ofLines
    ((patterns.map fun pattern => normalizePattern pattern.toList).filter (!·.isEmpty))

/-- The rules of the file of ignore rules; one that cannot be read has none. -/
def ignoreRules (tree : FileTree) (root : Path) : Except Fault (List PathRule) :=
  match tree.readText (root.child ignoreFileName) with
  | .ok text => PathRule.ofLines (splitAllLines text)
  | .error fault => if fault.isFileProblem then .ok [] else .error fault

/-- The filter of a configuration. Without patterns of what to include, all is included. -/
def ofConfig (tree : FileTree) (root : Path) (config : Config) : Except Fault PathFilter := do
  let included ← rulesOf (if config.included.isEmpty then ["."] else config.included)
  let excluded ← rulesOf config.excluded
  let ignored ← ignoreRules tree root
  return { root, included, excluded, ignored }

/-- Whether the filter keeps a path, for paths that start in the given directory. -/
def keeps (filter : PathFilter) (directory path : Path) : Bool :=
  match (path.resolve directory).below? (filter.root.resolve directory) with
  | none => false
  | some relative =>
      let text := relative.display.toList
      PathRule.selects filter.included text && !PathRule.selects filter.excluded text &&
        !PathRule.selects filter.ignored text

end PathFilter

end Scorecard
