import Scorecard.Config.Merge
import Scorecard.FileSystem.Tree
import Scorecard.Yaml.Reader

/-!
# Loading configurations

A configuration is loaded from one file of a fixed name, or from files that are named. A file that
does not exist, cannot be read or holds no mapping contributes nothing and is noted, except that the
file of the fixed name may be missing without a word.
-/

namespace Scorecard

namespace Config

/-- The name of the file that is looked for if none is named. -/
def fileName : String := ".devscore.yml"

/-- The files that a configuration is loaded from; paths that are named are taken from the root. -/
def paths (root : Path) (named : Option (List Path)) : List Path :=
  match named with
  | none => [root.child fileName]
  | some named => named.map root.join

/-- The document in a configuration file; one that counts as false is an empty mapping. -/
def readDocument (tree : FileTree) (path : Path) : Except Fault Data := do
  let document ← Yaml.decode (← tree.readText path)
  return if document.isTruthy then document else .mapping []

/-- Whether a fault in reading a file concerns this file alone, so that the others still count. -/
def isLocalFault (fault : Fault) : Bool :=
  fault.isFileProblem || fault == .malformedYaml

/-- The configuration after the file at a path. -/
def mergeFile (tree : FileTree) (merged : MergedConfig) (path : Path) : Recorded MergedConfig := do
  if !tree.contains path then
    Recorded.note (.missingConfig path.display)
    return merged
  match readDocument tree path with
  | .ok (.mapping entries) => merged.merge entries
  | .ok _ =>
      Recorded.note (.configNotMapping path.display)
      return merged
  | .error fault =>
      if isLocalFault fault then
        Recorded.note (.unreadableConfig path.display fault)
        return merged
      else
        throw fault

/-- The configuration of a run: from the named files, or from the file of the fixed name if it
exists. -/
def load (tree : FileTree) (root : Path) (named : Option (List Path)) : Recorded Config := do
  if named.isNone && !tree.contains (root.child fileName) then
    return {}
  else
    return (← (paths root named).foldlM (mergeFile tree) {}).config

end Config

end Scorecard
