import Scorecard.CommandLine.Invocation
import Std.Time.DateTime.Timestamp

/-!
# The program

The outer layer finds the files that a command line may be about, runs the command on them as a
value, and then writes the files that have changed and prints what is to be printed.
-/

namespace Scorecard

namespace Program

/-- The nodes at and below an entry of a directory; what cannot be read is left out. -/
partial def nodesAt (entry : IO.FS.DirEntry) : IO (List (List String × Node)) := do
  let components := (Path.ofString entry.path.toString).components
  try
    let data ← entry.path.metadata
    match data.type with
    | .dir =>
        let below ← (← entry.path.readDir).toList.mapM nodesAt
        return (components, .directory) :: below.flatten
    | .file =>
        let content ← IO.FS.readBinFile entry.path
        return [(components, .file content.toList data.modified.sec)]
    | _ => return []
  catch _ => return []

/-- The nodes at and below an absolute path, and the directories above it. -/
def nodesFrom (path : Path) : IO (List (List String × Node)) := do
  let tops := (List.range path.components.length).map fun count =>
    { path with components := path.components.take count : Path }
  let mut above : List (List String × Node) := []
  for directory in tops do
    if ← (← IO.FS.realPath directory.display).isDir then
      above := above ++ [(directory.components, .directory)]
  return above ++ (← nodesAt { root := path.parent.display, fileName := path.name })

/-- The paths that a command line may be about. -/
def mentioned (here : Path) (arguments : List String) : List Path :=
  let texts := arguments.flatMap fun word =>
    [word, String.ofList ((word.toList.dropWhile (· != '=')).drop 1)]
  let paths := (texts.filter (· != "")).map fun text => (Path.ofString text).resolve here
  let outside := paths.filter fun path => (path.below? here).isNone && !path.components.isEmpty
  here :: outside.eraseDups

/-- The files that a command line may be about. -/
def treeFor (here : Path) (arguments : List String) : IO FileTree := do
  let nodes ← (mentioned here arguments).mapM nodesFrom
  return { workingDirectory := here.components, nodes := nodes.flatten }

/-- Writes the nodes that a command has changed. -/
def writeChanges (before after : FileTree) : IO Unit := do
  for (components, node) in after.nodes do
    if before.nodes.lookup components != some node then
      let path : Path := { anchor := .root, components }
      match node with
      | .directory => IO.FS.createDirAll path.display
      | .file content _ => IO.FS.writeBinFile path.display content.toByteArray

/-- Whether a word asks for the standard input. -/
def asksForInput (word : String) : Bool :=
  word == inputTarget || word.endsWith ("=" ++ inputTarget)

/-- Runs a command line and gives the number with which the program ends. -/
def run (arguments : List String) : IO UInt32 := do
  let here := Path.ofString (← IO.currentDir).toString
  let input ← if arguments.any asksForInput then (← IO.getStdin).readBinToEnd else pure .empty
  let now ← Std.Time.Timestamp.now
  let tree ← treeFor here arguments
  let surroundings : Surroundings :=
    { input := input.toList, now := now.toSecondsSinceUnixEpoch.val }
  let outcome := CommandLine.invoke surroundings { tree } arguments
  writeChanges tree outcome.session.tree
  IO.print outcome.session.output
  IO.eprint outcome.log
  if let some complaint := outcome.complaint then IO.eprintln complaint
  match outcome.ending with
  | .ok code => return code.toUInt32
  | .error fault =>
      IO.eprintln fault.message
      return 1

end Program

end Scorecard

/-- Runs the program. -/
def main (arguments : List String) : IO UInt32 :=
  Scorecard.Program.run arguments
