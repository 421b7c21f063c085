import Scorecard.FileSystem.Tree
import Scorecard.Journal

/-!
# Sessions

A session is what a command works on: the files, the journal and what has been printed. A command
also finds an input and a time, which it does not change. What a command did before it ended in a
fault stays done.
-/

namespace Scorecard

/-- What a command finds and does not change. -/
structure Surroundings where
  /-- The octets of the standard input. -/
  input : List UInt8
  /-- The time, in seconds since the start of 1970. -/
  now : Int
deriving DecidableEq

/-- What a command works on. -/
structure Session where
  tree : FileTree
  journal : Journal := {}
  /-- The text that has been printed. -/
  output : String := ""
deriving DecidableEq

/-- A computation on a session that may end in a fault. -/
abbrev Action := ExceptT Fault (StateM Session)

namespace Action

/-- Runs a computation on a session. -/
def runOn {α : Type} (action : Action α) (session : Session) : Except Fault α × Session :=
  StateT.run (ExceptT.run action) session

/-- The answer of a computation without a session. -/
def ofExcept {α : Type} (answer : Except Fault α) : Action α :=
  match answer with
  | .ok value => pure value
  | .error fault => throw fault

/-- Runs a computation on the journal of the session. -/
def ofRecorded {α : Type} (computation : Recorded α) : Action α := do
  let session ← get
  let (answer, journal) := computation.runOn session.journal
  set { session with journal }
  ofExcept answer

/-- Records a notice. -/
def note (notice : Notice) : Action Unit :=
  ofRecorded (Recorded.note notice)

/-- The files. -/
def tree : Action FileTree := do
  return (← get).tree

/-- Prints a text and ends the line. -/
def print (text : String) : Action Unit :=
  modify fun session => { session with output := session.output ++ text ++ "\n" }

/-- Puts changed files in place of the files. -/
def replaceTree (changed : Except Fault FileTree) : Action Unit := do
  let tree ← ofExcept changed
  modify fun session => { session with tree }

/-- Writes a text to the file at a path, with the directories above it. -/
def writeText (path : Path) (text : String) (time : Int) : Action Unit := do
  replaceTree ((← tree).writeText path text time)

end Action

end Scorecard
