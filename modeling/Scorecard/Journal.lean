import Scorecard.Notice

/-!
# Journals

A journal is what a run leaves behind beside its answer: its notices in order, and the names about
which it has warned, so that each is warned about once. When the names reach the limit they are
forgotten and a new block of names begins. A recorded computation keeps its journal when it ends in
a fault.
-/

namespace Scorecard

/-- How many names are remembered at most. -/
def warnedLimit : Nat := 256

/-- The notices of a run and the names about which it has warned. -/
structure Journal where
  /-- The remembered names, oldest first. -/
  warned : List String := []
  /-- The notices, in order. -/
  notices : List Notice := []
deriving DecidableEq

namespace Journal

/-- The journal with one more notice. -/
def record (journal : Journal) (notice : Notice) : Journal :=
  { journal with notices := journal.notices ++ [notice] }

/-- The remembered names after a warning about a name: it joins them, or starts a new block if they
have reached the limit. -/
def remember (warned : List String) (name : String) : List String :=
  if warnedLimit ≤ warned.length then [name] else warned ++ [name]

/-- The journal after a language without a family was met: a name that is remembered leaves no
trace. -/
def warnUnrouted (journal : Journal) (name : String) : Journal :=
  if name ∈ journal.warned then journal
  else
    { warned := remember journal.warned name
      notices := journal.notices ++ [.unroutedLanguage name] }

end Journal

/-- A computation that keeps a journal and may end in a fault. -/
abbrev Recorded := ExceptT Fault (StateM Journal)

namespace Recorded

/-- Runs a computation on a journal. -/
def runOn {α : Type} (computation : Recorded α) (journal : Journal) : Except Fault α × Journal :=
  StateT.run (ExceptT.run computation) journal

/-- Records a notice. -/
def note (notice : Notice) : Recorded Unit :=
  modify (·.record notice)

/-- The answer of a computation without a journal. -/
def ofExcept {α : Type} (answer : Except Fault α) : Recorded α :=
  match answer with
  | .ok value => pure value
  | .error fault => throw fault

end Recorded

end Scorecard
