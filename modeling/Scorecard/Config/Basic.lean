import Scorecard.Language
import Scorecard.Yaml.Writer

/-!
# Configurations

A configuration tells which files are looked at, how languages are sent to families, how many files
and workers there may be, and below which score a run fails. Every field has a default, so a
configuration exists without any file. Its written form names every field.
-/

namespace Scorecard

/-- The settings of a run. -/
structure Config where
  /-- Patterns of files that are looked at. -/
  included : List String := ["."]
  /-- Patterns of files that are left out. -/
  excluded : List String :=
    [".venv", "venv", ".tox", "build", "dist", "node_modules", "vendor", ".git"]
  /-- The languages whose files are looked at. -/
  languages : List String := Language.supported
  languageRoutes : Routes := []
  interviewMode : Bool := false
  /-- The greatest count of files that are taken. -/
  maxFiles : Int := 200
  parallelWorkers : Int := 0
  /-- The score below which a run fails. -/
  failUnder : Option Int := none
deriving DecidableEq

namespace Config

/-- The names of the fields, in the order in which they are written. -/
def keys : List String :=
  ["include", "exclude", "languages", "language_routes", "interview_mode", "max_files",
    "parallel_workers", "fail_under"]

/-- The configuration as a document. -/
def toData (config : Config) : Data :=
  let texts (values : List String) : Data := .list (values.map .text)
  .mapping [
    (.text "include", texts config.included),
    (.text "exclude", texts config.excluded),
    (.text "languages", texts config.languages),
    (.text "language_routes", .mapping (config.languageRoutes.map fun (language, family) =>
      (.text language, .text family))),
    (.text "interview_mode", .bool config.interviewMode),
    (.text "max_files", .int config.maxFiles),
    (.text "parallel_workers", .int config.parallelWorkers),
    (.text "fail_under", (config.failUnder.map Data.int).getD .null)]

/-- The configuration as a text, which fails only for integers with too many digits. -/
def encode (config : Config) : Except Fault String := do
  let maxFiles ← integerText config.maxFiles
  let parallelWorkers ← integerText config.parallelWorkers
  let failUnder ← match config.failUnder with
    | none => pure "null"
    | some threshold => integerText threshold
  return Yaml.encodeFlat [
    ("include", .texts config.included),
    ("exclude", .texts config.excluded),
    ("languages", .texts config.languages),
    ("language_routes", .mapping config.languageRoutes),
    ("interview_mode", .plain (if config.interviewMode then "true" else "false")),
    ("max_files", .plain maxFiles),
    ("parallel_workers", .plain parallelWorkers),
    ("fail_under", .plain failUnder)]

end Config

end Scorecard
