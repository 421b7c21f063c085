import Scorecard.Data
import Scorecard.FileSystem.Path
import Scorecard.Text.Blank
import Scorecard.Text.Lowercase

/-!
# Languages and rule families

A language is named by a text. Its normal name is stripped, lowered and looked up among the aliases,
so that every spelling of a language has one name. A family is a set of lexical rules; a language
belongs to a family by nature or is routed to one. The first route whose language has the same
normal name decides.
-/

namespace Scorecard

/-- A set of lexical rules. -/
inductive Family where
  | js
  | python
  | cpp
deriving DecidableEq

namespace Family

/-- The name of a family. -/
def name : Family → String
  | .js => "js"
  | .python => "python"
  | .cpp => "cpp"

/-- All families. -/
def all : List Family := [.js, .python, .cpp]

/-- The family with a name. -/
def ofName? (name : String) : Option Family :=
  all.find? (·.name == name)

end Family

/-- Languages and the families they are sent to, one entry for each spelling. -/
abbrev Routes := List (String × String)

namespace Routes

/-- The routes with an entry replaced in its place, or added at the end. -/
def insert : Routes → String → String → Routes
  | [], language, family => [(language, family)]
  | (language', family') :: rest, language, family =>
      if language' = language then (language, family) :: rest
      else (language', family') :: insert rest language family

/-- The routes of a list of pairs, later ones replacing earlier ones. -/
def ofPairs (pairs : List (String × String)) : Routes :=
  pairs.foldl (fun routes pair => routes.insert pair.1 pair.2) []

end Routes

namespace Language

/-- Spellings of languages and the names they stand for. -/
def aliases : List (String × String) :=
  [("py", "python"), ("python", "python"), ("python3", "python"), ("js", "javascript"),
    ("jsx", "javascript"), ("mjs", "javascript"), ("node", "javascript"),
    ("javascript", "javascript"), ("ts", "typescript"), ("tsx", "typescript"),
    ("typescript", "typescript"), ("cpp", "cpp"), ("c++", "cpp"), ("cxx", "cpp"), ("cc", "cpp"),
    ("java", "java")]

/-- The languages with known file extensions. -/
def extensions : List (String × List String) :=
  [("python", [".py"]), ("javascript", [".js", ".jsx", ".mjs"]), ("typescript", [".ts", ".tsx"]),
    ("cpp", [".cpp", ".cc", ".cxx", ".hpp", ".h"]), ("java", [".java"])]

/-- The languages that belong to a family by nature. -/
def families : List (String × Family) :=
  [("javascript", .js), ("typescript", .js), ("python", .python), ("cpp", .cpp)]

/-- The supported languages, in alphabetical order. -/
def supported : List String :=
  ["cpp", "java", "javascript", "python", "typescript"]

/-- A text stripped of white space and in lower case. -/
def fold (text : String) : String :=
  String.ofList (lower (strip text.toList))

/-- The normal name of a language. -/
def normalize (name : String) : String :=
  let key := fold name
  (aliases.lookup key).getD key

/-- The normal names of a list of languages, without empty ones and each at its first appearance. -/
def normalizeAll (names : List String) : List String :=
  (names.map normalize).foldl
    (fun seen name => if name = "" ∨ name ∈ seen then seen else seen ++ [name]) []

/-- The family that a route leads to: a family by its name, or that of a language by nature. -/
def routeTarget? (target : String) : Option Family :=
  let value := fold target
  match Family.ofName? value with
  | some family => some family
  | none => families.lookup (normalize value)

/-- The family of a language; the empty name has none. -/
def family? (name : String) (routes : Routes) : Option Family :=
  if name = "" then none
  else
    let language := normalize name
    match routes.find? fun (key, _) => normalize key = language with
    | some (_, target) => routeTarget? target
    | none => families.lookup language

/-- The family of the language that any value names. -/
def familyOf (language : Data) (routes : Routes) : Except Fault (Option Family) :=
  if language.isTruthy then return family? (← language.display) routes else return none

/-- The text of a language name that may be absent. -/
def nameText (language : Data) : Except Fault String :=
  if language.isTruthy then language.display else return ""

/-- The file extensions of a list of languages, in alphabetical order. -/
def extensionsOf (names : List String) : List String :=
  let all := (normalizeAll names).flatMap fun name => (extensions.lookup name).getD []
  all.mergeSort (fun left right => !(right < left))

/-- The language of a file, by the ending of its name. -/
def ofPath? (path : Path) : Option String :=
  let ending := String.ofList (lower path.suffix.toList)
  (extensions.find? fun (_, endings) => endings.contains ending).map (·.1)

end Language

end Scorecard
