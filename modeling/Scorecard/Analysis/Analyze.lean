import Scorecard.Analysis.Rules
import Scorecard.FileSystem.Tree
import Scorecard.Journal

/-!
# Analysing code

Code is analysed by the rules of its language's family. A language without a family gives no counts,
and its normal name is warned about once. The code may be any value: octets are read as UTF-8 as far
as they are UTF-8, an absent value is the empty text, and all else stands for the text that shows
it.
-/

namespace Scorecard

/-- The text of a value that stands for code. -/
def codeText (code : Data) : Except Fault (List Char) :=
  match code with
  | .scalar .null => .ok []
  | .scalar (.text text) => .ok text.toList
  | .scalar (.octets octets) => .ok (Utf8.decodeReplacing octets)
  | other => do return (← other.display).toList

/-- The name under which a language without a family is warned about. -/
def unroutedName (language : Data) : Except Fault String := do
  let name := Language.normalize (← Language.nameText language)
  return if name = "" then "<none>" else name

/-- The metrics of a piece of code in a language. -/
def analyze (code language : Data) (routes : Routes) : Recorded Metrics := do
  match ← Recorded.ofExcept (Language.familyOf language routes) with
  | none =>
      let name ← Recorded.ofExcept (unroutedName language)
      modify (·.warnUnrouted name)
      return .zero
  | some family =>
      let text ← Recorded.ofExcept (codeText code)
      return family.rules.analyze text

/-- The language of a file: the one that is given, or else the one that its name tells. -/
def languageOfFile (path : Path) (language : Option String) : Data :=
  match language.filter (· != "") with
  | some name => .text name
  | none =>
      match Language.ofPath? path with
      | some name => .text name
      | none => .null

/-- The metrics of a source file; one that cannot be read has none, which is noted. -/
def analyzeFile (tree : FileTree) (path : Path) (language : Option String) (routes : Routes) :
    Recorded Metrics := do
  match tree.readTextReplacing path with
  | .ok text => analyze (.text (String.ofList text)) (languageOfFile path language) routes
  | .error fault =>
      if fault.isFileProblem then
        Recorded.note (.unreadableSource path.display fault)
        return .zero
      else
        throw fault

end Scorecard
