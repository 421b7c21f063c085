import Scorecard.Config.Loading

/-!
# Checking configurations

A check finds everything in a configuration document that is not as it should be: unknown keys,
values of the wrong kind, languages that are not supported, routes that lead to no family, and
numbers out of their range. A document without a finding is loaded as it is written.
-/

namespace Scorecard

/-- Something in a configuration document that is not as it should be. -/
inductive Finding where
  | unknownKey (key : String)
  | notTexts (key : String)
  | unsupportedLanguages (names : List String)
  | routesNotMapping
  | routeNotTexts
  | unknownFamily (language family : String)
  | notBoolean (key : String)
  | notInteger (key : String)
  | tooSmall (key : String) (least : Int)
  | tooLarge (key : String) (greatest : Int)
deriving DecidableEq

/-- The wording of a finding. -/
def Finding.message : Finding → String
  | .unknownKey key => s!"Unknown key: {key}"
  | .notTexts key => s!"{key} must be a list of strings"
  | .unsupportedLanguages names =>
      "languages contains unsupported values: " ++ ", ".intercalate names
  | .routesNotMapping => "language_routes must be a mapping of language to family"
  | .routeNotTexts => "language_routes keys and values must be strings"
  | .unknownFamily language family =>
      s!"language_routes.{language} routes to unknown family " ++
        s!"{String.ofList (quoted family.toList)} (expected one of: " ++
        ", ".intercalate (Family.all.map Family.name) ++ ")"
  | .notBoolean key => s!"{key} must be a boolean"
  | .notInteger key => s!"{key} must be an integer"
  | .tooSmall key least => s!"{key} must be >= {least}"
  | .tooLarge key greatest => s!"{key} must be <= {greatest}"

namespace Config

/-- The texts of a list that holds nothing else. -/
def texts? : Data → Option (List String)
  | .list items => items.mapM fun item =>
      match item with
      | .text value => some value
      | _ => none
  | _ => none

/-- The findings about the keys of a document. -/
def checkKeys (document : Entries) : Except Fault (List Finding) := do
  let unknown := document.filter fun (key, _) =>
    match key with
    | .text name => !keys.contains name
    | _ => true
  unknown.mapM fun (key, _) => do return .unknownKey (← key.display)

/-- The findings about a list of texts. -/
def checkTexts (document : Entries) (key : String) : List Finding :=
  match document.get? key with
  | none => []
  | some value => if (texts? value).isSome then [] else [.notTexts key]

/-- The findings about the languages. -/
def checkLanguages (document : Entries) : List Finding :=
  match document.get? "languages" with
  | none => []
  | some value =>
      match texts? value with
      | none => [.notTexts "languages"]
      | some names =>
          let unsupported :=
            (Language.normalizeAll names).filter fun name => !Language.supported.contains name
          if unsupported.isEmpty then [] else [.unsupportedLanguages unsupported]

/-- The findings about an entry of the routes: its target must be a family, or a language that
belongs to one. -/
def checkRoute : Scalar × Data → List Finding
  | (.text language, .text family) =>
      let target := Language.fold family
      let isFamily := (Family.all.map Family.name).contains target
      let isLanguage := (Language.families.map Prod.fst).contains (Language.normalize target)
      if isFamily || isLanguage then [] else [.unknownFamily language family]
  | _ => [.routeNotTexts]

/-- The findings about the routes. -/
def checkRoutes (document : Entries) : List Finding :=
  match document.get? "language_routes" with
  | none => []
  | some .null => []
  | some (.mapping entries) => entries.flatMap checkRoute
  | some _ => [.routesNotMapping]

/-- The findings about a truth value that may be absent. -/
def checkBoolean (document : Entries) (key : String) : List Finding :=
  match document.get? key with
  | none => []
  | some .null => []
  | some (.bool _) => []
  | some _ => [.notBoolean key]

/-- The findings about an integer that may be absent and must not be less than a bound. -/
def checkInteger (document : Entries) (key : String) (least : Int) : List Finding :=
  match document.get? key with
  | none => []
  | some .null => []
  | some (.int value) => if value < least then [.tooSmall key least] else []
  | some _ => [.notInteger key]

/-- The findings about the upper bound of an integer. -/
def checkAtMost (document : Entries) (key : String) (greatest : Int) : List Finding :=
  match document.get? key with
  | some (.int value) => if greatest < value then [.tooLarge key greatest] else []
  | _ => []

/-- Everything in a document that is not as it should be. -/
def check (document : Entries) : Except Fault (List Finding) := do
  let unknown ← checkKeys document
  return unknown ++ checkTexts document "include" ++ checkTexts document "exclude" ++
    checkLanguages document ++ checkRoutes document ++ checkBoolean document "interview_mode" ++
    checkInteger document "max_files" 1 ++ checkInteger document "parallel_workers" 0 ++
    checkInteger document "fail_under" 0 ++ checkAtMost document "fail_under" 100

/-- What a check of the file at a path reports. -/
def checkFile (tree : FileTree) (path : Path) : Except Fault (List String) := do
  let line (report : String) := s!"{path.display}: {report}"
  if !tree.contains path then
    return [line "not found"]
  match readDocument tree path with
  | .ok (.mapping entries) => return (← check entries).map fun finding => line finding.message
  | .ok _ => return [line "config must be a mapping"]
  | .error fault =>
      if isLocalFault fault then return [line s!"failed to parse ({fault.message})"]
      else throw fault

/-- What a check of several files reports. -/
def checkFiles (tree : FileTree) (paths : List Path) : Except Fault (List String) := do
  return (← paths.mapM (checkFile tree)).flatten

end Config

end Scorecard
