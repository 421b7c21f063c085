import Scorecard.Config.Basic
import Scorecard.Journal

/-!
# Merging configuration documents

A configuration is built from documents, one after the other. The first list of patterns replaces
the default and later ones are added to it; routes are replaced entry by entry; of every other field
the last usable value counts. A value that a field cannot use leaves the field as it was: lists and
routes of the wrong kind and integers that are none are noted, all else passes in silence.
-/

namespace Scorecard

/-- A configuration together with what the documents so far have set. -/
structure MergedConfig where
  config : Config := {}
  /-- Whether the patterns of files to look at are no longer the default. -/
  includeGiven : Bool := false
  /-- Whether the patterns of files to leave out are no longer the default. -/
  excludeGiven : Bool := false
deriving DecidableEq

namespace Config

/-- The list of texts under a key, each item shown as a text. -/
def listUnder? (document : Entries) (key : String) : Recorded (Option (List String)) := do
  match document.get? key with
  | none => return none
  | some (.list items) => return some (← Recorded.ofExcept (items.mapM Data.display))
  | some _ =>
      Recorded.note (.keyNotList key)
      return none

/-- The integer under a key; the absent value and truth values count as none. -/
def integerUnder? (document : Entries) (key : String) : Recorded (Option Int) := do
  match document.get? key with
  | none => return none
  | some .null => return none
  | some (.bool _) => return none
  | some value =>
      let whole ← Recorded.ofExcept value.toInteger?
      if whole.isNone then Recorded.note (.keyNotInteger key)
      return whole

/-- The words that stand for true. -/
def trueWords : List String := ["true", "yes", "1", "on"]

/-- The words that stand for false. -/
def falseWords : List String := ["false", "no", "0", "off"]

/-- The truth value that a value stands for. -/
def truthOf? : Data → Option Bool
  | .bool value => some value
  | .int value => some (value != 0)
  | .float value => some (!value.isZero)
  | .text value =>
      let word := Language.fold value
      if word ∈ trueWords then some true
      else if word ∈ falseWords then some false
      else none
  | _ => none

/-- The truth value under a key. -/
def truthUnder? (document : Entries) (key : String) : Option Bool :=
  (document.get? key).bind truthOf?

/-- An entry of the routes, stripped and in lower case, unless one of its sides is absent. -/
def routeOf? (entry : Scalar × Data) : Except Fault (Option (String × String)) := do
  match entry with
  | (.null, _) => return none
  | (_, .null) => return none
  | (language, family) =>
      let languageText ← language.display
      let familyText ← family.display
      return some (Language.fold languageText, Language.fold familyText)

/-- The routes under their key. -/
def routesUnder? (document : Entries) : Recorded (Option (List (String × String))) := do
  match document.get? "language_routes" with
  | none => return none
  | some (.mapping entries) =>
      let routes ← Recorded.ofExcept (entries.mapM routeOf?)
      return some (routes.filterMap id)
  | some _ =>
      Recorded.note .routesNotMapping
      return none

/-- A list of patterns after the one of a document: added to what documents gave, in place of the
default. -/
def extendPatterns (patterns : List String) (given : Bool) (added : Option (List String)) :
    List String × Bool :=
  match added with
  | none => (patterns, given)
  | some more => (if given then patterns ++ more else more, true)

/-- The routes with more entries, later ones replacing earlier ones. -/
def extendRoutes (routes : Routes) (added : Option (List (String × String))) : Routes :=
  (added.getD []).foldl (fun routes entry => routes.insert entry.1 entry.2) routes

end Config

/-- The configuration after one more document. -/
def MergedConfig.merge (merged : MergedConfig) (document : Entries) : Recorded MergedConfig := do
  let base := merged.config
  let (included, includeGiven) :=
    Config.extendPatterns base.included merged.includeGiven (← Config.listUnder? document "include")
  let (excluded, excludeGiven) :=
    Config.extendPatterns base.excluded merged.excludeGiven (← Config.listUnder? document "exclude")
  let languages := (← Config.listUnder? document "languages").getD base.languages
  let languageRoutes := Config.extendRoutes base.languageRoutes (← Config.routesUnder? document)
  let interviewMode := (Config.truthUnder? document "interview_mode").getD base.interviewMode
  let maxFiles := (← Config.integerUnder? document "max_files").getD base.maxFiles
  let parallelWorkers :=
    (← Config.integerUnder? document "parallel_workers").getD base.parallelWorkers
  let failUnder := (← Config.integerUnder? document "fail_under").or base.failUnder
  return {
    config := {
      included, excluded, languages, languageRoutes, interviewMode, maxFiles,
      parallelWorkers, failUnder }
    includeGiven
    excludeGiven }

end Scorecard
