import Scorecard.Config.Merge
import Scorecard.Proofs.Denoted
import Scorecard.Proofs.Journal

/-!
# Merging without a journal

What a document does to a configuration does not depend on what was recorded before. Each field
takes from the document the value under its key, if the field can use it, and stays as it was
otherwise. The faults are those of numbers: an infinity in the place of an integer, and an integer
with too many digits in a list or in the routes. What is noted is known from the values too: a list
that is none, an integer that is none and routes that are no mapping, each under its key; all other
unusable values pass in silence.
-/

namespace Scorecard

/-- The notices about the value under a key. -/
def Entries.noticesAt (entries : Entries) (key : String) (notices : Data → List Notice) :
    List Notice :=
  (entries.get? key).elim [] notices

namespace Config

/-- The texts that a value is for a field. -/
def textsOf? : Data → Option (List String)
  | .list items => some (items.map Data.shown)
  | _ => none

/-- The faults of a value that is taken as a list of texts. -/
def textsFaults : Data → List Fault
  | .list items => items.flatMap Data.textFaults
  | _ => []

/-- The integer that a value is for a field; truth values are none. -/
def integerOf? : Data → Option ℤ
  | .null => none
  | .bool _ => none
  | value => value.integer?

/-- The route that an entry is, unless one of its sides is absent. -/
def routeIn? : Scalar × Data → Option (String × String)
  | (.null, _) => none
  | (_, .null) => none
  | (language, family) =>
      some (Language.fold (Data.scalar language).shown, Language.fold family.shown)

/-- The faults of an entry that is taken as a route. -/
def routeFaults : Scalar × Data → List Fault
  | (.null, _) => []
  | (_, .null) => []
  | (language, family) => (Data.scalar language).textFaults ++ family.textFaults

/-- The routes that a value is for their field. -/
def routesOf? : Data → Option (List (String × String))
  | .mapping entries => some (entries.filterMap routeIn?)
  | _ => none

/-- The faults of a value that is taken as routes. -/
def routesFaults : Data → List Fault
  | .mapping entries => entries.flatMap routeFaults
  | _ => []

/-- The faults of a document, in the order in which it is read. -/
def documentFaults (document : Entries) : List Fault :=
  let list := fun key => document.faultsAt key textsFaults
  let integer := fun key => document.faultsAt key Data.integerFaults
  list "include" ++ (list "exclude" ++ (list "languages" ++
    (document.faultsAt "language_routes" routesFaults ++
      (integer "max_files" ++ (integer "parallel_workers" ++ integer "fail_under")))))

/-- The notices about a value that is taken as a list of texts. -/
def textsNotices (key : String) : Data → List Notice
  | .list _ => []
  | _ => [.keyNotList key]

/-- The notices about a value that is taken as an integer; absent values and truth values have
none. -/
def integerNotices (key : String) : Data → List Notice
  | .null => []
  | .bool _ => []
  | value => if value.integer?.isNone then [.keyNotInteger key] else []

/-- The notices about a value that is taken as routes. -/
def routesNotices : Data → List Notice
  | .mapping _ => []
  | _ => [.routesNotMapping]

/-- The notices about a document, in the order in which it is read. -/
def documentNotices (document : Entries) : List Notice :=
  let list := fun key => document.noticesAt key (textsNotices key)
  let integer := fun key => document.noticesAt key (integerNotices key)
  list "include" ++ (list "exclude" ++ (list "languages" ++
    (document.noticesAt "language_routes" routesNotices ++
      (integer "max_files" ++ (integer "parallel_workers" ++ integer "fail_under")))))

end Config

/-- The configuration after a document, field by field. -/
def MergedConfig.extended (merged : MergedConfig) (document : Entries) : MergedConfig :=
  let base := merged.config
  let list := fun key => document.held? key Config.textsOf?
  let integer := fun key => document.held? key Config.integerOf?
  let included := Config.extendPatterns base.included merged.includeGiven (list "include")
  let excluded := Config.extendPatterns base.excluded merged.excludeGiven (list "exclude")
  { config := {
      included := included.1
      excluded := excluded.1
      languages := (list "languages").getD base.languages
      languageRoutes := Config.extendRoutes base.languageRoutes
        (document.held? "language_routes" Config.routesOf?)
      interviewMode := (Config.truthUnder? document "interview_mode").getD base.interviewMode
      maxFiles := (integer "max_files").getD base.maxFiles
      parallelWorkers := (integer "parallel_workers").getD base.parallelWorkers
      failUnder := (integer "fail_under").or base.failUnder }
    includeGiven := included.2
    excludeGiven := excluded.2 }

namespace Config

open Recorded

theorem listUnder?_leaves (document : Entries) (key : String) :
    Leaves (listUnder? document key) (document.held? key textsOf?)
      (document.faultsAt key textsFaults) (document.noticesAt key (textsNotices key)) := by
  rw [listUnder?, Entries.held?, Entries.faultsAt, Entries.noticesAt]
  cases document.get? key with
  | none => exact .pure none
  | some value =>
      cases value with
      | scalar value => exact (Leaves.note _).bind (.pure none)
      | mapping entries => exact (Leaves.note _).bind (.pure none)
      | list items =>
          have each := Yields.mapM fun item (_ : item ∈ items) => item.display_yields
          exact (Leaves.ofExcept each).map some

theorem integerUnder?_leaves (document : Entries) (key : String) :
    Leaves (integerUnder? document key) (document.held? key integerOf?)
      (document.faultsAt key Data.integerFaults) (document.noticesAt key (integerNotices key)) := by
  have converts : ∀ value : Data, Leaves (do
      let whole ← Recorded.ofExcept value.toInteger?
      if whole.isNone then Recorded.note (.keyNotInteger key)
      return whole) value.integer? value.integerFaults
        (if value.integer?.isNone then [.keyNotInteger key] else []) := by
    intro value
    rw [← List.append_nil value.integerFaults, ← List.nil_append (ite _ _ _)]
    apply (Leaves.ofExcept value.toInteger?_yields).bind
    cases value.integer? with
    | none => exact (Leaves.note _).bind (.pure none)
    | some whole => exact .pure (some whole)
  rw [integerUnder?, Entries.held?, Entries.faultsAt, Entries.noticesAt]
  cases document.get? key with
  | none => exact .pure none
  | some value =>
      have converted := converts value
      cases value with
      | list items => exact converted
      | mapping entries => exact converted
      | scalar value =>
          cases value with
          | null => exact .pure none
          | bool value => exact .pure none
          | int value => exact converted
          | float value => exact converted
          | text value => exact converted
          | octets value => exact converted
          | day value => exact converted
          | moment value => exact converted

theorem routeOf?_yields (entry : Scalar × Data) :
    Yields (routeOf? entry) (routeIn? entry) (routeFaults entry) := by
  fun_cases routeOf? entry with
  | case1 family => rfl
  | case2 language notNull =>
      have absent : routeIn? (language, .null) = none := by simp [routeIn?]
      have silent : routeFaults (language, .null) = [] := by simp [routeFaults]
      rw [absent, silent]
      exact .ok none
  | case3 language family notNull present =>
      have route : routeIn? (language, family) = some (Language.fold (Data.scalar language).shown,
          Language.fold family.shown) := by
        simp [routeIn?]
      have faults : routeFaults (language, family) =
          (Data.scalar language).textFaults ++ family.textFaults := by
        simp [routeFaults]
      rw [route, faults]
      exact (Data.display_yields (.scalar language)).bind (family.display_yields.map _)

theorem routesUnder?_leaves (document : Entries) :
    Leaves (routesUnder? document) (document.held? "language_routes" routesOf?)
      (document.faultsAt "language_routes" routesFaults)
      (document.noticesAt "language_routes" routesNotices) := by
  rw [routesUnder?, Entries.held?, Entries.faultsAt, Entries.noticesAt]
  cases document.get? "language_routes" with
  | none => exact .pure none
  | some value =>
      cases value with
      | scalar value => exact (Leaves.note _).bind (.pure none)
      | list items => exact (Leaves.note _).bind (.pure none)
      | mapping entries =>
          have each := Yields.mapM fun entry (_ : entry ∈ entries) => routeOf?_yields entry
          have whole := (Leaves.ofExcept each).map fun routes => some (routes.filterMap id)
          rw [List.filterMap_map] at whole
          exact whole

end Config

/-- A document extends a configuration and leaves its notices behind, or ends with the first of its
faults. -/
theorem MergedConfig.merge_leaves (merged : MergedConfig) (document : Entries) :
    Recorded.Leaves (merged.merge document) (merged.extended document)
      (Config.documentFaults document) (Config.documentNotices document) := by
  have list := Config.listUnder?_leaves document
  have integer := Config.integerUnder?_leaves document
  have routes := Config.routesUnder?_leaves document
  exact (list "include").bind ((list "exclude").bind ((list "languages").bind (routes.bind
    ((integer "max_files").bind ((integer "parallel_workers").bind
      ((integer "fail_under").map _))))))

end Scorecard
