import Mathlib
import Scorecard.Proofs.Config.Loading
import Scorecard.Proofs.Language

/-!
# What all documents make of a configuration

Documents are merged one after the other, but what they make of the default can be read off all of
them at once. Patterns are those of all lists together, and the default if there is no list. Every
other field has the last value that it can use, and its default if there is none. The routes are the
settled ones of all entries. A file without a mapping takes no part in this.

The two flags of a merged configuration tell whether a list of patterns was there, which is what the
choice between the default and the lists depends on: they carry the induction.
-/

namespace Scorecard

namespace Config

/-- What the documents hold under a key, as far as it can be read, in order. -/
def heldBy {α : Type} (documents : List Entries) (key : String) (read : Data → Option α) : List α :=
  documents.filterMap fun document => document.held? key read

/-- The patterns of all lists, or the default ones if there is no list. -/
def joined (patterns : List String) (lists : List (List String)) : List String :=
  if lists = [] then patterns else lists.flatten

/-- The routes that the documents give, spelled as they are loaded, in order. -/
def routesGiven (documents : List Entries) : List (String × String) :=
  (heldBy documents "language_routes" routesOf?).flatten

/-- What all documents together make of the default configuration. -/
def gathered (documents : List Entries) : Config :=
  let default : Config := {}
  { included := joined default.included (heldBy documents "include" textsOf?)
    excluded := joined default.excluded (heldBy documents "exclude" textsOf?)
    languages := (heldBy documents "languages" textsOf?).getLast?.getD default.languages
    languageRoutes := Routes.settled (routesGiven documents)
    interviewMode :=
      (heldBy documents "interview_mode" truthOf?).getLast?.getD default.interviewMode
    maxFiles := (heldBy documents "max_files" integerOf?).getLast?.getD default.maxFiles
    parallelWorkers :=
      (heldBy documents "parallel_workers" integerOf?).getLast?.getD default.parallelWorkers
    failUnder := (heldBy documents "fail_under" integerOf?).getLast? }

section

variable {α : Type} {documents : List Entries} {document : Entries} {key : String}
  {read : Data → Option α}

@[simp]
theorem heldBy_append (before after : List Entries) :
    heldBy (before ++ after) key read = heldBy before key read ++ heldBy after key read := by
  simp [heldBy]

theorem heldBy_singleton : heldBy [document] key read = (document.held? key read).toList := by
  cases held : document.held? key read <;> simp [heldBy, held]

/-- One more value, if there is one, is the last. -/
theorem getLast?_append_toList (values : List α) (more : Option α) :
    (values ++ more.toList).getLast? = more.or values.getLast? := by
  rw [List.getLast?_append]
  cases more <;> rfl

theorem extendPatterns_joined (patterns : List String) (lists : List (List String))
    (added : Option (List String)) :
    extendPatterns (joined patterns lists) (decide (lists ≠ [])) added =
      (joined patterns (lists ++ added.toList), decide (lists ++ added.toList ≠ [])) := by
  cases added with
  | none => simp [extendPatterns]
  | some more =>
      by_cases empty : lists = []
      · simp [extendPatterns, joined, empty]
      · simp [extendPatterns, joined, empty]

@[simp]
theorem routesGiven_append (before after : List Entries) :
    routesGiven (before ++ after) = routesGiven before ++ routesGiven after := by
  simp [routesGiven]

theorem routesGiven_singleton :
    routesGiven [document] = (document.held? "language_routes" routesOf?).getD [] := by
  rw [routesGiven, heldBy_singleton]
  cases document.held? "language_routes" routesOf? <;> simp

theorem extendRoutes_settled (pairs : List (String × String))
    (added : Option (List (String × String))) :
    extendRoutes (Routes.settled pairs) added = Routes.settled (pairs ++ added.getD []) := by
  rw [extendRoutes, ← Routes.ofPairs_eq_settled, ← Routes.ofPairs_eq_settled, Routes.ofPairs,
    Routes.ofPairs, List.foldl_append]

/-- The merged configuration of documents, with the flags that carry the merging on. -/
def gatheredState (documents : List Entries) : MergedConfig where
  config := gathered documents
  includeGiven := decide (heldBy documents "include" textsOf? ≠ [])
  excludeGiven := decide (heldBy documents "exclude" textsOf? ≠ [])

theorem extended_gatheredState (documents : List Entries) (document : Entries) :
    (gatheredState documents).extended document = gatheredState (documents ++ [document]) := by
  simp only [MergedConfig.extended, gatheredState, gathered, extendPatterns_joined,
    extendRoutes_settled, getLast?_append_toList, routesGiven_append, routesGiven_singleton,
    heldBy_append, heldBy_singleton, Option.getD_or, truthUnder?, Entries.held?]

end

theorem foldl_extended_eq_gatheredState (documents : List Entries) :
    documents.foldl MergedConfig.extended {} = gatheredState documents := by
  induction documents using List.reverseRecOn with
  | nil => rfl
  | append_singleton documents document ih =>
      rw [List.foldl_append, ih, List.foldl_cons, List.foldl_nil, extended_gatheredState]

theorem ofDocuments_eq_gathered (documents : List Entries) :
    ofDocuments documents = gathered documents := by
  rw [ofDocuments, foldl_extended_eq_gatheredState, gatheredState]

/-- The mapping in the file at a path; a file that is missing, cannot be read or holds something
else has none. -/
def mappingAt? (tree : FileTree) (path : Path) : Option Entries :=
  if tree.contains path then
    match readDocument tree path with
    | .ok (.mapping entries) => some entries
    | _ => none
  else none

/-- The mappings in the files of a configuration, in order. -/
def mappings (tree : FileTree) (root : Path) (named : Option (List Path)) : List Entries :=
  (paths root named).filterMap (mappingAt? tree)

section

variable {tree : FileTree} {root path : Path} {named : Option (List Path)}

theorem documentAt_eq (tree : FileTree) (path : Path) :
    documentAt tree path = (mappingAt? tree path).getD [] := by
  rw [documentAt, mappingAt?]
  split
  · rcases readDocument tree path with fault | (value | items | entries) <;> rfl
  · rfl

/-- A document without entries leaves every field as it was. -/
theorem extended_nil (merged : MergedConfig) : merged.extended [] = merged := rfl

theorem foldl_documentAt (paths : List Path) (merged : MergedConfig) :
    (paths.map (documentAt tree)).foldl MergedConfig.extended merged =
      (paths.filterMap (mappingAt? tree)).foldl MergedConfig.extended merged := by
  induction paths generalizing merged with
  | nil => rfl
  | cons path paths ih =>
      rw [List.map_cons, List.foldl_cons, ih, documentAt_eq]
      cases found : mappingAt? tree path with
      | none => rw [List.filterMap_cons_none found, Option.getD_none, extended_nil]
      | some entries => rw [List.filterMap_cons_some found, Option.getD_some, List.foldl_cons]

theorem ofDocuments_eq_gathered_mappings :
    ofDocuments (documents tree root named) = gathered (mappings tree root named) := by
  rw [← ofDocuments_eq_gathered, ofDocuments, ofDocuments, documents, foldl_documentAt, mappings]

/-- A file that is merged holds a value, or is passed over. -/
theorem decodes_of_mergeFile {merged next : MergedConfig} {journal : Journal}
    (returned : ((mergeFile tree merged path).runOn journal).1 = .ok next) : Decodes tree path := by
  intro present fault failed
  by_contra notLocal
  rw [mergeFile, if_neg (by simpa using present), failed] at returned
  change ((if isLocalFault fault then _ else throw fault : Recorded MergedConfig).runOn journal).1 =
    _ at returned
  rw [if_neg notLocal] at returned
  cases returned

theorem decodes_of_foldlM {paths : List Path} {merged last : MergedConfig} {journal : Journal}
    (returned : ((paths.foldlM (mergeFile tree) merged).runOn journal).1 = .ok last) :
    ∀ path ∈ paths, Decodes tree path := by
  induction paths generalizing merged journal with
  | nil => simp
  | cons path paths ih =>
      rw [List.foldlM_cons, Recorded.runOn_bind] at returned
      rcases reached : (mergeFile tree merged path).runOn journal with ⟨answer, later⟩
      rw [reached] at returned
      cases answer with
      | error fault => cases returned
      | ok next =>
          have firstReturned : ((mergeFile tree merged path).runOn journal).1 = .ok next := by
            rw [reached]
          exact List.forall_mem_cons.mpr ⟨decodes_of_mergeFile firstReturned, ih returned⟩

/-- Every file of a configuration that is loaded holds a value, or is passed over. -/
theorem decodes_of_load {config : Config} {journal : Journal}
    (returned : ((load tree root named).runOn journal).1 = .ok config) :
    ∀ path ∈ paths root named, Decodes tree path := by
  rw [load] at returned
  split at returned
  · next unnamed =>
      simp only [Bool.and_eq_true, Bool.not_eq_true', Option.isNone_iff_eq_none] at unnamed
      rcases unnamed with ⟨rfl, missing⟩
      simp [paths, Decodes, missing]
  · rw [Recorded.runOn_bind] at returned
    rcases reached : ((paths root named).foldlM (mergeFile tree) {}).runOn journal with
      ⟨answer, later⟩
    rw [reached] at returned
    cases answer with
    | error fault => cases returned
    | ok last =>
        have lastReturned :
            (((paths root named).foldlM (mergeFile tree) {}).runOn journal).1 = .ok last := by
          rw [reached]
        exact decodes_of_foldlM lastReturned

theorem flatMap_documentFaults_documents :
    (documents tree root named).flatMap documentFaults =
      (mappings tree root named).flatMap documentFaults := by
  rw [documents, mappings]
  induction paths root named with
  | nil => rfl
  | cons path paths ih =>
      rw [List.map_cons, List.flatMap_cons, ih, documentAt_eq]
      cases found : mappingAt? tree path with
      | none =>
          rw [List.filterMap_cons_none found]
          rfl
      | some entries => rw [List.filterMap_cons_some found, List.flatMap_cons, Option.getD_some]

/-- A configuration is loaded exactly if all its files hold values or are passed over and no mapping
has a fault, and then it is what all mappings together make of the default. -/
theorem load_returned_iff {config : Config} {journal : Journal} :
    ((load tree root named).runOn journal).1 = .ok config ↔
      (∀ path ∈ paths root named, Decodes tree path) ∧
      (∀ mapping ∈ mappings tree root named, documentFaults mapping = []) ∧
      config = gathered (mappings tree root named) := by
  rw [← List.flatMap_eq_nil_iff, ← flatMap_documentFaults_documents,
    ← ofDocuments_eq_gathered_mappings]
  constructor
  · intro returned
    have decodes := decodes_of_load returned
    exact ⟨decodes, ((load_leaves decodes).gives journal).of_returned returned⟩
  · rintro ⟨decodes, silent, rfl⟩
    exact ((load_leaves decodes).gives journal).returned_iff.mpr silent

end

end Config

end Scorecard
