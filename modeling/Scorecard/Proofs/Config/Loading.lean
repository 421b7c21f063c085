import Scorecard.Config.Loading
import Scorecard.Proofs.Config.Merge
import Scorecard.Proofs.Equality

/-!
# Loading any documents

A file that is missing, cannot be read or holds no mapping counts as an empty document, and a
configuration is what its documents make of the default, one after the other. A value that a field
cannot use leaves the field as if its key were absent. So any documents have a configuration, and it
is loaded unless a number stands in the way: an infinity in the place of an integer, or an integer
that is too long to be written in a list or in the routes.
-/

namespace Scorecard

namespace Config

open Recorded

/-- The document in the file at a path; whatever is no mapping counts as an empty one. -/
def documentAt (tree : FileTree) (path : Path) : Entries :=
  if tree.contains path then
    match readDocument tree path with
    | .ok (.mapping entries) => entries
    | _ => []
  else []

/-- The documents of a configuration, in order. -/
def documents (tree : FileTree) (root : Path) (named : Option (List Path)) : List Entries :=
  (paths root named).map (documentAt tree)

/-- The configuration of documents. -/
def ofDocuments (documents : List Entries) : Config :=
  (documents.foldl MergedConfig.extended {}).config

/-- The file at a path holds a value, or is passed over. -/
def Decodes (tree : FileTree) (path : Path) : Prop :=
  tree.contains path = true →
    ∀ fault, readDocument tree path = .error fault → isLocalFault fault = true

theorem decodes_of_readDocument {tree : FileTree} {path : Path} {data : Data}
    (read : readDocument tree path = .ok data) : Decodes tree path := by
  intro _ fault failed
  rw [read] at failed
  cases failed

variable {tree : FileTree} {root path : Path} {named : Option (List Path)}

/-- The notices about the file at a path, unless its document has a fault. -/
def fileNotices (tree : FileTree) (path : Path) : List Notice :=
  if tree.contains path then
    match readDocument tree path with
    | .ok (.mapping entries) => documentNotices entries
    | .ok _ => [.configNotMapping path.display]
    | .error fault => [.unreadableConfig path.display fault]
  else [.missingConfig path.display]

/-- The notices about a configuration: the file of the fixed name may be missing without one. -/
def loadNotices (tree : FileTree) (root : Path) (named : Option (List Path)) : List Notice :=
  if named.isNone && !tree.contains (root.child fileName) then []
  else (paths root named).flatMap (fileNotices tree)

theorem mergeFile_leaves (decodes : Decodes tree path) (merged : MergedConfig) :
    Leaves (mergeFile tree merged path) (merged.extended (documentAt tree path))
      (documentFaults (documentAt tree path)) (fileNotices tree path) := by
  rw [mergeFile, documentAt, fileNotices]
  by_cases present : tree.contains path = true
  · rw [if_pos present, if_pos present, if_neg (by simpa using present)]
    cases found : readDocument tree path with
    | error fault =>
        have passed := decodes present fault found
        change Leaves (if isLocalFault fault then _ else _) _ _ _
        rw [if_pos passed]
        exact (Leaves.note _).bind (.pure merged)
    | ok data =>
        cases data with
        | scalar value => exact (Leaves.note _).bind (.pure merged)
        | list items => exact (Leaves.note _).bind (.pure merged)
        | mapping entries => exact merged.merge_leaves entries
  · rw [if_neg present, if_neg present, if_pos (by simpa using present)]
    exact (Leaves.note _).bind (.pure merged)

theorem load_leaves (decodes : ∀ path ∈ paths root named, Decodes tree path) :
    Leaves (load tree root named) (ofDocuments (documents tree root named))
      ((documents tree root named).flatMap documentFaults) (loadNotices tree root named) := by
  have merged := Leaves.foldlM (fun state path mem => mergeFile_leaves (decodes path mem) state) {}
  rw [load, loadNotices, ofDocuments, documents, List.foldl_map, List.flatMap_map]
  split
  · next unnamed =>
      simp only [Bool.and_eq_true, Bool.not_eq_true', Option.isNone_iff_eq_none] at unnamed
      rcases unnamed with ⟨rfl, missing⟩
      have empty : documentAt tree (root.child fileName) = [] := by simp [documentAt, missing]
      simp only [paths, List.foldl_cons, List.foldl_nil, List.flatMap_cons, List.flatMap_nil, empty]
      exact .pure _
  · exact merged.map MergedConfig.config

/-- A configuration of a single file that holds a mapping without faults is loaded from this
mapping. -/
theorem load_single {document : Entries} (only : paths root named = [path])
    (present : tree.contains path = true) (read : readDocument tree path = .ok (.mapping document))
    (silent : documentFaults document = []) :
    Returns (load tree root named) (ofDocuments [document]) (documentNotices document) := by
  have decodes : ∀ other ∈ paths root named, Decodes tree other := by
    rw [only, List.forall_mem_singleton]
    exact decodes_of_readDocument read
  have held : documents tree root named = [document] := by
    rw [documents, only, List.map_singleton, documentAt, if_pos present, read]
  have there : ¬(named.isNone && !tree.contains (root.child fileName)) = true := by
    cases named with
    | some named => simp
    | none =>
        have same : root.child fileName = path := List.singleton_inj.mp only
        rw [same, present]
        decide
  have noted : loadNotices tree root named = documentNotices document := by
    rw [loadNotices, if_neg there, only, List.flatMap_singleton, fileNotices, if_pos present, read]
  have leaves := load_leaves decodes
  rw [held, noted, List.flatMap_singleton] at leaves
  exact leaves.returns silent

/-- The field of a key can use the value. -/
def Usable (value : Data) : String → Prop
  | "include" | "exclude" | "languages" => ∃ items, value = .list items
  | "language_routes" => ∃ entries, value = .mapping entries
  | "interview_mode" => ∃ truth, truthOf? value = some truth
  | _ => ∃ whole, integerOf? value = some whole

/-- One document is another one without some of the keys whose values cannot be used. -/
def Drops (document other : Entries) : Prop :=
  ∀ key ∈ keys, other.get? key = document.get? key ∨
    other.get? key = none ∧ ∀ value, document.get? key = some value → ¬Usable value key

section

variable {document other : Entries} {key : String}

theorem Drops.first {value : Data} {rest : Entries} (absent : rest.get? key = none)
    (unusable : ¬Usable value key) : Drops ((.text key, value) :: rest) rest := by
  intro other _
  by_cases same : key = other
  · subst same
    refine .inr ⟨absent, ?_⟩
    intro found held
    simp only [Entries.get?, Entries.find?, List.find?_cons, Scalar.sameKey_text, decide_true,
      Option.map_some, Option.some.injEq] at held
    rwa [← held]
  · left
    simp [Entries.get?, Entries.find?, Scalar.sameKey_text, same]

/-- If a field reads nothing from values that it cannot use, it does not see what was dropped. -/
theorem Drops.held?_eq {α : Type} {read : Data → Option α} (drops : Drops document other)
    (known : key ∈ keys) (reads : ∀ value found, read value = some found → Usable value key) :
    other.held? key read = document.held? key read := by
  rw [Entries.held?, Entries.held?]
  rcases drops key known with same | ⟨absent, unusable⟩
  · rw [same]
  · rw [absent]
    cases found : document.get? key with
    | none => rfl
    | some value =>
        cases taken : read value with
        | none => exact taken.symm
        | some result => exact absurd (reads value result taken) (unusable value found)

/-- What was dropped is no fault. -/
theorem Drops.faultsAt_sublist {faults : Data → List Fault} (drops : Drops document other)
    (known : key ∈ keys) : (other.faultsAt key faults).Sublist (document.faultsAt key faults) := by
  rw [Entries.faultsAt, Entries.faultsAt]
  rcases drops key known with same | ⟨absent, _⟩
  · rw [same]
  · rw [absent]
    exact List.nil_sublist _

theorem usable_of_textsOf? {value : Data} {texts : List String}
    (taken : textsOf? value = some texts) : ∃ items, value = .list items := by
  cases value with
  | scalar value => cases taken
  | mapping entries => cases taken
  | list items => exact ⟨items, rfl⟩

theorem usable_of_routesOf? {value : Data} {routes : List (String × String)}
    (taken : routesOf? value = some routes) : ∃ entries, value = .mapping entries := by
  cases value with
  | scalar value => cases taken
  | list items => cases taken
  | mapping entries => exact ⟨entries, rfl⟩

/-- A document without some of its unusable values does the same to a configuration. -/
theorem Drops.extended_eq (drops : Drops document other) (merged : MergedConfig) :
    merged.extended other = merged.extended document := by
  have included : other.held? "include" textsOf? = document.held? "include" textsOf? :=
    drops.held?_eq (by decide) fun value texts => usable_of_textsOf?
  have excluded : other.held? "exclude" textsOf? = document.held? "exclude" textsOf? :=
    drops.held?_eq (by decide) fun value texts => usable_of_textsOf?
  have languages : other.held? "languages" textsOf? = document.held? "languages" textsOf? :=
    drops.held?_eq (by decide) fun value texts => usable_of_textsOf?
  have routes :
      other.held? "language_routes" routesOf? = document.held? "language_routes" routesOf? :=
    drops.held?_eq (by decide) fun value routes => usable_of_routesOf?
  have interviewMode : truthUnder? other "interview_mode" = truthUnder? document "interview_mode" :=
    drops.held?_eq (by decide) fun value truth taken => ⟨truth, taken⟩
  have maxFiles : other.held? "max_files" integerOf? = document.held? "max_files" integerOf? :=
    drops.held?_eq (by decide) fun value whole taken => ⟨whole, taken⟩
  have parallelWorkers :
      other.held? "parallel_workers" integerOf? = document.held? "parallel_workers" integerOf? :=
    drops.held?_eq (by decide) fun value whole taken => ⟨whole, taken⟩
  have failUnder : other.held? "fail_under" integerOf? = document.held? "fail_under" integerOf? :=
    drops.held?_eq (by decide) fun value whole taken => ⟨whole, taken⟩
  simp only [MergedConfig.extended, included, excluded, languages, routes, interviewMode, maxFiles,
    parallelWorkers, failUnder]

theorem Drops.documentFaults_sublist (drops : Drops document other) :
    (documentFaults other).Sublist (documentFaults document) := by
  have each : ∀ key ∈ keys, ∀ faults : Data → List Fault,
      (other.faultsAt key faults).Sublist (document.faultsAt key faults) :=
    fun key known faults => drops.faultsAt_sublist known
  rw [documentFaults, documentFaults]
  apply (each "include" (by decide) _).append
  apply (each "exclude" (by decide) _).append
  apply (each "languages" (by decide) _).append
  apply (each "language_routes" (by decide) _).append
  apply (each "max_files" (by decide) _).append
  apply (each "parallel_workers" (by decide) _).append
  exact each "fail_under" (by decide) _

variable {before after : List Entries}

/-- Documents without some of their unusable values do the same to a configuration. -/
theorem foldl_extended_eq (drops : List.Forall₂ Drops before after) (merged : MergedConfig) :
    after.foldl MergedConfig.extended merged = before.foldl MergedConfig.extended merged := by
  induction drops generalizing merged with
  | nil => rfl
  | cons first _ ih => rw [List.foldl_cons, List.foldl_cons, first.extended_eq, ih]

theorem flatMap_documentFaults_sublist (drops : List.Forall₂ Drops before after) :
    (after.flatMap documentFaults).Sublist (before.flatMap documentFaults) := by
  induction drops with
  | nil => exact .slnil
  | cons first _ ih => exact first.documentFaults_sublist.append ih

end

section

variable {document : Entries} {fault : Fault}

theorem explains_of_mem_textsFaults (value : Data) (mem : fault ∈ textsFaults value) :
    value.Explains fault := by
  cases value with
  | scalar value => cases mem
  | mapping entries => cases mem
  | list items =>
      rcases List.mem_flatMap.mp mem with ⟨item, itemMem, mem⟩
      exact .item itemMem (Data.explains_of_mem_textFaults _ mem)

theorem explains_of_mem_routesFaults (value : Data) (mem : fault ∈ routesFaults value) :
    value.Explains fault := by
  cases value with
  | scalar value => cases mem
  | list items => cases mem
  | mapping entries =>
      rcases List.mem_flatMap.mp mem with ⟨entry, entryMem, mem⟩
      rw [routeFaults.eq_def] at mem
      split at mem
      · cases mem
      · cases mem
      · next language family _ _ =>
          rcases List.mem_append.mp mem with mem | mem
          · exact .key entryMem (Data.explains_of_mem_textFaults _ mem)
          · exact .entry entryMem (Data.explains_of_mem_textFaults _ mem)

/-- Every fault of a document is about a number in it. -/
theorem explains_of_mem_documentFaults (mem : fault ∈ documentFaults document) :
    (Data.mapping document).Explains fault := by
  simp only [documentFaults, List.mem_append] at mem
  rcases mem with mem | mem | mem | mem | mem | mem | mem
  · exact Entries.explains_of_mem_faultsAt explains_of_mem_textsFaults mem
  · exact Entries.explains_of_mem_faultsAt explains_of_mem_textsFaults mem
  · exact Entries.explains_of_mem_faultsAt explains_of_mem_textsFaults mem
  · exact Entries.explains_of_mem_faultsAt explains_of_mem_routesFaults mem
  · exact Entries.explains_of_mem_faultsAt Data.explains_of_mem_integerFaults mem
  · exact Entries.explains_of_mem_faultsAt Data.explains_of_mem_integerFaults mem
  · exact Entries.explains_of_mem_faultsAt Data.explains_of_mem_integerFaults mem

end

theorem documents_drop {other : FileTree}
    (drops : ∀ path ∈ paths root named, Drops (documentAt tree path) (documentAt other path)) :
    List.Forall₂ Drops (documents tree root named) (documents other root named) := by
  rw [documents, documents, List.forall₂_map_left_iff, List.forall₂_map_right_iff]
  exact List.forall₂_same.mpr drops

/-- Whatever values the files of a configuration hold, it is loaded as what the documents make of
the default, unless a document has a fault: then the first fault is the answer. The fault is about
an infinity or an integer that is too long to be written. Of a configuration that is loaded, values
that their fields cannot use may be dropped from any of the files, and the same configuration is
loaded. -/
theorem load_tolerated (decodes : ∀ path ∈ paths root named, Decodes tree path) :
    Gives (load tree root named) (ofDocuments (documents tree root named))
        ((documents tree root named).flatMap documentFaults) ∧
      (∀ document ∈ documents tree root named, ∀ fault ∈ documentFaults document,
        (Data.mapping document).Explains fault) ∧
      ∀ other, (∀ path ∈ paths root named,
          Decodes other path ∧ Drops (documentAt tree path) (documentAt other path)) →
        ofDocuments (documents other root named) = ofDocuments (documents tree root named) ∧
        ∀ config journal later, ((load tree root named).runOn journal).1 = .ok config →
          ((load other root named).runOn later).1 = .ok config := by
  have loaded := (load_leaves decodes).gives
  refine ⟨loaded, fun document _ fault mem => explains_of_mem_documentFaults mem, ?_⟩
  intro other without
  have drops := documents_drop fun path mem => (without path mem).2
  have same : ofDocuments (documents other root named) = ofDocuments (documents tree root named) :=
    congrArg MergedConfig.config (foldl_extended_eq drops {})
  refine ⟨same, ?_⟩
  intro config journal later returned
  rcases (loaded journal).of_returned returned with ⟨silent, rfl⟩
  have faultless := flatMap_documentFaults_sublist drops
  rw [silent, List.sublist_nil] at faultless
  have reloaded := (load_leaves fun path mem => (without path mem).1).gives
  rw [← same]
  exact (reloaded later).returned_iff.mpr faultless

/-- A tree with a configuration file of the given text. -/
def treeWith (text : String) : FileTree :=
  ⟨[], [([fileName], .file (Utf8.encode text.toList) 0)]⟩

/-- A list is no count, so a file with one is as a file without it. -/
theorem load_tolerated_listForCount :
    ∃ tree other, documents tree (.ofString ".") none =
        [[(.text "max_files", .list []), (.text "fail_under", .int 70)]] ∧
      documents other (.ofString ".") none = [[(.text "fail_under", .int 70)]] ∧
      ((load tree (.ofString ".") none).runOn {}).1 = .ok { failUnder := some 70 } ∧
      ((load other (.ofString ".") none).runOn {}).1 = .ok { failUnder := some 70 } := by
  let tree := treeWith "max_files: []\nfail_under: 70\n"
  let other := treeWith "fail_under: 70\n"
  have only : ∀ path ∈ paths (.ofString ".") none, path = .ofString ".devscore.yml" := by
    decide +kernel
  have read : readDocument tree (.ofString ".devscore.yml") =
      .ok (.mapping [(.text "max_files", .list []), (.text "fail_under", .int 70)]) := by
    decide +kernel
  have readOther : readDocument other (.ofString ".devscore.yml") =
      .ok (.mapping [(.text "fail_under", .int 70)]) := by
    decide +kernel
  have held : documents tree (.ofString ".") none =
      [[(.text "max_files", .list []), (.text "fail_under", .int 70)]] := by
    decide +kernel
  have heldOther : documents other (.ofString ".") none = [[(.text "fail_under", .int 70)]] := by
    decide +kernel
  have drops : ∀ path ∈ paths (.ofString ".") none,
      Decodes other path ∧ Drops (documentAt tree path) (documentAt other path) := by
    intro path mem
    rw [only path mem]
    refine ⟨decodes_of_readDocument readOther, ?_⟩
    have before : documentAt tree (.ofString ".devscore.yml") =
        [(.text "max_files", .list []), (.text "fail_under", .int 70)] := by
      decide +kernel
    have after :
        documentAt other (.ofString ".devscore.yml") = [(.text "fail_under", .int 70)] := by
      decide +kernel
    rw [before, after]
    apply Drops.first rfl
    rintro ⟨whole, taken⟩
    cases taken
  have decodes : ∀ path ∈ paths (.ofString ".") none, Decodes tree path := by
    intro path mem
    rw [only path mem]
    exact decodes_of_readDocument read
  have tolerated := load_tolerated decodes
  have loaded : ((load tree (.ofString ".") none).runOn {}).1 = .ok { failUnder := some 70 } := by
    have given := tolerated.1 {}
    rw [held] at given
    exact given
  exact ⟨tree, other, held, heldOther, loaded, (tolerated.2.2 other drops).2 _ _ _ loaded⟩

/-- A count without an end is no integer either, but it ends the loading. -/
theorem load_endless :
    documents (treeWith "max_files: .inf\n") (.ofString ".") none =
        [[(.text "max_files", .float (.infinite false))]] ∧
      ofDocuments (documents (treeWith "max_files: .inf\n") (.ofString ".") none) = {} ∧
      ((load (treeWith "max_files: .inf\n") (.ofString ".") none).runOn {}).1 =
        .error .infinityToInteger := by
  decide +kernel

end Config

end Scorecard
