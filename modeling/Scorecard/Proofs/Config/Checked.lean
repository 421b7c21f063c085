import Scorecard.Config.Validation
import Scorecard.Proofs.Config.Loading
import Scorecard.Proofs.Except

/-!
# Checked configurations

A check without findings allows only values that their fields take over as they are: lists of texts,
texts routed to texts, truth values and integers, and the absent value where a field may stay unset.
Such a document is loaded as it is written, with its routes folded. The one value that the check
allows and the loader does not is the absent value in place of the routes: it is noted and the
routes stay empty.
-/

namespace Scorecard

namespace Entries

/-- The entries that route texts to texts. -/
def ofTexts (routes : List (String × String)) : Entries :=
  routes.map fun (language, family) => (.text language, .text family)

theorem insert_ofTexts (routes : Routes) (language family : String) :
    insert (ofTexts routes) (.text language) (.text family) =
      ofTexts (routes.insert language family) := by
  induction routes with
  | nil => rfl
  | cons first rest ih =>
      have front : ofTexts (first :: rest) = (.text first.1, .text first.2) :: ofTexts rest := rfl
      rw [front, insert, Routes.insert, Scalar.sameKey_text]
      by_cases same : first.1 = language
      · rw [if_pos (decide_eq_true same), if_pos same, same]
        rfl
      · rw [if_neg (by simpa using same), if_neg same, ih]
        rfl

theorem ofPairs_ofTexts (pairs : List (String × String)) :
    ofPairs (ofTexts pairs) = ofTexts (Routes.ofPairs pairs) := by
  induction pairs using List.reverseRecOn with
  | nil => rfl
  | append_singleton pairs pair ih =>
      rw [ofTexts, List.map_append, List.map_singleton, ← ofTexts, ofPairs_append_singleton, ih,
        insert_ofTexts, Routes.ofPairs, Routes.ofPairs, List.foldl_append]
      rfl

theorem exists_ofTexts {entries : Entries}
    (texts : ∀ entry ∈ entries, ∃ language family, entry = (.text language, .text family)) :
    ∃ routes, entries = ofTexts routes := by
  induction entries with
  | nil => exact ⟨[], rfl⟩
  | cons entry rest ih =>
      rw [List.forall_mem_cons] at texts
      rcases texts.1 with ⟨language, family, rfl⟩
      rcases ih texts.2 with ⟨routes, rfl⟩
      exact ⟨(language, family) :: routes, rfl⟩

end Entries

namespace Config

/-- The value is one that a check allows under a key. -/
def Allowed (value : Data) : String → Prop
  | "include" | "exclude" | "languages" => ∃ names : List String, value = .list (names.map .text)
  | "language_routes" => value = .null ∨ ∃ routes, value = .mapping (Entries.ofTexts routes)
  | "interview_mode" => value = .null ∨ ∃ truth, value = .bool truth
  | _ => value = .null ∨ ∃ whole, value = .int whole

/-- Every known key of the document has a value that is allowed. -/
def AllAllowed (document : Entries) : Prop :=
  ∀ key ∈ keys, ∀ value, document.get? key = some value → Allowed value key

section

variable {document : Entries} {value : Data} {key : String}

theorem eq_texts_of_texts? {names : List String} (read : texts? value = some names) :
    value = .list (names.map .text) := by
  cases value with
  | scalar value => cases read
  | mapping entries => cases read
  | list items =>
      rw [texts?] at read
      congr 1
      induction items generalizing names with
      | nil =>
          cases read
          rfl
      | cons item rest ih =>
          rw [List.mapM_cons] at read
          rcases Option.bind_eq_some_iff.mp read with ⟨name, first, read⟩
          rcases Option.bind_eq_some_iff.mp read with ⟨others, later, same⟩
          cases same
          rw [List.map_cons, ← ih later]
          split at first
          · cases first
            rfl
          · cases first

theorem texts_of_checkTexts (silent : checkTexts document key = [])
    (found : document.get? key = some value) :
    ∃ names : List String, value = .list (names.map .text) := by
  rw [checkTexts, found] at silent
  cases read : texts? value with
  | some names => exact ⟨names, eq_texts_of_texts? read⟩
  | none => simp [read] at silent

theorem texts_of_checkLanguages (silent : checkLanguages document = [])
    (found : document.get? "languages" = some value) :
    ∃ names : List String, value = .list (names.map .text) := by
  rw [checkLanguages, found] at silent
  cases read : texts? value with
  | some names => exact ⟨names, eq_texts_of_texts? read⟩
  | none => simp [read] at silent

theorem texts_of_checkRoute {entry : Scalar × Data} (silent : checkRoute entry = []) :
    ∃ language family, entry = (.text language, .text family) := by
  rw [checkRoute.eq_def] at silent
  split at silent
  · exact ⟨_, _, rfl⟩
  · cases silent

theorem routes_of_checkRoutes (silent : checkRoutes document = [])
    (found : document.get? "language_routes" = some value) :
    value = .null ∨ ∃ routes, value = .mapping (Entries.ofTexts routes) := by
  rw [checkRoutes, found] at silent
  split at silent
  · contradiction
  · next same => exact .inl (Option.some_inj.mp same)
  · next entries same =>
      rw [List.flatMap_eq_nil_iff] at silent
      rcases Entries.exists_ofTexts fun entry mem => texts_of_checkRoute (silent entry mem) with
        ⟨routes, rfl⟩
      exact .inr ⟨routes, Option.some_inj.mp same⟩
  · cases silent

theorem truth_of_checkBoolean (silent : checkBoolean document key = [])
    (found : document.get? key = some value) : value = .null ∨ ∃ truth, value = .bool truth := by
  rw [checkBoolean, found] at silent
  split at silent
  · contradiction
  · next same => exact .inl (Option.some_inj.mp same)
  · next truth same => exact .inr ⟨truth, Option.some_inj.mp same⟩
  · cases silent

theorem whole_of_checkInteger {least : ℤ} (silent : checkInteger document key least = [])
    (found : document.get? key = some value) : value = .null ∨ ∃ whole, value = .int whole := by
  rw [checkInteger, found] at silent
  split at silent
  · contradiction
  · next same => exact .inl (Option.some_inj.mp same)
  · next whole same => exact .inr ⟨whole, Option.some_inj.mp same⟩
  · cases silent

/-- A check without findings has allowed every value. -/
theorem allAllowed_of_check (accepted : check document = .ok []) : AllAllowed document := by
  rw [check, bind_eq_ok_iff] at accepted
  rcases accepted with ⟨unknown, _, findings⟩
  have silent := Except.ok.inj findings
  simp only [List.append_eq_nil_iff] at silent
  rcases silent with
    ⟨⟨⟨⟨⟨⟨⟨⟨⟨_, included⟩, excluded⟩, languages⟩, routes⟩, interviewMode⟩, maxFiles⟩,
      parallelWorkers⟩, failUnder⟩, _⟩
  intro key known value found
  simp only [keys, List.mem_cons, List.not_mem_nil, or_false] at known
  rcases known with rfl | rfl | rfl | rfl | rfl | rfl | rfl | rfl
  · exact texts_of_checkTexts included found
  · exact texts_of_checkTexts excluded found
  · exact texts_of_checkLanguages languages found
  · exact routes_of_checkRoutes routes found
  · exact truth_of_checkBoolean interviewMode found
  · exact whole_of_checkInteger maxFiles found
  · exact whole_of_checkInteger parallelWorkers found
  · exact whole_of_checkInteger failUnder found

theorem textsFaults_texts (names : List String) : textsFaults (.list (names.map .text)) = [] := by
  rw [textsFaults, List.flatMap_eq_nil_iff]
  intro item mem
  rcases List.mem_map.mp mem with ⟨name, _, rfl⟩
  rfl

theorem textsOf?_texts (names : List String) : textsOf? (.list (names.map .text)) = some names := by
  rw [textsOf?, List.map_map, Option.some_inj]
  exact List.map_id names

theorem routesFaults_ofTexts (routes : List (String × String)) :
    routesFaults (.mapping (Entries.ofTexts routes)) = [] := by
  rw [routesFaults, List.flatMap_eq_nil_iff]
  intro entry mem
  rcases List.mem_map.mp mem with ⟨route, _, rfl⟩
  rfl

theorem routesOf?_ofTexts (routes : List (String × String)) :
    routesOf? (.mapping (Entries.ofTexts routes)) =
      some (routes.map fun (language, family) =>
        (Language.fold language, Language.fold family)) := by
  rw [routesOf?, Entries.ofTexts, List.filterMap_map]
  exact congrArg some (congrFun List.filterMap_eq_map' routes)

/-- What a field makes of no allowed value, it does not make of the document. -/
theorem AllAllowed.elim_eq_nil {α : Type} {read : Data → List α} (allowed : AllAllowed document)
    (known : key ∈ keys) (silent : ∀ value, Allowed value key → read value = []) :
    (document.get? key).elim [] read = [] := by
  cases found : document.get? key with
  | none => rfl
  | some value => exact silent value (allowed key known value found)

theorem AllAllowed.documentFaults_eq_nil (allowed : AllAllowed document) :
    documentFaults document = [] := by
  have texts : ∀ value, (∃ names : List String, value = .list (names.map .text)) →
      textsFaults value = [] := by
    rintro value ⟨names, rfl⟩
    exact textsFaults_texts names
  have whole : ∀ value : Data, (value = .null ∨ ∃ whole, value = .int whole) →
      value.integerFaults = [] := by
    rintro value (rfl | ⟨whole, rfl⟩) <;> rfl
  have routes : ∀ value, (value = .null ∨ ∃ routes, value = .mapping (Entries.ofTexts routes)) →
      routesFaults value = [] := by
    rintro value (rfl | ⟨routes, rfl⟩)
    · rfl
    · exact routesFaults_ofTexts routes
  simp only [documentFaults, List.append_eq_nil_iff]
  exact ⟨allowed.elim_eq_nil (by decide) texts, allowed.elim_eq_nil (by decide) texts,
    allowed.elim_eq_nil (by decide) texts, allowed.elim_eq_nil (by decide) routes,
    allowed.elim_eq_nil (by decide) whole, allowed.elim_eq_nil (by decide) whole,
    allowed.elim_eq_nil (by decide) whole⟩

/-- The only notice about allowed values is about routes that are absent under their key. -/
theorem AllAllowed.documentNotices_eq (allowed : AllAllowed document) :
    documentNotices document =
      if document.get? "language_routes" = some .null then [.routesNotMapping] else [] := by
  have texts : ∀ key value, (∃ names : List String, value = .list (names.map .text)) →
      textsNotices key value = [] := by
    rintro key value ⟨names, rfl⟩
    rfl
  have whole : ∀ key value, (value = .null ∨ ∃ whole, value = .int whole) →
      integerNotices key value = [] := by
    rintro key value (rfl | ⟨whole, rfl⟩) <;> rfl
  have included : document.noticesAt "include" (textsNotices "include") = [] :=
    allowed.elim_eq_nil (by decide) (texts _)
  have excluded : document.noticesAt "exclude" (textsNotices "exclude") = [] :=
    allowed.elim_eq_nil (by decide) (texts _)
  have languages : document.noticesAt "languages" (textsNotices "languages") = [] :=
    allowed.elim_eq_nil (by decide) (texts _)
  have maxFiles : document.noticesAt "max_files" (integerNotices "max_files") = [] :=
    allowed.elim_eq_nil (by decide) (whole _)
  have parallelWorkers :
      document.noticesAt "parallel_workers" (integerNotices "parallel_workers") = [] :=
    allowed.elim_eq_nil (by decide) (whole _)
  have failUnder : document.noticesAt "fail_under" (integerNotices "fail_under") = [] :=
    allowed.elim_eq_nil (by decide) (whole _)
  simp only [documentNotices, included, excluded, languages, maxFiles, parallelWorkers, failUnder,
    List.nil_append, List.append_nil]
  rw [Entries.noticesAt]
  cases found : document.get? "language_routes" with
  | none => rfl
  | some value =>
      rcases allowed "language_routes" (by decide) value found with rfl | ⟨routes, rfl⟩
      · rfl
      · rw [if_neg (by simp)]
        rfl

/-- The value of a field in the written form of a configuration. -/
def fieldOf? (config : Config) (key : String) : Option Data :=
  config.toData.entries?.bind fun entries => entries.get? key

/-- Routes with both sides of each entry folded. -/
def foldRoutes : Data → Data
  | .mapping entries => .mapping (Entries.ofPairs (entries.map fun
      | (.text language, .text family) =>
          (.text (Language.fold language), .text (Language.fold family))
      | entry => entry))
  | value => value

/-- The value under a key as a field writes it: routes are folded. -/
def writtenAs (key : String) (value : Data) : Data :=
  if key = "language_routes" then foldRoutes value else value

/-- The value that a document writes for a field, or the default if nothing or the absent value
stands under its key. -/
def writtenFor? (document : Entries) (key : String) : Option Data :=
  match document.get? key with
  | none => fieldOf? {} key
  | some .null => fieldOf? {} key
  | some value => some (writtenAs key value)

/-- A single document fills the fields from its own values. -/
theorem ofDocuments_singleton (document : Entries) :
    let default : Config := {}
    ofDocuments [document] =
      { included := (document.held? "include" textsOf?).getD default.included
        excluded := (document.held? "exclude" textsOf?).getD default.excluded
        languages := (document.held? "languages" textsOf?).getD default.languages
        languageRoutes := Routes.ofPairs ((document.held? "language_routes" routesOf?).getD [])
        interviewMode := (document.held? "interview_mode" truthOf?).getD default.interviewMode
        maxFiles := (document.held? "max_files" integerOf?).getD default.maxFiles
        parallelWorkers :=
          (document.held? "parallel_workers" integerOf?).getD default.parallelWorkers
        failUnder := document.held? "fail_under" integerOf? } := by
  have patterns : ∀ default added, (extendPatterns default false added).1 = added.getD default := by
    rintro default (_ | added) <;> rfl
  simp only [ofDocuments, List.foldl_cons, List.foldl_nil, MergedConfig.extended, patterns,
    truthUnder?, Entries.held?, Option.or_none]
  rfl

/-- A reader takes from the value what the field then writes, or nothing from the absent value. -/
def ReadAsWritten {α : Type} (read : Data → Option α) (place : α → Data) (key : String)
    (value : Data) : Prop :=
  (value = .null ∧ read .null = none) ∨
    value ≠ .null ∧ ∃ taken, read value = some taken ∧ place taken = writtenAs key value

theorem some_place_eq_writtenFor? {α : Type} {read : Data → Option α} (place : α → Data)
    {fallback : α} (default : fieldOf? {} key = some (place fallback))
    (reads : ∀ value, document.get? key = some value → ReadAsWritten read place key value) :
    some (place ((document.held? key read).getD fallback)) = writtenFor? document key := by
  rw [Entries.held?, writtenFor?, default]
  cases found : document.get? key with
  | none => rfl
  | some value =>
      rcases reads value found with ⟨rfl, nothing⟩ | ⟨notNull, taken, held, placed⟩
      · rw [Option.bind_some, nothing]
        rfl
      · rw [Option.bind_some, held, Option.getD_some, placed]
        split
        · contradiction
        · next same => exact absurd (Option.some_inj.mp same) notNull
        · next same => rw [Option.some_inj.mp same]

theorem readAsWritten_texts (notRoutes : key ≠ "language_routes") (names : List String) :
    ReadAsWritten textsOf? (fun names => .list (names.map .text)) key
      (.list (names.map .text)) := by
  refine .inr ⟨by simp, names, textsOf?_texts names, ?_⟩
  rw [writtenAs, if_neg notRoutes]

theorem readAsWritten_whole (notRoutes : key ≠ "language_routes")
    (allowed : value = .null ∨ ∃ whole, value = .int whole) :
    ReadAsWritten integerOf? .int key value := by
  rcases allowed with rfl | ⟨whole, rfl⟩
  · exact .inl ⟨rfl, rfl⟩
  · refine .inr ⟨by simp, whole, rfl, ?_⟩
    rw [writtenAs, if_neg notRoutes]

theorem readAsWritten_truth (notRoutes : key ≠ "language_routes")
    (allowed : value = .null ∨ ∃ truth, value = .bool truth) :
    ReadAsWritten truthOf? .bool key value := by
  rcases allowed with rfl | ⟨truth, rfl⟩
  · exact .inl ⟨rfl, rfl⟩
  · refine .inr ⟨by simp, truth, rfl, ?_⟩
    rw [writtenAs, if_neg notRoutes]

theorem foldRoutes_ofTexts (routes : List (String × String)) :
    foldRoutes (.mapping (Entries.ofTexts routes)) =
      .mapping (Entries.ofTexts (Routes.ofPairs
        (routes.map fun (language, family) =>
          (Language.fold language, Language.fold family)))) := by
  rw [foldRoutes, ← Entries.ofPairs_ofTexts, Entries.ofTexts, Entries.ofTexts, List.map_map,
    List.map_map]
  rfl

theorem readAsWritten_routes
    (allowed : value = .null ∨ ∃ routes, value = .mapping (Entries.ofTexts routes)) :
    ReadAsWritten routesOf? (fun pairs => .mapping (Entries.ofTexts (Routes.ofPairs pairs)))
      "language_routes" value := by
  rcases allowed with rfl | ⟨routes, rfl⟩
  · exact .inl ⟨rfl, rfl⟩
  · exact .inr ⟨by simp, _, routesOf?_ofTexts routes, (foldRoutes_ofTexts routes).symm⟩

/-- The threshold has no default: it is written as the absent value where no integer is held. -/
theorem some_threshold_eq_writtenFor? (allowed : ∀ value, document.get? "fail_under" = some value →
      value = .null ∨ ∃ whole, value = .int whole) :
    some (((document.held? "fail_under" integerOf?).map Data.int).getD .null) =
      writtenFor? document "fail_under" := by
  have default : fieldOf? {} "fail_under" = some .null := rfl
  rw [Entries.held?, writtenFor?, default]
  cases found : document.get? "fail_under" with
  | none => rfl
  | some value =>
      rcases allowed value found with rfl | ⟨whole, rfl⟩ <;> rfl

/-- Allowed values are loaded as they are written. -/
theorem AllAllowed.fieldOf?_eq (allowed : AllAllowed document) (known : key ∈ keys) :
    fieldOf? (ofDocuments [document]) key = writtenFor? document key := by
  have texts : ∀ key, key ≠ "language_routes" → (∀ value, document.get? key = some value →
      ∃ names : List String, value = .list (names.map .text)) →
      ∀ value, document.get? key = some value →
        ReadAsWritten textsOf? (fun names => .list (names.map .text)) key value := by
    intro key notRoutes held value found
    rcases held value found with ⟨names, rfl⟩
    exact readAsWritten_texts notRoutes names
  have held := allowed key known
  rw [ofDocuments_singleton]
  simp only [keys, List.mem_cons, List.not_mem_nil, or_false] at known
  rcases known with rfl | rfl | rfl | rfl | rfl | rfl | rfl | rfl
  · exact some_place_eq_writtenFor? _ rfl (texts _ (by decide) held)
  · exact some_place_eq_writtenFor? _ rfl (texts _ (by decide) held)
  · exact some_place_eq_writtenFor? _ rfl (texts _ (by decide) held)
  · exact some_place_eq_writtenFor? _ rfl fun value found => readAsWritten_routes (held value found)
  · exact some_place_eq_writtenFor? _ rfl fun value found =>
      readAsWritten_truth (by decide) (held value found)
  · exact some_place_eq_writtenFor? _ rfl fun value found =>
      readAsWritten_whole (by decide) (held value found)
  · exact some_place_eq_writtenFor? _ rfl fun value found =>
      readAsWritten_whole (by decide) (held value found)
  · exact some_threshold_eq_writtenFor? held

end

/-- A single document that a check accepts is loaded: every field holds what is written under its
key, or its default. Nothing is noted on the way, unless the key of the routes is there with the
absent value. -/
theorem load_checked {tree : FileTree} {root path : Path} {named : Option (List Path)}
    {document : Entries} (accepted : check document = .ok [])
    (only : paths root named = [path]) (present : tree.contains path = true)
    (read : readDocument tree path = .ok (.mapping document)) :
    ∃ config, (∀ key ∈ keys, fieldOf? config key = writtenFor? document key) ∧
      Recorded.Returns (load tree root named) config
        (if document.get? "language_routes" = some .null then [.routesNotMapping] else []) := by
  have allowed := allAllowed_of_check accepted
  refine ⟨ofDocuments [document], fun key known => allowed.fieldOf?_eq known, ?_⟩
  rw [← allowed.documentNotices_eq]
  exact load_single only present read allowed.documentFaults_eq_nil

/-- Routes are loaded folded, and a threshold that is absent under its key stays unset. -/
theorem load_checked_foldedRoutes :
    ∃ tree config, Recorded.Returns (load tree (.ofString ".") none) config [] ∧
      fieldOf? config "include" = some (.list [.text "src"]) ∧
      fieldOf? config "language_routes" = some (.mapping [(.text "java", .text "js")]) ∧
      fieldOf? config "max_files" = some (.int 5) ∧
      fieldOf? config "fail_under" = some .null := by
  let tree :=
    treeWith "include: [src]\nlanguage_routes: \x7bJava: ' JS'\x7d\nmax_files: 5\nfail_under:\n"
  let document : Entries := [(.text "include", .list [.text "src"]),
    (.text "language_routes", .mapping [(.text "Java", .text " JS")]),
    (.text "max_files", .int 5), (.text "fail_under", .null)]
  have read : readDocument tree (.ofString ".devscore.yml") = .ok (.mapping document) := by
    decide +kernel
  have accepted : check document = .ok [] := by decide +kernel
  have only : paths (.ofString ".") none = [.ofString ".devscore.yml"] := by decide +kernel
  have present : tree.contains (.ofString ".devscore.yml") = true := by decide +kernel
  rcases load_checked accepted only present read with ⟨config, fields, returned⟩
  refine ⟨tree, config, returned, ?_, ?_, ?_, ?_⟩
  · rw [fields "include" (by decide)]
    decide +kernel
  · rw [fields "language_routes" (by decide)]
    decide +kernel
  · rw [fields "max_files" (by decide)]
    decide +kernel
  · rw [fields "fail_under" (by decide)]
    decide +kernel

/-- A check accepts routes that are absent under their key, and yet they are noted when they are
loaded. -/
theorem load_checked_absentRoutes :
    let tree := treeWith "language_routes:\n"
    readDocument tree (.ofString ".devscore.yml") =
      .ok (.mapping [(.text "language_routes", .null)]) ∧
      check [(.text "language_routes", .null)] = .ok [] ∧
      (load tree (.ofString ".") none).runOn {} =
        (.ok {}, { notices := [.routesNotMapping] }) := by
  decide +kernel

end Config

end Scorecard
