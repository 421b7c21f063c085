import Scorecard.CommandLine.Run
import Scorecard.Proofs.Config.Checked
import Scorecard.Proofs.Config.Gathered
import Scorecard.Proofs.FileSystem.ReadBack
import Scorecard.Proofs.Session
import Scorecard.Proofs.Yaml.Written

/-!
# Shown configurations

A loaded configuration is a fixed point of loading: what is shown of it is loaded as the same
configuration. Every field takes its own written value over as it is. For the routes this is a
property of loaded configurations only: their sides are folded and no spelling is there twice, so
folding them again and inserting them one after the other changes neither an entry nor the order.
-/

namespace Scorecard

namespace Routes

/-- Folding and inserting the entries again changes nothing. -/
structure Settled (routes : Routes) : Prop where
  folded : ∀ route ∈ routes, Language.fold route.1 = route.1 ∧ Language.fold route.2 = route.2
  distinct : (routes.map Prod.fst).Nodup

theorem insert_of_notMem {routes : Routes} {language family : String}
    (fresh : language ∉ routes.map Prod.fst) :
    routes.insert language family = routes ++ [(language, family)] := by
  induction routes with
  | nil => rfl
  | cons first rest ih =>
      rw [List.map_cons, List.mem_cons, not_or] at fresh
      rw [insert, if_neg (Ne.symm fresh.1), ih fresh.2, List.cons_append]

theorem ofPairs_eq_self {routes : Routes} (distinct : (routes.map Prod.fst).Nodup) :
    ofPairs routes = routes := by
  induction routes using List.reverseRecOn with
  | nil => rfl
  | append_singleton routes route ih =>
      rw [List.map_append, List.map_singleton, ← List.concat_eq_append, List.nodup_concat]
        at distinct
      have inserted : ofPairs (routes ++ [route]) = (ofPairs routes).insert route.1 route.2 := by
        rw [ofPairs, List.foldl_append]
        rfl
      rw [inserted, ih distinct.2, insert_of_notMem distinct.1]

theorem Settled.ofPairs_fold {routes : Routes} (settled : routes.Settled) :
    ofPairs (routes.map fun (language, family) => (Language.fold language, Language.fold family)) =
      routes := by
  have same : ∀ route ∈ routes, (Language.fold route.1, Language.fold route.2) = route := by
    rintro ⟨language, family⟩ mem
    rcases settled.folded _ mem with ⟨languageFolded, familyFolded⟩
    exact congrArg₂ Prod.mk languageFolded familyFolded
  have unchanged := (List.map_congr_left same).trans (List.map_id' routes)
  rw [unchanged, ofPairs_eq_self settled.distinct]

theorem map_fst_ofTargets {languages : List String} {target : String → Option String}
    (given : ∀ language ∈ languages, (target language).isSome = true) :
    (ofTargets languages target).map Prod.fst = languages := by
  induction languages with
  | nil => rfl
  | cons first rest ih =>
      rw [List.forall_mem_cons] at given
      rcases Option.isSome_iff_exists.mp given.1 with ⟨family, found⟩
      have front : ofTargets (first :: rest) target = (first, family) :: ofTargets rest target := by
        simp [ofTargets, found]
      rw [front, List.map_cons, ih given.2]

theorem mem_of_mem_settled {pairs : List (String × String)} {route : String × String}
    (mem : route ∈ settled pairs) : route ∈ pairs := by
  rcases List.mem_filterMap.mp mem with ⟨language, _, found⟩
  rcases Option.map_eq_some_iff.mp found with ⟨family, looked, rfl⟩
  rcases List.lookup_eq_some_iff.mp looked with ⟨front, back, split, _⟩
  rw [← List.mem_reverse, split]
  simp

/-- Pairs with folded sides are settled into settled routes. -/
theorem settled_of_folded {pairs : List (String × String)}
    (folded : ∀ pair ∈ pairs, Language.fold pair.1 = pair.1 ∧ Language.fold pair.2 = pair.2) :
    (settled pairs).Settled where
  folded := fun route mem => folded route (mem_of_mem_settled mem)
  distinct := by
    rw [settled, map_fst_ofTargets]
    · exact nodup_eraseDups _
    · intro language mem
      exact lookup_reverse_isSome (List.mem_eraseDups.mp mem)

end Routes

namespace Config

theorem folded_of_routeIn? {entry : Scalar × Data} {route : String × String}
    (taken : routeIn? entry = some route) :
    Language.fold route.1 = route.1 ∧ Language.fold route.2 = route.2 := by
  rw [routeIn?.eq_def] at taken
  split at taken
  · cases taken
  · cases taken
  · cases taken
    exact ⟨Language.fold_fold _, Language.fold_fold _⟩

theorem folded_of_mem_routesGiven {documents : List Entries} {route : String × String}
    (mem : route ∈ routesGiven documents) :
    Language.fold route.1 = route.1 ∧ Language.fold route.2 = route.2 := by
  rcases List.mem_flatten.mp mem with ⟨routes, routesMem, mem⟩
  rcases List.mem_filterMap.mp routesMem with ⟨document, _, held⟩
  rcases Option.bind_eq_some_iff.mp held with ⟨value, _, taken⟩
  cases value with
  | scalar value => cases taken
  | list items => cases taken
  | mapping entries =>
      cases taken
      rcases List.mem_filterMap.mp mem with ⟨entry, _, routed⟩
      exact folded_of_routeIn? routed

variable {tree : FileTree} {root file : Path} {named : Option (List Path)} {journal : Journal}
  {config : Config}

theorem settled_of_load (loaded : ((load tree root named).runOn journal).1 = .ok config) :
    config.languageRoutes.Settled := by
  rcases load_returned_iff.mp loaded with ⟨_, _, rfl⟩
  exact Routes.settled_of_folded fun route mem => folded_of_mem_routesGiven mem

/-- The entries of a configuration's document. -/
def entries (config : Config) : Entries :=
  Report.entriesOf config.toData

theorem toData_eq (config : Config) : config.toData = .mapping config.entries := rfl

theorem get?_entries (config : Config) :
    config.entries.get? "include" = some (.list (config.included.map .text)) ∧
    config.entries.get? "exclude" = some (.list (config.excluded.map .text)) ∧
    config.entries.get? "languages" = some (.list (config.languages.map .text)) ∧
    config.entries.get? "language_routes" =
      some (.mapping (Entries.ofTexts config.languageRoutes)) ∧
    config.entries.get? "interview_mode" = some (.bool config.interviewMode) ∧
    config.entries.get? "max_files" = some (.int config.maxFiles) ∧
    config.entries.get? "parallel_workers" = some (.int config.parallelWorkers) ∧
    config.entries.get? "fail_under" = some ((config.failUnder.map Data.int).getD .null) := by
  simp [entries, Report.entriesOf, Data.entries?, toData, Entries.get?, Entries.find?,
    Scalar.sameKey_text, Entries.ofTexts]

theorem allAllowed_entries (config : Config) : AllAllowed config.entries := by
  rcases config.get?_entries with ⟨included, excluded, languages, routes, interviewMode, maxFiles,
    parallelWorkers, failUnder⟩
  intro key known value found
  simp only [keys, List.mem_cons, List.not_mem_nil, or_false] at known
  rcases known with rfl | rfl | rfl | rfl | rfl | rfl | rfl | rfl
  · cases included.symm.trans found
    exact ⟨_, rfl⟩
  · cases excluded.symm.trans found
    exact ⟨_, rfl⟩
  · cases languages.symm.trans found
    exact ⟨_, rfl⟩
  · cases routes.symm.trans found
    exact .inr ⟨_, rfl⟩
  · cases interviewMode.symm.trans found
    exact .inr ⟨_, rfl⟩
  · cases maxFiles.symm.trans found
    exact .inr ⟨_, rfl⟩
  · cases parallelWorkers.symm.trans found
    exact .inr ⟨_, rfl⟩
  · cases failUnder.symm.trans found
    cases config.failUnder with
    | none => exact .inl rfl
    | some threshold => exact .inr ⟨threshold, rfl⟩

/-- The document of a configuration with settled routes makes this configuration of the default. -/
theorem ofDocuments_entries (settled : config.languageRoutes.Settled) :
    ofDocuments [config.entries] = config := by
  rcases config.get?_entries with ⟨included, excluded, languages, routes, interviewMode, maxFiles,
    parallelWorkers, failUnder⟩
  have threshold : integerOf? ((config.failUnder.map Data.int).getD .null) = config.failUnder := by
    cases config.failUnder <;> rfl
  rw [ofDocuments_singleton]
  simp only [Entries.held?, included, excluded, languages, routes, interviewMode, maxFiles,
    parallelWorkers, failUnder, Option.bind_some, textsOf?_texts, routesOf?_ofTexts,
    Option.getD_some, threshold, settled.ofPairs_fold]
  rfl

theorem returns_of_entries (settled : config.languageRoutes.Settled)
    (only : paths root named = [file]) (present : tree.contains file = true)
    (read : readDocument tree file = .ok config.toData) :
    Recorded.Returns (load tree root named) config [] := by
  have allowed := config.allAllowed_entries
  have silent : documentNotices config.entries = [] := by
    rw [allowed.documentNotices_eq, config.get?_entries.2.2.2.1, if_neg (by simp)]
  rw [toData_eq] at read
  have loaded := load_single only present read allowed.documentFaults_eq_nil
  rw [ofDocuments_entries settled, silent] at loaded
  exact loaded

/-- The text is what the command shows of the configuration: it is written to a file, or printed and
ended with a line feed. -/
def ShownAs (config : Config) (shown : String) : Prop :=
  ∃ text, config.encode = .ok text ∧ (shown = text ∨ shown = text ++ "\n")

/-- The integers of a configuration. -/
def integers (config : Config) : List ℤ :=
  [config.maxFiles, config.parallelWorkers] ++ config.failUnder.toList

theorem integerText_writtenIf_of_mem {value : ℤ} {integers : List ℤ} (mem : value ∈ integers) :
    WrittenIf (integerText value) integers := by
  rcases integerText_writtenIf value with written | ⟨failed, long⟩
  · exact .inl written
  · refine .inr ⟨failed, fun writable => long ?_⟩
    rw [Writable, List.forall_mem_singleton]
    exact writable value mem

/-- The text of the lowest score, or of its absence. -/
def failUnderText (config : Config) : Except Fault String :=
  config.failUnder.elim (pure "null") integerText

/-- The written fields, given the texts of the numbers. -/
def fieldTexts (config : Config) (maxFiles parallelWorkers failUnder : String) :
    List (String × Yaml.FlatValue) :=
  [("include", .texts config.included),
    ("exclude", .texts config.excluded),
    ("languages", .texts config.languages),
    ("language_routes", .mapping config.languageRoutes),
    ("interview_mode", .plain (if config.interviewMode then "true" else "false")),
    ("max_files", .plain maxFiles),
    ("parallel_workers", .plain parallelWorkers),
    ("fail_under", .plain failUnder)]

theorem encode_eq (config : Config) : config.encode = do
    let maxFiles ← integerText config.maxFiles
    let parallelWorkers ← integerText config.parallelWorkers
    let failUnder ← config.failUnderText
    return Yaml.encodeFlat (config.fieldTexts maxFiles parallelWorkers failUnder) := by
  rw [encode, failUnderText]
  -- The texts of integers are never computed here.
  generalize integerText = written
  cases config.failUnder <;> rfl

theorem failUnderText_writtenIf (config : Config) :
    WrittenIf config.failUnderText config.integers := by
  rw [failUnderText]
  cases found : config.failUnder with
  | none => exact .ok _
  | some threshold =>
      rw [Option.elim_some]
      exact integerText_writtenIf_of_mem (by simp [integers, found])

/-- A configuration has a text unless one of its integers has too many digits. -/
theorem encode_writtenIf (config : Config) : WrittenIf config.encode config.integers := by
  have maxFiles : config.maxFiles ∈ config.integers := by simp [integers]
  have parallelWorkers : config.parallelWorkers ∈ config.integers := by simp [integers]
  rw [encode_eq]
  apply (integerText_writtenIf_of_mem maxFiles).bind
  intro maxFilesText _
  apply (integerText_writtenIf_of_mem parallelWorkers).bind
  intro parallelWorkersText _
  apply config.failUnderText_writtenIf.bind
  intro failUnderText _
  exact .ok _

theorem allWritten_integerText {value : ℤ} {text : String}
    (written : integerText value = .ok text) : Json.AllWritten text.toList :=
  Json.allWritten_scalarText (show Json.scalarText (.int value) = .ok text from written)

theorem allWritten_failUnderText {text : String} (written : config.failUnderText = .ok text) :
    Json.AllWritten text.toList := by
  rw [failUnderText] at written
  cases found : config.failUnder with
  | none =>
      rw [found] at written
      cases written
      decide
  | some threshold =>
      rw [found, Option.elim_some] at written
      exact allWritten_integerText written

theorem allWritten_encode {text : String} (encoded : config.encode = .ok text) :
    Json.AllWritten text.toList := by
  rw [encode_eq] at encoded
  rcases bind_eq_ok_iff.mp encoded with ⟨maxFiles, maxFilesWritten, encoded⟩
  rcases bind_eq_ok_iff.mp encoded with ⟨parallelWorkers, parallelWorkersWritten, encoded⟩
  rcases bind_eq_ok_iff.mp encoded with ⟨failUnder, failUnderWritten, encoded⟩
  have truth : Json.AllWritten (if config.interviewMode then "true" else "false").toList := by
    cases config.interviewMode <;> decide
  cases encoded
  apply Yaml.allWritten_encodeFlat
  · simp only [fieldTexts, List.forall_mem_cons]
    decide
  · intro entry mem text plain
    simp only [fieldTexts, List.mem_cons, List.not_mem_nil, or_false] at mem
    rcases mem with rfl | rfl | rfl | rfl | rfl | rfl | rfl | rfl
    · cases plain
    · cases plain
    · cases plain
    · cases plain
    · cases plain
      exact truth
    · cases plain
      exact allWritten_integerText maxFilesWritten
    · cases plain
      exact allWritten_integerText parallelWorkersWritten
    · cases plain
      exact allWritten_failUnderText failUnderWritten

theorem ShownAs.allWritten {shown : String} (shows : config.ShownAs shown) :
    Json.AllWritten shown.toList := by
  rcases shows with ⟨text, encoded, rfl | rfl⟩
  · exact allWritten_encode encoded
  · rw [String.toList_append, Json.allWritten_append]
    exact ⟨allWritten_encode encoded, by decide⟩

/-- A file with a shown text is read as the configuration's document if the text denotes it. -/
theorem readDocument_of_shown {shown : String} (shows : config.ShownAs shown)
    (decoded : Yaml.decode shown.toList = .ok config.toData)
    (holds : tree.read file = .ok (Utf8.encode shown.toList)) :
    readDocument tree file = .ok config.toData := by
  have text := FileTree.readText_of_read shows.allWritten.plain holds
  rw [readDocument, text]
  simp only [bind, Except.bind, decoded]
  rfl

end Config

variable {session last : Session}

/-- What is written to a file is there afterwards. -/
theorem Action.read_of_writeText {path : Path} {text : String} {time : ℤ}
    (ran : (Action.writeText path text time).runOn session = (.ok (), last)) :
    last.tree.read path = .ok (Utf8.encode text.toList) := by
  rcases Action.runOn_bind_eq_ok_iff.mp ran with ⟨_, _, found, ran⟩
  cases found
  rcases Action.runOn_bind_eq_ok_iff.mp ran with ⟨written, _, wrote, ran⟩
  cases ran
  rw [Action.runOn_ofExcept] at wrote
  rcases bind_eq_ok_iff.mp (congrArg Prod.fst wrote) with ⟨ready, _, wrote⟩
  exact FileTree.read_write wrote

namespace Command

theorem runOn_loadConfig (root : Path) (configs : List String) :
    let ran :=
      (Config.load session.tree root (Selection.namedConfigs configs)).runOn session.journal
    (loadConfig root configs).runOn session = (ran.1, { session with journal := ran.2 }) := by
  rw [loadConfig, Action.runOn_bind, Action.runOn_tree]
  exact Action.runOn_ofRecorded session _

/-- A run of the command that succeeds loads a configuration, and prints what is shown of it or
leaves it in the file that it is told to write. -/
theorem shownAs_of_runShowConfig {now : ℤ} {path : String} {configs : List String}
    {output : Option String} {exit : Exit}
    (ran : (runShowConfig now path configs output).runOn session = (.ok exit, last)) :
    let root := (Path.ofString path).resolve session.tree.here
    ∃ config shown, config.ShownAs shown ∧
      ((Config.load session.tree root (Selection.namedConfigs configs)).runOn session.journal).1 =
        .ok config ∧
      match given? output with
      | none => last.output = session.output ++ shown
      | some target =>
          last.tree.read (root.join (.ofString target)) = .ok (Utf8.encode shown.toList) := by
  intro root
  rcases Action.runOn_bind_eq_ok_iff.mp ran with ⟨_, _, found, ran⟩
  cases found
  rcases Action.runOn_bind_eq_ok_iff.mp ran with ⟨config, loadedSession, loaded, ran⟩
  rcases Action.runOn_bind_eq_ok_iff.mp ran with ⟨text, _, encoded, ran⟩
  rw [runOn_loadConfig, Prod.mk.injEq] at loaded
  rw [Action.runOn_ofExcept, Prod.mk.injEq] at encoded
  rcases loaded with ⟨loaded, rfl⟩
  rcases encoded with ⟨encoded, rfl⟩
  cases given : given? output with
  | none =>
      rw [given] at ran
      cases ran
      exact ⟨config, text ++ "\n", ⟨text, encoded, .inr rfl⟩, loaded, String.append_assoc⟩
  | some target =>
      rw [given] at ran
      rcases Action.runOn_bind_eq_ok_iff.mp ran with ⟨_, _, wrote, ran⟩
      cases ran
      exact ⟨config, text, ⟨text, encoded, .inl rfl⟩, loaded, Action.read_of_writeText wrote⟩

end Command

namespace Config

/-- A loaded configuration can be shown, unless one of its integers has too many digits. If the
shown text denotes the document that it was written from, a single file that holds it is loaded as
this configuration again, with its routes in their order, and nothing is noted. -/
theorem load_shown (loaded : ((load tree root named).runOn journal).1 = .ok config) :
    WrittenIf config.encode config.integers ∧
      ∀ shown, config.ShownAs shown → Yaml.decode shown.toList = .ok config.toData →
        ∀ other otherRoot otherNamed file, paths otherRoot otherNamed = [file] →
          other.read file = .ok (Utf8.encode shown.toList) →
            Recorded.Returns (load other otherRoot otherNamed) config [] := by
  refine ⟨config.encode_writtenIf, ?_⟩
  intro shown shows decoded other otherRoot otherNamed file only holds
  exact returns_of_entries (settled_of_load loaded) only (FileTree.contains_of_read holds)
    (readDocument_of_shown shows decoded holds)

theorem read_treeWith (text : String) :
    (treeWith text).read (.ofString ".devscore.yml") = .ok (Utf8.encode text.toList) := by
  have located : (treeWith text).locate (.ofString ".devscore.yml") = .ok [fileName] := rfl
  rw [FileTree.read, FileTree.readFile, located]
  rfl

/-- Routes that were given with other spellings come back folded and in their order. -/
theorem load_shown_routes :
    ∃ tree config shown other, ((load tree (.ofString ".") none).runOn {}).1 = .ok config ∧
      config.languageRoutes = [("py", "javascript"), ("java", "python")] ∧
      config.ShownAs shown ∧ Yaml.decode shown.toList = .ok config.toData ∧
      other.read (.ofString ".devscore.yml") = .ok (Utf8.encode shown.toList) ∧
      Recorded.Returns (load other (.ofString ".") none) config [] := by
  let tree := treeWith ("include: []\nexclude: []\nlanguages: []\nmax_files: -3\n" ++
    "language_routes: \x7bPy: js, Java: ' Python', PY: JavaScript\x7d\n")
  let config : Config :=
    { included := [], excluded := [], languages := [],
      languageRoutes := [("py", "javascript"), ("java", "python")], maxFiles := -3 }
  let text := "include: []\nexclude: []\nlanguages: []\n" ++
    "language_routes:\n  py: javascript\n  java: python\n" ++
    "interview_mode: false\nmax_files: -3\nparallel_workers: 0\nfail_under: null\n"
  let shown := text ++ "\n"
  have loaded : ((load tree (.ofString ".") none).runOn {}).1 = .ok config := by decide +kernel
  have shows : config.ShownAs shown := ⟨text, by decide +kernel, .inr rfl⟩
  have decoded : Yaml.decode shown.toList = .ok config.toData := by decide +kernel
  have only : paths (.ofString ".") none = [.ofString ".devscore.yml"] := by decide +kernel
  have holds := read_treeWith shown
  exact ⟨tree, config, shown, treeWith shown, loaded, rfl, shows, decoded, holds,
    (load_shown loaded).2 shown shows decoded _ _ _ _ only holds⟩

end Config

end Scorecard
