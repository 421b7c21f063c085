import Scorecard.Proofs.Selection.DirectoryRules
import Scorecard.Proofs.Selection.Limit
import Scorecard.Proofs.Selection.Patterns

/-!
# Directories that are left out

A directory may be left out by its name, in any of four spellings. They all stand for the same rule,
which takes exactly what lies below the directory. As long as no other pattern of what to leave out
is negated, no order and no company of patterns takes that back: the filter keeps nothing below the
directory, so no search for files of directories finds anything there.

A pattern counts as negated by how its rule starts, after white space and prefixes are off. One that
is written with white space before the mark is negated all the same, and lets the directory in
again.
-/

namespace Scorecard

namespace Path

variable {here path directory : Path} {names more : List String}

/-- Whether a path, taken from the working directory, leads to somewhere below a directory. -/
def LeadsBelow (path here directory : Path) : Prop :=
  ∃ names, names ≠ [] ∧ path.resolve here = (directory.resolve here).descendant names

theorem collapse_append_of_notMem (front : List String) (proper : ".." ∉ names) :
    collapse (front ++ names) = collapse front ++ names := by
  induction names using List.reverseRecOn with
  | nil => rw [List.append_nil, List.append_nil]
  | append_singleton names last ih =>
      rw [List.mem_append, List.mem_singleton, not_or] at proper
      rw [collapse] at ih ⊢
      rw [← List.append_assoc, List.foldl_concat, ih proper.1, if_neg (Ne.symm proper.2),
        List.append_assoc]

theorem resolve_descendant (here directory : Path) (proper : ".." ∉ names) :
    (directory.descendant names).resolve here = (directory.resolve here).descendant names := by
  have joined : (here.join (directory.descendant names)).components =
      (here.join directory).components ++ names := by
    have start : (directory.descendant names).isAbsolute = directory.isAbsolute := rfl
    rw [join, join, start]
    by_cases absolute : directory.isAbsolute = true
    · rw [if_pos absolute, if_pos absolute]
      rfl
    · rw [if_neg absolute, if_neg absolute]
      exact (List.append_assoc _ _ _).symm
  rw [resolve, joined, collapse_append_of_notMem _ proper]
  rfl

theorem below?_descendant (directory : Path) (names : List String) :
    (directory.descendant names).below? directory =
      some { anchor := .relative, components := names } := by
  have inside : directory.components.isPrefixOf (directory.components ++ names) = true :=
    List.isPrefixOf_iff_prefix.mpr (List.prefix_append _ _)
  rw [below?, descendant]
  simp [inside]

/-- No path lies below a directory that lies below the path. -/
theorem not_leadsBelow_descendant (here directory : Path) (named : names ≠ [])
    (proper : ".." ∉ names) : ¬ directory.LeadsBelow here (directory.descendant names) := by
  rintro ⟨more, -, same⟩
  rw [resolve_descendant here directory proper] at same
  have size := congrArg (fun path : Path => path.components.length) same
  simp only [descendant, List.length_append] at size
  have positive := List.length_pos_of_ne_nil named
  omega

end Path

/-- The text of a directory from its names. -/
def directoryText (names : List String) : List Char :=
  joinWith ['/'] (names.map String.toList)

/-- The ways to write a directory in a pattern. -/
def directorySpellings (names : List String) : List String :=
  let text := "/".intercalate names
  [text, text ++ "/", "./" ++ text, "/" ++ text]

theorem toList_of_mem_directorySpellings {names : List String} {spelling : String}
    (mem : spelling ∈ directorySpellings names) :
    spelling.toList = directoryText names ∨ spelling.toList = directoryText names ++ ['/'] ∨
      spelling.toList = '.' :: '/' :: directoryText names ∨
      spelling.toList = '/' :: directoryText names := by
  simp only [directorySpellings, List.mem_cons, List.not_mem_nil, or_false] at mem
  have text : ("/".intercalate names).toList = directoryText names := toList_intercalate_slash names
  rcases mem with rfl | rfl | rfl | rfl
  · exact .inl text
  · exact .inr (.inl (by rw [String.toList_append, text]; rfl))
  · exact .inr (.inr (.inl (by rw [String.toList_append, text]; rfl)))
  · exact .inr (.inr (.inr (by rw [String.toList_append, text]; rfl)))

/-- The names of a directory that a pattern may give as they are: without characters that mean
something else, white space and marks at the ends, and an ending of the last name. -/
structure IsPlainDirectory (names : List String) : Prop where
  named : names ≠ []
  proper : ∀ name ∈ names, name ≠ "" ∧ name ≠ "." ∧ name ≠ ".."
  plain : ∀ name ∈ names, ∀ c ∈ name.toList, c ≠ '/' ∧ Glob.IsPlain c
  starts : ∀ c ∈ (directoryText names).head?, isBlank c = false ∧ c ≠ '#' ∧ c ≠ '!'
  ends : ∀ c ∈ (directoryText names).getLast?, isBlank c = false
  noSuffix : Path.suffixOf (names.getLast?.getD "").toList = []

namespace IsPlainDirectory

variable {names : List String}

theorem pieces_ne_nil (directory : IsPlainDirectory names) : names.map String.toList ≠ [] := by
  simpa using directory.named

theorem slash_notMem (directory : IsPlainDirectory names) :
    ∀ piece ∈ names.map String.toList, '/' ∉ piece := by
  intro piece mem slash
  rcases List.mem_map.mp mem with ⟨name, nameMem, rfl⟩
  exact (directory.plain name nameMem '/' slash).1 rfl

theorem isPlain_of_mem_piece (directory : IsPlainDirectory names) :
    ∀ piece ∈ names.map String.toList, ∀ c ∈ piece, Glob.IsPlain c := by
  intro piece mem c inside
  rcases List.mem_map.mp mem with ⟨name, nameMem, rfl⟩
  exact (directory.plain name nameMem c inside).2

theorem proper_piece (directory : IsPlainDirectory names) :
    ∀ piece ∈ names.map String.toList, piece ≠ [] ∧ piece ≠ ['.'] := by
  intro piece mem
  rcases List.mem_map.mp mem with ⟨name, nameMem, rfl⟩
  rcases directory.proper name nameMem with ⟨nonempty, notHere, -⟩
  exact ⟨fun empty => nonempty (String.toList_inj.mp empty),
    fun here => notHere (String.toList_inj.mp here)⟩

theorem splitAtChar_text (directory : IsPlainDirectory names) :
    splitAtChar '/' (directoryText names) = names.map String.toList :=
  splitAtChar_joinWith directory.pieces_ne_nil directory.slash_notMem

/-- The text is cut into proper names, so it neither starts nor ends with a slash, and does not
start from the current directory. -/
theorem text_shape (directory : IsPlainDirectory names) :
    directoryText names ≠ [] ∧ directoryText names ≠ ['.'] ∧ ¬ ['.', '/'] <+: directoryText names ∧
      (directoryText names).head? ≠ some '/' ∧ (directoryText names).getLast? ≠ some '/' := by
  have proper := directory.proper_piece
  rw [← directory.splitAtChar_text] at proper
  refine ⟨?_, ?_, ?_, ?_, ?_⟩
  · intro empty
    rw [empty] at proper
    exact (proper [] (by simp [splitAtChar])).1 rfl
  · intro here
    rw [here] at proper
    exact (proper ['.'] (by simp [splitAtChar])).2 rfl
  · rintro ⟨rest, whole⟩
    rw [← whole] at proper
    exact (proper ['.'] (by simp [splitAtChar])).2 rfl
  · intro slash
    rcases List.head?_eq_some_iff.mp slash with ⟨rest, whole⟩
    rw [whole] at proper
    exact (proper [] (by simp [splitAtChar])).1 rfl
  · intro slash
    rcases List.getLast?_eq_some_iff.mp slash with ⟨front, whole⟩
    rw [whole, splitAtChar_append_cons] at proper
    exact (proper [] (by simp [splitAtChar])).1 rfl

theorem isPlain_of_mem_text (directory : IsPlainDirectory names) {c : Char}
    (mem : c ∈ directoryText names) : Glob.IsPlain c := by
  rcases mem_joinWith mem with slash | ⟨piece, pieceMem, inside⟩
  · rw [List.mem_singleton.mp slash]
    exact ⟨by decide, by decide, by decide, by decide⟩
  · exact directory.isPlain_of_mem_piece piece pieceMem c inside

theorem suffix_eq (directory : IsPlainDirectory names) :
    (Path.ofString (String.ofList (directoryText names))).suffix = "" := by
  have components : (Path.ofString (String.ofList (directoryText names))).components = names := by
    have restored : String.ofList ∘ String.toList = id := funext fun name => String.ofList_toList
    rw [Path.ofString, String.toList_ofList, directory.splitAtChar_text, List.map_map, restored,
      List.map_id]
    refine List.filter_eq_self.mpr fun name mem => ?_
    rcases directory.proper name mem with ⟨nonempty, notHere, -⟩
    simp [nonempty, notHere]
  rw [Path.suffix, Path.name, components, directory.noSuffix]

theorem completePattern_text (directory : IsPlainDirectory names) :
    completePattern (directoryText names) = directoryText names ++ ['/', '*', '*'] := by
  rcases directory.text_shape with ⟨nonempty, notHere, -, -, noSlash⟩
  have named : ¬ ((directoryText names).isEmpty = true ∨ directoryText names = ['.']) := by
    rw [List.isEmpty_iff]
    exact not_or.mpr ⟨nonempty, notHere⟩
  have tame : hasWildcard (directoryText names) = false := by
    refine List.any_eq_false.mpr fun c mem => ?_
    rcases directory.isPlain_of_mem_text mem with ⟨-, notStar, notMark, notBracket⟩
    simp [notStar, notMark, notBracket]
  rw [completePattern, if_neg named, if_neg noSlash, tame, directory.suffix_eq]
  rfl

/-- All spellings of a directory stand for the rule of the directory and all below it. -/
theorem normalizePattern_spelling (directory : IsPlainDirectory names) {spelling : String}
    (mem : spelling ∈ directorySpellings names) :
    normalizePattern spelling.toList = directoryText names ++ ['/', '*', '*'] := by
  rcases directory.text_shape with ⟨nonempty, notHere, unprefixed, relative, -⟩
  have last := List.getLast?_eq_getLast_of_ne_nil nonempty
  have solid := directory.ends _ last
  have slashed : '\\' ∉ directoryText names :=
    fun inside => (directory.isPlain_of_mem_text inside).1 rfl
  have start : ∀ c ∈ (directoryText names).head?, isBlank c = false ∧ c ≠ '#' :=
    fun c head => ⟨(directory.starts c head).1, (directory.starts c head).2.1⟩
  rcases toList_of_mem_directorySpellings mem with same | same | same | same
  · rw [same, normalizePattern_of_solid start last solid slashed,
      withoutPrefixes_eq_self unprefixed relative, directory.completePattern_text]
  · have sameStart : (directoryText names ++ ['/']).head? = (directoryText names).head? :=
      List.head?_append_of_ne_nil _ nonempty
    rw [← sameStart] at start relative
    rw [same, normalizePattern_of_solid start List.getLast?_concat (by decide) (by simp [slashed]),
      withoutPrefixes_eq_self ((prefix_append_iff nonempty notHere _).not.mpr unprefixed) relative,
      completePattern_concat_slash]
  · have ends : ('.' :: '/' :: directoryText names).getLast? = _ :=
      (List.getLast?_append_of_ne_nil ['.', '/'] nonempty).trans last
    have starts : ∀ c ∈ ('.' :: '/' :: directoryText names).head?, isBlank c = false ∧ c ≠ '#' := by
      rintro c ⟨⟩
      decide
    rw [same, normalizePattern_of_solid starts ends solid (by simp [slashed]),
      withoutPrefixes_here relative, directory.completePattern_text]
  · have ends : ('/' :: directoryText names).getLast? = _ :=
      (List.getLast?_append_of_ne_nil ['/'] nonempty).trans last
    have starts : ∀ c ∈ ('/' :: directoryText names).head?, isBlank c = false ∧ c ≠ '#' := by
      rintro c ⟨⟩
      decide
    rw [same, normalizePattern_of_solid starts ends solid (by simp [slashed]),
      withoutPrefixes_root relative, directory.completePattern_text]

theorem ofLine?_text (directory : IsPlainDirectory names) :
    PathRule.ofLine? (directoryText names ++ ['/', '*', '*']) =
      .ok (some (PathRule.ofDirectory (names.map String.toList))) :=
  PathRule.ofLine?_directory directory.pieces_ne_nil
    (fun piece mem => (directory.proper_piece piece mem).1) directory.slash_notMem
      directory.isPlain_of_mem_piece fun c head => (directory.starts c head).2

end IsPlainDirectory

namespace PathFilter

variable {tree : FileTree} {root : Path} {config : Config} {filter : PathFilter} {here path : Path}
  {names : List String}

theorem rules_of_ofConfig (built : ofConfig tree root config = .ok filter) :
    filter.root = root ∧ rulesOf config.excluded = .ok filter.excluded := by
  rw [ofConfig, bind_eq_ok_iff] at built
  rcases built with ⟨included, -, built⟩
  rw [bind_eq_ok_iff] at built
  rcases built with ⟨excluded, read, built⟩
  rw [bind_eq_ok_iff] at built
  rcases built with ⟨ignored, -, built⟩
  cases built
  exact ⟨rfl, read⟩

/-- The rules of patterns are those of the normal forms. -/
theorem mem_rulesOf_iff {patterns : List String} {rules : List PathRule} {rule : PathRule}
    (read : rulesOf patterns = .ok rules) :
    rule ∈ rules ↔ ∃ pattern ∈ patterns, normalizePattern pattern.toList ≠ [] ∧
      PathRule.ofLine? (normalizePattern pattern.toList) = .ok (some rule) := by
  rw [PathRule.mem_ofLines_iff read]
  simp only [List.mem_filter, List.mem_map, Bool.not_eq_true', List.isEmpty_eq_false_iff]
  constructor
  · rintro ⟨_, ⟨⟨pattern, mem, rfl⟩, nonempty⟩, line⟩
    exact ⟨pattern, mem, nonempty, line⟩
  · rintro ⟨pattern, mem, nonempty, line⟩
    exact ⟨_, ⟨⟨pattern, mem, rfl⟩, nonempty⟩, line⟩

/-- Nothing below a directory is kept if its rule is among the rules of what is left out, and none
of these is negated. -/
theorem keeps_eq_false (plain : ∀ rule ∈ filter.excluded, rule.isNegated = false)
    (mem : PathRule.ofDirectory (names.map String.toList) ∈ filter.excluded) (named : names ≠ [])
    (proper : ".." ∉ names) (below : path.LeadsBelow here (filter.root.descendant names)) :
    filter.keeps here path = false := by
  rcases below with ⟨more, nonempty, same⟩
  have resolved : path.resolve here = (filter.root.resolve here).descendant (names ++ more) := by
    rw [same, Path.resolve_descendant here filter.root proper, Path.descendant, Path.descendant,
      Path.descendant, List.append_assoc]
  have text : (Path.display { anchor := .relative, components := names ++ more }).toList =
      directoryText names ++ ['/'] ++ directoryText more := by
    have shown : Path.display { anchor := .relative, components := names ++ more } =
        "/".intercalate (names ++ more) := by
      simp [Path.display, named]
    have pieces : names.map String.toList ≠ [] := by simpa using named
    have others : more.map String.toList ≠ [] := by simpa using nonempty
    rw [shown, toList_intercalate_slash, List.map_append, joinWith_append _ pieces others]
    rfl
  have selected :
      PathRule.selects filter.excluded (directoryText names ++ ['/'] ++ directoryText more) =
        true := by
    have starts : joinWith ['/'] (names.map String.toList) ++ ['/'] <+:
        directoryText names ++ ['/'] ++ directoryText more := List.prefix_append _ _
    refine (PathRule.selects_iff plain).mpr ⟨_, mem, ?_⟩
    rw [PathRule.hold?_ofDirectory, if_pos starts]
    exact Option.some_ne_none _
  rw [keeps, resolved, Path.below?_descendant]
  simp only [text, selected, Bool.not_true, Bool.and_false, Bool.false_and]

end PathFilter

namespace Discovery

variable {tree : FileTree} {root path : Path} {config : Config} {filter : PathFilter}
  {targets found : List Path}

/-- What is found for targets that are no files is kept by the filter, the root apart. -/
theorem keeps_of_mem_files (built : PathFilter.ofConfig tree root config = .ok filter)
    (answered : files tree root config targets = .ok found)
    (noFiles : ∀ target ∈ targets, tree.isFile target = false) (mem : path ∈ found) :
    path = root ∨ filter.keeps tree.here path = true := by
  rcases exists_mem_filesOf built answered mem with ⟨target, targetMem, stands⟩
  rw [filesOf] at stands
  split at stands
  · rw [sourcesBelow, List.mem_filter, Bool.and_eq_true] at stands
    exact .inr stands.2.2
  · next content modified isFile =>
      rw [List.mem_singleton] at stands
      split at targetMem
      · exact .inl (stands.trans (List.mem_singleton.mp targetMem))
      · have none := noFiles target targetMem
        rw [FileTree.isFile, isFile] at none
        cases none
  · cases stands

/-- Nothing below a directory is kept or found, whatever else the patterns say, if a pattern of what
to leave out is a spelling of the directory and none of them stands for a negated rule. -/
theorem excluded_directory_unseen {names : List String} (directory : IsPlainDirectory names)
    (excluded : ∃ spelling ∈ directorySpellings names, spelling ∈ config.excluded)
    (plain : ∀ pattern ∈ config.excluded, (normalizePattern pattern.toList).head? ≠ some '!')
    (built : PathFilter.ofConfig tree root config = .ok filter) :
    (∀ here path, path.LeadsBelow here (root.descendant names) → filter.keeps here path = false) ∧
      ∀ targets found, (∀ target ∈ targets, tree.isFile target = false) →
        files tree root config targets = .ok found →
          ∀ path ∈ found, ¬ path.LeadsBelow tree.here (root.descendant names) := by
  rcases PathFilter.rules_of_ofConfig built with ⟨rfl, read⟩
  have proper : ".." ∉ names := fun mem => (directory.proper _ mem).2.2 rfl
  have positive : ∀ rule ∈ filter.excluded, rule.isNegated = false := by
    intro rule mem
    rcases (PathFilter.mem_rulesOf_iff read).mp mem with ⟨pattern, patternMem, -, line⟩
    rw [PathRule.isNegated_of_ofLine? line, beq_eq_false_iff_ne]
    exact plain pattern patternMem
  have mem : PathRule.ofDirectory (names.map String.toList) ∈ filter.excluded := by
    rcases excluded with ⟨spelling, spelled, mem⟩
    have normal := directory.normalizePattern_spelling spelled
    exact (PathFilter.mem_rulesOf_iff read).mpr ⟨spelling, mem, by simp [normal],
      normal ▸ directory.ofLine?_text⟩
  have unkept : ∀ here path, path.LeadsBelow here (filter.root.descendant names) →
      filter.keeps here path = false :=
    fun here path => PathFilter.keeps_eq_false positive mem directory.named proper
  refine ⟨unkept, fun targets found noFiles answered path pathMem below => ?_⟩
  rcases keeps_of_mem_files built answered noFiles pathMem with rfl | kept
  · exact Path.not_leadsBelow_descendant _ _ directory.named proper below
  · rw [unkept _ _ below] at kept
    cases kept

/-- A tree with files in a directory that is left out, one of them deep in it, and a file beside
it. -/
def generatedTree : FileTree where
  workingDirectory := ["repo"]
  nodes :=
    [(["repo"], .directory), (["repo", ".devscoreignore"], .file (Utf8.encode "!gen/\n".toList) 0),
      (["repo", "src"], .directory), (["repo", "src", "gen"], .directory),
      (["repo", "src", "gen", "a.py"], .file [] 0),
      (["repo", "src", "gen", "deep"], .directory),
      (["repo", "src", "gen", "deep", "b.py"], .file [] 0),
      (["repo", "src", "c.py"], .file [] 0)]

/-- A configuration that leaves the directory out, among other patterns. -/
def generatedConfig : Config where
  included := [".", "src/gen"]
  excluded := ["docs/*.md", "./src/gen", ".venv"]

/-- A configuration with a mark after white space that lets the directory in again. -/
def negatedConfig : Config where
  excluded := ["src/gen", " !src/gen"]

theorem generated_isPlainDirectory : IsPlainDirectory ["src", "gen"] where
  named := by decide
  proper := by decide
  plain := by
    have all :
        (["src", "gen"].all fun name => name.toList.all fun c =>
          decide (c ≠ '/' ∧ Glob.IsPlain c)) = true := by
      decide
    intro name mem c inside
    exact of_decide_eq_true (List.all_eq_true.mp (List.all_eq_true.mp all name mem) c inside)
  starts := by
    have head : (directoryText ["src", "gen"]).head? = some 's' := by decide
    rw [head]
    rintro c ⟨⟩
    decide
  ends := by
    have last : (directoryText ["src", "gen"]).getLast? = some 'n' := by decide
    rw [last]
    rintro c ⟨⟩
    decide
  noSuffix := by decide

theorem generated_leadsBelow : (Path.ofString "src/gen/deep/b.py").LeadsBelow generatedTree.here
    ((Path.ofString ".").descendant ["src", "gen"]) :=
  ⟨["deep", "b.py"], by decide, by decide⟩

theorem generated_noFiles :
    ∀ target ∈ [Path.ofString "src"], generatedTree.isFile target = false := by
  decide

/-- A file of the tree that a configuration keeps is found. -/
theorem exists_files_generatedTree (config : Config) (names : List String)
    (languages : config.languages = Language.supported) (enough : 3 < config.maxFiles)
    (proper : ".." ∉ names) (below : names ≠ [])
    (isFile : generatedTree.isFile ((Path.ofString "src").descendant names) = true)
    (suffix : ((Path.ofString "src").descendant names).suffix = ".py")
    (kept : ∃ filter, PathFilter.ofConfig generatedTree (.ofString ".") config = .ok filter ∧
      filter.keeps generatedTree.here ((Path.ofString "src").descendant names) = true) :
    ∃ filter found, PathFilter.ofConfig generatedTree (.ofString ".") config = .ok filter ∧
      filter.keeps generatedTree.here ((Path.ofString "src").descendant names) = true ∧
      files generatedTree (.ofString ".") config [.ofString "src"] = .ok found ∧
      (Path.ofString "src").descendant names ∈ found := by
  have wellFormed : generatedTree.WellFormed := by decide
  have located : generatedTree.locate (.ofString "src") = .ok ["repo", "src"] := by decide
  have isDirectory : generatedTree.isDirectory (.ofString "src") = true := by decide
  have python :
      Language.HasExtension config.languages ((Path.ofString "src").descendant names).suffix := by
    rw [languages, suffix]
    exact ⟨"python", by decide, [".py"], by decide, by decide⟩
  have size : (generatedTree.nodes.filter (·.2 ≠ .directory)).length = 4 := by decide
  rcases kept with ⟨filter, built, keeps⟩
  refine ⟨filter, _, built, keeps,
    files_eq_sourcesBelow wellFormed located isDirectory (by omega) built, ?_⟩
  exact (mem_sourcesBelow wellFormed located).mpr
    (isSourceBelow_of_suffix ⟨names, below, proper, rfl⟩ isFile python keeps)

theorem excluded_directory_unseen_nested :
    IsPlainDirectory ["src", "gen"] ∧
      (∃ spelling ∈ directorySpellings ["src", "gen"], spelling ∈ generatedConfig.excluded) ∧
      (∀ pattern ∈ generatedConfig.excluded, (normalizePattern pattern.toList).head? ≠ some '!') ∧
      ∃ filter found,
      PathFilter.ofConfig generatedTree (.ofString ".") generatedConfig = .ok filter ∧
        filter.keeps generatedTree.here (.ofString "src/gen/deep/b.py") = false ∧
        files generatedTree (.ofString ".") generatedConfig [.ofString "src"] = .ok found ∧
        Path.ofString "src/c.py" ∈ found ∧ Path.ofString "src/gen/deep/b.py" ∉ found := by
  have excluded :
      ∃ spelling ∈ directorySpellings ["src", "gen"], spelling ∈ generatedConfig.excluded :=
    ⟨"./src/gen", by decide, by decide⟩
  have plain :
      ∀ pattern ∈ generatedConfig.excluded, (normalizePattern pattern.toList).head? ≠ some '!' := by
    decide
  have names : Path.ofString "src/c.py" = (Path.ofString "src").descendant ["c.py"] := by decide
  rcases exists_files_generatedTree generatedConfig ["c.py"] rfl (by decide) (by decide) (by decide)
    (by decide) (by decide) (by decide) with ⟨filter, found, built, -, answered, mem⟩
  rcases excluded_directory_unseen generated_isPlainDirectory excluded plain built with
    ⟨unkept, unfound⟩
  refine ⟨generated_isPlainDirectory, excluded, plain, filter, found, built,
    unkept _ _ generated_leadsBelow, answered, names ▸ mem, fun other => ?_⟩
  exact unfound _ _ generated_noFiles answered _ other generated_leadsBelow

/-- A pattern that does not start with the mark of a negated rule lets in a directory that another
one leaves out. -/
theorem excluded_directory_seen :
    IsPlainDirectory ["src", "gen"] ∧
      (∃ spelling ∈ directorySpellings ["src", "gen"], spelling ∈ negatedConfig.excluded) ∧
      (∀ pattern ∈ negatedConfig.excluded, pattern.toList.head? ≠ some '!') ∧
      (Path.ofString "src/gen/deep/b.py").LeadsBelow generatedTree.here
        ((Path.ofString ".").descendant ["src", "gen"]) ∧
      ∃ filter found, PathFilter.ofConfig generatedTree (.ofString ".") negatedConfig = .ok filter ∧
        filter.keeps generatedTree.here (.ofString "src/gen/deep/b.py") = true ∧
        files generatedTree (.ofString ".") negatedConfig [.ofString "src"] = .ok found ∧
        Path.ofString "src/gen/deep/b.py" ∈ found := by
  have names : Path.ofString "src/gen/deep/b.py" =
      (Path.ofString "src").descendant ["gen", "deep", "b.py"] := by
    decide
  refine ⟨generated_isPlainDirectory, ⟨"src/gen", by decide, by decide⟩, by decide,
    generated_leadsBelow, ?_⟩
  rw [names]
  exact exists_files_generatedTree negatedConfig _ rfl (by decide) (by decide) (by decide)
    (by decide) (by decide) (by decide)

end Discovery

end Scorecard
