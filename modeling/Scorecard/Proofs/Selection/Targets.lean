import Scorecard.Proofs.Selection.Search
import Scorecard.Proofs.Selection.Sources

/-!
# The files that targets stand for

Each target stands for some files, whatever the other targets are: the search is given these files,
target by target, and finds their first appearances up to the limit. In a well-formed tree an
existing path is resolved to the place where it leads, so the files found are at different places.

A limit that is no smaller than the number of files cuts nothing off. Then a directory gives all its
source files. What is missing among the files of which the ending is an extension up to case are
those with an ending not in lower case: no candidate is one of them.
-/

namespace Scorecard

namespace FileTree

variable {tree : FileTree} {path other : Path}

/-- A file is a node of the tree, at the place that its path is resolved to. -/
theorem WellFormed.exists_node_of_isFile (wellFormed : tree.WellFormed)
    (isFile : tree.isFile path = true) :
    ∃ place node, tree.locate path = .ok place ∧ (place, node) ∈ tree.nodes ∧ node ≠ .directory ∧
      path.resolve tree.here = { anchor := .root, components := place } := by
  rcases exists_file_of_isFile isFile with ⟨content, modified, found⟩
  cases located : tree.locate path with
  | error problem => simp [find?, located] at found
  | ok place =>
      rw [find?_of_locate located] at found
      have below : place ≠ [] := by
        rintro rfl
        simp [node?] at found
      rw [node?, if_neg (by simpa using below), lookup_eq_some_iff_mem wellFormed.distinct] at found
      exact ⟨place, _, rfl, found, by simp, wellFormed.resolve_of_locate located⟩

/-- Files are resolved alike if and only if they are at one place. -/
theorem WellFormed.resolve_eq_iff (wellFormed : tree.WellFormed) (isFile : tree.isFile path = true)
    (otherIs : tree.isFile other = true) :
    path.resolve tree.here = other.resolve tree.here ↔ tree.locate path = tree.locate other := by
  rcases wellFormed.exists_node_of_isFile isFile with ⟨place, _, located, -, -, resolved⟩
  rcases wellFormed.exists_node_of_isFile otherIs with
    ⟨otherPlace, _, otherLocated, -, -, otherResolved⟩
  rw [located, otherLocated, resolved, otherResolved]
  simp

/-- There are no more files at different places than there are files. -/
theorem WellFormed.length_le_of_isFile (wellFormed : tree.WellFormed) {paths : List Path}
    (areFiles : ∀ path ∈ paths, tree.isFile path = true)
    (distinct : (paths.map (·.resolve tree.here)).Nodup) :
    paths.length ≤ (tree.nodes.filter (·.2 ≠ .directory)).length := by
  have listed : paths.map (·.resolve tree.here) ⊆
      (tree.nodes.filter (·.2 ≠ .directory)).map fun entry =>
        { anchor := .root, components := entry.1 } := by
    intro resolved mem
    rcases List.mem_map.mp mem with ⟨path, pathMem, rfl⟩
    rcases wellFormed.exists_node_of_isFile (areFiles path pathMem) with
      ⟨place, node, -, nodeMem, isFile, resolved⟩
    exact List.mem_map.mpr ⟨(place, node), List.mem_filter.mpr ⟨nodeMem, by simpa using isFile⟩,
      resolved.symm⟩
  simpa using (List.subperm_of_subset distinct listed).length_le

end FileTree

namespace Discovery

/-- What a target stands for: a file for itself, a directory for the source files below it in the
order of their paths, a path that leads nowhere for nothing. -/
inductive StandsFor (tree : FileTree) (filter : PathFilter) (languages : List String) :
    Path → List Path → Prop where
  | file {target : Path} (isFile : tree.isFile target = true) :
      StandsFor tree filter languages target [target]
  | directory {target : Path} {sources : List Path} (isDirectory : tree.isDirectory target = true)
      (sorted : sources.Pairwise fun left right => left.lessThan right = true)
      (members : ∀ path, path ∈ sources ↔ IsSourceBelow tree filter languages target path) :
      StandsFor tree filter languages target sources
  | missing {target : Path} (absent : tree.contains target = false) :
      StandsFor tree filter languages target []

/-- What targets stand for together, without paths that lead to the place of an earlier one. -/
def AllFiles (tree : FileTree) (filter : PathFilter) (languages : List String)
    (targets found : List Path) : Prop :=
  ∃ parts, List.Forall₂ (StandsFor tree filter languages) targets parts ∧
    found = firstAppearances tree.here parts.flatten

variable {tree : FileTree} {filter : PathFilter} {languages : List String} {root target path : Path}
  {config : Config} {targets : List Path}

theorem standsFor_filesOf (wellFormed : tree.WellFormed) (target : Path) :
    StandsFor tree filter languages target
      (filesOf tree filter (Language.extensionsOf languages) target) := by
  rw [filesOf]
  cases found : tree.find? target with
  | none => exact .missing (by rw [FileTree.contains, found]; rfl)
  | some node =>
      cases node with
      | file content modified => exact .file (by rw [FileTree.isFile, found])
      | directory =>
          cases located : tree.locate target with
          | error problem => simp [FileTree.find?, located] at found
          | ok place =>
              exact .directory (by rw [FileTree.isDirectory, found]; rfl)
                (pairwise_sourcesBelow wellFormed located) fun path =>
                  mem_sourcesBelow wellFormed located

namespace StandsFor

variable {files : List Path}

theorem isFile_of_mem (stands : StandsFor tree filter languages target files) (mem : path ∈ files) :
    tree.isFile path = true := by
  cases stands with
  | file isFile => rwa [List.mem_singleton.mp mem]
  | directory isDirectory sorted members => exact ((members path).mp mem).isFile
  | missing absent => cases mem

theorem mem_of_isFile (stands : StandsFor tree filter languages target files)
    (isFile : tree.isFile target = true) : target ∈ files := by
  rcases FileTree.exists_file_of_isFile isFile with ⟨content, modified, found⟩
  cases stands with
  | file => exact List.mem_singleton_self _
  | directory isDirectory => simp [FileTree.isDirectory, found] at isDirectory
  | missing absent => simp [FileTree.contains, found] at absent

/-- A target stands for one list of files. -/
theorem unique {others : List Path} (stands : StandsFor tree filter languages target files)
    (otherStands : StandsFor tree filter languages target others) : files = others := by
  cases stands with
  | file isFile =>
      rcases FileTree.exists_file_of_isFile isFile with ⟨content, modified, found⟩
      cases otherStands with
      | file => rfl
      | directory isDirectory => simp [FileTree.isDirectory, found] at isDirectory
      | missing absent => simp [FileTree.contains, found] at absent
  | directory isDirectory sorted members =>
      rw [FileTree.isDirectory, beq_iff_eq] at isDirectory
      cases otherStands with
      | file isFile => simp [FileTree.isFile, isDirectory] at isFile
      | directory _ otherSorted otherMembers =>
          exact Path.eq_of_pairwise_lessThan sorted otherSorted
            fun path => (members path).trans (otherMembers path).symm
      | missing absent => simp [FileTree.contains, isDirectory] at absent
  | missing absent =>
      rw [FileTree.contains, Option.isSome_eq_false_iff, Option.isNone_iff_eq_none] at absent
      cases otherStands with
      | file isFile => simp [FileTree.isFile, absent] at isFile
      | directory isDirectory => simp [FileTree.isDirectory, absent] at isDirectory
      | missing => rfl

theorem isFile_of_mem_flatten {parts : List (List Path)}
    (stand : List.Forall₂ (StandsFor tree filter languages) targets parts)
    (mem : path ∈ parts.flatten) : tree.isFile path = true := by
  induction stand with
  | nil => cases mem
  | cons stands _ ih =>
      rcases List.mem_append.mp mem with first | later
      · exact stands.isFile_of_mem first
      · exact ih later

theorem mem_flatten_of_isFile {parts : List (List Path)}
    (stand : List.Forall₂ (StandsFor tree filter languages) targets parts) (mem : target ∈ targets)
    (isFile : tree.isFile target = true) : target ∈ parts.flatten := by
  induction stand with
  | nil => cases mem
  | cons stands _ ih =>
      rw [List.flatten_cons, List.mem_append]
      rcases List.mem_cons.mp mem with rfl | later
      · exact Or.inl (stands.mem_of_isFile isFile)
      · exact Or.inr (ih later)

end StandsFor

namespace AllFiles

variable {found : List Path}

theorem unique {others : List Path} (all : AllFiles tree filter languages targets found)
    (otherAll : AllFiles tree filter languages targets others) : others = found := by
  rcases all with ⟨parts, stand, rfl⟩
  rcases otherAll with ⟨otherParts, otherStand, rfl⟩
  have same : parts = otherParts :=
    List.right_unique_forall₂' (fun _ _ _ stands otherStands => stands.unique otherStands) stand
      otherStand
  rw [same]

theorem isFile_of_mem (all : AllFiles tree filter languages targets found) (mem : path ∈ found) :
    tree.isFile path = true := by
  rcases all with ⟨parts, stand, rfl⟩
  exact StandsFor.isFile_of_mem_flatten stand ((firstAppearances_sublist _).subset mem)

/-- No file is there twice. -/
theorem nodup_locate (wellFormed : tree.WellFormed)
    (all : AllFiles tree filter languages targets found) : (found.map tree.locate).Nodup := by
  have distinct : (found.map (·.resolve tree.here)).Nodup := by
    rcases all with ⟨parts, -, rfl⟩
    exact nodup_firstAppearances _
  rw [List.Nodup, List.pairwise_map] at distinct ⊢
  refine distinct.imp_of_mem fun mem otherMem different same => different ?_
  exact (wellFormed.resolve_eq_iff (all.isFile_of_mem mem) (all.isFile_of_mem otherMem)).mpr same

/-- A target that is a file is there, at its place. -/
theorem exists_mem_of_isFile (wellFormed : tree.WellFormed)
    (all : AllFiles tree filter languages targets found) (mem : target ∈ targets)
    (isFile : tree.isFile target = true) :
    ∃ path ∈ found, tree.locate path = tree.locate target := by
  have areFiles : ∀ path ∈ found, tree.isFile path = true := fun _ => all.isFile_of_mem
  rcases all with ⟨parts, stand, rfl⟩
  have listed := StandsFor.mem_flatten_of_isFile stand mem isFile
  rcases exists_mem_firstAppearances tree.here listed with ⟨path, kept, resolved⟩
  exact ⟨path, kept, (wellFormed.resolve_eq_iff (areFiles path kept) isFile).mp resolved⟩

end AllFiles

theorem allFiles_filesOf (wellFormed : tree.WellFormed) (targets : List Path) :
    AllFiles tree filter languages targets (firstAppearances tree.here
      (targets.flatMap (filesOf tree filter (Language.extensionsOf languages)))) := by
  rw [List.flatMap_def]
  refine ⟨_, ?_, rfl⟩
  rw [List.forall₂_map_right_iff, List.forall₂_same]
  exact fun target _ => standsFor_filesOf wellFormed target

theorem files_eq_foldl (built : PathFilter.ofConfig tree root config = .ok filter) :
    files tree root config targets = .ok (((if targets = [] then [root] else targets).flatMap
      (filesOf tree filter (Language.extensionsOf config.languages))).foldl
        (Search.take config.maxFiles tree.here) (.going [] [])).files := by
  rw [files, built]
  simp only [List.isEmpty_iff, ← List.foldl_flatMap]
  rfl

/-- The files found are those that the targets stand for, target by target, without those at a place
that was met before, up to the limit. No file is found twice, a target that is a file is among them
unless the limit cuts it off, and under a larger limit the files found go on from there. -/
theorem files_eq_take (wellFormed : tree.WellFormed) (positive : 1 ≤ config.maxFiles) (root : Path)
    (targets : List Path) :
    match PathFilter.ofConfig tree root config with
    | .error fault => files tree root config targets = .error fault
    | .ok filter =>
        ∃ found,
          (∀ listed, AllFiles tree filter config.languages
            (if targets = [] then [root] else targets) listed ↔ listed = found) ∧
          files tree root config targets = .ok (found.take config.maxFiles.toNat) ∧
          (found.map tree.locate).Nodup ∧
          (∀ target ∈ targets, tree.isFile target = true →
            ∃ path ∈ found, tree.locate path = tree.locate target) ∧
          ∀ larger, config.maxFiles ≤ larger → ∃ more,
            files tree root { config with maxFiles := larger } targets = .ok more ∧
              found.take config.maxFiles.toNat <+: more := by
  cases built : PathFilter.ofConfig tree root config with
  | error fault =>
      rw [files, built]
      rfl
  | ok filter =>
      have all : AllFiles tree filter config.languages _ _ :=
        allFiles_filesOf wellFormed (if targets = [] then [root] else targets)
      refine ⟨_, fun listed => ⟨all.unique, fun same => same ▸ all⟩, ?_,
        all.nodup_locate wellFormed, ?_, ?_⟩
      · rw [files_eq_foldl built, Search.files_foldl_take positive]
      · intro target mem
        rw [if_neg (List.ne_nil_of_mem mem)] at all ⊢
        exact all.exists_mem_of_isFile wellFormed mem
      · intro larger noSmaller
        refine ⟨_, files_eq_foldl built, ?_⟩
        rw [Search.files_foldl_take (positive.trans noSmaller)]
        exact List.take_prefix_take_left (Int.toNat_le_toNat noSmaller)

/-- A tree with a file in a directory and two files beside the directory. -/
def nestedTree : FileTree where
  workingDirectory := ["repo"]
  nodes :=
    [(["repo"], .directory), (["repo", "b.py"], .file [] 0), (["repo", "notes.txt"], .file [] 0),
      (["repo", "src"], .directory), (["repo", "src", "a.py"], .file [] 0)]

/-- Targets that lead to some files of the tree more than once. -/
def nestedTargets : List Path :=
  ["src", "gone", "src/../notes.txt", ".", "src/a.py"].map Path.ofString

/-- A configuration for two files. -/
def nestedConfig : Config where
  excluded := []
  languages := ["py"]
  maxFiles := 2

theorem files_eq_take_nested : nestedTree.WellFormed ∧ 1 ≤ nestedConfig.maxFiles ∧ ∃ filter found,
    (∀ listed, AllFiles nestedTree filter nestedConfig.languages nestedTargets listed ↔
      listed = found) ∧
      files nestedTree (.ofString ".") nestedConfig nestedTargets = .ok (found.take 2) ∧
      found.take 2 = [.ofString "src/a.py", .ofString "src/../notes.txt"] ∧
      (found.map nestedTree.locate).Nodup ∧
      ∃ path ∈ found, nestedTree.locate path = nestedTree.locate (.ofString "notes.txt") := by
  have wellFormed : nestedTree.WellFormed := by decide
  have positive : 1 ≤ nestedConfig.maxFiles := by decide
  have computed : files nestedTree (.ofString ".") nestedConfig nestedTargets =
      .ok [.ofString "src/a.py", .ofString "src/../notes.txt"] := by cbv
  have answer := files_eq_take wellFormed positive (.ofString ".") nestedTargets
  cases built : PathFilter.ofConfig nestedTree (.ofString ".") nestedConfig with
  | error fault =>
      rw [built, computed] at answer
      cases answer
  | ok filter =>
      rw [built] at answer
      rcases answer with ⟨found, all, answered, distinct, explicit, -⟩
      have first := Except.ok.inj (answered.symm.trans computed)
      have notes := explicit (.ofString "src/../notes.txt") (by decide) (by decide)
      exact ⟨wellFormed, positive, filter, found, all, answered, first, distinct, notes⟩

/-- A limit that is no smaller than the number of files cuts nothing off what a directory stands
for. -/
theorem files_eq_sourcesBelow {place : List String} (wellFormed : tree.WellFormed)
    (located : tree.locate target = .ok place) (isDirectory : tree.isDirectory target = true)
    (enough : ((tree.nodes.filter (·.2 ≠ .directory)).length : Int) ≤ config.maxFiles)
    (built : PathFilter.ofConfig tree root config = .ok filter) :
    files tree root config [target] =
      .ok (sourcesBelow tree filter (Language.extensionsOf config.languages) target) := by
  rw [FileTree.isDirectory, beq_iff_eq] at isDirectory
  have stands : filesOf tree filter (Language.extensionsOf config.languages) target =
      sourcesBelow tree filter (Language.extensionsOf config.languages) target := by
    rw [filesOf, isDirectory]
  have distinct : ((sourcesBelow tree filter (Language.extensionsOf config.languages) target).map
      (·.resolve tree.here)).Nodup := nodup_resolve_sourcesBelow wellFormed located
  have areFiles : ∀ path ∈ sourcesBelow tree filter (Language.extensionsOf config.languages) target,
      tree.isFile path = true :=
    fun path mem => ((mem_sourcesBelow wellFormed located).mp mem).isFile
  have size := wellFormed.length_le_of_isFile areFiles distinct
  rw [files_eq_foldl built, if_neg (List.cons_ne_nil _ _), List.flatMap_singleton, stands]
  by_cases positive : 1 ≤ config.maxFiles
  · rw [Search.files_foldl_take positive, firstAppearances_eq_self distinct,
      List.take_of_length_le (by omega)]
  · have none : sourcesBelow tree filter (Language.extensionsOf config.languages) target = [] :=
      List.eq_nil_of_length_eq_zero (by omega)
    rw [none]
    rfl

/-- With a limit that is no smaller than the number of files, the files found for a directory are,
of the files below it of which the ending is an extension up to case and that the filter keeps,
those with an ending in lower case. -/
theorem mem_files_iff_lowercase (wellFormed : tree.WellFormed)
    (isDirectory : tree.isDirectory target = true)
    (enough : ((tree.nodes.filter (·.2 ≠ .directory)).length : Int) ≤ config.maxFiles)
    (built : PathFilter.ofConfig tree root config = .ok filter) :
    ∃ found, files tree root config [target] = .ok found ∧
      ∀ path, path.IsBelow target → tree.isFile path = true →
        Language.HasExtension config.languages (String.ofList (lower path.suffix.toList)) →
          filter.keeps tree.here path = true →
            (path ∈ found ↔ lower path.suffix.toList = path.suffix.toList) := by
  cases located : tree.locate target with
  | error problem => simp [FileTree.isDirectory, FileTree.find?, located] at isDirectory
  | ok place =>
      refine ⟨_, files_eq_sourcesBelow wellFormed located isDirectory enough built, ?_⟩
      intro path below isFile supported kept
      rw [mem_sourcesBelow wellFormed located]
      constructor
      · exact IsSourceBelow.lower_suffix
      · intro lowercase
        refine ⟨below, isFile, ?_, supported, kept⟩
        rw [Path.suffix, String.toList_ofList] at supported lowercase
        exact (Language.endsWith_extension_iff supported).mpr lowercase

/-- A tree with one file that is written in capitals and one that is not. -/
def capitalTree : FileTree where
  workingDirectory := ["repo"]
  nodes := [(["repo"], .directory), (["repo", "A.PY"], .file [] 0), (["repo", "b.py"], .file [] 0)]

theorem capitalTree_fits : capitalTree.WellFormed ∧ capitalTree.isDirectory (.ofString ".") = true ∧
    ((capitalTree.nodes.filter (·.2 ≠ .directory)).length : Int) ≤ ({} : Config).maxFiles := by
  decide

/-- The two files lie below the working directory, have an extension up to case, and are kept. -/
theorem capitalTree_candidates :
    ∃ filter, PathFilter.ofConfig capitalTree (.ofString ".") {} = .ok filter ∧
      ∀ name ∈ ["A.PY", "b.py"], (Path.ofString name).IsBelow (.ofString ".") ∧
        capitalTree.isFile (.ofString name) = true ∧
      Language.HasExtension Language.supported
        (String.ofList (lower (Path.ofString name).suffix.toList)) ∧
      filter.keeps capitalTree.here (.ofString name) = true := by
  have keeps : ∃ filter, PathFilter.ofConfig capitalTree (.ofString ".") {} = .ok filter ∧
      ∀ name ∈ ["A.PY", "b.py"], filter.keeps capitalTree.here (.ofString name) = true := by decide
  have ends :
      ∀ name ∈ ["A.PY", "b.py"], Path.ofString name = (Path.ofString ".").descendant [name] ∧
        capitalTree.isFile (.ofString name) = true ∧ name ≠ ".." ∧
      String.ofList (lower (Path.ofString name).suffix.toList) = ".py" := by decide
  rcases keeps with ⟨filter, built, kept⟩
  refine ⟨filter, built, fun name mem => ?_⟩
  rcases ends name mem with ⟨below, isFile, proper, ending⟩
  refine ⟨⟨[name], List.cons_ne_nil _ _, by simpa using proper.symm, below⟩, isFile, ?_,
    kept name mem⟩
  exact ending ▸ ⟨"python", by decide, [".py"], by decide, by decide⟩

theorem mem_files_iff_lowercase_capital :
    capitalTree.WellFormed ∧ capitalTree.isDirectory (.ofString ".") = true ∧
      ((capitalTree.nodes.filter (·.2 ≠ .directory)).length : Int) ≤ ({} : Config).maxFiles ∧
      ∃ filter, PathFilter.ofConfig capitalTree (.ofString ".") {} = .ok filter ∧
        ∃ found, files capitalTree (.ofString ".") {} [.ofString "."] = .ok found ∧
          Path.ofString "b.py" ∈ found ∧ Path.ofString "A.PY" ∉ found := by
  rcases capitalTree_fits with ⟨wellFormed, isDirectory, enough⟩
  rcases capitalTree_candidates with ⟨filter, built, candidates⟩
  rcases mem_files_iff_lowercase wellFormed isDirectory enough built with
    ⟨found, answered, lowercase⟩
  refine ⟨wellFormed, isDirectory, enough, filter, built, found, answered, ?_, ?_⟩
  · rcases candidates "b.py" (by decide) with ⟨below, isFile, supported, kept⟩
    exact (lowercase _ below isFile supported kept).mpr (by decide)
  · rcases candidates "A.PY" (by decide) with ⟨below, isFile, supported, kept⟩
    exact (lowercase _ below isFile supported kept).not.mpr (by decide)

/-- A file whose name is in capitals has an extension up to case and is kept, but is not found. -/
theorem files_miss_capital :
    capitalTree.WellFormed ∧ capitalTree.isDirectory (.ofString ".") = true ∧
      ((capitalTree.nodes.filter (·.2 ≠ .directory)).length : Int) ≤ ({} : Config).maxFiles ∧
      ∃ filter found, PathFilter.ofConfig capitalTree (.ofString ".") {} = .ok filter ∧
        files capitalTree (.ofString ".") {} [.ofString "."] = .ok found ∧
        (Path.ofString "A.PY").IsBelow (.ofString ".") ∧
        capitalTree.isFile (.ofString "A.PY") = true ∧ Language.HasExtension Language.supported
          (String.ofList (lower (Path.ofString "A.PY").suffix.toList)) ∧
        filter.keeps capitalTree.here (.ofString "A.PY") = true ∧ Path.ofString "A.PY" ∉ found := by
  rcases capitalTree_fits with ⟨wellFormed, isDirectory, enough⟩
  have located : capitalTree.locate (.ofString ".") = .ok ["repo"] := rfl
  rcases capitalTree_candidates with ⟨filter, built, candidates⟩
  rcases candidates "A.PY" (by decide) with ⟨below, isFile, supported, kept⟩
  have answered := files_eq_sourcesBelow wellFormed located isDirectory enough built
  refine ⟨wellFormed, isDirectory, enough, filter, _, built, answered, below, isFile, supported,
    kept, fun mem => ?_⟩
  have lowercase := ((mem_sourcesBelow wellFormed located).mp mem).lower_suffix
  revert lowercase
  decide

end Discovery

end Scorecard
