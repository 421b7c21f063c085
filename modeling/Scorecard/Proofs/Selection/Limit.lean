import Scorecard.Proofs.Config.Loading
import Scorecard.Proofs.Selection.Targets

/-!
# The limit of a search

A search looks whether it is full after each file that it takes, and so never before the first one.
Hence a limit below one acts as a limit of one: where there is anything to find, one file is found.
Any other limit holds.
-/

namespace Scorecard

namespace Discovery

namespace Search

/-- With the path that is taken there is at least one file, so a limit below one is reached as a
limit of one is. -/
theorem take_max_one (limit : Int) (directory : Path) :
    Search.take (max 1 limit) directory = Search.take limit directory := by
  funext search path
  cases search with
  | ended files => rfl
  | going places files =>
      have full : max 1 limit ≤ ((files ++ [path]).length : Int) ↔
          limit ≤ ((files ++ [path]).length : Int) := by
        rw [List.length_append, List.length_singleton]
        omega
      simp only [Search.take, full]

/-- A search that is given paths finds their first appearances up to the limit, or the first one. -/
theorem files_foldl_take_max_one (limit : Int) (directory : Path) (paths : List Path) :
    (paths.foldl (Search.take limit directory) (.going [] [])).files =
      (firstAppearances directory paths).take (max 1 limit).toNat := by
  rw [← take_max_one, files_foldl_take (le_max_left 1 limit)]

end Search

variable {tree : FileTree} {root : Path} {config : Config} {filter : PathFilter}
  {targets found : List Path}

theorem files_eq_take_max_one (built : PathFilter.ofConfig tree root config = .ok filter) :
    files tree root config targets =
      .ok ((firstAppearances tree.here ((if targets = [] then [root] else targets).flatMap
        (filesOf tree filter (Language.extensionsOf config.languages)))).take
        (max 1 config.maxFiles).toNat) := by
  rw [files_eq_foldl built, Search.files_foldl_take_max_one]

/-- What is found is what one of the targets stands for. -/
theorem exists_mem_filesOf (built : PathFilter.ofConfig tree root config = .ok filter)
    (answered : files tree root config targets = .ok found) {path : Path} (mem : path ∈ found) :
    ∃ target ∈ if targets = [] then [root] else targets,
      path ∈ filesOf tree filter (Language.extensionsOf config.languages) target := by
  rw [files_eq_take_max_one built, Except.ok.injEq] at answered
  rw [← answered] at mem
  exact List.mem_flatMap.mp ((firstAppearances_sublist _).subset (List.mem_of_mem_take mem))

theorem exists_filter_of_files (answered : files tree root config targets = .ok found) :
    ∃ filter, PathFilter.ofConfig tree root config = .ok filter := by
  rw [files] at answered
  rcases bind_eq_ok_iff.mp answered with ⟨filter, built, -⟩
  exact ⟨filter, built⟩

theorem length_files_le (answered : files tree root config targets = .ok found) :
    (found.length : Int) ≤ max 1 config.maxFiles := by
  rcases exists_filter_of_files answered with ⟨filter, built⟩
  rw [files_eq_take_max_one built, Except.ok.injEq] at answered
  rw [← answered]
  have cut := List.length_take_le (max 1 config.maxFiles).toNat (firstAppearances tree.here
    ((if targets = [] then [root] else targets).flatMap
      (filesOf tree filter (Language.extensionsOf config.languages))))
  omega

/-- A limit below one acts as a limit of one. So no more files are found than the limit allows,
unless it allows none and there is a file to find. -/
theorem files_within_limit (tree : FileTree) (root : Path) (config : Config) (targets : List Path) :
    files tree root { config with maxFiles := max 1 config.maxFiles } targets =
      files tree root config targets ∧ ∀ found, files tree root config targets = .ok found →
        (found.length : Int) ≤ max 1 config.maxFiles ∧
          ((found.length : Int) ≤ max 0 config.maxFiles ↔ 1 ≤ config.maxFiles ∨ found = []) := by
  constructor
  · have sameFilter :
        PathFilter.ofConfig tree root { config with maxFiles := max 1 config.maxFiles } =
          PathFilter.ofConfig tree root config := rfl
    rw [files, files, sameFilter]
    simp only [Search.take_max_one]
  · intro found answered
    have bounded := length_files_le answered
    refine ⟨bounded, ?_⟩
    rw [← List.length_eq_zero_iff]
    omega

/-- A tree with a configuration that allows no files, and two files. -/
def closedTree : FileTree where
  workingDirectory := []
  nodes :=
    [([Config.fileName], .file (Utf8.encode "max_files: 0\n".toList) 0), (["a.py"], .file [] 0),
      (["b.py"], .file [] 0)]

/-- The configuration of the tree. -/
def closedConfig : Config where
  maxFiles := 0

/-- The two files as targets. -/
def closedTargets : List Path :=
  [.ofString "a.py", .ofString "b.py"]

theorem files_closedTree :
    files closedTree (.ofString ".") closedConfig closedTargets = .ok [.ofString "a.py"] := by
  decide +kernel

theorem files_within_limit_closed :
    files closedTree (.ofString ".") { closedConfig with maxFiles := 1 } closedTargets =
      .ok [.ofString "a.py"] ∧ ¬ ((1 : Int) ≤ max 0 closedConfig.maxFiles) := by
  rcases files_within_limit closedTree (.ofString ".") closedConfig closedTargets with
    ⟨same, within⟩
  have bounded := (within _ files_closedTree).2.not
  refine ⟨same.trans files_closedTree, bounded.mpr ?_⟩
  rintro (positive | none)
  · exact absurd positive (by decide)
  · cases none

/-- A configuration that allows no files is loaded, and a file is found. -/
theorem files_exceed_closed_limit :
    ((Config.load closedTree (.ofString ".") none).runOn {}).1 = .ok closedConfig ∧
      ∃ found, files closedTree (.ofString ".") closedConfig closedTargets = .ok found ∧
        ¬ (found.length : Int) ≤ max 0 closedConfig.maxFiles := by
  have loaded : ((Config.load closedTree (.ofString ".") none).runOn {}).1 = .ok closedConfig := by
    decide +kernel
  exact ⟨loaded, _, files_closedTree, by decide⟩

end Discovery

end Scorecard
