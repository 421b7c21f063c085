import Scorecard.Proofs.FileSystem.WellFormed
import Scorecard.Proofs.Selection.Extensions
import Scorecard.Selection.Discovery

/-!
# The source files below a directory

The candidates below a directory are gathered for one extension after the other, sorted, and looked
at again. In a well-formed tree each place below the directory is a candidate once, because it is
listed once for each extension that its name ends with, and that is one at most. So the sorted
candidates are strictly sorted, and so is what the second look leaves of them.
-/

namespace Scorecard

namespace Path

/-- Whether a path goes on from a directory through names. -/
def IsBelow (path directory : Path) : Prop :=
  ∃ names, names ≠ [] ∧ ".." ∉ names ∧ path = directory.descendant names

theorem descendant_injective (directory : Path) : Function.Injective directory.descendant := by
  intro first second same
  exact List.append_cancel_left (congrArg Path.components same)

/-- Different paths with one anchor are strictly sorted. -/
theorem pairwise_mergeSort_lessThan {paths : List Path} {anchor : Anchor} (distinct : paths.Nodup)
    (anchored : ∀ path ∈ paths, path.anchor = anchor) :
    (paths.mergeSort fun left right => !right.lessThan left).Pairwise fun left right =>
      left.lessThan right = true := by
  have sorted : (paths.mergeSort fun left right => !right.lessThan left).Pairwise
      fun left right => (!right.lessThan left) = true := by
    apply List.pairwise_mergeSort
    · intro first second third
      simp only [lessThan, Bool.not_eq_true', decide_eq_false_iff_not, not_lt]
      exact le_trans
    · intro first second
      simp only [lessThan, Bool.or_eq_true, Bool.not_eq_true', decide_eq_false_iff_not, not_lt]
      exact le_total _ _
  refine (sorted.and (distinct.perm (List.mergeSort_perm _ _).symm)).imp_of_mem
    fun {left right} mem otherMem ordered => ?_
  rw [Bool.not_eq_true', lessThan, decide_eq_false_iff_not, not_lt] at ordered
  rw [lessThan, decide_eq_true_eq]
  refine lt_of_le_of_ne ordered.1 fun same => ordered.2 ?_
  rw [List.mem_mergeSort] at mem otherMem
  have anchors : left.anchor = right.anchor := (anchored _ mem).trans (anchored _ otherMem).symm
  cases left
  cases right
  rw [Path.mk.injEq]
  exact ⟨anchors, same⟩

theorem nodup_of_pairwise_lessThan {paths : List Path}
    (sorted : paths.Pairwise fun left right => left.lessThan right = true) : paths.Nodup := by
  refine sorted.imp fun before same => ?_
  rw [same, lessThan, decide_eq_true_eq] at before
  exact lt_irrefl _ before

/-- What is strictly sorted is known from its members. -/
theorem eq_of_pairwise_lessThan {paths others : List Path}
    (sorted : paths.Pairwise fun left right => left.lessThan right = true)
    (otherSorted : others.Pairwise fun left right => left.lessThan right = true)
    (same : ∀ path, path ∈ paths ↔ path ∈ others) : paths = others := by
  have members : paths.Perm others :=
    (List.perm_ext_iff_of_nodup (nodup_of_pairwise_lessThan sorted)
      (nodup_of_pairwise_lessThan otherSorted)).mpr same
  refine members.eq_of_pairwise (fun left right _ _ before after => ?_) sorted otherSorted
  rw [lessThan, decide_eq_true_eq] at before after
  exact absurd after (lt_asymm before)

end Path

namespace Discovery

variable {tree : FileTree} {filter : PathFilter} {languages : List String} {directory path : Path}
  {place : List String}

/-- What a directory stands for: the files below it of which the name ends with an extension of the
languages, the ending in lower case is such an extension, and the path is kept. -/
structure IsSourceBelow (tree : FileTree) (filter : PathFilter) (languages : List String)
    (directory path : Path) : Prop where
  below : path.IsBelow directory
  isFile : tree.isFile path = true
  ends :
    ∃ extension, Language.HasExtension languages extension ∧ extension.toList <:+ path.name.toList
  supported : Language.HasExtension languages (String.ofList (lower path.suffix.toList))
  kept : filter.keeps tree.here path = true

/-- The ending of a file as an extension is enough, since extensions are in lower case. -/
theorem isSourceBelow_of_suffix (below : path.IsBelow directory) (isFile : tree.isFile path = true)
    (has : Language.HasExtension languages path.suffix)
    (kept : filter.keeps tree.here path = true) :
    IsSourceBelow tree filter languages directory path := by
  refine ⟨below, isFile, ⟨path.suffix, has, ?_⟩, ?_, kept⟩
  · rw [Path.suffix, String.toList_ofList]
    exact Path.suffixOf_isSuffix _
  · rwa [has.lower_eq, String.ofList_toList]

theorem pathsBelow_of_locate (located : tree.locate directory = .ok place) (extension : String) :
    pathsBelow tree directory extension = ((tree.below place).map directory.descendant).filter
      fun path => endsWith extension.toList path.name.toList := by
  rw [pathsBelow, located]

theorem mem_sourcesBelow (wellFormed : tree.WellFormed)
    (located : tree.locate directory = .ok place) :
    path ∈ sourcesBelow tree filter (Language.extensionsOf languages) directory ↔
      IsSourceBelow tree filter languages directory path := by
  simp only [sourcesBelow, List.mem_filter, List.mem_mergeSort, List.mem_flatMap,
    pathsBelow_of_locate located, List.mem_map, FileTree.mem_below, endsWith_iff, isSupported,
    Bool.and_eq_true, List.contains_iff_mem, Language.mem_extensionsOf]
  constructor
  · rintro ⟨⟨extension, has, ⟨names, ⟨named, mem⟩, rfl⟩, ends⟩, ⟨isFile, supported⟩, kept⟩
    have proper := (wellFormed.named _ (List.mem_map.mpr mem)).2
    rw [List.mem_append, not_or] at proper
    exact ⟨⟨names, named, proper.2, rfl⟩, isFile, ⟨extension, has, ends⟩, supported, kept⟩
  · rintro ⟨⟨names, named, proper, rfl⟩, isFile, ⟨extension, has, ends⟩, supported, kept⟩
    rcases FileTree.exists_file_of_isFile isFile with ⟨content, modified, found⟩
    rw [wellFormed.find?_descendant located proper] at found
    have mem := List.mem_map.mp (FileTree.mem_keys_of_node? found (by simp [named]))
    exact ⟨⟨extension, has, ⟨names, ⟨named, mem⟩, rfl⟩, ends⟩, ⟨isFile, supported⟩, kept⟩

/-- Each path below a directory is a candidate for one extension at most. -/
theorem nodup_candidates (wellFormed : tree.WellFormed)
    (located : tree.locate directory = .ok place) :
    ((Language.extensionsOf languages).flatMap (pathsBelow tree directory)).Nodup := by
  rw [List.nodup_flatMap]
  constructor
  · intro extension _
    rw [pathsBelow_of_locate located]
    exact ((wellFormed.nodup_below place).map directory.descendant_injective).filter _
  · refine (Language.nodup_extensionsOf languages).imp_of_mem
      fun first second different path mem otherMem => different ?_
    rw [pathsBelow_of_locate located, List.mem_filter, endsWith_iff] at mem otherMem
    have isExtension := (Language.mem_extensionsOf.mp first).isExtension
    have otherIs := (Language.mem_extensionsOf.mp second).isExtension
    exact String.toList_inj.mp (isExtension.eq_of_isSuffix otherIs mem.2 otherMem.2)

theorem pairwise_sourcesBelow (wellFormed : tree.WellFormed)
    (located : tree.locate directory = .ok place) :
    (sourcesBelow tree filter (Language.extensionsOf languages) directory).Pairwise
      fun left right => left.lessThan right = true := by
  have anchored : ∀ path ∈ (Language.extensionsOf languages).flatMap (pathsBelow tree directory),
      path.anchor = directory.anchor := by
    intro path mem
    rcases List.mem_flatMap.mp mem with ⟨extension, -, listed⟩
    rw [pathsBelow_of_locate located, List.mem_filter, List.mem_map] at listed
    rcases listed with ⟨⟨names, -, rfl⟩, -⟩
    rfl
  rw [sourcesBelow]
  exact (Path.pairwise_mergeSort_lessThan (nodup_candidates wellFormed located) anchored).filter _

/-- The source files below a directory are resolved to different places. -/
theorem nodup_resolve_sourcesBelow (wellFormed : tree.WellFormed)
    (located : tree.locate directory = .ok place) :
    ((sourcesBelow tree filter (Language.extensionsOf languages) directory).map
      (·.resolve tree.here)).Nodup := by
  have leads : ∀ path ∈ sourcesBelow tree filter (Language.extensionsOf languages) directory,
      ∃ names, path = directory.descendant names ∧
        path.resolve tree.here = { anchor := .root, components := place ++ names } := by
    intro path mem
    rcases (mem_sourcesBelow wellFormed located).mp mem with
      ⟨⟨names, -, proper, rfl⟩, isFile, -, -, -⟩
    rcases FileTree.exists_file_of_isFile isFile with ⟨content, modified, found⟩
    rw [wellFormed.find?_descendant located proper] at found
    have walked := wellFormed.walk_eq_append found
    exact ⟨names, rfl, wellFormed.resolve_of_locate (FileTree.locate_descendant located walked)⟩
  refine List.Nodup.map_on (fun left mem right otherMem same => ?_)
    (Path.nodup_of_pairwise_lessThan (pairwise_sourcesBelow wellFormed located))
  rcases leads left mem with ⟨names, rfl, resolved⟩
  rcases leads right otherMem with ⟨otherNames, rfl, otherResolved⟩
  rw [resolved, otherResolved, Path.mk.injEq, List.append_right_inj] at same
  rw [same.2]

/-- The ending of a source file below a directory is in lower case. -/
theorem IsSourceBelow.lower_suffix (isSource : IsSourceBelow tree filter languages directory path) :
    lower path.suffix.toList = path.suffix.toList := by
  have supported := isSource.supported
  rw [Path.suffix, String.toList_ofList] at supported ⊢
  exact (Language.endsWith_extension_iff supported).mp isSource.ends

end Discovery

end Scorecard
