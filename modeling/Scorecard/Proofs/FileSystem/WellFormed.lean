import Scorecard.Proofs.FileSystem.ReadBack

/-!
# Trees as file systems hold them

In a well-formed tree each place has one node, no name is that of the directory above, and whatever
there is lies in a directory. So everything on the way to a node is a directory, and the names from
one place to a node below it lead there.

A path is resolved by its components alone, and it is followed through the tree. Wherever it leads,
that is the place it is resolved to: without links, turning back from a directory leads to the
directory that holds it.
-/

namespace Scorecard

namespace FileTree

/-- A tree in which each place has one node, no name is that of the directory above, and all nodes
and the working directory lie in directories. -/
structure WellFormed (tree : FileTree) : Prop where
  distinct : (tree.nodes.map Prod.fst).Nodup
  named : ∀ place ∈ tree.nodes.map Prod.fst, place ≠ [] ∧ ".." ∉ place
  held : ∀ place ∈ tree.nodes.map Prod.fst, tree.node? place.dropLast = some .directory
  here : tree.node? tree.workingDirectory = some .directory

instance (tree : FileTree) : Decidable tree.WellFormed :=
  decidable_of_iff ((tree.nodes.map Prod.fst).Nodup ∧
    (∀ place ∈ tree.nodes.map Prod.fst, place ≠ [] ∧ ".." ∉ place) ∧
    (∀ place ∈ tree.nodes.map Prod.fst, tree.node? place.dropLast = some .directory) ∧
    tree.node? tree.workingDirectory = some .directory)
    ⟨fun ⟨distinct, named, held, here⟩ => ⟨distinct, named, held, here⟩,
      fun wellFormed => ⟨wellFormed.distinct, wellFormed.named, wellFormed.held, wellFormed.here⟩⟩

variable {tree : FileTree} {place front back parts reached : List String} {node : Node}

theorem mem_keys_of_node? (found : tree.node? place = some node) (below : place ≠ []) :
    place ∈ tree.nodes.map Prod.fst := by
  rw [node?, if_neg (by simpa using below)] at found
  have known : (tree.nodes.lookup place).isSome = true := by rw [found]; rfl
  rcases List.lookup_isSome_iff.mp known with ⟨entry, mem, same⟩
  exact List.mem_map.mpr ⟨entry, mem, (beq_iff_eq.mp same).symm⟩

theorem exists_file_of_isFile {path : Path} (isFile : tree.isFile path = true) :
    ∃ content modified, tree.find? path = some (.file content modified) := by
  rw [FileTree.isFile] at isFile
  split at isFile
  · exact ⟨_, _, ‹_›⟩
  · cases isFile

namespace WellFormed

variable (wellFormed : tree.WellFormed)
include wellFormed

theorem notMem_of_node? (found : tree.node? place = some node) : ".." ∉ place := by
  by_cases top : place = []
  · simp [top]
  · exact (wellFormed.named place (mem_keys_of_node? found top)).2

/-- Everything on the way to a node is a directory. -/
theorem directory_of_node?_append (found : tree.node? (front ++ back) = some node)
    (below : back ≠ []) : tree.node? front = some .directory := by
  induction back using List.reverseRecOn generalizing node with
  | nil => exact absurd rfl below
  | append_singleton back last ih =>
      have holder := wellFormed.held _ (mem_keys_of_node? found (by simp))
      rw [← List.append_assoc, List.dropLast_concat] at holder
      by_cases first : back = []
      · rwa [first, List.append_nil] at holder
      · exact ih holder first

/-- Names lead from a place to the node below it that they name. -/
theorem walk_eq_append (found : tree.node? (place ++ parts) = some node) :
    tree.walk place parts = .ok (place ++ parts) := by
  induction parts generalizing place with
  | nil =>
      rw [List.append_nil] at found ⊢
      rw [walk, found]
  | cons part rest ih =>
      have passed := wellFormed.directory_of_node?_append found (List.cons_ne_nil _ _)
      have proper : part ≠ ".." := by
        rintro rfl
        exact wellFormed.notMem_of_node? found (by simp)
      rw [walk, passed]
      simp only [if_neg proper]
      rw [ih (by rwa [List.append_assoc]), List.append_assoc, List.singleton_append]

end WellFormed

/-- Where components lead that name no directory above. -/
theorem eq_append_of_walk (walked : tree.walk place parts = .ok reached) (names : ".." ∉ parts) :
    reached = place ++ parts := by
  induction parts generalizing place with
  | nil =>
      rw [walk] at walked
      split at walked
      · cases walked
      · cases walked
        rw [List.append_nil]
  | cons part rest ih =>
      rw [List.mem_cons, not_or] at names
      rw [walk] at walked
      split at walked
      · cases walked
      · cases walked
      · rw [if_neg (Ne.symm names.1)] at walked
        rw [ih walked names.2, List.append_assoc, List.singleton_append]

theorem exists_of_walk_append (walked : tree.walk place (front ++ back) = .ok reached) :
    ∃ middle, tree.walk place front = .ok middle ∧ tree.walk middle back = .ok reached := by
  induction front generalizing place with
  | nil =>
      refine ⟨place, ?_, walked⟩
      rw [walk]
      cases found : tree.node? place with
      | some node => rfl
      | none =>
          rw [List.nil_append] at walked
          cases back with
          | nil => rw [walk, found] at walked; cases walked
          | cons part back => rw [walk, found] at walked; cases walked
  | cons part front ih =>
      rw [List.cons_append, walk] at walked
      rw [walk]
      split at walked
      · cases walked
      · cases walked
      · exact ih walked

theorem mem_below :
    parts ∈ tree.below place ↔ parts ≠ [] ∧ place ++ parts ∈ tree.nodes.map Prod.fst := by
  simp only [below, List.mem_filterMap, Option.ite_none_right_eq_some, Bool.and_eq_true,
    List.isPrefixOf_iff_prefix, bne_iff_ne, Option.some.injEq, List.mem_map, Prod.exists]
  constructor
  · rintro ⟨_, node, mem, ⟨⟨rest, rfl⟩, different⟩, rfl⟩
    rw [List.drop_left]
    exact ⟨by simpa using different, _, node, mem, rfl⟩
  · rintro ⟨below, _, node, mem, rfl⟩
    exact ⟨_, node, mem, ⟨List.prefix_append _ _, by simpa using below⟩, List.drop_left⟩

theorem WellFormed.nodup_below (wellFormed : tree.WellFormed) (place : List String) :
    (tree.below place).Nodup := by
  have listed : tree.below place = (tree.nodes.map Prod.fst).filterMap fun components =>
      if place.isPrefixOf components && place != components then some (components.drop place.length)
      else none := by
    rw [List.filterMap_map]
    rfl
  rw [listed]
  refine wellFormed.distinct.filterMap fun first second rest firstRest secondRest => ?_
  simp only [Option.mem_def, Option.ite_none_right_eq_some, Bool.and_eq_true,
    List.isPrefixOf_iff_prefix, Option.some.injEq] at firstRest secondRest
  rcases firstRest with ⟨⟨⟨_, rfl⟩, -⟩, rest⟩
  rcases secondRest with ⟨⟨⟨_, rfl⟩, -⟩, otherRest⟩
  rw [List.drop_left] at rest otherRest
  rw [rest, otherRest]

theorem eq_foldl_of_walk (walked : tree.walk place parts = .ok reached) :
    reached =
      parts.foldl (fun kept part =>
        if part = ".." then kept.dropLast else kept ++ [part]) place := by
  induction parts generalizing place with
  | nil =>
      rw [walk] at walked
      split at walked
      · cases walked
      · cases walked
        rfl
  | cons part rest ih =>
      rw [walk] at walked
      split at walked
      · cases walked
      · cases walked
      · exact ih walked

theorem collapse_of_notMem (names : ".." ∉ place) : Path.collapse place = place := by
  induction place using List.reverseRecOn with
  | nil => rfl
  | append_singleton place last ih =>
      rw [List.mem_append, List.mem_singleton, not_or] at names
      rw [Path.collapse] at ih ⊢
      rw [List.foldl_concat, ih names.1, if_neg (Ne.symm names.2)]

/-- Where a path leads is the place that it is resolved to. -/
theorem WellFormed.resolve_of_locate (wellFormed : tree.WellFormed) {path : Path}
    (located : tree.locate path = .ok place) :
    path.resolve tree.here = { anchor := .root, components := place } := by
  rw [locate] at located
  rw [Path.resolve, Path.join, Path.mk.injEq]
  refine ⟨rfl, ?_⟩
  by_cases absolute : path.isAbsolute = true
  · rw [if_pos absolute] at located ⊢
    exact (eq_foldl_of_walk located).symm
  · rw [if_neg absolute] at located ⊢
    have start := collapse_of_notMem (wellFormed.notMem_of_node? wellFormed.here)
    rw [Path.collapse] at start ⊢
    rw [FileTree.here, List.foldl_append, start]
    exact (eq_foldl_of_walk located).symm

theorem find?_of_locate {path : Path} (located : tree.locate path = .ok place) :
    tree.find? path = tree.node? place := by
  rw [find?, located]

theorem locate_descendant {directory : Path} (located : tree.locate directory = .ok place)
    (walked : tree.walk place parts = .ok reached) :
    tree.locate (directory.descendant parts) = .ok reached :=
  walk_append located walked

/-- What a path through names from a directory leads to is what lies below the directory. -/
theorem WellFormed.find?_descendant (wellFormed : tree.WellFormed) {directory : Path}
    (located : tree.locate directory = .ok place) (names : ".." ∉ parts) :
    tree.find? (directory.descendant parts) = tree.node? (place ++ parts) := by
  cases found : tree.node? (place ++ parts) with
  | some node =>
      rw [find?_of_locate (locate_descendant located (wellFormed.walk_eq_append found)), found]
  | none =>
      cases whole : tree.locate (directory.descendant parts) with
      | error problem => rw [find?, whole]
      | ok reached =>
          rcases exists_of_walk_append whole with ⟨middle, first, second⟩
          have same : Except.ok middle = Except.ok place := first.symm.trans located
          cases same
          rw [find?_of_locate whole, eq_append_of_walk second names, found]

end FileTree

end Scorecard
