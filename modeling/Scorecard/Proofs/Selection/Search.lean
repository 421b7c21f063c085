import Mathlib
import Scorecard.Selection.Discovery

/-!
# What a search takes

A search that is given paths one after the other has taken, at each moment, the paths so far without
those that lead to a place that an earlier one leads to, cut off at the limit. While it goes on
there are fewer of them than the limit and it knows the places of all paths so far, also of those
that it passed over; once it has ended there are enough, and no further path changes the cut. This
is kept with each path, so also by a whole run, and a larger limit only cuts later.
-/

namespace Scorecard

/-- Paths without those that are resolved as an earlier one, for paths that start in the given
directory. -/
def firstAppearances (directory : Path) : List Path → List Path
  | [] => []
  | path :: rest =>
      path :: (firstAppearances directory rest).filter fun other =>
        other.resolve directory ≠ path.resolve directory

section

variable {directory path : Path} {paths : List Path}

theorem firstAppearances_concat (directory : Path) (paths : List Path) (path : Path) :
    firstAppearances directory (paths ++ [path]) =
      if path.resolve directory ∈ paths.map (·.resolve directory) then firstAppearances
        directory paths
      else firstAppearances directory paths ++ [path] := by
  induction paths with
  | nil => rfl
  | cons first rest ih =>
      rw [List.cons_append, firstAppearances, ih, firstAppearances]
      simp only [List.map_cons, List.mem_cons]
      by_cases known : path.resolve directory ∈ rest.map (·.resolve directory)
      · rw [if_pos known, if_pos (Or.inr known)]
      · rw [if_neg known, List.filter_append]
        by_cases same : path.resolve directory = first.resolve directory
        · simp [same]
        · simp [same, known]

theorem firstAppearances_sublist (paths : List Path) :
    (firstAppearances directory paths).Sublist paths := by
  induction paths with
  | nil => exact List.Sublist.refl _
  | cons first rest ih => exact (List.filter_sublist.trans ih).cons_cons first

/-- No two of the paths that are left are resolved alike. -/
theorem nodup_firstAppearances (paths : List Path) :
    ((firstAppearances directory paths).map (·.resolve directory)).Nodup := by
  induction paths with
  | nil => exact List.nodup_nil
  | cons first rest ih =>
      rw [firstAppearances, List.map_cons, List.nodup_cons]
      constructor
      · simp
      · exact ih.sublist (List.filter_sublist.map _)

/-- Each path is resolved as one that is left. -/
theorem exists_mem_firstAppearances (directory : Path) (mem : path ∈ paths) :
    ∃ first ∈ firstAppearances directory paths, first.resolve directory =
      path.resolve directory := by
  induction paths with
  | nil => cases mem
  | cons first rest ih =>
      by_cases same : path.resolve directory = first.resolve directory
      · exact ⟨first, List.mem_cons_self, same.symm⟩
      · rcases List.mem_cons.mp mem with rfl | later
        · exact absurd rfl same
        · rcases ih later with ⟨other, left, resolved⟩
          refine ⟨other, List.mem_cons_of_mem _ (List.mem_filter.mpr ⟨left, ?_⟩), resolved⟩
          rw [decide_eq_true_eq, resolved]
          exact same

/-- Paths that are resolved differently are all left. -/
theorem firstAppearances_eq_self (distinct : (paths.map (·.resolve directory)).Nodup) :
    firstAppearances directory paths = paths := by
  induction paths with
  | nil => rfl
  | cons first rest ih =>
      rw [List.map_cons, List.nodup_cons] at distinct
      rw [firstAppearances, ih distinct.2, List.filter_eq_self.mpr]
      intro other mem
      rw [decide_eq_true_eq]
      intro same
      exact distinct.1 (List.mem_map.mpr ⟨other, mem, same⟩)

end

namespace Discovery

namespace Search

/-- What a search holds after the given paths. -/
inductive Holds (limit : Int) (directory : Path) (given : List Path) : Search → Prop where
  | going {places : List Path}
      (known : ∀ place, place ∈ places ↔ place ∈ given.map (·.resolve directory))
      (fewer : ((firstAppearances directory given).length : Int) < limit) :
      Holds limit directory given (.going places (firstAppearances directory given))
  | ended (enough : limit ≤ ((firstAppearances directory given).length : Int)) :
      Holds limit directory given (.ended ((firstAppearances directory given).take limit.toNat))

namespace Holds

variable {limit : Int} {directory : Path} {given : List Path} {search : Search}

/-- One more path is taken or passed over as its first appearance asks. -/
theorem take (holds : Holds limit directory given search) (path : Path) :
    Holds limit directory (given ++ [path]) (search.take limit directory path) := by
  have appearances := firstAppearances_concat directory given path
  have resolved : ∀ place, place ∈ (given ++ [path]).map (·.resolve directory) ↔
      place ∈ given.map (·.resolve directory) ∨ place = path.resolve directory := by
    simp [List.map_append]
  cases holds with
  | @going places known fewer =>
      rw [Search.take]
      by_cases old : path.resolve directory ∈ given.map (·.resolve directory)
      · rw [if_pos old] at appearances
        rw [if_pos (by simpa [known] using old), ← appearances]
        refine going (fun place => ?_) (appearances ▸ fewer)
        rw [known, resolved]
        exact (or_iff_left_of_imp fun same => same ▸ old).symm
      · rw [if_neg old] at appearances
        rw [if_neg (by simpa [known] using old), ← appearances]
        have size : (firstAppearances directory (given ++ [path])).length =
            (firstAppearances directory given).length + 1 := by
          rw [appearances, List.length_append, List.length_singleton]
        by_cases enough : limit ≤ ((firstAppearances directory (given ++ [path])).length : Int)
        · have whole : (firstAppearances directory (given ++ [path])).take limit.toNat =
              firstAppearances directory (given ++ [path]) := List.take_of_length_le (by omega)
          simp only [if_pos enough]
          exact whole ▸ ended enough
        · simp only [if_neg enough]
          refine going (fun place => ?_) (not_le.mp enough)
          rw [List.mem_cons, known, resolved, or_comm]
  | ended enough =>
      rw [Search.take]
      -- Whether or not the path is new, there are no fewer first appearances, and the cut is in the
      -- old ones.
      have grown : ∃ more, firstAppearances directory (given ++ [path]) =
          firstAppearances directory given ++ more := by
        rw [appearances]
        split
        · exact ⟨[], (List.append_nil _).symm⟩
        · exact ⟨[path], rfl⟩
      rcases grown with ⟨more, grown⟩
      have cut : (firstAppearances directory given ++ more).take limit.toNat =
          (firstAppearances directory given).take limit.toNat :=
        List.take_append_of_le_length (by omega)
      rw [← cut, ← grown]
      refine ended ?_
      rw [grown, List.length_append]
      omega

/-- Any more paths are taken or passed over one after the other. -/
theorem foldl (holds : Holds limit directory given search) (paths : List Path) :
    Holds limit directory (given ++ paths) (paths.foldl (Search.take limit directory) search) := by
  induction paths generalizing given search with
  | nil => rwa [List.append_nil]
  | cons path rest ih =>
      have after := ih (holds.take path)
      rwa [List.append_assoc, List.singleton_append] at after

theorem files_eq (holds : Holds limit directory given search) :
    search.files = (firstAppearances directory given).take limit.toNat := by
  cases holds with
  | going known fewer =>
      have whole :
          (firstAppearances directory given).take limit.toNat = firstAppearances directory given :=
        List.take_of_length_le (by omega)
      exact whole.symm
  | ended enough => rfl

end Holds

/-- A search that is given paths finds their first appearances up to the limit. -/
theorem files_foldl_take {limit : Int} (positive : 1 ≤ limit) (directory : Path)
    (paths : List Path) :
    (paths.foldl (Search.take limit directory) (.going [] [])).files =
      (firstAppearances directory paths).take limit.toNat := by
  have start : Holds limit directory [] (.going [] []) :=
    .going (by simp) (by simp [firstAppearances]; omega)
  exact (start.foldl paths).files_eq

end Search

end Discovery

end Scorecard
