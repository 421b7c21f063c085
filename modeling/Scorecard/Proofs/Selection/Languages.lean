import Scorecard.Proofs.Selection.Extensions

/-!
# Lists of languages

The aliases lead to names that stand for themselves, so the normal name of a language is its own
normal name, and every spelling of a language is taken for the same one. A list of names therefore
has one canonical list of languages: each that it names once, in the order in which they are first
named. The canonical list is its own canonical list. The extensions of a list depend on nothing but
the languages that it names, and they are given in one order, so they are the same for the canonical
list and however the names are ordered.
-/

namespace Scorecard

section

variable {α : Type} [DecidableEq α]

theorem eraseDups_eq_self {values : List α} (distinct : values.Nodup) :
    values.eraseDups = values := by
  induction values using List.reverseRecOn with
  | nil => rfl
  | append_singleton values value ih =>
      rw [← List.concat_eq_append, List.nodup_concat] at distinct
      rw [eraseDups_concat, if_neg distinct.1, ih distinct.2]

/-- Of the values that are kept, each stands where it first appears among all of them. -/
theorem pairwise_idxOf_eraseDups (kept : α → Bool) (values : List α) :
    (values.filter kept).eraseDups.Pairwise fun first second =>
      values.idxOf first < values.idxOf second := by
  -- Values are added at the end: what is there already keeps its place, and a new value comes
  -- behind it.
  induction values using List.reverseRecOn with
  | nil => exact .nil
  | append_singleton values value ih =>
      have before : ∀ first ∈ (values.filter kept).eraseDups, first ∈ values := by
        intro first mem
        exact (List.mem_filter.mp (List.mem_eraseDups.mp mem)).1
      have earlier : (values.filter kept).eraseDups.Pairwise fun first second =>
          (values ++ [value]).idxOf first < (values ++ [value]).idxOf second := by
        refine ih.imp_of_mem fun mem otherMem less => ?_
        rwa [List.idxOf_append_of_mem (before _ mem), List.idxOf_append_of_mem (before _ otherMem)]
      rw [List.filter_append]
      by_cases dropped : kept value = false
      · rw [List.filter_cons_of_neg (by simp [dropped]), List.filter_nil, List.append_nil]
        exact earlier
      · rw [List.filter_cons_of_pos (by simpa using dropped), List.filter_nil, eraseDups_concat]
        split
        · exact earlier
        · next fresh =>
            have absent : value ∉ values := fun mem =>
              fresh (List.mem_filter.mpr ⟨mem, by simpa using dropped⟩)
            rw [List.pairwise_append]
            refine ⟨earlier, List.pairwise_singleton _ _, ?_⟩
            simp only [List.mem_singleton, forall_eq]
            intro first mem
            rw [List.idxOf_append_of_mem (before first mem), List.idxOf_append_of_notMem absent]
            exact Nat.lt_add_right _ (List.idxOf_lt_length_of_mem (before first mem))

end

namespace Language

variable {names canonical : List String}

/-- The names that the aliases lead to are folded and stand for themselves. -/
theorem aliases_settled : ∀ entry ∈ aliases,
    fold entry.2 = entry.2 ∧ aliases.lookup entry.2 = some entry.2 ∧ entry.2 ≠ "" := by
  decide +kernel

@[simp]
theorem normalize_normalize (name : String) : normalize (normalize name) = normalize name := by
  cases found : aliases.lookup (fold name) with
  | none =>
      have kept : normalize name = fold name := by rw [normalize, found, Option.getD_none]
      rw [kept, normalize_fold, kept]
  | some target =>
      rcases List.lookup_eq_some_iff.mp found with ⟨front, back, whole, -⟩
      have entry : (fold name, target) ∈ aliases := by
        rw [whole]
        exact List.mem_append_right _ List.mem_cons_self
      rcases aliases_settled _ entry with ⟨folded, known, -⟩
      have sent : normalize name = target := by rw [normalize, found, Option.getD_some]
      rw [sent, normalize, folded, known, Option.getD_some]

/-- The list holds each language that some names stand for once, in the order in which they are
first named. -/
structure IsCanonical (names canonical : List String) : Prop where
  nodup : canonical.Nodup
  mem_iff : ∀ language, language ∈ canonical ↔
    language ≠ "" ∧ ∃ name ∈ names, normalize name = language
  ordered : canonical.Pairwise fun first second =>
    (names.map normalize).idxOf first < (names.map normalize).idxOf second

theorem isCanonical_normalizeAll (names : List String) :
    IsCanonical names (normalizeAll names) where
  nodup := by
    rw [normalizeAll_eq_eraseDups]
    exact nodup_eraseDups _
  mem_iff := by
    intro language
    rw [normalizeAll_eq_eraseDups, List.mem_eraseDups, List.mem_filter, List.mem_map,
      decide_eq_true_eq, and_comm]
  ordered := by
    rw [normalizeAll_eq_eraseDups]
    exact pairwise_idxOf_eraseDups _ _

theorem IsCanonical.unique {other : List String} (isCanonical : IsCanonical names canonical)
    (otherIs : IsCanonical names other) : other = canonical := by
  have members : other.Perm canonical := by
    rw [List.perm_ext_iff_of_nodup otherIs.nodup isCanonical.nodup]
    intro language
    rw [otherIs.mem_iff, isCanonical.mem_iff]
  refine members.eq_of_pairwise (fun first second _ _ before after => ?_) otherIs.ordered
    isCanonical.ordered
  exact absurd after (lt_asymm before)

/-- The canonical list holds its languages under their normal names, each once. -/
theorem normalizeAll_normalizeAll (names : List String) :
    normalizeAll (normalizeAll names) = normalizeAll names := by
  rcases isCanonical_normalizeAll names with ⟨nodup, mem_iff, -⟩
  have normal : (normalizeAll names).map normalize = normalizeAll names := by
    refine (List.map_congr_left fun language mem => ?_).trans (List.map_id _)
    rcases ((mem_iff language).mp mem).2 with ⟨name, -, rfl⟩
    rw [normalize_normalize, id_eq]
  have named : (normalizeAll names).filter (· ≠ "") = normalizeAll names := by
    rw [List.filter_eq_self]
    intro language mem
    simpa using ((mem_iff language).mp mem).1
  rw [normalizeAll_eq_eraseDups (normalizeAll names), normal, named, eraseDups_eq_self nodup]

/-- Extensions are given in alphabetical order, so they are known from which they are. -/
theorem extensionsOf_eq_of_mem_iff {others : List String}
    (same : ∀ extension, extension ∈ extensionsOf others ↔ extension ∈ extensionsOf names) :
    extensionsOf others = extensionsOf names := by
  have sorted (languages : List String) : (extensionsOf languages).Pairwise (· ≤ ·) := by
    refine (List.pairwise_mergeSort ?_ ?_ _).imp fun ordered => ?_
    · intro first second third
      simp only [Bool.not_eq_true', decide_eq_false_iff_not, not_lt]
      exact le_trans
    · intro first second
      simp only [Bool.or_eq_true, Bool.not_eq_true', decide_eq_false_iff_not, not_lt]
      exact le_total _ _
    · rwa [Bool.not_eq_true', decide_eq_false_iff_not, not_lt] at ordered
  have members :=
    (List.perm_ext_iff_of_nodup (nodup_extensionsOf others) (nodup_extensionsOf names)).mpr same
  exact members.eq_of_pairwise (fun first second _ _ => le_antisymm) (sorted others) (sorted names)

theorem extensionsOf_normalizeAll (names : List String) :
    extensionsOf (normalizeAll names) = extensionsOf names := by
  rw [extensionsOf, normalizeAll_normalizeAll]
  rfl

theorem extensionsOf_eq_of_perm {others : List String} (perm : others.Perm names) :
    extensionsOf others = extensionsOf names := by
  apply extensionsOf_eq_of_mem_iff
  intro extension
  rw [mem_extensionsOf, mem_extensionsOf, HasExtension, HasExtension]
  simp only [perm.mem_iff]

/-- Every list of names has one canonical list of languages, which is what normalizing it gives.
Normalizing that list again changes nothing, and the extensions are those of the canonical list and
of every permutation. -/
theorem normalizeAll_canonical (names : List String) :
    IsCanonical names (normalizeAll names) ∧
      (∀ other, IsCanonical names other → other = normalizeAll names) ∧
      normalizeAll (normalizeAll names) = normalizeAll names ∧
      extensionsOf (normalizeAll names) = extensionsOf names ∧
      ∀ others, others.Perm names → extensionsOf others = extensionsOf names :=
  ⟨isCanonical_normalizeAll names, fun _ => (isCanonical_normalizeAll names).unique,
    normalizeAll_normalizeAll names, extensionsOf_normalizeAll names, fun _ =>
      extensionsOf_eq_of_perm⟩

/-- Spellings of four languages, in capitals, under aliases or with white space around them, and
blank ones. -/
def spelledNames : List String :=
  ["\u2003TSX ", "NODE", "", "Py", " java\u017F", "js", " \t", "typescript", "Node\n"]

/-- Each language stands where it is first named, and the order of the names plays no role for the
extensions. -/
theorem normalizeAll_canonical_spellings :
    normalizeAll spelledNames = ["typescript", "javascript", "python", "java\u017F"] ∧
      (∀ other, IsCanonical spelledNames other →
        other = ["typescript", "javascript", "python", "java\u017F"]) ∧
      extensionsOf spelledNames.reverse = extensionsOf spelledNames := by
  have computed :
      normalizeAll spelledNames = ["typescript", "javascript", "python", "java\u017F"] := by
    decide +kernel
  rcases normalizeAll_canonical spelledNames with ⟨-, unique, -, -, permuted⟩
  rw [computed] at unique
  exact ⟨computed, unique, permuted _ (List.reverse_perm _)⟩

end Language

end Scorecard
