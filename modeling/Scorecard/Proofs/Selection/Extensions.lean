import Scorecard.Proofs.Language
import Scorecard.Proofs.Text.Pattern

/-!
# Names that end with an extension

There are two ways to say that a name has an extension: its characters end with it, or its ending
from the last point on is the extension. They differ only for a name that is nothing but the
extension, which has no ending, because an extension holds one point, at its start. For the same
reason no name ends with two extensions.

The extensions of the languages are in lower case. So of the names of which the ending is an
extension up to case, those that end with an extension are those of which the ending is in lower
case.
-/

namespace Scorecard

theorem endsWith_iff (ending text : List Char) : endsWith ending text = true ↔ ending <:+ text := by
  rw [endsWith, dropStart?_isSome_iff, List.reverse_prefix]

/-- A point and at least one more character, of which none is a point. -/
def IsExtension (extension : List Char) : Prop :=
  extension.head? = some '.' ∧ extension.tail ≠ [] ∧ '.' ∉ extension.tail

instance (extension : List Char) : Decidable (IsExtension extension) :=
  inferInstanceAs (Decidable (_ ∧ _))

namespace IsExtension

variable {extension other name : List Char}

/-- From the end of a name that ends with an extension to the last point stands the extension. -/
theorem takeWhile_reverse (isExtension : IsExtension extension) (ends : extension <:+ name) :
    name.reverse.takeWhile (· != '.') = extension.tail.reverse := by
  rcases ends with ⟨front, rfl⟩
  rcases isExtension with ⟨point, -, plain⟩
  have inside : ∀ c ∈ extension.tail.reverse, (c != '.') = true := by
    intro c mem
    rw [bne_iff_ne]
    rintro rfl
    exact plain (List.mem_reverse.mp mem)
  rw [← List.cons_head?_tail (Option.mem_def.mpr point), List.tail_cons, List.reverse_append,
    List.reverse_cons, List.append_assoc, List.takeWhile_append_of_pos inside]
  simp

theorem eq_of_isSuffix (isExtension : IsExtension extension) (otherIs : IsExtension other)
    (ends : extension <:+ name) (otherEnds : other <:+ name) : extension = other := by
  have tails : extension.tail.reverse = other.tail.reverse := by
    rw [← isExtension.takeWhile_reverse ends, ← otherIs.takeWhile_reverse otherEnds]
  rw [← List.cons_head?_tail (Option.mem_def.mpr isExtension.1),
    ← List.cons_head?_tail (Option.mem_def.mpr otherIs.1), List.reverse_inj.mp tails]

/-- An extension that stands at the end of a name is the ending of the name, unless it is the whole
name. -/
theorem suffixOf_eq (isExtension : IsExtension extension) (ends : extension <:+ name) :
    Path.suffixOf name = if name = extension then [] else extension := by
  have size : extension.length = extension.tail.length + 1 := by
    rw [← List.cons_head?_tail (Option.mem_def.mpr isExtension.1), List.length_cons, List.tail_cons]
  have whole : name.length ≤ extension.tail.length + 1 ↔ name = extension := by
    rw [← size]
    constructor
    · exact fun short => (ends.eq_of_length_le short).symm
    · exact fun same => (congrArg List.length same).le
  rw [Path.suffixOf, isExtension.takeWhile_reverse ends, List.reverse_reverse]
  simp only [Bool.or_eq_true, List.isEmpty_iff, isExtension.2.1, decide_eq_true_eq, whole, false_or]
  rw [List.cons_head?_tail (Option.mem_def.mpr isExtension.1)]

end IsExtension

/-- The ending of a name stands at its end. -/
theorem Path.suffixOf_isSuffix (name : List Char) : suffixOf name <:+ name := by
  rw [suffixOf]
  split
  · exact List.nil_suffix
  · next goesOn =>
      rw [Bool.or_eq_true, not_or, decide_eq_true_eq, List.length_reverse, not_le] at goesOn
      have parts := List.takeWhile_append_dropWhile (p := (· != '.')) (l := name.reverse)
      cases dropped : name.reverse.dropWhile (· != '.') with
      | nil =>
          rw [dropped, List.append_nil] at parts
          rw [parts, List.length_reverse] at goesOn
          omega
      | cons c before =>
          have rest : name.reverse.dropWhile (· != '.') ≠ [] := by
            rw [dropped]
            exact List.cons_ne_nil _ _
          have stops := List.head_dropWhile_not (· != '.') rest
          simp only [dropped, List.head_cons, bne_eq_false_iff_eq] at stops
          rw [dropped, stops] at parts
          refine ⟨before.reverse, ?_⟩
          rw [← List.reverse_inj, List.reverse_append, List.reverse_cons, List.reverse_reverse,
            List.reverse_reverse, List.append_assoc, List.singleton_append, parts]

theorem lookup_eq_some_iff_mem {α β : Type} [BEq α] [LawfulBEq α] {pairs : List (α × β)} {key : α}
    {value : β} (distinct : (pairs.map Prod.fst).Nodup) :
    pairs.lookup key = some value ↔ (key, value) ∈ pairs := by
  induction pairs with
  | nil => simp
  | cons pair rest ih =>
      rcases pair with ⟨first, own⟩
      rw [List.map_cons, List.nodup_cons] at distinct
      rw [List.lookup_cons, List.mem_cons, Prod.mk.injEq]
      by_cases same : key = first
      · have absent : (key, value) ∉ rest := by
          rw [same]
          exact fun mem => distinct.1 (List.mem_map.mpr ⟨_, mem, rfl⟩)
        rw [beq_iff_eq.mpr same]
        simp only [same, true_and, Option.some.injEq, eq_comm (a := own)]
        exact (or_iff_left (same ▸ absent)).symm
      · rw [beq_eq_false_iff_ne.mpr same]
        simp only [same, false_and, false_or]
        exact ih distinct.2

namespace Language

variable {languages : List String} {language extension : String}

/-- Whether a text is an extension of one of some languages. -/
def HasExtension (languages : List String) (extension : String) : Prop :=
  ∃ language ∈ languages, ∃ endings, (normalize language, endings) ∈ extensions ∧
    extension ∈ endings

theorem normalizeAll_eq_eraseDups (names : List String) :
    normalizeAll names = ((names.map normalize).filter (· ≠ "")).eraseDups := by
  rw [normalizeAll]
  generalize names.map normalize = normal
  induction normal using List.reverseRecOn with
  | nil => rfl
  | append_singleton names name ih =>
      rw [List.foldl_concat, ih, List.filter_append]
      by_cases empty : name = ""
      · simp [empty]
      · have kept : [name].filter (· ≠ "") = [name] := by simp [empty]
        rw [kept, eraseDups_concat]
        simp only [empty, List.mem_eraseDups, false_or]

/-- Each language has one entry, under a name, and all extensions are in lower case and differ. -/
theorem extensions_wellFormed :
    (extensions.map Prod.fst).Nodup ∧ ∀ entry ∈ extensions, entry.1 ≠ "" ∧ entry.2.Nodup ∧
      (∀ extension ∈ entry.2, IsExtension extension.toList ∧
        lower extension.toList = extension.toList) ∧
    ∀ other ∈ extensions, ∀ extension ∈ entry.2, extension ∈ other.2 → entry = other := by
  decide

theorem mem_lookup_extensions : extension ∈ (extensions.lookup language).getD [] ↔
    ∃ endings, (language, endings) ∈ extensions ∧ extension ∈ endings := by
  simp only [← lookup_eq_some_iff_mem extensions_wellFormed.1]
  cases extensions.lookup language with
  | none => simp
  | some endings => simp

theorem mem_extensionsOf :
    extension ∈ extensionsOf languages ↔ HasExtension languages extension := by
  simp only [extensionsOf, List.mem_mergeSort, List.mem_flatMap, normalizeAll_eq_eraseDups,
    List.mem_eraseDups, List.mem_filter, List.mem_map, decide_eq_true_eq, mem_lookup_extensions]
  constructor
  · rintro ⟨_, ⟨⟨language, mem, rfl⟩, -⟩, entry⟩
    exact ⟨language, mem, entry⟩
  · rintro ⟨language, mem, endings, entry, ends⟩
    have named := (extensions_wellFormed.2 _ entry).1
    dsimp only at named
    exact ⟨normalize language, ⟨⟨language, mem, rfl⟩, named⟩, endings, entry, ends⟩

theorem nodup_extensionsOf (languages : List String) : (extensionsOf languages).Nodup := by
  rw [extensionsOf, (List.mergeSort_perm _ _).nodup_iff, List.nodup_flatMap]
  constructor
  · intro language _
    cases found : extensions.lookup language with
    | none => exact List.nodup_nil
    | some endings =>
        exact (extensions_wellFormed.2 _
          ((lookup_eq_some_iff_mem extensions_wellFormed.1).mp found)).2.1
  · rw [normalizeAll_eq_eraseDups]
    refine (nodup_eraseDups _).imp fun different extension first second => different ?_
    rcases mem_lookup_extensions.mp first with ⟨endings, entry, mem⟩
    rcases mem_lookup_extensions.mp second with ⟨others, other, otherMem⟩
    exact congrArg Prod.fst ((extensions_wellFormed.2 _ entry).2.2.2 _ other _ mem otherMem)

namespace HasExtension

theorem isExtension (has : HasExtension languages extension) : IsExtension extension.toList := by
  rcases has with ⟨_, -, _, entry, mem⟩
  exact ((extensions_wellFormed.2 _ entry).2.2.1 _ mem).1

theorem lower_eq (has : HasExtension languages extension) :
    lower extension.toList = extension.toList := by
  rcases has with ⟨_, -, _, entry, mem⟩
  exact ((extensions_wellFormed.2 _ entry).2.2.1 _ mem).2

end HasExtension

/-- Among the names of which the ending is an extension up to case, those that end with an extension
are those of which the ending is in lower case. -/
theorem endsWith_extension_iff {name : List Char}
    (has : HasExtension languages (String.ofList (lower (Path.suffixOf name)))) :
    (∃ extension, HasExtension languages extension ∧ extension.toList <:+ name) ↔
      lower (Path.suffixOf name) = Path.suffixOf name := by
  constructor
  · rintro ⟨extension, other, ends⟩
    have ending := other.isExtension.suffixOf_eq ends
    split at ending
    · have none := has.isExtension.1
      rw [ending] at none
      exact absurd none (by decide)
    · rw [ending, other.lower_eq]
  · intro same
    exact ⟨_, has, by rw [String.toList_ofList, same]; exact Path.suffixOf_isSuffix name⟩

end Language

end Scorecard
