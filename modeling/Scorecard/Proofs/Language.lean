import Mathlib
import Scorecard.Language
import Scorecard.Proofs.Text.Lowercase

/-!
# Spellings of languages

A folded spelling is folded for good, so it names the same language and leads to the same family as
the spelling it was folded from.

Routes that are put together from pairs hold each spelling once, where it first appears, with the
last of its targets. The route of a language is therefore found in two steps: the first pair whose
spelling names the language gives the spelling, the last pair with this spelling gives the target.
-/

namespace Scorecard

namespace Language

@[simp]
theorem fold_fold (text : String) : fold (fold text) = fold text := by
  simp only [fold, String.toList_ofList, strip_lower_strip, lower_lower]

@[simp]
theorem normalize_fold (name : String) : normalize (fold name) = normalize name := by
  rw [normalize, normalize, fold_fold]

@[simp]
theorem routeTarget?_fold (target : String) : routeTarget? (fold target) = routeTarget? target := by
  rw [routeTarget?, routeTarget?, fold_fold]

end Language

section

variable {α : Type} [DecidableEq α]

theorem eraseDups_concat (values : List α) (value : α) :
    (values ++ [value]).eraseDups =
      if value ∈ values then values.eraseDups else values.eraseDups ++ [value] := by
  rw [List.eraseDups_append]
  by_cases known : value ∈ values <;> simp [List.removeAll, known, List.eraseDups_cons]

theorem nodup_eraseDups (values : List α) : values.eraseDups.Nodup := by
  induction values using List.reverseRecOn with
  | nil => exact List.nodup_nil
  | append_singleton values value ih =>
      rw [eraseDups_concat]
      split
      · exact ih
      · next fresh =>
          rw [← List.concat_eq_append, List.nodup_concat, List.mem_eraseDups]
          exact ⟨fresh, ih⟩

/-- The first value of a kind is the first of its own appearances. -/
theorem find?_eraseDups (kind : α → Bool) (values : List α) :
    values.eraseDups.find? kind = values.find? kind := by
  induction values using List.reverseRecOn with
  | nil => rfl
  | append_singleton values value ih =>
      rw [eraseDups_concat, List.find?_append]
      split
      · next known =>
          rw [ih]
          cases met : kind value with
          | false => simp [met]
          | true =>
              have found : (values.find? kind).isSome = true :=
                List.find?_isSome.mpr ⟨value, known, met⟩
              rw [Option.or_of_isSome found]
      · rw [List.find?_append, ih]

end

theorem lookup_isSome_iff_mem_keys {β : Type} {pairs : List (String × β)} {key : String} :
    (pairs.lookup key).isSome = true ↔ key ∈ pairs.map Prod.fst := by
  rw [List.lookup_isSome_iff, List.mem_map]
  simp only [beq_iff_eq, @eq_comm _ key]

namespace Routes

/-- The routes of some languages, each with the target that it is given. -/
def ofTargets (languages : List String) (target : String → Option String) : Routes :=
  languages.filterMap fun language => (target language).map fun family => (language, family)

/-- Each language of the pairs once, where it first appears, with the last of its targets. -/
def settled (pairs : List (String × String)) : Routes :=
  ofTargets (pairs.map Prod.fst).eraseDups fun language => pairs.reverse.lookup language

variable {languages : List String} {target : String → Option String} {language family : String}

theorem insert_ofTargets (distinct : languages.Nodup)
    (given : ∀ other ∈ languages, (target other).isSome = true) :
    (ofTargets languages target).insert language family =
      ofTargets (if language ∈ languages then languages else languages ++ [language])
        (Function.update target language (some family)) := by
  induction languages with
  | nil => simp [ofTargets, Routes.insert]
  | cons first rest ih =>
      rw [List.nodup_cons] at distinct
      rw [List.forall_mem_cons] at given
      rcases Option.isSome_iff_exists.mp given.1 with ⟨firstFamily, firstTarget⟩
      have front :
          ofTargets (first :: rest) target = (first, firstFamily) :: ofTargets rest target := by
        simp [ofTargets, firstTarget]
      rw [front, Routes.insert]
      by_cases same : first = language
      · subst same
        have others : ofTargets rest (Function.update target first (some family)) =
            ofTargets rest target := by
          apply List.filterMap_congr
          intro other mem
          rw [Function.update_of_ne]
          rintro rfl
          exact distinct.1 mem
        rw [if_pos rfl, if_pos List.mem_cons_self, ← others]
        simp [ofTargets]
      · rw [if_neg same, ih distinct.2 given.2]
        have kept : Function.update target language (some family) first = some firstFamily := by
          rw [Function.update_of_ne same, firstTarget]
        by_cases known : language ∈ rest
        · simp [ofTargets, known, kept]
        · simp [ofTargets, known, kept, Ne.symm same]

theorem lookup_reverse_isSome {pairs : List (String × String)}
    (mem : language ∈ pairs.map Prod.fst) : (pairs.reverse.lookup language).isSome = true := by
  rw [lookup_isSome_iff_mem_keys, List.map_reverse]
  exact List.mem_reverse.mpr mem

theorem settled_concat (pairs : List (String × String)) (pair : String × String) :
    settled (pairs ++ [pair]) = (settled pairs).insert pair.1 pair.2 := by
  have targets : (fun language => (pairs ++ [pair]).reverse.lookup language) =
      Function.update (fun language => pairs.reverse.lookup language) pair.1 (some pair.2) := by
    funext language
    rw [List.reverse_append, List.reverse_singleton, List.singleton_append, List.lookup_cons]
    by_cases same : language = pair.1 <;> simp [same, Function.update, beq_eq_decide]
  rw [settled, settled, targets, List.map_append, List.map_singleton, eraseDups_concat,
    insert_ofTargets (nodup_eraseDups _)]
  · simp only [List.mem_eraseDups]
  · intro other mem
    exact lookup_reverse_isSome (List.mem_eraseDups.mp mem)

/-- Pairs that are inserted one after the other are settled. -/
theorem ofPairs_eq_settled (pairs : List (String × String)) : ofPairs pairs = settled pairs := by
  induction pairs using List.reverseRecOn with
  | nil => rfl
  | append_singleton pairs pair ih =>
      rw [settled_concat, ← ih, ofPairs, List.foldl_append]
      rfl

/-- Of settled pairs, the first spelling of a kind has the last target that it was given. -/
theorem find?_settled (kind : String → Bool) (pairs : List (String × String)) :
    (settled pairs).find? (fun route => kind route.1) =
      ((pairs.map Prod.fst).find? kind).bind fun language =>
        (pairs.reverse.lookup language).map fun family => (language, family) := by
  rw [settled, ofTargets, List.find?_filterMap, ← find?_eraseDups kind]
  congr 1
  apply List.find?_congr
  intro language mem
  rcases Option.isSome_iff_exists.mp (lookup_reverse_isSome (List.mem_eraseDups.mp mem)) with
    ⟨family, found⟩
  simp [found]

end Routes

namespace Language

/-- The family of a language under settled routes: the first spelling of the language decides which
target counts, and of its targets the last one does. -/
theorem family?_settled {name : String} (nonempty : name ≠ "") (pairs : List (String × String)) :
    family? name (Routes.settled pairs) =
      match (pairs.map Prod.fst).find? fun spelling => normalize spelling = normalize name with
      | some spelling => (pairs.reverse.lookup spelling).bind routeTarget?
      | none => families.lookup (normalize name) := by
  rw [family?, if_neg nonempty]
  have found := Routes.find?_settled (fun spelling => normalize spelling = normalize name) pairs
  cases first : (pairs.map Prod.fst).find? fun spelling => normalize spelling = normalize name with
  | none =>
      rw [first] at found
      simp only [found, Option.bind_none]
  | some spelling =>
      have known := Routes.lookup_reverse_isSome (List.mem_of_find?_eq_some first)
      rcases Option.isSome_iff_exists.mp known with ⟨target, given⟩
      rw [first] at found
      simp only [found, given, Option.bind_some, Option.map_some]

end Language

end Scorecard
