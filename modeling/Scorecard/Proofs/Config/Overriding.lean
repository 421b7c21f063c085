import Mathlib
import Scorecard.Proofs.Config.Gathered

/-!
# Which file routes a language

The routes of a configuration are kept by spelling, while a language is looked up by its normal
name. So of several spellings of one language the one that appeared first decides, and its last
target counts. A later file overrides the route of a language only under the spelling that the
earlier files use for it; under another one its route is loaded too, but never looked at.
-/

namespace Scorecard

namespace Language

/-- The first spelling of a language among routes. -/
def spelling? (name : String) (routes : List (String × String)) : Option String :=
  (routes.map Prod.fst).find? fun spelling => normalize spelling = normalize name

variable {name spelling : String} {routes : List (String × String)}

theorem spelling?_append (before after : List (String × String)) :
    spelling? name (before ++ after) = (spelling? name before).or (spelling? name after) := by
  rw [spelling?, List.map_append, List.find?_append, spelling?, spelling?]

theorem normalize_of_spelling? (found : spelling? name routes = some spelling) :
    normalize spelling = normalize name := by
  rw [spelling?] at found
  simpa using List.find?_some found

theorem lookup_reverse_of_spelling? (found : spelling? name routes = some spelling) :
    (routes.reverse.lookup spelling).isSome = true :=
  Routes.lookup_reverse_isSome (List.mem_of_find?_eq_some found)

/-- Routes in which a language does not occur have no target for any of its spellings. -/
theorem lookup_reverse_eq_none (absent : spelling? name routes = none)
    (same : normalize spelling = normalize name) : routes.reverse.lookup spelling = none := by
  rw [List.lookup_eq_none_iff]
  intro route mem
  rw [bne_iff_ne]
  rintro rfl
  have other := List.find?_eq_none.mp absent _ (List.mem_map_of_mem (List.mem_reverse.mp mem))
  exact other (decide_eq_true same)

/-- If no later routes name the language, its last target is among those that give the spelling. -/
theorem lookup_reverse_append {before own after : List (String × String)}
    (present : spelling? name own = some spelling) (absent : spelling? name after = none) :
    (before ++ own ++ after).reverse.lookup spelling = own.reverse.lookup spelling := by
  have none := lookup_reverse_eq_none absent (normalize_of_spelling? present)
  rw [List.reverse_append, List.reverse_append, List.lookup_append, List.lookup_append, none,
    Option.none_or, Option.or_of_isSome (lookup_reverse_of_spelling? present)]

end Language

namespace Config

variable {tree : FileTree} {root : Path} {named : Option (List Path)} {config : Config}
  {journal : Journal} {name : String}

/-- The family of a language under the routes of documents. -/
theorem family?_gathered (nonempty : name ≠ "") (documents : List Entries) :
    Language.family? name (gathered documents).languageRoutes =
      match Language.spelling? name (routesGiven documents) with
      | some spelling =>
          ((routesGiven documents).reverse.lookup spelling).bind Language.routeTarget?
      | none => Language.families.lookup (Language.normalize name) :=
  Language.family?_settled nonempty (routesGiven documents)

/-- Under a loaded configuration a language is sent where the last entry under its first spelling
sends it. So the last file that routes the language decides, if its own first spelling is also the
first one in the files before it or if none of them routes the language. -/
theorem load_route_decided (returned : ((load tree root named).runOn journal).1 = .ok config)
    (nonempty : name ≠ "") :
    (Language.family? name config.languageRoutes =
      match Language.spelling? name (routesGiven (mappings tree root named)) with
      | some spelling =>
          ((routesGiven (mappings tree root named)).reverse.lookup spelling).bind
            Language.routeTarget?
      | none => Language.families.lookup (Language.normalize name)) ∧
    ∀ before mapping after spelling, mappings tree root named = before ++ mapping :: after →
      Language.spelling? name (routesGiven [mapping]) = some spelling →
      Language.spelling? name (routesGiven after) = none →
      (∀ earlier, Language.spelling? name (routesGiven before) = some earlier →
        earlier = spelling) →
      Language.family? name config.languageRoutes =
        Language.family? name (ofDocuments [mapping]).languageRoutes := by
  rcases load_returned_iff.mp returned with ⟨_, _, rfl⟩
  refine ⟨family?_gathered nonempty _, ?_⟩
  intro before mapping after spelling order present absent agree
  have given : routesGiven (mappings tree root named) =
      routesGiven before ++ routesGiven [mapping] ++ routesGiven after := by
    rw [order, List.append_cons, routesGiven_append, routesGiven_append]
  have first :
      Language.spelling? name (routesGiven (mappings tree root named)) = some spelling := by
    rw [given, Language.spelling?_append, Language.spelling?_append, present]
    cases found : Language.spelling? name (routesGiven before) with
    | none => rfl
    | some earlier => rw [agree earlier found]; rfl
  rw [ofDocuments_eq_gathered, family?_gathered nonempty, family?_gathered nonempty, first, present,
    given]
  simp only [Language.lookup_reverse_append present absent]

/-- A base configuration file and an extension of it, with the given texts. -/
def baseAndExtension (base extension : String) : FileTree :=
  ⟨[], [(["base.yml"], .file (Utf8.encode base.toList) 0),
    (["extra.yml"], .file (Utf8.encode extension.toList) 0)]⟩

/-- The files of a base configuration and its extension, in order. -/
def baseThenExtension : Option (List Path) :=
  some [.ofString "base.yml", .ofString "extra.yml"]

/-- An extension that spells the language as the base does decides about it. -/
theorem load_route_decided_sameSpelling :
    ∃ tree base extension config,
      mappings tree (.ofString ".") baseThenExtension = [base, extension] ∧
      ((load tree (.ofString ".") baseThenExtension).runOn {}).1 = .ok config ∧
      Language.family? "py" (ofDocuments [base]).languageRoutes = some .js ∧
      Language.family? "py" config.languageRoutes = some .cpp := by
  let tree := baseAndExtension "language_routes: {Python: js, py: js}\n"
    "language_routes: {python: c++}\n"
  let base : Entries := [(.text "language_routes",
    .mapping [(.text "Python", .text "js"), (.text "py", .text "js")])]
  let extension : Entries := [(.text "language_routes", .mapping [(.text "python", .text "c++")])]
  have held : mappings tree (.ofString ".") baseThenExtension = [base, extension] := by
    decide +kernel
  have returned : ((load tree (.ofString ".") baseThenExtension).runOn {}).1 =
      .ok { languageRoutes := [("python", "c++"), ("py", "js")] } := by
    decide +kernel
  have nonempty : "py" ≠ "" := by decide
  have decided := (load_route_decided returned nonempty).2 [base] extension [] "python" held
    (by decide +kernel) (by decide +kernel) (by decide +kernel)
  refine ⟨tree, base, extension, _, held, returned, by decide +kernel, ?_⟩
  rw [decided]
  decide +kernel

/-- An extension that spells the language in its own way is loaded and does not decide about it. -/
theorem load_route_hidden :
    ∃ tree base extension config,
      mappings tree (.ofString ".") baseThenExtension = [base, extension] ∧
      ((load tree (.ofString ".") baseThenExtension).runOn {}).1 = .ok config ∧
      Language.family? "python" (ofDocuments [extension]).languageRoutes = some .cpp ∧
      Language.family? "python" config.languageRoutes = some .js := by
  refine ⟨baseAndExtension "language_routes: {py: js}\n" "language_routes: {python: cpp}\n",
    [(.text "language_routes", .mapping [(.text "py", .text "js")])],
    [(.text "language_routes", .mapping [(.text "python", .text "cpp")])],
    { languageRoutes := [("py", "js"), ("python", "cpp")] }, ?_⟩
  decide +kernel

end Config

end Scorecard
