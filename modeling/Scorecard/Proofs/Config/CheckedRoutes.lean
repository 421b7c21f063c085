import Scorecard.Proofs.Config.Checked
import Scorecard.Proofs.Config.Gathered

/-!
# Checked routes lead to families

A check reports a route exactly if its target is no family, which is if a look-up under this route
alone has no answer. If it reports none, the routes as they are loaded have an answer for every
language that they name, in whatever spelling: folding a spelling changes neither the language nor
where it is sent.
-/

namespace Scorecard

namespace Language

theorem ofName?_isSome_iff {name : String} :
    (Family.ofName? name).isSome = true ↔ name ∈ Family.all.map Family.name := by
  rw [Family.ofName?, List.find?_isSome, List.mem_map]
  simp only [beq_iff_eq]

/-- A target leads to a family if it is one, or a language that belongs to one. -/
theorem routeTarget?_isSome_iff {target : String} :
    (routeTarget? target).isSome = true ↔ fold target ∈ Family.all.map Family.name ∨
      normalize (fold target) ∈ families.map Prod.fst := by
  rw [← ofName?_isSome_iff, ← lookup_isSome_iff_mem_keys, routeTarget?]
  cases Family.ofName? (fold target) <;> simp

/-- Under a single route its language is sent where the route leads. -/
theorem family?_singleton {route : String × String} (nonempty : route.1 ≠ "") :
    family? route.1 [route] = routeTarget? route.2 := by
  rw [family?, if_neg nonempty]
  simp

/-- If all targets of some routes lead to families, the routes lead every language to one that they
name. -/
theorem family?_of_targets {routes : List (String × String)} {name : String} (nonempty : name ≠ "")
    (named : ∃ route ∈ routes, normalize route.1 = normalize name)
    (leads : ∀ route ∈ routes, (routeTarget? route.2).isSome = true) :
    ∃ family, family? name (Routes.ofPairs routes) = some family := by
  rw [Routes.ofPairs_eq_settled, family?_settled nonempty]
  cases first : (routes.map Prod.fst).find? fun spelling => normalize spelling = normalize name with
  | none =>
      rcases named with ⟨route, mem, same⟩
      rw [List.find?_eq_none] at first
      have differs := first route.1 (List.mem_map_of_mem mem)
      rw [decide_eq_true_eq] at differs
      exact absurd same differs
  | some spelling =>
      have known := Routes.lookup_reverse_isSome (List.mem_of_find?_eq_some first)
      rcases Option.isSome_iff_exists.mp known with ⟨target, given⟩
      rcases List.lookup_eq_some_iff.mp given with ⟨before, after, split, _⟩
      have mem : (spelling, target) ∈ routes := by
        rw [← List.mem_reverse, split]
        exact List.mem_append_right _ List.mem_cons_self
      rcases Option.isSome_iff_exists.mp (leads (spelling, target) mem) with ⟨family, found⟩
      refine ⟨family, ?_⟩
      simp only [given, Option.bind_some]
      exact found

end Language

namespace Config

variable {document : Entries} {findings : List Finding} {language family : String}

theorem checkRoute_texts (language family : String) :
    checkRoute (.text language, .text family) =
      if (Language.routeTarget? family).isSome then [] else [.unknownFamily language family] := by
  simp only [checkRoute, Bool.or_eq_true, List.contains_iff_mem, Language.routeTarget?_isSome_iff]

theorem unknownFamily_notMem_checkKeys {unknown : List Finding}
    (returned : checkKeys document = .ok unknown) : .unknownFamily language family ∉ unknown := by
  have each : ∀ finding ∈ unknown, ∃ key, finding = .unknownKey key := by
    rw [checkKeys] at returned
    refine forall_of_forall₂ (mapM_eq_ok_iff.mp returned) ?_
    rintro ⟨key, value⟩ finding shown
    rcases bind_eq_ok_iff.mp shown with ⟨text, _, same⟩
    cases same
    exact ⟨text, rfl⟩
  intro mem
  rcases each _ mem with ⟨key, same⟩
  cases same

/-- Only the check of the routes finds unknown families. -/
theorem unknownFamily_mem_iff (returned : check document = .ok findings) :
    .unknownFamily language family ∈ findings ↔
      .unknownFamily language family ∈ checkRoutes document := by
  rw [check, bind_eq_ok_iff] at returned
  rcases returned with ⟨unknown, keys, same⟩
  cases same
  have texts : ∀ key, .unknownFamily language family ∉ checkTexts document key := by
    intro key
    rw [checkTexts]
    split
    · simp
    · split <;> simp
  have languages : .unknownFamily language family ∉ checkLanguages document := by
    rw [checkLanguages]
    split
    · simp
    · split
      · simp
      · dsimp only
        split <;> simp
  have boolean : .unknownFamily language family ∉ checkBoolean document "interview_mode" := by
    rw [checkBoolean]
    split <;> simp
  have integer : ∀ key least, .unknownFamily language family ∉ checkInteger document key least := by
    intro key least
    rw [checkInteger]
    split
    · simp
    · simp
    · split <;> simp
    · simp
  have atMost : .unknownFamily language family ∉ checkAtMost document "fail_under" 100 := by
    rw [checkAtMost]
    split
    · split <;> simp
    · simp
  simp only [List.mem_append, unknownFamily_notMem_checkKeys keys, texts, languages, boolean,
    integer, atMost, false_or, or_false]

/-- A route of texts is reported exactly if its target leads to no family. -/
theorem unknownFamily_mem_checkRoutes_iff {routes : List (String × String)}
    {route : String × String}
    (held : document.get? "language_routes" = some (.mapping (Entries.ofTexts routes)))
    (mem : route ∈ routes) :
    .unknownFamily route.1 route.2 ∈ checkRoutes document ↔
      Language.routeTarget? route.2 = none := by
  have checked : checkRoutes document = (Entries.ofTexts routes).flatMap checkRoute := by
    rw [checkRoutes, held]
  rw [checked, Entries.ofTexts, List.flatMap_map, List.mem_flatMap]
  constructor
  · rintro ⟨other, _, reported⟩
    rw [checkRoute_texts] at reported
    split at reported
    · cases reported
    · next unresolved =>
        have same := List.mem_singleton.mp reported
        rw [Finding.unknownFamily.injEq] at same
        rw [same.2]
        exact Option.not_isSome_iff_eq_none.mp unresolved
  · intro unresolved
    refine ⟨route, mem, ?_⟩
    rw [checkRoute_texts, unresolved, if_neg (by simp)]
    exact List.mem_singleton_self _

/-- A check returns if all keys can be written. -/
theorem exists_check_eq_ok (written : ∀ entry ∈ document, ∃ text, entry.1.display = .ok text) :
    ∃ findings, check document = .ok findings := by
  have keysReturn : ∃ unknown, checkKeys document = .ok unknown := by
    rw [checkKeys]
    apply exists_mapM_eq_ok
    rintro ⟨key, value⟩ mem
    rcases written _ (List.mem_of_mem_filter mem) with ⟨text, shown⟩
    exact ⟨.unknownKey text, bind_eq_ok_iff.mpr ⟨text, shown, rfl⟩⟩
  rcases keysReturn with ⟨unknown, returned⟩
  exact ⟨_, bind_eq_ok_iff.mpr ⟨unknown, returned, rfl⟩⟩

/-- Routes of texts are loaded folded and without a notice. -/
theorem routesUnder?_ofTexts {routes : List (String × String)}
    (held : document.get? "language_routes" = some (.mapping (Entries.ofTexts routes))) :
    Recorded.Returns (routesUnder? document) (some (routes.map fun (language, family) =>
      (Language.fold language, Language.fold family))) [] := by
  have silent : document.faultsAt "language_routes" routesFaults = [] := by
    rw [Entries.faultsAt, held]
    exact routesFaults_ofTexts routes
  have returned := (routesUnder?_leaves document).returns silent
  rw [Entries.held?, Entries.noticesAt, held, Option.bind_some, routesOf?_ofTexts] at returned
  exact returned

/-- A configuration that is loaded from a single mapping has the routes that are read from it. -/
theorem languageRoutes_of_load {tree : FileTree} {root : Path} {named : Option (List Path)}
    {journal : Journal} {config : Config} {loaded : List (String × String)}
    (read : Recorded.Returns (routesUnder? document) (some loaded) [])
    (single : mappings tree root named = [document])
    (returned : ((load tree root named).runOn journal).1 = .ok config) :
    config.languageRoutes = Routes.ofPairs loaded := by
  rcases load_returned_iff.mp returned with ⟨_, silent, rfl⟩
  rw [single] at silent ⊢
  have faultless := silent document List.mem_cons_self
  simp only [documentFaults, List.append_eq_nil_iff] at faultless
  rcases faultless with ⟨_, _, _, routes, _⟩
  have same := (read {}).symm.trans ((routesUnder?_leaves document).returns routes {})
  rw [Prod.mk.injEq, Except.ok.injEq] at same
  rw [gathered, routesGiven_singleton, ← same.1, Routes.ofPairs_eq_settled, Option.getD_some]

/-- A check of a mapping of texts reports exactly the routes under which their own language has no
family. If it reports none, the loaded routes have a family for every language that they name. -/
theorem check_routes_resolve {routes : List (String × String)}
    (held : document.get? "language_routes" = some (.mapping (Entries.ofTexts routes)))
    (written : ∀ entry ∈ document, ∃ text, entry.1.display = .ok text) :
    ∃ findings loaded, check document = .ok findings ∧
      (∀ route ∈ routes, route.1 ≠ "" →
        (.unknownFamily route.1 route.2 ∈ findings ↔ Language.family? route.1 [route] = none)) ∧
      Recorded.Returns (routesUnder? document) (some loaded) [] ∧
      (∀ tree root named journal config, mappings tree root named = [document] →
        ((load tree root named).runOn journal).1 = .ok config →
          config.languageRoutes = Routes.ofPairs loaded) ∧
      ((∀ language family, .unknownFamily language family ∉ findings) → ∀ name, name ≠ "" →
        (∃ route ∈ routes, Language.normalize route.1 = Language.normalize name) →
          ∃ family, Language.family? name (Routes.ofPairs loaded) = some family) := by
  rcases exists_check_eq_ok written with ⟨findings, returned⟩
  have read := routesUnder?_ofTexts held
  refine ⟨findings, _, returned, ?_, read, ?_, ?_⟩
  · intro route mem nonempty
    rw [unknownFamily_mem_iff returned, unknownFamily_mem_checkRoutes_iff held mem,
      Language.family?_singleton nonempty]
  · intro tree root named journal config single loaded
    exact languageRoutes_of_load read single loaded
  · rintro silent name nonempty ⟨route, mem, same⟩
    have leads : ∀ other ∈ routes, (Language.routeTarget? other.2).isSome = true := by
      intro other otherMem
      rw [Option.isSome_iff_ne_none, ne_eq, ← unknownFamily_mem_checkRoutes_iff held otherMem,
        ← unknownFamily_mem_iff returned]
      exact silent _ _
    apply Language.family?_of_targets nonempty
    · exact ⟨_, List.mem_map_of_mem mem, by rw [Language.normalize_fold, same]⟩
    · intro folded foldedMem
      rcases List.mem_map.mp foldedMem with ⟨other, otherMem, rfl⟩
      rw [Language.routeTarget?_fold]
      exact leads other otherMem

/-- Routes without a finding lead a language to a family in a spelling that none of them has, and a
route to an unknown family is reported. -/
theorem check_routes_resolve_otherSpelling :
    (∃ loaded, Recorded.Returns (routesUnder? [(.text "language_routes",
        .mapping (Entries.ofTexts [("Java", " JS"), ("py", "TypeScript")]))]) (some loaded) [] ∧
      ∃ family, Language.family? "Python3" (Routes.ofPairs loaded) = some family) ∧
    ∃ findings, check [(.text "language_routes",
        .mapping (Entries.ofTexts [("Java", "java"), ("py", "js")]))] = .ok findings ∧
      .unknownFamily "Java" "java" ∈ findings := by
  have writtenKey : ∀ value : Data, ∀ entry ∈ ([(.text "language_routes", value)] : Entries),
      ∃ text, entry.1.display = .ok text := by
    intro value entry mem
    rw [List.mem_singleton.mp mem]
    exact ⟨_, rfl⟩
  constructor
  · let routes := [("Java", " JS"), ("py", "TypeScript")]
    let document : Entries := [(.text "language_routes", .mapping (Entries.ofTexts routes))]
    have held : document.get? "language_routes" = some (.mapping (Entries.ofTexts routes)) := rfl
    rcases check_routes_resolve held (writtenKey _) with
      ⟨findings, loaded, returned, _, read, _, resolve⟩
    have silent : check document = .ok [] := by decide
    rw [silent, Except.ok.injEq] at returned
    refine ⟨loaded, read, resolve ?_ "Python3" (by decide) ?_⟩
    · rw [← returned]
      simp
    · exact ⟨("py", "TypeScript"), by decide, by decide⟩
  · let routes := [("Java", "java"), ("py", "js")]
    let document : Entries := [(.text "language_routes", .mapping (Entries.ofTexts routes))]
    have held : document.get? "language_routes" = some (.mapping (Entries.ofTexts routes)) := rfl
    rcases check_routes_resolve held (writtenKey _) with ⟨findings, _, returned, reported, _⟩
    have mem : ("Java", "java") ∈ routes := by decide
    refine ⟨findings, returned, (reported _ mem (by decide)).mpr ?_⟩
    decide

end Config

end Scorecard
