import Scorecard.Proofs.Evaluation.Answers

/-!
# Warnings of a run

Each call of the analysis reads from the journal only whether its name is remembered, and that
decides nothing but whether the name is warned about. The names of all warnings fall into blocks:
full ones, which were forgotten when the next one began, and the current one, which is what the
journal remembers. This is kept by each call because a name that is remembered leaves no trace, and
any other name either joins the current block or closes it.
-/

namespace Scorecard

/-- A call of the analysis. -/
structure AnalysisCall where
  code : Data
  language : Data
  routes : Routes

namespace AnalysisCall

/-- What a call answers, and its journal. -/
def runOn (call : AnalysisCall) (journal : Journal) : Except Fault Metrics × Journal :=
  (analyze call.code call.language call.routes).runOn journal

/-- The journal after a run of calls; a call that ends in a fault does not end the run. -/
def journalAfter (calls : List AnalysisCall) (journal : Journal) : Journal :=
  calls.foldl (fun journal call => (call.runOn journal).2) journal

/-- The call leaves one more notice, the warning about the name. -/
def WarnsAbout (call : AnalysisCall) (journal : Journal) (name : String) : Prop :=
  (call.runOn journal).2.notices = journal.notices ++ [.unroutedLanguage name]

/-- The name of the language of a call that has no family. -/
def unrouted? (call : AnalysisCall) : Option String :=
  match Language.familyOf call.language call.routes with
  | .ok none => (unroutedName call.language).toOption
  | _ => none

/-- The names of all languages without a family in a run. -/
def unroutedNames (calls : List AnalysisCall) : List String :=
  calls.filterMap unrouted?

/-- A language that has no family has a name. -/
theorem exists_unroutedName {call : AnalysisCall}
    (noFamily : Language.familyOf call.language call.routes = .ok none) :
    ∃ name, unroutedName call.language = .ok name := by
  rw [Language.familyOf] at noFamily
  rw [unroutedName, Language.nameText]
  split at noFamily
  · next truthy =>
      cases displayed : call.language.display with
      | error fault =>
          rw [displayed] at noFamily
          cases noFamily
      | ok text =>
          rw [if_pos truthy]
          exact ⟨_, rfl⟩
  · next falsy =>
      rw [if_neg falsy]
      exact ⟨_, rfl⟩

theorem unrouted?_eq_some_iff {call : AnalysisCall} {name : String} :
    call.unrouted? = some name ↔
      Language.familyOf call.language call.routes = .ok none ∧
        unroutedName call.language = .ok name := by
  rw [unrouted?]
  split
  · next noFamily =>
      rcases exists_unroutedName noFamily with ⟨other, named⟩
      rw [noFamily, named]
      simp [Except.toOption]
  · next different =>
      constructor
      · intro impossible
        cases impossible
      · rintro ⟨noFamily, _⟩
        exact absurd noFamily different

/-- What a call does to the journal. -/
theorem runOn_journal (call : AnalysisCall) (journal : Journal) :
    (call.runOn journal).2 = match call.unrouted? with
      | some name => journal.warnUnrouted name
      | none => journal := by
  rw [runOn, analyze, unrouted?]
  cases found : Language.familyOf call.language call.routes with
  | error fault => rfl
  | ok family =>
      cases family with
      | some family => cases codeText call.code <;> rfl
      | none =>
          rcases exists_unroutedName found with ⟨name, named⟩
          rw [named]
          rfl

/-- A call warns about the name of a language without a family that is not remembered. -/
theorem warnsAbout_iff {call : AnalysisCall} {journal : Journal} {name : String} :
    call.WarnsAbout journal name ↔ call.unrouted? = some name ∧ name ∉ journal.warned := by
  rw [WarnsAbout, runOn_journal]
  cases call.unrouted? with
  | none => simp
  | some other =>
      simp only [Journal.warnUnrouted]
      split
      · next known =>
          have remembered : some other = some name → name ∈ journal.warned := by
            rintro ⟨⟩
            exact known
          simpa using remembered
      · next fresh =>
          have new : some other = some name → name ∉ journal.warned := by
            rintro ⟨⟩
            exact fresh
          simpa using new

/-- What is no warning is no notice. -/
theorem notices_of_not_warnsAbout {call : AnalysisCall} {journal : Journal}
    (silent : ∀ name, ¬call.WarnsAbout journal name) :
    (call.runOn journal).2.notices = journal.notices := by
  simp only [warnsAbout_iff] at silent
  rw [runOn_journal]
  split
  · next name named =>
      have known : name ∈ journal.warned := by
        by_contra fresh
        exact silent name ⟨named, fresh⟩
      rw [Journal.warnUnrouted, if_pos known]
  · rfl

/-- What a call answers does not depend on the journal. -/
theorem runOn_answer (call : AnalysisCall) (journal other : Journal) :
    (call.runOn journal).1 = (call.runOn other).1 := by
  have answers := answers_analyze call.code call.language call.routes
  exact (answers journal).trans (answers other).symm

theorem journalAfter_append (calls : List AnalysisCall) (call : AnalysisCall) (journal : Journal) :
    journalAfter (calls ++ [call]) journal = (call.runOn (journalAfter calls journal)).2 := by
  simp [journalAfter, List.foldl_append]

end AnalysisCall

namespace Journal

/-- The names of all warnings, cut into full blocks and the current one, which is remembered: no
block has a name twice, and the current one is empty only at the start. -/
structure InBlocks (names : List String) (full : List (List String)) (current : List String) :
    Prop where
  cut : names = full.flatten ++ current
  full_length : ∀ block ∈ full, block.length = warnedLimit
  full_nodup : ∀ block ∈ full, block.Nodup
  current_length : current.length ≤ warnedLimit
  current_nodup : current.Nodup
  current_ne_nil : full ≠ [] → current ≠ []

theorem InBlocks.start : InBlocks [] [] [] := by
  constructor <;> simp

/-- A name that is not remembered joins the current block, or closes it and begins the next one. -/
theorem InBlocks.remember {names current : List String} {full : List (List String)}
    (blocks : InBlocks names full current) {name : String} (fresh : name ∉ current) :
    ∃ full, InBlocks (names ++ [name]) full (remember current name) := by
  rcases blocks with ⟨cut, full_length, full_nodup, current_length, current_nodup, _⟩
  rw [Journal.remember]
  split
  · next closed =>
      have complete : current.length = warnedLimit := current_length.antisymm closed
      refine ⟨full ++ [current], ?_, ?_, ?_, ?_, ?_, ?_⟩
      · simp [cut]
      · simpa [or_imp, forall_and, complete] using full_length
      · simpa [or_imp, forall_and, current_nodup] using full_nodup
      · simp [warnedLimit]
      · exact List.nodup_singleton name
      · simp
  · next room =>
      refine ⟨full, ?_, full_length, full_nodup, ?_, ?_, ?_⟩
      · simp [cut]
      · simp only [List.length_append, List.length_singleton]
        omega
      · exact List.nodup_append.mpr ⟨current_nodup, List.nodup_singleton name, by grind⟩
      · simp

/-- Every name that was met is remembered, and was warned about once after the earlier notices. -/
structure Complete (journal : Journal) (earlier : List Notice) (names : Finset String) : Prop where
  logged : journal.notices = earlier ++ journal.warned.map .unroutedLanguage
  nodup : journal.warned.Nodup
  names : journal.warned.toFinset = names

/-- One more name is warned about if it is new, and there is room for it. -/
theorem Complete.warnUnrouted {journal : Journal} {earlier : List Notice} {names : Finset String}
    (complete : journal.Complete earlier names) {name : String}
    (few : (insert name names).card ≤ warnedLimit) :
    (journal.warnUnrouted name).Complete earlier (insert name names) := by
  rcases complete with ⟨logged, nodup, rfl⟩
  rw [Journal.warnUnrouted]
  split
  · next known =>
      rw [Finset.insert_eq_of_mem (List.mem_toFinset.mpr known)]
      exact ⟨logged, nodup, rfl⟩
  · next fresh =>
      have new : name ∉ journal.warned.toFinset := by simpa using fresh
      have room : journal.warned.length < warnedLimit := by
        rw [Finset.card_insert_of_notMem new, List.toFinset_card_of_nodup nodup] at few
        exact few
      have joined : Journal.remember journal.warned name = journal.warned ++ [name] := by
        rw [Journal.remember, if_neg (Nat.not_le.mpr room)]
      rw [joined]
      refine ⟨?_, ?_, ?_⟩
      · simp [logged]
      · exact List.nodup_append.mpr ⟨nodup, List.nodup_singleton name, by grind⟩
      · simp

end Journal

namespace AnalysisCall

/-- After any run the warnings fall into blocks, the last of which is remembered. -/
theorem exists_inBlocks (calls : List AnalysisCall) (notices : List Notice) :
    ∃ names full,
      (journalAfter calls { notices }).notices = notices ++ names.map .unroutedLanguage ∧
        Journal.InBlocks names full (journalAfter calls { notices }).warned := by
  induction calls using List.reverseRecOn with
  | nil => exact ⟨[], [], by simp [journalAfter], .start⟩
  | append_singleton calls call ih =>
      rcases ih with ⟨names, full, logged, blocks⟩
      rw [journalAfter_append, runOn_journal]
      cases call.unrouted? with
      | none => exact ⟨names, full, logged, blocks⟩
      | some name =>
          simp only [Journal.warnUnrouted]
          split
          · exact ⟨names, full, logged, blocks⟩
          · next fresh =>
              rcases blocks.remember fresh with ⟨full, blocks⟩
              exact ⟨names ++ [name], full, by simp [logged], blocks⟩

theorem toFinset_unroutedNames_append (calls : List AnalysisCall) (call : AnalysisCall) :
    (unroutedNames (calls ++ [call])).toFinset = match call.unrouted? with
      | some name => insert name (unroutedNames calls).toFinset
      | none => (unroutedNames calls).toFinset := by
  cases name : call.unrouted? <;> simp [unroutedNames, name]

theorem unroutedNames_subset (calls : List AnalysisCall) (call : AnalysisCall) :
    (unroutedNames calls).toFinset ⊆ (unroutedNames (calls ++ [call])).toFinset := by
  rw [unroutedNames, unroutedNames, List.filterMap_append, List.toFinset_append]
  exact Finset.subset_union_left

/-- As long as a run has met no more names than are remembered, it remembers all of them. -/
theorem complete_of_few (calls : List AnalysisCall) (notices : List Notice)
    (few : (unroutedNames calls).toFinset.card ≤ warnedLimit) :
    (journalAfter calls { notices }).Complete notices (unroutedNames calls).toFinset := by
  induction calls using List.reverseRecOn with
  | nil => exact ⟨by simp [journalAfter], List.nodup_nil, rfl⟩
  | append_singleton calls call ih =>
      have earlier := ih ((Finset.card_le_card (unroutedNames_subset calls call)).trans few)
      rw [toFinset_unroutedNames_append] at few ⊢
      rw [journalAfter_append, runOn_journal]
      cases met : call.unrouted? with
      | none => exact earlier
      | some name =>
          rw [met] at few
          exact earlier.warnUnrouted few

/-- After any run from an empty memory, at most as many names are remembered as the limit says, the
warnings fall into blocks of which the current one is remembered, and the next call warns exactly
about a language without a family whose name is not remembered. If the run has met no more names
than the limit, each is warned about once, at its first call. What the call answers has nothing to
do with the memory. -/
theorem warnings_in_blocks (calls : List AnalysisCall) (next : AnalysisCall)
    (notices : List Notice) :
    let journal := journalAfter calls { notices }
    journal.warned.length ≤ warnedLimit ∧
      (∀ name, next.WarnsAbout journal name ↔
        Language.familyOf next.language next.routes = .ok none ∧
          unroutedName next.language = .ok name ∧ name ∉ journal.warned) ∧
      ((∀ name, ¬next.WarnsAbout journal name) →
        (next.runOn journal).2.notices = journal.notices) ∧
      (∃ names full, journal.notices = notices ++ names.map .unroutedLanguage ∧
        Journal.InBlocks names full journal.warned ∧
        ((unroutedNames calls).toFinset.card ≤ warnedLimit →
          names.Nodup ∧ ∀ name, name ∈ names ↔ name ∈ unroutedNames calls)) ∧
      ((unroutedNames (calls ++ [next])).toFinset.card ≤ warnedLimit →
        ∀ name, next.WarnsAbout journal name ↔
          next.unrouted? = some name ∧ name ∉ unroutedNames calls) ∧
      ∀ other, (next.runOn journal).1 = (next.runOn other).1 := by
  intro journal
  rcases exists_inBlocks calls notices with ⟨names, full, logged, blocks⟩
  refine ⟨blocks.current_length, ?_, notices_of_not_warnsAbout, ?_, ?_, runOn_answer next journal⟩
  · intro name
    rw [warnsAbout_iff, unrouted?_eq_some_iff, and_assoc]
  · refine ⟨names, full, logged, blocks, ?_⟩
    intro few
    rcases complete_of_few calls notices few with ⟨remembered, nodup, same⟩
    have names_eq : names = journal.warned := by
      rw [logged, List.append_cancel_left_eq] at remembered
      exact List.map_injective_iff.mpr (fun _ _ => Notice.unroutedLanguage.inj) remembered
    rw [names_eq]
    refine ⟨nodup, ?_⟩
    intro name
    rw [← List.mem_toFinset, same, List.mem_toFinset]
  · intro few name
    have earlier := (Finset.card_le_card (unroutedNames_subset calls next)).trans few
    have same := (complete_of_few calls notices earlier).names
    rw [warnsAbout_iff, ← List.mem_toFinset, same, List.mem_toFinset]

end AnalysisCall

end Scorecard
