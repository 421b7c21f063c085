import Scorecard.Proofs.Except
import Scorecard.Proofs.Number.Finite
import Scorecard.Report.Statistics

/-!
# When there are statistics

The statistics add up the scores of each name and the final scores, and they compare the means of
two windows. They are there exactly if none of this leaves the range of the floats: a score that is
not a number, an infinite one and a sum that becomes infinite have no rounded mean, and an integer
beyond the floats has no float. Scores far below the end of the range always have statistics.
-/

namespace Scorecard

namespace Number

/-- The faults of taking a number as a float. -/
def floatFaults : Number → List Fault
  | .int value => if value.natAbs < Binary64.beyond then [] else [.integerBeyondFloat]
  | .float _ => []

theorem toFloat_yields (number : Number) :
    Yields number.toFloat number.nearest number.floatFaults := by
  cases number with
  | float value => rfl
  | int value =>
      simp only [Yields, toFloat, floatOfInt_eq, floatFaults, nearest]
      split <;> rfl

theorem floatFaults_of_isFinite {number : Number} (finite : number.nearest.isFinite = true) :
    number.floatFaults = [] := by
  cases number with
  | float value => rfl
  | int value =>
      rw [floatFaults, if_pos ((Binary64.isFinite_ofInt_iff value).mp finite)]

theorem eq_of_mem_floatFaults {number : Number} {fault : Fault} (mem : fault ∈ number.floatFaults) :
    fault = .integerBeyondFloat := by
  cases number with
  | float value => cases mem
  | int value =>
      rw [floatFaults] at mem
      split at mem
      · cases mem
      · exact List.mem_singleton.mp mem

/-- The number is so far from the end of the range of floats that any count of such numbers has a
finite sum. -/
def Moderate (number : Number) : Prop :=
  ∃ value, number.nearest.quanta? = some value ∧ Within Binary64.summableBound value

theorem moderate_int {value : ℤ} (within : value.natAbs ≤ Binary64.summableBound) :
    (int value).Moderate := by
  rcases Binary64.summableBound_spec with ⟨rounds, _, room, _, _⟩
  have safe : (value * quantaInOne).natAbs < safeBound := by
    rw [Int.natAbs_mul, Int.natAbs_natCast]
    exact lt_of_le_of_lt (Nat.mul_le_mul_right _ (within.trans (Nat.le_add_left _ _))) room
  refine ⟨_, Binary64.quanta?_ofQuanta safe, ?_⟩
  apply Binary64.within_roundedValue rounds
  apply Within.of_int
  rw [Int.abs_eq_natAbs]
  exact_mod_cast within

end Number

namespace Statistics

/-- The fault is about a number that is out of the range of the floats, or about none at all. -/
def IsRangeFault (fault : Fault) : Prop :=
  fault = .integerBeyondFloat ∨ fault = .infinityToInteger ∨ fault = .nanToInteger

theorem isRangeFault_of_mem_wholeFaults {value : Binary64} {fault : Fault}
    (mem : fault ∈ Number.wholeFaults value) : IsRangeFault fault := by
  rcases Number.mem_wholeFaults mem with rfl | rfl
  · exact .inr (.inr rfl)
  · exact .inr (.inl rfl)

/-- The faults of the rounded mean of numbers. -/
def meanFaults (numbers : List Number) : List Fault :=
  numbers.flatMap Number.floatFaults ++
    ((if numbers.length < Binary64.beyond then [] else [.integerBeyondFloat]) ++
      Number.wholeFaults
        ((Binary64.total (numbers.map Number.nearest)).div (.ofInt numbers.length)))

section

variable {numbers : List Number}

theorem exists_roundedMean_yields (nonempty : numbers ≠ []) :
    ∃ mean, Yields (roundedMean numbers) mean (meanFaults numbers) := by
  have floats := Yields.mapM fun number (_ : number ∈ numbers) => number.toFloat_yields
  have present : numbers.map Number.nearest ≠ [] := List.map_eq_nil_iff.not.mpr nonempty
  have mean := Number.mean_yields present
  rw [List.length_map] at mean
  rcases Number.exists_roundHalfUp_yields
    ((Binary64.total (numbers.map Number.nearest)).div (.ofInt numbers.length)) with
    ⟨whole, rounded⟩
  exact ⟨whole, floats.bind (mean.bind rounded)⟩

theorem meanFaults_eq_nil_iff (nonempty : numbers ≠ []) :
    meanFaults numbers = [] ↔ numbers.length < Binary64.beyond ∧
      (Binary64.total (numbers.map Number.nearest)).isFinite = true := by
  have positive : 0 < numbers.length := List.length_pos_iff.mpr nonempty
  simp only [meanFaults, List.append_eq_nil_iff, ite_eq_left_iff, List.cons_ne_self, imp_false,
    not_not]
  constructor
  · rintro ⟨_, few, whole⟩
    rw [Number.wholeFaults_div _ positive few, Number.wholeFaults_eq_nil_iff] at whole
    exact ⟨few, whole⟩
  · rintro ⟨few, finite⟩
    refine ⟨List.flatMap_eq_nil_iff.mpr fun number mem => ?_, few, ?_⟩
    · exact Number.floatFaults_of_isFinite
        (Binary64.isFinite_of_total finite _ (List.mem_map_of_mem mem))
    · rw [Number.wholeFaults_div _ positive few, Number.wholeFaults_eq_nil_iff]
      exact finite

theorem isRangeFault_of_mem_meanFaults {fault : Fault} (mem : fault ∈ meanFaults numbers) :
    IsRangeFault fault := by
  simp only [meanFaults, List.mem_append] at mem
  rcases mem with mem | mem | mem
  · rcases List.mem_flatMap.mp mem with ⟨number, _, mem⟩
    exact .inl (Number.eq_of_mem_floatFaults mem)
  · split at mem
    · cases mem
    · exact .inl (List.mem_singleton.mp mem)
  · exact isRangeFault_of_mem_wholeFaults mem

end

/-- The scores that are broken down, by their names. -/
def skills : List (String × (Scores → Number)) :=
  [("codeQuality", (·.codeQuality)), ("timeComplexity", (·.timeComplexity)),
    ("spaceComplexity", (·.spaceComplexity)), ("security", (·.security)),
    ("readability", (·.readability))]

/-- The scores that entries have under one name. -/
def column (ranked : List ScoredEntry) (skill : String × (Scores → Number)) : List Number :=
  ranked.map fun entry => skill.2 entry.scores

/-- The difference of the means of the newest window and the one before it. -/
def changeOf (ranked : List ScoredEntry) : Except Fault Binary64 := do
  let scores := ranked.map (·.devScore)
  let recent ← Number.mean (scores.take improvementWindow)
  let previous ← Number.mean ((scores.drop improvementWindow).take improvementWindow)
  return recent.sub previous

/-- What the statistics of ranked entries add up and compare stays in the range of the floats. -/
structure Summable (ranked : List ScoredEntry) : Prop where
  few : ranked.length < Binary64.beyond
  scores : ∀ skill ∈ skills,
    (Binary64.total ((column ranked skill).map Number.nearest)).isFinite = true
  devScores : (Binary64.total ((ranked.map (·.devScore)).map Number.nearest)).isFinite = true
  change : 2 * improvementWindow ≤ ranked.length → ∀ change, changeOf ranked = .ok change →
    change.isFinite = true

theorem improvementOf_eq (ranked : List ScoredEntry) :
    improvementOf ranked = if ranked.length < 2 * improvementWindow then .ok 0
      else (changeOf ranked).bind fun change => Number.roundHalfUp (.float change) := by
  rw [improvementOf]
  split
  · rfl
  · simp only [changeOf, bind, Except.bind, pure, Except.pure]
    cases Number.mean ((ranked.map (·.devScore)).take improvementWindow) with
    | error fault => rfl
    | ok recent =>
        cases Number.mean
          (((ranked.map (·.devScore)).drop improvementWindow).take improvementWindow) <;> rfl

/-- Scores that are integers between two bounds are a list of such integers. -/
theorem exists_integers {ranked : List ScoredEntry} {bound : ℕ}
    (within : ∀ entry ∈ ranked, ∃ score, entry.devScore = .int score ∧ score.natAbs ≤ bound) :
    ∃ scores : List ℤ, ranked.map (·.devScore) = scores.map .int ∧ ∀ score ∈ scores,
      score.natAbs ≤ bound := by
  induction ranked with
  | nil => exact ⟨[], rfl, by simp⟩
  | cons entry ranked ih =>
      rw [List.forall_mem_cons] at within
      rcases within.1 with ⟨score, score_eq, score_le⟩
      rcases ih within.2 with ⟨scores, scores_eq, scores_le⟩
      refine ⟨score :: scores, ?_, List.forall_mem_cons.mpr ⟨score_le, scores_le⟩⟩
      rw [List.map_cons, List.map_cons, score_eq, scores_eq]

/-- The means of two windows of integers are no further from zero than the integers are. -/
theorem exists_changeOf {ranked : List ScoredEntry} {bound : ℕ}
    (many : 2 * improvementWindow ≤ ranked.length)
    (within : ∀ entry ∈ ranked, ∃ score, entry.devScore = .int score ∧ score.natAbs ≤ bound)
    (room : bound < Binary64.beyond) :
    ∃ recentNegative recent previousNegative previous,
      changeOf ranked =
        .ok ((Binary64.finite recentNegative recent).sub (.finite previousNegative previous)) ∧
      recent.quanta ≤ roundedQuotient (bound * quantaInOne) 1 ∧
      previous.quanta ≤ roundedQuotient (bound * quantaInOne) 1 := by
  rcases exists_integers within with ⟨scores, scores_eq, scores_le⟩
  have length_eq : scores.length = ranked.length := by
    have same := congrArg List.length scores_eq
    rw [List.length_map, List.length_map] at same
    exact same.symm
  have window : ∀ taken : List ℤ, taken.length = improvementWindow →
      (∀ score ∈ taken, score ∈ scores) →
        ∃ negative magnitude, Number.mean (taken.map .int) = .ok (.finite negative magnitude) ∧
          magnitude.quanta ≤ roundedQuotient (bound * quantaInOne) 1 := by
    intro taken taken_length sub
    have nonempty : taken ≠ [] := by
      rintro rfl
      cases taken_length
    exact Number.exists_mean_ints nonempty (fun score mem => scores_le score (sub score mem)) room
  rw [← length_eq] at many
  have recentLength : (scores.take improvementWindow).length = improvementWindow := by
    rw [List.length_take]
    omega
  have previousLength :
      ((scores.drop improvementWindow).take improvementWindow).length = improvementWindow := by
    rw [List.length_take, List.length_drop]
    omega
  rcases window _ recentLength fun score mem => List.mem_of_mem_take mem with
    ⟨recentNegative, recent, recentMean, recent_le⟩
  rcases window _ previousLength fun score mem =>
    List.mem_of_mem_drop (List.mem_of_mem_take mem) with
    ⟨previousNegative, previous, previousMean, previous_le⟩
  refine ⟨recentNegative, recent, previousNegative, previous, ?_, recent_le, previous_le⟩
  simp only [changeOf, scores_eq, ← List.map_take, ← List.map_drop, recentMean, previousMean]
  rfl

/-- The faults of the improvement. -/
def changeFaults (ranked : List ScoredEntry) : List Fault :=
  if ranked.length < 2 * improvementWindow then [] else
    match changeOf ranked with
    | .ok change => Number.wholeFaults change
    | .error _ => []

/-- The faults of the statistics of ranked entries. -/
def entryFaults (ranked : List ScoredEntry) : List Fault :=
  (skills.flatMap fun skill => meanFaults (column ranked skill)) ++
    (meanFaults (ranked.map (·.devScore)) ++ changeFaults ranked)

section

variable {ranked : List ScoredEntry}

theorem exists_breakdown_yields (nonempty : ranked ≠ []) :
    ∃ scores, Yields (breakdown ranked) scores
      (skills.flatMap fun skill => meanFaults (column ranked skill)) := by
  have each : ∀ skill, ∃ mean, Yields (roundedMean (column ranked skill)) mean
      (meanFaults (column ranked skill)) :=
    fun skill => exists_roundedMean_yields (List.map_eq_nil_iff.not.mpr nonempty)
  choose mean yields using each
  exact ⟨_, Yields.mapM fun skill (_ : skill ∈ skills) => (yields skill).map fun mean =>
    (skill.1, mean)⟩

/-- The final scores of the entries are integers. -/
def IntegerScored (ranked : List ScoredEntry) : Prop :=
  ∀ entry ∈ ranked, ∃ score, entry.devScore = .int score

/-- If the mean of integers has no faults, they are in the range of the floats. -/
theorem natAbs_le_of_mean (nonempty : ranked ≠ []) (integers : IntegerScored ranked)
    (silent : meanFaults (ranked.map (·.devScore)) = []) :
    ∀ entry ∈ ranked, ∃ score, entry.devScore = .int score ∧
      score.natAbs ≤ Binary64.beyond - 1 := by
  intro entry mem
  rcases integers entry mem with ⟨score, score_eq⟩
  refine ⟨score, score_eq, Nat.le_sub_one_of_lt ?_⟩
  have finite := ((meanFaults_eq_nil_iff (List.map_eq_nil_iff.not.mpr nonempty)).mp silent).2
  have scoreFinite := Binary64.isFinite_of_total finite _
    (List.mem_map_of_mem (List.mem_map_of_mem mem))
  rw [score_eq] at scoreFinite
  exact (Binary64.isFinite_ofInt_iff score).mp scoreFinite

theorem exists_improvementOf_yields (nonempty : ranked ≠ []) (integers : IntegerScored ranked) :
    ∃ improvement, meanFaults (ranked.map (·.devScore)) = [] →
      Yields (improvementOf ranked) improvement (changeFaults ranked) := by
  rw [improvementOf_eq, changeFaults]
  split
  · exact ⟨0, fun _ => .ok 0⟩
  · next many =>
      by_cases silent : meanFaults (ranked.map (·.devScore)) = []
      · rcases exists_changeOf (Nat.le_of_not_lt many) (natAbs_le_of_mean nonempty integers silent)
          (Nat.sub_one_lt Binary64.beyond_pos.ne') with ⟨_, _, _, _, change_eq, _⟩
        rw [change_eq]
        rcases Number.exists_roundHalfUp_yields _ with ⟨improvement, rounded⟩
        exact ⟨improvement, fun _ => rounded⟩
      · exact ⟨0, fun impossible => absurd impossible silent⟩

theorem changeFaults_eq_nil_iff (nonempty : ranked ≠ []) (integers : IntegerScored ranked)
    (silent : meanFaults (ranked.map (·.devScore)) = []) :
    changeFaults ranked = [] ↔ (2 * improvementWindow ≤ ranked.length →
      ∀ change, changeOf ranked = .ok change → change.isFinite = true) := by
  rw [changeFaults]
  split
  · next few => simp [Nat.not_le.mpr few]
  · next many =>
      rcases exists_changeOf (Nat.le_of_not_lt many) (natAbs_le_of_mean nonempty integers silent)
        (Nat.sub_one_lt Binary64.beyond_pos.ne') with ⟨_, _, _, _, change_eq, _⟩
      simp only [change_eq, Number.wholeFaults_eq_nil_iff, Except.ok.injEq, forall_eq',
        Nat.le_of_not_lt many, true_implies]

theorem entryFaults_eq_nil_iff (nonempty : ranked ≠ []) (integers : IntegerScored ranked) :
    entryFaults ranked = [] ↔ Summable ranked := by
  have columns : ∀ skill, column ranked skill ≠ [] := fun _ => List.map_eq_nil_iff.not.mpr nonempty
  have scores : ranked.map (·.devScore) ≠ [] := List.map_eq_nil_iff.not.mpr nonempty
  have lengths : ∀ skill, (column ranked skill).length = ranked.length := fun _ => List.length_map _
  rw [entryFaults, List.append_eq_nil_iff, List.append_eq_nil_iff, List.flatMap_eq_nil_iff]
  constructor
  · rintro ⟨broken, averaged, improved⟩
    have average := (meanFaults_eq_nil_iff scores).mp averaged
    rw [List.length_map] at average
    exact {
      few := average.1
      scores := fun skill mem => ((meanFaults_eq_nil_iff (columns skill)).mp (broken skill mem)).2
      devScores := average.2
      change := (changeFaults_eq_nil_iff nonempty integers averaged).mp improved }
  · intro summable
    have averaged : meanFaults (ranked.map (·.devScore)) = [] := by
      rw [meanFaults_eq_nil_iff scores, List.length_map]
      exact ⟨summable.few, summable.devScores⟩
    refine ⟨fun skill mem => ?_, averaged, ?_⟩
    · rw [meanFaults_eq_nil_iff (columns skill), lengths]
      exact ⟨summable.few, summable.scores skill mem⟩
    · exact (changeFaults_eq_nil_iff nonempty integers averaged).mpr summable.change

theorem isRangeFault_of_mem_entryFaults {fault : Fault} (mem : fault ∈ entryFaults ranked) :
    IsRangeFault fault := by
  rw [entryFaults, List.mem_append, List.mem_append] at mem
  rcases mem with mem | mem | mem
  · rcases List.mem_flatMap.mp mem with ⟨skill, _, mem⟩
    exact isRangeFault_of_mem_meanFaults mem
  · exact isRangeFault_of_mem_meanFaults mem
  · rw [changeFaults] at mem
    split at mem
    · cases mem
    · split at mem
      · exact isRangeFault_of_mem_wholeFaults mem
      · cases mem

end

theorem summable_nil : Summable [] where
  few := Binary64.beyond_pos
  scores := fun _ _ => rfl
  devScores := rfl
  change := fun many => absurd many (by decide)

/-- There are statistics of entries with integers for final scores exactly if what is added up and
compared stays in the range of the floats, and else the range is what their fault is about. -/
theorem ofEntries_yields {entries : List ScoredEntry} (integers : IntegerScored entries) :
    ∃ statistics faults, Yields (ofEntries entries) statistics faults ∧
      (faults = [] ↔ Summable (newestFirst entries)) ∧ ∀ fault ∈ faults, IsRangeFault fault := by
  have ranked : IntegerScored (newestFirst entries) :=
    fun entry mem => integers entry (List.mem_mergeSort.mp mem)
  rw [ofEntries]
  split
  · next absent =>
      rw [List.head?_eq_none_iff.mp absent]
      exact ⟨_, [], .ok _, ⟨fun _ => summable_nil, fun _ => rfl⟩, by simp⟩
  · next latest present =>
      have nonempty : newestFirst entries ≠ [] := by
        intro empty
        rw [empty] at present
        cases present
      rcases exists_breakdown_yields nonempty with ⟨scores, broken⟩
      have scored : (newestFirst entries).map (·.devScore) ≠ [] :=
        List.map_eq_nil_iff.not.mpr nonempty
      rcases exists_roundedMean_yields scored with ⟨average, averaged⟩
      rcases exists_improvementOf_yields nonempty ranked with ⟨improvement, improved⟩
      exact ⟨_, entryFaults (newestFirst entries),
        broken.bind (averaged.bind_of_silent fun silent => (improved silent).map _),
        entryFaults_eq_nil_iff nonempty ranked, fun fault => isRangeFault_of_mem_entryFaults⟩

/-- Entries with statistics have finite scores only. -/
theorem Summable.finite {entries : List ScoredEntry} (summable : Summable (newestFirst entries)) :
    ∀ entry ∈ entries, entry.devScore.nearest.isFinite = true ∧
      ∀ skill ∈ skills, (skill.2 entry.scores).nearest.isFinite = true := by
  intro entry mem
  have ranked : entry ∈ newestFirst entries := List.mem_mergeSort.mpr mem
  constructor
  · exact Binary64.isFinite_of_total summable.devScores _
      (List.mem_map_of_mem (List.mem_map_of_mem ranked))
  · intro skill skillMem
    exact Binary64.isFinite_of_total (summable.scores skill skillMem) _
      (List.mem_map_of_mem (List.mem_map_of_mem ranked))

theorem isFinite_total_of_moderate {numbers : List Number}
    (moderate : ∀ number ∈ numbers, number.Moderate) :
    (Binary64.total (numbers.map Number.nearest)).isFinite = true := by
  apply Binary64.isFinite_total
  intro float mem
  rcases List.mem_map.mp mem with ⟨number, numberMem, rfl⟩
  exact moderate number numberMem

/-- There are statistics of entries with moderate scores, whatever their order and however many
there are. -/
theorem summable_of_moderate {ranked : List ScoredEntry} (few : ranked.length < Binary64.beyond)
    (scores : ∀ entry ∈ ranked, ∀ skill ∈ skills, (skill.2 entry.scores).Moderate)
    (devScores : ∀ entry ∈ ranked, ∃ score, entry.devScore = .int score ∧
      score.natAbs ≤ Binary64.summableBound) :
    Summable ranked where
  few := few
  scores := by
    intro skill skillMem
    apply isFinite_total_of_moderate
    intro number mem
    rcases List.mem_map.mp mem with ⟨entry, entryMem, rfl⟩
    exact scores entry entryMem skill skillMem
  devScores := by
    apply isFinite_total_of_moderate
    intro number mem
    rcases List.mem_map.mp mem with ⟨entry, entryMem, rfl⟩
    rcases devScores entry entryMem with ⟨score, score_eq, score_le⟩
    rw [score_eq]
    exact Number.moderate_int score_le
  change := by
    intro many change returned
    rcases Binary64.summableBound_spec with ⟨rounds, _, _, room, _⟩
    have difference := Nat.mul_lt_mul_of_pos_right room quantaInOne_pos
    rcases exists_changeOf many devScores (by omega) with
      ⟨recentNegative, recent, previousNegative, previous, change_eq, recent_le, previous_le⟩
    rw [rounds] at recent_le previous_le
    cases returned.symm.trans change_eq
    rw [Binary64.sub, Binary64.isFinite_add_iff rfl rfl]
    have recentSigned := recent.signed_natAbs recentNegative
    have previousSigned := previous.signed_natAbs (!previousNegative)
    rw [Nat.mul_assoc] at difference
    generalize Binary64.summableBound * quantaInOne = bound at difference recent_le previous_le
    generalize Binary64.beyond * quantaInOne = beyond at difference ⊢
    omega

end Statistics

end Scorecard
