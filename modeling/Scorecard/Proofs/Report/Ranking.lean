import Mathlib
import Scorecard.Proofs.Except
import Scorecard.Report.Statistics

/-!
# The ranks of results

A result ranks before another one if it is newer, or as new and given earlier. Every list of results
has exactly one order of ranks, and the statistics are taken from it: the latest score is that of
the first rank, the improvement compares the first three ranks with the next three, and the trend
shows the first ten ranks from the last one on. Where no two times are the same, the order in which
results are given plays no role at all.
-/

namespace Scorecard

namespace Statistics

/-- An entry at its place in a list ranks before another one: it is newer, or as new and given
earlier. -/
def RanksBefore (first second : ScoredEntry × ℕ) : Prop :=
  second.1.submittedAt < first.1.submittedAt ∨
    first.1.submittedAt = second.1.submittedAt ∧ first.2 < second.2

instance : DecidableRel RanksBefore :=
  fun _ _ => inferInstanceAs (Decidable (_ ∨ _))

/-- All entries of a list, each with its place, in the order of their ranks. -/
structure IsRanking (entries : List ScoredEntry) (ranked : List (ScoredEntry × ℕ)) : Prop where
  perm : ranked.Perm entries.zipIdx
  ordered : ranked.Pairwise RanksBefore

/-- The point of the trend that an entry gives. -/
def trendPoint (entry : ScoredEntry) : Entries :=
  [(.text "submitted_at", .text entry.submittedAt), (.text "dev_score", .number entry.devScore),
    (.text "language", .text entry.language)]

/-- The entries of the trend: the first ten ranks, the last of them first. -/
def trendEntries (ranked : List ScoredEntry) : List ScoredEntry :=
  (ranked.take 10).reverse

/-- The statistics are those of entries in the order of their ranks. -/
structure OfRanks (ranked : List ScoredEntry) (statistics : Statistics) : Prop where
  total : statistics.totalSubmissions = ranked.length
  latest : ∀ first ∈ ranked.head?, statistics.latestDevScore = first.devScore
  improvement_of_few : ranked.length < 6 → statistics.improvement = 0
  /-- From six entries on, the means of the first three ranks and of the next three are compared. -/
  improvement : 6 ≤ ranked.length → ∃ recent previous,
    Number.mean ((ranked.take 3).map (·.devScore)) = .ok recent ∧
    Number.mean (((ranked.drop 3).take 3).map (·.devScore)) = .ok previous ∧
    Number.roundHalfUp (.float (recent.sub previous)) = .ok statistics.improvement
  trend : statistics.recentTrend = (trendEntries ranked).map trendPoint

variable {entries : List ScoredEntry} {ranked : List (ScoredEntry × ℕ)}

/-- Whether an entry may stand before another one: it is not older. -/
def mayPrecede (left right : ScoredEntry) : Bool :=
  !(left.submittedAt < right.submittedAt)

theorem mayPrecede_iff {left right : ScoredEntry} :
    mayPrecede left right = true ↔ right.submittedAt ≤ left.submittedAt := by
  rw [mayPrecede, Bool.not_eq_true', decide_eq_false_iff_not, not_lt]

theorem mayPrecede_trans (first second third : ScoredEntry) (front : mayPrecede first second = true)
    (back : mayPrecede second third = true) : mayPrecede first third = true := by
  rw [mayPrecede_iff] at front back ⊢
  exact back.trans front

theorem mayPrecede_total (left right : ScoredEntry) :
    (mayPrecede left right || mayPrecede right left) = true := by
  rw [Bool.or_eq_true, mayPrecede_iff, mayPrecede_iff]
  exact le_total _ _

/-- The order with places decides by rank between entries at different places. -/
theorem ranksBefore_of_zipIdxLE {first second : ScoredEntry × ℕ} (apart : first.2 ≠ second.2)
    (ordered : List.zipIdxLE mayPrecede first second = true) : RanksBefore first second := by
  rw [List.zipIdxLE] at ordered
  split at ordered
  · next precedes =>
      split at ordered
      · next precededToo =>
          rw [mayPrecede_iff] at precedes precededToo
          exact .inr ⟨le_antisymm precededToo precedes,
            lt_of_le_of_ne (of_decide_eq_true ordered) apart⟩
      · next notPreceded =>
          rw [mayPrecede_iff, not_le] at notPreceded
          exact .inl notPreceded
  · cases ordered

theorem ranksBefore_asymm {first second : ScoredEntry × ℕ} (before : RanksBefore first second) :
    ¬RanksBefore second first := by
  rintro (newer | ⟨same, earlier⟩)
  · rcases before with older | ⟨same, _⟩
    · exact lt_asymm newer older
    · exact newer.ne same
  · rcases before with older | ⟨_, later⟩
    · exact older.ne same
    · exact lt_asymm earlier later

/-- The entries sorted with their places are in the order of their ranks. -/
theorem isRanking_mergeSort (entries : List ScoredEntry) :
    IsRanking entries (entries.zipIdx.mergeSort (List.zipIdxLE mayPrecede)) where
  perm := List.mergeSort_perm _ _
  ordered := by
    have sorted := List.pairwise_mergeSort (List.zipIdxLE_trans mayPrecede_trans)
      (List.zipIdxLE_total mayPrecede_total) entries.zipIdx
    have places : (entries.zipIdx.map Prod.snd).Nodup := by
      rw [List.zipIdx_map_snd]
      exact List.nodup_range'
    have apart :=
      ((List.mergeSort_perm entries.zipIdx (List.zipIdxLE mayPrecede)).map Prod.snd).nodup_iff.mpr
        places
    rw [List.Nodup, List.pairwise_map] at apart
    exact apart.imp₂ (fun first second => ranksBefore_of_zipIdxLE) sorted

theorem IsRanking.unique {other : List (ScoredEntry × ℕ)} (ranking : IsRanking entries ranked)
    (otherRanking : IsRanking entries other) : other = ranked := by
  refine List.Perm.eq_of_pairwise ?_ otherRanking.ordered ranking.ordered
    (otherRanking.perm.trans ranking.perm.symm)
  intro first second _ _ before after
  exact absurd after (ranksBefore_asymm before)

/-- The entries newest first are the entries in the order of their ranks. -/
theorem IsRanking.newestFirst_eq (ranking : IsRanking entries ranked) :
    newestFirst entries = ranked.map (·.1) := by
  rw [(isRanking_mergeSort entries).unique ranking, List.mergeSort_zipIdx]
  rfl

theorem newestFirst_pairwise (entries : List ScoredEntry) :
    (newestFirst entries).Pairwise fun newer older => older.submittedAt ≤ newer.submittedAt :=
  (List.pairwise_mergeSort mayPrecede_trans mayPrecede_total entries).imp mayPrecede_iff.mp

theorem newestFirst_perm (entries : List ScoredEntry) : (newestFirst entries).Perm entries :=
  List.mergeSort_perm _ _

/-- If no two times are the same, the order newest first does not depend on the order given. -/
theorem newestFirst_eq_of_perm {other : List ScoredEntry}
    (distinct : (entries.map (·.submittedAt)).Nodup) (perm : other.Perm entries) :
    newestFirst other = newestFirst entries := by
  refine List.Perm.eq_of_pairwise ?_ (newestFirst_pairwise other) (newestFirst_pairwise entries)
    ((newestFirst_perm other).trans (perm.trans (newestFirst_perm entries).symm))
  intro first second firstMem secondMem notOlder notNewer
  have inOther := (newestFirst_perm other).mem_iff.mp firstMem
  exact List.inj_on_of_nodup_map distinct (perm.mem_iff.mp inOther)
    ((newestFirst_perm entries).mem_iff.mp secondMem) (le_antisymm notNewer notOlder)

theorem improvementOf_ranks {ranked : List ScoredEntry} {improvement : ℤ}
    (returned : improvementOf ranked = .ok improvement) :
    (ranked.length < 6 → improvement = 0) ∧
      (6 ≤ ranked.length → ∃ recent previous,
        Number.mean ((ranked.take 3).map (·.devScore)) = .ok recent ∧
        Number.mean (((ranked.drop 3).take 3).map (·.devScore)) = .ok previous ∧
        Number.roundHalfUp (.float (recent.sub previous)) = .ok improvement) := by
  rw [improvementOf] at returned
  split at returned
  · next few =>
      have few : ranked.length < 6 := few
      cases returned
      exact ⟨fun _ => rfl, fun many => absurd few (Nat.not_lt.mpr many)⟩
  · next many =>
      rcases bind_eq_ok_iff.mp returned with ⟨recent, recentMean, returned⟩
      rcases bind_eq_ok_iff.mp returned with ⟨previous, previousMean, rounded⟩
      refine ⟨fun few => absurd few many, fun _ => ⟨recent, previous, ?_, ?_, rounded⟩⟩
      · rw [List.map_take]
        exact recentMean
      · rw [List.map_take, List.map_drop]
        exact previousMean

theorem ofRanks_of_ofEntries {statistics : Statistics}
    (returned : ofEntries entries = .ok statistics) : OfRanks (newestFirst entries) statistics := by
  rw [ofEntries] at returned
  split at returned
  · next absent =>
      cases returned
      rw [List.head?_eq_none_iff.mp absent]
      exact ⟨rfl, by simp, fun _ => rfl, by simp, rfl⟩
  · next latest latest_eq =>
      rcases bind_eq_ok_iff.mp returned with ⟨scores, _, returned⟩
      rcases bind_eq_ok_iff.mp returned with ⟨average, _, returned⟩
      rcases bind_eq_ok_iff.mp returned with ⟨improvement, improved, returned⟩
      cases returned
      have compared := improvementOf_ranks improved
      refine ⟨rfl, ?_, compared.1, compared.2, rfl⟩
      intro first isFirst
      rw [latest_eq, Option.mem_some_iff] at isFirst
      rw [isFirst]

/-- The trend ends with the latest entry, goes from older entries to newer ones, and leaves out no
entry that is newer than one it shows. -/
structure OrderedTrend (ranked : List ScoredEntry) : Prop where
  length : (trendEntries ranked).length = min 10 ranked.length
  ordered : (trendEntries ranked).Pairwise fun older newer => older.submittedAt ≤ newer.submittedAt
  last : (trendEntries ranked).getLast? = ranked.head?
  complete : ∀ shown ∈ trendEntries ranked, ∀ other ∈ ranked.drop 10,
    other.submittedAt ≤ shown.submittedAt

theorem orderedTrend_of_pairwise {ranked : List ScoredEntry}
    (sorted : ranked.Pairwise fun newer older => older.submittedAt ≤ newer.submittedAt) :
    OrderedTrend ranked where
  length := by rw [trendEntries, List.length_reverse, List.length_take]
  ordered := by
    rw [trendEntries, List.pairwise_reverse]
    exact sorted.take
  last := by
    rw [trendEntries, List.getLast?_reverse]
    cases ranked <;> rfl
  complete := by
    intro shown shownMem other otherMem
    rw [← List.take_append_drop 10 ranked, List.pairwise_append] at sorted
    exact sorted.2.2 shown (List.mem_reverse.mp shownMem) other otherMem

/-- A list of entries has exactly one order of ranks, and its statistics are taken from it. If no
two times are the same, the statistics of a permutation are the same. -/
theorem ofEntries_ranked (entries : List ScoredEntry) :
    (∃! ranked, IsRanking entries ranked) ∧
      (∀ ranked statistics, IsRanking entries ranked → ofEntries entries = .ok statistics →
        OfRanks (ranked.map (·.1)) statistics ∧ OrderedTrend (ranked.map (·.1))) ∧
      ((entries.map (·.submittedAt)).Nodup → ∀ other, other.Perm entries →
        ofEntries other = ofEntries entries) := by
  refine ⟨⟨_, isRanking_mergeSort entries, fun other => (isRanking_mergeSort entries).unique⟩,
    ?_, ?_⟩
  · intro ranked statistics ranking returned
    rw [← ranking.newestFirst_eq]
    exact ⟨ofRanks_of_ofEntries returned, orderedTrend_of_pairwise (newestFirst_pairwise entries)⟩
  · intro distinct other perm
    rw [ofEntries, ofEntries, newestFirst_eq_of_perm distinct perm]

/-- Two entries of one time, between older ones and newer ones. -/
def tiedEntries : List ScoredEntry :=
  [("3", 10), ("5", 20), ("1", 30), ("5", 40), ("2", 50), ("4", 60)].map fun (time, score) =>
    ⟨time, "python", ⟨.int 50, .int 50, .int 50, .int 50, .int 50⟩, .int score⟩

/-- The entries with their places, in the order of their ranks. -/
def tiedRanking : List (ScoredEntry × ℕ) :=
  [1, 3, 5, 0, 4, 2].filterMap fun place => tiedEntries[place]?.map fun entry => (entry, place)

theorem isRanking_tied : IsRanking tiedEntries tiedRanking where
  perm := by decide +kernel
  ordered := by decide +kernel

/-- Of two entries of one time the one given first ranks first. Without the second one no times are
the same, and the statistics of the reversed list are the same. -/
theorem ofEntries_ranked_tied :
    (∃ statistics, ofEntries tiedEntries = .ok statistics ∧ statistics.latestDevScore = .int 20 ∧
      statistics.improvement = 10 ∧
      statistics.recentTrend = (tiedRanking.map (·.1)).reverse.map trendPoint) ∧
    ofEntries (tiedEntries.eraseIdx 3).reverse = ofEntries (tiedEntries.eraseIdx 3) := by
  constructor
  · have computed : (ofEntries tiedEntries).toOption.isSome = true := by
      rw [ofEntries, isRanking_tied.newestFirst_eq]
      decide +kernel
    cases returned : ofEntries tiedEntries with
    | error fault => simp [returned, Except.toOption] at computed
    | ok statistics =>
        have ranks := ((ofEntries_ranked tiedEntries).2.1 _ statistics isRanking_tied returned).1
        rcases ranks.improvement (by decide) with
          ⟨recent, previous, recentMean, previousMean, rounded⟩
        have forty :
            Number.mean (((tiedRanking.map (·.1)).take 3).map (·.devScore)) = .ok (.ofInt 40) := by
          decide +kernel
        have thirty : Number.mean ((((tiedRanking.map (·.1)).drop 3).take 3).map (·.devScore)) =
            .ok (.ofInt 30) := by
          decide +kernel
        have ten : Number.roundHalfUp (.float ((Binary64.ofInt 40).sub (.ofInt 30))) = .ok 10 := by
          decide +kernel
        rw [Except.ok.inj (recentMean.symm.trans forty),
          Except.ok.inj (previousMean.symm.trans thirty)] at rounded
        exact ⟨statistics, rfl, ranks.latest _ rfl, Except.ok.inj (rounded.symm.trans ten),
          ranks.trend⟩
  · exact (ofEntries_ranked (tiedEntries.eraseIdx 3)).2.2 (by decide +kernel) _
      (List.reverse_perm _)

end Statistics

end Scorecard
