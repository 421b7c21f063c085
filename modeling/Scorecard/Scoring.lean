import Scorecard.Analysis.Metrics

/-!
# Scoring

Five qualitative scores are weighted in tenths, so the base of integer scores is exact before its
one rounding. Issues of the code give penalty points; twice their count, but no more than ten, is
taken off the base. The result is rounded with halves going up and held between zero and a hundred.
-/

namespace Scorecard

-- A sum starts at the numeral zero, whatever other instances are in scope.
attribute [local instance (high)] Zero.ofOfNat0

/-- The qualitative scores of a piece of code. -/
structure Scores where
  codeQuality : Number
  timeComplexity : Number
  spaceComplexity : Number
  security : Number
  readability : Number
deriving DecidableEq

namespace Scores

/-- One score for everything. -/
def uniform (score : Number) : Scores :=
  ⟨score, score, score, score, score⟩

/-- The scores with their names on the wire, in their order. -/
def named (scores : Scores) : List (String × Number) :=
  [("codeQuality", scores.codeQuality), ("timeComplexity", scores.timeComplexity),
    ("spaceComplexity", scores.spaceComplexity), ("security", scores.security),
    ("readability", scores.readability)]

/-- The scores as a document. -/
def toData (scores : Scores) : Data :=
  .mapping (scores.named.map fun (name, score) => (.text name, .number score))

/-- The scores with their weights, in the order in which they are added up. -/
def weighted (scores : Scores) : List (Number × Int) :=
  [(scores.codeQuality, 3), (scores.timeComplexity, 2), (scores.security, 2),
    (scores.readability, 2), (scores.spaceComplexity, 1)]

/-- The weighted mean of the scores. -/
def weightedBase (scores : Scores) : Except Fault Binary64 := do
  let parts ← scores.weighted.mapM fun (score, weight) => score.mul (.int weight)
  (← Number.sum parts).divBy 10

end Scores

/-- The rules that give penalty points, each with its points; every rule that holds counts. -/
def penaltyRules : List ((Metrics → Bool) × Int) :=
  [(fun metrics => 3 ≤ metrics.nestedLoops, 2), (fun metrics => 5 < metrics.consoleLogs, 1),
    (fun metrics => 0 < metrics.longFunctions, 2), (fun metrics => 0 < metrics.securityRisks, 3),
    (fun metrics => 3 < metrics.poorNaming, 1),
      (fun metrics => 0 < metrics.missingErrorHandling, 1)]

/-- The penalty points of a piece of code. -/
def staticPenalty (metrics : Metrics) : Int :=
  ((penaltyRules.filter fun (holds, _) => holds metrics).map (·.2)).sum

/-- What penalty points take off the base. -/
def appliedPoints (penalty : Int) : Int :=
  min (penalty * 2) 10

/-- What a penalty of any kind of number takes off the base. -/
def appliedPenalty : Number → Number
  | .int penalty => .int (appliedPoints penalty)
  | .float penalty => Number.minOn id (.float (penalty.mul (.ofInt 2))) (.int 10)

/-- The score for a penalty: an integer from zero to a hundred. -/
def devScore (scores : Scores) (penalty : Number) : Except Fault Int := do
  let value ← (Number.float (← scores.weightedBase)).sub (appliedPenalty penalty)
  return max 0 (min 100 (← Number.roundHalfUp value))

/-- The parts of a score. -/
structure ScoreBreakdown where
  base : Binary64
  staticPenalty : Int
  appliedPenalty : Int
  devScore : Int
deriving DecidableEq

/-- The score of a piece of code and its parts. -/
def scoreBreakdown (scores : Scores) (metrics : Metrics) : Except Fault ScoreBreakdown := do
  let penalty := Scorecard.staticPenalty metrics
  return {
    base := ← scores.weightedBase
    staticPenalty := penalty
    appliedPenalty := appliedPoints penalty
    devScore := ← Scorecard.devScore scores (.int penalty) }

end Scorecard
