/-!
# Sets of code points

A set of code points is a table of closed ranges, sorted and apart from each other. Membership is a
binary search: each step halves the part of the table in which the range can stand.
-/

namespace Scorecard

/-- Closed ranges of code points, in ascending order and without overlap. -/
abbrev CodeRanges := Array (Nat × Nat)

namespace CodeRanges

/-- Looks for the code in the ranges from `low` up to `high`; the first argument bounds the
halvings. -/
def search (ranges : CodeRanges) (code : Nat) : Nat → Nat → Nat → Bool
  | 0, _, _ => false
  | steps + 1, low, high =>
      if low < high then
        let middle := (low + high) / 2
        match ranges[middle]? with
        | none => false
        | some (first, last) =>
            if code < first then search ranges code steps low middle
            else if last < code then search ranges code steps (middle + 1) high
            else true
      else
        false

/-- Whether the code lies in one of the ranges. -/
def contains (ranges : CodeRanges) (code : Nat) : Bool :=
  search ranges code (ranges.size.log2 + 1) 0 ranges.size

end CodeRanges

end Scorecard
