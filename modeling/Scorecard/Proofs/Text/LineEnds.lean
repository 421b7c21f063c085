import Scorecard.Proofs.Text.Indent
import Scorecard.Proofs.Text.Lines
import Scorecard.Proofs.Text.Matching

/-!
# Line ends

Universal line ends make one line feed of every line end. A step that takes no line end, or goes on
over one of either kind, does not tell the two texts apart: it takes characters that go together
from both, and what is left of the one is what is left of the other with line feeds for its line
ends. So a pattern of such steps has occurrences that go together as well, and since line ends are
blank, these are the same but for their blanks.
-/

namespace Scorecard

section UniversalNewlines

@[simp]
theorem universalNewlines_nil : universalNewlines [] = [] := rfl

@[simp]
theorem universalNewlines_pair (rest : List Char) :
    universalNewlines ('\r' :: '\n' :: rest) = '\n' :: universalNewlines rest := by
  rw [universalNewlines]

theorem universalNewlines_cons {c : Char} (inLine : c ≠ '\r') (rest : List Char) :
    universalNewlines (c :: rest) = c :: universalNewlines rest := by
  rw [universalNewlines, if_neg inLine]
  intro _ impossible
  exact absurd impossible inLine

theorem universalNewlines_lone {rest : List Char} (lone : rest.head? ≠ some '\n') :
    universalNewlines ('\r' :: rest) = '\n' :: universalNewlines rest := by
  rw [universalNewlines, if_pos rfl]
  rintro more _ rfl
  exact lone rfl

/-- A text ends, goes on with a line end that starts with a carriage return, or with another
character. -/
@[elab_as_elim]
theorem lineEnd_induction {motive : List Char → Prop} (text : List Char) (nil : motive [])
    (pair : ∀ rest, motive rest → motive ('\r' :: '\n' :: rest))
    (lone : ∀ rest, rest.head? ≠ some '\n' → motive rest → motive ('\r' :: rest))
    (other : ∀ c rest, c ≠ '\r' → motive rest → motive (c :: rest)) : motive text := by
  induction text using universalNewlines.induct with
  | case1 => exact nil
  | case2 rest ih => exact pair rest ih
  | case3 c rest notPair ih =>
      by_cases isReturn : c = '\r'
      · subst isReturn
        apply lone rest _ ih
        intro starts
        rcases List.head?_eq_some_iff.mp starts with ⟨more, rfl⟩
        exact notPair more rfl rfl
      · exact other c rest isReturn ih

theorem universalNewlines_eq_self {text : List Char} (noReturn : '\r' ∉ text) :
    universalNewlines text = text := by
  induction text with
  | nil => rfl
  | cons c rest ih =>
      rw [List.mem_cons, not_or] at noReturn
      rw [universalNewlines_cons (Ne.symm noReturn.1), ih noReturn.2]

theorem universalNewlines_append_return {text : List Char} (noReturn : '\r' ∉ text) :
    universalNewlines (text ++ ['\r']) = text ++ ['\n'] := by
  induction text with
  | nil => rfl
  | cons c rest ih =>
      rw [List.mem_cons, not_or] at noReturn
      rw [List.cons_append, universalNewlines_cons (Ne.symm noReturn.1), ih noReturn.2,
        List.cons_append]

theorem dropWhile_universalNewlines {accepts : Char → Bool} (blind : accepts '\r' = accepts '\n')
    (text : List Char) :
    (universalNewlines text).dropWhile accepts = universalNewlines (text.dropWhile accepts) := by
  induction text using lineEnd_induction with
  | nil => rfl
  | pair rest ih => cases accepted : accepts '\n' <;> simp [accepted, blind, ih]
  | lone rest lone ih =>
      rw [universalNewlines_lone lone]
      cases accepted : accepts '\n' <;> simp [accepted, blind, ih, universalNewlines_lone lone]
  | other c rest inLine ih =>
      rw [universalNewlines_cons inLine]
      cases accepted : accepts c <;> simp [accepted, ih, universalNewlines_cons inLine]

theorem takeWhile_universalNewlines_eq_nil {accepts : Char → Bool}
    (blind : accepts '\r' = accepts '\n') (text : List Char) :
    (universalNewlines text).takeWhile accepts = [] ↔ text.takeWhile accepts = [] := by
  cases text using lineEnd_induction with
  | nil => rfl
  | pair rest _ => cases accepted : accepts '\n' <;> simp [accepted, blind]
  | lone rest lone _ =>
      rw [universalNewlines_lone lone]
      cases accepted : accepts '\n' <;> simp [accepted, blind]
  | other c rest inLine _ =>
      rw [universalNewlines_cons inLine]
      cases accepted : accepts c <;> simp [accepted]

end UniversalNewlines

/-- The characters of a text that are not blank. -/
def solidOf (text : List Char) : List Char :=
  text.filter fun c => !isBlank c

theorem solidOf_append (front back : List Char) :
    solidOf (front ++ back) = solidOf front ++ solidOf back :=
  List.filter_append front back

theorem solidOf_universalNewlines (text : List Char) :
    solidOf (universalNewlines text) = solidOf text := by
  have line : isBlank '\n' = true := by decide
  have carriage : isBlank '\r' = true := by decide
  induction text using lineEnd_induction with
  | nil => rfl
  | pair rest ih => simpa [solidOf, line, carriage] using ih
  | lone rest lone ih => simpa [solidOf, universalNewlines_lone lone, line, carriage] using ih
  | other c rest inLine ih =>
      rw [universalNewlines_cons inLine]
      simp only [solidOf, List.filter_cons] at ih ⊢
      rw [ih]

namespace Step

/-- Whether a step takes no line end, or a run that goes on over a line end of either kind. -/
def isBlind : Step → Bool
  | .one accepts | .optional accepts => !accepts '\r' && !accepts '\n'
  | .run accepts | .nonemptyRun accepts => accepts '\r' == accepts '\n'

theorem drop_length_takeWhile (accepts : Char → Bool) (text : List Char) :
    text.drop (text.takeWhile accepts).length = text.dropWhile accepts := by
  induction text with
  | nil => rfl
  | cons c rest ih => cases accepted : accepts c <;> simp [accepted, ih]

/-- What a blind step leaves of the one text goes together with what it leaves of the other. -/
theorem drop_take?_universalNewlines {step : Step} (blind : step.isBlind = true)
    (text : List Char) :
    (step.take? (universalNewlines text)).map ((universalNewlines text).drop ·) =
      (step.take? text).map fun count => universalNewlines (text.drop count) := by
  cases step with
  | one accepts =>
      simp only [isBlind, Bool.and_eq_true, Bool.not_eq_true'] at blind
      cases text using lineEnd_induction with
      | nil => rfl
      | pair rest _ => simp [take?, blind]
      | lone rest lone _ => simp [take?, universalNewlines_lone lone, blind]
      | other c rest inLine _ =>
          cases accepted : accepts c <;> simp [take?, universalNewlines_cons inLine, accepted]
  | run accepts =>
      simp only [isBlind, beq_iff_eq] at blind
      simp only [take?, Option.map_some, drop_length_takeWhile, dropWhile_universalNewlines blind]
  | nonemptyRun accepts =>
      simp only [isBlind, beq_iff_eq] at blind
      simp only [take?, List.length_eq_zero_iff, takeWhile_universalNewlines_eq_nil blind]
      split
      · rfl
      · simp only [Option.map_some, drop_length_takeWhile, dropWhile_universalNewlines blind]
  | optional accepts =>
      simp only [isBlind, Bool.and_eq_true, Bool.not_eq_true'] at blind
      cases text using lineEnd_induction with
      | nil => rfl
      | pair rest _ => simp [take?, blind]
      | lone rest lone _ => simp [take?, universalNewlines_lone lone, blind]
      | other c rest inLine _ =>
          cases accepted : accepts c <;> simp [take?, universalNewlines_cons inLine, accepted]

theorem drop_length?_universalNewlines {steps : List Step}
    (blind : ∀ step ∈ steps, step.isBlind = true) (text : List Char) :
    (length? steps (universalNewlines text)).map ((universalNewlines text).drop ·) =
      (length? steps text).map fun length => universalNewlines (text.drop length) := by
  induction steps generalizing text with
  | nil => rfl
  | cons step steps ih =>
      rw [List.forall_mem_cons] at blind
      have first := drop_take?_universalNewlines blind.1 text
      rw [length?_cons, length?_cons]
      cases taken : step.take? text with
      | none =>
          rw [taken, Option.map_none, Option.map_eq_none_iff] at first
          rw [first]
          rfl
      | some count =>
          rw [taken, Option.map_some, Option.map_eq_some_iff] at first
          rcases first with ⟨other, otherTaken, left_eq⟩
          have rest := ih blind.2 (text.drop count)
          rw [← left_eq] at rest
          simp only [otherTaken, Option.bind_some, Option.map_map, Function.comp_def]
          simpa only [List.drop_drop, Nat.add_comm] using rest

end Step

namespace Pattern

variable {pattern : Pattern}

/-- Whether all steps are blind. -/
def isBlind (pattern : Pattern) : Bool :=
  pattern.all fun steps => steps.all Step.isBlind

theorem drop_length?_universalNewlines (blind : pattern.isBlind = true) (text : List Char) :
    (pattern.length? (universalNewlines text)).map ((universalNewlines text).drop ·) =
      (pattern.length? text).map fun length => universalNewlines (text.drop length) := by
  induction pattern with
  | nil => rfl
  | cons steps pattern ih =>
      rw [isBlind, List.all_cons, Bool.and_eq_true] at blind
      have first := Step.drop_length?_universalNewlines (List.all_eq_true.mp blind.1) text
      rw [length?, length?, List.findSome?_cons, List.findSome?_cons]
      cases found : Step.length? steps text with
      | none =>
          rw [found, Option.map_none, Option.map_eq_none_iff] at first
          rw [first]
          exact ih blind.2
      | some length =>
          rw [found, Option.map_some, Option.map_eq_some_iff] at first
          rcases first with ⟨other, otherFound, left_eq⟩
          simp [otherFound, left_eq]

theorem length?_universalNewlines_eq_none (blind : pattern.isBlind = true) (text : List Char) :
    pattern.length? (universalNewlines text) = none ↔ pattern.length? text = none := by
  have same := congrArg (· = none) (drop_length?_universalNewlines blind text)
  simpa only [Option.map_eq_none_iff, eq_iff_iff] using same

theorem matchesStart_universalNewlines (blind : pattern.isBlind = true) (text : List Char) :
    pattern.matchesStart (universalNewlines text) = pattern.matchesStart text := by
  have same := congrArg Option.isSome (drop_length?_universalNewlines blind text)
  rwa [Option.isSome_map, Option.isSome_map] at same

/-- No match starts with a carriage return, because none starts with a line feed. -/
theorem length?_return (blind : pattern.isBlind = true) (solid : pattern.startsSolid = true)
    (rest : List Char) : pattern.length? ('\r' :: rest) = none := by
  rw [← length?_universalNewlines_eq_none blind]
  by_cases paired : rest.head? = some '\n'
  · rcases List.head?_eq_some_iff.mp paired with ⟨more, rfl⟩
    rw [universalNewlines_pair]
    exact length?_blank solid (.inl rfl) _
  · rw [universalNewlines_lone paired]
    exact length?_blank solid (.inl rfl) _

theorem occursIn_universalNewlines (blind : pattern.isBlind = true)
    (solid : pattern.startsSolid = true) (text : List Char) :
    pattern.occursIn (universalNewlines text) = pattern.occursIn text := by
  have line : ∀ rest, pattern.matchesStart ('\n' :: rest) = false := by
    intro rest
    rw [matchesStart, length?_blank solid (.inl rfl)]
    rfl
  have carriage : ∀ rest, pattern.matchesStart ('\r' :: rest) = false := by
    intro rest
    rw [matchesStart, length?_return blind solid]
    rfl
  induction text using lineEnd_induction with
  | nil => rfl
  | pair rest ih => simp only [universalNewlines_pair, occursIn, line, carriage, ih, Bool.false_or]
  | lone rest lone ih => simp only [universalNewlines_lone lone, occursIn, line, carriage, ih]
  | other c rest inLine ih =>
      have starts := matchesStart_universalNewlines blind (c :: rest)
      rw [universalNewlines_cons inLine] at starts ⊢
      simp only [occursIn, starts, ih]

theorem occurrences_of_none {c : Char} {rest : List Char}
    (absent : pattern.length? (c :: rest) = none) :
    pattern.occurrences (c :: rest) = pattern.occurrences rest := by
  rw [occurrences, occurrencesAfter, absent]
  rfl

theorem occurrences_of_some {text : List Char} {length : ℕ}
    (found : pattern.length? text = some length) (positive : 0 < length) :
    pattern.occurrences text = text.take length :: pattern.occurrences (text.drop length) := by
  have fits := length?_le found
  cases text with
  | nil => exact absurd positive (Nat.not_lt.mpr fits)
  | cons c rest =>
      rcases Nat.exists_eq_succ_of_ne_zero positive.ne' with ⟨more, rfl⟩
      have inside : (rest.take more).length = more :=
        List.length_take_of_le (Nat.le_of_succ_le_succ fits)
      have after := @occurrencesAfter_append pattern (rest.take more) (rest.drop more) 0
      rw [inside, List.take_append_drop, Nat.add_zero] at after
      rw [occurrences, occurrencesAfter, found]
      simp only [Nat.succ_eq_add_one, Nat.add_sub_cancel, after]
      rfl

theorem length?_pos (ends : pattern.endsWithMark = true) {text : List Char} {length : ℕ}
    (found : pattern.length? text = some length) : 0 < length := by
  rcases exists_length?_of_eq_some found with ⟨steps, mem, matched⟩
  rcases Step.exists_of_endsWithMark (List.all_eq_true.mp ends steps mem) with
    ⟨init, accepts, rfl, _⟩
  exact Step.length?_pos matched

/-- What is taken from the two texts goes together with what is left of them, so it has the same
characters that are not blank. -/
theorem solidOf_take {text : List Char} {length other : ℕ}
    (left_eq : (universalNewlines text).drop other = universalNewlines (text.drop length)) :
    solidOf ((universalNewlines text).take other) = solidOf (text.take length) := by
  have whole := solidOf_universalNewlines text
  rw [← List.take_append_drop other (universalNewlines text), solidOf_append, left_eq,
    solidOf_universalNewlines] at whole
  have cut : solidOf text = solidOf (text.take length) ++ solidOf (text.drop length) := by
    rw [← solidOf_append, List.take_append_drop]
  exact List.append_cancel_right (whole.trans cut)

/-- The occurrences in the two texts go together: they have the same characters that are not
blank. -/
theorem map_solidOf_occurrences (blind : pattern.isBlind = true)
    (solid : pattern.startsSolid = true) (ends : pattern.endsWithMark = true) (text : List Char) :
    (pattern.occurrences (universalNewlines text)).map solidOf =
      (pattern.occurrences text).map solidOf := by
  -- The search goes on behind an occurrence, so the induction is on the length of what is left.
  induction size : text.length using Nat.strong_induction_on generalizing text with
  | _ size_eq ih =>
      subst size
      have same := drop_length?_universalNewlines blind text
      cases found : pattern.length? text with
      | some length =>
          rw [found, Option.map_some, Option.map_eq_some_iff] at same
          rcases same with ⟨other, otherFound, left_eq⟩
          have positive := length?_pos ends found
          have fits := length?_le found
          have shorter : (text.drop length).length < text.length := by
            rw [List.length_drop]
            omega
          rw [occurrences_of_some otherFound (length?_pos ends otherFound),
            occurrences_of_some found positive, List.map_cons, List.map_cons, solidOf_take left_eq,
            left_eq, ih _ shorter _ rfl]
      | none =>
          have absent := (length?_universalNewlines_eq_none blind text).mpr found
          cases text using lineEnd_induction with
          | nil => rfl
          | pair rest _ =>
              have lineFeed : pattern.length? ('\n' :: rest) = none :=
                length?_blank solid (.inl rfl) rest
              rw [universalNewlines_pair] at absent ⊢
              rw [occurrences_of_none absent, occurrences_of_none found,
                occurrences_of_none lineFeed]
              exact ih _ (by simp) rest rfl
          | lone rest lone _ =>
              rw [universalNewlines_lone lone] at absent ⊢
              rw [occurrences_of_none absent, occurrences_of_none found]
              exact ih _ (by simp) rest rfl
          | other c rest inLine _ =>
              rw [universalNewlines_cons inLine] at absent ⊢
              rw [occurrences_of_none absent, occurrences_of_none found]
              exact ih _ (by simp) rest rfl

theorem count_universalNewlines (blind : pattern.isBlind = true)
    (solid : pattern.startsSolid = true) (ends : pattern.endsWithMark = true) (text : List Char) :
    pattern.count (universalNewlines text) = pattern.count text := by
  have same := congrArg List.length (map_solidOf_occurrences blind solid ends text)
  rwa [List.length_map, List.length_map] at same

end Pattern

/-- Every carriage return stands before a line feed. -/
def WholeLineEnds (text : List Char) : Prop :=
  ∀ front back, text = front ++ '\r' :: back → back.head? = some '\n'

instance : DecidablePred WholeLineEnds := fun text =>
  decidable_of_iff (∀ suffix ∈ text.tails, suffix.head? = some '\r' →
    suffix.tail.head? = some '\n') <| by
    simp only [List.mem_tails]
    constructor
    · rintro whole front back rfl
      exact whole ('\r' :: back) (List.suffix_append _ _) rfl
    · rintro whole suffix ⟨front, rfl⟩ starts
      rcases List.head?_eq_some_iff.mp starts with ⟨back, rfl⟩
      exact whole front back rfl

/-- A line without the carriage return at its end. -/
def chomp (line : List Char) : List Char :=
  if line.getLast? = some '\r' then line.dropLast else line

theorem WholeLineEnds.tail {c : Char} {rest : List Char} (whole : WholeLineEnds (c :: rest)) :
    WholeLineEnds rest := by
  intro front back shape
  exact whole (c :: front) back (by rw [shape, List.cons_append])

theorem chomp_append_return (line : List Char) : chomp (line ++ ['\r']) = line := by
  simp [chomp]

theorem chomp_of_notMem {line : List Char} (noReturn : '\r' ∉ line) : chomp line = line := by
  rw [chomp, if_neg]
  intro last
  exact noReturn (List.mem_of_getLast? last)

theorem chomp_cons {c : Char} (inLine : c ≠ '\r') (line : List Char) :
    chomp (c :: line) = c :: chomp line := by
  cases line with
  | nil => simp [chomp, inLine]
  | cons d line =>
      rw [chomp, chomp, List.getLast?_cons_cons]
      split <;> rfl

theorem splitLines_newline (rest : List Char) :
    splitLines ('\n' :: rest) = [] :: splitLines rest := by
  simp [splitLines, splitAtChar]

theorem splitLines_pair (rest : List Char) :
    splitLines ('\r' :: '\n' :: rest) = ['\r'] :: splitLines rest := by
  simp [splitLines, splitAtChar]

/-- If line ends are whole, a line holds no carriage return but perhaps one at its end. -/
theorem WholeLineEnds.line_cases {text : List Char} (whole : WholeLineEnds text) :
    ∀ line ∈ splitLines text, '\r' ∉ line ∨ ∃ body, '\r' ∉ body ∧ line = body ++ ['\r'] := by
  induction text using lineEnd_induction with
  | nil => simp [splitLines, splitAtChar]
  | pair rest ih =>
      rw [splitLines_pair, List.forall_mem_cons]
      exact ⟨.inr ⟨[], by simp, rfl⟩, ih whole.tail.tail⟩
  | lone rest lone _ => exact absurd (whole [] rest rfl) lone
  | other c rest inLine ih =>
      have others := ih whole.tail
      by_cases newline : c = '\n'
      · subst newline
        rw [splitLines_newline, List.forall_mem_cons]
        exact ⟨.inl (by simp), others⟩
      · rcases splitAtChar_cons_of_ne newline rest with ⟨piece, pieces, cut, cut_cons⟩
        rw [splitLines, cut, List.forall_mem_cons] at others
        rw [splitLines, cut_cons, List.forall_mem_cons]
        refine ⟨?_, others.2⟩
        rcases others.1 with noReturn | ⟨body, noReturn, rfl⟩
        · exact .inl (by simp [Ne.symm inLine, noReturn])
        · exact .inr ⟨c :: body, by simp [Ne.symm inLine, noReturn], rfl⟩

/-- The lines of the text with line feeds for line ends are the lines without carriage returns. -/
theorem WholeLineEnds.splitLines_universalNewlines {text : List Char} (whole : WholeLineEnds text) :
    splitLines (universalNewlines text) = (splitLines text).map chomp := by
  induction text using lineEnd_induction with
  | nil => rfl
  | pair rest ih =>
      rw [universalNewlines_pair, splitLines_newline, splitLines_pair, List.map_cons,
        ih whole.tail.tail]
      rfl
  | lone rest lone _ => exact absurd (whole [] rest rfl) lone
  | other c rest inLine ih =>
      have others := ih whole.tail
      rw [universalNewlines_cons inLine]
      by_cases newline : c = '\n'
      · subst newline
        rw [splitLines_newline, splitLines_newline, List.map_cons, others]
        rfl
      · rcases splitAtChar_cons_of_ne newline rest with ⟨piece, pieces, cut, cut_cons⟩
        rcases splitAtChar_cons_of_ne newline (universalNewlines rest) with
          ⟨otherPiece, otherPieces, otherCut, otherCut_cons⟩
        rw [splitLines, splitLines, cut, otherCut, List.map_cons, List.cons.injEq] at others
        rw [splitLines, splitLines, cut_cons, otherCut_cons, List.map_cons, chomp_cons inLine,
          others.1, others.2]

section Scanners

variable {text : List Char}

/-- What is the same of each line and of the line with a carriage return at its end is the same of
the lines of the two texts. -/
theorem WholeLineEnds.map_universalNewlines {β : Type} {read : List Char → β}
    (whole : WholeLineEnds text) (same : ∀ body, body ++ ['\r'] ∈ splitLines text → '\r' ∉ body →
      read (body ++ ['\r']) = read body) :
    (splitLines (universalNewlines text)).map read = (splitLines text).map read := by
  rw [whole.splitLines_universalNewlines, List.map_map]
  apply List.map_congr_left
  intro line mem
  rw [Function.comp_apply]
  rcases whole.line_cases line mem with noReturn | ⟨body, noReturn, rfl⟩
  · rw [chomp_of_notMem noReturn]
  · rw [chomp_append_return, same body mem noReturn]

theorem WholeLineEnds.any_universalNewlines {accepts : List Char → Bool}
    (whole : WholeLineEnds text) (same : ∀ body, body ++ ['\r'] ∈ splitLines text → '\r' ∉ body →
      accepts (body ++ ['\r']) = accepts body) :
    (splitLines (universalNewlines text)).any accepts = (splitLines text).any accepts := by
  have mapped := congrArg (List.any · id) (whole.map_universalNewlines same)
  simpa only [List.any_map, Function.id_comp] using mapped

theorem WholeLineEnds.foldl_universalNewlines {σ : Type} {next : σ → List Char → σ}
    (whole : WholeLineEnds text)
    (same : ∀ body, body ++ ['\r'] ∈ splitLines text → '\r' ∉ body →
      ∀ state, next state (body ++ ['\r']) = next state body) (start : σ) :
    (splitLines (universalNewlines text)).foldl next start =
      (splitLines text).foldl next start := by
  have steps :=
    @WholeLineEnds.map_universalNewlines text (σ → σ) (fun line state => next state line) whole
      fun body mem noReturn => funext (same body mem noReturn)
  have run := congrArg (List.foldl (fun (state : σ) step => step state) start) steps
  simpa only [List.foldl_map] using run

end Scanners

end Scorecard
