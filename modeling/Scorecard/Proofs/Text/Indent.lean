import Scorecard.Proofs.Text.Lines
import Scorecard.Proofs.Text.Matching

/-!
# Indented text

Every line of a text is indented by the same blanks. Then each line feed of the text has those
blanks after it, and so has each part of the text: a part is spread. A step that takes a line feed
takes blanks as well, and a step that takes single characters takes no line feed. So a pattern takes
from the spread text what it takes from the text, spread. No match starts with a blank, so the
blanks before a match are passed over, and the occurrences in the indented text are those in the
text, spread.
-/

namespace Scorecard

/-- The text with the same blanks before every line. -/
def indentLines (indent text : List Char) : List Char :=
  joinWith ['\n'] ((splitLines text).map (indent ++ ·))

/-- The text with blanks after every line feed. -/
def spread (indent text : List Char) : List Char :=
  text.flatMap fun c => if c = '\n' then '\n' :: indent else [c]

section Spread

variable {indent : List Char}

@[simp]
theorem spread_nil : spread indent [] = [] := rfl

@[simp]
theorem spread_newline (rest : List Char) :
    spread indent ('\n' :: rest) = '\n' :: (indent ++ spread indent rest) := rfl

theorem spread_cons {c : Char} (inLine : c ≠ '\n') (rest : List Char) :
    spread indent (c :: rest) = c :: spread indent rest := by
  simp [spread, inLine]

theorem spread_append (front back : List Char) :
    spread indent (front ++ back) = spread indent front ++ spread indent back :=
  List.flatMap_append

theorem spread_eq_nil_iff {text : List Char} : spread indent text = [] ↔ text = [] := by
  cases text with
  | nil => simp
  | cons c rest => by_cases newline : c = '\n' <;> simp [newline, spread_cons]

theorem spread_take_append_drop (text : List Char) (count : ℕ) :
    spread indent text = spread indent (text.take count) ++ spread indent (text.drop count) := by
  rw [← spread_append, List.take_append_drop]

theorem take_spread (text : List Char) (count : ℕ) :
    (spread indent text).take (spread indent (text.take count)).length =
      spread indent (text.take count) := by
  rw [spread_take_append_drop text count, List.take_left]

theorem drop_spread (text : List Char) (count : ℕ) :
    (spread indent text).drop (spread indent (text.take count)).length =
      spread indent (text.drop count) := by
  rw [spread_take_append_drop text count, List.drop_left]

theorem length_spread_take_add (text : List Char) (first second : ℕ) :
    (spread indent (text.take (first + second))).length =
      (spread indent (text.take first)).length +
        (spread indent ((text.drop first).take second)).length := by
  rw [List.take_add, spread_append, List.length_append]

theorem indentLines_eq (indent text : List Char) :
    indentLines indent text = indent ++ spread indent text := by
  rw [indentLines, splitLines]
  induction text with
  | nil => simp [splitAtChar, joinWith]
  | cons c rest ih =>
      by_cases newline : c = '\n'
      · subst newline
        rw [splitAtChar, if_pos rfl, List.map_cons, joinWith]
        · rw [ih]
          simp
        · simp [splitAtChar_ne_nil]
      · rcases splitAtChar_cons_of_ne newline rest with ⟨piece, pieces, cut, cut_cons⟩
        rw [cut] at ih
        rw [cut_cons, spread_cons newline]
        cases pieces with
        | nil =>
            simp only [List.map_cons, List.map_nil, joinWith, List.append_cancel_left_eq] at ih ⊢
            rw [ih]
        | cons second pieces =>
            simp only [List.map_cons, joinWith, List.append_assoc,
              List.append_cancel_left_eq] at ih ⊢
            rw [List.cons_append, ih]

end Spread

/-- Blanks that indent a line: spaces and tabs. -/
def IsIndent (indent : List Char) : Prop :=
  ∀ c ∈ indent, c = ' ' ∨ c = '\t'

theorem IsIndent.newline_notMem {indent : List Char} (blanks : IsIndent indent) :
    '\n' ∉ indent := by
  intro mem
  rcases blanks '\n' mem with impossible | impossible <;> cases impossible

/-- Indenting a text indents its lines. -/
theorem splitLines_indentLines {indent : List Char} (blanks : IsIndent indent) (text : List Char) :
    splitLines (indentLines indent text) = (splitLines text).map (indent ++ ·) := by
  apply splitAtChar_joinWith
  · simp [splitLines, splitAtChar_ne_nil]
  · intro piece mem
    rcases List.mem_map.mp mem with ⟨line, lineMem, rfl⟩
    rw [List.mem_append, not_or]
    exact ⟨blanks.newline_notMem, notMem_of_mem_splitAtChar lineMem⟩

namespace Step

variable {indent : List Char}

/-- Whether a step takes single characters that are no line feeds, or a run that goes on over blanks
if it goes over a line feed. -/
def isSteady : Step → Bool
  | .one accepts | .optional accepts => !accepts '\n'
  | .run accepts | .nonemptyRun accepts => !accepts '\n' || (accepts ' ' && accepts '\t')

theorem takeWhile_spread {accepts : Char → Bool} (blanks : IsIndent indent)
    (steady : (!accepts '\n' || (accepts ' ' && accepts '\t')) = true) (text : List Char) :
    (spread indent text).takeWhile accepts = spread indent (text.takeWhile accepts) := by
  induction text with
  | nil => rfl
  | cons c rest ih =>
      by_cases newline : c = '\n'
      · subst newline
        cases accepted : accepts '\n' with
        | false => simp [accepted]
        | true =>
            simp only [accepted, Bool.not_true, Bool.false_or, Bool.and_eq_true] at steady
            have indentAccepted : ∀ c ∈ indent, accepts c = true := by
              intro c mem
              rcases blanks c mem with rfl | rfl
              · exact steady.1
              · exact steady.2
            simp [accepted, List.takeWhile_append_of_pos indentAccepted, ih]
      · rw [spread_cons newline, List.takeWhile_cons, List.takeWhile_cons, ih]
        split
        · rw [spread_cons newline]
        · rfl

theorem length_takeWhile_spread {accepts : Char → Bool} (blanks : IsIndent indent)
    (steady : (!accepts '\n' || (accepts ' ' && accepts '\t')) = true) (text : List Char) :
    ((spread indent text).takeWhile accepts).length =
      (spread indent (text.take (text.takeWhile accepts).length)).length := by
  rw [takeWhile_spread blanks steady, ← List.prefix_iff_eq_take.mp (List.takeWhile_prefix accepts)]

theorem take?_spread {step : Step} (blanks : IsIndent indent) (steady : step.isSteady = true)
    (text : List Char) :
    step.take? (spread indent text) =
      (step.take? text).map fun count => (spread indent (text.take count)).length := by
  cases step with
  | one accepts =>
      rw [isSteady, Bool.not_eq_eq_eq_not, Bool.not_true] at steady
      cases text with
      | nil => rfl
      | cons c rest =>
          by_cases newline : c = '\n'
          · subst newline
            simp [take?, steady]
          · rw [spread_cons newline, take?, take?]
            split
            · simp [spread_cons newline]
            · rfl
  | run accepts =>
      rw [take?, take?, length_takeWhile_spread blanks steady]
      rfl
  | nonemptyRun accepts =>
      have same := takeWhile_spread blanks steady text
      rw [take?, take?, length_takeWhile_spread blanks steady]
      by_cases empty : text.takeWhile accepts = []
      · simp [empty]
      · have taken : text.take (text.takeWhile accepts).length ≠ [] := by
          rwa [← List.prefix_iff_eq_take.mp (List.takeWhile_prefix accepts)]
        simp [empty, spread_eq_nil_iff, taken]
  | optional accepts =>
      rw [isSteady, Bool.not_eq_eq_eq_not, Bool.not_true] at steady
      cases text with
      | nil => rfl
      | cons c rest =>
          by_cases newline : c = '\n'
          · subst newline
            simp [take?, steady]
          · cases accepted : accepts c <;> simp [take?, spread_cons newline, accepted]

/-- Steady steps take from a spread text what they take from the text, spread. -/
theorem length?_spread {steps : List Step} (blanks : IsIndent indent)
    (steady : ∀ step ∈ steps, step.isSteady = true) (text : List Char) :
    length? steps (spread indent text) =
      (length? steps text).map fun length => (spread indent (text.take length)).length := by
  induction steps generalizing text with
  | nil => simp [length?]
  | cons step steps ih =>
      rw [List.forall_mem_cons] at steady
      rw [length?_cons, length?_cons, take?_spread blanks steady.1]
      cases step.take? text with
      | none => rfl
      | some count =>
          simp only [Option.map_some, Option.bind_some]
          rw [drop_spread, ih steady.2, Option.map_map, Option.map_map]
          congr 1
          funext length
          simp only [Function.comp_apply]
          rw [Nat.add_comm length count, length_spread_take_add, Nat.add_comm]

/-- Whether a step takes at least one character and none that stands before a line. -/
def isSolid : Step → Bool
  | .one accepts | .nonemptyRun accepts => !accepts '\n' && !accepts ' ' && !accepts '\t'
  | _ => false

theorem length?_of_solid {step : Step} (solid : step.isSolid = true) (steps : List Step) {c : Char}
    (blank : c = '\n' ∨ c = ' ' ∨ c = '\t') (rest : List Char) :
    length? (step :: steps) (c :: rest) = none := by
  cases step with
  | one accepts =>
      simp only [isSolid, Bool.and_eq_true, Bool.not_eq_eq_eq_not, Bool.not_true] at solid
      rcases blank with rfl | rfl | rfl <;> simp [length?, solid]
  | nonemptyRun accepts =>
      simp only [isSolid, Bool.and_eq_true, Bool.not_eq_eq_eq_not, Bool.not_true] at solid
      rcases blank with rfl | rfl | rfl <;> simp [length?, solid]
  | run accepts => cases solid
  | optional accepts => cases solid

end Step

namespace Pattern

variable {indent : List Char} {pattern : Pattern}

/-- Whether no match starts with a blank that stands before a line. -/
def startsSolid (pattern : Pattern) : Bool :=
  pattern.all fun steps => steps.head?.any Step.isSolid

/-- Whether all steps are steady. -/
def isSteady (pattern : Pattern) : Bool :=
  pattern.all fun steps => steps.all Step.isSteady

/-- Whether no match starts with a blank that stands before a line, and all steps are steady. -/
def isMovable (pattern : Pattern) : Bool :=
  pattern.startsSolid && pattern.isSteady

theorem length?_blank (solid : pattern.startsSolid = true) {c : Char}
    (blank : c = '\n' ∨ c = ' ' ∨ c = '\t') (rest : List Char) :
    pattern.length? (c :: rest) = none := by
  rw [length?, List.findSome?_eq_none_iff]
  intro steps mem
  have starts := List.all_eq_true.mp solid steps mem
  cases steps with
  | nil => cases starts
  | cons step steps => exact Step.length?_of_solid starts steps blank rest

theorem length?_spread (blanks : IsIndent indent) (steady : pattern.isSteady = true)
    (text : List Char) :
    pattern.length? (spread indent text) =
      (pattern.length? text).map fun length => (spread indent (text.take length)).length := by
  induction pattern with
  | nil => rfl
  | cons steps pattern ih =>
      rw [isSteady, List.all_cons, Bool.and_eq_true] at steady
      have rest := ih steady.2
      rw [length?] at rest
      rw [length?, length?, List.findSome?_cons, List.findSome?_cons,
        Step.length?_spread blanks (List.all_eq_true.mp steady.1)]
      cases Step.length? steps text with
      | none => exact rest
      | some length => rfl

section OccursIn

theorem occursIn_indent (blanks : IsIndent indent) (solid : pattern.startsSolid = true)
    (text : List Char) : pattern.occursIn (indent ++ text) = pattern.occursIn text := by
  induction indent with
  | nil => rfl
  | cons c indent ih =>
      have blank := blanks c List.mem_cons_self
      rw [List.cons_append, occursIn, matchesStart, length?_blank solid (.inr blank)]
      exact ih fun c mem => blanks c (List.mem_cons_of_mem _ mem)

/-- A pattern occurs in the indented text as it does in the text. -/
theorem occursIn_indentLines (blanks : IsIndent indent) (movable : pattern.isMovable = true)
    (text : List Char) : pattern.occursIn (indentLines indent text) = pattern.occursIn text := by
  rw [isMovable, Bool.and_eq_true] at movable
  rcases movable with ⟨solid, steady⟩
  rw [indentLines_eq, occursIn_indent blanks solid]
  have starts : ∀ text, pattern.matchesStart (spread indent text) = pattern.matchesStart text := by
    intro text
    rw [matchesStart, matchesStart, length?_spread blanks steady, Option.isSome_map]
  induction text with
  | nil => rfl
  | cons c rest ih =>
      have startsHere := starts (c :: rest)
      by_cases newline : c = '\n'
      · subst newline
        rw [spread_newline] at startsHere ⊢
        rw [occursIn, occursIn, startsHere, occursIn_indent blanks solid, ih]
      · rw [spread_cons newline] at startsHere ⊢
        rw [occursIn, occursIn, startsHere, ih]

end OccursIn

section Occurrences

theorem occurrencesAfter_append (front text : List Char) (skip : ℕ) :
    pattern.occurrencesAfter (front.length + skip) (front ++ text) =
      pattern.occurrencesAfter skip text := by
  induction front with
  | nil => rw [List.length_nil, Nat.zero_add, List.nil_append]
  | cons c front ih =>
      rw [List.length_cons, Nat.add_right_comm]
      exact ih

theorem occurrencesAfter_indent (blanks : IsIndent indent) (solid : pattern.startsSolid = true)
    (text : List Char) :
    pattern.occurrencesAfter 0 (indent ++ text) = pattern.occurrencesAfter 0 text := by
  induction indent with
  | nil => rfl
  | cons c indent ih =>
      have blank := blanks c List.mem_cons_self
      rw [List.cons_append, occurrencesAfter, length?_blank solid (.inr blank)]
      exact ih fun c mem => blanks c (List.mem_cons_of_mem _ mem)

theorem occurrencesAfter_spread (blanks : IsIndent indent) (solid : pattern.startsSolid = true)
    (steady : pattern.isSteady = true) (text : List Char) (skip : ℕ) :
    pattern.occurrencesAfter (spread indent (text.take skip)).length (spread indent text) =
      (pattern.occurrencesAfter skip text).map (spread indent) := by
  induction text generalizing skip with
  | nil => simp [occurrencesAfter]
  | cons c rest ih =>
      cases skip with
      | succ skip =>
          -- What is skipped of the text is skipped of the spread text, the blanks included.
          have head : ∀ text, spread indent (c :: text) = spread indent [c] ++ spread indent text :=
            fun text => spread_append [c] text
          rw [List.take_succ_cons, head (rest.take skip), head rest, List.length_append,
            occurrencesAfter_append, ih]
          rfl
      | zero =>
          rw [List.take_zero, spread_nil, List.length_nil]
          have here := length?_spread blanks steady (c :: rest)
          have next := ih 0
          rw [List.take_zero, spread_nil, List.length_nil] at next
          by_cases newline : c = '\n'
          · subst newline
            rw [spread_newline, occurrencesAfter, occurrencesAfter, length?_blank solid (.inl rfl),
              length?_blank solid (.inl rfl)]
            simp only
            rw [occurrencesAfter_indent blanks solid, next]
          · have taken := @take_spread indent (c :: rest)
            rw [spread_cons newline] at here taken ⊢
            rw [occurrencesAfter, occurrencesAfter, here]
            cases pattern.length? (c :: rest) with
            | none => exact next
            | some length =>
                simp only [Option.map_some, List.map_cons]
                rw [taken length]
                cases length with
                | zero => simp [next]
                | succ length =>
                    rw [List.take_succ_cons, spread_cons newline, List.length_cons,
                      Nat.add_sub_cancel, Nat.add_sub_cancel, ih]

/-- The occurrences in the indented text are those in the text, spread. -/
theorem occurrences_indentLines (blanks : IsIndent indent) (movable : pattern.isMovable = true)
    (text : List Char) :
    pattern.occurrences (indentLines indent text) =
      (pattern.occurrences text).map (spread indent) := by
  rw [isMovable, Bool.and_eq_true] at movable
  rw [occurrences, occurrences, indentLines_eq, occurrencesAfter_indent blanks movable.1]
  exact occurrencesAfter_spread blanks movable.1 movable.2 text 0

theorem count_indentLines (blanks : IsIndent indent) (movable : pattern.isMovable = true)
    (text : List Char) : pattern.count (indentLines indent text) = pattern.count text := by
  rw [count, count, occurrences_indentLines blanks movable, List.length_map]

end Occurrences

end Pattern

end Scorecard
