import Mathlib
import Scorecard.Text.Pattern

/-!
# Matches and the text after them

A match takes its steps one after the other, and each step takes characters of one class only. If
the last step takes a single character, then every run ends before the end of the match, so a match
that lies in a text sees nothing of what follows the text. A match that reaches over a line feed has
a step that accepts line feeds. If no step up to that one accepts the character that closes the
pattern, then that character does not stand before the line feed, and no occurrence lies there at
all. So text after a line feed adds occurrences and changes none.
-/

namespace Scorecard

namespace Step

/-- The class of a step. -/
def accepts : Step → Char → Bool
  | .one accepts | .run accepts | .nonemptyRun accepts | .optional accepts => accepts

/-- The count of characters that a step takes from the start of a text. -/
def take? : Step → List Char → Option Nat
  | .one _, [] => none
  | .one accepts, c :: _ => if accepts c then some 1 else none
  | .run accepts, text => some (text.takeWhile accepts).length
  | .nonemptyRun accepts, text =>
      if (text.takeWhile accepts).length = 0 then none else some (text.takeWhile accepts).length
  | .optional accepts, text => some ((text.take 1).takeWhile accepts).length

/-- The first step takes its characters, and the others go on after them. -/
theorem length?_cons (step : Step) (steps : List Step) (text : List Char) :
    length? (step :: steps) text =
      (step.take? text).bind fun count => (length? steps (text.drop count)).map (· + count) := by
  cases step with
  | one accepts =>
      cases text with
      | nil => rfl
      | cons c rest =>
          rw [length?, take?]
          split <;> rfl
  | run accepts => rfl
  | nonemptyRun accepts =>
      rw [length?, take?]
      split <;> rfl
  | optional accepts => rfl

theorem length?_cons_eq_some {step : Step} {steps : List Step} {text : List Char} {length : ℕ} :
    length? (step :: steps) text = some length ↔
      ∃ count rest, step.take? text = some count ∧ length? steps (text.drop count) = some rest ∧
        rest + count = length := by
  simp [length?_cons, Option.bind_eq_some_iff]

/-- A step takes characters of its class, and no more than there are. -/
theorem of_take? {step : Step} {text : List Char} {count : ℕ}
    (taken : step.take? text = some count) :
    count ≤ text.length ∧ ∀ c ∈ text.take count, step.accepts c = true := by
  cases step with
  | one accepts =>
      cases text with
      | nil => cases taken
      | cons c rest =>
          rw [take?] at taken
          split at taken
          · cases taken
            simpa [Step.accepts]
          · cases taken
  | run accepts =>
      cases taken
      refine ⟨(List.takeWhile_sublist accepts).length_le, ?_⟩
      rw [← List.prefix_iff_eq_take.mp (List.takeWhile_prefix accepts)]
      exact fun c mem => List.mem_takeWhile_imp mem
  | nonemptyRun accepts =>
      rw [take?] at taken
      split at taken
      · cases taken
      · cases taken
        refine ⟨(List.takeWhile_sublist accepts).length_le, ?_⟩
        rw [← List.prefix_iff_eq_take.mp (List.takeWhile_prefix accepts)]
        exact fun c mem => List.mem_takeWhile_imp mem
  | optional accepts =>
      cases taken
      cases text with
      | nil => simp
      | cons c rest => cases accepted : accepts c <;> simp [Step.accepts, accepted]

/-- A step that stops inside a text does not see what follows the text. -/
theorem take?_append {step : Step} {text : List Char} {count : ℕ} (inside : count < text.length)
    (more : List Char) : step.take? (text ++ more) = some count ↔ step.take? text = some count := by
  have run_append : ∀ accepts : Char → Bool,
      ((text ++ more).takeWhile accepts).length = count ↔
        (text.takeWhile accepts).length = count := by
    intro accepts
    rw [List.takeWhile_append]
    split
    · next whole =>
        rw [List.length_append]
        omega
    · rfl
  cases text with
  | nil => exact absurd inside (Nat.not_lt_zero _)
  | cons c rest =>
      cases step with
      | one accepts => rfl
      | run accepts => simpa only [take?, Option.some.injEq] using run_append accepts
      | nonemptyRun accepts =>
          have same := run_append accepts
          simp only [take?]
          split <;> split <;> simp only [Option.some.injEq, reduceCtorEq, false_iff, iff_false] <;>
            omega
      | optional accepts => rfl

theorem length?_le {steps : List Step} {text : List Char} {length : ℕ}
    (found : length? steps text = some length) : length ≤ text.length := by
  induction steps generalizing text length with
  | nil =>
      cases found
      exact Nat.zero_le _
  | cons step steps ih =>
      rcases length?_cons_eq_some.mp found with ⟨count, rest, taken, after, rfl⟩
      have first := (of_take? taken).1
      have others := ih after
      rw [List.length_drop] at others
      omega

/-- A match ends with the character of its last step. -/
theorem exists_last {init : List Step} {accepts : Char → Bool} {text : List Char} {length : ℕ}
    (found : length? (init ++ [Step.one accepts]) text = some length) :
    ∃ front c, text.take length = front ++ [c] ∧ accepts c = true := by
  induction init generalizing text length with
  | nil =>
      cases text with
      | nil => cases found
      | cons c rest =>
          rw [List.nil_append, length?] at found
          split at found
          · next accepted =>
              cases found
              exact ⟨[], c, rfl, accepted⟩
          · cases found
  | cons step init ih =>
      rcases length?_cons_eq_some.mp found with ⟨count, rest, _, after, rfl⟩
      rcases ih after with ⟨front, c, last, accepted⟩
      refine ⟨text.take count ++ front, c, ?_, accepted⟩
      rw [Nat.add_comm, List.take_add, last, List.append_assoc]

theorem length?_pos {init : List Step} {accepts : Char → Bool} {text : List Char} {length : ℕ}
    (found : length? (init ++ [.one accepts]) text = some length) : 0 < length := by
  rcases exists_last found with ⟨front, c, last, _⟩
  cases length with
  | zero => simp at last
  | succ length => exact length.succ_pos

/-- A match that ends with a single character and lies in a text does not see what follows the
text. -/
theorem length?_append {init : List Step} {accepts : Char → Bool} {text : List Char} {length : ℕ}
    (fits : length ≤ text.length) (more : List Char) :
    length? (init ++ [Step.one accepts]) (text ++ more) = some length ↔
      length? (init ++ [Step.one accepts]) text = some length := by
  induction init generalizing text length with
  | nil =>
      cases text with
      | cons c rest => simp [length?]
      | nil =>
          cases Nat.le_zero.mp fits
          constructor
          · intro found
            exact absurd (length?_pos found) (lt_irrefl 0)
          · intro found
            cases found
  | cons step init ih =>
      simp only [List.cons_append, length?_cons_eq_some]
      -- What the first step takes leaves room for the last one, so the first step stops inside.
      constructor
      · rintro ⟨count, rest, taken, after, rfl⟩
        have room := length?_pos after
        have inside : count < text.length := by omega
        rw [List.drop_append_of_le_length inside.le] at after
        refine ⟨count, rest, (take?_append inside more).mp taken, (ih ?_).mp after, rfl⟩
        rw [List.length_drop]
        omega
      · rintro ⟨count, rest, taken, after, rfl⟩
        have room := length?_pos after
        have inside : count < text.length := by omega
        refine ⟨count, rest, (take?_append inside more).mpr taken, ?_, rfl⟩
        rw [List.drop_append_of_le_length inside.le]
        apply (ih ?_).mpr after
        rw [List.length_drop]
        omega

/-- Steps that accept no line feed do not reach over one. -/
theorem length?_le_of_line {steps : List Step} (line : ∀ step ∈ steps, step.accepts '\n' = false)
    {front back : List Char} {length : ℕ}
    (found : length? steps (front ++ '\n' :: back) = some length) : length ≤ front.length := by
  induction steps generalizing front length with
  | nil =>
      cases found
      exact Nat.zero_le _
  | cons step steps ih =>
      rcases length?_cons_eq_some.mp found with ⟨count, rest, taken, after, rfl⟩
      have inside : count ≤ front.length := by
        by_contra beyond
        have reached : '\n' ∈ (front ++ '\n' :: back).take count := by
          rw [List.take_append, List.mem_append]
          right
          rw [List.take_cons (by omega)]
          exact List.mem_cons_self
        have accepted := (of_take? taken).2 _ reached
        rw [line step List.mem_cons_self] at accepted
        cases accepted
      rw [List.drop_append_of_le_length inside] at after
      have others := ih (fun step mem => line step (List.mem_cons_of_mem _ mem)) after
      rw [List.length_drop] at others
      omega

/-- No step before the first one that accepts the closing character may be the last to accept a line
feed: from that one on, the steps accept none. -/
def seals (closing : Char) (steps : List Step) : Bool :=
  (steps.dropWhile fun step => !step.accepts closing).all fun step => !step.accepts '\n'

/-- A match that reaches over a line feed has no closing character before it. -/
theorem notMem_of_seals {closing : Char} {steps : List Step} (sealed : seals closing steps = true)
    {front back : List Char} {length : ℕ}
    (found : length? steps (front ++ '\n' :: back) = some length) (beyond : front.length < length) :
    closing ∉ front := by
  -- The steps that refuse the closing character do not take it, and the others stop before a line
  -- feed.
  induction steps generalizing front length with
  | nil =>
      cases found
      exact absurd beyond (Nat.not_lt_zero _)
  | cons step steps ih =>
      rw [seals, List.dropWhile_cons] at sealed
      split at sealed
      · next refuses =>
          rw [Bool.not_eq_eq_eq_not, Bool.not_true] at refuses
          rcases length?_cons_eq_some.mp found with ⟨count, rest, taken, after, rfl⟩
          have notTaken : closing ∉ front.take count := by
            intro mem
            have taken_mem : closing ∈ (front ++ '\n' :: back).take count := by
              rw [List.take_append]
              exact List.mem_append_left _ mem
            have accepted := (of_take? taken).2 closing taken_mem
            rw [refuses] at accepted
            cases accepted
          rcases Nat.lt_or_ge front.length count with past | inside
          · rwa [List.take_of_length_le past.le] at notTaken
          · rw [List.drop_append_of_le_length inside] at after
            have notAfter : closing ∉ front.drop count := by
              apply ih sealed after
              rw [List.length_drop]
              omega
            rw [← List.take_append_drop count front, List.mem_append]
            rintro (mem | mem)
            · exact notTaken mem
            · exact notAfter mem
      · have line : ∀ other ∈ step :: steps, other.accepts '\n' = false := by
          simpa using sealed
        exact absurd (length?_le_of_line line found) (Nat.not_le.mpr beyond)

/-- Whether a step takes a single character that is no line feed. -/
def isMark : Step → Bool
  | .one accepts => !accepts '\n'
  | _ => false

theorem exists_of_endsWithMark {steps : List Step} (ends : steps.getLast?.any isMark = true) :
    ∃ init accepts, steps = init ++ [Step.one accepts] ∧ accepts '\n' = false := by
  rcases (Option.any_eq_true _ _).mp ends with ⟨last, found, mark⟩
  rcases List.getLast?_eq_some_iff.mp found with ⟨init, rfl⟩
  cases last with
  | one accepts => exact ⟨init, accepts, rfl, by simpa [isMark] using mark⟩
  | _ => cases mark

/-- A match that ends with a mark does not use a line feed at the end of the text. -/
theorem length?_append_newline {steps : List Step} (ends : steps.getLast?.any isMark = true)
    (text : List Char) : length? steps (text ++ ['\n']) = length? steps text := by
  rcases exists_of_endsWithMark ends with ⟨init, accepts, rfl, refuses⟩
  ext length
  rcases Nat.lt_or_ge text.length length with beyond | fits
  · constructor
    · intro found
      have bound := length?_le found
      rcases exists_last found with ⟨front, c, last, accepted⟩
      rw [List.take_of_length_le (by rw [List.length_append, List.length_singleton]; omega)] at last
      have same := (List.append_inj' last rfl).2
      cases same
      rw [refuses] at accepted
      cases accepted
    · intro found
      exact absurd (length?_le found) (Nat.not_le.mpr beyond)
  · exact length?_append fits ['\n']

end Step

namespace Pattern

/-- Whether every alternative ends with a single character that is no line feed. -/
def endsWithMark (pattern : Pattern) : Bool :=
  pattern.all fun steps => steps.getLast?.any Step.isMark

/-- Every alternative ends with the closing character, and no match reaches over a line feed that
has the closing character before it. -/
structure ClosedBy (closing : Char) (pattern : Pattern) : Prop where
  ends : ∀ steps ∈ pattern, steps.getLast? = some (Step.char closing)
  seals : ∀ steps ∈ pattern, Step.seals closing steps = true

theorem exists_length?_of_eq_some {pattern : Pattern} {text : List Char} {length : ℕ}
    (found : pattern.length? text = some length) :
    ∃ steps ∈ pattern, Step.length? steps text = some length :=
  List.exists_of_findSome?_eq_some found

theorem length?_le {pattern : Pattern} {text : List Char} {length : ℕ}
    (found : pattern.length? text = some length) : length ≤ text.length := by
  rcases exists_length?_of_eq_some found with ⟨steps, _, matched⟩
  exact Step.length?_le matched

theorem matchesStart_append {pattern : Pattern} (ends : pattern.endsWithMark = true)
    {text : List Char} (starts : pattern.matchesStart text = true) (more : List Char) :
    pattern.matchesStart (text ++ more) = true := by
  rw [matchesStart, length?, List.findSome?_isSome_iff] at starts ⊢
  rcases starts with ⟨steps, mem, matched⟩
  rcases Option.isSome_iff_exists.mp matched with ⟨length, found⟩
  rcases Step.exists_of_endsWithMark (List.all_eq_true.mp ends steps mem) with
    ⟨init, accepts, rfl, _⟩
  refine ⟨_, mem, ?_⟩
  rw [(Step.length?_append (Step.length?_le found) more).mpr found]
  rfl

/-- What occurs in a text occurs in every longer one. -/
theorem occursIn_append {pattern : Pattern} (ends : pattern.endsWithMark = true) {text : List Char}
    (occurs : pattern.occursIn text = true) (more : List Char) :
    pattern.occursIn (text ++ more) = true := by
  induction text with
  | nil =>
      have starts := matchesStart_append ends occurs more
      rw [List.nil_append] at starts ⊢
      cases more with
      | nil => exact starts
      | cons c rest => rw [occursIn, starts, Bool.true_or]
  | cons c rest ih =>
      rw [occursIn, Bool.or_eq_true] at occurs
      rw [List.cons_append, occursIn, Bool.or_eq_true]
      exact occurs.imp (matchesStart_append ends · more) ih

namespace ClosedBy

variable {closing : Char} {pattern : Pattern}

/-- Every match ends with the closing character. -/
theorem exists_take_eq (closed : pattern.ClosedBy closing) {text : List Char} {length : ℕ}
    (found : pattern.length? text = some length) :
    ∃ front, text.take length = front ++ [closing] := by
  rcases exists_length?_of_eq_some found with ⟨steps, mem, matched⟩
  rcases List.getLast?_eq_some_iff.mp (closed.ends steps mem) with ⟨init, rfl⟩
  rcases Step.exists_last matched with ⟨front, c, last, same⟩
  rw [beq_iff_eq] at same
  subst same
  exact ⟨front, last⟩

theorem closing_mem_take (closed : pattern.ClosedBy closing) {text : List Char} {length : ℕ}
    (found : pattern.length? text = some length) : closing ∈ text.take length := by
  rcases closed.exists_take_eq found with ⟨front, taken⟩
  rw [taken]
  exact List.mem_append_right _ List.mem_cons_self

theorem closing_mem (closed : pattern.ClosedBy closing) {text : List Char} {length : ℕ}
    (found : pattern.length? text = some length) : closing ∈ text :=
  List.mem_of_mem_take (closed.closing_mem_take found)

theorem exists_of_mem_occurrencesAfter (closed : pattern.ClosedBy closing)
    {text occurrence : List Char} {skip : ℕ}
    (mem : occurrence ∈ pattern.occurrencesAfter skip text) :
    ∃ front, occurrence = front ++ [closing] := by
  induction text generalizing skip with
  | nil => cases skip <;> cases mem
  | cons c rest ih =>
      cases skip with
      | succ skip => exact ih mem
      | zero =>
          rw [occurrencesAfter] at mem
          split at mem
          · exact ih mem
          · next found =>
              rcases List.mem_cons.mp mem with rfl | mem
              · exact closed.exists_take_eq found
              · exact ih mem

theorem length_occurrencesAfter_le_count (closed : pattern.ClosedBy closing) (text : List Char)
    (skip : ℕ) : (pattern.occurrencesAfter skip text).length ≤ (text.drop skip).count closing := by
  induction text generalizing skip with
  | nil => cases skip <;> simp [occurrencesAfter]
  | cons c rest ih =>
      cases skip with
      | succ skip => simpa [occurrencesAfter] using ih skip
      | zero =>
          rw [occurrencesAfter, List.drop_zero]
          cases found : pattern.length? (c :: rest) with
          | none =>
              have others := ih 0
              rw [List.drop_zero] at others
              exact others.trans ((List.sublist_cons_self c rest).count_le closing)
          | some length =>
              -- What is skipped behind an occurrence holds the closing character of the occurrence.
              have taken := List.count_pos_iff.mpr (closed.closing_mem_take found)
              have others := ih (length - 1)
              have cut : (c :: rest).count closing =
                  ((c :: rest).take length).count closing +
                  ((c :: rest).drop length).count closing := by
                rw [← List.count_append, List.take_append_drop]
              have skipped : rest.drop (length - 1) = (c :: rest).drop length := by
                cases length with
                | zero => simp at taken
                | succ length => rfl
              rw [skipped] at others
              simp only [List.length_cons]
              omega

/-- There are no more occurrences than closing characters. -/
theorem length_occurrences_le_count (closed : pattern.ClosedBy closing) (text : List Char) :
    (pattern.occurrences text).length ≤ text.count closing :=
  closed.length_occurrencesAfter_le_count text 0

theorem occurrencesAfter_eq_nil (closed : pattern.ClosedBy closing) {text : List Char}
    (absent : closing ∉ text) (skip : ℕ) : pattern.occurrencesAfter skip text = [] := by
  induction text generalizing skip with
  | nil => cases skip <;> rfl
  | cons c rest ih =>
      have restAbsent : closing ∉ rest := fun mem => absent (List.mem_cons_of_mem _ mem)
      cases skip with
      | succ skip => exact ih restAbsent skip
      | zero =>
          rw [occurrencesAfter]
          split
          · exact ih restAbsent 0
          · next found => exact absurd (closed.closing_mem found) absent

/-- A match before a line feed stays the first match of its place, whatever follows the line
feed. -/
theorem length?_append (closed : pattern.ClosedBy closing) {front : List Char} {length : ℕ}
    (found : pattern.length? front = some length) (back : List Char) :
    pattern.length? (front ++ '\n' :: back) = some length := by
  have mem := closed.closing_mem found
  induction pattern with
  | nil => cases found
  | cons steps pattern ih =>
      rcases closed with ⟨ends, seals⟩
      rcases List.getLast?_eq_some_iff.mp (ends steps List.mem_cons_self) with ⟨init, shape⟩
      rw [Pattern.length?, List.findSome?_cons] at found ⊢
      cases longer : Step.length? steps (front ++ '\n' :: back) with
      | none =>
          cases first : Step.length? steps front with
          | some taken =>
              subst shape
              have kept := (Step.length?_append (Step.length?_le first) ('\n' :: back)).mpr first
              rw [Step.char] at longer
              rw [longer] at kept
              cases kept
          | none =>
              rw [first] at found
              refine ih ⟨fun other mem => ends other (List.mem_cons_of_mem _ mem),
                fun other mem => seals other (List.mem_cons_of_mem _ mem)⟩ found
      | some taken =>
          -- A match beyond the line feed would leave no closing character before it.
          rcases Nat.lt_or_ge front.length taken with beyond | inside
          · exact absurd mem (Step.notMem_of_seals (seals steps List.mem_cons_self) longer beyond)
          · subst shape
            have kept := (Step.length?_append inside ('\n' :: back)).mp longer
            rw [Step.char] at found
            rw [kept] at found
            exact found

/-- What starts before a line feed and matches only with what follows has no closing character
before the line feed. -/
theorem notMem_of_length?_eq_none (closed : pattern.ClosedBy closing) {front back : List Char}
    (nothing : pattern.length? front = none) {length : ℕ}
    (found : pattern.length? (front ++ '\n' :: back) = some length) : closing ∉ front := by
  rcases exists_length?_of_eq_some found with ⟨steps, mem, matched⟩
  apply Step.notMem_of_seals (closed.seals steps mem) matched
  rcases List.getLast?_eq_some_iff.mp (closed.ends steps mem) with ⟨init, rfl⟩
  by_contra inside
  have kept := (Step.length?_append (Nat.not_lt.mp inside) ('\n' :: back)).mp matched
  rw [Pattern.length?, List.findSome?_eq_none_iff] at nothing
  rw [Step.char] at mem
  rw [nothing _ mem] at kept
  cases kept

theorem occurrencesAfter_prefix (closed : pattern.ClosedBy closing) {front : List Char} {skip : ℕ}
    (inside : skip ≤ front.length) (back : List Char) :
    pattern.occurrencesAfter skip front <+:
      pattern.occurrencesAfter skip (front ++ '\n' :: back) := by
  induction front generalizing skip with
  | nil =>
      cases skip with
      | zero => exact List.nil_prefix
      | succ skip => exact absurd inside (Nat.not_succ_le_zero skip)
  | cons c rest ih =>
      cases skip with
      | succ skip => exact ih (Nat.le_of_succ_le_succ inside)
      | zero =>
          rw [List.cons_append, occurrencesAfter, occurrencesAfter]
          cases found : pattern.length? (c :: rest) with
          | some length =>
              have fits := Pattern.length?_le found
              rw [← List.cons_append, closed.length?_append found back]
              simp only
              rw [List.take_append_of_le_length fits, List.prefix_cons_inj]
              apply ih
              rw [List.length_cons] at fits
              omega
          | none =>
              cases longer : pattern.length? (c :: (rest ++ '\n' :: back)) with
              | none => exact ih (Nat.zero_le _)
              | some length =>
                  have absent := closed.notMem_of_length?_eq_none found longer
                  simp only
                  rw [closed.occurrencesAfter_eq_nil fun mem => absent (List.mem_cons_of_mem _ mem)]
                  exact List.nil_prefix

/-- The occurrences before a line feed stay the first ones, whatever follows it. -/
theorem occurrences_prefix (closed : pattern.ClosedBy closing) (front back : List Char) :
    pattern.occurrences front <+: pattern.occurrences (front ++ '\n' :: back) :=
  closed.occurrencesAfter_prefix (Nat.zero_le _) back

end ClosedBy

end Pattern

end Scorecard
