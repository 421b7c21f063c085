import Scorecard.Proofs.Analysis.LineByLine
import Scorecard.Proofs.Analysis.NestedBlocks
import Scorecard.Proofs.Text.Spelling

/-!
# Long functions in code with indentation

A function takes in its definition and all lines after it up to the first one that is not blank and
not indented deeper than the definition. Blank lines count like others but end nothing, and the end
of the text ends the function that is open.

A definition inside a function is indented deeper than the function, so whatever is indented deeper
than the inner definition is indented deeper than the outer one: the functions are nested blocks.
One line can end a function and define the next one, so the scanner looks for a definition after it
has looked for the end. What it marks of the function that it is in is the indent of the definition.
-/

namespace Scorecard

/-- A line that starts, behind its indent, with the word `def`, blanks, a name, perhaps blanks and
an opening parenthesis. -/
def IsDefinitionLine (line : List Char) : Prop :=
  ∃ indent gap name pad rest,
    line = indent ++ ("def".toList ++ (gap ++ (name ++ (pad ++ '(' :: rest)))) ∧
      (∀ c ∈ indent, isBlank c = true) ∧ (gap ≠ [] ∧ ∀ c ∈ gap, isBlank c = true) ∧
      (name ≠ [] ∧ ∀ c ∈ name, isWord c = true) ∧ ∀ c ∈ pad, isBlank c = true

theorem not_isWord_of_isBlank {c : Char} (blank : isBlank c = true) : isWord c = false := by
  have known : c.toNat ∈ List.range' 9 5 ++ List.range' 28 5 ++ List.range' 0x2000 11 ++
      [0x85, 0xA0, 0x1680, 0x2028, 0x2029, 0x202F, 0x205F, 0x3000] := by
    simp only [isBlank, Bool.or_eq_true, Bool.and_eq_true, decide_eq_true_eq, beq_iff_eq] at blank
    simp only [List.mem_append, List.mem_range'_1, List.mem_cons, List.not_mem_nil, or_false]
    omega
  have apart : ∀ code ∈ List.range' 9 5 ++ List.range' 28 5 ++ List.range' 0x2000 11 ++
      [0x85, 0xA0, 0x1680, 0x2028, 0x2029, 0x202F, 0x205F, 0x3000],
      isWord (Char.ofNat code) = false := by
    decide +kernel
  simpa using apart c.toNat known

theorem indentDefinition_eq : indentDefinition = [Step.run isBlank :: (Step.literal "def" ++
    [Step.nonemptyRun isBlank, Step.nonemptyRun isWord, Step.run isBlank, Step.char '('])] :=
  rfl

theorem indentDefinition_definite : indentDefinition.Definite := by
  rw [indentDefinition_eq]
  intro steps mem
  rw [List.mem_singleton] at mem
  subst mem
  simp only [Step.Definite, Step.definite_literal, Step.char, Step.MayStart, and_true]
  refine ⟨?_, ?_, ?_, ?_⟩
  · intro c blank starts
    rw [(Step.mayStart_literal rfl).mp starts] at blank
    exact absurd blank (by decide)
  · intro c blank
    simp [not_isWord_of_isBlank blank]
  · rintro c word (blank | parenthesis)
    · simp [not_isWord_of_isBlank blank] at word
    · rw [beq_iff_eq.mp parenthesis] at word
      exact absurd word (by decide)
  · intro c blank parenthesis
    rw [beq_iff_eq.mp parenthesis] at blank
    exact absurd blank (by decide)

theorem indentDefinition_matchesStart_iff (line : List Char) :
    indentDefinition.matchesStart line = true ↔ IsDefinitionLine line := by
  rw [Pattern.matchesStart_iff indentDefinition_definite, indentDefinition_eq]
  simp only [Pattern.Spells, List.mem_singleton, exists_eq_left, Step.spells_run,
    Step.spells_literal, Step.spells_nonemptyRun, Step.spells_char, Step.spells_nil]
  constructor
  · rintro ⟨_, ⟨rest, rfl⟩, indent, _, rfl, indented, _, rfl, gap, _, rfl, apart, name, _, rfl,
      named, pad, _, rfl, padded, _, rfl, rfl⟩
    exact ⟨indent, gap, name, pad, rest, by simp, indented, apart, named, padded⟩
  · rintro ⟨indent, gap, name, pad, rest, rfl, indented, apart, named, padded⟩
    refine ⟨indent ++ ("def".toList ++ (gap ++ (name ++ (pad ++ ['('])))), ⟨rest, by simp⟩, ?_⟩
    exact ⟨indent, _, rfl, indented, _, rfl, gap, _, rfl, apart, name, _, rfl, named, pad, _, rfl,
      padded, _, rfl, rfl⟩

instance : DecidablePred IsDefinitionLine := fun line =>
  decidable_of_iff _ (indentDefinition_matchesStart_iff line)

theorem IsDefinitionLine.not_isBlankLine {line : List Char} (defines : IsDefinitionLine line) :
    ¬ IsBlankLine line := by
  rcases defines with ⟨indent, gap, name, pad, rest, rfl, -⟩
  intro blankLine
  have blank := blankLine '(' (by simp)
  exact absurd blank (by decide)

section Indents

variable (limit : ℤ) (lines : List (List Char))

/-- Whether a line defines a function. -/
def DefinesAt (position : ℕ) : Prop :=
  IsDefinitionLine (lineAt lines position)

instance : DecidablePred (DefinesAt lines) := fun _ =>
  inferInstanceAs (Decidable (IsDefinitionLine _))

/-- Whether a line is blank or indented deeper than another one. -/
def IsDeeper (outer inner : ℕ) : Prop :=
  ¬ IsBlankLine (lineAt lines inner) →
    lineIndent (lineAt lines outer) < lineIndent (lineAt lines inner)

instance : DecidableRel (IsDeeper lines) := fun _ _ =>
  inferInstanceAs (Decidable (¬ _ → _))

/-- Whether all lines after a line, up to another one and with it, are blank or indented deeper. -/
def IndentInside (outer inner : ℕ) : Prop :=
  ∀ between ∈ Finset.Ioc outer inner, IsDeeper lines outer between

instance : DecidableRel (IndentInside lines) := fun _ _ =>
  inferInstanceAs (Decidable (∀ _ ∈ _, _))

/-- Whether all lines between two lines are blank or indented deeper than the first one. -/
def IndentOpen (first position : ℕ) : Prop :=
  ∀ between ∈ Finset.Ioo first position, IsDeeper lines first between

instance : DecidableRel (IndentOpen lines) := fun _ _ =>
  inferInstanceAs (Decidable (∀ _ ∈ _, _))

/-- The count of lines from a line to the first later one that is not blank and indented no deeper,
or to the end. -/
def indentExtent (first : ℕ) : ℕ :=
  match (List.range lines.length).find? fun next => first < next ∧ ¬ IsDeeper lines first next with
  | some next => next - first
  | none => lines.length - first

variable {limit} {lines} {outer inner first last position : ℕ}

theorem indentOpen_succ (ordered : first < position) :
    IndentOpen lines first (position + 1) ↔
      IndentOpen lines first position ∧ IsDeeper lines first position := by
  rw [IndentOpen, IndentOpen, Finset.Ioo_add_one_right_eq_Ioc, ← Finset.Ioo_insert_right ordered,
    Finset.forall_mem_insert, and_comm]

theorem IndentOpen.of_le {earlier : ℕ} (opened : IndentOpen lines first position)
    (ordered : earlier ≤ position) : IndentOpen lines first earlier := by
  intro between mem
  apply opened between
  simp only [Finset.mem_Ioo] at mem ⊢
  omega

/-- What is indented deeper than an inner definition is indented deeper than the outer one. -/
theorem IndentOpen.trans (ordered : outer < inner) (defines : DefinesAt lines inner)
    (around : IndentInside lines outer inner) (opened : IndentOpen lines inner position) :
    IndentOpen lines outer position := by
  intro between mem
  rw [Finset.mem_Ioo] at mem
  rcases Nat.lt_or_ge inner between with after | before
  · intro solid
    have inside := around inner (Finset.mem_Ioc.mpr ⟨ordered, le_rfl⟩) defines.not_isBlankLine
    exact inside.trans (opened between (Finset.mem_Ioo.mpr ⟨after, mem.2⟩) solid)
  · exact around between (Finset.mem_Ioc.mpr ⟨mem.1, before⟩)

variable (lines) in
theorem nested_indents : Nested (DefinesAt lines) (IndentInside lines) (IndentOpen lines) where
  opens _ := by simp [IndentOpen, Finset.Ioo_add_one_right_eq_Ioc]
  isOpen_of_succ opened := opened.of_le (Nat.le_succ _)
  inside_of_isOpen _ before opened := by
    intro between mem
    apply opened between
    simp only [Finset.mem_Ioc, Finset.mem_Ioo] at mem ⊢
    omega
  isOpen_of_inside ordered defines around opened := opened.trans ordered defines around

theorem indentExtent_of_ended (ordered : first < position) (inText : position < lines.length)
    (opened : IndentOpen lines first position) (ended : ¬ IsDeeper lines first position) :
    indentExtent lines first = position - first := by
  have found :
      ((List.range lines.length).find? fun next => first < next ∧ ¬ IsDeeper lines first next) =
        some position := by
    rw [List.find?_range_eq_some]
    refine ⟨by simp [ordered, ended], List.mem_range.mpr inText, ?_⟩
    intro earlier before
    simp only [Bool.not_eq_true', decide_eq_false_iff_not, not_and, not_not]
    intro after
    exact opened earlier (Finset.mem_Ioo.mpr ⟨after, before⟩)
  rw [indentExtent, found]

theorem indentExtent_of_isOpen (opened : IndentOpen lines first lines.length) :
    indentExtent lines first = lines.length - first := by
  have absent :
      ((List.range lines.length).find? fun next => first < next ∧ ¬ IsDeeper lines first next) =
        none := by
    rw [List.find?_range_eq_none]
    intro next before
    simp only [Bool.not_eq_true', decide_eq_false_iff_not, not_and, not_not]
    intro after
    exact opened next (Finset.mem_Ioo.mpr ⟨after, before⟩)
  rw [indentExtent, absent]

theorem endsFunction_iff :
    endsFunction (lineIndent (lineAt lines first)) (lineAt lines position) = true ↔
      ¬ IsDeeper lines first position := by
  rw [endsFunction, indentOf?_eq, IsDeeper]
  split <;> simp_all

/-- A line that ends a function is read like a line outside of all functions. -/
theorem nextIndentLine_some (span indent long : ℕ) (line : List Char) :
    nextIndentLine limit ⟨some (span, indent), long⟩ line =
      if endsFunction indent line then
        nextIndentLine limit ⟨none, FunctionScan.total ⟨some (span, indent), long⟩ limit⟩ line
      else ⟨some (span + 1, indent), long⟩ :=
  rfl

variable (limit lines) in
/-- What the scan has found before a line. -/
abbrev IndentScan : ℕ → FunctionScan ℕ → Prop :=
  BlockScan (DefinesAt lines) (IndentInside lines) (IndentOpen lines) (indentExtent lines) limit
    fun first _ => lineIndent (lineAt lines first)

/-- A line before which all functions have ended defines the next one, or there is none. -/
theorem IndentScan.restart
    (closed : ∀ first < position, DefinesAt lines first → ¬ IndentOpen lines first (position + 1)) :
    IndentScan limit lines (position + 1)
      (nextIndentLine limit
        ⟨none, endedLong (DefinesAt lines) (IndentInside lines) (IndentOpen lines)
          (indentExtent lines) limit (position + 1)⟩ (lineAt lines position)) := by
  simp only [nextIndentLine]
  by_cases defines : IsDefinitionLine (lineAt lines position)
  · rw [if_pos ((indentDefinition_matchesStart_iff _).mpr defines), indentOf?_eq,
      if_neg defines.not_isBlankLine, Option.getD_some]
    exact .fresh (nested_indents lines) closed defines
  · rw [if_neg (mt (indentDefinition_matchesStart_iff _).mp defines)]
    exact .idle closed defines

theorem IndentScan.next {state : FunctionScan ℕ} (inText : position < lines.length)
    (scan : IndentScan limit lines position state) :
    IndentScan limit lines (position + 1) (nextIndentLine limit state (lineAt lines position)) := by
  have nested := nested_indents lines
  cases scan with
  | outside closed =>
      rw [← nested.endedLong_succ_of_none closed]
      apply IndentScan.restart
      intro first before defines
      exact mt nested.isOpen_of_succ (closed first before defines)
  | @inside first last ordered outermost opened =>
      have before : first < last + 1 := Nat.lt_succ_of_le ordered
      rw [nextIndentLine_some]
      by_cases deeper : IsDeeper lines first (last + 1)
      · rw [if_neg (mt endsFunction_iff.mp (not_not.mpr deeper))]
        exact .grows nested ordered outermost ((indentOpen_succ before).mpr ⟨opened, deeper⟩)
      · have closed : ¬ IndentOpen lines first (last + 1 + 1) := by
          intro stillOpen
          exact deeper ((indentOpen_succ before).mp stillOpen).2
        rw [if_pos (endsFunction_iff.mpr deeper), FunctionScan.total_some,
          ← Nat.sub_add_comm ordered, ← indentExtent_of_ended before inText opened deeper,
          ← nested.endedLong_succ_of_ended outermost before opened closed]
        apply IndentScan.restart
        intro other otherBefore defines
        exact nested.not_isOpen_of_ended outermost before opened closed otherBefore defines

end Indents

/-- The functions that are counted are the outermost ones that take in more lines than the limit. -/
theorem countLongIndentFunctions_eq_card (source : List Char) (limit : ℤ) :
    countLongIndentFunctions source limit =
      ((Finset.range (splitLines source).length).filter fun first =>
        IsOutermost (DefinesAt (splitLines source)) (IndentInside (splitLines source)) first ∧
          limit < indentExtent (splitLines source) first).card := by
  have scan : IndentScan limit (splitLines source) (splitLines source).length
      ((splitLines source).foldl (nextIndentLine limit) ⟨none, 0⟩) :=
    foldl_lines_induction (IndentScan limit (splitLines source)) (.outside (by simp))
      fun _ _ inText scan => scan.next inText
  exact scan.total (nested_indents _) fun _ opened => indentExtent_of_isOpen opened

end Scorecard
