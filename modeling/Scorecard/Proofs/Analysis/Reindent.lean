import Scorecard.Proofs.Analysis.Append
import Scorecard.Proofs.Text.Indent

/-!
# Indented code

Code that is indented as a whole is the same code. The scanners that go line by line see every
column moved by the same amount: they compare columns with each other only, so their states move
along, and the rest of a state stays as it is. What is searched for in the whole text occurs as
often and means as much: blanks at the start of a line begin no occurrence, part no word and change
no declared letter.
-/

namespace Scorecard

variable {indent : List Char}

theorem IsIndent.isBlank {c : Char} (blanks : IsIndent indent) (mem : c ∈ indent) :
    isBlank c = true := by
  rcases blanks c mem with rfl | rfl <;> decide

/-- Scanners that move along with each line move along with the lines. -/
theorem foldl_indent {σ : Type} {next : σ → List Char → σ} (move : σ → σ)
    (moves : ∀ state line, next (move state) (indent ++ line) = move (next state line))
    (lines : List (List Char)) (state : σ) :
    (lines.map (indent ++ ·)).foldl next (move state) = move (lines.foldl next state) := by
  induction lines generalizing state with
  | nil => rfl
  | cons line lines ih => rw [List.map_cons, List.foldl_cons, moves, ih, List.foldl_cons]

section Columns

/-- Blanks before a line are added to its indent. -/
theorem indentOf?_indent (blanks : IsIndent indent) (line : List Char) :
    indentOf? (indent ++ line) = (indentOf? line).map (· + indent.length) := by
  simp only [indentOf?, List.takeWhile_append_of_pos fun _ mem => blanks.isBlank mem,
    List.length_append, Nat.add_left_cancel_iff]
  split
  · rfl
  · simp [Nat.add_comm]

/-- Steps that begin with a run of blanks pass over more blanks. -/
theorem Step.isSome_length?_indent (blanks : IsIndent indent) (steps : List Step)
    (line : List Char) :
    (length? (.blanks :: steps) (indent ++ line)).isSome =
      (length? (.blanks :: steps) line).isSome := by
  have passed : (Step.blanks.take? (indent ++ line)) =
      some (indent.length + (line.takeWhile Scorecard.isBlank).length) := by
    rw [Step.blanks, take?, List.takeWhile_append_of_pos fun _ mem => blanks.isBlank mem,
      List.length_append]
  rw [length?_cons, length?_cons, passed, Option.bind_some, List.drop_length_add_append]
  simp [Step.blanks, take?]

/-- The patterns for the start of a line begin with a run of blanks. -/
def Pattern.StartsBlank (pattern : Pattern) : Prop :=
  ∀ steps ∈ pattern, ∃ rest, steps = Step.blanks :: rest

theorem Pattern.matchesStart_indent {pattern : Pattern} (starts : pattern.StartsBlank)
    (blanks : IsIndent indent) (line : List Char) :
    pattern.matchesStart (indent ++ line) = pattern.matchesStart line := by
  rw [Bool.eq_iff_iff, matchesStart, matchesStart, length?, length?, List.findSome?_isSome_iff,
    List.findSome?_isSome_iff]
  apply exists_congr
  intro steps
  apply and_congr_right
  intro mem
  rcases starts steps mem with ⟨rest, rfl⟩
  rw [Step.isSome_length?_indent blanks]

theorem indentLoop_startsBlank : indentLoop.StartsBlank := by
  simp [Pattern.StartsBlank, indentLoop]

theorem indentDefinition_startsBlank : indentDefinition.StartsBlank := by
  simp [Pattern.StartsBlank, indentDefinition]

/-- A line with a definition has an indent. -/
theorem exists_indentOf?_of_definition {line : List Char}
    (defines : indentDefinition.matchesStart line = true) :
    ∃ column, indentOf? line = some column := by
  rw [← Option.ne_none_iff_exists']
  intro blank
  have whole : (line.takeWhile isBlank).length = line.length := by
    by_contra partly
    simp [indentOf?, partly] at blank
  -- The blanks take the whole line, and nothing is left for the word.
  have nothing : indentDefinition.matchesStart line =
      (Step.length? (Step.literal "def" ++ [.gap, .word, .blanks, .char '(']) []).isSome := by
    simp [indentDefinition, Pattern.matchesStart, Pattern.length?, Step.length?_cons, Step.blanks,
      Step.take?, whole]
  rw [nothing] at defines
  cases defines

end Columns

section Nesting

theorem BraceNesting.next_indent (blanks : IsIndent indent) (state : BraceNesting)
    (line : List Char) : state.next (indent ++ line) = state.next line := by
  have noBrace : '}' ∉ indent := by
    intro mem
    rcases blanks _ mem with impossible | impossible <;> cases impossible
  have brace : (indent ++ line).contains '}' = line.contains '}' := by
    rw [Bool.eq_iff_iff]
    simp [noBrace]
  simp only [next, brace, Pattern.occursIn_indent blanks (by decide : braceLoop.startsSolid = true)]

/-- The enclosing loops with their columns moved. -/
def IndentNesting.moved (columns : ℕ) (state : IndentNesting) : IndentNesting :=
  { state with enclosing := state.enclosing.map (· + columns) }

theorem IndentNesting.next_indent (blanks : IsIndent indent) (state : IndentNesting)
    (line : List Char) :
    (state.moved indent.length).next (indent ++ line) = (state.next line).moved indent.length := by
  simp only [next, indentOf?_indent blanks,
    Pattern.matchesStart_indent indentLoop_startsBlank blanks]
  cases indentOf? line with
  | none => rfl
  | some column =>
      have ended : ∀ enclosing : List ℕ,
          (enclosing.map (· + indent.length)).dropWhile (column + indent.length ≤ ·) =
            (enclosing.dropWhile (column ≤ ·)).map (· + indent.length) := by
        intro enclosing
        rw [List.dropWhile_map]
        simp only [Function.comp_def, Nat.add_le_add_iff_right]
      simp only [Option.map_some, moved, ended, List.length_map]
      split <;> rfl

theorem BlockLayout.nestingDepth_indentLines (blanks : IsIndent indent) (layout : BlockLayout)
    (source : List Char) :
    layout.nestingDepth (indentLines indent source) = layout.nestingDepth source := by
  cases layout with
  | braces signature =>
      have run := foldl_indent id (BraceNesting.next_indent blanks) (splitLines source) ⟨0, 0⟩
      simp only [nestingDepth, braceNestingDepth, splitLines_indentLines blanks]
      rw [id_eq] at run
      rw [run, id_eq]
  | indentation =>
      have run :=
        foldl_indent (IndentNesting.moved indent.length) (IndentNesting.next_indent blanks)
          (splitLines source) ⟨[], 0⟩
      simp only [nestingDepth, indentNestingDepth, splitLines_indentLines blanks]
      rw [IndentNesting.moved, List.map_nil] at run
      rw [run, IndentNesting.moved]

end Nesting

section LongFunctions

theorem braceDelta_indent (blanks : IsIndent indent) (line : List Char) :
    braceDelta (indent ++ line) = braceDelta line := by
  have absent : ∀ brace, brace ≠ ' ' → brace ≠ '\t' → indent.count brace = 0 := by
    intro brace notSpace notTab
    rw [List.count_eq_zero]
    intro mem
    rcases blanks brace mem with same | same
    · exact notSpace same
    · exact notTab same
  rw [braceDelta, braceDelta, List.count_append, List.count_append,
    absent '\x7b' (by decide) (by decide), absent '}' (by decide) (by decide), Nat.zero_add,
    Nat.zero_add]

theorem nextBraceLine_indent {signature : Pattern} (solid : signature.startsSolid = true)
    (blanks : IsIndent indent) (limit : ℤ) (state : FunctionScan ℤ) (line : List Char) :
    nextBraceLine signature limit state (indent ++ line) =
      nextBraceLine signature limit state line := by
  simp only [nextBraceLine, braceDelta_indent blanks, Pattern.occursIn_indent blanks solid]

namespace FunctionScan

/-- The open function with its column moved. -/
def moved (columns : ℕ) (state : FunctionScan ℕ) : FunctionScan ℕ :=
  { state with current := state.current.map fun (span, column) => (span, column + columns) }

theorem total_moved (columns : ℕ) (state : FunctionScan ℕ) (limit : ℤ) :
    (state.moved columns).total limit = state.total limit := by
  rcases state with ⟨_ | function, long⟩ <;> rfl

end FunctionScan

theorem endsFunction_indent (blanks : IsIndent indent) (column : ℕ) (line : List Char) :
    endsFunction (column + indent.length) (indent ++ line) = endsFunction column line := by
  rw [endsFunction, endsFunction, indentOf?_indent blanks]
  cases indentOf? line with
  | none => rfl
  | some lineIndent => simp

theorem nextIndentLine_indent (blanks : IsIndent indent) (limit : ℤ) (state : FunctionScan ℕ)
    (line : List Char) :
    nextIndentLine limit (state.moved indent.length) (indent ++ line) =
      (nextIndentLine limit state line).moved indent.length := by
  have starts := Pattern.matchesStart_indent indentDefinition_startsBlank blanks line
  -- A definition stands in its column, which moves; no other line is asked for one.
  have column : indentDefinition.matchesStart line = true →
      (indentOf? (indent ++ line)).getD 0 = (indentOf? line).getD 0 + indent.length := by
    intro defines
    rcases exists_indentOf?_of_definition defines with ⟨column, found⟩
    rw [indentOf?_indent blanks, found]
    rfl
  rcases state with ⟨_ | ⟨span, open_⟩, long⟩
  · simp only [nextIndentLine, FunctionScan.moved, Option.map_none, starts]
    split
    · next defines => simp [column defines]
    · rfl
  · have total := FunctionScan.total_moved indent.length ⟨some (span, open_), long⟩ limit
    simp only [FunctionScan.moved, Option.map_some] at total
    simp only [nextIndentLine, FunctionScan.moved, Option.map_some, starts,
      endsFunction_indent blanks, total]
    split
    · split
      · next defines => simp [column defines]
      · rfl
    · rfl

/-- Whether a layout finds no signature that starts with a blank. -/
def BlockLayout.startsSolid : BlockLayout → Bool
  | .braces signature => signature.startsSolid
  | .indentation => true

theorem BlockLayout.countLongFunctions_indentLines (blanks : IsIndent indent) {layout : BlockLayout}
    (solid : layout.startsSolid = true) (source : List Char) (limit : ℤ) :
    layout.countLongFunctions (indentLines indent source) limit =
      layout.countLongFunctions source limit := by
  cases layout with
  | braces signature =>
      have run := foldl_indent id (nextBraceLine_indent solid blanks limit) (splitLines source)
        ⟨none, 0⟩
      simp only [countLongFunctions, countLongBraceFunctions, splitLines_indentLines blanks]
      rw [id_eq] at run
      rw [run, id_eq]
  | indentation =>
      have run :=
        foldl_indent (FunctionScan.moved indent.length) (nextIndentLine_indent blanks limit)
          (splitLines source) ⟨none, 0⟩
      simp only [countLongFunctions, countLongIndentFunctions, splitLines_indentLines blanks]
      rw [FunctionScan.moved, Option.map_none] at run
      rw [run, FunctionScan.total_moved]

end LongFunctions

section Probes

/-- Whether a probe can be moved: its pattern can, or the first of its texts starts with no
blank. -/
def Probe.isMovable : Probe → Bool
  | .pattern shape => shape.isMovable
  | .ordered tokens =>
      tokens.head?.any fun token => token.toList.head?.any fun c => c != ' ' && c != '\t'

theorem dropThrough?_indent {expected : Char} (solid : expected ≠ ' ' ∧ expected ≠ '\t')
    (blanks : IsIndent indent) (piece line : List Char) :
    dropThrough? (expected :: piece) (indent ++ line) = dropThrough? (expected :: piece) line := by
  induction indent with
  | nil => rfl
  | cons c indent ih =>
      have different : expected ≠ c := by
        rcases blanks c List.mem_cons_self with rfl | rfl
        · exact solid.1
        · exact solid.2
      rw [List.cons_append, dropThrough?, dropStart?, if_neg different]
      exact ih fun c mem => blanks c (List.mem_cons_of_mem _ mem)

theorem holdsInOrder_indent {tokens : List String}
    (movable : (Probe.ordered tokens).isMovable = true) (blanks : IsIndent indent)
    (line : List Char) : holdsInOrder tokens (indent ++ line) = holdsInOrder tokens line := by
  cases tokens with
  | nil => cases movable
  | cons token tokens =>
      cases shape : token.toList with
      | nil => simp [Probe.isMovable, shape] at movable
      | cons expected piece =>
          have solid : expected ≠ ' ' ∧ expected ≠ '\t' := by
            simpa [Probe.isMovable, shape] using movable
          rw [holdsInOrder, holdsInOrder, shape, dropThrough?_indent solid blanks]

theorem Probe.fires_indentLines (blanks : IsIndent indent) {probe : Probe}
    (movable : probe.isMovable = true) (source : List Char) :
    probe.fires (indentLines indent source) = probe.fires source := by
  cases probe with
  | pattern shape => exact Pattern.occursIn_indentLines blanks movable source
  | ordered tokens =>
      simp only [fires, orderedTokensFire, splitLines_indentLines blanks, List.any_map,
        Function.comp_def, holdsInOrder_indent movable blanks]

theorem countFiring_indentLines (blanks : IsIndent indent) {probes : List Probe}
    (movable : ∀ probe ∈ probes, probe.isMovable = true) (source : List Char) :
    countFiring probes (indentLines indent source) = countFiring probes source :=
  countFiring_congr fun probe mem => Probe.fires_indentLines blanks (movable probe mem) source

end Probes

section Naming

theorem dropStart?_spread {word : List Char} (oneLine : '\n' ∉ word) (text : List Char) :
    dropStart? word (spread indent text) = (dropStart? word text).map (spread indent) := by
  induction word generalizing text with
  | nil => rfl
  | cons expected word ih =>
      rw [List.mem_cons, not_or] at oneLine
      cases text with
      | nil => rfl
      | cons c rest =>
          by_cases newline : c = '\n'
          · subst newline
            simp [dropStart?, Ne.symm oneLine.1]
          · rw [spread_cons newline, dropStart?, dropStart?]
            split
            · exact ih oneLine.2 rest
            · rfl

theorem head?_spread (text : List Char) : (spread indent text).head? = text.head? := by
  cases text with
  | nil => rfl
  | cons c rest => by_cases newline : c = '\n' <;> simp [newline, spread_cons]

theorem startsWithWord_spread {word : List Char} (oneLine : '\n' ∉ word) (text : List Char) :
    startsWithWord word (spread indent text) = startsWithWord word text := by
  rw [startsWithWord, startsWithWord, dropStart?_spread oneLine]
  cases dropStart? word text with
  | none => rfl
  | some after => simp [head?_spread]

/-- A text of word characters, at least one. -/
def IsWord (word : List Char) : Prop :=
  word ≠ [] ∧ word.all isWord = true

theorem IsWord.not_startsWithWord {word : List Char} (proper : IsWord word) {c : Char}
    (separate : isWord c = false) (rest : List Char) : startsWithWord word (c :: rest) = false := by
  cases word with
  | nil => exact absurd rfl proper.1
  | cons expected word =>
      have different : expected ≠ c := by
        rintro rfl
        have inWord := List.all_eq_true.mp proper.2 expected List.mem_cons_self
        rw [separate] at inWord
        cases inWord
      simp [startsWithWord, dropStart?, different]

theorem IsWord.newline_notMem {word : List Char} (proper : IsWord word) : '\n' ∉ word := by
  intro mem
  have inWord := List.all_eq_true.mp proper.2 '\n' mem
  revert inWord
  decide

/-- Blanks start no word. -/
theorem countWord_indent {word : List Char} (proper : IsWord word) (blanks : IsIndent indent)
    (text : List Char) : countWord word false (indent ++ text) = countWord word false text := by
  induction indent with
  | nil => rfl
  | cons c indent ih =>
      have separate : isWord c = false := by
        rcases blanks c List.mem_cons_self with rfl | rfl <;> decide
      have rest := ih fun c mem => blanks c (List.mem_cons_of_mem _ mem)
      simp [countWord, proper.not_startsWithWord separate, separate, rest]

theorem countWord_spread {word : List Char} (proper : IsWord word) (blanks : IsIndent indent)
    (afterWord : Bool) (text : List Char) :
    countWord word afterWord (spread indent text) = countWord word afterWord text := by
  induction text generalizing afterWord with
  | nil => rfl
  | cons c rest ih =>
      have starts := @startsWithWord_spread indent _ proper.newline_notMem (c :: rest)
      by_cases newline : c = '\n'
      · subst newline
        have separate : isWord '\n' = false := by decide
        rw [spread_newline] at starts ⊢
        rw [countWord, countWord, starts, separate, countWord_indent proper blanks, ih]
      · rw [spread_cons newline] at starts ⊢
        rw [countWord, countWord, starts, ih]

theorem countWord_indentLines {word : List Char} (proper : IsWord word) (blanks : IsIndent indent)
    (source : List Char) :
    countWord word false (indentLines indent source) = countWord word false source := by
  rw [indentLines_eq, countWord_indent proper blanks, countWord_spread proper blanks]

theorem genericNames_isWord : ∀ name ∈ genericNames, IsWord name.toList := by
  simp only [IsWord]
  decide

/-- The last character that is no blank. -/
def lastSolid? (text : List Char) : Option Char :=
  (text.reverse.dropWhile isBlank).head?

theorem lastSolid?_append_blank {text blankText : List Char}
    (blank : ∀ c ∈ blankText, isBlank c = true) :
    lastSolid? (text ++ blankText) = lastSolid? text := by
  rw [lastSolid?, lastSolid?, List.reverse_append, List.dropWhile_append_of_pos]
  intro c mem
  exact blank c (List.mem_reverse.mp mem)

theorem lastSolid?_spread (blanks : IsIndent indent) (text : List Char) :
    lastSolid? (spread indent text) = lastSolid? text := by
  induction text using List.reverseRecOn with
  | nil => rfl
  | append_singleton text c ih =>
      rw [spread_append]
      cases blank : isBlank c with
      | true =>
          have here : ∀ d ∈ spread indent [c], isBlank d = true := by
            by_cases newline : c = '\n'
            · subst newline
              simp only [spread_newline, spread_nil, List.append_nil, List.forall_mem_cons]
              exact ⟨blank, fun _ mem => blanks.isBlank mem⟩
            · simp [spread_cons newline, blank]
          rw [lastSolid?_append_blank here, ih, lastSolid?_append_blank (by simp [blank])]
      | false =>
          have inLine : c ≠ '\n' := by
            rintro rfl
            revert blank
            decide
          simp [spread_cons inLine, lastSolid?, blank]

theorem declaredLetter?_append (text : List Char) (c : Char) :
    declaredLetter? (text ++ [c]) = lastSolid? text := by
  simp [declaredLetter?, lastSolid?]

/-- The letter stands before the last character. If that is a line feed, blanks may follow it, and
the letter stands before them as well. -/
theorem declaredLetter?_spread (blanks : IsIndent indent) (declaration : List Char) :
    declaredLetter? (spread indent declaration) = declaredLetter? declaration := by
  rcases List.eq_nil_or_concat' declaration with rfl | ⟨text, c, rfl⟩
  · rfl
  · rw [spread_append, declaredLetter?_append]
    by_cases newline : c = '\n'
    · subst newline
      rcases List.eq_nil_or_concat' ('\n' :: indent) with impossible | ⟨front, last, shape⟩
      · cases impossible
      · have blank : ∀ d ∈ front, isBlank d = true := by
          intro d mem
          have either : d = '\n' ∨ d ∈ indent := by
            rw [← List.mem_cons, shape]
            exact List.mem_append_left _ mem
          rcases either with rfl | mem
          · decide
          · exact blanks.isBlank mem
        rw [spread_newline, spread_nil, List.append_nil, shape, ← List.append_assoc,
          declaredLetter?_append, lastSolid?_append_blank blank, lastSolid?_spread blanks]
    · rw [spread_cons newline, spread_nil, declaredLetter?_append, lastSolid?_spread blanks]

theorem countPoorNaming_indentLines (blanks : IsIndent indent) (source : List Char) :
    countPoorNaming (indentLines indent source) = countPoorNaming source := by
  have overused : overusedNames (indentLines indent source) = overusedNames source := by
    apply List.filter_congr
    intro name mem
    rw [countWord_indentLines (genericNames_isWord name mem) blanks]
  have poor : ∀ declaration,
      isPoorDeclaration (spread indent declaration) = isPoorDeclaration declaration := by
    intro declaration
    rw [isPoorDeclaration, isPoorDeclaration, declaredLetter?_spread blanks]
  have declarations := Pattern.occurrences_indentLines blanks
    (by decide : singleLetterDeclaration.isMovable = true) source
  rw [countPoorNaming, countPoorNaming, overused, declarations, List.filter_map, List.length_map]
  simp only [Function.comp_def, poor]

end Naming

theorem missingErrorHandling_indentLines (blanks : IsIndent indent) {handling : ErrorHandling}
    (movable : ∀ pattern ∈ handling.patterns, pattern.isMovable = true) (source : List Char) :
    missingErrorHandling (indentLines indent source) handling =
      missingErrorHandling source handling :=
  missingErrorHandling_congr fun pattern mem =>
    Pattern.count_indentLines blanks (movable pattern mem) source

namespace Family

theorem patterns_movable (family : Family) :
    family.rules.consoleLog.isMovable = true ∧ family.rules.layout.startsSolid = true ∧
      (∀ probe ∈ family.rules.securityProbes, probe.isMovable = true) ∧
      ∀ pattern ∈ family.rules.errorHandling.patterns, pattern.isMovable = true := by
  cases family <;> decide

/-- Code that is indented as a whole by spaces and tabs has the metrics that it had. -/
theorem analyze_indentLines (family : Family) (blanks : IsIndent indent) (source : List Char) :
    family.rules.analyze (indentLines indent source) = family.rules.analyze source := by
  rcases family.patterns_movable with ⟨consoleLog, layout, probes, handling⟩
  simp only [Rules.analyze, BlockLayout.nestingDepth_indentLines blanks,
    Pattern.count_indentLines blanks consoleLog,
    BlockLayout.countLongFunctions_indentLines blanks layout, countFiring_indentLines blanks probes,
    countPoorNaming_indentLines blanks, missingErrorHandling_indentLines blanks handling]

/-- Nested loops, a blank line and a call over two lines, all further to the right. -/
theorem analyze_indentLines_loops :
    python.rules.analyze (indentLines " \t ".toList
        "for a in b:\n  for c in a:\n    while c :\n\n      print\n(temp)".toList) =
      python.rules.analyze
        "for a in b:\n  for c in a:\n    while c :\n\n      print\n(temp)".toList :=
  analyze_indentLines python (by simp [IsIndent]) _

end Family

end Scorecard
