import Scorecard.Proofs.Analysis.FinalNewline
import Scorecard.Proofs.Analysis.Reindent
import Scorecard.Proofs.Analysis.Warnings
import Scorecard.Proofs.Text.LineEnds
import Scorecard.Proofs.Text.Pattern

/-!
# Files and their octets

A file is read with line feeds for all line ends, its octets are taken as they are, and the scanners
cut lines at line feeds only. What is searched for in the whole text does not see the difference.
What is read off line by line does: lone carriage returns part lines in the file and none in the
octets. Where every carriage return stands before a line feed, the lines are the same but for the
carriage return at their end, and only the head of a loop can need it: the word of a loop is one
only before a blank.
-/

namespace Scorecard

section WholeText

variable {source : List Char}

theorem dropStart?_universalNewlines {word : List Char} (noLine : '\n' ∉ word)
    (noReturn : '\r' ∉ word) (text : List Char) :
    dropStart? word (universalNewlines text) = (dropStart? word text).map universalNewlines := by
  induction word generalizing text with
  | nil => rfl
  | cons expected word ih =>
      rw [List.mem_cons, not_or] at noLine noReturn
      cases text using lineEnd_induction with
      | nil => rfl
      | pair rest _ => simp [dropStart?, Ne.symm noLine.1, Ne.symm noReturn.1]
      | lone rest lone _ =>
          simp [dropStart?, universalNewlines_lone lone, Ne.symm noLine.1, Ne.symm noReturn.1]
      | other c rest inLine _ =>
          rw [universalNewlines_cons inLine, dropStart?, dropStart?]
          split
          · exact ih noLine.2 noReturn.2 rest
          · rfl

theorem IsWord.return_notMem {word : List Char} (proper : IsWord word) : '\r' ∉ word := by
  intro mem
  have inWord := List.all_eq_true.mp proper.2 '\r' mem
  revert inWord
  decide

theorem startsWithWord_universalNewlines {word : List Char} (proper : IsWord word)
    (text : List Char) :
    startsWithWord word (universalNewlines text) = startsWithWord word text := by
  have line : isWord '\n' = false := by decide
  have carriage : isWord '\r' = false := by decide
  rw [startsWithWord, startsWithWord,
    dropStart?_universalNewlines proper.newline_notMem proper.return_notMem]
  cases dropStart? word text with
  | none => rfl
  | some after =>
      cases after using lineEnd_induction with
      | nil => rfl
      | pair rest _ => simp [line, carriage]
      | lone rest lone _ => simp [universalNewlines_lone lone, line, carriage]
      | other c rest inLine _ => simp [universalNewlines_cons inLine]

theorem countWord_universalNewlines {word : List Char} (proper : IsWord word) (afterWord : Bool)
    (text : List Char) :
    countWord word afterWord (universalNewlines text) = countWord word afterWord text := by
  have line : isWord '\n' = false := by decide
  have carriage : isWord '\r' = false := by decide
  induction text using lineEnd_induction generalizing afterWord with
  | nil => rfl
  | pair rest ih =>
      simp [countWord, proper.not_startsWithWord line, proper.not_startsWithWord carriage, line,
        carriage, ih]
  | lone rest lone ih =>
      simp [countWord, universalNewlines_lone lone, proper.not_startsWithWord line,
        proper.not_startsWithWord carriage, line, carriage, ih]
  | other c rest inLine ih =>
      have starts := startsWithWord_universalNewlines proper (c :: rest)
      rw [universalNewlines_cons inLine] at starts ⊢
      rw [countWord, countWord, starts, ih]

theorem lastSolid?_eq (text : List Char) : lastSolid? text = (solidOf text).getLast? := by
  rw [lastSolid?, solidOf, ← List.head?_reverse, ← List.filter_reverse, List.head?_filter,
    List.find?_eq_head?_dropWhile_not]
  simp only [Bool.not_not]

/-- The letter of a declaration shows in its characters that are not blank. -/
theorem declaredLetter?_eq (front : List Char) :
    declaredLetter? (front ++ ['=']) = (solidOf (front ++ ['='])).dropLast.getLast? := by
  have solid : isBlank '=' = false := by decide
  have last : solidOf ['='] = ['='] := by simp [solidOf, solid]
  rw [declaredLetter?_append, lastSolid?_eq, solidOf_append, last, List.dropLast_concat]

theorem countPoorNaming_universalNewlines (source : List Char) :
    countPoorNaming (universalNewlines source) = countPoorNaming source := by
  have overused : overusedNames (universalNewlines source) = overusedNames source := by
    apply List.filter_congr
    intro name mem
    rw [countWord_universalNewlines (genericNames_isWord name mem)]
  have poor : ∀ text, ∀ declaration ∈ singleLetterDeclaration.occurrences text,
      isPoorDeclaration declaration =
        (solidOf declaration).dropLast.getLast?.any fun letter =>
          !loopCounters.contains letter := by
    intro text declaration mem
    rcases singleLetterDeclaration_closed.exists_of_mem_occurrencesAfter mem with ⟨front, rfl⟩
    rw [isPoorDeclaration, declaredLetter?_eq]
    cases (solidOf (front ++ ['='])).dropLast.getLast? <;> rfl
  have counted :
      ∀ text, ((singleLetterDeclaration.occurrences text).filter isPoorDeclaration).length =
        ((singleLetterDeclaration.occurrences text).map solidOf).countP fun solid =>
        solid.dropLast.getLast?.any fun letter => !loopCounters.contains letter := by
    intro text
    rw [← List.countP_eq_length_filter, List.countP_map]
    apply List.countP_congr
    intro declaration mem
    rw [poor text declaration mem]
    rfl
  have declarations := Pattern.map_solidOf_occurrences
    (by decide : singleLetterDeclaration.isBlind = true) (by decide) (by decide) source
  rw [countPoorNaming, countPoorNaming, overused, counted, counted, declarations]

theorem missingErrorHandling_universalNewlines {handling : ErrorHandling}
    (blind : ∀ pattern ∈ handling.patterns, pattern.isBlind = true)
    (solid : ∀ pattern ∈ handling.patterns, pattern.startsSolid = true)
    (ends : ∀ pattern ∈ handling.patterns, pattern.endsWithMark = true) (source : List Char) :
    missingErrorHandling (universalNewlines source) handling =
      missingErrorHandling source handling :=
  missingErrorHandling_congr fun pattern mem =>
    Pattern.count_universalNewlines (blind pattern mem) (solid pattern mem)
      (ends pattern mem) source

end WholeText

section Lines

theorem Pattern.matchesStart_append_return {pattern : Pattern} (blind : pattern.isBlind = true)
    (ends : pattern.endsWithMark = true) {line : List Char} (noReturn : '\r' ∉ line) :
    pattern.matchesStart (line ++ ['\r']) = pattern.matchesStart line := by
  rw [← matchesStart_universalNewlines blind, universalNewlines_append_return noReturn,
    matchesStart_append_newline ends]

theorem Pattern.occursIn_append_return {pattern : Pattern} (blind : pattern.isBlind = true)
    (solid : pattern.startsSolid = true) (ends : pattern.endsWithMark = true) {line : List Char}
    (noReturn : '\r' ∉ line) : pattern.occursIn (line ++ ['\r']) = pattern.occursIn line := by
  rw [← occursIn_universalNewlines blind solid, universalNewlines_append_return noReturn,
    occursIn_append_newline ends]

/-- A carriage return at the end is a blank behind the indent. -/
theorem indentOf?_append_return (line : List Char) :
    indentOf? (line ++ ['\r']) = indentOf? line := by
  have blank : isBlank '\r' = true := by decide
  have inside := (List.takeWhile_prefix isBlank (l := line)).length_le
  simp only [indentOf?, List.takeWhile_append, List.length_append, List.length_singleton]
  split
  · simp [blank]
  · rw [if_neg]
    omega

theorem braceDelta_append_return (line : List Char) :
    braceDelta (line ++ ['\r']) = braceDelta line := by
  simp [braceDelta]

theorem dropThrough?_append_return {piece : List Char} (noReturn : '\r' ∉ piece)
    (line : List Char) :
    dropThrough? piece (line ++ ['\r']) = (dropThrough? piece line).map (· ++ ['\r']) := by
  induction line with
  | nil =>
      have starts := dropStart?_append_cons noReturn [] []
      rw [List.nil_append] at starts ⊢
      rw [dropThrough?, dropThrough?, dropThrough?, starts]
      cases found : dropStart? piece [] with
      | none => rfl
      | some after => rfl
  | cons c line ih =>
      have starts := dropStart?_append_cons noReturn (c :: line) []
      rw [List.cons_append] at starts ⊢
      rw [dropThrough?, dropThrough?, starts]
      cases dropStart? piece (c :: line) with
      | none => exact ih
      | some after => rfl

theorem holdsInOrder_append_return {tokens : List String}
    (noReturn : ∀ token ∈ tokens, '\r' ∉ token.toList) (line : List Char) :
    holdsInOrder tokens (line ++ ['\r']) = holdsInOrder tokens line := by
  induction tokens generalizing line with
  | nil => rfl
  | cons token tokens ih =>
      rw [List.forall_mem_cons] at noReturn
      rw [holdsInOrder, holdsInOrder, dropThrough?_append_return noReturn.1]
      cases dropThrough? token.toList line with
      | none => rfl
      | some after => exact ih noReturn.2 after

end Lines

namespace Probe

/-- Whether what a probe looks for tells no line ends apart. -/
def isBlind : Probe → Bool
  | .pattern shape => shape.isBlind && shape.startsSolid
  | .ordered tokens => tokens.all fun token => !token.toList.contains '\r'

/-- Whether a probe goes line by line. -/
def readsLines : Probe → Bool
  | .pattern _ => false
  | .ordered _ => true

theorem fires_universalNewlines {probe : Probe} (blind : probe.isBlind = true) {source : List Char}
    (cut : probe.readsLines = true → WholeLineEnds source) :
    probe.fires (universalNewlines source) = probe.fires source := by
  cases probe with
  | pattern shape =>
      rw [isBlind, Bool.and_eq_true] at blind
      exact Pattern.occursIn_universalNewlines blind.1 blind.2 source
  | ordered tokens =>
      have noReturn : ∀ token ∈ tokens, '\r' ∉ token.toList := by
        simpa [isBlind] using blind
      have whole := cut rfl
      exact whole.any_universalNewlines fun body _ _ => holdsInOrder_append_return noReturn body

end Probe

theorem countFiring_universalNewlines {probes : List Probe}
    (blind : ∀ probe ∈ probes, probe.isBlind = true) {source : List Char}
    (cut : (∃ probe ∈ probes, probe.readsLines = true) → WholeLineEnds source) :
    countFiring probes (universalNewlines source) = countFiring probes source :=
  countFiring_congr fun probe mem =>
    probe.fires_universalNewlines (blind probe mem) fun reads => cut ⟨probe, mem, reads⟩

section Nesting

theorem BraceNesting.next_append_return {line : List Char} (noReturn : '\r' ∉ line)
    (state : BraceNesting) : state.next (line ++ ['\r']) = state.next line := by
  have loops :=
    Pattern.occursIn_append_return (by decide : braceLoop.isBlind = true) (by decide)
      (by decide) noReturn
  simp [next, loops]

/-- Whether a line starts, behind its indent, with a word and a blank. -/
def startsWithHead (word : String) (line : List Char) : Bool :=
  (dropStart? word.toList (line.dropWhile isBlank)).any fun after => after.head?.any isBlank

theorem Step.isSome_length?_head (word text : List Char) :
    (length? ((word.map fun expected => Step.one (· == expected)) ++ [Step.gap]) text).isSome =
      (dropStart? word text).any fun after => after.head?.any isBlank := by
  induction word generalizing text with
  | nil =>
      cases text with
      | nil => rfl
      | cons c rest => cases blank : isBlank c <;> simp [length?, gap, dropStart?, blank]
  | cons expected word ih =>
      cases text with
      | nil => rfl
      | cons c rest =>
          by_cases same : expected = c
          · simp [length?, dropStart?, same, ← ih]
          · simp [length?, dropStart?, same, Ne.symm same]

theorem Pattern.matchesStart_cons (steps : List Step) (pattern : Pattern) (text : List Char) :
    matchesStart (steps :: pattern) text =
      ((Step.length? steps text).isSome || matchesStart pattern text) := by
  rw [matchesStart, matchesStart, length?, length?, List.findSome?_cons]
  cases Step.length? steps text <;> rfl

theorem indentLoop_matchesStart (line : List Char) :
    indentLoop.matchesStart line = (startsWithHead "for" line || startsWithHead "while" line) := by
  have head : ∀ word, (Step.length? ([.blanks] ++ Step.literal word ++ [.gap]) line).isSome =
      startsWithHead word line := by
    intro word
    rw [List.append_assoc, List.singleton_append, Step.length?_cons, Step.blanks, Step.take?,
      Option.bind_some, Step.drop_length_takeWhile, Option.isSome_map, Step.literal,
      Step.isSome_length?_head, startsWithHead]
  rw [indentLoop, Pattern.matchesStart_cons, Pattern.matchesStart_cons, head, head]
  exact congrArg _ (Bool.or_false _)

/-- A line that holds, behind its indent, nothing but the word of a loop and a carriage return. -/
def IsBareLoop (line : List Char) : Prop :=
  line.dropWhile isBlank ∈ ["for\r".toList, "while\r".toList]

instance : DecidablePred IsBareLoop := fun _ =>
  inferInstanceAs (Decidable (_ ∈ _))

theorem startsWithHead_append_return {word : String} (loops : word ∈ ["for", "while"])
    {line : List Char} (notBare : ¬ IsBareLoop (line ++ ['\r'])) :
    startsWithHead word (line ++ ['\r']) = startsWithHead word line := by
  have noReturn : ∀ word ∈ ["for", "while"], '\r' ∉ String.toList word := by decide
  have bare : ∀ word ∈ ["for", "while"],
      String.toList word ++ ['\r'] ∈ ["for\r".toList, "while\r".toList] := by decide
  have blank : isBlank '\r' = true := by decide
  rw [IsBareLoop, List.dropWhile_append] at notBare
  rw [startsWithHead, startsWithHead, List.dropWhile_append]
  split
  · next whole =>
      rw [List.isEmpty_iff] at whole
      simp [whole, blank]
  · next partly =>
      rw [if_neg partly] at notBare
      rw [dropStart?_append_cons (noReturn word loops)]
      cases found : dropStart? word.toList (line.dropWhile isBlank) with
      | none => rfl
      | some after =>
          cases after with
          | nil =>
              -- Only the carriage return stands behind the word.
              rw [(dropStart?_eq_some_iff _ _ _).mp found, List.append_nil] at notBare
              exact absurd (bare word loops) notBare
          | cons c after => rfl

theorem IndentNesting.next_append_return {line : List Char}
    (notBare : ¬ IsBareLoop (line ++ ['\r'])) (state : IndentNesting) :
    state.next (line ++ ['\r']) = state.next line := by
  have loops : indentLoop.matchesStart (line ++ ['\r']) = indentLoop.matchesStart line := by
    rw [indentLoop_matchesStart, indentLoop_matchesStart,
      startsWithHead_append_return (by simp) notBare,
      startsWithHead_append_return (by simp) notBare]
  simp only [next, indentOf?_append_return, loops]

end Nesting

section LongFunctions

theorem nextBraceLine_append_return {signature : Pattern} (blind : signature.isBlind = true)
    (solid : signature.startsSolid = true) (ends : signature.endsWithMark = true) {line : List Char}
    (noReturn : '\r' ∉ line) (limit : ℤ) (state : FunctionScan ℤ) :
    nextBraceLine signature limit state (line ++ ['\r']) =
      nextBraceLine signature limit state line := by
  simp only [nextBraceLine, braceDelta_append_return,
    Pattern.occursIn_append_return blind solid ends noReturn]

theorem nextIndentLine_append_return {line : List Char} (noReturn : '\r' ∉ line) (limit : ℤ)
    (state : FunctionScan ℕ) :
    nextIndentLine limit state (line ++ ['\r']) = nextIndentLine limit state line := by
  have defines :=
    Pattern.matchesStart_append_return (by decide : indentDefinition.isBlind = true)
      (by decide) noReturn
  simp only [nextIndentLine, endsFunction, indentOf?_append_return, defines]

end LongFunctions

namespace BlockLayout

/-- Whether a signature tells no line ends apart. -/
def isBlind : BlockLayout → Bool
  | .braces signature => signature.isBlind
  | .indentation => true

theorem nestingDepth_universalNewlines {layout : BlockLayout} {source : List Char}
    (whole : WholeLineEnds source)
    (noBare : layout = .indentation → ∀ line ∈ splitLines source, ¬ IsBareLoop line) :
    layout.nestingDepth (universalNewlines source) = layout.nestingDepth source := by
  cases layout with
  | braces signature =>
      rw [nestingDepth, nestingDepth, braceNestingDepth, braceNestingDepth,
        whole.foldl_universalNewlines fun _ _ noReturn => BraceNesting.next_append_return noReturn]
  | indentation =>
      rw [nestingDepth, nestingDepth, indentNestingDepth, indentNestingDepth,
        whole.foldl_universalNewlines fun _ mem _ =>
          IndentNesting.next_append_return (noBare rfl _ mem)]

theorem countLongFunctions_universalNewlines {layout : BlockLayout} (blind : layout.isBlind = true)
    (solid : layout.startsSolid = true) (needs : layout.needsText = true) {source : List Char}
    (whole : WholeLineEnds source) (limit : ℤ) :
    layout.countLongFunctions (universalNewlines source) limit =
      layout.countLongFunctions source limit := by
  cases layout with
  | braces signature =>
      rw [countLongFunctions, countLongFunctions, countLongBraceFunctions, countLongBraceFunctions,
        whole.foldl_universalNewlines fun _ _ noReturn =>
          nextBraceLine_append_return blind solid needs noReturn limit]
  | indentation =>
      rw [countLongFunctions, countLongFunctions, countLongIndentFunctions,
        countLongIndentFunctions, whole.foldl_universalNewlines fun _ _ noReturn =>
          nextIndentLine_append_return noReturn limit]

end BlockLayout

namespace Family

theorem patterns_blind (family : Family) :
    (family.rules.consoleLog.isBlind = true ∧ family.rules.consoleLog.startsSolid = true) ∧
      family.rules.layout.isBlind = true ∧
      (∀ probe ∈ family.rules.securityProbes, probe.isBlind = true) ∧
      ∀ pattern ∈ family.rules.errorHandling.patterns, pattern.isBlind = true ∧
        pattern.startsSolid = true := by
  cases family <;> decide

theorem eq_js_of_readsLines {family : Family}
    (reads : ∃ probe ∈ family.rules.securityProbes, probe.readsLines = true) : family = .js := by
  revert reads
  cases family <;> decide

theorem eq_python_of_indentation {family : Family} (layout : family.rules.layout = .indentation) :
    family = .python := by
  cases family with
  | python => rfl
  | js => simp [rules, Rules.js] at layout
  | cpp => simp [rules, Rules.cpp] at layout

end Family

/-- How the metrics of a text with line feeds for its line ends agree with those of the text as it
is. What is searched for in the whole text counts the same. What is read off line by line does if
all line ends are whole; then only a bare loop can make a difference, and only where blocks are laid
out by indentation. -/
structure LineEndsAgree (family : Family) (source : List Char) (unified plain : Metrics) :
    Prop where
  consoleLogs : unified.consoleLogs = plain.consoleLogs
  poorNaming : unified.poorNaming = plain.poorNaming
  missingErrorHandling : unified.missingErrorHandling = plain.missingErrorHandling
  securityRisks :
    (family = .js → WholeLineEnds source) → unified.securityRisks = plain.securityRisks
  longFunctions : WholeLineEnds source → unified.longFunctions = plain.longFunctions
  nestedLoops : WholeLineEnds source →
    (family = .python → ∀ line ∈ splitLines source, ¬ IsBareLoop line) →
      unified.nestedLoops = plain.nestedLoops

theorem Family.analyze_universalNewlines (family : Family) (source : List Char) :
    LineEndsAgree family source (family.rules.analyze (universalNewlines source))
      (family.rules.analyze source) := by
  rcases family.patterns_blind with
    ⟨⟨consoleBlind, consoleSolid⟩, layoutBlind, probesBlind, handling⟩
  rcases family.patterns_movable with ⟨_, layoutSolid, _, _⟩
  rcases family.patterns_endWithMark with ⟨consoleEnds, layoutNeeds, handlingEnds⟩
  constructor
  · exact congrArg Nat.cast
      (Pattern.count_universalNewlines consoleBlind consoleSolid consoleEnds source)
  · exact congrArg Nat.cast (countPoorNaming_universalNewlines source)
  · exact congrArg Nat.cast
      (missingErrorHandling_universalNewlines (fun pattern mem => (handling pattern mem).1)
        (fun pattern mem => (handling pattern mem).2) handlingEnds source)
  · intro cut
    exact congrArg Nat.cast (countFiring_universalNewlines probesBlind fun reads =>
      cut (eq_js_of_readsLines reads))
  · intro whole
    exact congrArg Nat.cast
      (BlockLayout.countLongFunctions_universalNewlines layoutBlind layoutSolid layoutNeeds whole
        functionLineLimit)
  · intro whole noBare
    exact congrArg Nat.cast (BlockLayout.nestingDepth_universalNewlines whole fun layout =>
      noBare (eq_python_of_indentation layout))

theorem exists_familyOf_text (language : String) (routes : Routes) :
    ∃ family name, Language.familyOf (.text language) routes = .ok family ∧
      unroutedName (.text language) = .ok name := by
  rw [Language.familyOf, unroutedName, Language.nameText]
  split
  · exact ⟨_, _, rfl, rfl⟩
  · exact ⟨_, _, rfl, rfl⟩

/-- What a call answers if its code has a text and its language a name, and its journal. -/
theorem runOn_analyze {code language : Data} {routes : Routes} {text : List Char}
    {family : Option Family} {name : String} (read : codeText code = .ok text)
    (routed : Language.familyOf language routes = .ok family)
    (named : unroutedName language = .ok name) (journal : Journal) :
    (analyze code language routes).runOn journal =
      family.elim (.ok .zero, journal.warnUnrouted name)
        fun used => (.ok (used.rules.analyze text), journal) := by
  rw [analyze, routed]
  cases family with
  | none =>
      rw [named]
      rfl
  | some used =>
      rw [read]
      rfl

theorem analyzeFile_of_read {tree : FileTree} {path : Path} {content : List UInt8}
    (held : tree.read path = .ok content) {language : String} (given : language ≠ "")
    (routes : Routes) :
    analyzeFile tree path (some language) routes =
      analyze (.text (String.ofList (universalNewlines (Utf8.decodeReplacing content))))
        (.text language) routes := by
  have text :
      tree.readTextReplacing path = .ok (universalNewlines (Utf8.decodeReplacing content)) := by
    rw [FileTree.readTextReplacing, held]
    rfl
  have name : languageOfFile path (some language) = .text language := by
    simp [languageOfFile, Option.filter, given]
  rw [analyzeFile, text, name]

/-- A file and its octets, given the same language, have metrics that agree up to line ends, and
leave the same journal. Without carriage returns they have the same metrics. -/
theorem analyzeFile_octets {tree : FileTree} {path : Path} {content : List UInt8}
    (held : tree.read path = .ok content) {language : String} (given : language ≠ "")
    (routes : Routes) (journal : Journal) :
    ∃ family file octets later, Language.familyOf (.text language) routes = .ok family ∧
      (analyzeFile tree path (some language) routes).runOn journal = (.ok file, later) ∧
      (analyze (.scalar (.octets content)) (.text language) routes).runOn journal =
        (.ok octets, later) ∧
      (family = none → file = octets) ∧
      (∀ used, family = some used → LineEndsAgree used (Utf8.decodeReplacing content) file octets) ∧
      ('\r' ∉ Utf8.decodeReplacing content → file = octets) := by
  rcases exists_familyOf_text language routes with ⟨family, name, routed, named⟩
  have whole : codeText (.text (String.ofList (universalNewlines (Utf8.decodeReplacing content)))) =
      .ok (universalNewlines (Utf8.decodeReplacing content)) := by
    rw [codeText, String.toList_ofList]
  rw [analyzeFile_of_read held given, runOn_analyze whole routed named,
    runOn_analyze rfl routed named]
  cases family with
  | none => exact ⟨none, _, _, _, routed, rfl, rfl, fun _ => rfl, nofun, fun _ => rfl⟩
  | some used =>
      refine ⟨some used, _, _, _, routed, rfl, rfl, nofun, ?_, ?_⟩
      · rintro _ ⟨⟩
        exact used.analyze_universalNewlines _
      · intro noReturn
        rw [universalNewlines_eq_self noReturn]

/-- Three nested loops, with a line end between any two lines. -/
def loopsWith (lineEnd : String) : List UInt8 :=
  Utf8.encode (lineEnd.intercalate ["for a in b:", "  for c in a:", "    for d in c:",
    "      print(d)"]).toList

/-- A tree with those loops in a file. -/
def treeOfLoops (lineEnd : String) : FileTree :=
  ⟨[], [(["a.py"], .file (loopsWith lineEnd) 0)]⟩

/-- Carriage returns before line feeds make no difference for nested loops. -/
theorem analyzeFile_octets_pairs :
    ∃ file octets later,
      (analyzeFile (treeOfLoops "\r\n") (.ofString "a.py") (some "py") []).runOn {} =
        (.ok file, later) ∧
      (analyze (.scalar (.octets (loopsWith "\r\n"))) (.text "py") []).runOn {} =
        (.ok octets, later) ∧
      file.nestedLoops = octets.nestedLoops := by
  have held : (treeOfLoops "\r\n").read (.ofString "a.py") = .ok (loopsWith "\r\n") := by decide
  rcases analyzeFile_octets held (by decide : "py" ≠ "") [] {} with
    ⟨family, file, octets, later, routed, fileRun, octetsRun, _, agree, _⟩
  have python : Language.familyOf (.text "py") [] = .ok (some .python) := by decide
  rw [python] at routed
  cases routed
  refine ⟨file, octets, later, fileRun, octetsRun, (agree .python rfl).nestedLoops ?_ ?_⟩
  · decide
  · intro _
    decide

/-- Carriage returns alone part the lines of a file and not those of its octets. -/
theorem analyzeFile_ne_octets :
    (treeOfLoops "\r").read (.ofString "a.py") = .ok (loopsWith "\r") ∧
      ((analyzeFile (treeOfLoops "\r") (.ofString "a.py") (some "python") []).runOn {}).1.map
        (·.nestedLoops) = .ok 3 ∧
      ((analyze (.scalar (.octets (loopsWith "\r"))) (.text "python") []).runOn {}).1.map
        (·.nestedLoops) = .ok 0 := by
  decide

end Scorecard
