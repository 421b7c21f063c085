import Scorecard.Proofs.Display
import Scorecard.Proofs.Except
import Scorecard.Proofs.Json.Number
import Scorecard.Proofs.Text.Lines
import Scorecard.Report.Markdown

/-!
# The table of a printed report

A row of the table shows a result in five cells between bars. Numbers and counts never hold a bar or
a line feed, but the language and the label are shown as they are. So the table has its shape
exactly if no language and no label holds a line feed or a bar that has no backslash before it. A
report is printed unless a number in it cannot be shown.
-/

namespace Scorecard

/-- How many bars of a text have no backslash before them; the first argument says whether a
backslash stands before the text. -/
def bareBarsAfter : Bool → List Char → ℕ
  | _, [] => 0
  | escaped, c :: rest =>
      (if c = '|' ∧ escaped = false then 1 else 0) + bareBarsAfter (c = '\\') rest

/-- How many bars of a text have no backslash before them. -/
def bareBars (text : List Char) : ℕ :=
  bareBarsAfter false text

/-- What follows a character that is no bar is counted on its own. -/
theorem bareBarsAfter_append_cons {c : Char} (notBar : c ≠ '|') (escaped : Bool)
    (front back : List Char) :
    bareBarsAfter escaped (front ++ c :: back) =
      bareBarsAfter escaped front + bareBars (c :: back) := by
  induction front generalizing escaped with
  | nil => simp [bareBars, bareBarsAfter, notBar]
  | cons first front ih =>
      rw [List.cons_append, bareBarsAfter, bareBarsAfter, ih, Nat.add_assoc]

theorem bareBars_append_space (front back : List Char) :
    bareBars (front ++ ' ' :: back) = bareBars front + bareBars back := by
  rw [bareBars, bareBarsAfter_append_cons (by decide)]
  simp [bareBars, bareBarsAfter]

theorem bareBars_cons_bar (text : List Char) : bareBars ('|' :: text) = 1 + bareBars text := by
  simp [bareBars, bareBarsAfter]

theorem bareBarsAfter_eq_zero {text : List Char} (absent : '|' ∉ text) (escaped : Bool) :
    bareBarsAfter escaped text = 0 := by
  induction text generalizing escaped with
  | nil => rfl
  | cons c rest ih =>
      rw [List.mem_cons, not_or] at absent
      simp [bareBarsAfter, Ne.symm absent.1, ih absent.2]

/-- A text that can stand in a cell: it stays on its line and adds no cell. -/
def FitsCell (text : List Char) : Prop :=
  '\n' ∉ text ∧ bareBars text = 0

instance (text : List Char) : Decidable (FitsCell text) :=
  inferInstanceAs (Decidable (_ ∧ _))

theorem fitsCell_append_cons_iff {c : Char} (notBar : c ≠ '|') {front back : List Char} :
    FitsCell (front ++ c :: back) ↔ FitsCell front ∧ FitsCell (c :: back) := by
  rw [FitsCell, bareBars, bareBarsAfter_append_cons notBar, Nat.add_eq_zero_iff,
    List.mem_append, not_or]
  exact and_and_and_comm

/-- A text without any bar or line feed. -/
def Unbroken (text : List Char) : Prop :=
  '\n' ∉ text ∧ '|' ∉ text

instance (text : List Char) : Decidable (Unbroken text) :=
  inferInstanceAs (Decidable (_ ∧ _))

theorem Unbroken.append {front back : List Char} (first : Unbroken front) (second : Unbroken back) :
    Unbroken (front ++ back) := by
  simp only [Unbroken, List.mem_append, not_or]
  exact ⟨⟨first.1, second.1⟩, first.2, second.2⟩

theorem unbroken_joinWith {separator : List Char} {pieces : List (List Char)}
    (between : Unbroken separator) (each : ∀ piece ∈ pieces, Unbroken piece) :
    Unbroken (joinWith separator pieces) := by
  have absent {c : Char} (outside : c ∉ separator) (inNone : ∀ piece ∈ pieces, c ∉ piece) :
      c ∉ joinWith separator pieces := by
    intro mem
    rcases mem_joinWith mem with inSeparator | ⟨piece, pieceMem, inPiece⟩
    · exact outside inSeparator
    · exact inNone piece pieceMem inPiece
  exact ⟨absent between.1 fun piece mem => (each piece mem).1, absent between.2 fun piece mem =>
    (each piece mem).2⟩

theorem Unbroken.fitsCell {text : List Char} (unbroken : Unbroken text) : FitsCell text :=
  ⟨unbroken.1, bareBarsAfter_eq_zero unbroken.2 false⟩

theorem unbroken_toString (value : ℤ) : Unbroken (toString value).toList := by
  have digits : Unbroken (decimalDigits value.natAbs) :=
    ⟨fun mem => absurd (isDigit_of_mem_decimalDigits mem) (by decide),
      fun mem => absurd (isDigit_of_mem_decimalDigits mem) (by decide)⟩
  rw [Json.toString_int]
  refine Unbroken.append ?_ digits
  split <;> decide

/-- Cells with a space around each and a bar around them. -/
def rowOf (cells : List (List Char)) : List Char :=
  '|' :: cells.flatMap fun cell => ' ' :: (cell ++ [' ', '|'])

/-- A row has a bar more than it has cells, and the bars of its cells. -/
theorem bareBars_rowOf (cells : List (List Char)) :
    bareBars (rowOf cells) = cells.length + 1 + (cells.map bareBars).sum := by
  have each : bareBars (cells.flatMap fun cell => ' ' :: (cell ++ [' ', '|'])) =
      cells.length + (cells.map bareBars).sum := by
    induction cells with
    | nil => rfl
    | cons cell cells ih =>
        have first : bareBars ([] ++ ' ' :: (cell ++ ' ' :: '|' ::
            cells.flatMap fun cell => ' ' :: (cell ++ [' ', '|']))) =
              bareBars cell + (1 + (cells.length + (cells.map bareBars).sum)) := by
          rw [bareBars_append_space, bareBars_append_space, bareBars_cons_bar, ih]
          exact Nat.zero_add _
        rw [List.length_cons, List.map_cons, List.sum_cons]
        calc bareBars ((cell :: cells).flatMap fun cell => ' ' :: (cell ++ [' ', '|'])) =
            bareBars cell + (1 + (cells.length + (cells.map bareBars).sum)) := by simpa using first
          _ = cells.length + 1 + (bareBars cell + (cells.map bareBars).sum) := by omega
  rw [rowOf, bareBars_cons_bar, each]
  omega

theorem lineFeed_mem_rowOf_iff {cells : List (List Char)} :
    '\n' ∈ rowOf cells ↔ ∃ cell ∈ cells, '\n' ∈ cell := by
  simp [rowOf]

/-- A row keeps its line and its bars if and only if each of its cells does. -/
theorem rowOf_iff {cells : List (List Char)} :
    ('\n' ∉ rowOf cells ∧ bareBars (rowOf cells) = cells.length + 1) ↔
      ∀ cell ∈ cells, FitsCell cell := by
  have bars : bareBars (rowOf cells) = cells.length + 1 ↔ ∀ cell ∈ cells, bareBars cell = 0 := by
    rw [bareBars_rowOf, Nat.add_eq_left, List.sum_eq_zero_iff]
    simp
  rw [lineFeed_mem_rowOf_iff, bars]
  simp only [FitsCell, not_exists, not_and]
  exact (forall₂_and).symm

namespace Report

variable {report : SubmissionReport}

/-- The counts that are not zero with their names, or a word for none. -/
def countsCell (metrics : Metrics) : String :=
  let parts := (metrics.named.filter (·.2 != 0)).map fun entry => entry.1 ++ "=" ++ toString entry.2
  if parts.isEmpty then "clean" else ", ".intercalate parts

theorem flatMap_longFaults_nonzero (entries : List (String × ℤ)) :
    (entries.filter (·.2 != 0)).flatMap (fun entry => longFaults [entry.2]) =
      longFaults (entries.map (·.2)) := by
  induction entries with
  | nil => rfl
  | cons entry entries ih =>
      have apart : longFaults ((entry :: entries).map (·.2)) =
          longFaults [entry.2] ++ longFaults (entries.map (·.2)) := longFaults_append [entry.2] _
      rw [apart, ← ih, List.filter_cons]
      by_cases zero : entry.2 = 0
      · have short : longFaults [entry.2] = [] := by
          rw [longFaults_eq_nil_iff, Writable, List.forall_mem_singleton, zero]
          exact Nat.pow_pos (by decide)
        rw [if_neg (by simpa using zero), short, List.nil_append]
      · rw [if_pos (by simpa using zero), List.flatMap_cons]

theorem metricsCell_yields (metrics : Metrics) :
    Yields (metricsCell metrics) (countsCell metrics) (longFaults (metrics.named.map (·.2))) := by
  have parts : Yields
      ((metrics.named.filter (·.2 != 0)).mapM fun entry => do return entry.1 ++ "=" ++
        (← integerText entry.2))
      ((metrics.named.filter (·.2 != 0)).map fun entry => entry.1 ++ "=" ++ toString entry.2)
      ((metrics.named.filter (·.2 != 0)).flatMap fun entry => longFaults [entry.2]) :=
    Yields.mapM fun entry _ => (integerText_yields entry.2).map _
  rw [flatMap_longFaults_nonzero] at parts
  exact parts.map _

theorem unbroken_countsCell (metrics : Metrics) : Unbroken (countsCell metrics).toList := by
  have named : ∀ entry ∈ metrics.named, Unbroken entry.1.toList := by
    simp only [Metrics.named, List.forall_mem_cons]
    decide
  have parts : ∀ part ∈
      (metrics.named.filter (·.2 != 0)).map (fun entry => entry.1 ++ "=" ++ toString entry.2),
      Unbroken part.toList := by
    intro part mem
    rcases List.mem_map.mp mem with ⟨entry, entryMem, rfl⟩
    rw [String.toList_append, String.toList_append]
    exact ((named entry (List.mem_of_mem_filter entryMem)).append (by decide)).append
      (unbroken_toString entry.2)
  simp only [countsCell]
  generalize (metrics.named.filter (·.2 != 0)).map
    (fun entry => entry.1 ++ "=" ++ toString entry.2) = texts at parts ⊢
  split
  · decide
  · rw [toList_intercalate]
    exact unbroken_joinWith (by decide) (List.forall_mem_map.mpr parts)

/-- The language, with a remark if there are no rules for it. -/
def languageCell (report : SubmissionReport) : String :=
  if report.result.family.any (· != "") then report.result.language
  else report.result.language ++ " (no analyzer)"

/-- The label, with a remark if the neutral evaluation stands in. -/
def labelCell (report : SubmissionReport) : String :=
  code (labelOrDefault report.label ++ if report.result.fallback then " (neutral scores)" else "")

theorem fitsCell_languageCell_iff :
    FitsCell (languageCell report).toList ↔ FitsCell report.result.language.toList := by
  rw [languageCell]
  split
  · rfl
  · rw [String.toList_append]
    exact (fitsCell_append_cons_iff (by decide)).trans (and_iff_left (by decide))

theorem fitsCell_labelOrDefault_iff (label : String) :
    FitsCell (labelOrDefault label).toList ↔ FitsCell label.toList := by
  rw [labelOrDefault]
  split
  · next missing =>
      rw [missing]
      decide
  · rfl

theorem fitsCell_labelCell_iff :
    FitsCell (labelCell report).toList ↔ FitsCell report.label.toList := by
  have opened (rest : List Char) : FitsCell (Char.ofNat 0x60 :: rest) ↔ FitsCell rest := by
    simp [FitsCell, bareBars, bareBarsAfter]
  have marked :
      (labelCell report).toList =
        Char.ofNat 0x60 ::
        ((labelOrDefault report.label).toList ++
          (if report.result.fallback then " (neutral scores)" else "").toList ++
          [Char.ofNat 0x60]) := by
    simp [labelCell, code, codeMark]
  rw [marked, opened, fitsCell_append_cons_iff (by decide), and_iff_left (by decide),
    ← fitsCell_labelOrDefault_iff]
  split
  · exact (fitsCell_append_cons_iff (by decide)).trans (and_iff_left (by decide))
  · rw [String.toList_empty, List.append_nil]

/-- The cells of the row of a result. -/
def cells (report : SubmissionReport) : List (List Char) :=
  let penalty := report.result.staticPenalty
  [(toString report.result.devScore).toList,
    (toString penalty).toList ++ " (-".toList ++ (toString (appliedPoints penalty)).toList ++ [')'],
    (languageCell report).toList, (labelCell report).toList,
      (countsCell report.result.metrics).toList]

/-- The integers that the row of a result shows. -/
def rowIntegers (report : SubmissionReport) : List ℤ :=
  [report.result.devScore] ++
    ([report.result.staticPenalty] ++
      ([appliedPoints report.result.staticPenalty] ++ report.result.metrics.named.map (·.2)))

theorem tableRow_yields (report : SubmissionReport) :
    Yields (tableRow report) (String.ofList (rowOf (cells report)))
      (longFaults (rowIntegers report)) := by
  have row : String.ofList (rowOf (cells report)) =
      "| " ++ toString report.result.devScore ++ " | " ++ toString report.result.staticPenalty ++
        " (-" ++ toString (appliedPoints report.result.staticPenalty) ++ ") | " ++
        languageCell report ++ " | " ++ labelCell report ++ " | " ++
        countsCell report.result.metrics ++ " |" := by
    rw [← String.toList_inj, String.toList_ofList]
    simp [rowOf, cells]
  have score := integerText_yields report.result.devScore
  have points := integerText_yields report.result.staticPenalty
  have taken := integerText_yields (appliedPoints report.result.staticPenalty)
  have counts := metricsCell_yields report.result.metrics
  rw [row, rowIntegers, longFaults_append, longFaults_append, longFaults_append, tableRow]
  refine score.bind (points.bind (taken.bind (counts.last ?_)))
  unfold languageCell
  cases report.result.family with
  | none => exact .ok _
  | some family => exact .ok _

/-- The row of a result keeps its line and its bars if and only if its language and its label fit
their cells. -/
theorem row_iff (report : SubmissionReport) :
    ('\n' ∉ rowOf (cells report) ∧ bareBars (rowOf (cells report)) = 6) ↔
      FitsCell report.label.toList ∧ FitsCell report.result.language.toList := by
  have score : FitsCell (toString report.result.devScore).toList := (unbroken_toString _).fitsCell
  have penalty : FitsCell ((toString report.result.staticPenalty).toList ++ " (-".toList ++
      (toString (appliedPoints report.result.staticPenalty)).toList ++ [')']) :=
    ((((unbroken_toString _).append (by decide)).append (unbroken_toString _)).append
      (by decide)).fitsCell
  have counts : FitsCell (countsCell report.result.metrics).toList :=
    (unbroken_countsCell _).fitsCell
  have shape :
      ('\n' ∉ rowOf (cells report) ∧ bareBars (rowOf (cells report)) = (cells report).length + 1) ↔
        ∀ cell ∈ cells report, FitsCell cell := rowOf_iff
  have size : (cells report).length + 1 = 6 := rfl
  rw [size] at shape
  rw [shape]
  simp only [cells, List.forall_mem_cons, List.not_mem_nil, false_imp_iff, implies_true, and_true,
    score, penalty, counts, true_and, fitsCell_languageCell_iff, fitsCell_labelCell_iff]
  exact and_comm

end Report

namespace Report

variable {report : Report} {maxItems : ℤ} {text : String}

/-- The integers that the key figures of a report show. -/
def figureIntegers (report : Report) : List ℤ :=
  [report.schemaVersion] ++ match report.statistics with
    | none => []
    | some statistics =>
        if statistics.totalSubmissions = 0 then [] else [statistics.averageDevScore]

/-- Every number that a printed report shows can be shown: its integers have few enough digits, and
its scores are in the range of the floats. -/
structure IsPrintable (report : Report) : Prop where
  figures : Writable report.figureIntegers
  rows : ∀ submission ∈ report.submissions, Writable (rowIntegers submission)
  scores : ∀ submission ∈ report.submissions, ∀ score ∈ submission.result.scores.named,
    ∃ float, score.2.toFloat = .ok float

theorem exists_figures_yields (report : Report) :
    ∃ lines, Yields report.figures lines (longFaults report.figureIntegers) := by
  have version := integerText_yields report.schemaVersion
  rw [figures, figureIntegers, longFaults_append]
  cases report.statistics with
  | none => exact ⟨_, version.bind (.ok _)⟩
  | some statistics =>
      by_cases nothing : statistics.totalSubmissions = 0
      · simp only [nothing, if_true]
        exact ⟨_, version.bind (.ok _)⟩
      · simp only [nothing, if_false]
        have average := integerText_yields statistics.averageDevScore
        exact ⟨_, version.bind (average.last (.ok _))⟩

theorem exists_figures_iff :
    (∃ lines, report.figures = .ok lines) ↔ Writable report.figureIntegers := by
  rcases report.exists_figures_yields with ⟨lines, yields⟩
  rw [← longFaults_eq_nil_iff, ← yields.returned_iff]
  constructor
  · rintro ⟨found, returned⟩
    rw [returned, (yields.of_returned returned).2]
  · exact fun returned => ⟨lines, returned⟩

theorem tableRow_eq_ok_iff {submission : SubmissionReport} {row : String} :
    tableRow submission = .ok row ↔
      Writable (rowIntegers submission) ∧ row = String.ofList (rowOf (cells submission)) := by
  have yields := tableRow_yields submission
  rw [← longFaults_eq_nil_iff]
  constructor
  · intro returned
    exact yields.of_returned returned
  · rintro ⟨silent, rfl⟩
    exact yields.returned_iff.mpr silent

theorem exists_sectionLines_iff {submission : SubmissionReport} :
    (∃ lines, sectionLines submission maxItems = .ok lines) ↔
      ∀ score ∈ submission.result.scores.named, ∃ float, score.2.toFloat = .ok float := by
  constructor
  · rintro ⟨lines, returned⟩
    rcases bind_eq_ok_iff.mp returned with ⟨texts, each, _⟩
    intro score mem
    rcases exists_of_mapM each mem with ⟨shown, scoreShown⟩
    rcases bind_eq_ok_iff.mp scoreShown with ⟨written, scoreWritten, _⟩
    rcases bind_eq_ok_iff.mp scoreWritten with ⟨float, converted, _⟩
    exact ⟨float, converted⟩
  · intro each
    have shown : ∀ score ∈ submission.result.scores.named, ∃ text,
        (do return score.1 ++ " " ++ (← scoreText score.2)) = Except.ok text := by
      intro score mem
      rcases each score mem with ⟨float, converted⟩
      exact ⟨_, by rw [scoreText, converted]; rfl⟩
    rcases exists_mapM_eq_ok shown with ⟨texts, returned⟩
    exact ⟨_, bind_eq_ok_iff.mpr ⟨texts, returned, rfl⟩⟩

/-- The line of headings and the line below it. -/
def tableTop : List String :=
  ["| DevScore | Penalty | Language | Submission | Static issues |", "|---:|---:|---|---|---|"]

/-- Somewhere in the text the rows stand below the top of a table, each on one line, and above an
empty line. -/
def HasTable (text : String) (rows : List String) : Prop :=
  ∃ before after, splitLines text.toList =
    before ++ (tableTop ++ rows ++ [""]).map String.toList ++ after

/-- A report with results is printed from its key figures, its rows and its sections. -/
theorem toMarkdown_eq_ok_iff (nonempty : report.submissions ≠ []) :
    report.toMarkdown maxItems = .ok text ↔
      ∃ figures rows sections, report.figures = .ok figures ∧
        report.submissions.mapM tableRow = .ok rows ∧
        report.submissions.mapM (sectionLines · maxItems) = .ok sections ∧
        text = "\n".intercalate ((["# DevScore report", ""] ++ figures ++ [""]) ++
          (tableTop ++ rows ++ [""]) ++ sections.flatten) := by
  have rowsFollow : report.submissions.isEmpty = false := by simpa using nonempty
  rw [toMarkdown]
  simp only [bind_eq_ok_iff, rowsFollow]
  constructor
  · rintro ⟨figures, shown, returned⟩
    rcases bind_eq_ok_iff.mp returned with ⟨rows, rowsShown, returned⟩
    rcases bind_eq_ok_iff.mp returned with ⟨sections, sectionsShown, returned⟩
    cases returned
    exact ⟨figures, rows, sections, shown, rowsShown, sectionsShown, rfl⟩
  · rintro ⟨figures, rows, sections, shown, rowsShown, sectionsShown, rfl⟩
    refine ⟨figures, shown, bind_eq_ok_iff.mpr ⟨rows, rowsShown, ?_⟩⟩
    exact bind_eq_ok_iff.mpr ⟨sections, sectionsShown, rfl⟩

theorem exists_toMarkdown_iff (nonempty : report.submissions ≠ []) (maxItems : ℤ) :
    (∃ text, report.toMarkdown maxItems = .ok text) ↔ report.IsPrintable := by
  simp only [toMarkdown_eq_ok_iff nonempty]
  constructor
  · rintro ⟨text, figures, rows, sections, shown, rowsShown, sectionsShown, rfl⟩
    refine ⟨exists_figures_iff.mp ⟨figures, shown⟩, fun submission mem => ?_,
      fun submission mem => ?_⟩
    · rcases exists_of_mapM rowsShown mem with ⟨row, rowShown⟩
      exact (tableRow_eq_ok_iff.mp rowShown).1
    · rcases exists_of_mapM sectionsShown mem with ⟨lines, linesShown⟩
      exact exists_sectionLines_iff.mp ⟨lines, linesShown⟩
  · rintro ⟨figuresWritable, rowsWritable, scores⟩
    rcases exists_figures_iff.mpr figuresWritable with ⟨figures, shown⟩
    have eachRow : ∀ submission ∈ report.submissions, ∃ row, tableRow submission = .ok row :=
      fun submission mem => ⟨_, tableRow_eq_ok_iff.mpr ⟨rowsWritable submission mem, rfl⟩⟩
    have eachSection :
        ∀ submission ∈ report.submissions, ∃ lines, sectionLines submission maxItems = .ok lines :=
      fun submission mem => exists_sectionLines_iff.mpr (scores submission mem)
    rcases exists_mapM_eq_ok eachRow with ⟨rows, rowsShown⟩
    rcases exists_mapM_eq_ok eachSection with ⟨sections, sectionsShown⟩
    exact ⟨_, figures, rows, sections, shown, rowsShown, sectionsShown, rfl⟩

theorem flatMap_splitLines {lines : List String} (each : ∀ line ∈ lines, '\n' ∉ line.toList) :
    (lines.flatMap fun line => splitLines line.toList) = lines.map String.toList := by
  induction lines with
  | nil => rfl
  | cons line lines ih =>
      rw [List.forall_mem_cons] at each
      rw [List.flatMap_cons, ih each.2, splitLines, splitAtChar_of_notMem each.1]
      rfl

theorem lineFeed_notMem_tableTop : ∀ line ∈ tableTop, '\n' ∉ line.toList := by
  unfold tableTop
  simp only [List.forall_mem_cons]
  refine ⟨?_, ?_, List.forall_mem_nil _⟩
  all_goals exact mt mem_toList_ofList.mp (by decide)

/-- Rows between the other lines of a text are a table of it if and only if each of them is one
line. -/
theorem hasTable_iff {front rows back : List String} :
    HasTable ("\n".intercalate (front ++ (tableTop ++ rows ++ [""]) ++ back)) rows ↔
      ∀ row ∈ rows, '\n' ∉ row.toList := by
  constructor
  · rintro ⟨before, after, lines⟩ row mem
    have inTable : row ∈ tableTop ++ rows ++ [""] := by simp [mem]
    apply notMem_of_mem_splitAtChar
    rw [← splitLines, lines]
    exact List.mem_append_left _ (List.mem_append_right _ (List.mem_map_of_mem inTable))
  · intro each
    have oneLine : ∀ line ∈ tableTop ++ rows ++ [""], '\n' ∉ line.toList := by
      simp only [List.forall_mem_append]
      exact ⟨⟨lineFeed_notMem_tableTop, each⟩, by decide⟩
    refine ⟨front.flatMap fun line => splitLines line.toList, back.flatMap fun line =>
      splitLines line.toList, ?_⟩
    rw [splitLines_intercalate (by simp), List.flatMap_append, List.flatMap_append,
      flatMap_splitLines oneLine]

/-- A report with results is printed if and only if every number that is shown can be. Then its
table has a line of six bare bars for each result if and only if every label and every language fits
its cell. -/
theorem toMarkdown_table (nonempty : report.submissions ≠ []) (maxItems : ℤ) :
    ((∃ text, report.toMarkdown maxItems = .ok text) ↔ report.IsPrintable) ∧
      ∀ text, report.toMarkdown maxItems = .ok text →
        ∃ rows, List.Forall₂ (fun submission row => tableRow submission = .ok row)
            report.submissions rows ∧
          ((HasTable text rows ∧ ∀ row ∈ rows, bareBars row.toList = 6) ↔
            ∀ submission ∈ report.submissions, FitsCell submission.label.toList ∧
              FitsCell submission.result.language.toList) := by
  refine ⟨exists_toMarkdown_iff nonempty maxItems, fun text printed => ?_⟩
  rcases (toMarkdown_eq_ok_iff nonempty).mp printed with
    ⟨figures, rows, sections, _, rowsShown, _, rfl⟩
  refine ⟨rows, mapM_eq_ok_iff.mp rowsShown, ?_⟩
  rw [hasTable_iff, ← forall₂_and]
  constructor
  · intro each submission mem
    rcases exists_of_mapM rowsShown mem with ⟨row, rowShown⟩
    have shape := each row ((mem_iff_of_mapM rowsShown).mpr ⟨submission, mem, rowShown⟩)
    rw [(tableRow_eq_ok_iff.mp rowShown).2, String.toList_ofList] at shape
    exact (row_iff submission).mp shape
  · intro each row mem
    rcases (mem_iff_of_mapM rowsShown).mp mem with ⟨submission, submissionMem, rowShown⟩
    rw [(tableRow_eq_ok_iff.mp rowShown).2, String.toList_ofList]
    exact (row_iff submission).mpr (each submission submissionMem)

/-- A result without a penalty. -/
def plainSubmission (label language : String) : SubmissionReport where
  label := label
  submittedAt := ""
  result := {
    language := language, family := none, interviewMode := false, metrics := { nestedLoops := 2 }
    scores := .uniform (.float (.ofInt 50)), feedback := ⟨[], [], [], [], ""⟩
    staticPenalty := 0, devScore := 50, fallback := true }

/-- A report of results under the given labels. -/
def plainReport (labels : List String) : Report where
  schemaVersion := 1
  generatedAt := ""
  submissions := labels.map (plainSubmission · "rust")
  statistics := none

theorem isPrintable_plainReport (labels : List String) : (plainReport labels).IsPrintable where
  figures := by
    have integers : (plainReport labels).figureIntegers = [1] := rfl
    rw [integers]
    exact writable_of_small (by decide)
  rows := by
    intro submission mem
    rcases List.mem_map.mp mem with ⟨label, _, rfl⟩
    have integers : rowIntegers (plainSubmission label "rust") = [50, 0, 0, 2, 0, 0, 0, 0, 0] := rfl
    rw [integers]
    exact writable_of_small (by decide)
  scores := by
    intro submission mem score scoreMem
    rcases List.mem_map.mp mem with ⟨label, _, rfl⟩
    have uniform : score.2 = .float (.ofInt 50) := by
      simp only [plainSubmission, Scores.uniform, Scores.named, List.mem_cons, List.not_mem_nil,
        or_false] at scoreMem
      rcases scoreMem with rfl | rfl | rfl | rfl | rfl <;> rfl
    exact ⟨_, by rw [uniform, Number.toFloat]⟩

theorem toMarkdown_table_escaped : (plainReport ["a\\|b", "", "c d"]).submissions ≠ [] ∧
    ∃ text rows, (plainReport ["a\\|b", "", "c d"]).toMarkdown 3 = .ok text ∧ rows.length = 3 ∧
      HasTable text rows ∧ ∀ row ∈ rows, bareBars row.toList = 6 := by
  have nonempty : (plainReport ["a\\|b", "", "c d"]).submissions ≠ [] := List.cons_ne_nil _ _
  have table := toMarkdown_table nonempty 3
  rcases table.1.mpr (isPrintable_plainReport _) with ⟨text, printed⟩
  rcases table.2 text printed with ⟨rows, each, shape⟩
  have fits : ∀ submission ∈ (plainReport ["a\\|b", "", "c d"]).submissions,
      FitsCell submission.label.toList ∧ FitsCell submission.result.language.toList := by
    decide
  exact ⟨nonempty, text, rows, printed, each.length_eq.symm, shape.mpr fits⟩

/-- A bar in a label is a seventh bar of its row, and a line feed in one ends the line of its
row. -/
theorem toMarkdown_barred : (plainReport ["a|b", "c\nd"]).submissions ≠ [] ∧
    ∃ text first second, (plainReport ["a|b", "c\nd"]).toMarkdown 3 = .ok text ∧
      List.Forall₂ (fun submission row => tableRow submission = .ok row)
        (plainReport ["a|b", "c\nd"]).submissions [first, second] ∧
      bareBars first.toList = 7 ∧ ¬ HasTable text [first, second] := by
  have nonempty : (plainReport ["a|b", "c\nd"]).submissions ≠ [] := List.cons_ne_nil _ _
  have printable := isPrintable_plainReport ["a|b", "c\nd"]
  have shown : ∀ submission ∈ (plainReport ["a|b", "c\nd"]).submissions,
      tableRow submission = .ok (String.ofList (rowOf (cells submission))) :=
    fun submission mem => tableRow_eq_ok_iff.mpr ⟨printable.rows submission mem, rfl⟩
  have each : List.Forall₂ (fun submission row => tableRow submission = .ok row)
      (plainReport ["a|b", "c\nd"]).submissions
      [String.ofList (rowOf (cells (plainSubmission "a|b" "rust"))),
        String.ofList (rowOf (cells (plainSubmission "c\nd" "rust")))] :=
    .cons (shown _ List.mem_cons_self)
      (.cons (shown _ (List.mem_cons_of_mem _ List.mem_cons_self)) .nil)
  rcases (exists_toMarkdown_iff nonempty 3).mpr printable with ⟨text, printed⟩
  refine ⟨nonempty, text, _, _, printed, each, ?_, ?_⟩
  · rw [String.toList_ofList]
    decide
  · rcases (toMarkdown_eq_ok_iff nonempty).mp printed with
      ⟨figures, rows, sections, _, rowsShown, _, rfl⟩
    rw [Except.ok.inj (rowsShown.symm.trans (mapM_eq_ok_iff.mpr each)), hasTable_iff]
    intro oneLine
    have second := oneLine _ (List.mem_cons_of_mem _ List.mem_cons_self)
    rw [String.toList_ofList] at second
    exact absurd second (by decide)

end Report

end Scorecard
