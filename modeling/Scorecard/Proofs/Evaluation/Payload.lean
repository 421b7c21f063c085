import Scorecard.Evaluation.Payload
import Scorecard.Proofs.Denoted
import Scorecard.Proofs.Json.Digits
import Scorecard.Proofs.Scoring.Monotone

/-!
# What payloads hold

Any text holds an evaluation or none, and the scores of an evaluation are finite and lie between
zero and a hundred: numbers that are not finite are refused, and all others are held between the
bounds. The reader of payloads finds the evaluation that a text holds, with one exception: an
integer beyond the floats would be held to a hundred like any other that is too large, but on the
way there the reader asks whether it is finite, and that is a fault.
-/

namespace Scorecard

namespace Payload

/-- The score that a number is, held between zero and a hundred, if it is finite. -/
def heldScore? : Data → Option Number
  | .int whole => some (Number.clamp (.int whole) (.int 0) (.int 100))
  | .float number =>
      if number.isFinite then some (Number.clamp (.float number) (.int 0) (.int 100)) else none
  | _ => none

/-- The scores under the given names, if all of them are there. -/
def heldScores? (entries : Entries) (names : List (String × String)) : Option (List Number) :=
  names.mapM fun name => heldScore? (member entries name.1 name.2)

/-- The faults of the scores under the given names: none is looked at behind one that is missing. -/
def scoreFaults (entries : Entries) : List (String × String) → List Fault
  | [] => []
  | (wireName, plainName) :: names =>
      let value := member entries wireName plainName
      value.floatFaults ++ if (heldScore? value).isSome then scoreFaults entries names else []

/-- The scores of a document. -/
def scores? : Data → Option Scores
  | .mapping entries =>
      match heldScores? entries scoreNames with
      | some [quality, time, space, security, readability] =>
          some ⟨quality, time, space, security, readability⟩
      | _ => none
  | _ => none

/-- The texts of the items of a list, without absent ones; anything else holds none. -/
def shownTexts : Data → List String
  | .list items => (items.filter fun item => match item with
      | .null => false
      | _ => true).map Data.shown
  | _ => []

/-- The text of a value that may be absent. -/
def shownText : Data → String
  | .null => ""
  | other => other.shown

/-- The feedback of a document. -/
def feedback? : Data → Option Feedback
  | .mapping entries => some {
      strengths := shownTexts (member entries "strengths" "strengths")
      weaknesses := shownTexts (member entries "weaknesses" "weaknesses")
      suggestions := shownTexts (member entries "suggestions" "suggestions")
      interviewQuestions := shownTexts (member entries "interviewQuestions" "interview_questions")
      detailedAnalysis := shownText (member entries "detailedAnalysis" "detailed_analysis") }
  | _ => none

/-- The evaluation of a document: it has scores and feedback. -/
def evaluation? : Data → Option Evaluation
  | .mapping entries => do
      let scores ← scores? ((Entries.get? entries "scores").getD .null)
      let feedback ← feedback? ((Entries.get? entries "feedback").getD .null)
      return { scores, feedback }
  | _ => none

/-- The faults of a document. -/
def documentFaults : Data → List Fault
  | .mapping entries =>
      match Entries.get? entries "scores" with
      | some (.mapping scores) => scoreFaults scores scoreNames
      | _ => []
  | _ => []

/-- The document in a text, perhaps inside code fences. -/
def document? (text : String) : Option Data :=
  if text = "" then none
  else (Json.decode (String.ofList (stripFences text.toList))).toOption

/-- The evaluation that a text holds. -/
def held? (text : String) : Option Evaluation :=
  (document? text).bind evaluation?

/-- The faults of a text. -/
def faults (text : String) : List Fault :=
  (document? text).elim [] documentFaults

/-- A score that is held is a finite number held between the bounds. -/
theorem exists_of_heldScore? {value : Data} {score : Number}
    (held : heldScore? value = some score) :
    ∃ number worth, Number.quanta? number = some worth ∧
      score = Number.clamp number (.int 0) (.int 100) := by
  rw [heldScore?.eq_def] at held
  split at held
  · next whole =>
      cases held
      exact ⟨.int whole, whole * quantaInOne, rfl, rfl⟩
  · next number =>
      split at held
      · next finite =>
          cases held
          rcases (Binary64.isFinite_iff_quanta? number).mp finite with ⟨worth, number_worth⟩
          exact ⟨.float number, worth, number_worth, rfl⟩
      · cases held
  · cases held

theorem exists_of_heldScores? {entries : Entries} {names : List (String × String)}
    {found : List Number} (held : heldScores? entries names = some found) :
    ∀ score ∈ found, ∃ value, heldScore? value = some score := by
  induction names generalizing found with
  | nil =>
      cases held
      simp
  | cons name names ih =>
      rw [heldScores?, List.mapM_cons] at held
      rcases Option.bind_eq_some_iff.mp held with ⟨score, first, rest⟩
      rcases Option.bind_eq_some_iff.mp rest with ⟨others, each, same⟩
      cases same
      exact List.forall_mem_cons.mpr ⟨⟨_, first⟩, ih each⟩

/-- Every score of a document is a value of the document as it is held. -/
theorem exists_of_scores? {data : Data} {scores : Scores} (held : scores? data = some scores) :
    ∀ score ∈ scores.named, ∃ value, heldScore? value = some score.2 := by
  rw [scores?.eq_def] at held
  split at held
  · split at held
    · next listed =>
        cases held
        intro score mem
        apply exists_of_heldScores? listed
        simpa only [Scores.named, List.map_cons, List.map_nil] using List.mem_map_of_mem mem
    · cases held
  · cases held

theorem inRange_of_scores? {data : Data} {scores : Scores} (held : scores? data = some scores) :
    scores.InRange := by
  have each : ∀ score ∈ scores.named, score.2.IsScore := by
    intro score mem
    rcases exists_of_scores? held score mem with ⟨value, held⟩
    rcases exists_of_heldScore? held with ⟨number, worth, number_worth, score_eq⟩
    rw [score_eq]
    exact Number.clamp_isScore number_worth
  simp only [Scores.named, List.forall_mem_cons] at each
  exact ⟨each.1, each.2.1, each.2.2.1, each.2.2.2.1, each.2.2.2.2.1⟩

theorem exists_scores?_of_held? {text : String} {evaluation : Evaluation}
    (held : held? text = some evaluation) : ∃ data, scores? data = some evaluation.scores := by
  rcases Option.bind_eq_some_iff.mp held with ⟨data, _, found⟩
  rw [evaluation?.eq_def] at found
  split at found
  · rcases Option.bind_eq_some_iff.mp found with ⟨scores, scored, rest⟩
    rcases Option.bind_eq_some_iff.mp rest with ⟨feedback, _, same⟩
    cases same
    exact ⟨_, scored⟩
  · cases found

/-- The scores of every evaluation that a text holds are in range. -/
theorem inRange_of_held? {text : String} {evaluation : Evaluation}
    (held : held? text = some evaluation) : evaluation.scores.InRange := by
  rcases exists_scores?_of_held? held with ⟨data, scored⟩
  exact inRange_of_scores? scored

/-- The fault of scores is the fault of one of them. -/
theorem exists_of_mem_scoreFaults {entries : Entries} {names : List (String × String)}
    {fault : Fault} (mem : fault ∈ scoreFaults entries names) :
    ∃ name ∈ names, fault ∈ (member entries name.1 name.2).floatFaults := by
  induction names with
  | nil => cases mem
  | cons name names ih =>
      simp only [scoreFaults, List.mem_append] at mem
      rcases mem with mem | mem
      · exact ⟨name, List.mem_cons_self, mem⟩
      · split at mem
        · rcases ih mem with ⟨other, otherMem, mem⟩
          exact ⟨other, List.mem_cons_of_mem _ otherMem, mem⟩
        · cases mem

theorem eq_of_mem_scoreFaults {entries : Entries} {names : List (String × String)} {fault : Fault}
    (mem : fault ∈ scoreFaults entries names) : fault = .integerBeyondFloat := by
  rcases exists_of_mem_scoreFaults mem with ⟨name, _, mem⟩
  exact Data.eq_of_mem_floatFaults mem

theorem explains_of_mem_scoreFaults {entries : Entries} {names : List (String × String)}
    {fault : Fault} (mem : fault ∈ scoreFaults entries names) :
    (Data.mapping entries).Explains fault := by
  rcases exists_of_mem_scoreFaults mem with ⟨name, _, mem⟩
  rw [member] at mem
  cases found : (entries.get? name.1).orElse fun _ => entries.get? name.2 with
  | none =>
      rw [found] at mem
      cases mem
  | some value =>
      rw [found] at mem
      rcases Entries.exists_get?_of_orElse found with ⟨key, present⟩
      exact Entries.explains_of_get? present (Data.explains_of_mem_floatFaults value mem)

/-- Every fault of a text is about an integer in its document. -/
theorem explains_of_mem_faults {text : String} {fault : Fault} (mem : fault ∈ faults text) :
    fault = .integerBeyondFloat ∧ ∃ data, document? text = some data ∧ data.Explains fault := by
  rw [faults] at mem
  cases found : document? text with
  | none => simp [found] at mem
  | some data =>
      rw [found, Option.elim_some, documentFaults.eq_def] at mem
      split at mem
      · split at mem
        · next scored =>
            have explains := Entries.explains_of_get? scored (explains_of_mem_scoreFaults mem)
            exact ⟨eq_of_mem_scoreFaults mem, _, rfl, explains⟩
        · cases mem
      · cases mem

theorem scoreOf_yields (value : Data) :
    Yields (scoreOf value) (heldScore? value) value.floatFaults := by
  cases value with
  | list items => rfl
  | mapping entries => rfl
  | scalar value =>
      cases value with
      | null => rfl
      | bool value => rfl
      | text value => rfl
      | octets value => rfl
      | day value => rfl
      | moment value => rfl
      | float value =>
          rw [scoreOf, heldScore?]
          split <;> rfl
      | int value =>
          rw [scoreOf, heldScore?, Number.floatOfInt_eq, Data.floatFaults]
          split <;> rfl

theorem scoreList_yields (entries : Entries) (names : List (String × String)) :
    Yields (scoreList entries names) (heldScores? entries names) (scoreFaults entries names) := by
  induction names with
  | nil => rfl
  | cons name names ih =>
      rcases name with ⟨wireName, plainName⟩
      rw [scoreList, scoreFaults, heldScores?, List.mapM_cons]
      refine (scoreOf_yields _).bind ?_
      cases heldScore? (member entries wireName plainName) with
      | none => rfl
      | some score =>
          have rest := ih.map fun found => found.map (score :: ·)
          rw [Option.map_eq_bind] at rest
          exact rest

theorem scores_yields (data : Data) :
    Yields (scores data) (scores? data)
      (match data with
        | .mapping entries => scoreFaults entries scoreNames
        | _ => []) := by
  cases data with
  | scalar value => rfl
  | list items => rfl
  | mapping entries =>
      rw [scores.eq_def, scores?]
      refine (scoreList_yields entries scoreNames).last ?_
      generalize heldScores? entries scoreNames = found
      cases found with
      | none => rfl
      | some scores =>
          -- Five scores are taken; fewer or more are none.
          rcases scores with _ | ⟨quality, _ | ⟨time, _ | ⟨space, _ | ⟨security,
            _ | ⟨readability, _ | more⟩⟩⟩⟩⟩ <;> rfl

theorem writable_member {entries : Entries} (writable : Writable (Data.mapping entries).integers)
    (wireName plainName : String) : Writable (member entries wireName plainName).integers := by
  rw [member]
  cases found : (entries.get? wireName).orElse fun _ => entries.get? plainName with
  | none => exact Data.writable_nil
  | some value =>
      rcases Entries.exists_get?_of_orElse found with ⟨key, present⟩
      exact Entries.writable_of_get? writable present

theorem texts_yields {value : Data} (writable : Writable value.integers) :
    Yields (texts value) (shownTexts value) [] := by
  cases value with
  | scalar value => rfl
  | mapping entries => rfl
  | list items =>
      have listed := Data.writable_list_iff.mp writable
      have each := Yields.mapM fun item (mem : item ∈ items.filter fun item => match item with
          | .null => false
          | _ => true) => Data.display_yields_of_writable (listed item (List.mem_filter.mp mem).1)
      rw [List.flatMap_eq_nil_iff.mpr fun _ _ => rfl] at each
      exact each

theorem textOrEmpty_yields {value : Data} (writable : Writable value.integers) :
    Yields (textOrEmpty value) (shownText value) [] := by
  fun_cases textOrEmpty value with
  | case1 => rfl
  | case2 _ present =>
      rw [shownText]
      · exact Data.display_yields_of_writable writable
      · exact present

theorem feedback_yields {data : Data} (writable : Writable data.integers) :
    Yields (feedback data) (feedback? data) [] := by
  cases data with
  | scalar value => rfl
  | list items => rfl
  | mapping entries =>
      have texts :=
        fun wireName plainName => texts_yields (writable_member writable wireName plainName)
      have text := fun wireName plainName =>
        textOrEmpty_yields (writable_member writable wireName plainName)
      exact (texts _ _).bind
        ((texts _ _).bind ((texts _ _).bind ((texts _ _).bind ((text _ _).map _))))

theorem evaluationOf_yields {data : Data} (writable : Writable data.integers) :
    Yields (evaluationOf data) (evaluation? data) (documentFaults data) := by
  cases data with
  | scalar value => rfl
  | list items => rfl
  | mapping entries =>
      have scored := scores_yields ((Entries.get? entries "scores").getD .null)
      have feedbackWritable :
          Writable ((Entries.get? entries "feedback").getD .null).integers := by
        cases found : Entries.get? entries "feedback" with
        | none => exact Data.writable_nil
        | some value => exact Entries.writable_of_get? writable found
      have faults_eq : documentFaults (.mapping entries) =
          (match (Entries.get? entries "scores").getD .null with
            | .mapping entries => scoreFaults entries scoreNames
            | _ => []) := by
        rw [documentFaults]
        cases Entries.get? entries "scores" with
        | none => rfl
        | some value => cases value <;> rfl
      rw [faults_eq, evaluationOf.eq_def, evaluation?]
      refine scored.last ((feedback_yields feedbackWritable).bind ?_)
      cases scores? ((Entries.get? entries "scores").getD .null) with
      | none => rfl
      | some scores => cases feedback? ((Entries.get? entries "feedback").getD .null) <;> rfl

/-- The reader finds the evaluation that a text holds, unless a score is a fault. -/
theorem parse_yields (text : String) : Yields (parse text) (held? text) (faults text) := by
  rw [parse, held?, faults, document?]
  split
  · rfl
  · cases decoded : Json.decode (String.ofList (stripFences text.toList)) with
    | error fault => rfl
    | ok data => exact evaluationOf_yields (Json.writable_of_decode decoded)

/-- The scores of every evaluation that is read from a text are in range. -/
theorem parse_inRange {text : String} {evaluation : Evaluation}
    (read : parse text = .ok (some evaluation)) : evaluation.scores.InRange := by
  rcases (parse_yields text).of_returned read with ⟨_, same⟩
  exact inRange_of_held? same.symm

end Payload

end Scorecard
