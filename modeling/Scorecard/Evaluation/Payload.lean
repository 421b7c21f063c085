import Scorecard.Evaluation.Basic
import Scorecard.Json.Reader
import Scorecard.Text.Lines
import Scorecard.Text.Pattern

/-!
# Payloads of evaluators

An evaluator answers with a JSON text, perhaps inside code fences. Nothing but the fences is
repaired: a text that then is no mapping with five finite scores and a mapping of feedback is no
evaluation. Scores are held between zero and a hundred; feedback that is missing or of another kind
is empty.
-/

namespace Scorecard

namespace Payload

/-- A code fence with its language and the line end after it, as far as they are there. -/
def fence : Pattern :=
  let ticks := List.replicate 3 (Step.char (Char.ofNat 0x60))
  [ticks ++ Step.literal "json\n", ticks ++ Step.literal "json", ticks ++ Step.literal "\n", ticks]

/-- A text without white space at its ends and, if it starts with a fence, without any fences. -/
def stripFences (text : List Char) : List Char :=
  let bare := strip text
  strip (if (dropStart? (List.replicate 3 (Char.ofNat 0x60)) bare).isSome then fence.erase bare
    else bare)

/-- The value under the first of two names that is present. -/
def member (entries : Entries) (wireName plainName : String) : Data :=
  ((entries.get? wireName).orElse fun _ => entries.get? plainName).getD .null

/-- The score that a value is, if it is a finite number, held between zero and a hundred. -/
def scoreOf (value : Data) : Except Fault (Option Number) :=
  match value with
  | .int whole => do
      let _ ← Number.floatOfInt whole
      return some (Number.clamp (.int whole) (.int 0) (.int 100))
  | .float number =>
      if number.isFinite then .ok (some (Number.clamp (.float number) (.int 0) (.int 100)))
      else .ok none
  | _ => .ok none

/-- The names of the scores, on the wire and in snake case. -/
def scoreNames : List (String × String) :=
  [("codeQuality", "code_quality"), ("timeComplexity", "time_complexity"),
    ("spaceComplexity", "space_complexity"), ("security", "security"),
    ("readability", "readability")]

/-- The scores under the given names, up to the first that is missing. -/
def scoreList (entries : Entries) : List (String × String) → Except Fault (Option (List Number))
  | [] => .ok (some [])
  | (wireName, plainName) :: names => do
      match ← scoreOf (member entries wireName plainName) with
      | none => return none
      | some score => return (← scoreList entries names).map (score :: ·)

/-- The scores of a document. -/
def scores (data : Data) : Except Fault (Option Scores) := do
  match data with
  | .mapping entries =>
      match ← scoreList entries scoreNames with
      | some [quality, time, space, security, readability] =>
          return some ⟨quality, time, space, security, readability⟩
      | _ => return none
  | _ => return none

/-- The items of a list as texts, without absent ones; anything else holds none. -/
def texts (data : Data) : Except Fault (List String) :=
  match data with
  | .list items =>
      (items.filter fun item => match item with
        | .scalar .null => false
        | _ => true).mapM (·.display)
  | _ => .ok []

/-- The text of a value that may be absent. -/
def textOrEmpty (data : Data) : Except Fault String :=
  match data with
  | .scalar .null => .ok ""
  | other => other.display

/-- The feedback of a document. -/
def feedback (data : Data) : Except Fault (Option Feedback) := do
  match data with
  | .mapping entries =>
      return some {
        strengths := ← texts (member entries "strengths" "strengths")
        weaknesses := ← texts (member entries "weaknesses" "weaknesses")
        suggestions := ← texts (member entries "suggestions" "suggestions")
        interviewQuestions := ← texts (member entries "interviewQuestions" "interview_questions")
        detailedAnalysis := ← textOrEmpty (member entries "detailedAnalysis" "detailed_analysis") }
  | _ => return none

/-- The evaluation of a document. -/
def evaluationOf (data : Data) : Except Fault (Option Evaluation) := do
  match data with
  | .mapping entries =>
      let found ← scores ((Entries.get? entries "scores").getD .null)
      let written ← feedback ((Entries.get? entries "feedback").getD .null)
      match found, written with
      | some scores, some feedback => return some { scores, feedback }
      | _, _ => return none
  | _ => return none

/-- The evaluation that a text holds, if it holds one. -/
def parse (text : String) : Except Fault (Option Evaluation) :=
  if text = "" then .ok none
  else
    match Json.decode (String.ofList (stripFences text.toList)) with
    | .ok data => evaluationOf data
    | .error _ => .ok none

end Payload

end Scorecard
