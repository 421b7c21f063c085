import Scorecard.Proofs.Evaluation.Fences
import Scorecard.Proofs.Evaluation.Payload
import Scorecard.Proofs.Evaluation.Task
import Scorecard.Proofs.FileSystem.ReadBack

/-!
# Intake of payloads

An evaluator that reads its payload from a file gives the evaluation in the file, and the neutral
one if there is none. Two things are neither: a score that is an integer beyond the floats, and
octets that are no text.
-/

namespace Scorecard

namespace Payload

/-- The reply that the payload in some octets gives: octets that are no text are a fault. -/
def intake (octets : List UInt8) : Reply :=
  match Utf8.decode octets with
  | .error problem => .failure (Fault.undecodable problem).message
  | .ok text =>
      let payload := String.ofList (universalNewlines text)
      match faults payload with
      | [] => (held? payload).elim .neutral .evaluation
      | fault :: _ => .failure fault.message

theorem payloadReply_eq (text : String) :
    payloadReply text = match faults text with
      | [] => (held? text).elim .neutral .evaluation
      | fault :: _ => .failure fault.message := by
  have read := parse_yields text
  rw [payloadReply]
  cases found : faults text with
  | nil =>
      rw [found] at read
      rw [show parse text = .ok (held? text) from read]
      cases held? text <;> rfl
  | cons fault rest =>
      rw [found] at read
      rw [show parse text = .error fault from read]

theorem fileReply_eq (tree : FileTree) (path : Path) :
    fileReply tree path = match tree.read path with
      | .error _ => .neutral
      | .ok octets => intake octets := by
  cases found : tree.read path with
  | error fault =>
      have failed : tree.readText path = .error fault := by
        rw [FileTree.readText, found]
        rfl
      rw [fileReply, failed]
      exact if_pos (FileTree.isFileProblem_of_read found)
  | ok octets =>
      cases decoded : Utf8.decode octets with
      | error problem =>
          have failed : tree.readText path = .error (.undecodable problem) := by
            simp only [FileTree.readText, found, bind, Except.bind, decoded]
            rfl
          rw [fileReply, failed]
          simp only [intake, decoded]
          exact if_neg Bool.false_ne_true
      | ok text =>
          have read : tree.readText path = .ok (universalNewlines text) := by
            simp only [FileTree.readText, found, bind, Except.bind, decoded]
            rfl
          rw [fileReply, read]
          simp only [intake, decoded]
          exact payloadReply_eq _

/-- A text is read as the evaluation that it holds, with scores in range, and a file gives what is
read from its text, or the neutral evaluation if it cannot be read or holds none. What stands in the
way is a score that is an integer beyond the floats, and octets that are no text. -/
theorem parse_intake (text : String) (tree : FileTree) (path : Path) (label : String)
    (question : Question) :
    (Yields (parse text) (held? text) (faults text) ∧
      (∀ evaluation, held? text = some evaluation → evaluation.scores.InRange) ∧
      ∀ fault ∈ faults text, fault = .integerBeyondFloat ∧
        ∃ data, document? text = some data ∧ data.Explains fault) ∧
    ((Evaluator.file path).behaviour tree).evaluate label question =
      (Evaluator.file path).evaluate tree label ∧
    ((Evaluator.file path).behaviour tree).reply question =
      match tree.read path with
      | .error _ => .neutral
      | .ok octets => intake octets := by
  constructor
  · exact ⟨parse_yields text, fun evaluation => inRange_of_held?,
      fun fault => explains_of_mem_faults⟩
  · exact ⟨Evaluator.evaluate_behaviour _ tree label question, fileReply_eq tree path⟩

/-- The characters of a payload whose first score has so many digits. -/
def hugeCharacters (digits : ℕ) : List Char :=
  "\x7b\"scores\": \x7b\"codeQuality\": ".toList ++ List.replicate digits '9' ++
    (", \"timeComplexity\": 70, \"spaceComplexity\": 60, ".toList ++
      "\"security\": 50, \"readability\": 40\x7d, \"feedback\": \x7b\x7d\x7d".toList)

/-- The evaluation in such a payload. -/
def hugeEvaluation : Evaluation where
  scores := ⟨.int 100, .int 70, .int 60, .int 50, .int 40⟩
  feedback := {}

/-- A tree with a file of one octet that is no text. -/
def brokenTree : FileTree :=
  ⟨[], [(["payload.json"], .file [0xFF] 0)]⟩

/-- A score is held to a hundred as long as its digits make a float, and octets that are no text do
not give the neutral evaluation. -/
theorem parse_huge :
    parse (String.ofList (hugeCharacters 300)) = .ok (some hugeEvaluation) ∧
      parse (String.ofList (hugeCharacters 400)) = .error .integerBeyondFloat ∧
      ((Evaluator.file (.ofString "payload.json")).behaviour brokenTree).reply
        ⟨.text "", .text "", false, .zero⟩ ≠ .neutral := by
  refine ⟨?_, ?_, ?_⟩
  · rw [parse_ofList (by decide)]
    decide +kernel
  · rw [parse_ofList (by decide)]
    decide +kernel
  · decide +kernel

end Payload

end Scorecard
