import Scorecard.Proofs.Evaluation.Fences
import Scorecard.Proofs.Json.RoundTrip
import Scorecard.Proofs.Json.Written
import Scorecard.Proofs.Report.Modest

/-!
# Evaluations on the wire

An evaluator sends an evaluation as the text of its document. The text starts with a brace, so
nothing of it is taken for a code fence, whatever stands in the feedback, and the reader of payloads
gets the document itself. Scores come back as they are held: a float that equals one of the bounds
comes back as this bound, all others as they were sent. What has been read once is held already and
comes back as it is.
-/

namespace Scorecard

namespace Scores

/-- The scores held between zero and a hundred. -/
def held (scores : Scores) : Scores :=
  let hold score := Number.clamp score (.int 0) (.int 100)
  { codeQuality := hold scores.codeQuality
    timeComplexity := hold scores.timeComplexity
    spaceComplexity := hold scores.spaceComplexity
    security := hold scores.security
    readability := hold scores.readability }

theorem InRange.held_equals {scores : Scores} (inRange : scores.InRange) :
    scores.held.toData.equals scores.toData = true := by
  apply Data.mapping_equals scores.named_entries
  rcases inRange with ⟨codeQuality, timeComplexity, spaceComplexity, security, readability⟩
  simp only [named, held, List.map_cons, List.map_nil, List.forall₂_cons, List.forall₂_nil_left_iff,
    number_equals, Number.IsScore.clamp_equals, codeQuality, timeComplexity, spaceComplexity,
    security, readability, and_true]

end Scores

namespace Evaluation

/-- The two parts of an evaluation under their names. -/
def entries (evaluation : Evaluation) : Entries :=
  [(.text "scores", evaluation.scores.toData), (.text "feedback", evaluation.feedback.toData)]

/-- The evaluation as a document. -/
def toData (evaluation : Evaluation) : Data :=
  .mapping evaluation.entries

/-- Whether two evaluations are equal, scores by value. -/
def equals (left right : Evaluation) : Bool :=
  left.scores.toData.equals right.scores.toData && left.feedback = right.feedback

theorem named_entries (evaluation : Evaluation) : evaluation.entries.Named where
  texts := by simp [entries]
  distinct := by simp [entries]

theorem isJson_toData (evaluation : Evaluation) : evaluation.toData.IsJson := by
  apply Data.IsJson.mapping evaluation.named_entries
  simp [entries, evaluation.scores.isJson_toData, evaluation.feedback.isJson_toData]

/-- In range, no score has too many digits to be written. -/
theorem writable_toData {evaluation : Evaluation} (inRange : evaluation.scores.InRange) :
    Writable evaluation.toData.integers := by
  intro value mem
  have feedback := evaluation.feedback.toData_integers
  have scored : value ∈ evaluation.scores.toData.integers := by
    simp only [Data.integers] at feedback
    simpa [toData, entries, Data.integers, Data.collect, Data.collectEntries, Scalar.integers,
      feedback] using mem
  have roomy : 10 ^ 4000 ≤ 10 ^ digitLimit := Nat.pow_le_pow_right (by decide) (by decide)
  exact (inRange.modest scored).natAbs_lt.trans_le roomy

end Evaluation

namespace Json

/-- The text of a mapping stands between braces. -/
theorem exists_braced {style : Style} {entries : Entries} {text : String}
    (written : encode style (.mapping entries) = .ok text) :
    ∃ inner, text.toList = '\x7b' :: inner ++ ['\x7d'] := by
  rw [encode, valueText] at written
  rcases bind_eq_ok_iff.mp written with ⟨members, _, returned⟩
  cases returned
  cases members with
  | nil => exact ⟨[], by simp [bracketed]⟩
  | cons member members =>
      have opens : "\x7b".toList = ['\x7b'] := rfl
      have ends : "\x7d".toList = ['\x7d'] := rfl
      have whole := toList_bracketed opens ends (List.cons_ne_nil member members) style 0 []
      rw [List.append_nil] at whole
      rw [whole]
      refine ⟨(style.lineBreak (0 + 1)).toList ++
        (((style.separator ++ style.lineBreak (0 + 1)).intercalate (member :: members)).toList ++
          (style.lineBreak 0).toList), ?_⟩
      simp only [List.cons_append, List.append_assoc]

end Json

namespace Payload

theorem stripFences_braced (inner : List Char) :
    stripFences ('\x7b' :: inner ++ ['\x7d']) = '\x7b' :: inner ++ ['\x7d'] := by
  have opens : isBlank '\x7b' = false := by decide
  have ends : isBlank '\x7d' = false := by decide
  have starts := stripLeft_cons opens (inner ++ ['\x7d'])
  have finish : stripRight (inner ++ ['\x7d']) = inner ++ ['\x7d'] := by
    rw [stripRight, List.reverse_append]
    simp [ends]
  rw [List.cons_append, stripFences_of_not_ticks (by decide) starts,
    strip_of_stripLeft starts, finish]

/-- The reader of payloads gets a document from its text. -/
theorem parse_encode {style : Json.Style} {entries : Entries} {text : String}
    (isJson : (Data.mapping entries).IsJson)
    (written : Json.encode style (.mapping entries) = .ok text) :
    parse text = evaluationOf (.mapping entries) := by
  rcases Json.exists_braced written with ⟨inner, braced⟩
  have nonempty : text ≠ "" := by
    rintro rfl
    simp at braced
  have decoded := Json.decode_encode isJson written
  rw [parse, if_neg nonempty, braced, stripFences_braced, ← braced, String.ofList_toList, decoded]

theorem member_of_mem {entries : Entries} (named : entries.Named) {wireName : String} {value : Data}
    (mem : (.text wireName, value) ∈ entries) (plainName : String) :
    member entries wireName plainName = value := by
  rw [member, Report.get?_of_mem named mem]
  rfl

theorem scoreOf_number {score : Number} (isScore : score.IsScore) :
    scoreOf (.number score) = .ok (some (score.clamp (.int 0) (.int 100))) := by
  rcases Number.kept_of_isScore isScore with ⟨float, converts, _⟩
  cases score with
  | int whole =>
      rw [Number.toFloat] at converts
      simp only [Data.number, scoreOf, converts]
      rfl
  | float value =>
      have finite : value.isFinite = true :=
        (Binary64.isFinite_iff_quanta? value).mpr ⟨_, isScore.worth⟩
      rw [Data.number, scoreOf, if_pos finite]

theorem scoreOf_member {scores : Scores} (name : String) {value : Number}
    (mem : (name, value) ∈ scores.named) (isScore : value.IsScore) (plainName : String) :
    scoreOf (member (scores.named.map fun (name, score) => (.text name, .number score)) name
      plainName) = .ok (some (value.clamp (.int 0) (.int 100))) := by
  rw [member_of_mem scores.named_entries (List.mem_map_of_mem mem)]
  exact scoreOf_number isScore

theorem scores_toData {scores : Scores} (inRange : scores.InRange) :
    Payload.scores scores.toData = .ok (some scores.held) := by
  rcases inRange with ⟨codeQuality, timeComplexity, spaceComplexity, security, readability⟩
  rw [Scores.toData, Payload.scores]
  simp only [scoreNames, scoreList]
  rw [scoreOf_member "codeQuality" (by simp [Scores.named]) codeQuality,
    scoreOf_member "timeComplexity" (by simp [Scores.named]) timeComplexity,
    scoreOf_member "spaceComplexity" (by simp [Scores.named]) spaceComplexity,
    scoreOf_member "security" (by simp [Scores.named]) security,
    scoreOf_member "readability" (by simp [Scores.named]) readability]
  rfl

theorem texts_textsData (listed : List String) :
    texts (Feedback.textsData listed) = .ok listed := by
  have shown := Report.textsOf_textsData listed
  rw [Feedback.textsData] at shown ⊢
  rw [texts, List.filter_eq_self.mpr]
  · exact shown
  · intro item mem
    rcases List.mem_map.mp mem with ⟨text, _, rfl⟩
    rfl

theorem feedback_toData (written : Feedback) : feedback written.toData = .ok (some written) := by
  have field : ∀ key value, (.text key, value) ∈ Report.entriesOf written.toData → ∀ plainName,
      member (Report.entriesOf written.toData) key plainName = value :=
    fun key value mem => member_of_mem written.named_entries mem
  change feedback (.mapping (Report.entriesOf written.toData)) = _
  rw [feedback,
    field "strengths" (Feedback.textsData written.strengths) (by simp [Feedback.toData]),
    field "weaknesses" (Feedback.textsData written.weaknesses) (by simp [Feedback.toData]),
    field "suggestions" (Feedback.textsData written.suggestions) (by simp [Feedback.toData]),
    field "interviewQuestions" (Feedback.textsData written.interviewQuestions)
      (by simp [Feedback.toData]),
      field "detailedAnalysis" (.text written.detailedAnalysis) (by simp [Feedback.toData])]
  simp only [texts_textsData]
  rfl

theorem evaluationOf_toData {evaluation : Evaluation} (inRange : evaluation.scores.InRange) :
    evaluationOf evaluation.toData =
      .ok (some { evaluation with scores := evaluation.scores.held }) := by
  have scored : Entries.get? evaluation.entries "scores" = some evaluation.scores.toData :=
    Report.get?_of_mem evaluation.named_entries (by simp [Evaluation.entries])
  have written : Entries.get? evaluation.entries "feedback" = some evaluation.feedback.toData :=
    Report.get?_of_mem evaluation.named_entries (by simp [Evaluation.entries])
  rw [Evaluation.toData, evaluationOf]
  simp only [scored, written, Option.getD_some, scores_toData inRange, feedback_toData]
  rfl

/-- The scores of an evaluation that has been read are held already. -/
theorem held_of_parse {text : String} {evaluation : Evaluation}
    (read : parse text = .ok (some evaluation)) : evaluation.scores.held = evaluation.scores := by
  rcases (parse_yields text).of_returned read with ⟨_, same⟩
  rcases exists_scores?_of_held? same.symm with ⟨data, scored⟩
  have held : ∀ score ∈ evaluation.scores.named, score.2.clamp (.int 0) (.int 100) = score.2 := by
    intro score mem
    rcases exists_of_scores? scored score mem with ⟨value, value_held⟩
    rcases exists_of_heldScore? value_held with ⟨number, worth, number_worth, score_eq⟩
    rw [score_eq, Number.clamp_clamp number_worth]
  simp only [Scores.named, List.forall_mem_cons] at held
  rcases held with ⟨codeQuality, timeComplexity, spaceComplexity, security, readability, _⟩
  simp only [Scores.held, codeQuality, timeComplexity, spaceComplexity, security, readability]

theorem exists_encode {evaluation : Evaluation} (inRange : evaluation.scores.InRange)
    (style : Json.Style) :
    ∃ text, Json.encode style evaluation.toData = .ok text ∧
      parse text = .ok (some { evaluation with scores := evaluation.scores.held }) := by
  rcases Json.encode_writtenIf style evaluation.toData with ⟨text, written⟩ | ⟨_, long⟩
  · exact ⟨text, written,
      (parse_encode evaluation.isJson_toData written).trans (evaluationOf_toData inRange)⟩
  · exact absurd (Evaluation.writable_toData inRange) long

/-- An evaluation with scores in range comes back from the wire with the scores and the feedback
that it had. What is read from any text at all comes back as it is. -/
theorem parse_toData :
    (∀ evaluation : Evaluation, evaluation.scores.InRange → ∀ style, ∃ text again,
      Json.encode style evaluation.toData = .ok text ∧ parse text = .ok (some again) ∧
        again.equals evaluation = true) ∧
    ∀ text evaluation, parse text = .ok (some evaluation) → ∀ style, ∃ written,
      Json.encode style evaluation.toData = .ok written ∧
      parse written = .ok (some evaluation) := by
  constructor
  · intro evaluation inRange style
    rcases exists_encode inRange style with ⟨text, written, read⟩
    refine ⟨text, _, written, read, ?_⟩
    simp [Evaluation.equals, inRange.held_equals]
  · intro text evaluation read style
    rcases exists_encode (parse_inRange read) style with ⟨again, written, reread⟩
    rw [held_of_parse read] at reread
    exact ⟨again, written, reread⟩

/-- An evaluation with scores at both bounds, one of them a float, and fences in its feedback. -/
def fencedEvaluation : Evaluation where
  scores := ⟨.float (.ofInt 100), .int 0, .float .half, .float (.zero true), .int 100⟩
  feedback := { strengths := ["```json\n\x7b\x7d\n```"], detailedAnalysis := "\x7d```" }

/-- Neither fences nor bounds get lost on the wire. -/
theorem parse_toData_fenced :
    (∃ text again, Json.encode .compact fencedEvaluation.toData = .ok text ∧
      parse text = .ok (some again) ∧ again.equals fencedEvaluation = true) ∧
    ∃ written, Json.encode .compact (quotingEvaluation "Use ```x``` blocks").toData = .ok written ∧
      parse written = .ok (some (quotingEvaluation "Use ```x``` blocks")) := by
  have inRange : fencedEvaluation.scores.InRange := by
    constructor <;> decide +kernel
  exact ⟨parse_toData.1 fencedEvaluation inRange .compact,
    parse_toData.2 _ _ parse_quoting .compact⟩

end Payload

end Scorecard
