import Scorecard.Analysis.Metrics
import Scorecard.Json.Writer

/-!
# Prompts for evaluators

A prompt states the task, the mode, the code inside a fence, the metrics of the code and the shape
of the answer. Its sections are set apart by empty lines.
-/

namespace Scorecard

namespace Prompt

/-- Lines put together. -/
def ofLines (lines : List String) : String :=
  "\n".intercalate lines

/-- The instructions of the interview mode. -/
def interviewInstructions : String :=
  ofLines [
    "INTERVIEW MODE ENABLED:",
    "- Provide tougher, more critical evaluation",
    "- Include 3-5 challenging follow-up questions",
    "- Ask about optimization opportunities",
    "- Challenge edge cases",
    "- Include behavioral questions about coding approach"]

/-- The instructions of the practice mode. -/
def practiceInstructions : String :=
  ofLines [
    "- Provide balanced, constructive feedback",
    "- Focus on learning and improvement",
    "- Include 2-3 relevant follow-up questions"]

/-- What the scores mean. -/
def scoringGuidelines : String :=
  ofLines [
    "SCORING GUIDELINES:",
    "- Code Quality (0-100): Overall structure, design patterns, best practices",
    "- Time Complexity (0-100): Algorithm efficiency, unnecessary operations",
    "- Space Complexity (0-100): Memory usage, data structure choices",
    "- Security (0-100): Vulnerabilities, input validation, secure practices",
    "- Readability (0-100): Naming, comments, code organization"]

/-- The shape of the answer. -/
def responseShape (interviewMode : Bool) : String :=
  let questions := if interviewMode then "3-5" else "2-3"
  ofLines [
    "\x7b",
    "  \"scores\": \x7b",
    "    \"codeQuality\": <number 0-100>,",
    "    \"timeComplexity\": <number 0-100>,",
    "    \"spaceComplexity\": <number 0-100>,",
    "    \"security\": <number 0-100>,",
    "    \"readability\": <number 0-100>",
    "  \x7d,",
    "  \"feedback\": \x7b",
    "    \"strengths\": [<array of 2-4 strength points>],",
    "    \"weaknesses\": [<array of 2-4 weakness points>],",
    "    \"suggestions\": [<array of 3-5 actionable improvements>],",
    "    \"interviewQuestions\": [<array of " ++ questions ++ " follow-up questions>],",
    "    \"detailedAnalysis\": \"<2-3 paragraphs: algorithm choice, structure, bugs, " ++
      "performance, security>\"",
    "  \x7d",
    "\x7d"]

/-- The line of a fence. -/
def fence : String :=
  String.ofList (List.replicate 3 (Char.ofNat 0x60))

/-- The prompt for a piece of code. -/
def build (code language : String) (interviewMode : Bool) (metrics : Metrics) :
    Except Fault String := do
  let counts ← Json.encode .indented metrics.toData
  return "\n\n".intercalate [
    "You are an expert code reviewer and technical interviewer. Evaluate the following " ++
      language ++ " code.",
    if interviewMode then interviewInstructions else practiceInstructions,
    "CODE TO EVALUATE:\n" ++ fence ++ language ++ "\n" ++ code ++ "\n" ++ fence,
    "STATIC ANALYSIS RESULTS:\n" ++ counts,
    "Provide a comprehensive evaluation in VALID JSON format with this exact structure:",
    responseShape interviewMode,
    scoringGuidelines,
    "Return ONLY valid JSON, no markdown code blocks or additional text."]

end Prompt

end Scorecard
