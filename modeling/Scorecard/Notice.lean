import Scorecard.Fault

/-!
# Notices

A run leaves notices: what was skipped, what was put in its place, what was written. Each notice is
an event with the values that belong to it; its level, the part of the program it comes from and its
wording are functions of the event.
-/

namespace Scorecard

/-- How grave a notice is. -/
inductive Level where
  | info
  | warning
  | error
deriving DecidableEq

/-- The word for a level. -/
def Level.name : Level → String
  | .info => "INFO"
  | .warning => "WARNING"
  | .error => "ERROR"

/-- An event that a run reports. -/
inductive Notice where
  /-- A language belongs to no family. -/
  | unroutedLanguage (language : String)
  /-- A source file cannot be read. -/
  | unreadableSource (path : String) (fault : Fault)
  /-- The text of an evaluation is not one. -/
  | malformedPayload
  /-- The file of an evaluation cannot be read. -/
  | unreadableEvaluation (path : String) (fault : Fault)
  /-- An evaluator failed. -/
  | evaluatorFailed (label : String) (reason : String)
  /-- An evaluator answered with something else than an evaluation. -/
  | evaluatorReturned (kind : String)
  /-- A configuration file cannot be read. -/
  | unreadableConfig (path : String) (fault : Fault)
  /-- A configuration file does not exist. -/
  | missingConfig (path : String)
  /-- A configuration file holds no mapping. -/
  | configNotMapping (path : String)
  /-- A configuration value is no list. -/
  | keyNotList (key : String)
  /-- A configuration value is no integer. -/
  | keyNotInteger (key : String)
  /-- The configured routes are no mapping. -/
  | routesNotMapping
  /-- Code from the standard input has no language. -/
  | languageRequired
  /-- Code and evaluation are both to come from the standard input. -/
  | inputTakenTwice
  /-- A target does not exist. -/
  | missingTarget (path : String)
  /-- A selected file cannot be read. -/
  | skippedSource (path : String) (fault : Fault)
  /-- No file is selected. -/
  | nothingSelected
  /-- Scores are neutral because no evaluation is given. -/
  | neutralScores
  /-- An output is written. -/
  | wrote (output : String) (path : String)
  /-- A score is below the threshold. -/
  | belowThreshold (label : String) (score threshold : Int)
  /-- A report cannot be read. -/
  | unreadableReport (path : String) (fault : Fault)
  /-- A configuration file would be overwritten. -/
  | configExists (path : String)
  /-- The configuration file to check does not exist. -/
  | configNotFound (path : String)
  /-- A configuration is not valid. -/
  | invalidConfig (finding : String)
  /-- A configuration is valid. -/
  | validConfig
deriving DecidableEq

namespace Notice

/-- The level of a notice. -/
def level : Notice → Level
  | .languageRequired | .inputTakenTwice | .missingTarget _ | .belowThreshold .. => .error
  | .unreadableReport .. | .configExists _ | .configNotFound _ | .invalidConfig _ => .error
  | .neutralScores | .wrote .. | .validConfig => .info
  | _ => .warning

/-- The part of the program that a notice comes from. -/
def source : Notice → String
  | .unroutedLanguage _ | .unreadableSource .. => "devscore.analyze.dispatch"
  | .malformedPayload => "devscore.evaluate.parse"
  | .unreadableEvaluation .. => "devscore.evaluate.evaluator"
  | .evaluatorFailed .. | .evaluatorReturned _ => "devscore.evaluate.pipeline"
  | .unreadableConfig .. | .missingConfig _ | .configNotMapping _ => "devscore.config.loader"
  | .keyNotList _ | .keyNotInteger _ | .routesNotMapping => "devscore.config.loader"
  | _ => "devscore.cli"

/-- The wording of a notice. -/
def message : Notice → String
  | .unroutedLanguage language =>
      s!"No analyzer for language {String.ofList (quoted language.toList)}; static metrics " ++
        "default to zero. Route it via language_routes."
  | .unreadableSource path fault => s!"Failed to read {path} ({fault.message}); using zero metrics."
  | .malformedPayload => "Evaluator payload is malformed; using neutral scores."
  | .unreadableEvaluation path fault =>
      s!"Failed to read evaluation {path} ({fault.message}); using neutral scores."
  | .evaluatorFailed label reason =>
      s!"Evaluator failed for {label} ({reason}); using neutral scores."
  | .evaluatorReturned kind => s!"Evaluator returned {kind}; using neutral scores."
  | .unreadableConfig path fault => s!"Failed to load {path} ({fault.message}). Skipping."
  | .missingConfig path => s!"Config {path} not found; skipping."
  | .configNotMapping path => s!"Config {path} is not a mapping; skipping."
  | .keyNotList key => s!"Config key {key} must be a list; ignoring."
  | .keyNotInteger key => s!"Config key {key} must be an integer; ignoring."
  | .routesNotMapping => "Config key language_routes must be a mapping; ignoring."
  | .languageRequired => "Reading code from stdin requires --language."
  | .inputTakenTwice => "Only one of the code and --evaluation can be read from stdin."
  | .missingTarget path => s!"Path {path} not found."
  | .skippedSource path fault => s!"Failed to read {path} ({fault.message}); skipping."
  | .nothingSelected => "No source files selected."
  | .neutralScores => "No evaluation payload given; scoring with neutral qualitative scores."
  | .wrote output path => s!"Wrote {output} to {path}"
  | .belowThreshold label score threshold =>
      s!"Gating failed: {label} scored {score} (< {threshold})"
  | .unreadableReport path fault => s!"Failed to load report {path} ({fault.message})."
  | .configExists path => s!"Config {path} already exists. Use --force to overwrite."
  | .configNotFound path => s!"Config {path} not found."
  | .invalidConfig finding => finding
  | .validConfig => "Config valid."

/-- A notice as a line of the log. -/
def render (notice : Notice) : String :=
  s!"{notice.level.name} {notice.source}: {notice.message}"

end Notice

end Scorecard
