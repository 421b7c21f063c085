/-!
# Configuration templates

A new configuration file starts from one of two templates: one that shows every field, and a short
one.
-/

namespace Scorecard

/-- A template for a new configuration file. -/
inductive Template where
  | full
  | minimal
deriving DecidableEq

namespace Template

/-- All templates, in alphabetical order of their names. -/
def all : List Template := [.full, .minimal]

/-- The name of a template. -/
def name : Template → String
  | .full => "full"
  | .minimal => "minimal"

/-- The template with a name. -/
def ofName? (name : String) : Option Template :=
  all.find? (·.name == name)

/-- The lines of a template. -/
def lines : Template → List String
  | .full => [
      "# DevScore configuration example (repo-relative paths)",
      "include:",
      "  - \".\"",
      "exclude:",
      "  - \".venv\"",
      "  - \"venv\"",
      "  - \".tox\"",
      "  - \"build\"",
      "  - \"dist\"",
      "  - \"node_modules\"",
      "  - \"vendor\"",
      "  - \".git\"",
      "languages:",
      "  - \"python\"",
      "  - \"javascript\"",
      "  - \"typescript\"",
      "  - \"cpp\"",
      "  - \"java\"",
      "",
      "# Languages without their own rule set are scored with all-zero static",
      "# metrics unless routed to a family (js, python, cpp).",
      "language_routes:",
      "  java: \"js\"",
      "",
      "# Tougher evaluator prompts with more follow-up questions",
      "interview_mode: false",
      "",
      "max_files: 200",
      "parallel_workers: 0",
      "",
      "# Exit non-zero when any DevScore falls below this value (null to disable)",
      "fail_under:"]
  | .minimal => [
      "# DevScore minimal configuration",
      "include:",
      "  - \".\"",
      "languages:",
      "  - \"python\""]

/-- The text of a template. -/
def text (template : Template) : String :=
  String.join (template.lines.map (· ++ "\n"))

end Template

end Scorecard
