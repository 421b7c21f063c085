import Scorecard.CommandLine.Run

/-!
# Invocations

An invocation reads a command line and runs its command. It ends with a number, or in a fault. A
command line that cannot be read ends with the number two and a complaint, and leaves the session as
it is.
-/

namespace Scorecard

/-- What an invocation leaves. -/
structure Outcome where
  /-- The number at the end. -/
  ending : Except Fault Nat
  session : Session
  /-- What is said about a command line that cannot be read. -/
  complaint : Option String := none

namespace Outcome

/-- The notices of the session, one on a line. -/
def log (outcome : Outcome) : String :=
  String.join (outcome.session.journal.notices.map fun notice => notice.render ++ "\n")

end Outcome

namespace CommandLine

/-- The number at the end of a command line that cannot be read. -/
def misuseCode : Nat := 2

/-- The help on a program: how it is called. -/
def helpText (program : String) : String :=
  s!"usage: {program} ...\n"

/-- The session with a text printed as it is. -/
def printed (session : Session) (text : String) : Session :=
  { session with output := session.output ++ text }

/-- Reads a command line and runs its command. -/
def invoke (surroundings : Surroundings) (session : Session) (arguments : List String) : Outcome :=
  match Command.ofArguments arguments with
  | .ok command =>
      let (answer, final) := (command.run surroundings).runOn session
      { ending := answer.map Exit.code, session := final }
  | .error .version =>
      { ending := .ok Exit.success.code
        session := printed session s!"{programName} {programVersion}\n" }
  | .error (.help program) =>
      { ending := .ok Exit.success.code, session := printed session (helpText program) }
  | .error (.misuse program problem) =>
      { ending := .ok misuseCode, session,
        complaint := some s!"{program}: error: {problem.message}" }

end CommandLine

end Scorecard
