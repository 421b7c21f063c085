import Scorecard.CommandLine.Usage
import Scorecard.Number.Numeral
import Scorecard.Text.Lines

/-!
# Command line grammars

A grammar lists the options of a program and tells what operands it takes. Each word of a command
line is an option, an operand, or the mark after which there are only operands. An option may be
written by the start of its long name if no other name starts so, and its value may stand in the
same word after an equals sign. Short options that take no value may stand together in one word.

All words are sorted first; then options and operands are taken from left to right, and the first
problem ends the reading. The operands of a program are taken where the first of them stands, so
later ones are left over.
-/

namespace Scorecard

namespace CommandLine

/-- What an option does. -/
inductive OptionKind where
  | flag
  | text
  | integer
  | choice (values : List String)
  | version
  | help
deriving DecidableEq

/-- An option with its names, the long one last. -/
structure OptionSpec where
  names : List String
  kind : OptionKind
deriving DecidableEq

namespace OptionSpec

/-- The name under which the value of an option is kept. -/
def key (spec : OptionSpec) : String :=
  spec.names.getLast?.getD ""

/-- All names of an option. -/
def title (spec : OptionSpec) : String :=
  "/".intercalate spec.names

/-- Whether an option takes a value. -/
def takesValue (spec : OptionSpec) : Bool :=
  match spec.kind with
  | .text | .integer | .choice _ => true
  | .flag | .version | .help => false

end OptionSpec

/-- The operands of a program. -/
inductive Operands where
  /-- One or more. -/
  | several (name : String)
  /-- One or none. -/
  | optional (name : String)
  /-- The name of a command and all words after it. -/
  | command (name : String) (commands : List String)
deriving DecidableEq

/-- The options and operands of a program. -/
structure Grammar where
  program : String
  options : List OptionSpec
  operands : Operands
deriving DecidableEq

/-- What stands after the name of an option in the same word. -/
structure Attached where
  /-- Whether an equals sign stands before it. -/
  byEquals : Bool
  text : List Char
deriving DecidableEq

/-- What a word is. -/
inductive Role where
  | separator
  | operand
  | unknownOption
  | option (spec : OptionSpec) (name : String) (attached : Option Attached)
deriving DecidableEq

namespace Role

/-- Whether a word is an operand. -/
def isOperand : Role → Bool
  | .operand => true
  | _ => false

/-- Whether a word separates options from operands. -/
def isSeparator : Role → Bool
  | .separator => true
  | _ => false

end Role

namespace Grammar

/-- The names of all options, each with its option. -/
def named (grammar : Grammar) : List (String × OptionSpec) :=
  grammar.options.flatMap fun spec => spec.names.map fun name => (name, spec)

/-- The option with a name. -/
def find? (grammar : Grammar) (name : String) : Option OptionSpec :=
  grammar.named.lookup name

/-- A word before and after its first equals sign, if it has one. -/
def splitEquals (word : List Char) : List Char × Option Attached :=
  match word.dropWhile (· != '=') with
  | _ :: value => (word.takeWhile (· != '='), some ⟨true, value⟩)
  | [] => (word, none)

/-- Whether a word is a negative number. A line feed at the very end is not looked at. -/
def isNegativeNumber (word : List Char) : Bool :=
  let isDigit (c : Char) : Bool := (decimalValue? c).isSome
  let isEnd (rest : List Char) : Bool := rest.isEmpty || rest == ['\n']
  match word with
  | '-' :: body =>
      let whole := body.takeWhile isDigit
      match body.dropWhile isDigit with
      | '.' :: fraction =>
          !(fraction.takeWhile isDigit).isEmpty && isEnd (fraction.dropWhile isDigit)
      | rest => !whole.isEmpty && isEnd rest
  | _ => false

/-- The options that a word may stand for which is the name of none. -/
def candidates (grammar : Grammar) (word : List Char) : List (String × OptionSpec × Attached) :=
  match word with
  | '-' :: '-' :: _ =>
      let (start, attached) := splitEquals word
      (grammar.named.filter fun (name, _) => start.isPrefixOf name.toList).map fun (name, spec) =>
        (name, spec, attached.getD ⟨false, []⟩)
  | _ =>
      (grammar.named.filter fun (name, _) => name.toList = word.take 2).map fun (name, spec) =>
        (name, spec, ⟨false, word.drop 2⟩)

/-- What a word before the separator is. -/
def roleOf (grammar : Grammar) (word : String) : Except UsageProblem Role :=
  match word.toList with
  | '-' :: second :: rest =>
      let chars := '-' :: second :: rest
      match grammar.find? word with
      | some spec => .ok (.option spec word none)
      | none =>
          let (start, attached) := splitEquals chars
          let name := String.ofList start
          match attached, grammar.find? name with
          | some value, some spec => .ok (.option spec name (some value))
          | _, _ =>
              match grammar.candidates chars with
              | [] =>
                  .ok (if isNegativeNumber chars || chars.contains ' ' then .operand
                    else .unknownOption)
              | [(name, spec, value)] =>
                  let isBare := second == '-' && attached.isNone
                  .ok (.option spec name (if isBare then none else some value))
              | several => .error (.ambiguousOption word (several.map (·.1)))
  | _ => .ok .operand

/-- The words with what each of them is. -/
def rolesOf (grammar : Grammar) : List String → Except UsageProblem (List (String × Role))
  | [] => .ok []
  | word :: rest =>
      if word = "--" then .ok ((word, .separator) :: rest.map fun operand => (operand, .operand))
      else do
        let role ← grammar.roleOf word
        return (word, role) :: (← grammar.rolesOf rest)

end Grammar

/-- The options that a word stands for, each with its value if that stands in the word too. -/
structure OptionUses where
  uses : List (OptionSpec × Option String)
  /-- What is left of the word that names no option. -/
  unknown : List String := []
deriving DecidableEq

/-- The same uses after one of an option without a value. -/
def OptionUses.after (spec : OptionSpec) (later : OptionUses) : OptionUses :=
  { later with uses := (spec, none) :: later.uses }

namespace Grammar

/-- The options of a word in which something is attached to the name of one. Behind a short option
that takes no value stand further ones, each by its letter. -/
def attachedUses (grammar : Grammar) (spec : OptionSpec) (isShort byEquals : Bool) :
    List Char → Except UsageProblem OptionUses
  | [] =>
      if spec.takesValue then .ok { uses := [(spec, some "")] }
      else .error (.unwantedValue spec.title "")
  | letter :: rest =>
      let text := String.ofList (letter :: rest)
      if spec.takesValue then
        .ok { uses := [(spec, some text)] }
      else if !isShort || byEquals || letter == '-' then
        .error (.unwantedValue spec.title text)
      else
        match grammar.find? (String.ofList ['-', letter]) with
        | none => .ok { uses := [(spec, none)], unknown := ["-" ++ text] }
        | some next =>
            match rest with
            | [] => .ok { uses := [(spec, none), (next, none)] }
            | '=' :: value => (grammar.attachedUses next true true value).map (·.after spec)
            | c :: others => (grammar.attachedUses next true false (c :: others)).map (·.after spec)

/-- The options of a word. -/
def usesOf (grammar : Grammar) (spec : OptionSpec) (name : String) (attached : Option Attached) :
    Except UsageProblem OptionUses :=
  match attached with
  | none => .ok { uses := [(spec, none)] }
  | some value =>
      grammar.attachedUses spec (name.toList.take 2 != ['-', '-']) value.byEquals value.text

end Grammar

/-- What has been read of a command line. -/
structure Reading where
  /-- The options with their values, in the order in which they stand. -/
  settings : List (String × String) := []
  /-- The operands, once they are taken. -/
  operands : Option (List String) := none
  /-- The words that are neither options nor operands. -/
  unknown : List String := []
deriving DecidableEq

namespace Reading

/-- The value of an option; the last one counts. -/
def text? (reading : Reading) (key : String) : Option String :=
  reading.settings.reverse.lookup key

/-- All values of an option. -/
def texts (reading : Reading) (key : String) : List String :=
  (reading.settings.filter (·.1 == key)).map (·.2)

/-- Whether an option is present. -/
def has (reading : Reading) (key : String) : Bool :=
  (reading.text? key).isSome

/-- The integer that an option has as its value. -/
def integer? (reading : Reading) (key : String) : Option Int :=
  (reading.text? key).bind fun text => Numeral.toInteger? text.toList

end Reading

namespace Grammar

/-- The reading with the value of an option, or the stop that the option calls for. -/
def applyOption (grammar : Grammar) (reading : Reading) (spec : OptionSpec) (value : String) :
    Except Stop Reading :=
  let accepted := { reading with settings := reading.settings ++ [(spec.key, value)] }
  match spec.kind with
  | .version => .error .version
  | .help => .error (.help grammar.program)
  | .flag => .ok accepted
  | .text => .ok accepted
  | .integer =>
      if (Numeral.toInteger? value.toList).isSome then .ok accepted
      else .error (.misuse grammar.program (.notInteger spec.title value))
  | .choice values =>
      if values.contains value then .ok accepted
      else .error (.misuse grammar.program (.notChoice spec.title value values))

/-- The reading after options with their values. -/
def applyAll (grammar : Grammar) : Reading → List (OptionSpec × String) → Except Stop Reading
  | reading, [] => .ok reading
  | reading, (spec, value) :: rest => do
      grammar.applyAll (← grammar.applyOption reading spec value) rest

/-- The options of a word with their values, and how many of the words after it are taken: one if
the last option still needs its value. -/
def completed (uses : List (OptionSpec × Option String)) (rest : List (String × Role)) :
    Except UsageProblem (List (OptionSpec × String) × Nat) :=
  let values := uses.map fun (spec, value) => (spec, value.getD "")
  match uses.getLast? with
  | some (spec, none) =>
      if spec.takesValue then
        match rest with
        | (word, .operand) :: _ => .ok (values.dropLast ++ [(spec, word)], 1)
        | _ => .error (.missingValue spec.title)
      else
        .ok (values, 0)
  | _ => .ok (values, 0)

/-- The operands at the start of the words, with the count of words that they take up; none if there
is no operand. -/
def operandsAt? (operands : Operands) (words : List (String × Role)) : Option (List String × Nat) :=
  let marks := words.takeWhile (·.2.isSeparator)
  let afterMarks := words.drop marks.length
  match operands, afterMarks with
  | .several _, (_, .operand) :: _ =>
      let taken := words.takeWhile fun (_, role) => role.isSeparator || role.isOperand
      some ((taken.map (·.1)).erase "--", taken.length)
  | .optional _, (word, .operand) :: rest =>
      some ([word], marks.length + 1 + (rest.takeWhile (·.2.isSeparator)).length)
  | .optional _, _ => some ([], marks.length)
  | .command .., (_, .operand) :: _ => some (words.map (·.1), words.length)
  | _, _ => none

/-- Whether taken operands are as they should be: the first one of a command line with commands is
one of these. -/
def checkOperands (grammar : Grammar) (taken : List String) : Except Stop Unit :=
  match grammar.operands, taken with
  | .command name commands, command :: _ =>
      if commands.contains command then .ok ()
      else .error (.misuse grammar.program (.notChoice name command commands))
  | _, _ => .ok ()

/-- Reads words from left to right; `skip` of them are taken already. -/
def readFrom (grammar : Grammar) : (skip : Nat) → Reading → List (String × Role) →
    Except Stop Reading
  | _, reading, [] => .ok reading
  | skip + 1, reading, _ :: rest => grammar.readFrom skip reading rest
  | 0, reading, (word, role) :: rest =>
      match role with
      | .unknownOption =>
          grammar.readFrom 0 { reading with unknown := reading.unknown ++ [word] } rest
      | .option spec name attached => do
          let found ← (grammar.usesOf spec name attached).mapError (.misuse grammar.program)
          let (values, taken) ← (completed found.uses rest).mapError (.misuse grammar.program)
          let next := { reading with unknown := reading.unknown ++ found.unknown }
          grammar.readFrom taken (← grammar.applyAll next values) rest
      | _ =>
          let found := if reading.operands.isSome then none
            else operandsAt? grammar.operands ((word, role) :: rest)
          match found with
          | none => grammar.readFrom 0 { reading with unknown := reading.unknown ++ [word] } rest
          | some (operands, taken) => do
              grammar.checkOperands operands
              grammar.readFrom (taken - 1) { reading with operands := some operands } rest

/-- The operand that must not be missing. -/
def requiredOperand? (grammar : Grammar) : Option String :=
  match grammar.operands with
  | .several name => some name
  | .command name _ => some name
  | .optional _ => none

/-- Reads a command line. -/
def read (grammar : Grammar) (words : List String) : Except Stop Reading := do
  let sorted ← (grammar.rolesOf words).mapError (.misuse grammar.program)
  let reading ← grammar.readFrom 0 {} sorted
  match reading.operands, grammar.requiredOperand? with
  | none, some name => throw (.misuse grammar.program (.missingOperand name))
  | _, _ => return reading

end Grammar

end CommandLine

end Scorecard
