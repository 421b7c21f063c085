import Scorecard.Text.Lines
import Scorecard.Text.Pattern

/-!
# Poor names

A declaration of a single letter is poor unless the letter is a usual loop counter, and each generic
word that is used too often is poor once. A word is used where it stands between characters that are
no word characters.
-/

namespace Scorecard

/-- The letters that are usual as loop counters. -/
def loopCounters : List Char := ['i', 'j', 'k']

/-- Words that say nothing about what they name. -/
def genericNames : List String := ["temp", "tmp", "data", "val", "foo", "bar", "test"]

/-- How often a generic word may be used. -/
def genericNameLimit : Nat := 2

/-- The rest of a declaration of a single letter after its word. -/
def singleLetterRest : List Step :=
  [.gap, .one fun c => 'a' ≤ c && c ≤ 'z', .blanks, .char '=']

/-- A declaration of a single letter with a value. -/
def singleLetterDeclaration : Pattern :=
  [Step.literal "const" ++ singleLetterRest, Step.literal "let" ++ singleLetterRest,
    Step.literal "var" ++ singleLetterRest]

/-- The letter that a declaration declares: the last character before the blanks and the sign at its
end. -/
def declaredLetter? (declaration : List Char) : Option Char :=
  ((declaration.reverse.drop 1).dropWhile isBlank).head?

/-- Whether a declaration declares a letter that is no loop counter. -/
def isPoorDeclaration (declaration : List Char) : Bool :=
  match declaredLetter? declaration with
  | none => false
  | some letter => !loopCounters.contains letter

/-- Whether a word stands at the start of a text and ends there as a word. -/
def startsWithWord (word text : List Char) : Bool :=
  match dropStart? word text with
  | none => false
  | some after => !((after.head?.map isWord).getD false)

/-- How often a word stands in a text as a word of its own; the first argument tells whether a word
character stands before the text. -/
def countWord (word : List Char) : (afterWord : Bool) → List Char → Nat
  | _, [] => 0
  | afterWord, c :: rest =>
      (if !afterWord && startsWithWord word (c :: rest) then 1 else 0) +
        countWord word (isWord c) rest

/-- The generic words that a text uses too often. -/
def overusedNames (source : List Char) : List String :=
  genericNames.filter fun name => genericNameLimit < countWord name.toList false source

/-- The count of poor names. -/
def countPoorNaming (source : List Char) : Nat :=
  ((singleLetterDeclaration.occurrences source).filter isPoorDeclaration).length +
    (overusedNames source).length

end Scorecard
