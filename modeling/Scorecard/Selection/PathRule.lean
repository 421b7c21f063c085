import Scorecard.Selection.Glob
import Scorecard.Text.Blank
import Scorecard.Text.Lines

/-!
# Path rules

A path rule is a line of text: a glob, perhaps negated. A glob without a slash inside applies at any
depth, any other from the top; one that ends in a slash applies to what is below a directory. Blank
lines, comments and globs with an open bracket are no rules.

Of several rules the last one that takes the path itself decides; where none does, the last one that
takes it by a directory above it.
-/

namespace Scorecard

/-- What a rule applies to. -/
inductive PathShape where
  /-- Every path. -/
  | everything
  /-- Every path below some directory. The flag tells whether the rule was written for
  directories. -/
  | nested (forDirectories : Bool)
  /-- The paths that a glob takes. -/
  | glob (pieces : List GlobPiece) (ending : GlobEnding)
deriving DecidableEq

/-- A line that selects paths, or takes the selection back. -/
structure PathRule where
  isNegated : Bool
  shape : PathShape
deriving DecidableEq

/-- Why a part of a line is no glob. -/
inductive GlobProblem where
  /-- A bracket is not closed. -/
  | openBracket
  /-- A backslash has nothing to protect. -/
  | loneBackslash
deriving DecidableEq

namespace Glob

/-- The class after an opening bracket and the count of its characters with the closing bracket. The
first character of a class may be a closing bracket. -/
def classAtStart? (text : List Char) : Option (CharClass × Nat) :=
  let isNegated := text.head? == some '!' || text.head? == some '^'
  let body := if isNegated then text.drop 1 else text
  let inside := body.take 1 ++ (body.drop 1).takeWhile (· != ']')
  if inside.length < body.length then
    some (⟨isNegated, CharClass.rangesOf inside⟩, text.length - body.length + inside.length + 1)
  else
    none

/-- The pieces of one component; `skip` characters belong to the class before. -/
def componentPiecesAfter : (skip : Nat) → List Char → Except GlobProblem (List GlobPiece)
  | _, [] => .ok []
  | skip + 1, _ :: rest => componentPiecesAfter skip rest
  | 0, ['\\'] => .error .loneBackslash
  | 0, '\\' :: c :: rest => (componentPiecesAfter 0 rest).map (.char c :: ·)
  | 0, '*' :: rest => (componentPiecesAfter 0 rest).map (.run :: ·)
  | 0, '?' :: rest => (componentPiecesAfter 0 rest).map (.one :: ·)
  | 0, '[' :: rest =>
      match classAtStart? rest with
      | none => .error .openBracket
      | some (charClass, length) =>
          (componentPiecesAfter length rest).map (.charClass charClass :: ·)
  | 0, c :: rest => (componentPiecesAfter 0 rest).map (.char c :: ·)

/-- The pieces of one component; one that is a single wildcard is not empty. -/
def componentPieces (component : List Char) : Except GlobProblem (List GlobPiece) :=
  if component = ['*'] then .ok [.one, .run] else componentPiecesAfter 0 component

/-- The component that stands for any directories. -/
def anyDepth : List Char := ['*', '*']

/-- The components of a glob, anchored: one that may apply at any depth starts with the component
for any directories, and one that ends in a slash ends with it. -/
def anchored (components : List (List Char)) : List (List Char) :=
  let fromTop := match components with
    | [] :: rest => rest
    | [only] => if only = anyDepth then [only] else [anyDepth, only]
    | [only, []] => if only = anyDepth then [only, []] else [anyDepth, only, []]
    | _ => components
  match fromTop.getLast? with
  | some [] => fromTop.dropLast ++ [anyDepth]
  | _ => fromTop

/-- The components with neighbouring ones for any directories taken together. -/
def collapsed : List (List Char) → List (List Char)
  | [] => []
  | component :: rest =>
      if component = anyDepth ∧ rest.head? = some anyDepth then collapsed rest
      else component :: collapsed rest

/-- The pieces of the components after the first one. `needsSlash` tells whether a slash stands
before the next of them. A last component for any directories belongs to the ending. -/
def laterPieces : (needsSlash : Bool) → List (List Char) → Except GlobProblem (List GlobPiece)
  | _, [] => .ok []
  | needsSlash, component :: rest =>
      if component = anyDepth then
        if rest.isEmpty then .ok [] else (laterPieces true rest).map (.between :: ·)
      else do
        let pieces ← componentPieces component
        let others ← laterPieces true rest
        return (if needsSlash then [GlobPiece.char '/'] else []) ++ pieces ++ others

/-- The pieces of the components of a glob. -/
def pieces : List (List Char) → Except GlobProblem (List GlobPiece)
  | [] => .ok []
  | component :: rest =>
      if component = anyDepth then (laterPieces false rest).map (.above :: ·)
      else laterPieces false (component :: rest)

/-- What the anchored components of a glob apply to. -/
def shapeOf (forDirectories : Bool) (components : List (List Char)) :
    Except GlobProblem PathShape :=
  if components = [anyDepth] then
    .ok (if forDirectories then .nested true else .everything)
  else if components = [anyDepth, ['*']] then
    .ok .everything
  else if components = [anyDepth, ['*'], anyDepth] then
    .ok (.nested forDirectories)
  else
    let ending :=
      if components.getLast? = some anyDepth then GlobEnding.below forDirectories else .atOrBelow
    (pieces components).map fun pieces => .glob pieces ending

end Glob

/-- Whether a class of the shape holds a range that runs downwards. -/
def PathShape.hasDescendingRange : PathShape → Bool
  | .glob pieces _ => pieces.any fun piece =>
      match piece with
      | .charClass charClass => charClass.isDescending
      | _ => false
  | _ => false

/-- How a shape takes a path. -/
def PathShape.hold? : PathShape → List Char → Option Hold
  | .everything, path => if path.any (· != '\n') then some .direct else none
  | .nested forDirectories, path =>
      if '/' ∈ path then some (if forDirectories then .byDirectory else .direct) else none
  | .glob pieces ending, path => Glob.hold? ending pieces path

namespace PathRule

/-- A line without the white space at its end; white space that a backslash protects stays. -/
def trimmed (line : List Char) : List Char :=
  if endsWith ['\\', ' '] line then line else stripRight line

/-- The rule of a line, if it is one. A range that runs downwards is a fault only where the rest of
the line is a glob. -/
def ofLine? (line : List Char) : Except Fault (Option PathRule) :=
  let text := trimmed line
  if text.isEmpty ∨ text.head? = some '#' ∨ text = ['/'] then
    .ok none
  else
    let isNegated := text.head? == some '!'
    let components := splitAtChar '/' (if isNegated then text.drop 1 else text)
    let forDirectories := components.getLast? == some []
    let anchoredComponents := Glob.collapsed (Glob.anchored components)
    if anchoredComponents.isEmpty then
      .error (.invalidPattern (String.ofList line))
    else
      match Glob.shapeOf forDirectories anchoredComponents with
      | .error .openBracket => .ok none
      | .error .loneBackslash => .error (.invalidPattern (String.ofList line))
      | .ok shape =>
          if shape.hasDescendingRange then .error .descendingRange
          else .ok (some ⟨isNegated, shape⟩)

/-- The rules of lines. -/
def ofLines (lines : List (List Char)) : Except Fault (List PathRule) := do
  return (← lines.mapM ofLine?).filterMap id

/-- What rules, the last one first, decide about a path; `byDirectory` is what a later rule has
decided by a directory. -/
def verdictFromLast (path : List Char) : (byDirectory : Option Bool) → List PathRule → Option Bool
  | byDirectory, [] => byDirectory
  | byDirectory, rule :: rest =>
      match rule.shape.hold? path with
      | none => verdictFromLast path byDirectory rest
      | some .direct => some (!rule.isNegated)
      | some .byDirectory => verdictFromLast path (byDirectory.or (some !rule.isNegated)) rest

/-- Whether rules select a path. -/
def selects (rules : List PathRule) (path : List Char) : Bool :=
  (verdictFromLast path none rules.reverse).getD false

end PathRule

end Scorecard
