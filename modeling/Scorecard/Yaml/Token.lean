import Scorecard.Number.Numeral
import Scorecard.Text.Utf8
import Scorecard.Yaml.ScalarText

/-!
# YAML tokens

A text is cut into tokens. Indentation becomes tokens of its own: a deeper column opens a collection
and a shallower one closes it. A key that has no mark of its own is only known at the colon after
it, so a place where a key may have started is remembered, and the tokens that open it are put there
later. Such a key stays on one line and within a bounded length.

The scan fails where a character cannot start a token or stands where its token is not allowed. Each
token uses at least one character, so the length of the text bounds the count of scanned tokens.
-/

namespace Scorecard

namespace Yaml

/-- A token of a text. -/
inductive Token where
  | versionDirective (major : Nat)
  | tagDirective (handle lead : String)
  | otherDirective
  | documentStart
  | documentEnd
  | blockSequenceStart
  | blockMappingStart
  | blockEnd
  | flowSequenceStart
  | flowSequenceEnd
  | flowMappingStart
  | flowMappingEnd
  | flowEntry
  | blockEntry
  | key
  | value
  | alias (name : String)
  | anchor (name : String)
  | tag (handle : Option String) (suffix : String)
  | scalar (text : String) (isPlain : Bool)
deriving DecidableEq

/-- A place where a key without a mark may have started. -/
structure KeyCandidate where
  /-- The depth of flow collections around it. -/
  level : Nat
  /-- The count of tokens before it. -/
  position : Nat
  /-- Whether nothing but a key may stand there. -/
  isRequired : Bool
  index : Nat
  line : Nat
  column : Nat

/-- A scan of a text up to a place. -/
structure Scan where
  cursor : Cursor
  tokens : Array Token := #[]
  /-- The depth of flow collections. -/
  flowLevel : Nat := 0
  /-- The column of the innermost block collection. -/
  indent : Int := -1
  /-- The columns of the collections around it, innermost first. -/
  outerIndents : List Int := []
  /-- Whether a key without a mark may start at the place. -/
  allowsKey : Bool := true
  candidates : List KeyCandidate := []

namespace Scan

/-- Whether the place is inside a flow collection. -/
def inFlow (scan : Scan) : Bool :=
  scan.flowLevel != 0

/-- The scan with one more token. -/
def push (scan : Scan) (token : Token) : Scan :=
  { scan with tokens := scan.tokens.push token }

/-- The scan with a token put at a position. -/
def insertAt (scan : Scan) (position : Nat) (token : Token) : Scan :=
  { scan with
    tokens := scan.tokens.extract 0 position ++ #[token] ++
      scan.tokens.extract position scan.tokens.size }

/-- The scan after a count of characters. -/
def skip (scan : Scan) (count : Nat) : Scan :=
  { scan with cursor := scan.cursor.skip count }

/-- Forgets candidates that are on another line or too far back; a required one must not be among
them. -/
def dropStale? (scan : Scan) : Option Scan :=
  let isStale (candidate : KeyCandidate) : Bool :=
    candidate.line != scan.cursor.line || candidate.index + 1024 < scan.cursor.index
  if scan.candidates.any fun candidate => isStale candidate && candidate.isRequired then none
  else some { scan with candidates := scan.candidates.filter (!isStale ·) }

/-- Forgets the candidate of the current level; it must not be required. -/
def dropCandidate? (scan : Scan) : Option Scan :=
  let isCurrent (candidate : KeyCandidate) : Bool := candidate.level == scan.flowLevel
  if scan.candidates.any fun candidate => isCurrent candidate && candidate.isRequired then none
  else some { scan with candidates := scan.candidates.filter (!isCurrent ·) }

/-- Remembers that a key may start at the place, if it may. -/
def saveCandidate? (scan : Scan) : Option Scan :=
  if scan.allowsKey then do
    let cleared ← scan.dropCandidate?
    let candidate : KeyCandidate := {
      level := scan.flowLevel
      position := scan.tokens.size
      isRequired := !scan.inFlow && scan.indent == scan.cursor.column
      index := scan.cursor.index
      line := scan.cursor.line
      column := scan.cursor.column }
    return { cleared with candidates := candidate :: cleared.candidates }
  else
    some scan

/-- Closes at most the given count of block collections that are indented deeper than a column. -/
def closeDeeper (column : Int) : (count : Nat) → Scan → Scan
  | 0, scan => scan
  | count + 1, scan =>
      if column < scan.indent then
        closeDeeper column count { scan.push .blockEnd with
          indent := scan.outerIndents.head?.getD (-1), outerIndents := scan.outerIndents.drop 1 }
      else
        scan

/-- Closes the block collections that are indented deeper than a column. -/
def unwind (scan : Scan) (column : Int) : Scan :=
  if scan.inFlow then scan else closeDeeper column (scan.outerIndents.length + 1) scan

/-- The scan with a column as the innermost indentation, and whether it is deeper than before. -/
def deepen (scan : Scan) (column : Nat) : Bool × Scan :=
  if scan.indent < column then
    (true, { scan with indent := column, outerIndents := scan.indent :: scan.outerIndents })
  else
    (false, scan)

/-- The scan with a block collection opened at the current column, if that is deeper than before. -/
def openBlock (scan : Scan) (token : Token) : Scan :=
  let (isDeeper, opened) := scan.deepen scan.cursor.column
  if isDeeper then opened.push token else opened

/-- The place of the next token: spaces, comments and ends of lines are left out, and outside of
flow collections a key may start after the end of a line. -/
def skipToToken : (fuel : Nat) → Scan → Scan
  | 0, scan => scan
  | fuel + 1, scan =>
      let start := scan.cursor.skipWhile (· == ' ')
      let after := if start.next == some '#' then start.skipWhile (!isBreak ·) else start
      match after.lineBreak? with
      | none => { scan with cursor := after }
      | some (_, place) =>
          skipToToken fuel
            { scan with cursor := place, allowsKey := scan.allowsKey || !scan.inFlow }

/-- Starts a token that cannot be a key and after which none may start: all block collections are
closed. -/
def startOutermost? (scan : Scan) : Option Scan := do
  let cleared ← (scan.unwind (-1)).dropCandidate?
  return { cleared with allowsKey := false }

/-- Whether a character can stand in a name. -/
def isNameChar (c : Char) : Bool :=
  c.isAlphanum || c == '-' || c == '_'

/-- Whether a place is at the end of the text or before a space or the end of a line. -/
def atSpaceOrBreak (next : Option Char) : Bool :=
  (next.map fun c => c == ' ' || isBreak c).getD true

/-- The character of an escape in a tag, one octet for each pair of digits. -/
def tagEscape? (cursor : Cursor) : Option (UInt8 × Cursor) :=
  match cursor.rest with
  | '%' :: high :: low :: _ => do
      let code := (← Json.hexValue? high) * 16 + (← Json.hexValue? low)
      return (code.toUInt8, cursor.skip 3)
  | _ => none

/-- The octets of the escapes at a place. -/
def tagOctets? : (fuel : Nat) → Cursor → Option (List UInt8 × Cursor)
  | 0, _ => none
  | fuel + 1, cursor =>
      if cursor.next == some '%' then do
        let (octet, after) ← tagEscape? cursor
        let (others, place) ← tagOctets? fuel after
        return (octet :: others, place)
      else
        some ([], cursor)

/-- The characters of a tag at a place. -/
def tagText? : (fuel : Nat) → Cursor → Option (List Char × Cursor)
  | 0, _ => none
  | fuel + 1, cursor =>
      match cursor.next with
      | none => some ([], cursor)
      | some c =>
          if c == '%' then do
            let (octets, after) ← tagOctets? (cursor.rest.length + 1) cursor
            let text ← (Utf8.decode octets).toOption
            let (others, place) ← tagText? fuel after
            return (text ++ others, place)
          else if c.isAlphanum || "-;/?:@&=+$,_.!~*'()[]".toList.contains c then do
            let (others, place) ← tagText? fuel cursor.step
            return (c :: others, place)
          else
            some ([], cursor)

/-- A tag that is not empty. -/
def tagSuffix? (cursor : Cursor) : Option (String × Cursor) := do
  let (text, place) ← tagText? (cursor.rest.length + 1) cursor
  if text.isEmpty then none else return (String.ofList text, place)

/-- The handle of a tag: a mark, or a name between two marks. -/
def tagHandle? (cursor : Cursor) : Option (String × Cursor) :=
  match cursor.rest with
  | '!' :: rest =>
      let name := rest.takeWhile isNameChar
      match rest.drop name.length with
      | '!' :: _ => some (String.ofList ('!' :: name ++ ['!']), cursor.skip (name.length + 2))
      | ' ' :: _ => if name.isEmpty then some ("!", cursor.step) else none
      | _ => none
  | _ => none

/-- Reads a tag: in angle brackets, a mark alone, or a suffix with or without a handle. -/
def readTag? (cursor : Cursor) : Option (Token × Cursor) := do
  let (token, place) ←
    if cursor.second == some '<' then do
      let (suffix, after) ← tagSuffix? (cursor.skip 2)
      if after.next == some '>' then pure (Token.tag none suffix, after.step) else none
    else if atGap cursor.second then pure (Token.tag none "!", cursor.step)
    else do
      let word := (cursor.rest.drop 1).takeWhile fun c => !(c == ' ' || isBreak c)
      let (handle, after) ←
        if word.contains '!' then tagHandle? cursor else pure ("!", cursor.step)
      let (suffix, last) ← tagSuffix? after
      pure (Token.tag (some handle) suffix, last)
  if atSpaceOrBreak place.next then return (token, place) else none

/-- Reads the name of an anchor or an alias after its mark. -/
def readName? (cursor : Cursor) : Option (String × Cursor) :=
  let (name, place) := cursor.step.takeWhile isNameChar
  let ends := match place.next with
    | none => true
    | some c => isGap c || "?:,]\x7d%@".toList.contains c || c.toNat == 0x60
  if name.isEmpty || !ends then none else some (String.ofList name, place)

/-- Reads a whole number of a version. -/
def readVersionPart? (cursor : Cursor) : Option (Nat × Cursor) :=
  let (digits, place) := cursor.takeWhile Char.isDigit
  if digits.isEmpty then none else some (Numeral.valueOf digits, place)

/-- Reads a directive: its name and, for the two that are known, its values. -/
def readDirective? (cursor : Cursor) : Option (Token × Cursor) := do
  let (name, afterName) := cursor.step.takeWhile isNameChar
  if name.isEmpty || !atSpaceOrBreak afterName.next then none
  let (token, place) ←
    if name = "YAML".toList then do
      let (major, point) ← readVersionPart? (afterName.skipWhile (· == ' '))
      if point.next != some '.' then none
      let (_, after) ← readVersionPart? point.step
      if atSpaceOrBreak after.next then pure (Token.versionDirective major, after) else none
    else if name = "TAG".toList then do
      let (handle, afterHandle) ← tagHandle? (afterName.skipWhile (· == ' '))
      if afterHandle.next != some ' ' then none
      let (lead, after) ← tagSuffix? (afterHandle.skipWhile (· == ' '))
      if atSpaceOrBreak after.next then pure (Token.tagDirective handle lead, after) else none
    else
      pure (Token.otherDirective, afterName.skipWhile (!isBreak ·))
  return (token, ← ignoredLine? place)

/-- Whether a plain scalar can start at a place. -/
def startsPlain (inFlow : Bool) (c : Char) (second : Option Char) : Bool :=
  let isIndicator := "-?:,[]\x7b\x7d#&*!|>'\"%@".toList.contains c || c.toNat == 0x60
  (!isGap c && !isIndicator) || (!atGap second && (c == '-' || (!inFlow && (c == '?' || c == ':'))))

/-- A token of fixed text: a flow collection starts and a key may start in it. -/
def flowStart? (scan : Scan) (token : Token) : Option Scan := do
  let saved ← scan.saveCandidate?
  return { (saved.skip 1).push token with flowLevel := scan.flowLevel + 1, allowsKey := true }

/-- A flow collection ends. -/
def flowEnd? (scan : Scan) (token : Token) : Option Scan := do
  if scan.flowLevel = 0 then none
  let cleared ← scan.dropCandidate?
  return { (cleared.skip 1).push token with flowLevel := scan.flowLevel - 1, allowsKey := false }

/-- The entry of a block sequence. -/
def entry? (scan : Scan) : Option Scan := do
  if !scan.inFlow && !scan.allowsKey then none
  let opened := if scan.inFlow then scan else scan.openBlock .blockSequenceStart
  let cleared ← opened.dropCandidate?
  return { (cleared.skip 1).push .blockEntry with allowsKey := true }

/-- A key with a mark. -/
def markedKey? (scan : Scan) : Option Scan := do
  if !scan.inFlow && !scan.allowsKey then none
  let opened := if scan.inFlow then scan else scan.openBlock .blockMappingStart
  let cleared ← opened.dropCandidate?
  return { (cleared.skip 1).push .key with allowsKey := !scan.inFlow }

/-- The value of a mapping: what stands before it on the line becomes its key if it can be one. -/
def value? (scan : Scan) : Option Scan := do
  match scan.candidates.find? (·.level == scan.flowLevel) with
  | some candidate =>
      let others := scan.candidates.filter (·.level != scan.flowLevel)
      let keyed := ({ scan with candidates := others }).insertAt candidate.position .key
      let opened :=
        if scan.inFlow then keyed
        else
          let (isDeeper, deeper) := keyed.deepen candidate.column
          if isDeeper then deeper.insertAt candidate.position .blockMappingStart else deeper
      return { (opened.skip 1).push .value with allowsKey := false }
  | none =>
      if !scan.inFlow && !scan.allowsKey then none
      let opened := if scan.inFlow then scan else scan.openBlock .blockMappingStart
      let cleared ← opened.dropCandidate?
      return { (cleared.skip 1).push .value with allowsKey := !scan.inFlow }

/-- A token that may be a key and after which none may start. -/
def possibleKey? (scan : Scan) (token : Token) (place : Cursor) : Option Scan := do
  let saved ← scan.saveCandidate?
  return { saved.push token with cursor := place, allowsKey := false }

/-- The scan after the token that starts with the given character. -/
def token? (scan : Scan) (c : Char) : Option Scan :=
  let cursor := scan.cursor
  let atLineStart := cursor.column == 0
  if c == '%' && atLineStart then do
    let started ← scan.startOutermost?
    let (token, place) ← readDirective? cursor
    return { started.push token with cursor := place }
  else if atLineStart && cursor.atDocumentMark '-' then do
    return ((← scan.startOutermost?).skip 3).push .documentStart
  else if atLineStart && cursor.atDocumentMark '.' then do
    return ((← scan.startOutermost?).skip 3).push .documentEnd
  else if c == '[' then scan.flowStart? .flowSequenceStart
  else if c == '\x7b' then scan.flowStart? .flowMappingStart
  else if c == ']' then scan.flowEnd? .flowSequenceEnd
  else if c == '\x7d' then scan.flowEnd? .flowMappingEnd
  else if c == ',' then do
    let cleared ← scan.dropCandidate?
    return { (cleared.skip 1).push .flowEntry with allowsKey := true }
  else if c == '-' && atGap cursor.second then scan.entry?
  else if c == '?' && (scan.inFlow || atGap cursor.second) then scan.markedKey?
  else if c == ':' && (scan.inFlow || atGap cursor.second) then scan.value?
  else if c == '*' then do
    let (name, place) ← readName? cursor
    scan.possibleKey? (.alias name) place
  else if c == '&' then do
    let (name, place) ← readName? cursor
    scan.possibleKey? (.anchor name) place
  else if c == '!' then do
    let (token, place) ← readTag? cursor
    scan.possibleKey? token place
  else if (c == '|' || c == '>') && !scan.inFlow then do
    let cleared ← scan.dropCandidate?
    let (text, place) ← blockScalar? (c == '>') scan.indent cursor
    return { cleared.push (.scalar (String.ofList text) false) with
      cursor := place, allowsKey := true }
  else if c == '\'' || c == '"' then do
    let (text, place) ← quotedScalar? c cursor
    scan.possibleKey? (.scalar (String.ofList text) false) place
  else if startsPlain scan.inFlow c cursor.second then do
    let (text, lineEnded, place) := plainScalar scan.inFlow (scan.indent + 1) cursor
    let saved ← scan.saveCandidate?
    return { saved.push (.scalar (String.ofList text) true) with
      cursor := place, allowsKey := lineEnded }
  else
    none

/-- Scans the rest of a text. -/
def finish? : (fuel : Nat) → Scan → Option (Array Token)
  | 0, _ => none
  | fuel + 1, scan => do
      let start ← (skipToToken (scan.cursor.rest.length + 1) scan).dropStale?
      let unwound := start.unwind start.cursor.column
      match start.cursor.next with
      | none => do
          let closed ← (unwound.unwind (-1)).dropCandidate?
          return closed.tokens
      | some c => finish? fuel (← unwound.token? c)

end Scan

/-- Whether a character may stand in a text at all. -/
def isAllowed (c : Char) : Bool :=
  let code := c.toNat
  code == 9 || code == 10 || code == 13 || (0x20 ≤ code && code ≤ 0x7E) || code == 0x85 ||
    (0xA0 ≤ code && code ≤ 0xD7FF) || (0xE000 ≤ code && code ≤ 0xFFFD) || 0x10000 ≤ code

/-- The tokens of a text. -/
def tokens? (text : List Char) : Option (List Token) :=
  if text.all isAllowed then
    let start : Cursor := { rest := text }
    let cursor := if text.head? == some (Char.ofNat 0xFEFF) then start.step else start
    (Scan.finish? (text.length + 2) { cursor }).map Array.toList
  else
    none

end Yaml

end Scorecard
