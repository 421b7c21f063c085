import Scorecard.Yaml.Implicit
import Scorecard.Yaml.Token

/-!
# YAML nodes

The tokens of a text are read into one node: a scalar with its kind, a sequence or a mapping. An
anchor names a node and an alias stands for the node so named before it. Where a value is missing
the absent value stands. Every call of a reader uses a token or leads to one that does, which bounds
the recursion by the count of tokens.

An alias inside the node that it names is malformed here, although a safe loader decodes it: a node
is a finite tree, and it has its name only once it is complete. The tags `!!set`, `!!omap` and
`!!pairs` name no kind of node.
-/

namespace Scorecard

namespace Yaml

/-- A node with its kind. -/
inductive Node where
  | scalar (kind : Kind) (text : List Char)
  | sequence (kind : Kind) (items : List Node)
  | mapping (kind : Kind) (entries : List (Node × Node))

/-- The node of a missing value. -/
def Node.absent : Node := .scalar .null []

/-- The tokens that are left, the nodes that have names, and the leads that handles of tags stand
for. -/
structure Build where
  tokens : List Token
  anchors : List (String × Node) := []
  handles : List (String × String) := []

/-- A reader of tokens that may fail. -/
abbrev Reader := StateT Build Option

namespace Reader

/-- The next token. -/
def next : Reader (Option Token) := do
  return (← get).tokens.head?

/-- Leaves out the next token. -/
def advance : Reader Unit :=
  modify fun build => { build with tokens := build.tokens.drop 1 }

/-- Leaves out the next token if it is the given one, and tells whether it was. -/
def accept (token : Token) : Reader Bool := do
  if (← next) = some token then
    advance
    return true
  else
    return false

/-- Leaves out the next token, which must be the given one. -/
def expect (token : Token) : Reader Unit := do
  if !(← accept token) then failure

/-- Whether the next token is one of those given, or the text is over. -/
def atAny (tokens : List Token) : Reader Bool := do
  match ← next with
  | none => return true
  | some token => return tokens.contains token

/-- What stands before the content of a node: its name and its tag. -/
structure Properties where
  anchor : Option String
  tag : Option String

/-- The full tag of a token's handle and suffix. -/
def fullTag (handle : Option String) (suffix : String) : Reader String := do
  match handle with
  | none => return suffix
  | some name =>
      match (← get).handles.lookup name with
      | some lead => return lead ++ suffix
      | none => failure

/-- Reads a name, if one stands there. -/
def anchor? : Reader (Option String) := do
  match ← next with
  | some (.anchor name) =>
      advance
      return some name
  | _ => return none

/-- Reads a tag, if one stands there. -/
def tag? : Reader (Option String) := do
  match ← next with
  | some (.tag handle suffix) =>
      advance
      return some (← fullTag handle suffix)
  | _ => return none

/-- Reads name and tag in any order. -/
def properties : Reader Properties := do
  let first ← anchor?
  let tag ← tag?
  let anchor ← if first.isSome then pure first else anchor?
  return { anchor, tag }

/-- The kind of a collection: the one its tag names, or its own. -/
def collectionKind (tag : Option String) (own : Kind) : Kind :=
  match tag with
  | none => own
  | some "!" => own
  | some name => .ofTag name

/-- The kind of a scalar: the one its tag names, or that of its form if it is plain. -/
def scalarKind (tag : Option String) (isPlain : Bool) (text : List Char) : Kind :=
  match tag with
  | none => if isPlain then .ofForm text else .text
  | some "!" => .ofForm text
  | some name => .ofTag name

/-- Names a node; a name is given once. -/
def register (anchor : Option String) (node : Node) : Reader Unit := do
  match anchor with
  | none => return
  | some name =>
      if ((← get).anchors.lookup name).isSome then failure
      modify fun build => { build with anchors := (name, node) :: build.anchors }

mutual

/-- Reads a node. Block collections may start only where `inBlock` holds, and a sequence without an
indentation of its own only where `indentless` holds. -/
def node (inBlock indentless : Bool) : (fuel : Nat) → Reader Node
  | 0 => failure
  | fuel + 1 => do
      match ← next with
      | some (.alias name) =>
          advance
          match (← get).anchors.lookup name with
          | some known => return known
          | none => failure
      | _ =>
          let properties ← properties
          let content ← content inBlock indentless properties fuel
          register properties.anchor content
          return content

/-- Reads the content of a node after its name and tag. -/
def content (inBlock indentless : Bool) (properties : Properties) : (fuel : Nat) → Reader Node
  | 0 => failure
  | fuel + 1 => do
      let tag := properties.tag
      match ← next with
      | some (.scalar text isPlain) =>
          advance
          return .scalar (scalarKind tag isPlain text.toList) text.toList
      | some .flowSequenceStart =>
          advance
          return .sequence (collectionKind tag .sequence) (← flowItems true fuel)
      | some .flowMappingStart =>
          advance
          return .mapping (collectionKind tag .mapping) (← flowEntries true fuel)
      | some .blockEntry =>
          if indentless then
            return .sequence (collectionKind tag .sequence) (← indentlessItems fuel)
          else
            emptyContent properties
      | some .blockSequenceStart =>
          if inBlock then
            advance
            return .sequence (collectionKind tag .sequence) (← blockItems fuel)
          else
            emptyContent properties
      | some .blockMappingStart =>
          if inBlock then
            advance
            return .mapping (collectionKind tag .mapping) (← blockEntries fuel)
          else
            emptyContent properties
      | _ => emptyContent properties

/-- The content of a node that has nothing but a name or a tag. -/
def emptyContent (properties : Properties) : Reader Node := do
  if properties.anchor.isNone && properties.tag.isNone then failure
  return .scalar (scalarKind properties.tag true []) []

/-- Reads a node of a block, or the absent value before one of the given tokens. -/
def blockNodeOrAbsent (indentless : Bool) (stops : List Token) : (fuel : Nat) → Reader Node
  | 0 => failure
  | fuel + 1 => do
      if ← atAny stops then return .absent else node true indentless fuel

/-- Reads the items of a block sequence up to its end. -/
def blockItems : (fuel : Nat) → Reader (List Node)
  | 0 => failure
  | fuel + 1 => do
      if ← accept .blockEntry then
        let item ← blockNodeOrAbsent false [.blockEntry, .blockEnd] fuel
        return item :: (← blockItems fuel)
      else
        expect .blockEnd
        return []

/-- Reads the items of a block sequence without an indentation of its own. -/
def indentlessItems : (fuel : Nat) → Reader (List Node)
  | 0 => failure
  | fuel + 1 => do
      if ← accept .blockEntry then
        let item ← blockNodeOrAbsent false [.blockEntry, .key, .value, .blockEnd] fuel
        return item :: (← indentlessItems fuel)
      else
        return []

/-- Reads the entries of a block mapping up to its end. -/
def blockEntries : (fuel : Nat) → Reader (List (Node × Node))
  | 0 => failure
  | fuel + 1 => do
      let stops : List Token := [.key, .value, .blockEnd]
      if ← accept .key then
        let key ← blockNodeOrAbsent true stops fuel
        let value ← if ← accept .value then blockNodeOrAbsent true stops fuel else pure .absent
        return (key, value) :: (← blockEntries fuel)
      else
        expect .blockEnd
        return []

/-- Reads a node of a flow collection, or the absent value before one of the given tokens. -/
def flowNodeOrAbsent (stops : List Token) : (fuel : Nat) → Reader Node
  | 0 => failure
  | fuel + 1 => do
      if ← atAny stops then return .absent else node false false fuel

/-- Reads the items of a flow sequence up to its end; a single pair is an item. -/
def flowItems (isFirst : Bool) : (fuel : Nat) → Reader (List Node)
  | 0 => failure
  | fuel + 1 => do
      if ← accept .flowSequenceEnd then return []
      if !isFirst then expect .flowEntry
      if ← accept .flowSequenceEnd then return []
      if ← accept .key then
        let key ← flowNodeOrAbsent [.value, .flowEntry, .flowSequenceEnd] fuel
        let value ←
          if ← accept .value then flowNodeOrAbsent [.flowEntry, .flowSequenceEnd] fuel
          else pure .absent
        return .mapping .mapping [(key, value)] :: (← flowItems false fuel)
      else
        let item ← node false false fuel
        return item :: (← flowItems false fuel)

/-- Reads the entries of a flow mapping up to its end; a node without a mark is a key without a
value. -/
def flowEntries (isFirst : Bool) : (fuel : Nat) → Reader (List (Node × Node))
  | 0 => failure
  | fuel + 1 => do
      if ← accept .flowMappingEnd then return []
      if !isFirst then expect .flowEntry
      if ← accept .flowMappingEnd then return []
      if ← accept .key then
        let key ← flowNodeOrAbsent [.value, .flowEntry, .flowMappingEnd] fuel
        let value ←
          if ← accept .value then flowNodeOrAbsent [.flowEntry, .flowMappingEnd] fuel
          else pure .absent
        return (key, value) :: (← flowEntries false fuel)
      else
        let key ← node false false fuel
        return (key, .absent) :: (← flowEntries false fuel)

end

/-- The handles that need no directive. -/
def standardHandles : List (String × String) :=
  [("!", "!"), ("!!", standardLead)]

/-- Reads the directives before a document. A version is given at most once, and so is each
handle. -/
def directives (versionSeen : Bool) (handles : List (String × String)) :
    (fuel : Nat) → Reader (List (String × String))
  | 0 => failure
  | fuel + 1 => do
      match ← next with
      | some (.versionDirective major) =>
          if versionSeen || major != 1 then failure
          advance
          directives true handles fuel
      | some (.tagDirective handle lead) =>
          if (handles.lookup handle).isSome then failure
          advance
          directives versionSeen ((handle, lead) :: handles) fuel
      | some .otherDirective =>
          advance
          directives versionSeen handles fuel
      | _ => return handles

/-- Leaves out the marks of ended documents. -/
def skipDocumentEnds : (fuel : Nat) → Reader Unit
  | 0 => return
  | fuel + 1 => do
      if ← accept .documentEnd then skipDocumentEnds fuel

/-- Whether a directive or a mark of a document stands there, or the text is over. -/
def atDocumentBoundary : Reader Bool := do
  match ← next with
  | none | some .documentStart | some .documentEnd | some .otherDirective => return true
  | some (.versionDirective _) | some (.tagDirective ..) => return true
  | _ => return false

/-- Reads the first document, if there is any; nothing but marks may follow it. -/
def document? (fuel : Nat) : Reader (Option Node) := do
  let isBare := match ← next with
    | none | some .documentStart | some .otherDirective => false
    | some (.versionDirective _) | some (.tagDirective ..) => false
    | _ => true
  if isBare then
    modify ({ · with handles := standardHandles })
    let root ← node true false fuel
    finish fuel
    return some root
  else
    if (← next).isNone then return none
    let declared ← directives false [] fuel
    modify ({ · with handles := declared ++ standardHandles })
    expect .documentStart
    let root ← if ← atDocumentBoundary then pure .absent else node true false fuel
    finish fuel
    return some root
where
  /-- Nothing but the marks of ended documents is left. -/
  finish (fuel : Nat) : Reader Unit := do
    skipDocumentEnds fuel
    if (← next).isSome then failure

end Reader

/-- The node of a text, if it holds one; none if it is not well formed. -/
def node? (text : List Char) : Option (Option Node) := do
  let tokens ← tokens? text
  let fuel := 4 * tokens.length + 8
  let (root, _) ← (Reader.document? fuel).run { tokens }
  return root

end Yaml

end Scorecard
