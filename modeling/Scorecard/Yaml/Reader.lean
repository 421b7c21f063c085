import Scorecard.Yaml.Node

/-!
# Reading YAML

A node becomes a value. The keys of a mapping must be scalars. An entry whose key is the merge mark
adds the entries of a mapping, or of several, in front of the mapping's own ones, so that those win;
of several mappings the first wins. A key that is the default mark is a text.

Some texts that a safe loader decodes are malformed here: those with a node tagged `!!set`, `!!omap`
or `!!pairs`, whose sets and pairs are no values of a document, and those with an alias inside the
node that it names, whose value would contain itself.
-/

namespace Scorecard

namespace Yaml

/-- The kind that a key has: the default mark is a text there. -/
def keyKind (kind : Kind) : Kind :=
  if kind = .defaultValue then .text else kind

mutual

/-- The value of a node. -/
def Node.toData : Node → Except Fault Data
  | .scalar kind text => do return .scalar (← scalarValue kind text)
  | .sequence kind items => do
      if kind ≠ .sequence then throw .malformedYaml
      return .list (← itemValues items)
  | .mapping kind entries => do
      if kind ≠ .mapping then throw .malformedYaml
      return .mapping (Entries.ofPairs ((← mergedEntries entries) ++ (← ownEntries entries)))

/-- The values of nodes. -/
def itemValues : List Node → Except Fault (List Data)
  | [] => .ok []
  | item :: rest => do return (← item.toData) :: (← itemValues rest)

/-- The entries that a mapping has of its own. -/
def ownEntries : List (Node × Node) → Except Fault (List (Scalar × Data))
  | [] => .ok []
  | (.scalar kind text, value) :: rest => do
      if kind = .merge then ownEntries rest
      else
        let key ← scalarValue (keyKind kind) text
        let data ← value.toData
        return (key, data) :: (← ownEntries rest)
  | _ :: _ => .error .malformedYaml

/-- The entries that a mapping has by its merge marks. -/
def mergedEntries : List (Node × Node) → Except Fault (List (Scalar × Data))
  | [] => .ok []
  | (.scalar kind _, value) :: rest => do
      let added ← if kind = .merge then value.entriesToMerge else pure []
      return added ++ (← mergedEntries rest)
  | _ :: rest => mergedEntries rest

/-- The entries that a node adds to a mapping: those of a mapping, or of each mapping of a sequence,
the last one first. -/
def Node.entriesToMerge : Node → Except Fault (List (Scalar × Data))
  | .scalar .. => .error .malformedYaml
  | .mapping _ entries => do return (← mergedEntries entries) ++ (← ownEntries entries)
  | .sequence _ items => itemEntriesToMerge items

/-- The entries of the mappings among nodes, those of the last one first. -/
def itemEntriesToMerge : List Node → Except Fault (List (Scalar × Data))
  | [] => .ok []
  | .mapping _ entries :: rest => do
      let first := (← mergedEntries entries) ++ (← ownEntries entries)
      return (← itemEntriesToMerge rest) ++ first
  | _ :: _ => .error .malformedYaml

end

/-- The value that a text denotes; that of a text without a document is absent. -/
def decode (text : List Char) : Except Fault Data :=
  match node? text with
  | none => .error .malformedYaml
  | some none => .ok .null
  | some (some node) => node.toData

end Yaml

end Scorecard
