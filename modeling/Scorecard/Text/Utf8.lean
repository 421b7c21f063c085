import Scorecard.Text.Quoted

/-!
# UTF-8

The first octet of a character gives the count of the octets that follow and the range in which the
first of those must lie; the others lie in the common range. So the longest part of a broken
character that could still have become one is known, and this part is what an error names and what
one replacement character stands for.
-/

namespace Scorecard

namespace Utf8

/-- What a first octet promises. -/
structure Lead where
  /-- How many octets follow. -/
  following : Nat
  /-- The least value of the next octet. -/
  nextLow : Nat
  /-- The greatest value of the next octet. -/
  nextHigh : Nat
  /-- The bits of the character that the first octet holds. -/
  bits : Nat

/-- The table of first octets; overlong forms, surrogates and codes past the last plane are ruled
out by the range of the next octet. -/
def lead? (octet : Nat) : Option Lead :=
  if octet < 0x80 then some ⟨0, 0x80, 0xBF, octet⟩
  else if octet < 0xC2 then none
  else if octet < 0xE0 then some ⟨1, 0x80, 0xBF, octet - 0xC0⟩
  else if octet < 0xF0 then
    some ⟨2, if octet = 0xE0 then 0xA0 else 0x80, if octet = 0xED then 0x9F else 0xBF, octet - 0xE0⟩
  else if octet < 0xF5 then
    some ⟨3, if octet = 0xF0 then 0x90 else 0x80, if octet = 0xF4 then 0x8F else 0xBF, octet - 0xF0⟩
  else none

/-- Why octets are not a character. -/
inductive Reason where
  | invalidStart
  | invalidContinuation
  | endOfData
deriving DecidableEq

/-- What stands at the start of some octets: a character, or a broken part of the given length. -/
inductive Piece where
  | character (c : Char) (length : Nat)
  | broken (reason : Reason) (length : Nat)

/-- Reads the octets after the first one: `following` are expected, the next of them between `low`
and `high`, and `length` octets and the bits of `code` have been read. -/
def tailPiece (following low high length code : Nat) (octets : List UInt8) : Piece :=
  match following, octets with
  | 0, _ => .character (Char.ofNat code) length
  | _ + 1, [] => .broken .endOfData length
  | following + 1, octet :: rest =>
      if low ≤ octet.toNat ∧ octet.toNat ≤ high then
        tailPiece following 0x80 0xBF (length + 1) (code * 64 + (octet.toNat - 0x80)) rest
      else
        .broken .invalidContinuation length

/-- What a first octet and the octets after it begin with. -/
def piece (octet : UInt8) (rest : List UInt8) : Piece :=
  match lead? octet.toNat with
  | none => .broken .invalidStart 1
  | some lead => tailPiece lead.following lead.nextLow lead.nextHigh 1 lead.bits rest

/-- Where and why octets are not a text. -/
structure Problem where
  /-- The octets of the broken character. -/
  octets : List UInt8
  /-- The position of the first of them. -/
  position : Nat
  reason : Reason
deriving DecidableEq

/-- Reads a text; `skip` octets belong to the character before. -/
def decodeFrom (position : Nat) : (skip : Nat) → List UInt8 → Except Problem (List Char)
  | _, [] => .ok []
  | skip + 1, _ :: rest => decodeFrom (position + 1) skip rest
  | 0, octet :: rest =>
      match piece octet rest with
      | .character c length => (decodeFrom (position + 1) (length - 1) rest).map (c :: ·)
      | .broken reason length => .error ⟨(octet :: rest).take length, position, reason⟩

/-- The text that the octets encode, or the first place at which they do not encode one. -/
def decode (octets : List UInt8) : Except Problem (List Char) :=
  decodeFrom 0 0 octets

/-- Reads a text with one replacement character for each broken part; `skip` octets belong to the
part before. -/
def decodeReplacingFrom : (skip : Nat) → List UInt8 → List Char
  | _, [] => []
  | skip + 1, _ :: rest => decodeReplacingFrom skip rest
  | 0, octet :: rest =>
      match piece octet rest with
      | .character c length => c :: decodeReplacingFrom (length - 1) rest
      | .broken _ length => Char.ofNat 0xFFFD :: decodeReplacingFrom (length - 1) rest

/-- The text that the octets encode, with the replacement character where they do not encode one. -/
def decodeReplacing (octets : List UInt8) : List Char :=
  decodeReplacingFrom 0 octets

/-- The octets of a text. -/
def encode (text : List Char) : List UInt8 :=
  text.flatMap String.utf8EncodeChar

/-- The wording of a reason. -/
def Reason.message : Reason → String
  | .invalidStart => "invalid start byte"
  | .invalidContinuation => "invalid continuation byte"
  | .endOfData => "unexpected end of data"

/-- The wording of a problem: a single octet is shown, several are given by their positions. -/
def Problem.message (problem : Problem) : String :=
  let place := match problem.octets with
    | [octet] => s!"byte 0x{String.ofList (hexDigits 2 octet.toNat)} in position {problem.position}"
    | octets => s!"bytes in position {problem.position}-{problem.position + octets.length - 1}"
  s!"'utf-8' codec can't decode {place}: {problem.reason.message}"

end Utf8

end Scorecard
