import Scorecard.Number.Basic
import Scorecard.Number.Numeral
import Scorecard.Text.Quoted

/-!
# Decoded documents

A decoded document is a scalar, a list or a mapping. Mappings keep the order in which their keys
first appeared; a repeated key keeps its place and takes the new value. Keys are scalars, and
numbers of one value are one key, whether they are truth values, integers or floats.

Every value can be shown as a text, which fails only for integers with too many digits, and scalars
can be taken as numbers where they denote one.
-/

namespace Scorecard

-- Powers are those of the core library, whatever other instances are in scope.
attribute [local instance (high)] instPowNat

/-- A day of the calendar. -/
structure Day where
  year : Nat
  month : Nat
  day : Nat
deriving DecidableEq

/-- An instant as it is written, with its offset from universal time in seconds if one is given. -/
structure Moment where
  date : Day
  hour : Nat
  minute : Nat
  second : Nat
  microsecond : Nat
  offset : Option Int
deriving DecidableEq

/-- A value without parts. -/
inductive Scalar where
  | null
  | bool (value : Bool)
  | int (value : Int)
  | float (value : Binary64)
  | text (value : String)
  | octets (value : List UInt8)
  | day (value : Day)
  | moment (value : Moment)
deriving DecidableEq

/-- A decoded document. -/
inductive Data where
  | scalar (value : Scalar)
  | list (items : List Data)
  | mapping (entries : List (Scalar × Data))

namespace Data

/-- The absent value. -/
@[match_pattern] abbrev null : Data := .scalar .null

/-- A truth value. -/
@[match_pattern] abbrev bool (value : Bool) : Data := .scalar (.bool value)

/-- An integer. -/
@[match_pattern] abbrev int (value : Int) : Data := .scalar (.int value)

/-- A float. -/
@[match_pattern] abbrev float (value : Binary64) : Data := .scalar (.float value)

/-- A text. -/
@[match_pattern] abbrev text (value : String) : Data := .scalar (.text value)

/-- A number. -/
def number : Number → Data
  | .int value => .int value
  | .float value => .float value

end Data

/-- The entries of a mapping, in the order of their keys' first appearance. -/
abbrev Entries := List (Scalar × Data)

namespace Scalar

/-- The number that a scalar is; truth values count as one and zero. -/
def number? : Scalar → Option Number
  | .bool value => some (.int (if value then 1 else 0))
  | .int value => some (.int value)
  | .float value => some (.float value)
  | _ => none

/-- Whether two scalars are the same key. -/
def sameKey (left right : Scalar) : Bool :=
  match left.number?, right.number? with
  | some leftNumber, some rightNumber => leftNumber.equals rightNumber
  | none, none => left == right
  | _, _ => false

/-- Whether a scalar counts as true: neither absent, nor zero, nor empty. -/
def isTruthy : Scalar → Bool
  | .null => false
  | .bool value => value
  | .int value => value != 0
  | .float value => !value.isZero
  | .text value => value != ""
  | .octets value => !value.isEmpty
  | .day _ => true
  | .moment _ => true

end Scalar

namespace Entries

/-- The value under a key. -/
def find? (entries : Entries) (key : Scalar) : Option Data :=
  (List.find? (fun entry => entry.1.sameKey key) entries).map (·.2)

/-- The value under a text key. -/
def get? (entries : Entries) (key : String) : Option Data :=
  entries.find? (.text key)

/-- The entries with the value under a key replaced, or with a new entry at the end. -/
def insert : Entries → Scalar → Data → Entries
  | [], key, value => [(key, value)]
  | (key', value') :: rest, key, value =>
      if key'.sameKey key then (key', value) :: rest
      else (key', value') :: insert rest key value

/-- The entries of a list of pairs. -/
def ofPairs (pairs : List (Scalar × Data)) : Entries :=
  pairs.foldl (fun entries pair => entries.insert pair.1 pair.2) []

end Entries

/-- The decimal text of an integer, unless it has too many digits. -/
def integerText (value : Int) : Except Fault String :=
  if 10 ^ digitLimit ≤ value.natAbs then .error .integerTooLong else .ok (toString value)

/-- The number in two digits. -/
def twoDigits (value : Nat) : String :=
  (if value < 10 then "0" else "") ++ toString value

/-- The number padded with zeros to a width. -/
def paddedDigits (width value : Nat) : String :=
  let digits := toString value
  String.ofList (List.replicate (width - digits.length) '0') ++ digits

namespace Day

/-- Year, month and day, set apart by hyphens. -/
def display (day : Day) : String :=
  s!"{paddedDigits 4 day.year}-{twoDigits day.month}-{twoDigits day.day}"

/-- The expression that builds the day. -/
def literal (day : Day) : String :=
  s!"datetime.date({day.year}, {day.month}, {day.day})"

end Day

namespace Moment

/-- An offset from universal time as a sign, hours, minutes and, if there are any, seconds. -/
def offsetText (offset : Int) : String :=
  let seconds := offset.natAbs
  let sign := if offset < 0 then "-" else "+"
  let rest := if seconds % 60 = 0 then "" else ":" ++ twoDigits (seconds % 60)
  s!"{sign}{twoDigits (seconds / 3600)}:{twoDigits (seconds / 60 % 60)}{rest}"

/-- Day and time, with microseconds and offset if there are any. -/
def display (moment : Moment) : String :=
  let fraction :=
    if moment.microsecond = 0 then "" else "." ++ paddedDigits 6 moment.microsecond
  let zone := (moment.offset.map offsetText).getD ""
  s!"{moment.date.display} {twoDigits moment.hour}:{twoDigits moment.minute}:" ++
    s!"{twoDigits moment.second}{fraction}{zone}"

/-- The expression that builds a fixed offset. -/
def zoneLiteral (offset : Int) : String :=
  if offset = 0 then "datetime.timezone.utc"
  else
    let days := Int.fdiv offset 86400
    let seconds := Int.fmod offset 86400
    let parts := (if days = 0 then [] else [s!"days={days}"]) ++
      (if seconds = 0 then [] else [s!"seconds={seconds}"])
    "datetime.timezone(datetime.timedelta(" ++ ", ".intercalate parts ++ "))"

/-- The expression that builds the moment; seconds and microseconds are left out while they are zero
at the end. -/
def literal (moment : Moment) : String :=
  let fields := [moment.date.year, moment.date.month, moment.date.day, moment.hour, moment.minute]
  let fine :=
    if moment.microsecond ≠ 0 then [moment.second, moment.microsecond]
    else if moment.second ≠ 0 then [moment.second]
    else []
  let zone := match moment.offset with
    | none => []
    | some offset => [s!"tzinfo={zoneLiteral offset}"]
  "datetime.datetime(" ++ ", ".intercalate ((fields ++ fine).map toString ++ zone) ++ ")"

end Moment

namespace Scalar

/-- The scalar as an expression: texts are quoted. -/
def literal : Scalar → Except Fault String
  | .null => .ok "None"
  | .bool value => .ok (if value then "True" else "False")
  | .int value => integerText value
  | .float value => .ok (String.ofList (Layout.exact.render value))
  | .text value => .ok (String.ofList (quoted value.toList))
  | .octets value => .ok (String.ofList (quotedOctets value))
  | .day value => .ok value.literal
  | .moment value => .ok value.literal

/-- The scalar as a text: a text stands for itself. -/
def display : Scalar → Except Fault String
  | .text value => .ok value
  | .day value => .ok value.display
  | .moment value => .ok value.display
  | value => value.literal

end Scalar

namespace Data

mutual

/-- The value as an expression, with texts quoted at every depth. -/
def literal : Data → Except Fault String
  | .scalar value => value.literal
  | .list items => do return "[" ++ ", ".intercalate (← itemLiterals items) ++ "]"
  | .mapping entries => do return "\x7b" ++ ", ".intercalate (← entryLiterals entries) ++ "\x7d"

/-- The items of a list as expressions. -/
def itemLiterals : List Data → Except Fault (List String)
  | [] => .ok []
  | item :: rest => do return (← literal item) :: (← itemLiterals rest)

/-- The entries of a mapping as expressions, key and value set apart by a colon. -/
def entryLiterals : List (Scalar × Data) → Except Fault (List String)
  | [] => .ok []
  | (key, value) :: rest => do
      let keyText ← key.literal
      let valueText ← literal value
      return (keyText ++ ": " ++ valueText) :: (← entryLiterals rest)

end

/-- The value as a text: a text stands for itself, all else for its expression. -/
def display : Data → Except Fault String
  | .scalar value => value.display
  | value => value.literal

mutual

/-- Whether two values are equal: numbers by value, lists item by item, mappings without regard to
the order of their entries. -/
def equals : Data → Data → Bool
  | .scalar left, .scalar right => left.sameKey right
  | .list left, .list right => itemsEqual left right
  | .mapping left, .mapping right => left.length == right.length && entriesIn left right
  | _, _ => false

/-- Whether two lists are equal item by item. -/
def itemsEqual : List Data → List Data → Bool
  | [], [] => true
  | left :: lefts, right :: rights => equals left right && itemsEqual lefts rights
  | _, _ => false

/-- Whether each entry of a mapping has its equal in another one. -/
def entriesIn : List (Scalar × Data) → List (Scalar × Data) → Bool
  | [], _ => true
  | (key, value) :: rest, others =>
      (match Entries.find? others key with
        | none => false
        | some other => equals value other) && entriesIn rest others

end

/-- Whether the value counts as true: neither absent, nor zero, nor empty. -/
def isTruthy : Data → Bool
  | .scalar value => value.isTruthy
  | .list items => !items.isEmpty
  | .mapping entries => !entries.isEmpty

/-- The entries of a mapping. -/
def entries? : Data → Option Entries
  | .mapping entries => some entries
  | _ => none

/-- The integer that a value denotes: a number without its fraction, or a text that is a numeral.
Infinities are a fault, all else denotes none. -/
def toInteger? : Data → Except Fault (Option Int)
  | .bool value => .ok (some (if value then 1 else 0))
  | .int value => .ok (some value)
  | .float value =>
      match Number.truncate value with
      | .ok whole => .ok (some whole)
      | .error .nanToInteger => .ok none
      | .error fault => .error fault
  | .text value => .ok (Numeral.toInteger? value.toList)
  | .scalar (.octets value) =>
      .ok (Numeral.toInteger? (value.map fun octet => Char.ofNat octet.toNat))
  | _ => .ok none

/-- The float that a value denotes: a number, or a text that is a numeral. Integers out of range are
a fault, all else denotes none. -/
def toFloat? : Data → Except Fault (Option Binary64)
  | .bool value => .ok (some (.ofInt (if value then 1 else 0)))
  | .int value => (Number.floatOfInt value).map some
  | .float value => .ok (some value)
  | .text value => .ok (Numeral.toFloat? value.toList)
  | _ => .ok none

/-- The word for the kind of a value. -/
def kindName : Data → String
  | .scalar .null => "NoneType"
  | .scalar (.bool _) => "bool"
  | .scalar (.int _) => "int"
  | .scalar (.float _) => "float"
  | .scalar (.text _) => "str"
  | .scalar (.octets _) => "bytes"
  | .scalar (.day _) => "date"
  | .scalar (.moment _) => "datetime"
  | .list _ => "list"
  | .mapping _ => "dict"

end Data

end Scorecard
