import Scorecard.Data
import Scorecard.Json.Text
import Scorecard.Text.Lines

/-!
# The kinds of YAML scalars

A plain scalar has the kind that its text has the form of: absent, a truth value, an integer, a
float, a date or time, the merge mark or the default mark; otherwise it is a text. Integers may be
binary, octal, hexadecimal or counted in sixties, and floats may be counted in sixties too. A scalar
with a tag is taken as the kind that the tag names whatever its form, which fails where the text
does not denote such a value.
-/

namespace Scorecard

-- Powers are those of the core library, whatever other instances are in scope.
attribute [local instance (high)] instPowNat

namespace Yaml

/-- The kind of a node; kinds that no value has are told apart by their names alone. -/
inductive Kind where
  | null
  | bool
  | int
  | float
  | timestamp
  | text
  | octets
  | merge
  | defaultValue
  | sequence
  | mapping
  | unknown
deriving DecidableEq

/-- The lead of the names of the standard kinds. -/
def standardLead : String := "tag:yaml.org,2002:"

/-- The kind that a full tag names. -/
def Kind.ofTag (tag : String) : Kind :=
  let names : List (String × Kind) :=
    [("null", .null), ("bool", .bool), ("int", .int), ("float", .float), ("timestamp", .timestamp),
      ("str", .text), ("binary", .octets), ("merge", .merge), ("value", .defaultValue),
      ("seq", .sequence), ("map", .mapping)]
  match dropStart? standardLead.toList tag.toList with
  | none => .unknown
  | some name => (names.lookup (String.ofList name)).getD .unknown

/-- The spellings of the truth values. -/
def truthNames : List (String × Bool) :=
  [("yes", true), ("no", false), ("true", true), ("false", false), ("on", true), ("off", false)]

/-- Whether a text is a lower-case name as it stands, capitalised, or in capitals. -/
def isSpelling (name text : List Char) : Bool :=
  text == name || text == name.map Char.toUpper ||
    text == (name.take 1).map Char.toUpper ++ name.drop 1

/-- The truth value that a text spells. -/
def truth? (text : List Char) : Option Bool :=
  (truthNames.find? fun (name, _) => isSpelling name.toList text).map (·.2)

/-- Whether a text is empty, a tilde or the name of the absent value. -/
def isNull (text : List Char) : Bool :=
  text == [] || text == ['~'] || isSpelling "null".toList text

/-- The text after its sign, if it has one. -/
def afterSign (text : List Char) : List Char :=
  (Numeral.splitSign text).2

/-- Whether a character is a digit or an underscore. -/
def isDigitOrGap (c : Char) : Bool :=
  c.isDigit || c == '_'

/-- Whether a text is not empty and its characters are of a class. -/
def isAllOf (accepts : Char → Bool) (text : List Char) : Bool :=
  !text.isEmpty && text.all accepts

/-- Whether a text is a count of sixties: one or two digits below sixty. -/
def isSixtieth (text : List Char) : Bool :=
  match text with
  | [a] => a.isDigit
  | [a, b] => '0' ≤ a && a ≤ '5' && b.isDigit
  | _ => false

/-- Whether a text has the form of an integer. -/
def isIntegerForm (text : List Char) : Bool :=
  let isDecimal (digits : List Char) : Bool :=
    match digits with
    | first :: rest => first != '0' && first.isDigit && rest.all isDigitOrGap
    | [] => false
  match afterSign text with
  | ['0'] => true
  | '0' :: 'b' :: digits => isAllOf (fun c => c == '0' || c == '1' || c == '_') digits
  | '0' :: 'x' :: digits => isAllOf (fun c => (Json.hexValue? c).isSome || c == '_') digits
  | '0' :: digits => isAllOf (fun c => ('0' ≤ c && c ≤ '7') || c == '_') digits
  | other =>
      match splitAtChar ':' other with
      | [whole] => isDecimal whole
      | whole :: parts => isDecimal whole && parts.all isSixtieth
      | [] => false

/-- Whether a text is empty or an exponent with a sign. -/
def isExponentForm (text : List Char) : Bool :=
  match text with
  | [] => true
  | mark :: sign :: digits =>
      (mark == 'e' || mark == 'E') && (sign == '-' || sign == '+') && isAllOf Char.isDigit digits
  | _ => false

/-- Whether a text starts with a digit and goes on with digits and underscores. -/
def isDigitsForm (text : List Char) : Bool :=
  ((text.head?.map Char.isDigit).getD false) && text.all isDigitOrGap

/-- Whether a text has the form of a float. -/
def isFloatForm (text : List Char) : Bool :=
  let unsigned := afterSign text
  let whole := unsigned.takeWhile (· != '.')
  let afterPoint := (unsigned.drop (whole.length + 1)).dropWhile isDigitOrGap
  let hasPoint := whole.length < unsigned.length
  if !hasPoint then false
  else if whole.isEmpty then
    let name := unsigned.drop 1
    isSpelling ['i', 'n', 'f'] name ||
      (text.head? == some '.' &&
        (name == "nan".toList || name == "NaN".toList || name == "NAN".toList ||
          (((name.head?.map Char.isDigit).getD false) && isExponentForm afterPoint)))
  else
    match splitAtChar ':' whole with
    | [digits] => isDigitsForm digits && isExponentForm afterPoint
    | digits :: parts => isDigitsForm digits && parts.all isSixtieth && afterPoint.isEmpty
    | [] => false

/-- The fields of a date or time as they are written. -/
structure TimeFields where
  date : Day
  /-- Hour, minute, second and the digits of the fraction. -/
  time : Option (Nat × Nat × Nat × List Char)
  /-- The offset in seconds. -/
  offset : Option Int

/-- Reads from `least` to `most` digits. -/
def digits? (least most : Nat) (text : List Char) : Option (Nat × List Char) :=
  let digits := (text.take most).takeWhile Char.isDigit
  if digits.length < least then none
  else some (Numeral.valueOf digits, text.drop digits.length)

/-- Reads a character. -/
def char? (expected : Char) (text : List Char) : Option (List Char) :=
  dropStart? [expected] text

/-- Reads what tells the offset of a time; blanks may stand before it. -/
def offset? (text : List Char) : Option (Option Int) :=
  match text.dropWhile (fun c => c == ' ' || c == '\t') with
  | [] => if text.isEmpty then some none else none
  | ['Z'] => some (some 0)
  | sign :: rest =>
      if sign == '-' || sign == '+' then do
        let (hours, afterHours) ← digits? 1 2 rest
        let (minutes, afterMinutes) ←
          match afterHours with
          | [] => pure (0, [])
          | _ => digits? 2 2 (← char? ':' afterHours)
        if afterMinutes.isEmpty then
          let seconds : Int := hours * 3600 + minutes * 60
          return some (if sign == '-' then -seconds else seconds)
        else
          none
      else
        none

/-- Reads a time after the mark or the blanks that set it apart from the date. -/
def time? (text : List Char) : Option ((Nat × Nat × Nat × List Char) × Option Int) := do
  let (hour, afterHour) ← digits? 1 2 text
  let (minute, afterMinute) ← digits? 2 2 (← char? ':' afterHour)
  let (second, afterSecond) ← digits? 2 2 (← char? ':' afterMinute)
  let (fraction, rest) := match afterSecond with
    | '.' :: after => (after.takeWhile Char.isDigit, after.dropWhile Char.isDigit)
    | _ => ([], afterSecond)
  return ((hour, minute, second, fraction), ← offset? rest)

/-- Reads a date with one or two digits for month and day, and a time if there is one. -/
def timeFields? (text : List Char) : Option TimeFields := do
  let (year, afterYear) ← digits? 4 4 text
  let (month, afterMonth) ← digits? 1 2 (← char? '-' afterYear)
  let (day, rest) ← digits? 1 2 (← char? '-' afterMonth)
  match rest with
  | [] => return ⟨⟨year, month, day⟩, none, none⟩
  | mark :: after =>
      let blanks := rest.takeWhile fun c => c == ' ' || c == '\t'
      let (time, offset) ←
        if mark == 'T' || mark == 't' then time? after
        else if blanks.isEmpty then none
        else time? (rest.drop blanks.length)
      return ⟨⟨year, month, day⟩, some time, offset⟩

/-- Whether a text has the form of a date or time; a date alone has two digits for month and day. -/
def isTimestampForm (text : List Char) : Bool :=
  match timeFields? text with
  | none => false
  | some fields => fields.time.isSome || text.length == 10

/-- The kind of a scalar without a tag by its form. -/
def Kind.ofForm (text : List Char) : Kind :=
  if isNull text then .null
  else if (truth? text).isSome then .bool
  else if isFloatForm text then .float
  else if isIntegerForm text then .int
  else if text == ['<', '<'] then .merge
  else if isTimestampForm text then .timestamp
  else if text == ['='] then .defaultValue
  else .text

/-- The value of digits in a base up to sixteen. -/
def inBase? (base : Nat) (digits : List Char) : Option Nat :=
  if digits.isEmpty then none
  else
    digits.foldlM (fun value c => do
      let digit ← Json.hexValue? c
      if digit < base then some (value * base + digit) else none) 0

/-- The integer that digits denote in a base. -/
def integerInBase (base : Nat) (digits : List Char) : Except Fault Int :=
  let answer :=
    if base = 10 then Numeral.toInteger? digits else (inBase? base digits).map Int.ofNat
  match answer with
  | some value => .ok value
  | none =>
      if base = 10 && digitLimit < digits.length && digits.all Char.isDigit then
        .error (.numeralTooLong digits.length)
      else
        .error (.notAnInteger base (String.ofList digits))

/-- The value of counts of sixties, the greatest first. -/
def inSixties (parts : List Int) : Int :=
  parts.foldl (fun value part => value * 60 + part) 0

/-- The integer of a scalar. -/
def integerValue (text : List Char) : Except Fault Int := do
  let bare := text.filter (· != '_')
  if bare.isEmpty then throw .emptyNumeral
  let (negative, digits) := Numeral.splitSign bare
  let value ←
    match digits with
    | [] => throw .emptyNumeral
    | ['0'] => pure 0
    | '0' :: 'b' :: rest => integerInBase 2 rest
    | '0' :: 'x' :: rest => integerInBase 16 rest
    | '0' :: _ => integerInBase 8 digits
    | _ =>
        if digits.contains ':' then do
          pure (inSixties (← (splitAtChar ':' digits).mapM (integerInBase 10)))
        else
          integerInBase 10 digits
  return if negative then -value else value

/-- The float that a text denotes. -/
def floatOf (text : List Char) : Except Fault Binary64 :=
  match Numeral.toFloat? text with
  | some value => .ok value
  | none => .error (.notAFloat (String.ofList text))

/-- The float of a scalar. -/
def floatValue (text : List Char) : Except Fault Binary64 := do
  let bare := (text.filter (· != '_')).map Char.toLower
  if bare.isEmpty then throw .emptyNumeral
  let (negative, digits) := Numeral.splitSign bare
  let value ←
    if digits = ".inf".toList then pure (Binary64.infinite false)
    else if digits = ".nan".toList then pure Binary64.nan
    else if digits.contains ':' then do
      let parts ← (splitAtChar ':' digits).mapM floatOf
      let scaled := parts.reverse.zipIdx.map fun (part, place) => part.mul (.ofInt (60 ^ place))
      pure (scaled.foldl Binary64.add (.zero false))
    else
      floatOf digits
  return if negative then value.neg else value

/-- The count of days of a month. -/
def daysInMonth (year month : Nat) : Nat :=
  if month = 2 then
    if year % 4 = 0 ∧ (year % 100 ≠ 0 ∨ year % 400 = 0) then 29 else 28
  else if [4, 6, 9, 11].contains month then 30
  else 31

/-- A day of the calendar from its numbers. -/
def calendarDay (day : Day) : Except Fault Day :=
  if day.year = 0 then .error (.calendar (.year 0))
  else if day.month = 0 ∨ 12 < day.month then .error (.calendar .month)
  else if day.day = 0 ∨ daysInMonth day.year day.month < day.day then .error (.calendar .day)
  else .ok day

/-- The value of a date or time. -/
def timestampValue (fields : TimeFields) : Except Fault Data := do
  match fields.time with
  | none => return .scalar (.day (← calendarDay fields.date))
  | some (hour, minute, second, fraction) =>
      if (fields.offset.map fun offset => decide (86400 ≤ offset.natAbs)).getD false then
        throw (.calendar .offset)
      let date ← calendarDay fields.date
      if 23 < hour then throw (.calendar .hour)
      if 59 < minute then throw (.calendar .minute)
      if 59 < second then throw (.calendar .second)
      let digits := fraction.take 6
      let microsecond := Numeral.valueOf digits * 10 ^ (6 - digits.length)
      return .scalar (.moment { date, hour, minute, second, microsecond, offset := fields.offset })

/-- The value of a digit of base sixty-four. -/
def sextet? (c : Char) : Option Nat :=
  if 'A' ≤ c && c ≤ 'Z' then some (c.toNat - 65)
  else if 'a' ≤ c && c ≤ 'z' then some (c.toNat - 71)
  else if c.isDigit then some (c.toNat + 4)
  else if c == '+' then some 62
  else if c == '/' then some 63
  else none

/-- The octets of groups of four digits of base sixty-four; the last group may be shorter by as many
digits as are padded. -/
def octetsOfSextets? : List Nat → Option (List UInt8)
  | [] => some []
  | [_] => none
  | [a, b] => some [(a * 4 + b / 16).toUInt8]
  | [a, b, c] => some [(a * 4 + b / 16).toUInt8, (b % 16 * 16 + c / 4).toUInt8]
  | a :: b :: c :: d :: rest => do
      return (a * 4 + b / 16).toUInt8 :: (b % 16 * 16 + c / 4).toUInt8 ::
        (c % 4 * 64 + d).toUInt8 :: (← octetsOfSextets? rest)

/-- The octets of a text in base sixty-four, padded to whole groups. -/
def octetsValue? (text : List Char) : Option (List UInt8) :=
  if !text.all fun c => c.toNat < 128 then none
  else
    let significant := text.filter fun c => (sextet? c).isSome || c == '='
    let digits := significant.takeWhile (· != '=')
    let padding := (significant.drop digits.length).length
    if digits.length % 4 = 0 || 4 - digits.length % 4 ≤ padding then
      octetsOfSextets? (digits.filterMap sextet?)
    else
      none

/-- The value of a scalar of a kind. -/
def scalarValue (kind : Kind) (text : List Char) : Except Fault Scalar :=
  match kind with
  | .null => .ok .null
  | .bool =>
      match truthNames.lookup (String.ofList (text.map Char.toLower)) with
      | some value => .ok (.bool value)
      | none => .error .malformedYaml
  | .int => return .int (← integerValue text)
  | .float => return .float (← floatValue text)
  | .timestamp =>
      match timeFields? text with
      | none => .error .malformedYaml
      | some fields => do
          match ← timestampValue fields with
          | .scalar value => return value
          | _ => throw .malformedYaml
  | .text => .ok (.text (String.ofList text))
  | .octets =>
      match octetsValue? text with
      | some octets => .ok (.octets octets)
      | none => .error .malformedYaml
  | _ => .error .malformedYaml

end Yaml

end Scorecard
