import CommandTemplate.Time.Calendar

/-!
# Date formats

A format is read as segments: fields such as `YYYY`, text in brackets, and single characters. It can
be written as a `strftime` format, in which a two-letter weekday has to stand as literal text, or
filled in for a moment.
-/
namespace CommandTemplate

/-- The fields of a date format. -/
inductive DateField where
  | year4 | monthName | dayOfYear3 | weekdayName | monthAbbr | weekdayAbbr | milli3 | year2
  | month2 | day2 | hour2 | hour12Two | minute2 | second2 | offsetPlain | month | day | weekday
  | hour | hour12 | minute | second | upperHalf | lowerHalf | offsetColon | timestamp
  deriving DecidableEq, Repr

namespace DateField

/-- All fields, those with the longer spelling first. -/
def all : List DateField :=
  [year4, monthName, dayOfYear3, weekdayName, monthAbbr, weekdayAbbr, milli3, year2, month2, day2,
   hour2, hour12Two, minute2, second2, offsetPlain, month, day, weekday, hour, hour12, minute,
   second, upperHalf, lowerHalf, offsetColon, timestamp]

theorem mem_all (f : DateField) : f ∈ all := by cases f <;> decide

/-- How a format spells the field. -/
def spelling : DateField → List Char
  | year4 => ['Y', 'Y', 'Y', 'Y']
  | monthName => ['M', 'M', 'M', 'M']
  | dayOfYear3 => ['D', 'D', 'D', 'D']
  | weekdayName => ['d', 'd', 'd', 'd']
  | monthAbbr => ['M', 'M', 'M']
  | weekdayAbbr => ['d', 'd', 'd']
  | milli3 => ['S', 'S', 'S']
  | year2 => ['Y', 'Y']
  | month2 => ['M', 'M']
  | day2 => ['D', 'D']
  | hour2 => ['H', 'H']
  | hour12Two => ['h', 'h']
  | minute2 => ['m', 'm']
  | second2 => ['s', 's']
  | offsetPlain => ['Z', 'Z']
  | month => ['M']
  | day => ['D']
  | weekday => ['d']
  | hour => ['H']
  | hour12 => ['h']
  | minute => ['m']
  | second => ['s']
  | upperHalf => ['A']
  | lowerHalf => ['a']
  | offsetColon => ['Z']
  | timestamp => ['X']

/-- What stands behind the `%` of the field's `strftime` directive. -/
def directive : DateField → List Char
  | year4 => ['Y']
  | monthName => ['B']
  | dayOfYear3 => ['j']
  | weekdayName => ['A']
  | monthAbbr => ['b']
  | weekdayAbbr => ['a']
  | milli3 => ['3', 'f']
  | year2 => ['y']
  | month2 => ['m']
  | day2 => ['d']
  | hour2 => ['H']
  | hour12Two => ['I']
  | minute2 => ['M']
  | second2 => ['S']
  | offsetPlain => ['z']
  | month => ['-', 'm']
  | day => ['-', 'd']
  | weekday => ['w']
  | hour => ['-', 'H']
  | hour12 => ['-', 'I']
  | minute => ['-', 'M']
  | second => ['-', 'S']
  | upperHalf => ['p']
  | lowerHalf => ['P']
  | offsetColon => [':', 'z']
  | timestamp => ['s']

end DateField

inductive Segment where
  | field (f : DateField)
  | literal (s : List Char)
  /-- The first two letters of the weekday's name, spelled `dd`. -/
  | weekdayPair
  deriving DecidableEq, Repr

/-- The field at the start of a format, and the length of its spelling. -/
def fieldAt? (s : List Char) : Option (Segment × Nat) :=
  if ['d', 'd'].isPrefixOf s && !(['d', 'd', 'd'].isPrefixOf s) then some (.weekdayPair, 2)
  else (DateField.all.find? (·.spelling.isPrefixOf s)).map fun f => (.field f, f.spelling.length)

/-- The segments of a format whose first `skip` characters belong to the segment before. -/
def segmentsAfter : (skip : Nat) → List Char → List Segment
  | _, [] => []
  | skip + 1, _ :: s => segmentsAfter skip s
  | 0, c :: s =>
    if c = '[' then
      let run := s.takeWhile (· != ']')
      .literal run :: segmentsAfter (run.length + 1) s
    else
      match fieldAt? (c :: s) with
      | some (segment, length) => segment :: segmentsAfter (length - 1) s
      | none => .literal [c] :: segmentsAfter 0 s

/-- The segments of a format. Brackets left open reach to its end. -/
def segments (format : List Char) : List Segment := segmentsAfter 0 format

/-! ## As a `strftime` format -/

def doublePercent (s : List Char) : List Char :=
  s.flatMap fun c => if c = '%' then ['%', '%'] else [c]

def weekdayPairText (weekday : Nat) : List Char := (weekdayName weekday).toList.take 2

def Segment.toStrftime (weekday : Nat) : Segment → List Char
  | .field f => '%' :: f.directive
  | .literal s => doublePercent s
  | .weekdayPair => weekdayPairText weekday

/-- The format in `strftime` terms, for a day of the week. -/
def toStrftime (format : String) (weekday : Nat) : String :=
  String.ofList ((segments format.toList).flatMap (·.toStrftime weekday))

/-- What a `strftime` format is made of. -/
inductive StrftimeItem where
  | field (f : DateField)
  | char (c : Char)
  deriving DecidableEq, Repr

/-- The field whose directive the text begins with, and what follows it. -/
def directiveAt? (s : List Char) : Option (DateField × List Char) :=
  (DateField.all.find? (·.directive.isPrefixOf s)).map fun f => (f, s.drop f.directive.length)

/-- Reads a `strftime` format of which the first `skip` characters have been read; `none` at a `%`
that neither doubles nor begins a known directive. -/
def readStrftimeAfter : (skip : Nat) → List Char → Option (List StrftimeItem)
  | _, [] => some []
  | skip + 1, _ :: s => readStrftimeAfter skip s
  | 0, c :: s =>
    if c = '%' then
      if s.head? = some '%' then (readStrftimeAfter 1 s).map (.char '%' :: ·)
      else
        match directiveAt? s with
        | some (f, _) => (readStrftimeAfter f.directive.length s).map (.field f :: ·)
        | none => none
    else (readStrftimeAfter 0 s).map (.char c :: ·)

def readStrftime (s : List Char) : Option (List StrftimeItem) := readStrftimeAfter 0 s

/-! ## Filled in -/

def digitsOf (n : Nat) : List Char := Nat.toDigits 10 n

/-- The number with zeros in front up to `width` digits. -/
def padded (width n : Nat) : List Char :=
  List.replicate (width - (digitsOf n).length) '0' ++ digitsOf n

/-- Four digits; years outside 0 to 9999 have a sign. -/
def yearText (year : Int) : List Char :=
  if 0 ≤ year ∧ year ≤ 9999 then padded 4 year.natAbs
  else (if year < 0 then '-' else '+') :: padded 4 year.natAbs

/-- Sign, hours and minutes of the offset, with `separator` between them. -/
def offsetText (m : Moment) (separator : List Char) : List Char :=
  (if m.offset < 0 then '-' else '+') ::
    (padded 2 (m.offsetMinutes / 60) ++ separator ++ padded 2 (m.offsetMinutes % 60))

def DateField.render (m : Moment) : DateField → List Char
  | year4 => yearText m.date.year
  | monthName => (CommandTemplate.monthName m.date.month).toList
  | dayOfYear3 => padded 3 m.date.dayOfYear
  | weekdayName => (CommandTemplate.weekdayName m.date.weekday).toList
  | monthAbbr => (CommandTemplate.monthName m.date.month).toList.take 3
  | weekdayAbbr => (CommandTemplate.weekdayName m.date.weekday).toList.take 3
  | milli3 => padded 3 m.millisecond
  | year2 => padded 2 (m.date.year % 100).toNat
  | month2 => padded 2 m.date.month
  | day2 => padded 2 m.date.day
  | hour2 => padded 2 m.hour
  | hour12Two => padded 2 m.hour12
  | minute2 => padded 2 m.minute
  | second2 => padded 2 m.shownSecond
  | offsetPlain => offsetText m []
  | month => digitsOf m.date.month
  | day => digitsOf m.date.day
  | weekday => digitsOf m.date.weekday
  | hour => digitsOf m.hour
  | hour12 => digitsOf m.hour12
  | minute => digitsOf m.minute
  | second => digitsOf m.shownSecond
  | upperHalf => if m.hour < 12 then ['A', 'M'] else ['P', 'M']
  | lowerHalf => if m.hour < 12 then ['a', 'm'] else ['p', 'm']
  | offsetColon => offsetText m [':']
  | timestamp => (toString m.timestamp).toList

def Segment.render (m : Moment) : Segment → List Char
  | .field f => f.render m
  | .literal s => s
  | .weekdayPair => weekdayPairText m.date.weekday

/-- The format filled in for a moment. -/
def Moment.format (m : Moment) (format : String) : String :=
  String.ofList ((segments format.toList).flatMap (·.render m))

end CommandTemplate
