import CommandTemplate.Time.Calendar

/-!
# Numbers and times in TOML

Which words are integers, floating-point numbers, dates and times.
-/
namespace CommandTemplate.Toml

/-- Digits, with single underscores between them. -/
def isDigits (digit : Char → Bool) : List Char → Bool
  | [] => false
  | [c] => digit c
  | c :: '_' :: s => digit c && isDigits digit s
  | c :: s => digit c && isDigits digit s

def isHexDigit (c : Char) : Bool :=
  c.isDigit || ('a' ≤ c && c ≤ 'f') || ('A' ≤ c && c ≤ 'F')

def digitValue (c : Char) : Nat :=
  if c.isDigit then c.toNat - '0'.toNat
  else if 'a' ≤ c then c.toNat - 'a'.toNat + 10
  else c.toNat - 'A'.toNat + 10

def valueIn (base : Nat) (s : List Char) : Nat :=
  (s.filter (· != '_')).foldl (fun n c => base * n + digitValue c) 0

/-- Takes a sign off the front. -/
def unsigned : List Char → List Char
  | '+' :: s => s
  | '-' :: s => s
  | s => s

/-- Decimal digits without a leading zero. -/
def isDecimal (s : List Char) : Bool :=
  isDigits Char.isDigit s && (s == ['0'] || s.head? != some '0')

/-- The first number that takes more than 128 bits. -/
def integerLimit : Nat := 0x100000000000000000000000000000000

/-- An integer of at most 128 bits, one of which is the sign of a negative one. -/
def isInteger : List Char → Bool
  | '0' :: 'x' :: s => isDigits isHexDigit s && valueIn 16 s < integerLimit
  | '0' :: 'o' :: s => isDigits (fun c => '0' ≤ c && c ≤ '7') s && valueIn 8 s < integerLimit
  | '0' :: 'b' :: s => isDigits (fun c => c == '0' || c == '1') s && valueIn 2 s < integerLimit
  | '-' :: s => isDecimal s && 2 * valueIn 10 s ≤ integerLimit
  | s => isDecimal (unsigned s) && valueIn 10 (unsigned s) < integerLimit

/-- Splits a text at the first character that `p` holds of. -/
def splitAtFirst (p : Char → Bool) (s : List Char) : List Char × Option (List Char) :=
  match s.dropWhile fun c => !p c with
  | [] => (s, none)
  | _ :: rest => (s.takeWhile fun c => !p c, some rest)

/-- A number with a fraction, an exponent or both, or one of the special values. -/
def isFloat (s : List Char) : Bool :=
  let s := unsigned s
  let (mantissa, exponent) := splitAtFirst (fun c => c == 'e' || c == 'E') s
  let (whole, fraction) := splitAtFirst (· == '.') mantissa
  s == ['i', 'n', 'f'] || s == ['n', 'a', 'n'] ||
    (isDecimal whole && (fraction.isSome || exponent.isSome) &&
      fraction.all (isDigits Char.isDigit) &&
      exponent.all fun e => isDigits Char.isDigit (unsigned e))

/-! ## Dates and times -/

/-- The value of two digits at the front, and the rest. -/
def twoDigits? : List Char → Option (Nat × List Char)
  | a :: b :: s => if a.isDigit && b.isDigit then some (valueIn 10 [a, b], s) else none
  | _ => none

def expect? (c : Char) : List Char → Option (List Char)
  | d :: s => if d = c then some s else none
  | [] => none

/-- The text behind a date. -/
def afterDate? (s : List Char) : Option (List Char) := do
  let (century, s) ← twoDigits? s
  let (year, s) ← twoDigits? s
  let (month, s) ← twoDigits? (← expect? '-' s)
  let (day, s) ← twoDigits? (← expect? '-' s)
  let length ← (Date.monthLengths (100 * century + year))[month - 1]?
  if 1 ≤ month ∧ 1 ≤ day ∧ day ≤ length then some s else none

/-- The text behind a fraction of a second, if there is one. -/
def afterFraction? : List Char → Option (List Char)
  | '.' :: s =>
    if (s.head?.map Char.isDigit).getD false then some (s.dropWhile Char.isDigit) else none
  | s => some s

/-- The text behind a time of day; seconds may be left out. -/
def afterTime? (s : List Char) : Option (List Char) := do
  let (hour, s) ← twoDigits? s
  let (minute, s) ← twoDigits? (← expect? ':' s)
  if 24 ≤ hour ∨ 60 ≤ minute then none
  match s with
  | ':' :: s =>
    let (second, s) ← twoDigits? s
    if 60 < second then none else afterFraction? s
  | s => some s

/-- The text behind an offset from universal time. -/
def afterOffset? : List Char → Option (List Char)
  | 'Z' :: s => some s
  | 'z' :: s => some s
  | c :: s => do
    if c ≠ '+' ∧ c ≠ '-' then none
    let (hour, s) ← twoDigits? s
    let (minute, s) ← twoDigits? (← expect? ':' s)
    if 24 ≤ hour ∨ 60 ≤ minute then none else some s
  | [] => none

/-- A time of day, with an offset or without. -/
def isOffsetTime (s : List Char) : Bool :=
  match afterTime? s with
  | some [] => true
  | some s => afterOffset? s == some []
  | none => false

/-- A date, a time of day, or both. -/
def isTime (s : List Char) : Bool :=
  match afterDate? s with
  | some [] => true
  | some (c :: s) => (c == 'T' || c == 't' || c == ' ') && isOffsetTime s
  | none => afterTime? s == some []

end CommandTemplate.Toml
