/-!
# Signed 64-bit integers in decimal

Reading takes an optional sign and at least one ASCII digit, and refuses a value out of range.
-/
namespace CommandTemplate.Text

def minInt64 : Int := -9223372036854775808
def maxInt64 : Int := 9223372036854775807

def decimalValue (s : List Char) : Nat := s.foldl (fun n c => 10 * n + (c.toNat - '0'.toNat)) 0

/-- The value of a non-empty run of ASCII digits. -/
def readNat (s : List Char) : Option Nat :=
  if !s.isEmpty && s.all Char.isDigit then some (decimalValue s) else none

def readSigned : List Char → Option Int
  | '-' :: s => (readNat s).map fun n => -(n : Int)
  | '+' :: s => (readNat s).map fun n => (n : Int)
  | s => (readNat s).map fun n => (n : Int)

def readInt64 (s : List Char) : Option Int :=
  match readSigned s with
  | some n => if minInt64 ≤ n ∧ n ≤ maxInt64 then some n else none
  | none => none

end CommandTemplate.Text
