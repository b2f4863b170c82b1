/-!
# Classes and maps of characters

A class is a list of code point ranges. A shift moves every code point of a range, or every second
one, by one distance, which is how Unicode lays out most of its case pairs.
-/
namespace CommandTemplate.Text

/-- Ranges of code points, both ends included. -/
abbrev CharClass := List (Nat × Nat)

def CharClass.has (k : CharClass) (c : Char) : Bool :=
  k.any fun (first, last) => first ≤ c.toNat && c.toNat ≤ last

/-- The code points `first`, `first + step`, … up to `last`, sent to `target` and on. -/
structure Shift where
  first : Nat
  last : Nat
  step : Nat
  target : Nat
  deriving DecidableEq, Repr

def Shift.image? (s : Shift) (n : Nat) : Option Nat :=
  if s.first ≤ n ∧ n ≤ s.last ∧ (n - s.first) % s.step = 0 then some (s.target + (n - s.first))
  else none

/-- The image of `c` under the first shift that moves it, or `c` itself. -/
def shiftChar (table : List Shift) (c : Char) : Char :=
  match table.findSome? (·.image? c.toNat) with
  | some n => Char.ofNat n
  | none => c

end CommandTemplate.Text
