/-!
# Random identifiers

All randomness of a run comes from one seed. A seed has a child for every number, and an identifier
is made of the bits of two of them, so that different occurrences get different identifiers.
-/
namespace CommandTemplate

structure Seed where
  bits : UInt64
  deriving DecidableEq, Repr

/-- Spreads the bits of a word over all of it. -/
def scramble (x : UInt64) : UInt64 :=
  let x := (x ^^^ (x >>> 30)) * 0xBF58476D1CE4E5B9
  let x := (x ^^^ (x >>> 27)) * 0x94D049BB133111EB
  x ^^^ (x >>> 31)

def Seed.child (s : Seed) (n : Nat) : Seed :=
  ⟨scramble (s.bits + 0x9E3779B97F4A7C15 * (n + 1).toUInt64)⟩

def hexDigit (n : Nat) : Char := Nat.digitChar (n % 16)

/-- The lowest `count` hexadecimal digits of `n`. -/
def hexDigits : (count n : Nat) → List Char
  | 0, _ => []
  | count + 1, n => hexDigits count (n / 16) ++ [hexDigit n]

/-- A version 4 identifier of 128 bits, of which the version and the variant replace six. -/
def uuidText (high low : UInt64) : List Char :=
  let h := high.toNat
  let l := low.toNat
  hexDigits 8 (h >>> 32) ++ ['-'] ++ hexDigits 4 (h >>> 16) ++ ['-', '4'] ++ hexDigits 3 h ++
    ['-'] ++ hexDigit (8 + (l >>> 60) % 4) :: hexDigits 3 (l >>> 48) ++ ['-'] ++ hexDigits 12 l

/-- The identifier that a seed stands for. -/
def Seed.uuid (s : Seed) : String := String.ofList (uuidText (s.child 0).bits (s.child 1).bits)

end CommandTemplate
