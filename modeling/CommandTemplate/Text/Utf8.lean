/-!
# UTF-8

Texts written as bytes, and bytes read as text. Reading does not fail: for bytes that begin no
character there is a replacement character. It stands for all that is there of a character that
breaks off, and for a single byte otherwise.
-/
namespace CommandTemplate.Text

def utf8 (s : List Char) : List UInt8 := s.flatMap String.utf8EncodeChar

/-- The bytes are those of a text. -/
def IsUtf8 (bytes : List UInt8) : Prop := ∃ s, utf8 s = bytes

def replacement : Char := '\uFFFD'

/-- The character that the bytes begin with. -/
def leading? (bytes : List UInt8) : Option Char := bytes.toByteArray.utf8DecodeChar? 0

def isTail (b : UInt8) : Bool := 0x80 ≤ b && b ≤ 0xBF

/-- Some character of three or four bytes begins with these two. -/
def opens (a b : UInt8) : Bool :=
  if a = 0xE0 then 0xA0 ≤ b && b ≤ 0xBF
  else if a = 0xED then 0x80 ≤ b && b ≤ 0x9F
  else if a = 0xF0 then 0x90 ≤ b && b ≤ 0xBF
  else if a = 0xF4 then 0x80 ≤ b && b ≤ 0x8F
  else 0xE0 < a && a < 0xF4 && isTail b

/-- How many bytes behind `a` belong to the character that breaks off there. -/
def torn (a : UInt8) : List UInt8 → Nat
  | [] => 0
  | b :: rest =>
    if opens a b then
      match rest with
      | c :: _ => if 0xF0 ≤ a && isTail c then 2 else 1
      | [] => 1
    else 0

def lossy : List UInt8 → List Char
  | [] => []
  | a :: rest =>
    match leading? (a :: rest) with
    | some c => c :: lossy (rest.drop (c.utf8Size - 1))
    | none => replacement :: lossy (rest.drop (torn a rest))
termination_by bytes => bytes.length
decreasing_by all_goals exact Nat.lt_succ_of_le (List.drop_sublist _ rest).length_le

end CommandTemplate.Text
