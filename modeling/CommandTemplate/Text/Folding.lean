import CommandTemplate.Text.CaseData

/-!
# Comparing text regardless of case

`fold` is Unicode simple case folding: one character to one character, so texts that are equal up
to folding have equal lengths. Names that are only ever ASCII are compared by ASCII case alone.
-/
namespace CommandTemplate.Text

def foldShifts : List Shift := CaseData.pairs ++ CaseData.foldOnly

/-- The representative of the characters that differ from `c` only by case. -/
def fold (c : Char) : Char := shiftChar foldShifts c

/-- Equality up to case folding. -/
def sameFolded (s t : List Char) : Bool := s.map fold == t.map fold

/-- The part of `s` that spells `word` up to folding, and what follows it. -/
def stripFolded : (word s : List Char) → Option (List Char × List Char)
  | [], s => some ([], s)
  | _ :: _, [] => none
  | w :: word, c :: s =>
    if fold w = fold c then (stripFolded word s).map fun (spelled, rest) => (c :: spelled, rest)
    else none

/-- Equality up to the case of ASCII letters. -/
def sameAsciiCase (s t : String) : Bool :=
  s.toList.map Char.toLower == t.toList.map Char.toLower

end CommandTemplate.Text
