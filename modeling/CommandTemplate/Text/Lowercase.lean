import CommandTemplate.Text.CaseData

/-!
# Lower case

The full lower-case map of Unicode. Two characters need more than a table: a capital sigma is
written `ς` at the end of a word, and a capital I with a dot keeps its dot as a mark of its own.
-/
namespace CommandTemplate.Text

def lowerShifts : List Shift := CaseData.pairs ++ CaseData.lowerOnly

/-- The first character that is not case-ignorable is a cased one. -/
def meetsCased (s : List Char) : Bool :=
  match (s.dropWhile CaseData.caseIgnorable.has).head? with
  | some c => CaseData.cased.has c
  | none => false

/-- Lower case of a text that follows the reversed text `before`. -/
def lowerAfter (before : List Char) : List Char → List Char
  | [] => []
  | c :: s =>
    let here :=
      if c = 'Σ' then [if meetsCased before && !meetsCased s then 'ς' else 'σ']
      else if c = 'İ' then ['i', '\u0307']
      else [shiftChar lowerShifts c]
    here ++ lowerAfter (c :: before) s

def lower (s : List Char) : List Char := lowerAfter [] s

/-- The text in lower case. -/
def lowercased (s : String) : String := String.ofList (lower s.toList)

end CommandTemplate.Text
