/-!
# PowerShell verbatim strings

Five characters quote, and any two of them in a row stand for the second one.
-/
namespace CommandTemplate.PowerShell

/-- The apostrophe and the four single quotation marks that are read as one. -/
def isQuote (c : Char) : Bool :=
  c == '\'' || c == '\u2018' || c == '\u2019' || c == '\u201A' || c == '\u201B'

/-- Characters that need no quotes around them. -/
def isPlain (c : Char) : Bool := c.isAlphanum || c == '_'

def doubled (c : Char) : List Char := if isQuote c then [c, c] else [c]

/-- An argument that reads back as `s`. -/
def encode (s : List Char) : List Char :=
  if !s.isEmpty && s.all isPlain then s else '\'' :: (s.flatMap doubled ++ ['\''])

/-- What a verbatim string contributes, and the text behind it, from after its opening quote on. -/
def readBody : List Char → Option (List Char × List Char)
  | [] => none
  | [c] => if isQuote c then some ([], []) else none
  | c :: d :: s =>
    if isQuote c then
      if isQuote d then (readBody s).map fun (body, rest) => (d :: body, rest)
      else some ([], d :: s)
    else (readBody (d :: s)).map fun (body, rest) => (c :: body, rest)

/-- Reads a verbatim string at the start of the text. -/
def readVerbatim : List Char → Option (List Char × List Char)
  | [] => none
  | c :: s => if isQuote c then readBody s else none

end CommandTemplate.PowerShell
