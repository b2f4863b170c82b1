/-!
# Strings in TOML

A basic string knows escapes, a literal one does not; each can be written on one line, or over
several between three quotes. The readers here begin behind the opening quotes and hand back the
text and what stands behind the closing ones.
-/
namespace CommandTemplate.Toml

/-- A character that can stand in a comment, and in a string that does not end with it. -/
def isPlain (c : Char) : Bool := c == '\t' || (' ' ≤ c && c != '\x7f')

/-- The character that a single letter behind a backslash stands for. -/
def escaped? : Char → Option Char
  | 'b' => some '\x08'
  | 't' => some '\t'
  | 'n' => some '\n'
  | 'f' => some '\x0c'
  | 'r' => some '\r'
  | 'e' => some '\x1b'
  | '"' => some '"'
  | '\\' => some '\\'
  | _ => none

def hexValue? (c : Char) : Option Nat :=
  if c.isDigit then some (c.toNat - '0'.toNat)
  else if 'a' ≤ c ∧ c ≤ 'f' then some (c.toNat - 'a'.toNat + 10)
  else if 'A' ≤ c ∧ c ≤ 'F' then some (c.toNat - 'A'.toNat + 10)
  else none

/-- The character whose number is written in hexadecimal digits. -/
def numbered? (digits : List Char) : Option Char := do
  let n ← digits.foldlM (fun n c => do return 16 * n + (← hexValue? c)) 0
  if h : n.isValidChar then some (Char.ofNatAux n h) else none

/-- Puts a character before a text that was read. -/
def before (c : Char) (read : Option (List Char × List Char)) : Option (List Char × List Char) :=
  read.map fun (s, rest) => (c :: s, rest)

def readBasic : List Char → Option (List Char × List Char)
  | [] => none
  | '"' :: s => some ([], s)
  | '\\' :: 'x' :: a :: b :: s => do before (← numbered? [a, b]) (readBasic s)
  | '\\' :: 'u' :: a :: b :: c :: d :: s => do before (← numbered? [a, b, c, d]) (readBasic s)
  | '\\' :: 'U' :: a :: b :: c :: d :: e :: f :: g :: h :: s => do
    before (← numbered? [a, b, c, d, e, f, g, h]) (readBasic s)
  | '\\' :: c :: s => do before (← escaped? c) (readBasic s)
  | c :: s => if isPlain c ∧ c ≠ '\\' then before c (readBasic s) else none

def readLiteral : List Char → Option (List Char × List Char)
  | [] => none
  | '\'' :: s => some ([], s)
  | c :: s => if isPlain c then before c (readLiteral s) else none

/-- A newline at the front is no part of a string over several lines. -/
def dropNewline : List Char → List Char
  | '\n' :: s => s
  | '\r' :: '\n' :: s => s
  | s => s

/-- Only blanks stand before the end of the line. -/
def endsLine (s : List Char) : Bool :=
  match s.dropWhile fun c => c == ' ' || c == '\t' with
  | '\n' :: _ => true
  | '\r' :: '\n' :: _ => true
  | _ => false

def isSpace (c : Char) : Bool := c == ' ' || c == '\t' || c == '\n' || c == '\r'

/-- Reads over several lines; a backslash at the end of a line joins it to the next text, and
`joining` says that such a gap is being left out. -/
def readBasicLines (joining : Bool) : List Char → Option (List Char × List Char)
  | [] => none
  | '"' :: '"' :: '"' :: '"' :: '"' :: s => some (['"', '"'], s)
  | '"' :: '"' :: '"' :: '"' :: s => some (['"'], s)
  | '"' :: '"' :: '"' :: s => some ([], s)
  | '\\' :: 'x' :: a :: b :: s => do before (← numbered? [a, b]) (readBasicLines false s)
  | '\\' :: 'u' :: a :: b :: c :: d :: s => do
    before (← numbered? [a, b, c, d]) (readBasicLines false s)
  | '\\' :: 'U' :: a :: b :: c :: d :: e :: f :: g :: h :: s => do
    before (← numbered? [a, b, c, d, e, f, g, h]) (readBasicLines false s)
  | '\\' :: c :: s =>
    if endsLine (c :: s) then readBasicLines true s
    else do before (← escaped? c) (readBasicLines false s)
  | '\r' :: '\n' :: s =>
    if joining then readBasicLines true s else before '\r' (before '\n' (readBasicLines false s))
  | c :: s =>
    if joining && isSpace c && c != '\r' then readBasicLines true s
    else if c = '\n' ∨ (isPlain c ∧ c ≠ '\\') then before c (readBasicLines false s)
    else none

def readLiteralLines : List Char → Option (List Char × List Char)
  | [] => none
  | '\'' :: '\'' :: '\'' :: '\'' :: '\'' :: s => some (['\'', '\''], s)
  | '\'' :: '\'' :: '\'' :: '\'' :: s => some (['\''], s)
  | '\'' :: '\'' :: '\'' :: s => some ([], s)
  | '\r' :: '\n' :: s => before '\r' (before '\n' (readLiteralLines s))
  | c :: s => if c = '\n' ∨ isPlain c then before c (readLiteralLines s) else none

/-- Reads a string with whatever quotes it begins with. -/
def readString : List Char → Option (List Char × List Char)
  | '"' :: '"' :: '"' :: s => readBasicLines false (dropNewline s)
  | '"' :: s => readBasic s
  | '\'' :: '\'' :: '\'' :: s => readLiteralLines (dropNewline s)
  | '\'' :: s => readLiteral s
  | _ => none

end CommandTemplate.Toml
