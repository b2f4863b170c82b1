import CommandTemplate.Toml.Quoted
import CommandTemplate.Toml.Scalar
import CommandTemplate.Toml.Table

/-!
# Reading TOML

A file is a sequence of statements, each on a line of its own but for what brackets, braces and long
strings hold open. The number that the readers count down bounds how often they call each other; two
calls for a character are always enough.
-/
namespace CommandTemplate.Toml

def skipBlanks (s : List Char) : List Char := s.dropWhile fun c => c == ' ' || c == '\t'

def skipComment : List Char → List Char
  | '#' :: s => s.dropWhile isPlain
  | s => s

/-- The text behind the end of the line, if only a comment stands before it. -/
def afterLine? (s : List Char) : Option (List Char) :=
  match skipComment (skipBlanks s) with
  | [] => some []
  | '\n' :: s => some s
  | '\r' :: '\n' :: s => some s
  | _ => none

/-- Leaves out blanks, comments and newlines. -/
def skipLines : Nat → List Char → List Char
  | 0, s => s
  | n + 1, s =>
    match afterLine? s with
    | some [] => []
    | some rest => skipLines n rest
    | none => skipBlanks s

/-- The text behind the next mark, wherever between lines it stands. -/
def nextMark (s : List Char) : List Char := skipLines (s.length + 1) s

/-! ## Keys -/

def isBareKeyChar (c : Char) : Bool := c.isAlphanum || c == '-' || c == '_'

def readKey : List Char → Option (String × List Char)
  | '"' :: s => (readBasic s).map fun (key, rest) => (String.ofList key, rest)
  | '\'' :: s => (readLiteral s).map fun (key, rest) => (String.ofList key, rest)
  | s =>
    let key := s.takeWhile isBareKeyChar
    if key.isEmpty then none else some (String.ofList key, s.drop key.length)

def readKeyPath : Nat → List Char → Option (KeyPath × List Char)
  | 0, _ => none
  | n + 1, s => do
    let (key, rest) ← readKey s
    match skipBlanks rest with
    | '.' :: rest =>
      let (path, rest) ← readKeyPath n (skipBlanks rest)
      return (⟨key :: path.front, path.last⟩, rest)
    | rest => return (⟨[], key⟩, rest)

/-! ## Values -/

def isWordChar (c : Char) : Bool :=
  c.isAlphanum || c == '+' || c == '-' || c == '_' || c == '.' || c == ':'

/-- Takes a word off the front; a blank between a date and a time is a part of it. -/
def takeWord (s : List Char) : List Char × List Char :=
  let word := s.takeWhile isWordChar
  let rest := s.drop word.length
  match rest with
  | ' ' :: c :: s =>
    if afterDate? word = some [] ∧ c.isDigit then
      let time := (c :: s).takeWhile isWordChar
      (word ++ ' ' :: time, (c :: s).drop time.length)
    else (word, rest)
  | _ => (word, rest)

def readScalar (s : List Char) : Option (Document × List Char) :=
  let (word, rest) := takeWord s
  let written := String.ofList word
  if written = "true" then some (.boolean true, rest)
  else if written = "false" then some (.boolean false, rest)
  else if isInteger word || isFloat word then some (.number written, rest)
  else if isTime word then some (.time written, rest)
  else none

/-- How deep arrays and tables between braces can be nested. -/
def maxDepth : Nat := 80

mutual
/-- Reads a value, in which arrays and tables can still be nested `depth` deep. -/
def readValue (depth : Nat) : Nat → List Char → Option (Document × List Char)
  | 0, _ => none
  | n + 1, s =>
    match s with
    | '[' :: s => if depth = 0 then none else readElements (depth - 1) n [] (nextMark s)
    | '\x7b' :: s => if depth = 0 then none else readFields (depth - 1) n [] (nextMark s)
    | '"' :: _ => (readString s).map fun (text, rest) => (.text (String.ofList text), rest)
    | '\'' :: _ => (readString s).map fun (text, rest) => (.text (String.ofList text), rest)
    | s => readScalar s

/-- Reads on in an array, whose elements so far are given with the last one first. -/
def readElements (depth : Nat) : Nat → List Document → List Char → Option (Document × List Char)
  | 0, _, _ => none
  | _, done, ']' :: s => some (.list done.reverse, s)
  | n + 1, done, s => do
    let (d, rest) ← readValue depth n s
    match nextMark rest with
    | ',' :: rest => readElements depth n (d :: done) (nextMark rest)
    | ']' :: rest => return (.list (d :: done).reverse, rest)
    | _ => none

/-- Reads on in a table between braces. -/
def readFields (depth : Nat) : Nat → Entries → List Char → Option (Document × List Char)
  | 0, _, _ => none
  | _, done, '\x7d' :: s => some (.table (documents done), s)
  | n + 1, done, s => do
    let (path, rest) ← readKeyPath s.length s
    match rest with
    | '=' :: rest =>
      let (d, rest) ← readValue depth n (skipBlanks rest)
      let done ← done.put path d .header
      match nextMark rest with
      | ',' :: rest => readFields depth n done (nextMark rest)
      | '\x7d' :: rest => return (.table (documents done), rest)
      | _ => none
    | _ => none
end

/-! ## Statements -/

inductive Statement where
  | entry (path : KeyPath) (d : Document)
  | table (path : KeyPath)
  | element (path : KeyPath)

/-- Reads the statement at the front, up to the end of its last line. -/
def readStatement (s : List Char) : Option (Statement × List Char) := do
  match s with
  | '[' :: '[' :: s =>
    let (path, rest) ← readKeyPath s.length (skipBlanks s)
    match rest with
    | ']' :: ']' :: rest => return (.element path, ← afterLine? rest)
    | _ => none
  | '[' :: s =>
    let (path, rest) ← readKeyPath s.length (skipBlanks s)
    match rest with
    | ']' :: rest => return (.table path, ← afterLine? rest)
    | _ => none
  | s =>
    let (path, rest) ← readKeyPath s.length s
    match rest with
    | '=' :: rest =>
      let (d, rest) ← readValue maxDepth (2 * rest.length + 2) (skipBlanks rest)
      return (.entry path d, ← afterLine? rest)
    | _ => none

def readStatements : Nat → List Char → Option (List Statement)
  | 0, _ => none
  | n + 1, s =>
    match nextMark s with
    | [] => some []
    | s => do
      let (statement, rest) ← readStatement s
      return statement :: (← readStatements n rest)

/-- The path of the table that entries go to, and all entries. -/
structure Reading where
  place : List String
  entries : Entries

def Reading.take (r : Reading) : Statement → Option Reading
  | .table path => (r.entries.openTable path).map (⟨path.front ++ [path.last], ·⟩)
  | .element path => (r.entries.openElement path).map (⟨path.front ++ [path.last], ·⟩)
  | .entry path d =>
    (r.entries.within false (fun origin es => es.put path d origin) r.place .header).map
      (⟨r.place, ·⟩)

/-- The document that a text in TOML means; a byte order mark at its front is left out. -/
def read? (text : String) : Option Document := do
  let s := match text.toList with
    | '\ufeff' :: s => s
    | s => s
  let statements ← readStatements (s.length + 1) s
  let reading ← statements.foldlM Reading.take ⟨[], []⟩
  return .table (documents reading.entries)

end CommandTemplate.Toml
