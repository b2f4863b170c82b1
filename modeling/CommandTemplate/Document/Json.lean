import CommandTemplate.Document.Basic

/-!
# Documents as JSON

Prints a document over several lines, each level two blanks further in.
-/
namespace CommandTemplate.Document

def hexDigits4 (n : Nat) : List Char :=
  [n / 4096 % 16, n / 256 % 16, n / 16 % 16, n % 16].map Nat.digitChar

/-- How a character is written in a string: only what must be is escaped. -/
def jsonChar (c : Char) : List Char :=
  if c = '"' then ['\\', '"']
  else if c = '\\' then ['\\', '\\']
  else if c = '\n' then ['\\', 'n']
  else if c = '\r' then ['\\', 'r']
  else if c = '\t' then ['\\', 't']
  else if c = '\x08' then ['\\', 'b']
  else if c = '\x0c' then ['\\', 'f']
  else if c < ' ' then '\\' :: 'u' :: hexDigits4 c.toNat
  else [c]

def jsonString (s : String) : String :=
  String.ofList ('"' :: s.toList.flatMap jsonChar ++ ['"'])

def indentation (depth : Nat) : String := String.ofList (List.replicate (2 * depth) ' ')

/-- Items between brackets, each on a line of its own. -/
def jsonBlock (opening closing : String) (depth : Nat) (items : List String) : String :=
  if items.isEmpty then opening ++ closing
  else
    let line (item : String) := "\n" ++ indentation (depth + 1) ++ item
    opening ++ ",".intercalate (items.map line) ++ "\n" ++ indentation depth ++ closing

mutual
def json (depth : Nat) : Document → String
  | .null => "null"
  | .boolean b => if b then "true" else "false"
  | .number written => written
  | .time written => jsonString written
  | .text s => jsonString s
  | .list ds => jsonBlock "[" "]" depth (jsonElements (depth + 1) ds)
  | .table es => jsonBlock "\x7b" "\x7d" depth (jsonEntries (depth + 1) es)

def jsonElements (depth : Nat) : List Document → List String
  | [] => []
  | d :: ds => d.json depth :: jsonElements depth ds

def jsonEntries (depth : Nat) : List (String × Document) → List String
  | [] => []
  | (key, d) :: es => (jsonString key ++ ": " ++ d.json depth) :: jsonEntries depth es
end

end CommandTemplate.Document
