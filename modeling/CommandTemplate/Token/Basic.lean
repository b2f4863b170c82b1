import CommandTemplate.Token.Parameter

/-!
# Tokens

A token is `{{`, an optional mark `!` against escaping, a name, arguments each behind a `:`, and
`}}`. An argument that was left out is `none`, which is not the empty argument.
-/
namespace CommandTemplate

structure Token where
  marked : Bool
  name : List Char
  arguments : List (Option (List Char))
  deriving DecidableEq, Repr

namespace Token

/-- An argument behind its colon, nothing for one that was left out. -/
def argumentText : Option (List Char) → List Char
  | some a => ':' :: a
  | none => []

/-- What follows the name. -/
def tailText (arguments : List (Option (List Char))) : List Char :=
  arguments.flatMap argumentText ++ ['}', '}']

@[simp] theorem tailText_nil : tailText [] = ['}', '}'] := rfl

@[simp] theorem tailText_none (arguments : List (Option (List Char))) :
    tailText (none :: arguments) = tailText arguments := rfl

@[simp] theorem tailText_some (a : List Char) (arguments : List (Option (List Char))) :
    tailText (some a :: arguments) = ':' :: (a ++ tailText arguments) := by
  simp [tailText, argumentText]

def markText (marked : Bool) : List Char := if marked then ['!'] else []

@[simp] theorem markText_true : markText true = ['!'] := rfl

@[simp] theorem markText_false : markText false = [] := rfl

/-- The token as it is written. -/
def text (t : Token) : List Char :=
  '{' :: '{' :: (markText t.marked ++ t.name ++ tailText t.arguments)

theorem text_append_of_marked {t : Token} (h : t.marked = true) (rest : List Char) :
    t.text ++ rest = '{' :: '{' :: '!' :: (t.name ++ (tailText t.arguments ++ rest)) := by
  simp [text, h]

theorem text_append_of_unmarked {t : Token} (h : t.marked = false) (rest : List Char) :
    t.text ++ rest = '{' :: '{' :: (t.name ++ (tailText t.arguments ++ rest)) := by
  simp [text, h]

/-- The value is escaped unless the token has a `!` right behind its braces. -/
def escapes (t : Token) : Bool := !(t.marked || t.name.head? == some '!')

end Token

/-- The token of a name without arguments, as messages show it. -/
def tokenOf (name : String) : String := "\x7b\x7b" ++ name ++ "\x7d\x7d"

/-- One parameter of a synopsis; brackets say that it may be left out. -/
def Parameter.synopsis (p : Parameter) : String :=
  if p.required then ":" ++ p.shown else "[:" ++ p.shown ++ "]"

/-- How the tokens of a variable are written. -/
def synopsisOf (name : String) (parameters : List Parameter) : String :=
  tokenOf (name ++ String.join (parameters.map (·.synopsis)))

end CommandTemplate
