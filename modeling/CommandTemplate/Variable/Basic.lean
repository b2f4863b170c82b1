import CommandTemplate.Dict
import CommandTemplate.Text.Integer
import CommandTemplate.Token.Pattern

/-!
# Variables

A variable has a name, a schema and a way to make its value from arguments. While it is being
resolved it is an instance: it holds the arguments of the occurrence at hand, the messages of its
last failure, and how many values it has been asked for.
-/
namespace CommandTemplate

/-- An argument; the integers are those of 64 bits. -/
inductive Argument where
  | text (s : String)
  | integer (n : Int)
  deriving DecidableEq, Repr

def Argument.toText : Argument → String
  | .text s => s
  | .integer n => toString n

abbrev Arguments := Dict Argument

/-- The argument as text. -/
def Arguments.text? (a : Arguments) (name : String) : Option String :=
  (a.get? name).map Argument.toText

/-- The argument as an integer, or the text that is none. -/
def Arguments.integer? (a : Arguments) (name : String) : Option (Except String Int) :=
  (a.get? name).map fun
    | .integer n => .ok n
    | .text s => .error s

/-- Why a variable has no value. -/
structure Failure where
  messages : List String
  deriving DecidableEq, Repr

/-- A failure of one message, which names the token of the variable. -/
def Failure.about (name message : String) : Failure := ⟨[tokenOf name ++ ": " ++ message]⟩

def Failure.display (f : Failure) : String := "; ".intercalate f.messages

structure Variable where
  name : String
  parameters : List Parameter
  help : String
  /-- The value for the arguments; the number counts the values asked for before. -/
  generate : Arguments → Nat → Except Failure String

namespace Variable

def pattern (v : Variable) : Except TemplateError TokenPattern :=
  TokenPattern.ofSchema v.name v.parameters

def synopsis (v : Variable) : String := synopsisOf v.name v.parameters

/-- The value depends on the arguments alone. -/
def Determined (v : Variable) : Prop := ∀ a m n, v.generate a m = v.generate a n

/-- Some parameter of this name takes integers. -/
def takesInteger (v : Variable) (parameter : String) : Bool :=
  v.parameters.any fun p => p.name == parameter && p.isInteger

/-- The argument that a text gives: an integer where one is asked for and the text is one. -/
def argument (v : Variable) (parameter raw : String) : Argument :=
  if v.takesInteger parameter then
    match Text.readInt64 raw.toList with
    | some n => .integer n
    | none => .text raw
  else .text raw

end Variable

structure Instance where
  base : Variable
  arguments : Arguments
  messages : List String
  drawn : Nat

namespace Instance

def of (v : Variable) : Instance := ⟨v, ∅, [], 0⟩

@[simp] theorem base_of (v : Variable) : (of v).base = v := rfl

/-- Forgets the arguments and messages of the last occurrence. -/
def reset (v : Instance) : Instance := { v with arguments := ∅, messages := [] }

def setArgument (v : Instance) (parameter raw : String) : Instance :=
  { v with arguments := v.arguments.insert parameter (v.base.argument parameter raw) }

/-- Adds the messages of a failure, and one that says no more where it has none. -/
def record (v : Instance) (f : Failure) : Instance :=
  let messages :=
    if f.messages.isEmpty then [tokenOf v.base.name ++ ": no value could be generated"]
    else f.messages
  { v with messages := v.messages ++ messages }

/-- The value for the arguments at hand. -/
def generate (v : Instance) : Instance × Except Failure String :=
  ({ v with drawn := v.drawn + 1 }, v.base.generate v.arguments v.drawn)

/-- Sets the arguments that a token gives, by their places in the schema. -/
def setArguments (v : Instance) (given : List (Option (List Char))) : Instance :=
  ((v.base.parameters.map (·.name)).zip given).foldl
    (fun v (parameter, raw) =>
      match raw with
      | some raw => v.setArgument parameter (String.ofList raw)
      | none => v)
    v

/-- The value for a token of the variable, or the messages of its failure. -/
def answer (v : Instance) (t : Token) : Instance × Except (List String) String :=
  match (v.reset.setArguments t.arguments).generate with
  | (v, .ok value) => (v, .ok value)
  | (v, .error failure) =>
    let v := v.record failure
    (v, .error v.messages)

end Instance
end CommandTemplate
