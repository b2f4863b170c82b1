import CommandTemplate.Error

/-!
# Parameters of a token

A parameter declares a type or a list of options. A declaration can be malformed; its shape exists
only when it is not.
-/
namespace CommandTemplate

inductive ParameterType where
  | text
  | integer
  deriving DecidableEq, Repr

structure Parameter where
  name : String
  type : Option ParameterType
  options : Option (List String)
  required : Bool
  deriving DecidableEq, Repr

/-- What a well-formed parameter accepts. -/
inductive Shape where
  | text
  | integer
  | choice (options : List String)
  deriving DecidableEq, Repr

namespace Parameter

def text (name : String) : Parameter := ⟨name, some .text, none, true⟩

def integer (name : String) : Parameter := ⟨name, some .integer, none, true⟩

def choice (name : String) (options : List String) : Parameter := ⟨name, none, some options, true⟩

def optional (p : Parameter) : Parameter := { p with required := false }

def shape (p : Parameter) : Except SchemaFault Shape :=
  match p.type, p.options with
  | some _, some _ => .error .typeAndOptions
  | none, none => .error .neitherTypeNorOptions
  | none, some [] => .error .noOptions
  | none, some options => .ok (.choice options)
  | some .text, none => .ok .text
  | some .integer, none => .ok .integer

def isInteger (p : Parameter) : Bool := p.type == some .integer && p.options.isNone

/-- How a synopsis shows the parameter: its options, or else its name. -/
def shown (p : Parameter) : String :=
  match p.type, p.options with
  | none, some options => "|".intercalate options
  | _, _ => p.name

end Parameter
end CommandTemplate
