/-!
# Errors of the engine

A variable without a value is not an error but a failed resolution. What stands here means that
nothing can be resolved at all: a malformed schema, an unknown shell, or a run used out of order.
-/
namespace CommandTemplate

/-- What can be wrong with the declaration of a parameter. -/
inductive SchemaFault where
  | typeAndOptions
  | neitherTypeNorOptions
  | noOptions
  deriving DecidableEq, Repr

def SchemaFault.reason : SchemaFault → String
  | .typeAndOptions => "declares both a type and options"
  | .neitherTypeNorOptions => "declares neither a type nor options"
  | .noOptions => "declares an empty option list"

inductive TemplateError where
  | invalidParameter (variableName parameterName : String) (fault : SchemaFault)
  | unrecognizedShell (identifier : String)
  | noPhasesRemaining
  | duplicateKey (key : String)
  deriving DecidableEq, Repr

def TemplateError.message : TemplateError → String
  | .invalidParameter v p fault =>
    "Invalid parameter '" ++ p ++ "' on variable '" ++ v ++ "': " ++ fault.reason
  | .unrecognizedShell id =>
    "Unrecognized shell '" ++ id ++ "': no escaping strategy is known for it"
  | .noPhasesRemaining => "No variable sets remain to be parsed"
  | .duplicateKey key => "Content key '" ++ key ++ "' was added twice"

end CommandTemplate
