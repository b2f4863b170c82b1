/-!
# Prompt fields

What a user can be asked before the custom variables are resolved.
-/
namespace CommandTemplate

structure PromptField where
  /-- The custom variable that receives the answer. -/
  variableName : String
  label : Option String
  default : Option String
  deriving DecidableEq, Repr

/-- The text of the question. -/
def PromptField.message (f : PromptField) : String := f.label.getD f.variableName

end CommandTemplate
