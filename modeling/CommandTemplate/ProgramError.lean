import CommandTemplate.Error
import CommandTemplate.Host.Files

/-!
# Errors of the program

What can stop the program as a whole, with the step that it happened in. An error of the engine
means that the program was set up wrongly, and has an exit code of its own.
-/
namespace CommandTemplate

/-- A step of resolving a command. -/
inductive Step where
  | builtinVariables
  | prompt
  | customVariables
  deriving DecidableEq, Repr

/-- How a step is called once it has failed. -/
def Step.failed : Step → String
  | .builtinVariables => "Failed to resolve built-in variables"
  | .prompt => "Prompt failed"
  | .customVariables => "Failed to resolve custom variables"

inductive ProgramError where
  | engine (e : TemplateError)
  | unanswered (question : String)
  | unresolvedDefault (variableName : String) (messages : List String)
  | missingSettings (path : Path)
  | unreadableSettings (path : Path) (fault : FileFault)
  | malformedSettings (path : Path)
  | during (step : Step) (cause : ProgramError)
  deriving DecidableEq, Repr

namespace ProgramError

def message : ProgramError → String
  | engine e => e.message
  | unanswered question => "No scripted answer for prompt '" ++ question ++ "'"
  | unresolvedDefault name messages =>
    "Could not resolve the default value of prompt field '" ++ name ++ "': " ++
      "; ".intercalate messages
  | missingSettings path => "Config file not found: " ++ path.text
  | unreadableSettings path _ => "Failed to read config file " ++ path.text
  | malformedSettings path => "Failed to parse config file " ++ path.text
  | during step _ => step.failed

/-- The messages from the outermost to that of the root cause. -/
def chain : ProgramError → List String
  | during step cause => step.failed :: cause.chain
  | unreadableSettings path fault => [(unreadableSettings path fault).message, fault.message]
  | malformedSettings path => [(malformedSettings path).message, "no settings in TOML"]
  | e => [e.message]

/-- The error of the engine at the root, if it is one. -/
def engine? : ProgramError → Option TemplateError
  | engine e => some e
  | during _ cause => cause.engine?
  | _ => none

def exitCode (e : ProgramError) : Nat := if e.engine?.isSome then 2 else 1

end ProgramError
end CommandTemplate
