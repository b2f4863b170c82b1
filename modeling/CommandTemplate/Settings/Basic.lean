import CommandTemplate.Prompt.Field
import CommandTemplate.Shell.Basic
import CommandTemplate.Variable.Custom

/-!
# Settings

Settings are layered: what a later layer sets replaces what the layers below it have set. Custom
variables are merged name by name, and the environment is the last layer.
-/
namespace CommandTemplate

structure Settings where
  /-- What names the shell that commands are escaped for. -/
  shell : Option String
  logLevel : Option String
  /-- Keys of contents that are shown and not run. -/
  exemptKeys : Option (List String)
  customValues : Dict String
  prompt : List PromptField
  deriving DecidableEq, Repr

namespace Settings

def empty : Settings := ⟨none, none, none, ∅, []⟩

instance : EmptyCollection Settings := ⟨empty⟩

/-- The values under the names of custom variables. Of several spellings of one name the greatest
counts. -/
def normalized (values : Dict String) : Dict String :=
  .ofList (values.entries.map fun (name, value) => (customName name, value))

/-- Lays `upper` over `lower`. A prompt without fields sets nothing. -/
def overlay (lower upper : Settings) : Settings where
  shell := upper.shell.or lower.shell
  logLevel := upper.logLevel.or lower.logLevel
  exemptKeys := upper.exemptKeys.or lower.exemptKeys
  customValues :=
    (normalized upper.customValues).entries.foldl (fun d e => d.insert e.1 e.2)
      (normalized lower.customValues)
  prompt := if upper.prompt.isEmpty then lower.prompt else upper.prompt

def shellKey : String := "CMDVARS_SHELL"
def logLevelKey : String := "CMDVARS_LOG_LEVEL"

/-- The value of an environment variable, unless it is blank. -/
def nonblank? (environment : Dict String) (name : String) : Option String :=
  (environment.get? name).filter fun value => !Text.allBlank value

def withEnvironment (s : Settings) (environment : Dict String) : Settings :=
  { s with
    shell := (nonblank? environment shellKey).or s.shell
    logLevel := (nonblank? environment logLevelKey).or s.logLevel }

def defaultShell : String := "bash"

def shellIdentifier (s : Settings) : String := s.shell.getD defaultShell

def resolveShell (s : Settings) : Except TemplateError Shell :=
  Shell.identify s.shellIdentifier

/-- The exempt keys that count where no layer sets any. -/
def defaultExemptKeys : List String := ["alias"]

def exempt (s : Settings) : List String := s.exemptKeys.getD defaultExemptKeys

/-- The custom variables that have values. -/
def customSet (s : Settings) : CustomSet := .ofList s.customValues.entries

/-- The custom variables, those that the prompt asks for among them. -/
def declaredSet (s : Settings) : CustomSet :=
  s.prompt.foldl (fun c field => c.declare field.variableName) s.customSet

end Settings
end CommandTemplate
