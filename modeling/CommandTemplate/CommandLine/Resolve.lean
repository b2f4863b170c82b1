import CommandTemplate.Host.Surroundings
import CommandTemplate.Prompt.Basic
import CommandTemplate.Settings.Basic
import CommandTemplate.Variable.Builtin
import CommandTemplate.Variable.Catalog

/-!
# Resolving a command

A command, and a text that is shown for it, go through two phases: the built-in variables, and then
the custom ones, for which the user may be asked in between. A failed first phase is the outcome.
-/
namespace CommandTemplate

structure ResolveRequest where
  command : String
  /-- The text that is shown for the command. -/
  shown : Option String
  shell : Option String
  file : Option Path
  event : Option String
  clipboard : Option String
  assignments : List (String × String)
  prompt : Bool
  deriving DecidableEq, Repr

structure ResolveOutcome where
  shell : Shell
  succeeded : Bool
  results : List (String × Resolution)
  deriving DecidableEq, Repr

namespace ResolveOutcome

def get? (o : ResolveOutcome) (key : String) : Option Resolution := o.results.lookup key

/-- The messages of all keys, each message once. -/
def messages (o : ResolveOutcome) : List String :=
  distinct (o.results.flatMap fun (_, result) => result.distinctMessages)

end ResolveOutcome

namespace ResolveRequest

def commandKey : String := "command"
def shownKey : String := "alias"

/-- The texts to resolve, under their keys. -/
def contents (r : ResolveRequest) : List (String × String) :=
  (commandKey, r.command) :: (r.shown.map fun text => (shownKey, text)).toList

/-- The run before its first phase. -/
def start (r : ResolveRequest) (settings : Settings) (shell : Shell) :
    Except TemplateError Run := do
  let run ← r.contents.foldlM (fun run (key, text) => run.addContent key text) (Run.start shell)
  return settings.exempt.foldl Run.skipEscaping run

/-- The custom variables known before the user is asked. -/
def knownSet (r : ResolveRequest) (settings : Settings) : CustomSet :=
  settings.declaredSet.extend (.ofList r.assignments)

/-- The custom variables. The user's answers count more than anything that was known before. -/
def customSet (r : ResolveRequest) (settings : Settings) (h : Host) :
    Dialogue (Except ProgramError CustomSet) :=
  if r.prompt && !settings.prompt.isEmpty then
    (Prompt.ask Builtin.all h settings.prompt).map fun
      | .ok answers => .ok ((r.knownSet settings).extend answers)
      | .error e => .error (.during .prompt e)
  else .done (.ok (r.knownSet settings))

end ResolveRequest

/-- The outcome of a run that has taken its last phase. -/
def Run.outcome (run : Run) (succeeded : Bool) : ResolveOutcome :=
  ⟨run.shell, succeeded, run.resultList⟩

/-- Runs a phase with the given variables, as a step of the program. -/
def Run.phase (run : Run) (step : Step) (vs : List Variable) : Except ProgramError (Run × Bool) :=
  match (run.push vs).advance with
  | (run, .ok ok) => .ok (run, ok)
  | (_, .error e) => .error (.during step (.engine e))

/-- The second phase, once the custom variables are known. -/
def Run.customPhase (run : Run) (custom : CustomSet) : Except ProgramError ResolveOutcome := do
  let (run, ok) ← run.phase .customVariables custom.toVariables
  return run.outcome ok

/-- Resolves what a request asks for. -/
def ResolveRequest.resolve (r : ResolveRequest) (settings : Settings) (w : Surroundings) :
    Dialogue (Except ProgramError ResolveOutcome) :=
  match Shell.identify (r.shell.getD settings.shellIdentifier) with
  | .error e => .done (.error (.engine e))
  | .ok shell =>
    let h := w.host shell r.file r.clipboard r.event
    match r.start settings shell with
    | .error e => .done (.error (.engine e))
    | .ok run =>
      match run.phase .builtinVariables (Builtin.all (h.fork 0)) with
      | .error e => .done (.error e)
      | .ok (run, false) => .done (.ok (run.outcome false))
      | .ok (run, true) => (r.customSet settings h).map fun custom => custom >>= run.customPhase

/-- Escapes a value for a named shell, or for the one of the settings. -/
def escapeValue (settings : Settings) (shell : Option String) (value : String) :
    Except ProgramError String :=
  match Shell.identify (shell.getD settings.shellIdentifier) with
  | .ok shell => .ok (shell.escape value)
  | .error e => .error (.engine e)

/-- The catalog of the variables that a command can use under these settings. -/
def catalogFor (settings : Settings) (w : Surroundings) : Except ProgramError Catalog :=
  match settings.resolveShell with
  | .ok shell =>
    .ok (.ofVariables (Builtin.all (w.host shell none none none) ++
      settings.declaredSet.toVariables))
  | .error e => .error (.engine e)

end CommandTemplate
