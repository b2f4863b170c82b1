import CommandTemplate.CommandLine.Arguments
import CommandTemplate.CommandLine.Report
import CommandTemplate.Settings.Load

/-!
# The program

Loads the settings, carries out the command and reports. All that it needs to know is given
beforehand, but for the user's replies.
-/
namespace CommandTemplate.CommandLine

/-- The settings that count for an invocation. A file that it names takes the place of the user's
file, and must be there. -/
def Invocation.settings (i : Invocation) (w : Surroundings) : Except ProgramError Settings :=
  match i.settingsFile with
  | some path =>
    if w.files.present path then Settings.load w.files path w.directory w.environment
    else .error (.missingSettings path)
  | none =>
    Settings.load w.files (Settings.userFile? w.environment) w.directory w.environment

/-- The files that carrying out an invocation can look at, from the folder it is run in. -/
def Invocation.paths (i : Invocation) (folder : Path) (environment : Dict String) :
    List Path :=
  let active := match i.command with
    | .resolve request _ => request.file.map (Host.activePath folder)
    | _ => none
  Settings.pathIn folder Settings.projectFileName ::
    (i.settingsFile.or (Settings.userFile? environment)).toList ++ active.toList

/-- Carries out a command under the settings. -/
def Command.run (settings : Settings) (w : Surroundings) :
    Command → Dialogue (Except ProgramError Report)
  | .resolve request json => (request.resolve settings w).map fun o => o.map (Report.ofOutcome json)
  | .escape value shell =>
    .done ((escapeValue settings shell value).map fun text => Report.success [text])
  | .catalog typed => .done ((catalogFor settings w).map (Report.ofCatalog typed))

/-- Runs the program; an error is reported in the end. -/
def Invocation.run (i : Invocation) (w : Surroundings) : Dialogue Report :=
  let report : Except ProgramError Report → Report
    | .ok report => report
    | .error e => .ofError i.verbose e
  match i.settings w with
  | .error e => .done (report (.error e))
  | .ok settings => (i.command.run settings w).map report

end CommandTemplate.CommandLine
