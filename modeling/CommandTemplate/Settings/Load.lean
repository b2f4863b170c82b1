import CommandTemplate.ProgramError
import CommandTemplate.Settings.Decode
import CommandTemplate.Toml.Reader

/-!
# Loading settings

The layers from the lowest to the uppermost: the user's file, the file of the folder that the
program is run in, the environment. Files that are not there are passed over.
-/
namespace CommandTemplate.Settings

def projectFileName : String := ".cmdvars.toml"

/-- The path of a file in a folder. -/
def pathIn (folder : Path) (name : String) : Path := Path.join folder (.ofText name)

def ofToml? (text : String) : Option Settings := (Toml.read? text).bind Document.settings?

/-- The settings of a file, which must be there. -/
def ofFile (files : Files) (path : Path) : Except ProgramError Settings :=
  match files.read path with
  | .error fault => .error (.unreadableSettings path fault)
  | .ok text =>
    match ofToml? text with
    | some s => .ok s
    | none => .error (.malformedSettings path)

/-- Lays the settings of a file over `s`, if it is there. -/
def overlayFile (files : Files) (path : Path) (s : Settings) : Except ProgramError Settings :=
  if files.present path then (ofFile files path).map s.overlay else .ok s

def load (files : Files) (userFile : Option Path) (folder : Path)
    (environment : Dict String) : Except ProgramError Settings := do
  let s ← match userFile with
    | some path => overlayFile files path ∅
    | none => pure ∅
  let s ← overlayFile files (pathIn folder projectFileName) s
  return s.withEnvironment environment

/-- The folder of a user's settings: an absolute path in `XDG_CONFIG_HOME`, or a folder at home. -/
def userFolder? (environment : Dict String) : Option Path := do
  let home ← (environment.get? "HOME").filter (· != "")
  let folder := (environment.get? "XDG_CONFIG_HOME").map Path.ofText
  return (folder.filter fun path => path.isAbsolute).getD (pathIn (.ofText home) ".config")

/-- The settings file of a user. -/
def userFile? (environment : Dict String) : Option Path :=
  (userFolder? environment).map fun folder => pathIn (pathIn folder "cmdvars") "config.toml"

end CommandTemplate.Settings
