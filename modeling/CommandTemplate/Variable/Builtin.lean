import CommandTemplate.Host.Basic
import CommandTemplate.Time.Format
import CommandTemplate.Variable.Basic

/-!
# Built-in variables

The variables whose values come from the host. Each names itself in the message of a failure.
-/
namespace CommandTemplate.Builtin

/-- The path of the active file. -/
def requireFile (h : Host) (name : String) : Except Failure Path :=
  match h.file with
  | some path => .ok path
  | none => .error (.about name "no file is active")

/-- The folder of the active file. -/
def requireFolder (file : Path) (name : String) : Except Failure Path :=
  match Path.parent? file with
  | some (b :: folder) => .ok (b :: folder)
  | _ => .error (.about name "the active file has no parent folder")

/-- The way of showing a path that the argument `parameter` names. -/
def requireMode (arguments : Arguments) (parameter name : String) : Except Failure Path.Mode :=
  match arguments.text? parameter with
  | none => .error (.about name "path mode is missing")
  | some text =>
    match Path.Mode.ofText? text with
    | some mode => .ok mode
    | none => .error (.about name ("unknown path mode '" ++ Text.lowercased text ++ "'"))

/-- The argument as text, or a failure with the message. -/
def requireText (arguments : Arguments) (parameter name message : String) :
    Except Failure String :=
  match arguments.text? parameter with
  | some text => .ok text
  | none => .error (.about name message)

def date (h : Host) : Variable where
  name := "date"
  parameters := [.text "format"]
  help := "Current local date and time, e.g. \x7b\x7bdate:YYYY-MM-DD HH:mm\x7d\x7d"
  generate arguments _ := do
    let format ← requireText arguments "format" "date" "format is missing"
    return h.now.format format

def environment (h : Host) : Variable where
  name := "environment"
  parameters := [.text "variable"]
  help := "Value of an environment variable"
  generate arguments _ := do
    let key ← requireText arguments "variable" "environment" "variable name is missing"
    match h.environment.get? key with
    | some value => .ok value
    | none =>
      .error (.about "environment" ("environment variable '" ++ key ++ "' is not set"))

def workspacePath (h : Host) : Variable where
  name := "workspace_path"
  parameters := []
  help := "Absolute path of the working directory"
  generate _ _ := .ok h.directory.text

def pathMode : Parameter := .choice "mode" ["absolute", "relative"]

def filePath (h : Host) : Variable where
  name := "file_path"
  parameters := [pathMode]
  help := "Path of the active file, absolute or relative to the working directory"
  generate arguments _ := do
    let file ← requireFile h "file_path"
    let mode ← requireMode arguments "mode" "file_path"
    return String.ofList (Path.display file mode h.directory)

def fileName (h : Host) : Variable where
  name := "file_name"
  parameters := []
  help := "Name of the active file, with extension"
  generate _ _ := do
    let file ← requireFile h "file_name"
    match Path.fileName? file with
    | some name => .ok name.text
    | none => .error (.about "file_name" "the active file has no name")

/-- The extension of a file, empty where it has none; with a dot only before one. -/
def extensionText (file : Path) (withDot : Bool) : List Char :=
  let extension := Text.lossy (((Path.fileName? file).bind Path.extension?).getD [])
  if withDot && !extension.isEmpty then '.' :: extension else extension

def fileExtension (h : Host) : Variable where
  name := "file_extension"
  parameters := [.choice "dot" ["with-dot", "no-dot"]]
  help := "Extension of the active file, with or without the leading dot"
  generate arguments _ := do
    let file ← requireFile h "file_extension"
    let withDot := ((arguments.text? "dot").map (Text.sameAsciiCase "with-dot")).getD false
    return String.ofList (extensionText file withDot)

def folderPath (h : Host) : Variable where
  name := "folder_path"
  parameters := [pathMode]
  help := "Folder containing the active file, absolute or relative to the working directory"
  generate arguments _ := do
    let file ← requireFile h "folder_path"
    let folder ← requireFolder file "folder_path"
    let mode ← requireMode arguments "mode" "folder_path"
    return String.ofList (Path.display folder mode h.directory)

def folderName (h : Host) : Variable where
  name := "folder_name"
  parameters := []
  help := "Name of the folder containing the active file"
  generate _ _ := do
    let file ← requireFile h "folder_name"
    let folder ← requireFolder file "folder_name"
    match Path.fileName? folder with
    | some name => .ok name.text
    | none => .error (.about "folder_name" "the folder has no name")

def fileContent (h : Host) : Variable where
  name := "file_content"
  parameters := []
  help := "Full text content of the active file"
  generate _ _ := do
    let file ← requireFile h "file_content"
    match h.fileText with
    | .ok text => .ok text
    | .error fault =>
      .error (.about "file_content"
        ("failed to read '" ++ file.text ++ "': " ++ fault.message))

def clipboard (h : Host) : Variable where
  name := "clipboard"
  parameters := []
  help := "Text currently on the clipboard"
  generate _ _ :=
    match h.clipboard with
    | some text =>
      if text = "" then .error (.about "clipboard" "clipboard is empty") else .ok text
    | none => .error (.about "clipboard" "clipboard is empty")

def eventType (h : Host) : Variable where
  name := "event_type"
  parameters := []
  help := "Name of the triggering event; fails when the command was run by hand"
  generate _ _ :=
    match h.event with
    | some event => .ok event
    | none => .error (.about "event_type" "only available when triggered by an event")

def maxNewlines : Int := 1000

def newline : Variable where
  name := "newline"
  parameters := [Parameter.optional (.integer "count")]
  help := "A newline character, optionally repeated"
  generate arguments _ :=
    match arguments.integer? "count" with
    | none => .ok "\n"
    | some (.ok n) =>
      if 0 ≤ n ∧ n ≤ maxNewlines then .ok (String.ofList (List.replicate n.toNat '\n'))
      else
        .error (.about "newline"
          ("count " ++ toString n ++ " exceeds the maximum of " ++ toString maxNewlines))
    | some (.error raw) => .error (.about "newline" ("count '" ++ raw ++ "' is out of range"))

def uuid (h : Host) : Variable where
  name := "uuid"
  parameters := []
  help := "A random UUID, different for every occurrence"
  generate _ n := .ok (h.seed.child n).uuid

def passthrough : Variable where
  name := "passthrough"
  parameters := [.text "value"]
  help := "Echoes its argument; useful for checking escaping"
  generate arguments _ := requireText arguments "value" "passthrough" "value is missing"

/-- All built-in variables, in the order in which they take their turns. -/
def all (h : Host) : List Variable :=
  [date h, environment h, workspacePath h, filePath h, fileName h, fileExtension h, folderPath h,
   folderName h, fileContent h, clipboard h, eventType h, newline, uuid h, passthrough]

end CommandTemplate.Builtin
