import CommandTemplate.Path.Basic

/-!
# Files

Why a file cannot be read as text, and what is known of files before they are asked for.
-/
namespace CommandTemplate

inductive FileFault where
  | missing
  | denied
  | notFolder
  | isFolder
  | nameTooLong
  | nulInPath
  | notText
  | other (message : String)
  deriving DecidableEq, Repr

def FileFault.message : FileFault → String
  | .missing => "No such file or directory (os error 2)"
  | .denied => "Permission denied (os error 13)"
  | .notFolder => "Not a directory (os error 20)"
  | .isFolder => "Is a directory (os error 21)"
  | .nameTooLong => "File name too long (os error 36)"
  | .nulInPath => "file name contained an unexpected NUL byte"
  | .notText => "stream did not contain valid UTF-8"
  | .other message => message

/-- How files are reached: what reading one gives, and whether there is one. -/
structure Files where
  read : Path → Except FileFault String
  present : Path → Bool

/-- Files that were read before, under the paths they were read by. A file counts as present unless
reading it has shown that nothing is there. -/
def Files.ofList (contents : List (Path × Except FileFault String)) : Files where
  read path := (contents.lookup path).getD (.error .missing)
  present path :=
    match (contents.lookup path).getD (.error .missing) with
    | .error .missing | .error .notFolder | .error .nameTooLong | .error .nulInPath => false
    | _ => true

end CommandTemplate
