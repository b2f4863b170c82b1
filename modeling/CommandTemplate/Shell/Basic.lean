import CommandTemplate.Error
import CommandTemplate.Shell.Posix
import CommandTemplate.Shell.PowerShell
import CommandTemplate.Text.Blank
import CommandTemplate.Text.Lowercase

/-!
# Shells

The shells that values can be escaped for, how one is named by a program name or path, and which
way of quoting each uses.
-/
namespace CommandTemplate

/-- A way of writing a value so that it can be inserted into the text of a command. -/
abbrev Escaper := List Char → List Char

inductive Quoting where
  | posix
  | powerShell
  | verbatim
  deriving DecidableEq, Repr

/-- The text that a shell of this quoting reads back as the value; a verbatim value is left
alone. -/
def Quoting.encode : Quoting → Escaper
  | .posix => Posix.encode
  | .powerShell => PowerShell.encode
  | .verbatim => id

inductive Shell where
  | bash
  | dash
  | zsh
  | sh
  | ksh
  | powershell
  | pwsh
  | cmd
  deriving DecidableEq, Repr

namespace Shell

def all : List Shell := [bash, dash, zsh, sh, ksh, powershell, pwsh, cmd]

theorem mem_all (s : Shell) : s ∈ all := by cases s <;> decide

/-- The canonical name. -/
def name : Shell → String
  | bash => "bash"
  | dash => "dash"
  | zsh => "zsh"
  | sh => "sh"
  | ksh => "ksh"
  | powershell => "powershell"
  | pwsh => "pwsh"
  | cmd => "cmd"

/-- `cmd` has no quoting that is safe for every value. -/
def quoting : Shell → Quoting
  | powershell | pwsh => .powerShell
  | cmd => .verbatim
  | _ => .posix

def supportsEscaping (s : Shell) : Bool := s.quoting != .verbatim

def escape (s : Shell) (value : String) : String :=
  String.ofList (s.quoting.encode value.toList)

def isSeparator (c : Char) : Bool := c == '/' || c == '\\'

/-- The part of an identifier behind its last separator of either kind. -/
def baseName (id : List Char) : List Char :=
  (id.reverse.takeWhile fun c => !isSeparator c).reverse

/-- Takes one `.exe` off the end. -/
def stripExe (s : List Char) : List Char :=
  if ['.', 'e', 'x', 'e'].isSuffixOf s then s.take (s.length - 4) else s

/-- The program name that an identifier comes down to, with directory, case, blanks and `.exe`
ignored. -/
def programName (id : String) : List Char :=
  stripExe (Text.lower (Text.trim (baseName id.toList)))

/-- The shell that an identifier names. -/
def identify (id : String) : Except TemplateError Shell :=
  match all.find? fun s => s.name.toList == programName id with
  | some s => .ok s
  | none => .error (.unrecognizedShell id)

end Shell
end CommandTemplate
