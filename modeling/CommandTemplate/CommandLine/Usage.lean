/-!
# Usage errors

Why the arguments of the program do not say what it is to do. Asking for help is among them: it
ends the program before it does anything.
-/
namespace CommandTemplate.CommandLine

inductive UsageError where
  | missingRequiredArgument
  | missingSubcommand
  | unknownArgument
  | invalidSubcommand
  | valueValidation
  | invalidValue
  | argumentConflict
  | tooManyValues
  | displayHelp
  | displayVersion
  | displayHelpOnMissingSubcommand
  deriving DecidableEq, Repr

namespace UsageError

def reason : UsageError → String
  | missingRequiredArgument => "a required argument is missing"
  | missingSubcommand => "a subcommand is required"
  | unknownArgument => "there is an unexpected argument"
  | invalidSubcommand => "there is no such subcommand"
  | valueValidation => "a custom variable is set by NAME=VALUE"
  | invalidValue => "an option lacks its value"
  | argumentConflict => "an option is given more than once"
  | tooManyValues => "an option that takes no value has one"
  | displayHelp | displayVersion | displayHelpOnMissingSubcommand => ""

/-- How the program is used. -/
def usage : List String := [
  "Usage: cmdvars [-v] [-c FILE] resolve COMMAND [OPTIONS]",
  "       cmdvars [-v] [-c FILE] escape VALUE [-s SHELL]",
  "       cmdvars [-v] [-c FILE] variables [PREFIX]",
  "",
  "Options of resolve:",
  "      --alias TEXT         text to show, resolved alongside the command",
  "  -s, --shell SHELL        destination shell",
  "  -f, --file PATH          active file",
  "      --event TYPE         type of the triggering event",
  "      --clipboard TEXT     text on the clipboard",
  "      --set NAME=VALUE     set a custom variable",
  "      --prompt             ask for the prompt fields",
  "      --json               print every result as JSON"]

/-- What is written for the user. -/
def lines : UsageError → List String
  | displayHelp | displayHelpOnMissingSubcommand => usage
  | displayVersion => ["cmdvars 0.1.0"]
  | e => ("error: " ++ e.reason) :: "" :: usage

/-- Only what was asked for is no failure. -/
def exitCode : UsageError → Nat
  | displayHelp | displayVersion => 0
  | _ => 2

end UsageError
end CommandTemplate.CommandLine
