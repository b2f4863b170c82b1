import CommandTemplate.Text.Blank

/-!
# Log levels

How much is logged. Being asked to be verbose counts more than what the settings say.
-/
namespace CommandTemplate

/-- The log level for a number of requests to be verbose. -/
def logLevel (verbose : Nat) (configured : Option String) : String :=
  match verbose with
  | 0 => (configured.filter fun level => !Text.allBlank level).getD "warn"
  | 1 => "info"
  | 2 => "debug"
  | _ => "trace"

end CommandTemplate
