import CommandTemplate.Dict
import CommandTemplate.Host.Files
import CommandTemplate.Seed
import CommandTemplate.Shell.Basic
import CommandTemplate.Time.Calendar

/-!
# The host

What a resolution can see of the world around it.
-/
namespace CommandTemplate

structure Host where
  shell : Shell
  /-- The working directory. -/
  directory : Path
  environment : Dict String
  /-- The path of the active file; a relative one has been joined to the working directory. -/
  file : Option Path
  /-- What reading the active file gives. -/
  fileText : Except FileFault String
  clipboard : Option String
  /-- The type of the event that triggered the command. -/
  event : Option String
  now : Moment
  seed : Seed

namespace Host

/-- The path of an active file that was named in the working directory. -/
def activePath (directory file : Path) : Path :=
  if Path.isAbsolute file then file else Path.join directory file

/-- The same host with randomness of its own. -/
def fork (h : Host) (n : Nat) : Host := { h with seed := h.seed.child n }

end Host
end CommandTemplate
