import CommandTemplate.Host.Basic

/-!
# Surroundings

What the program finds around it when it is started, whatever it is then asked to do.
-/
namespace CommandTemplate

structure Surroundings where
  /-- The working directory. -/
  directory : Path
  environment : Dict String
  files : Files
  now : Moment
  seed : Seed

/-- The host for one command. The active file is found from the working directory. -/
def Surroundings.host (w : Surroundings) (shell : Shell) (file : Option Path)
    (clipboard event : Option String) : Host :=
  let file := file.map (Host.activePath w.directory)
  { shell, file, clipboard, event
    directory := w.directory
    environment := w.environment
    fileText := (file.map w.files.read).getD (.error .missing)
    now := w.now
    seed := w.seed }

end CommandTemplate
