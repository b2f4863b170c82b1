import CommandTemplate.CommandLine.Program
import Std.Time.Format

/-!
# The command line

Finds out what the program has to know, runs it, and writes its report. Questions are asked on the
standard error, so that the standard output only ever carries what a shell is to run.
-/
namespace CommandTemplate.CommandLine

/-- Why a file could not be read. -/
def faultOf : IO.Error → FileFault
  | .noFileOrDirectory .. => .missing
  | .permissionDenied .. => .denied
  | .inappropriateType _ code message =>
    if code = 20 then .notFolder else if code = 21 then .isFolder else .other message
  | e => .other (toString e)

/-- The text of a file, or why there is none. -/
def readText (path : Path) : IO (Except FileFault String) := do
  if path.contains 0 then return .error .nulInPath
  try
    match String.fromUTF8? (← IO.FS.readBinFile path.text) with
    | some text => return .ok text
    | none => return .error .notText
  catch e => return .error (faultOf e)

/-- The variables of an environment, each ended by a null byte. -/
def environmentIn (bytes : ByteArray) : Dict String :=
  let texts := (bytes.toList.splitBy fun _ b => b != 0).map fun bs =>
    String.fromUTF8? ⟨(bs.filter (· != 0)).toArray⟩
  .ofList (texts.filterMap fun text => do
    let text ← text
    let name := text.toList.takeWhile (· != '=')
    match text.toList.drop name.length with
    | _ :: value => some (String.ofList name, String.ofList value)
    | [] => none)

def readMoment : IO Moment := do
  let now ← Std.Time.Timestamp.now
  let rules ← Std.Time.Database.defaultGetLocalZoneRules
  let offset := (rules.findLocalTimeTypeForTimestamp now).gmtOffset.second.val
  let nanoseconds := now.toNanosecondsSinceUnixEpoch.val
  return .ofTimestamp (nanoseconds / 1000000000) (nanoseconds % 1000000000).toNat offset

def readSeed : IO Seed := do
  let bytes ← IO.getRandomBytes 8
  return ⟨bytes.toList.foldl (fun n b => n * 256 + b.toUInt64) 0⟩

def readSurroundings (i : Invocation) : IO Surroundings := do
  let directory := Path.ofText (← IO.FS.realPath ".").toString
  let environment := environmentIn (← IO.FS.readBinFile "/proc/self/environ")
  let contents ← (i.paths directory environment).mapM fun path => do
    return (path, ← readText path)
  return {
    directory, environment
    files := .ofList contents
    now := ← readMoment
    seed := ← readSeed }

/-- Asks the user. -/
def converse : Dialogue α → IO α
  | .done a => return a
  | .ask question next => do
    let err ← IO.getStderr
    err.putStr question.shown
    err.flush
    let line ← (← IO.getStdin).getLine
    converse (next (some (replyOnLine line)))

def writeReport (report : Report) : IO UInt32 := do
  IO.print report.out
  IO.eprint report.err
  return report.exitCode.toUInt32

end CommandTemplate.CommandLine

open CommandTemplate.CommandLine

def main (words : List String) : IO UInt32 := do
  match Invocation.ofWords words with
  | .error e =>
    let text := unlines e.lines
    writeReport (if e.exitCode = 0 then ⟨0, text, ""⟩ else ⟨e.exitCode, "", text⟩)
  | .ok invocation => writeReport (← converse (invocation.run (← readSurroundings invocation)))
