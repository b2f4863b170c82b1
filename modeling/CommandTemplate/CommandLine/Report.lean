import CommandTemplate.CommandLine.Resolve
import CommandTemplate.Document.Json

/-!
# Reports

What the program writes about an outcome, a catalog or an error. Only what a shell is to run goes to
the standard output; everything else is for the user and goes to the standard error.
-/
namespace CommandTemplate.CommandLine

structure Report where
  exitCode : Nat
  /-- What goes to the standard output. -/
  out : String
  /-- What goes to the standard error. -/
  err : String
  deriving DecidableEq, Repr

/-- The lines as one text, each ended by a newline. -/
def unlines (lines : List String) : String := String.join (lines.map (· ++ "\n"))

/-- A result under its key as a document. -/
def resultDocument (key : String) (r : Resolution) : Document :=
  .table [
    ("key", .text key),
    ("original_content", .text r.content),
    ("parsed_content", (r.resolved.map Document.text).getD .null),
    ("succeeded", .boolean r.succeeded),
    ("error_messages", .list (r.messages.map .text)),
    ("resolved_count", .number (toString r.count))]

namespace Report

def success (lines : List String) : Report := ⟨0, unlines lines, ""⟩

def jsonText (o : ResolveOutcome) : String :=
  (Document.list (o.results.map fun (key, result) => resultDocument key result)).json 0

/-- The text that a key was resolved to, as lines to write. -/
def resolvedLine (o : ResolveOutcome) (key : String) : List String :=
  ((o.get? key).bind (·.resolved)).toList

def ofOutcome (json : Bool) (o : ResolveOutcome) : Report :=
  let exitCode := if o.succeeded then 0 else 1
  if json then ⟨exitCode, unlines [jsonText o], ""⟩
  else if o.succeeded then
    ⟨exitCode, unlines (resolvedLine o ResolveRequest.commandKey),
      unlines (resolvedLine o ResolveRequest.shownKey)⟩
  else ⟨exitCode, "", unlines o.messages⟩

/-- Fills up a text with blanks to a number of characters. -/
def padded (width : Nat) (s : String) : String :=
  s ++ String.ofList (List.replicate (width - s.length) ' ')

/-- Two columns; the width of the first is measured in bytes. -/
def listing (entries : List CatalogEntry) : List String :=
  let width := (entries.map fun e => e.synopsis.utf8ByteSize).foldl max 0
  entries.map fun e => padded width e.synopsis ++ "  " ++ e.help

/-- The entries of a catalog that complete what was typed, or all of them. -/
def ofCatalog (typed : Option String) (c : Catalog) : Report :=
  success (listing (match typed with
    | some typed => c.autocomplete typed
    | none => c.entries))

def numbered (n : Nat) : List String → List String
  | [] => []
  | message :: messages => ("  " ++ toString n ++ ": " ++ message) :: numbered (n + 1) messages

/-- The chain of causes is shown to users who have asked for more than the message. -/
def ofError (verbose : Nat) (e : ProgramError) : Report :=
  let chain := if verbose = 0 then [] else ["", "Error chain:"] ++ numbered 0 e.chain
  ⟨e.exitCode, "", unlines (("Error: " ++ e.message) :: chain)⟩

end Report
end CommandTemplate.CommandLine
