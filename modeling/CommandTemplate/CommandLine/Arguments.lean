import CommandTemplate.CommandLine.Resolve
import CommandTemplate.CommandLine.Usage

/-!
# Arguments of the program

The arguments are read word by word. An option that was given last is pending until the next one is
taken: only then is it settled that it has a value, that the value is a proper one, and that the
option has not been given before.
-/
namespace CommandTemplate.CommandLine

inductive OptionKind where
  /-- Counts how often it is given. -/
  | count
  /-- Is given or not. -/
  | flag
  | text
  /-- Takes a path, which cannot be empty. -/
  | path
  /-- Takes `NAME=VALUE`, any number of times. -/
  | assignment
  | help
  | version
  deriving DecidableEq, Repr

def OptionKind.takesValue : OptionKind → Bool
  | text | path | assignment => true
  | _ => false

structure OptionSpec where
  long : String
  short : Option Char
  kind : OptionKind
  deriving DecidableEq, Repr

/-- What can stand behind the name of the program, or behind that of a subcommand. -/
structure Level where
  options : List OptionSpec
  /-- How many arguments stand for themselves. -/
  positionals : Nat
  subcommands : List String
  deriving DecidableEq, Repr

/-- What one level has been given. -/
structure Given where
  options : List (String × String)
  positionals : List String
  deriving DecidableEq, Repr

namespace Given

def has (g : Given) (long : String) : Bool := (g.options.lookup long).isSome

def value? (g : Given) (long : String) : Option String := g.options.lookup long

def values (g : Given) (long : String) : List String :=
  g.options.filterMap fun (name, value) => if name = long then some value else none

/-- How often an option is given, up to a byte's range. -/
def count (g : Given) (long : String) : Nat := min 255 (g.values long).length

/-- Takes an option with a value, or without one. -/
def accept (g : Given) (o : OptionSpec) (value : Option String) : Except UsageError Given :=
  let taken (value : String) : Given := { g with options := g.options ++ [(o.long, value)] }
  let once (value : String) : Except UsageError Given :=
    if g.has o.long then .error .argumentConflict else .ok (taken value)
  match o.kind, value with
  | .help, _ => .error .displayHelp
  | .version, _ => .error .displayVersion
  | .count, _ => .ok (taken "")
  | .flag, _ => once ""
  | _, none => .error .invalidValue
  | .text, some value => once value
  | .path, some value =>
    match once value with
    | .ok g => if value = "" then .error .invalidValue else .ok g
    | .error e => .error e
  | .assignment, some value =>
    if (CustomSet.parseAssignment value).isSome then .ok (taken value)
    else .error .valueValidation

end Given

/-- A word among the arguments, by its form. -/
inductive Word where
  /-- Two dashes, behind which all words are plain. -/
  | separator
  | long (name : String) (value : Option String)
  | short (letters : List Char)
  | plain
  deriving DecidableEq, Repr

def Word.ofString (word : String) : Word :=
  match word.toList with
  | ['-', '-'] => .separator
  | '-' :: '-' :: s =>
    let name := s.takeWhile (· != '=')
    match s.drop name.length with
    | [] => .long (String.ofList name) none
    | _ :: value => .long (String.ofList name) (some (String.ofList value))
  | '-' :: c :: s => .short (c :: s)
  | _ => .plain

/-- How far a level has been read. -/
structure Reader where
  given : Given
  pending : Option (OptionSpec × Option String)
  /-- The next word is the value of the pending option. -/
  awaiting : Bool
  /-- All further words are plain. -/
  trailing : Bool
  deriving DecidableEq, Repr

namespace Reader

def start : Reader := ⟨⟨[], []⟩, none, false, false⟩

/-- Settles the pending option. -/
def settle (r : Reader) : Except UsageError Reader :=
  match r.pending with
  | none => .ok r
  | some (o, value) => do return { r with given := ← r.given.accept o value, pending := none }

/-- Takes an option whose value is the next word. -/
def await (r : Reader) (o : OptionSpec) : Except UsageError Reader := do
  return { ← r.settle with pending := some (o, none), awaiting := true }

/-- Takes an option with what is given together with it. -/
def take (r : Reader) (o : OptionSpec) (value : Option String) : Except UsageError Reader := do
  let r ← r.settle
  return { r with given := ← r.given.accept o value, awaiting := false }

def takeLong (level : Level) (r : Reader) (name : String) (value : Option String) :
    Except UsageError Reader :=
  match level.options.find? (·.long == name) with
  | none => .error .unknownArgument
  | some o =>
    if o.kind.takesValue then
      if value.isSome then r.take o value else r.await o
    else if value.isSome then .error .tooManyValues
    else r.take o none

/-- Takes options by their letters. Behind one that takes a value, the rest of the word is the
value, with or without an equals sign. -/
def takeShorts (level : Level) (r : Reader) : List Char → Except UsageError Reader
  | [] => .ok r
  | c :: rest =>
    match level.options.find? (·.short == some c) with
    | none => .error .unknownArgument
    | some o =>
      if o.kind.takesValue then
        match rest with
        | [] => r.await o
        | '=' :: value => r.take o (some (String.ofList value))
        | value => r.take o (some (String.ofList value))
      else do takeShorts level (← r.take o none) rest

/-- Takes a word as the value of the pending option, or for itself. -/
def takePlain (level : Level) (r : Reader) (word : String) : Except UsageError Reader :=
  match r.pending, r.awaiting && !r.trailing with
  | some (o, _), true => .ok { r with pending := some (o, some word), awaiting := false }
  | _, _ =>
    if r.given.positionals.length < level.positionals then do
      let r ← r.settle
      return { r with
        given := { r.given with positionals := r.given.positionals ++ [word] }, awaiting := false }
    else if level.subcommands.isEmpty || (r.trailing && level.subcommands.contains word) then
      .error .unknownArgument
    else .error .invalidSubcommand

def takeWord (level : Level) (r : Reader) (word : String) : Except UsageError Reader :=
  if r.trailing then r.takePlain level word
  else
    match Word.ofString word with
    | .separator => .ok { r with trailing := true }
    | .long name value => r.takeLong level name value
    | .short letters => r.takeShorts level letters
    | .plain => r.takePlain level word

/-- The subcommand that a word names where it stands. -/
def namesSubcommand (level : Level) (r : Reader) (word : String) : Bool :=
  !r.trailing && !r.awaiting && level.subcommands.contains word

/-- Reads up to a subcommand, and hands back its name and the words behind it. -/
def read (level : Level) : Reader → List String →
    Except UsageError (Reader × Option (String × List String))
  | r, [] => .ok (r, none)
  | r, word :: words =>
    if r.namesSubcommand level word then .ok (r, some (word, words))
    else do read level (← r.takeWord level word) words

end Reader

namespace Level

def verbose : OptionSpec := ⟨"verbose", some 'v', .count⟩
def config : OptionSpec := ⟨"config", some 'c', .path⟩
def help : OptionSpec := ⟨"help", some 'h', .help⟩
def version : OptionSpec := ⟨"version", some 'V', .version⟩
def shell : OptionSpec := ⟨"shell", some 's', .text⟩

/-- The options that every level knows. -/
def global : List OptionSpec := [verbose, config, help]

def program : Level := ⟨version :: global, 0, ["resolve", "escape", "variables", "help"]⟩

def resolve : Level where
  options := global ++ [
    shell,
    ⟨"alias", none, .text⟩,
    ⟨"file", some 'f', .path⟩,
    ⟨"event", none, .text⟩,
    ⟨"clipboard", none, .text⟩,
    ⟨"set", none, .assignment⟩,
    ⟨"prompt", none, .flag⟩,
    ⟨"json", none, .flag⟩]
  positionals := 1
  subcommands := []

def escape : Level := ⟨global ++ [shell], 1, []⟩

def catalog : Level := ⟨global, 1, []⟩

/-- Reads all words at a level without subcommands. -/
def readAll (level : Level) (words : List String) : Except UsageError Given := do
  let (r, _) ← Reader.start.read level words
  return (← r.settle).given

end Level

inductive Command where
  | resolve (request : ResolveRequest) (json : Bool)
  | escape (value : String) (shell : Option String)
  | catalog (typed : Option String)
  deriving DecidableEq, Repr

structure Invocation where
  verbose : Nat
  settingsFile : Option Path
  command : Command
  deriving DecidableEq, Repr

namespace Invocation

def resolveCommand (g : Given) : Except UsageError Command :=
  match g.positionals with
  | [] => .error .missingRequiredArgument
  | command :: _ =>
    .ok (.resolve
      { command
        shown := g.value? "alias"
        shell := g.value? "shell"
        file := (g.value? "file").map Path.ofText
        event := g.value? "event"
        clipboard := g.value? "clipboard"
        assignments := (g.values "set").filterMap CustomSet.parseAssignment
        prompt := g.has "prompt" }
      (g.has "json"))

def escapeCommand (g : Given) : Except UsageError Command :=
  match g.positionals with
  | [] => .error .missingRequiredArgument
  | value :: _ => .ok (.escape value (g.value? "shell"))

/-- Asking for help on a subcommand, which must be one. -/
def helpOn : List String → UsageError
  | [] => .displayHelp
  | [name] => if Level.program.subcommands.contains name then .displayHelp else .invalidSubcommand
  | _ => .invalidSubcommand

/-- Reads the words behind the name of a subcommand. -/
def readSubcommand (name : String) (words : List String) : Except UsageError (Given × Command) :=
  match name with
  | "resolve" => do
    let g ← Level.resolve.readAll words
    return (g, ← resolveCommand g)
  | "escape" => do
    let g ← Level.escape.readAll words
    return (g, ← escapeCommand g)
  | "variables" => do
    let g ← Level.catalog.readAll words
    return (g, .catalog g.positionals.head?)
  | _ => .error (helpOn words)

/-- Reads the words behind the name of the program. An option that every level knows counts where
it is given last, at the level of the subcommand before that of the program. -/
def ofWords (words : List String) : Except UsageError Invocation := do
  let (r, subcommand) ← Reader.start.read Level.program words
  match subcommand with
  | some (name, words) =>
    let (inner, command) ← readSubcommand name words
    let outer := (← r.settle).given
    let verbose := if inner.has "verbose" then inner.count "verbose" else outer.count "verbose"
    let settingsFile := (inner.value? "config").or (outer.value? "config")
    return ⟨verbose, settingsFile.map Path.ofText, command⟩
  | none =>
    let outer := (← r.settle).given
    .error (if outer.options.isEmpty then .displayHelpOnMissingSubcommand else .missingSubcommand)

end Invocation
end CommandTemplate.CommandLine
