import CommandTemplate.Text.Digit
import CommandTemplate.Text.Folding
import CommandTemplate.Token.Basic

/-!
# Finding tokens in a text

The pattern of a variable says which tokens are its own. Where several readings of a text are
possible, the first in this order is taken: with the mark `!` before without it, an optional
argument given before left out, a text argument as short as possible, digits as many as possible,
options in the order of their declaration.
-/
namespace CommandTemplate

/-- What an argument may be; options are compared up to case. -/
inductive Admission where
  | text
  | digits
  | oneOf (options : List (List Char))
  deriving DecidableEq, Repr

structure Slot where
  admits : Admission
  required : Bool
  deriving DecidableEq, Repr

structure TokenPattern where
  name : List Char
  slots : List Slot
  deriving DecidableEq, Repr

def Shape.admission : Shape → Admission
  | .text => .text
  | .integer => .digits
  | .choice options => .oneOf (options.map String.toList)

/-- The slot of a parameter of the variable `name`. -/
def Parameter.slot (name : String) (p : Parameter) : Except TemplateError Slot :=
  match p.shape with
  | .ok shape => .ok ⟨shape.admission, p.required⟩
  | .error fault => .error (.invalidParameter name p.name fault)

/-- The pattern of a schema, or the first fault in it. -/
def TokenPattern.ofSchema (name : String) (parameters : List Parameter) :
    Except TemplateError TokenPattern :=
  (parameters.mapM (Parameter.slot name)).map fun slots => ⟨name.toList, slots⟩

/-! ## Matching -/

section
variable {α : Type} (ok : Char → Bool) (next : List Char → Option α)

/-- The shortest non-empty run of `ok` characters after which `next` succeeds. -/
def shortestRun : List Char → Option (List Char × α)
  | [] => none
  | c :: s =>
    if ok c then
      match next s with
      | some a => some ([c], a)
      | none => (shortestRun s).map fun (run, a) => (c :: run, a)
    else none

/-- The longest non-empty run of `ok` characters after which `next` succeeds. -/
def longestRun : List Char → Option (List Char × α)
  | [] => none
  | c :: s =>
    if ok c then
      match longestRun s with
      | some (run, a) => some (c :: run, a)
      | none => (next s).map fun a => ([c], a)
    else none

/-- The first of the options that the text spells and after which `next` succeeds. -/
def firstOption (options : List (List Char)) (s : List Char) : Option (List Char × α) :=
  options.findSome? fun option =>
    match Text.stripFolded option s with
    | some (spelled, rest) => (next rest).map fun a => (spelled, a)
    | none => none
end

/-- The preferred argument at the start of the text after which `next` succeeds. -/
def Admission.match? {α : Type} (next : List Char → Option α) :
    Admission → List Char → Option (List Char × α)
  | .text => shortestRun (· != '\n') next
  | .digits => longestRun Text.isDecimalDigit next
  | .oneOf options => firstOption next options

/-- The arguments of a token from behind its name, and the text behind the token. -/
def matchSlots : List Slot → List Char → Option (List (Option (List Char)) × List Char)
  | [], s =>
    match s with
    | '}' :: '}' :: rest => some ([], rest)
    | _ => none
  | slot :: slots, s =>
    let given :=
      match s with
      | ':' :: t => slot.admits.match? (matchSlots slots) t
      | _ => none
    match given with
    | some (a, arguments, rest) => some (some a :: arguments, rest)
    | none =>
      if slot.required then none
      else (matchSlots slots s).map fun (arguments, rest) => (none :: arguments, rest)

namespace TokenPattern

/-- The rest of a token from its name on. -/
def matchBody (p : TokenPattern) (marked : Bool) (s : List Char) : Option Token :=
  match Text.stripFolded p.name s with
  | some (spelled, rest) =>
    (matchSlots p.slots rest).map fun (arguments, _) => ⟨marked, spelled, arguments⟩
  | none => none

/-- The token of this pattern that the text begins with. -/
def match? (p : TokenPattern) : List Char → Option Token
  | '{' :: '{' :: s =>
    let marked :=
      match s with
      | '!' :: t => p.matchBody true t
      | _ => none
    marked.or (p.matchBody false s)
  | _ => none

end TokenPattern

/-! ## Scanning -/

/-- A text is read as tokens and the characters between them. -/
inductive Piece where
  | char (c : Char)
  | token (t : Token)
  deriving DecidableEq, Repr

def Piece.text : Piece → List Char
  | .char c => [c]
  | .token t => t.text

@[simp] theorem Piece.text_char (c : Char) : (char c).text = [c] := rfl

@[simp] theorem Piece.text_token (t : Token) : (token t).text = t.text := rfl

/-- The pieces of a text whose first `skip` characters belong to a token already found. -/
def TokenPattern.scan (p : TokenPattern) : (skip : Nat) → List Char → List Piece
  | _, [] => []
  | skip + 1, _ :: s => p.scan skip s
  | 0, c :: s =>
    match p.match? (c :: s) with
    | some t => .token t :: p.scan (t.text.length - 1) s
    | none => .char c :: p.scan 0 s

/-- The pieces of a text, its tokens found from left to right and without overlap. -/
def TokenPattern.pieces (p : TokenPattern) (s : List Char) : List Piece := p.scan 0 s

/-- A token with the range of bytes it takes up in UTF-8. -/
structure Occurrence where
  start : Nat
  stop : Nat
  token : Token
  deriving DecidableEq, Repr

def utf8Length : List Char → Nat
  | [] => 0
  | c :: s => c.utf8Size + utf8Length s

/-- The tokens among pieces of which the first begins at byte `start`. -/
def occurrencesFrom (start : Nat) : List Piece → List Occurrence
  | [] => []
  | .char c :: ps => occurrencesFrom (start + c.utf8Size) ps
  | .token t :: ps =>
    let stop := start + utf8Length t.text
    ⟨start, stop, t⟩ :: occurrencesFrom stop ps

def TokenPattern.occurrences (p : TokenPattern) (s : List Char) : List Occurrence :=
  occurrencesFrom 0 (p.pieces s)

end CommandTemplate
