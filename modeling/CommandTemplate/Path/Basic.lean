import CommandTemplate.Text.Lowercase
import CommandTemplate.Text.Utf8

/-!
# File paths

Paths are bytes with `/` between segments. Empty segments and `.` mean nothing, except for a `.`
at the start of a relative path; `..` is never folded. Two paths with the same components denote
the same file. Paths need not be UTF-8, so what is shown of one may say less than the path does.
-/
namespace CommandTemplate

abbrev Path := List UInt8

namespace Path

def ofText (s : String) : Path := Text.utf8 s.toList

/-- What is read of the path. -/
def text (p : Path) : String := String.ofList (Text.lossy p)

@[match_pattern] abbrev slash : UInt8 := 0x2F
@[match_pattern] abbrev dot : UInt8 := 0x2E

inductive Component where
  | root
  | here
  | up
  | name (s : Path)
  deriving DecidableEq, Repr

/-- What a path begins with. -/
inductive Start where
  | root
  | here
  | bare
  deriving DecidableEq, Repr

def Start.components : Start → List Component
  | .root => [.root]
  | .here => [.here]
  | .bare => []

/-- The texts between the separators; there is always at least one. -/
def segments : Path → List Path
  | [] => [[]]
  | b :: s =>
    if b = slash then [] :: segments s
    else
      match segments s with
      | [] => [[b]]
      | first :: rest => (b :: first) :: rest

def joinSegments (ss : List Path) : Path := [slash].intercalate ss

@[simp] theorem joinSegments_nil : joinSegments [] = [] := rfl

@[simp] theorem joinSegments_singleton (s : Path) : joinSegments [s] = s := by
  simp [joinSegments, List.intercalate]

@[simp] theorem joinSegments_cons_cons (s t : Path) (ss : List Path) :
    joinSegments (s :: t :: ss) = s ++ slash :: joinSegments (t :: ss) := by
  simp [joinSegments, List.intercalate]

theorem segments_ne_nil (s : Path) : segments s ≠ [] := by
  cases s with
  | nil => simp [segments]
  | cons b s =>
    rw [segments]
    split
    · simp
    · split <;> simp

theorem joinSegments_segments (s : Path) : joinSegments (segments s) = s := by
  induction s with
  | nil => rfl
  | cons b s ih =>
    obtain ⟨first, rest, h⟩ := List.exists_cons_of_ne_nil (segments_ne_nil s)
    rw [h] at ih
    rw [segments, h]
    split
    · subst b
      simpa using ih
    · cases rest <;> simp_all

/-- A segment that means nothing. -/
def isVoid (s : Path) : Bool := s == [] || s == [dot]

def component? (s : Path) : Option Component :=
  if isVoid s then none else if s = [dot, dot] then some .up else some (.name s)

/-- The start of a path and the segments that follow it. -/
def parts (p : Path) : Start × List Path :=
  match p with
  | slash :: s => (.root, segments s)
  | s =>
    match segments s with
    | [dot] :: rest => (.here, rest)
    | all => (.bare, all)

def components (p : Path) : List Component :=
  let (start, body) := parts p
  start.components ++ body.filterMap component?

/-- The path with these parts. -/
def ofParts : Start → List Path → Path
  | .root, body => slash :: joinSegments body
  | .here, [] => [dot]
  | .here, body => dot :: slash :: joinSegments body
  | .bare, body => joinSegments body

def isAbsolute (p : Path) : Bool := p.head? == some slash

/-- The path `p` seen from the folder `base`. -/
def join (base p : Path) : Path :=
  if isAbsolute p || base.isEmpty then p
  else if base.getLast? = some slash then base ++ p
  else base ++ slash :: p

/-- Leaves out the void segments at the end. -/
def trimBack (body : List Path) : List Path :=
  (body.reverse.dropWhile isVoid).reverse

/-- The path without its last component; `none` for a root or nothing at all. -/
def parent? (p : Path) : Option Path :=
  let (start, body) := parts p
  match body.reverse.dropWhile isVoid with
  | _ :: before => some (ofParts start (trimBack before.reverse))
  | [] => if start = .here then some [] else none

/-- The last component, if it is a name. -/
def fileName? (p : Path) : Option Path :=
  match (components p).getLast? with
  | some (.name s) => some s
  | _ => none

/-- What stands behind the last dot of a file name, unless nothing stands before it. -/
def extension? (name : Path) : Option Path :=
  let after := (name.reverse.takeWhile (· != dot)).reverse
  if after.length + 1 < name.length then some after else none

/-- Leaves out segments up to the `n`-th that is not void. -/
def dropNames : (n : Nat) → List Path → List Path
  | 0, body => body
  | _, [] => []
  | n + 1, s :: body => if isVoid s then dropNames (n + 1) body else dropNames n body

/-- The rest of `p` behind `base`, if the components of `p` begin with those of `base`. -/
def below? (p base : Path) : Option Path :=
  if (components base).isPrefixOf (components p) then
    let (start, body) := parts p
    if components base = [] then some (ofParts start (trimBack body))
    else
      let n := ((parts base).2.filterMap component?).length
      some (joinSegments (trimBack ((dropNames n body).dropWhile isVoid)))
  else none

/-! ## Showing a path -/

inductive Mode where
  | absolute
  | relative
  deriving DecidableEq, Repr

def Mode.name : Mode → String
  | .absolute => "absolute"
  | .relative => "relative"

/-- The mode that a text names, in whatever case. -/
def Mode.ofText? (s : String) : Option Mode :=
  [Mode.absolute, Mode.relative].find? fun m => m.name.toList == Text.lower s.toList

/-- The path that `p` is shown as from the folder `base`. It is relative to `base` only if it lies
inside, and a dot for `base` itself. -/
def rendered (p : Path) (mode : Mode) (base : Path) : Path :=
  let full := if isAbsolute p then p else join base p
  match mode with
  | .absolute => full
  | .relative =>
    match below? full base with
    | some [] => [dot]
    | some rest => rest
    | none => full

def display (p : Path) (mode : Mode) (base : Path) : List Char := Text.lossy (rendered p mode base)

end Path
end CommandTemplate
