/-!
# POSIX words

How a value is written as one word of POSIX command text, and how such text is read: outside quotes
only the characters that never need quoting stand for themselves.
-/
namespace CommandTemplate.Posix

/-- Characters that stand for themselves outside quotes. -/
def isPlain (c : Char) : Bool := c.isAlphanum || c == '_' || c == '-' || c == '.' || c == '/'

/-- A quote cannot stand inside quotes: it closes them, is escaped, and opens them again. -/
def quotedChar (c : Char) : List Char := if c = '\'' then ['\'', '\\', '\'', '\''] else [c]

/-- A word that reads back as `s`. -/
def encode (s : List Char) : List Char :=
  if !s.isEmpty && s.all isPlain then s else '\'' :: (s.flatMap quotedChar ++ ['\''])

@[simp] theorem encode_nil : encode [] = ['\'', '\''] := rfl

/-! ## Reading -/

inductive Mode where
  | bare
  | quoted
  | escaped
  deriving DecidableEq, Repr

/-- A word in progress; `none` while nothing of it has been read, not even two quotes. -/
structure State where
  word : Option (List Char)
  mode : Mode
  deriving DecidableEq, Repr

def State.between : State := ⟨none, .bare⟩

def State.append (s : State) (c : Char) : State := ⟨some (s.word.getD [] ++ [c]), s.mode⟩

/-- Reads one character; `none` at a character that is special where it stands. -/
def State.step (s : State) (c : Char) : Option State :=
  match s.mode with
  | .bare =>
    if c = '\'' then some ⟨some (s.word.getD []), .quoted⟩
    else if c = '\\' then some ⟨some (s.word.getD []), .escaped⟩
    else if isPlain c then some (s.append c)
    else none
  | .quoted => some (if c = '\'' then ⟨s.word, .bare⟩ else s.append c)
  | .escaped => some ⟨(s.append c).word, .bare⟩

def State.read (s : State) (cs : List Char) : Option State := cs.foldlM State.step s

theorem State.read_append (s : State) (a b : List Char) :
    s.read (a ++ b) = (s.read a).bind (·.read b) := List.foldlM_append ..

/-- The words already finished, and the one in progress. -/
structure Line where
  words : List (List Char)
  here : State
  deriving DecidableEq, Repr

def Line.finished (l : Line) : List (List Char) := l.words ++ l.here.word.toList

/-- A space outside quotes ends a word; any other special character is refused. -/
def Line.step (l : Line) (c : Char) : Option Line :=
  match l.here.step c with
  | some s => some ⟨l.words, s⟩
  | none => if c = ' ' then some ⟨l.finished, .between⟩ else none

/-- The words of a command text, unless it has a special character or an open quote. -/
def splitWords (cs : List Char) : Option (List (List Char)) :=
  match cs.foldlM Line.step ⟨[], .between⟩ with
  | some l => if l.here.mode = .bare then some l.finished else none
  | none => none

end CommandTemplate.Posix
