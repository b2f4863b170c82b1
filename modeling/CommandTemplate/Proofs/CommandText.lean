import CommandTemplate.Proofs.Words
import CommandTemplate.Shell.Basic

/-!
# Quoted values inside a command text

A command text has words, and characters that are special outside quotes. Wherever it is outside
quotes a value can be put in: the value becomes part of the word at hand, none of its characters is
special, and the text behind it is read as if the value stood there letter by letter.
-/
namespace CommandTemplate.Posix

inductive Lexeme where
  | word (cs : List Char)
  | special (c : Char)
  deriving DecidableEq, Repr

/-- The lexemes read so far, and the word in progress behind them. -/
structure Reading where
  lexemes : List Lexeme
  here : State
  deriving DecidableEq, Repr

namespace Reading

def start : Reading := ⟨[], .between⟩

/-- Reads one character; a special one ends the word in progress. -/
def step (r : Reading) (c : Char) : Reading :=
  match r.here.step c with
  | some s => ⟨r.lexemes, s⟩
  | none => ⟨r.lexemes ++ r.here.word.toList.map .word ++ [.special c], .between⟩

def read (r : Reading) (cs : List Char) : Reading := cs.foldl step r

/-- The word in progress with literal text behind it; it is there even where the text is empty. -/
def add (r : Reading) (text : List Char) : Reading :=
  ⟨r.lexemes, ⟨some (r.here.word.getD [] ++ text), r.here.mode⟩⟩

theorem read_append (r : Reading) (a b : List Char) : r.read (a ++ b) = (r.read a).read b :=
  List.foldl_append ..

/-- Without a special character nothing but the word in progress changes. -/
theorem read_of_state {s s' : State} {cs : List Char} (lexemes : List Lexeme)
    (h : s.read cs = some s') : read ⟨lexemes, s⟩ cs = ⟨lexemes, s'⟩ := by
  induction cs generalizing s with
  | nil => rw [Option.some.inj h, read, List.foldl_nil]
  | cons c cs ih =>
    rw [State.read_cons] at h
    obtain ⟨t, hstep, hread⟩ := Option.bind_eq_some_iff.1 h
    have hc : step ⟨lexemes, s⟩ c = ⟨lexemes, t⟩ := by rw [step, hstep]
    rw [read, List.foldl_cons, hc]
    exact ih hread

/-- An encoded value adds to the word in progress what it was made of, and no more. -/
theorem read_encode {r : Reading} (h : r.here.mode = .bare) (value : List Char) :
    r.read (encode value) = r.add value := by
  obtain ⟨lexemes, word, mode⟩ := r
  obtain rfl : mode = .bare := h
  exact read_of_state lexemes (State.read_encode word value)

end Reading

theorem isPlain_iff (c : Char) : isPlain c ↔ c.isAlphanum ∨ c ∈ ['_', '-', '.', '/'] := by
  simp [isPlain, or_assoc]

/-- Outside quotes a character is read for itself, or it begins a quotation, or it is special. -/
theorem State.step_bare_eq_none_iff (word : Option (List Char)) (c : Char) :
    State.step ⟨word, .bare⟩ c = none ↔ ¬c.isAlphanum ∧ c ∉ ['\'', '\\', '_', '-', '.', '/'] := by
  by_cases hquote : c = '\''
  · simp [State.step, hquote]
  by_cases hescape : c = '\\'
  · simp [State.step, hescape]
  have hplain : State.step ⟨word, .bare⟩ c = none ↔ ¬isPlain c := by
    simp [State.step, hquote, hescape]
  rw [hplain, isPlain_iff]
  simp [hquote, hescape]

/-- The escaped value is literal text, by itself and in the middle of any command text. -/
theorem escape_read_in_place {shell : Shell} (hshell : shell.quoting = .posix) (value : String) :
    (∀ word c, State.step ⟨word, .bare⟩ c = none ↔
      ¬c.isAlphanum ∧ c ∉ ['\'', '\\', '_', '-', '.', '/']) ∧
    (∀ word, State.read ⟨word, .bare⟩ (shell.escape value).toList =
      some ⟨some (word.getD [] ++ value.toList), .bare⟩) ∧
    ∀ (start : Reading) (before after : List Char), (start.read before).here.mode = .bare →
      start.read (before ++ (shell.escape value).toList ++ after) =
        ((start.read before).add value.toList).read after := by
  have hescape : (shell.escape value).toList = encode value.toList := by
    rw [Shell.escape, hshell, Quoting.encode, String.toList_ofList]
  rw [hescape]
  refine ⟨State.step_bare_eq_none_iff, fun word => State.read_encode word value.toList, ?_⟩
  intro start before after hbare
  rw [Reading.read_append, Reading.read_append, Reading.read_encode hbare]

/-- The quote in the value neither ends the word in front of it nor lets the `;` out. -/
theorem escape_read_in_place_assignment :
    Shell.zsh.quoting = .posix ∧
      (Reading.start.read "env a=".toList).here.mode = .bare ∧
      Reading.start.read ("env a=".toList ++ (Shell.zsh.escape "it's; b").toList ++ " &".toList) =
        ⟨[.word "env".toList, .special ' ', .word "a".toList, .special '=',
          .word "it's; b".toList, .special ' ', .special '&'], .between⟩ := by
  have hbare : (Reading.start.read "env a=".toList).here.mode = .bare := by decide
  refine ⟨rfl, hbare, ?_⟩
  rw [(escape_read_in_place rfl "it's; b").2.2 .start _ _ hbare]
  decide

end CommandTemplate.Posix
