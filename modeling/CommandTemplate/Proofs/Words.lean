import CommandTemplate.Shell.Posix
import Mathlib.Data.List.Basic

/-!
# Words of a POSIX command text

A quoted value is read as part of the word it stands in, whatever characters it has, and spaces
between quoted values part the words.
-/
namespace CommandTemplate.Posix

namespace State

theorem read_cons (s : State) (c : Char) (cs : List Char) :
    s.read (c :: cs) = (s.step c).bind (·.read cs) := rfl

/-- Plain characters go into the word as they are. -/
theorem read_plain (word : Option (List Char)) {cs : List Char} (h : ∀ c ∈ cs, isPlain c)
    (hne : cs ≠ []) : read ⟨word, .bare⟩ cs = some ⟨some (word.getD [] ++ cs), .bare⟩ := by
  induction cs generalizing word with
  | nil => exact absurd rfl hne
  | cons c cs ih =>
    obtain ⟨hc, hcs⟩ := List.forall_mem_cons.1 h
    have hquote : c ≠ '\'' := by
      rintro rfl
      exact absurd hc (by decide)
    have hbackslash : c ≠ '\\' := by
      rintro rfl
      exact absurd hc (by decide)
    have hstep : step ⟨word, .bare⟩ c = some ⟨some (word.getD [] ++ [c]), .bare⟩ := by
      simp [step, hquote, hbackslash, hc, append]
    rw [read_cons, hstep, Option.bind_some]
    cases cs with
    | nil => rfl
    | cons d cs =>
      rw [ih _ hcs (List.cons_ne_nil _ _)]
      simp

/-- Inside quotes a quoted character adds itself to the word. -/
theorem read_quotedChar (word : List Char) (c : Char) :
    read ⟨some word, .quoted⟩ (quotedChar c) = some ⟨some (word ++ [c]), .quoted⟩ := by
  rw [quotedChar]
  split
  · rename_i hc
    subst hc
    rfl
  · rename_i hc
    simp [step, hc, append, read]

/-- Inside quotes every character is read for itself. -/
theorem read_flatMap_quotedChar (word cs : List Char) :
    read ⟨some word, .quoted⟩ (cs.flatMap quotedChar) = some ⟨some (word ++ cs), .quoted⟩ := by
  induction cs generalizing word with
  | nil => simp [read]
  | cons c cs ih =>
    rw [List.flatMap_cons, read_append, read_quotedChar, Option.bind_some, ih]
    simp

/-- A quoted value adds itself to the word at hand and leaves no quote open. -/
theorem read_encode (word : Option (List Char)) (value : List Char) :
    read ⟨word, .bare⟩ (encode value) = some ⟨some (word.getD [] ++ value), .bare⟩ := by
  rw [encode]
  split
  · rename_i h
    rw [Bool.and_eq_true, List.all_eq_true] at h
    exact read_plain word h.2 (by simpa using h.1)
  · have hopen : step ⟨word, .bare⟩ '\'' = some ⟨some (word.getD []), .quoted⟩ := rfl
    rw [read_cons, hopen, Option.bind_some, read_append, read_flatMap_quotedChar,
      Option.bind_some]
    rfl

end State

/-! ## Lines -/

/-- What is read as part of a word leaves the words before it alone. -/
theorem Line.foldlM_step {s s' : State} {cs : List Char} (words : List (List Char))
    (h : s.read cs = some s') : cs.foldlM Line.step ⟨words, s⟩ = some ⟨words, s'⟩ := by
  induction cs generalizing s with
  | nil =>
    rw [State.read, List.foldlM_nil] at h
    rw [List.foldlM_nil, Option.some.inj h]
    rfl
  | cons c cs ih =>
    rw [State.read_cons] at h
    obtain ⟨t, hstep, hread⟩ := Option.bind_eq_some_iff.1 h
    have hline : Line.step ⟨words, s⟩ c = some ⟨words, t⟩ := by rw [Line.step, hstep]
    rw [List.foldlM_cons, hline]
    exact ih hread

theorem Line.foldlM_encode (words : List (List Char)) (value : List Char) :
    (encode value).foldlM Line.step ⟨words, .between⟩ = some ⟨words, ⟨some value, .bare⟩⟩ :=
  Line.foldlM_step words (State.read_encode none value)

/-- Quoted values with spaces between them are read behind the words already finished. -/
theorem Line.foldlM_intercalate (words : List (List Char)) (value : List Char)
    (values : List (List Char)) :
    ([' '].intercalate ((value :: values).map encode)).foldlM Line.step ⟨words, .between⟩ =
      some ⟨words ++ (value :: values).dropLast,
        ⟨some ((value :: values).getLast (List.cons_ne_nil _ _)), .bare⟩⟩ := by
  induction values generalizing words value with
  | nil => simpa using Line.foldlM_encode words value
  | cons next values ih =>
    have hspace : Line.step ⟨words, ⟨some value, .bare⟩⟩ ' ' = some ⟨words ++ [value], .between⟩ :=
      rfl
    have hsplit : [' '].intercalate ((value :: next :: values).map encode) =
        encode value ++ ' ' :: [' '].intercalate ((next :: values).map encode) := by
      simp [List.intercalate]
    rw [hsplit, List.foldlM_append, Line.foldlM_encode]
    have hrest := ih (words ++ [value]) next
    simp only [Option.bind_eq_bind, Option.bind_some, List.foldlM_cons, hspace, hrest]
    simp

/-- Quoted values with spaces between them are the words of their line. -/
theorem splitWords_intercalate (values : List (List Char)) :
    splitWords ([' '].intercalate (values.map encode)) = some values := by
  cases values with
  | nil => rfl
  | cons value values =>
    rw [splitWords, Line.foldlM_intercalate]
    simp only [if_true, Line.finished, List.nil_append, Option.toList_some]
    exact congrArg some (List.dropLast_append_getLast (List.cons_ne_nil _ _))

end CommandTemplate.Posix
