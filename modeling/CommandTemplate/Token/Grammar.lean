import CommandTemplate.Token.Pattern

/-!
# The grammar of tokens

Which tokens belong to a pattern, said without any order of search. Main statements: what a pattern
finds at the start of a text is a token of it, and the pieces of a text make up the text.
-/
namespace CommandTemplate

/-- The texts that are arguments of this kind. -/
def Admission.Admits : Admission → List Char → Prop
  | .text, a => a ≠ [] ∧ ∀ c ∈ a, c ≠ '\n'
  | .digits, a => a ≠ [] ∧ ∀ c ∈ a, Text.isDecimalDigit c
  | .oneOf options, a => ∃ option ∈ options, Text.sameFolded option a

/-- Arguments in the places of slots; only optional ones are left out. -/
inductive Fills : List Slot → List (Option (List Char)) → Prop where
  | nil : Fills [] []
  | given {slot slots a arguments} :
    slot.admits.Admits a → Fills slots arguments → Fills (slot :: slots) (some a :: arguments)
  | omitted {slot slots arguments} :
    slot.required = false → Fills slots arguments → Fills (slot :: slots) (none :: arguments)

/-- The token is one of the pattern, marked or not. -/
structure TokenPattern.Derives (p : TokenPattern) (t : Token) : Prop where
  name : Text.sameFolded p.name t.name
  arguments : Fills p.slots t.arguments

theorem Text.stripFolded_eq_some {word s spelled rest : List Char}
    (h : stripFolded word s = some (spelled, rest)) :
    s = spelled ++ rest ∧ sameFolded word spelled := by
  induction word generalizing s spelled with
  | nil =>
    simp only [stripFolded, Option.some.injEq, Prod.mk.injEq] at h
    obtain ⟨rfl, rfl⟩ := h
    exact ⟨rfl, by simp [sameFolded]⟩
  | cons w word ih =>
    cases s with
    | nil => simp [stripFolded] at h
    | cons c s =>
      rw [stripFolded] at h
      split at h
      · rename_i hf
        obtain ⟨⟨spelled', rest'⟩, hs, he⟩ := Option.map_eq_some_iff.1 h
        simp only [Prod.mk.injEq] at he
        obtain ⟨rfl, rfl⟩ := he
        obtain ⟨rfl, hw⟩ := ih hs
        exact ⟨rfl, by simpa [sameFolded, hf] using hw⟩
      · simp at h

section
variable {α : Type} {ok : Char → Bool} {next : List Char → Option α}

theorem shortestRun_eq_some {s run : List Char} {a : α}
    (h : shortestRun ok next s = some (run, a)) :
    ∃ rest, s = run ++ rest ∧ run ≠ [] ∧ (∀ c ∈ run, ok c) ∧ next rest = some a := by
  induction s generalizing run with
  | nil => simp [shortestRun] at h
  | cons c s ih =>
    rw [shortestRun] at h
    split at h
    · rename_i hc
      split at h
      · rename_i b hb
        simp only [Option.some.injEq, Prod.mk.injEq] at h
        obtain ⟨rfl, rfl⟩ := h
        exact ⟨s, rfl, by simp, by simpa using hc, hb⟩
      · obtain ⟨⟨run', a'⟩, hs, he⟩ := Option.map_eq_some_iff.1 h
        simp only [Prod.mk.injEq] at he
        obtain ⟨rfl, rfl⟩ := he
        obtain ⟨rest, rfl, -, hok, hn⟩ := ih hs
        exact ⟨rest, rfl, by simp, by simpa using ⟨hc, hok⟩, hn⟩
    · simp at h

theorem longestRun_eq_some {s run : List Char} {a : α}
    (h : longestRun ok next s = some (run, a)) :
    ∃ rest, s = run ++ rest ∧ run ≠ [] ∧ (∀ c ∈ run, ok c) ∧ next rest = some a := by
  induction s generalizing run with
  | nil => simp [longestRun] at h
  | cons c s ih =>
    rw [longestRun] at h
    split at h
    · rename_i hc
      split at h
      · rename_i run' b hs
        simp only [Option.some.injEq, Prod.mk.injEq] at h
        obtain ⟨rfl, rfl⟩ := h
        obtain ⟨rest, rfl, -, hok, hn⟩ := ih hs
        exact ⟨rest, rfl, by simp, by simpa using ⟨hc, hok⟩, hn⟩
      · obtain ⟨b, hb, he⟩ := Option.map_eq_some_iff.1 h
        simp only [Prod.mk.injEq] at he
        obtain ⟨rfl, rfl⟩ := he
        exact ⟨s, rfl, by simp, by simpa using hc, hb⟩
    · simp at h

theorem firstOption_eq_some {options : List (List Char)} {s spelled : List Char} {a : α}
    (h : firstOption next options s = some (spelled, a)) :
    ∃ rest, s = spelled ++ rest ∧ (∃ option ∈ options, Text.sameFolded option spelled) ∧
      next rest = some a := by
  obtain ⟨option, hmem, h⟩ := List.exists_of_findSome?_eq_some h
  split at h
  · rename_i spelled' rest hs
    obtain ⟨b, hb, he⟩ := Option.map_eq_some_iff.1 h
    simp only [Prod.mk.injEq] at he
    obtain ⟨rfl, rfl⟩ := he
    obtain ⟨rfl, hf⟩ := Text.stripFolded_eq_some hs
    exact ⟨rest, rfl, ⟨option, hmem, hf⟩, hb⟩
  · simp at h

theorem Admission.match?_eq_some {admission : Admission} {s argument : List Char} {a : α}
    (h : admission.match? next s = some (argument, a)) :
    ∃ rest, s = argument ++ rest ∧ admission.Admits argument ∧ next rest = some a := by
  cases admission with
  | text =>
    obtain ⟨rest, hs, hne, hok, hn⟩ := shortestRun_eq_some h
    exact ⟨rest, hs, ⟨hne, fun c hc => by simpa using hok c hc⟩, hn⟩
  | digits =>
    obtain ⟨rest, hs, hne, hok, hn⟩ := longestRun_eq_some h
    exact ⟨rest, hs, ⟨hne, hok⟩, hn⟩
  | oneOf options => exact firstOption_eq_some h
end

theorem matchSlots_nil_eq_some {s rest : List Char} {arguments : List (Option (List Char))}
    (h : matchSlots [] s = some (arguments, rest)) :
    arguments = [] ∧ s = Token.tailText [] ++ rest := by
  rw [matchSlots.eq_def] at h
  dsimp only at h
  split at h
  · obtain ⟨rfl, rfl⟩ := Prod.mk.inj (Option.some.inj h)
    exact ⟨rfl, rfl⟩
  · cases h

/-- An argument is given behind a colon, or it is left out where it may be. -/
theorem matchSlots_cons_eq_some {slot : Slot} {slots : List Slot} {s rest : List Char}
    {arguments : List (Option (List Char))}
    (h : matchSlots (slot :: slots) s = some (arguments, rest)) :
    (∃ a arguments' t, arguments = some a :: arguments' ∧ s = ':' :: t ∧
      slot.admits.match? (matchSlots slots) t = some (a, arguments', rest)) ∨
    (∃ arguments', arguments = none :: arguments' ∧ slot.required = false ∧
      matchSlots slots s = some (arguments', rest)) := by
  rw [matchSlots.eq_def] at h
  dsimp only at h
  split at h
  · rename_i a arguments' rest' hgiven
    obtain ⟨rfl, rfl⟩ := Prod.mk.inj (Option.some.inj h)
    split at hgiven
    · rename_i t
      exact .inl ⟨a, arguments', t, rfl, rfl, hgiven⟩
    · cases hgiven
  · split at h
    · cases h
    · rename_i hrequired
      obtain ⟨⟨arguments', rest'⟩, hrest, he⟩ := Option.map_eq_some_iff.1 h
      obtain ⟨rfl, rfl⟩ := Prod.mk.inj he
      exact .inr ⟨arguments', rfl, by simpa using hrequired, hrest⟩

theorem matchSlots_eq_some {slots : List Slot} {s rest : List Char}
    {arguments : List (Option (List Char))} (h : matchSlots slots s = some (arguments, rest)) :
    s = Token.tailText arguments ++ rest ∧ Fills slots arguments := by
  induction slots generalizing s arguments rest with
  | nil =>
    obtain ⟨rfl, rfl⟩ := matchSlots_nil_eq_some h
    exact ⟨rfl, .nil⟩
  | cons slot slots ih =>
    rcases matchSlots_cons_eq_some h with
      ⟨a, arguments, t, rfl, rfl, hgiven⟩ | ⟨arguments, rfl, hrequired, hrest⟩
    · obtain ⟨rest', rfl, hadmits, hrest⟩ := Admission.match?_eq_some hgiven
      obtain ⟨rfl, hfills⟩ := ih hrest
      exact ⟨by simp, .given hadmits hfills⟩
    · obtain ⟨rfl, hfills⟩ := ih hrest
      exact ⟨by simp, .omitted hrequired hfills⟩

namespace TokenPattern

theorem matchBody_eq_some {p : TokenPattern} {marked : Bool} {s : List Char} {t : Token}
    (h : p.matchBody marked s = some t) :
    Text.sameFolded p.name t.name ∧ t.marked = marked ∧ ∃ rest,
      s = t.name ++ (Token.tailText t.arguments ++ rest) ∧
      matchSlots p.slots (Token.tailText t.arguments ++ rest) = some (t.arguments, rest) := by
  rw [matchBody] at h
  split at h
  · rename_i spelled rest hs
    obtain ⟨⟨arguments, rest'⟩, hn, rfl⟩ := Option.map_eq_some_iff.1 h
    obtain ⟨rfl, hf⟩ := Text.stripFolded_eq_some hs
    obtain ⟨rfl, -⟩ := matchSlots_eq_some hn
    exact ⟨hf, rfl, rest', rfl, hn⟩
  · simp at h

/-- What is found stands at the start of the text, and its arguments were read in front of the
rest. -/
theorem exists_matchSlots_of_match? {p : TokenPattern} {s : List Char} {t : Token}
    (h : p.match? s = some t) :
    Text.sameFolded p.name t.name ∧ ∃ rest, s = t.text ++ rest ∧
      matchSlots p.slots (Token.tailText t.arguments ++ rest) = some (t.arguments, rest) := by
  rw [match?.eq_def] at h
  split at h
  · rename_i s
    dsimp only at h
    rcases Option.or_eq_some_iff.1 h with h | ⟨-, h⟩
    · split at h
      · obtain ⟨hf, hm, rest, rfl, hslots⟩ := matchBody_eq_some h
        exact ⟨hf, rest, (Token.text_append_of_marked hm rest).symm, hslots⟩
      · simp at h
    · obtain ⟨hf, hm, rest, rfl, hslots⟩ := matchBody_eq_some h
      exact ⟨hf, rest, (Token.text_append_of_unmarked hm rest).symm, hslots⟩
  · simp at h

/-- What is found is a token of the pattern, and it stands at the start of the text. -/
theorem match?_eq_some {p : TokenPattern} {s : List Char} {t : Token} (h : p.match? s = some t) :
    p.Derives t ∧ ∃ rest, s = t.text ++ rest := by
  obtain ⟨hf, rest, hs, hslots⟩ := exists_matchSlots_of_match? h
  exact ⟨⟨hf, (matchSlots_eq_some hslots).2⟩, rest, hs⟩

theorem flatMap_text_scan (p : TokenPattern) (skip : Nat) (s : List Char) :
    (p.scan skip s).flatMap Piece.text = s.drop skip := by
  induction s generalizing skip with
  | nil => simp [scan]
  | cons c s ih =>
    cases skip with
    | succ skip => simpa [scan] using ih skip
    | zero =>
      rw [scan]
      split
      · rename_i t ht
        obtain ⟨-, rest, hs⟩ := match?_eq_some ht
        have hlen : 1 ≤ t.text.length := by simp [Token.text]
        have hdrop : s.drop (t.text.length - 1) = rest := by
          have := congrArg (List.drop t.text.length) hs
          rw [show t.text.length = (t.text.length - 1) + 1 by omega, List.drop_succ_cons] at this
          rw [this, show t.text.length - 1 + 1 = t.text.length by omega]
          simp
        simp [List.flatMap_cons, ih, hdrop, hs]
      · simp [List.flatMap_cons, ih]

/-- Nothing of a text is lost or added when it is read as pieces. -/
theorem flatMap_text_pieces (p : TokenPattern) (s : List Char) :
    (p.pieces s).flatMap Piece.text = s := p.flatMap_text_scan 0 s

end TokenPattern
end CommandTemplate
