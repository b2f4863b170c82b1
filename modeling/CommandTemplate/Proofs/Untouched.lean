import CommandTemplate.Proofs.Quoting
import CommandTemplate.Proofs.Splicing

/-!
# Texts that a variable finds nothing in

The turn of a variable that finds no token of its own leaves a text as it is, whatever the variable
is. A text without two opening braces in a row is such a text for all variables, and so, for those
of other names, is the token of a name that has no braces.
-/
namespace CommandTemplate

/-! ## Leaving a text alone -/

theorem eq_map_char_of_occurrencesFrom {start : Nat} {ps : List Piece}
    (h : occurrencesFrom start ps = []) : ps = (ps.flatMap Piece.text).map .char := by
  induction ps generalizing start with
  | nil => rfl
  | cons piece ps ih =>
    cases piece with
    | char c => exact congrArg (.char c :: ·) (ih h)
    | token t => cases h

namespace Variable

variable {escaper : Option Escaper} {v : Variable} {s : List Char}

theorem pieces_of_found_eq_nil {p : TokenPattern} (hp : v.pattern = .ok p) (h : v.found s = []) :
    p.pieces s = s.map .char := by
  rw [found, hp] at h
  have hpieces := eq_map_char_of_occurrencesFrom h
  rwa [p.flatMap_text_pieces] at hpieces

theorem found_of_pieces {p : TokenPattern} (hp : v.pattern = .ok p)
    (h : p.pieces s = s.map .char) : v.found s = [] := by
  have hchars := occurrencesFrom_chars_append 0 s []
  rw [List.append_nil] at hchars
  rw [found, hp]
  dsimp only
  rw [TokenPattern.occurrences, h, hchars]
  rfl

/-- No variable finds a token in a text without two opening braces. -/
theorem found_of_unopened (v : Variable) (h : Unopened s) : v.found s = [] := by
  cases hp : v.pattern with
  | error e => rw [found, hp]
  | ok p => exact found_of_pieces hp (p.pieces_of_unopened h)

theorem turn_of_found_eq_nil (h : v.found s = []) : v.turn escaper s = .ok (s, 0) := by
  rw [turn, h]
  rfl

end Variable

/-- Variables that find nothing can be left out in front. -/
theorem turns_append_of_found_eq_nil {escaper : Option Escaper} {before : List Variable}
    {s : List Char} (h : ∀ v ∈ before, v.found s = []) (vs : List Variable) :
    turns escaper (before ++ vs) s = turns escaper vs s := by
  induction before with
  | nil => rfl
  | cons v before ih =>
    obtain ⟨hv, hbefore⟩ := List.forall_mem_cons.1 h
    rw [List.cons_append, turns, Variable.turn_of_found_eq_nil hv]
    dsimp only
    rw [ih hbefore]
    cases turns escaper vs s <;> simp

theorem turns_of_unopened (escaper : Option Escaper) (vs : List Variable) {s : List Char}
    (h : Unopened s) : turns escaper vs s = .ok (s, 0) := by
  have hturns : turns escaper (vs ++ []) s = turns escaper [] s :=
    turns_append_of_found_eq_nil (fun v _ => v.found_of_unopened h) []
  rwa [List.append_nil] at hturns

/-! ## Escaped values -/

theorem PowerShell.unopened_encode {value : List Char} (h : Unopened value) :
    Unopened (encode value) := by
  have hdoubled : ∀ c, doubled c = [c] ∨ doubled c ≠ [] ∧ '{' ∉ doubled c := by
    intro c
    rw [doubled]
    split
    · rename_i hquote
      refine .inr ⟨List.cons_ne_nil _ _, ?_⟩
      rintro hmem
      obtain rfl : '{' = c := by simpa using hmem
      exact absurd hquote (by decide)
    · exact .inl rfl
  rw [encode]
  split
  · exact h
  · have hclosed : Unopened (value.flatMap doubled ++ ['\'']) :=
      (h.flatMap hdoubled).append (by decide) (.inr (by decide))
    have hquoted : Unopened (['\''] ++ (value.flatMap doubled ++ ['\''])) :=
      Unopened.append (by decide) hclosed (.inl (by decide))
    exact hquoted

theorem Quoting.unopened_encode (q : Quoting) {value : List Char} (h : Unopened value) :
    Unopened (q.encode value) := by
  cases q with
  | posix => exact (Posix.shut_encode h).unopened
  | powerShell => exact PowerShell.unopened_encode h
  | verbatim => exact h

/-- The escaper, if there is one, brings no braces together. -/
def JoinsNoBraces (escaper : Option Escaper) : Prop :=
  ∀ encode ∈ escaper, ∀ s, Unopened s → Unopened (encode s)

theorem Shell.joinsNoBraces_escaperOf (shell : Shell) (exempt : List String) (key : String) :
    JoinsNoBraces (shell.escaperOf exempt key) := by
  intro encode hencode s hs
  rw [escaperOf] at hencode
  split at hencode
  · cases hencode
  · obtain rfl := Option.some.inj hencode
    exact shell.quoting.unopened_encode hs

/-! ## Instances -/

theorem Instance.substitute_chars (escaper : Option Escaper) (v : Instance) (s : List Char) :
    v.substitute escaper (s.map .char) = (v, .ok (s, 0)) := by
  induction s with
  | nil => rfl
  | cons c s ih => rw [List.map_cons, substitute, ih]

/-- A text in which nothing is found is left as it is, and so are the instances. -/
theorem resolveText_of_found_eq_nil (escaper : Option Escaper) {vs : List Instance} {s : List Char}
    (hvs : ∀ v ∈ vs, WellFormed v.base.parameters) (h : ∀ v ∈ vs, v.base.found s = []) :
    resolveText escaper vs s = .ok (vs, .ok (s, 0)) := by
  induction vs with
  | nil => rfl
  | cons v vs ih =>
    obtain ⟨hv, hvs⟩ := List.forall_mem_cons.1 hvs
    obtain ⟨hfound, h⟩ := List.forall_mem_cons.1 h
    obtain ⟨p, hp⟩ := v.base.exists_pattern_iff.2 hv
    have hsub : v.substitute escaper (p.pieces s) = (v, .ok (s, 0)) := by
      rw [Variable.pieces_of_found_eq_nil hp hfound, Instance.substitute_chars]
    rw [resolveText_cons_of_ok hp hsub, ih hvs h]
    rfl

/-- Nor do the instances change; whether values depend on what they hold does not matter. -/
theorem resolveContent_of_found_eq_nil (escaper : Option Escaper) {vs : List Instance}
    {content : String} (hvs : ∀ v ∈ vs, WellFormed v.base.parameters)
    (h : ∀ v ∈ vs, v.base.found content.toList = []) :
    resolveContent escaper vs content = .ok (vs, .success content content 0) := by
  rw [resolveContent, resolveText_of_found_eq_nil escaper hvs h]
  simp

/-! ## Tokens of others -/

theorem toList_tokenOf (name : String) :
    (tokenOf name).toList = Token.text ⟨false, name.toList, []⟩ := by
  simp [tokenOf, Token.text]

namespace TokenPattern

variable {p : TokenPattern} {name : List Char}

theorem derives_of_match?_bare (hhead : name.head? ≠ some '!') {t : Token}
    (h : p.match? (Token.text ⟨false, name, []⟩) = some t) :
    p.Derives t ∧ ∃ rest, name ++ ['}', '}'] = t.name ++ (Token.tailText t.arguments ++ rest) := by
  obtain ⟨hderives, rest, htext⟩ := match?_eq_some h
  refine ⟨hderives, rest, ?_⟩
  have hinside : name ++ ['}', '}'] =
      Token.markText t.marked ++ (t.name ++ (Token.tailText t.arguments ++ rest)) := by
    simpa [Token.text] using htext
  cases hmarked : t.marked with
  | false => simpa [hmarked] using hinside
  | true =>
    have hbang := head_ne_bang hhead [] []
    rw [List.append_nil] at hbang
    exact absurd (by simp [hinside, hmarked]) hbang

/-- The token of a name without braces is a token of this name only. -/
theorem match?_bare_eq_none (hname : Braceless name) (hhead : name.head? ≠ some '!')
    (hslots : p.slots = []) (hne : ¬Text.sameFolded p.name name) :
    p.match? (Token.text ⟨false, name, []⟩) = none := by
  by_contra hsome
  obtain ⟨t, ht⟩ := Option.ne_none_iff_exists'.1 hsome
  obtain ⟨hderives, rest, hinside⟩ := derives_of_match?_bare hhead ht
  have harguments : t.arguments = [] := by
    have hfills := hderives.arguments
    rw [hslots] at hfills
    exact hfills.eq_nil
  rw [harguments] at hinside
  have hsame : t.name = name := by
    rcases List.append_eq_append_iff.1 hinside with ⟨more, hmore, hclose⟩ | ⟨more, hmore, hclose⟩
    · have hlength := congrArg List.length hclose
      simp at hlength
      have hnil : more = [] := List.length_eq_zero_iff.1 (by omega)
      rw [hmore, hnil, List.append_nil]
    · cases more with
      | nil => rw [hmore, List.append_nil]
      | cons d more =>
        obtain ⟨rfl, -⟩ := List.cons.inj hclose
        exact absurd (hmore ▸ List.mem_append_right _ (List.mem_cons_self ..)) hname.2
  exact hne (hsame ▸ hderives.name)

/-- Of this name it is one in every spelling, with the mark and without. -/
theorem pieces_own {word : List Char} (hmark : word.head? ≠ some '!')
    (hname : Text.sameFolded word name) (marked : Bool) :
    pieces ⟨word, []⟩ (Token.text ⟨marked, name, []⟩) = [.token ⟨marked, name, []⟩] := by
  have hmatch : match? ⟨word, []⟩ (Token.text ⟨marked, name, []⟩ ++ []) =
      some ⟨marked, name, []⟩ :=
    match?_written hname hmark (.omitted (by simp)) []
  have hpieces := pieces_token_append hmatch
  rwa [List.append_nil] at hpieces

/-- Nor is it a token of a name that begins otherwise, whatever arguments that has. -/
theorem match?_bare_eq_none_of_head (hhead : name.head? ≠ some '!') {c d : Char}
    (hc : c ∈ p.name.head?) (hd : d ∈ name.head?) (hne : Text.fold c ≠ Text.fold d) :
    p.match? (Token.text ⟨false, name, []⟩) = none := by
  by_contra hsome
  obtain ⟨t, ht⟩ := Option.ne_none_iff_exists'.1 hsome
  obtain ⟨hderives, rest, hinside⟩ := derives_of_match?_bare hhead ht
  have hfolded : p.name.map Text.fold = t.name.map Text.fold := by
    simpa [Text.sameFolded] using hderives.name
  have hfirst := congrArg List.head? hfolded
  rw [List.head?_map, List.head?_map, Option.mem_def.1 hc] at hfirst
  have hhere := congrArg List.head? hinside
  rw [List.head?_append, Option.mem_def.1 hd, List.head?_append] at hhere
  cases hname : t.name.head? with
  | none => simp [hname] at hfirst
  | some e =>
    rw [hname] at hfirst hhere
    obtain rfl : d = e := by simpa using hhere
    exact hne (by simpa using hfirst)

end TokenPattern

/-- What does not begin at the braces of a token begins nowhere in it. -/
theorem Variable.found_token_of_match? {v : Variable} {p : TokenPattern} (hp : v.pattern = .ok p)
    {name : List Char} (hname : Braceless name)
    (h : p.match? (Token.text ⟨false, name, []⟩) = none) :
    v.found (Token.text ⟨false, name, []⟩) = [] := by
  have htail : '{' ∉ Token.tailText [] := by decide
  have hpieces : p.pieces (Token.text ⟨false, name, []⟩ ++ []) =
      (Token.text ⟨false, name, []⟩).map .char ++ p.pieces [] :=
    TokenPattern.pieces_of_match?_eq_none (by rwa [List.append_nil]) hname.1 htail
  refine found_of_pieces hp ?_
  simpa [TokenPattern.pieces, TokenPattern.scan] using hpieces

end CommandTemplate
