import CommandTemplate.Proofs.Occurrences

/-!
# Reading back a written token

A token whose arguments have no boundary in them is read as it was written, whatever follows it,
although the matcher could have preferred another reading. Every other variable passes over it.
-/
namespace CommandTemplate

def isBoundary (c : Char) : Bool := c == ':' || c == '}'

/-- No option goes on past a boundary. -/
def Admission.Closed : Admission → Prop
  | .oneOf options => ∀ option ∈ options, ∀ c ∈ option, isBoundary c = false
  | _ => True

/-- Arguments that can be written in the places of slots and read back: only the last ones are left
out, and only a text in the last place of all may have a colon. -/
inductive Written : List Slot → List (Option (List Char)) → Prop where
  | omitted {slots : List Slot} :
    (∀ slot ∈ slots, slot.required = false) → Written slots (List.replicate slots.length none)
  | given {slot slots a arguments} :
    slot.admits.Admits a → slot.admits.Closed → (∀ c ∈ a, isBoundary c = false) →
    Written slots arguments → Written (slot :: slots) (some a :: arguments)
  | last {required a} :
    Admission.text.Admits a → '}' ∉ a → Written [⟨.text, required⟩] [some a]

theorem mark_of_isBoundary {c : Char} (h : isBoundary c) : c ∈ Text.marks := by
  rw [isBoundary, Bool.or_eq_true, beq_iff_eq, beq_iff_eq] at h
  rcases h with rfl | rfl <;> decide

/-- No digit of any script is a mark. -/
theorem not_isDecimalDigit_mark : ∀ d ∈ Text.marks, Text.isDecimalDigit d = false := by
  apply Text.forall_marks <;> decide

def Shape.Avoids (kind : Char → Prop) : Shape → Prop
  | .choice options => ∀ option ∈ options, ∀ c ∈ option.toList, ¬kind c
  | _ => True

/-- Of a kind of marks an argument has no more than the options, unless it is a text. -/
theorem Shape.Avoids.argument {kind : Char → Prop} {shape : Shape} (h : shape.Avoids kind)
    (hmarks : ∀ c, kind c → c ∈ Text.marks) {a : List Char} (ha : shape.admission.Admits a)
    (htext : shape = .text → ∀ c ∈ a, ¬kind c) : ∀ c ∈ a, ¬kind c := by
  cases shape with
  | text => exact htext rfl
  | integer =>
    intro c hc hkind
    have hdigit := ha.2 c hc
    rw [not_isDecimalDigit_mark c (hmarks c hkind)] at hdigit
    cases hdigit
  | choice options =>
    obtain ⟨option, hoption, hf⟩ := ha
    obtain ⟨o, ho, rfl⟩ := List.mem_map.1 hoption
    intro c hc hkind
    exact h o ho c (Text.mark_mem_of_sameFolded (hmarks c hkind) (Text.sameFolded_symm hf) hc) hkind

/-- No option of a parameter has a character of this kind. -/
def OptionsAvoid (kind : Char → Prop) (parameters : List Parameter) : Prop :=
  ∀ p ∈ parameters, ∀ shape, p.shape = .ok shape → shape.Avoids kind

theorem Shape.Avoids.mono {kind kind' : Char → Prop} (hkind : ∀ c, kind' c → kind c)
    {shape : Shape} (h : shape.Avoids kind) : shape.Avoids kind' := by
  cases shape with
  | choice options => exact fun option ho c hc hk => h option ho c hc (hkind c hk)
  | _ => trivial

theorem OptionsAvoid.mono {kind kind' : Char → Prop} (hkind : ∀ c, kind' c → kind c)
    {parameters : List Parameter} (h : OptionsAvoid kind parameters) :
    OptionsAvoid kind' parameters :=
  fun p hp shape hshape => (h p hp shape hshape).mono hkind

/-- Where two texts are cut at their first character of a kind, the parts in front agree. -/
theorem eq_of_append_cons_eq (kind : Char → Prop) {s t : List Char} {c d : Char}
    {rest rest' : List Char} (h : s ++ c :: rest = t ++ d :: rest') (hs : ∀ x ∈ s, ¬kind x)
    (ht : ∀ x ∈ t, ¬kind x) (hc : kind c) (hd : kind d) : s = t ∧ rest = rest' := by
  induction s generalizing t with
  | nil =>
    cases t with
    | nil => simpa using (List.cons.inj h).2
    | cons x t =>
      have hx : c = x := (List.cons.inj h).1
      exact absurd (hx ▸ hc) (ht x (List.mem_cons_self ..))
  | cons x s ih =>
    cases t with
    | nil =>
      have hx : x = d := (List.cons.inj h).1
      exact absurd (hx ▸ hd) (hs x (List.mem_cons_self ..))
    | cons y t =>
      obtain ⟨rfl, htail⟩ := List.cons.inj h
      obtain ⟨rfl, hrest⟩ := ih htail (fun z hz => hs z (List.mem_cons_of_mem _ hz))
        (fun z hz => ht z (List.mem_cons_of_mem _ hz))
      exact ⟨rfl, hrest⟩

/-! ## Arguments -/

theorem matchSlots_nil_right (slots : List Slot) : matchSlots slots [] = none := by
  induction slots with
  | nil => rfl
  | cons slot slots ih =>
    rw [matchSlots.eq_def]
    simp [ih]

/-- The rest of a token begins with a colon or a closing brace. -/
theorem matchSlots_eq_none {c : Char} (hc : isBoundary c = false) (slots : List Slot)
    (s : List Char) : matchSlots slots (c :: s) = none := by
  simp only [isBoundary, Bool.or_eq_false_iff, beq_eq_false_iff_ne] at hc
  induction slots with
  | nil =>
    rw [matchSlots.eq_def]
    simp [hc.2]
  | cons slot slots ih =>
    rw [matchSlots.eq_def]
    simp [hc.1, ih]

theorem matchSlots_nil_eq_none {c : Char} (hc : c ≠ '}') (s : List Char) :
    matchSlots [] (c :: s) = none := by
  rw [matchSlots.eq_def]
  simp [hc]

theorem matchSlots_omitted {slots : List Slot} (h : ∀ slot ∈ slots, slot.required = false)
    (rest : List Char) :
    matchSlots slots ('}' :: '}' :: rest) = some (List.replicate slots.length none, rest) := by
  induction slots with
  | nil => rfl
  | cons slot slots ih =>
    obtain ⟨hslot, hslots⟩ := List.forall_mem_cons.1 h
    rw [matchSlots.eq_def]
    simp [hslot, ih hslots, List.replicate_succ]

section
variable {α : Type} {ok : Char → Bool} {next : List Char → Option α} {a : α}

/-- The run that is as short as possible ends where the rest can first be read. -/
theorem shortestRun_append {run rest : List Char} (hne : run ≠ []) (hok : ∀ c ∈ run, ok c)
    (hstop : ∀ c ∈ run, ∀ s, next (c :: s) = none) (hn : next rest = some a) :
    shortestRun ok next (run ++ rest) = some (run, a) := by
  induction run with
  | nil => exact absurd rfl hne
  | cons c run ih =>
    obtain ⟨hc, hrun⟩ := List.forall_mem_cons.1 hok
    obtain ⟨-, hstop⟩ := List.forall_mem_cons.1 hstop
    rw [List.cons_append, shortestRun, if_pos hc]
    cases run with
    | nil => simp [hn]
    | cons d run =>
      rw [ih (by simp) hrun hstop, List.cons_append, hstop d (List.mem_cons_self ..)]
      rfl

/-- The run that is as long as possible ends where no longer one lets the rest be read. -/
theorem longestRun_append {run rest : List Char} (hne : run ≠ []) (hok : ∀ c ∈ run, ok c)
    (hrest : longestRun ok next rest = none) (hn : next rest = some a) :
    longestRun ok next (run ++ rest) = some (run, a) := by
  induction run with
  | nil => exact absurd rfl hne
  | cons c run ih =>
    obtain ⟨hc, hrun⟩ := List.forall_mem_cons.1 hok
    rw [List.cons_append, longestRun, if_pos hc]
    cases run with
    | nil => simp [hrest, hn]
    | cons d run => rw [ih (by simp) hrun]

/-- An option that is another spelling than the one written ends before a character that ends
nothing, since it can neither stop early at a boundary nor go on past one. -/
theorem next_eq_none_of_stripFolded {option run rest spelled rest' : List Char} {c : Char}
    (hoption : ∀ c ∈ option, isBoundary c = false) (hrun : ∀ c ∈ run, isBoundary c = false)
    (hsame : ¬Text.sameFolded option run) (hc : isBoundary c)
    (hstop : ∀ c, isBoundary c = false → ∀ s, next (c :: s) = none) (hnil : next [] = none)
    (hstrip : Text.stripFolded option (run ++ c :: rest) = some (spelled, rest')) :
    next rest' = none := by
  obtain ⟨hs, hf⟩ := Text.stripFolded_eq_some hstrip
  have hspelled : ∀ d ∈ spelled, ¬isBoundary d = true := by
    intro d hd hb
    have hmem := Text.mark_mem_of_sameFolded (mark_of_isBoundary hb) (Text.sameFolded_symm hf) hd
    simp [hoption d hmem] at hb
  cases rest' with
  | nil => exact hnil
  | cons d rest' =>
    cases hd : isBoundary d with
    | false => exact hstop d hd rest'
    | true =>
      obtain ⟨rfl, -⟩ := eq_of_append_cons_eq (fun x => isBoundary x = true) hs
        (fun x hx => by simp [hrun x hx]) hspelled hc hd
      exact absurd hf hsame

/-- The first option that fits is as long as the one that was written, if no option goes on past a
boundary. -/
theorem firstOption_append {options : List (List Char)} {run rest : List Char} {c : Char}
    (hclosed : (Admission.oneOf options).Closed) (hrun : ∀ c ∈ run, isBoundary c = false)
    (hspelled : ∃ option ∈ options, Text.sameFolded option run) (hc : isBoundary c)
    (hstop : ∀ c, isBoundary c = false → ∀ s, next (c :: s) = none) (hnil : next [] = none)
    (hn : next (c :: rest) = some a) :
    firstOption next options (run ++ c :: rest) = some (run, a) := by
  induction options with
  | nil =>
    obtain ⟨option, hmem, -⟩ := hspelled
    simp at hmem
  | cons option options ih =>
    obtain ⟨hoption, hoptions⟩ := List.forall_mem_cons.1 hclosed
    by_cases hsame : Text.sameFolded option run
    · simp [firstOption, Text.stripFolded_append hsame, hn]
    · have htail : ∃ option ∈ options, Text.sameFolded option run := by
        obtain ⟨o, ho, hos⟩ := hspelled
        rcases List.mem_cons.1 ho with rfl | ho
        · exact absurd hos hsame
        · exact ⟨o, ho, hos⟩
      have hrest := ih hoptions htail
      rw [firstOption] at hrest ⊢
      cases hstrip : Text.stripFolded option (run ++ c :: rest) with
      | none => simpa [hstrip] using hrest
      | some r =>
        have hnone := next_eq_none_of_stripFolded hoption hrun hsame hc hstop hnil hstrip
        simpa [hstrip, hnone] using hrest
end

theorem tailText_eq_cons (arguments : List (Option (List Char))) :
    ∃ c s, Token.tailText arguments = c :: s ∧ isBoundary c := by
  induction arguments with
  | nil => exact ⟨'}', ['}'], rfl, by decide⟩
  | cons a arguments ih =>
    cases a with
    | none => exact ih
    | some a => exact ⟨':', a ++ Token.tailText arguments, by simp, by decide⟩

theorem tailText_replicate_none (n : Nat) :
    Token.tailText (List.replicate n none) = ['}', '}'] := by
  induction n with
  | zero => rfl
  | succ n ih => exact ih

/-- An argument without boundaries is read back when what follows it is. -/
theorem Admission.match?_append {admission : Admission} {slots : List Slot} {a rest : List Char}
    {arguments : List (Option (List Char))} (ha : admission.Admits a) (hclosed : admission.Closed)
    (hplain : ∀ c ∈ a, isBoundary c = false)
    (hn : matchSlots slots (Token.tailText arguments ++ rest) = some (arguments, rest)) :
    admission.match? (matchSlots slots) (a ++ (Token.tailText arguments ++ rest)) =
      some (a, arguments, rest) := by
  obtain ⟨c, s, htail, hc⟩ := tailText_eq_cons arguments
  rw [htail, List.cons_append] at hn ⊢
  cases admission with
  | text =>
    exact shortestRun_append ha.1 (by simpa using ha.2)
      (fun d hd s => matchSlots_eq_none (hplain d hd) slots s) hn
  | digits =>
    refine longestRun_append ha.1 ha.2 ?_ hn
    rw [longestRun, not_isDecimalDigit_mark c (mark_of_isBoundary hc)]
    rfl
  | oneOf options =>
    exact firstOption_append hclosed hplain ha hc
      (fun d hd s => matchSlots_eq_none hd slots s) (matchSlots_nil_right slots) hn

/-- Arguments are read as they were written. -/
theorem matchSlots_written {slots : List Slot} {arguments : List (Option (List Char))}
    (h : Written slots arguments) (rest : List Char) :
    matchSlots slots (Token.tailText arguments ++ rest) = some (arguments, rest) := by
  induction h with
  | omitted hslots =>
    rw [tailText_replicate_none]
    exact matchSlots_omitted hslots rest
  | @given slot slots a arguments ha hclosed hplain _ ih =>
    rw [Token.tailText_some, List.cons_append, List.append_assoc, matchSlots_colon,
      Admission.match?_append ha hclosed hplain ih]
  | @last required a ha hbrace =>
    have hrun : shortestRun (· != '\n') (matchSlots []) (a ++ (Token.tailText [] ++ rest)) =
        some (a, [], rest) :=
      shortestRun_append ha.1 (by simpa using ha.2)
        (fun c hc s => matchSlots_nil_eq_none (fun h => hbrace (h ▸ hc)) s) rfl
    rw [Token.tailText_some, List.cons_append, List.append_assoc, matchSlots_colon]
    simp only [Admission.match?]
    rw [hrun]

/-! ## Tokens of the variable itself -/

theorem head_ne_bang {name : List Char} (h : name.head? ≠ some '!')
    (arguments : List (Option (List Char))) (rest : List Char) :
    (name ++ (Token.tailText arguments ++ rest)).head? ≠ some '!' := by
  cases name with
  | cons c name => simpa using h
  | nil =>
    obtain ⟨c, s, htail, hc⟩ := tailText_eq_cons arguments
    rw [htail]
    rintro ⟨rfl⟩
    exact absurd hc (by decide)

namespace TokenPattern

/-- Only a text that goes on with `!` can have a marked token. -/
theorem match?_of_head_ne {p : TokenPattern} {s : List Char} (h : s.head? ≠ some '!') :
    p.match? ('{' :: '{' :: s) = p.matchBody false s := by
  cases s with
  | nil => rfl
  | cons c s =>
    have hc : c ≠ '!' := by simpa using h
    simp [match?, hc]

/-- A token whose arguments can be read back is found as it was written. -/
theorem match?_written {p : TokenPattern} {t : Token} (hname : Text.sameFolded p.name t.name)
    (hmark : p.name.head? ≠ some '!') (hwritten : Written p.slots t.arguments)
    (rest : List Char) : p.match? (t.text ++ rest) = some t := by
  have hbody : ∀ marked, p.matchBody marked (t.name ++ (Token.tailText t.arguments ++ rest)) =
      some ⟨marked, t.name, t.arguments⟩ := by
    intro marked
    rw [matchBody, Text.stripFolded_append hname]
    simp [matchSlots_written hwritten rest]
  cases hm : t.marked with
  | true =>
    rw [Token.text_append_of_marked hm, match?]
    simp [hbody, ← hm]
  | false =>
    have hhead := Text.head_ne_mark_of_sameFolded (by decide) hname hmark
    rw [Token.text_append_of_unmarked hm, match?_of_head_ne (head_ne_bang hhead _ _), hbody, ← hm]

/-! ## Tokens of other variables -/

/-- The name of the pattern is ended by a character of this kind and has none in it. -/
structure EndsName (p : TokenPattern) (kind : Char → Prop) : Prop where
  only : ∀ c s, ¬kind c → matchSlots p.slots (c :: s) = none
  marks : ∀ c, kind c → c ∈ Text.marks
  name : ∀ c ∈ p.name, ¬kind c

theorem endsName_boundary {p : TokenPattern} (h : ∀ c ∈ p.name, isBoundary c = false) :
    p.EndsName (isBoundary · = true) where
  only c s hc := matchSlots_eq_none (by simpa using hc) p.slots s
  marks _ hc := mark_of_isBoundary hc
  name c hc := by simp [h c hc]

/-- Without parameters the closing braces alone end the name. -/
theorem endsName_brace {name : List Char} (h : '}' ∉ name) :
    EndsName ⟨name, []⟩ (· = '}') where
  only c s hc := matchSlots_nil_eq_none hc s
  marks c hc := by
    subst hc
    decide
  name c hc := by
    rintro rfl
    exact h hc

variable {p : TokenPattern} {kind : Char → Prop}

/-- A name that is another one up to its end is not taken for the name of the pattern. -/
theorem matchBody_eq_none (hp : p.EndsName kind) {name : List Char} (hname : ∀ c ∈ name, ¬kind c)
    (hne : ¬Text.sameFolded p.name name) {d : Char} (hd : kind d) (marked : Bool) (s : List Char) :
    p.matchBody marked (name ++ d :: s) = none := by
  rw [matchBody]
  split
  · rename_i spelled rest hstrip
    obtain ⟨hs, hf⟩ := Text.stripFolded_eq_some hstrip
    have hspelled : ∀ c ∈ spelled, ¬kind c := fun c hc hk =>
      hp.name c (Text.mark_mem_of_sameFolded (hp.marks c hk) (Text.sameFolded_symm hf) hc) hk
    cases rest with
    | nil => simp [matchSlots_nil_right]
    | cons c rest =>
      by_cases hc : kind c
      · obtain ⟨rfl, -⟩ := eq_of_append_cons_eq kind hs hname hspelled hd hc
        exact absurd hf hne
      · simp [hp.only c rest hc]
  · rfl

/-- A token of another name is not taken, neither with its mark nor without it. -/
theorem match?_other (hp : p.EndsName kind) (hmark : p.name.head? ≠ some '!') (hbang : ¬kind '!')
    {t : Token} (hname : ∀ c ∈ t.name, ¬kind c) (htmark : t.name.head? ≠ some '!')
    (hne : ¬Text.sameFolded p.name t.name) {d : Char} {tail : List Char}
    (htail : Token.tailText t.arguments = d :: tail) (hd : kind d) (rest : List Char) :
    p.match? (t.text ++ rest) = none := by
  have hbody : ∀ marked,
      p.matchBody marked (t.name ++ (Token.tailText t.arguments ++ rest)) = none := by
    intro marked
    rw [htail]
    exact matchBody_eq_none hp hname hne hd marked _
  cases hm : t.marked with
  | true =>
    have hmarked : p.matchBody false ('!' :: (t.name ++ (Token.tailText t.arguments ++ rest))) =
        none := by
      rw [htail, List.cons_append, ← List.cons_append]
      refine matchBody_eq_none hp (List.forall_mem_cons.2 ⟨hbang, hname⟩) ?_ hd false _
      intro hsame
      exact Text.head_ne_mark_of_sameFolded (by decide) hsame hmark rfl
    rw [Token.text_append_of_marked hm, match?]
    simp [hbody, hmarked]
  | false =>
    rw [Token.text_append_of_unmarked hm, match?_of_head_ne (head_ne_bang htmark _ _), hbody]

/-! ## Text that no token begins in -/

theorem match?_of_ne_brace {c : Char} (h : c ≠ '{') (s : List Char) : p.match? (c :: s) = none := by
  rw [match?.eq_def]
  split
  · rename_i heq
    exact absurd (List.cons.inj heq).1 h
  · rfl

theorem match?_of_lone_brace {s : List Char} (h : s.head? ≠ some '{') :
    p.match? ('{' :: s) = none := by
  rw [match?.eq_def]
  split
  · rename_i heq
    obtain ⟨-, rfl⟩ := List.cons.inj heq
    simp at h
  · rfl

/-- No token begins in a text without opening braces. -/
theorem pieces_plain_append {s : List Char} (h : '{' ∉ s) (rest : List Char) :
    p.pieces (s ++ rest) = s.map .char ++ p.pieces rest := by
  induction s with
  | nil => rfl
  | cons c s ih =>
    rw [List.mem_cons, not_or] at h
    rw [List.cons_append, pieces_cons_of_eq_none (match?_of_ne_brace (Ne.symm h.1) _), ih h.2]
    rfl

end TokenPattern

/-- A token without its opening braces. -/
def Token.inside (t : Token) : List Char := markText t.marked ++ t.name ++ tailText t.arguments

theorem Token.text_eq (t : Token) : t.text = '{' :: '{' :: t.inside := rfl

theorem Token.inside_ne_nil (t : Token) : t.inside ≠ [] := by
  obtain ⟨c, s, htail, -⟩ := tailText_eq_cons t.arguments
  simp [inside, htail]

theorem Token.brace_not_mem_inside {t : Token} (hname : '{' ∉ t.name)
    (harguments : '{' ∉ tailText t.arguments) : '{' ∉ t.inside := by
  have hmark : '{' ∉ markText t.marked := by cases t.marked <;> decide
  simp [inside, hmark, hname, harguments]

/-- A token that is not taken is passed over as a whole, unless a brace stands in it. -/
theorem TokenPattern.pieces_of_match?_eq_none {p : TokenPattern} {t : Token} {rest : List Char}
    (hnone : p.match? (t.text ++ rest) = none) (hname : '{' ∉ t.name)
    (harguments : '{' ∉ Token.tailText t.arguments) :
    p.pieces (t.text ++ rest) = t.text.map .char ++ p.pieces rest := by
  have hinside := Token.brace_not_mem_inside hname harguments
  have hne := t.inside_ne_nil
  rw [Token.text_eq, List.cons_append, List.cons_append] at hnone ⊢
  generalize t.inside = inside at *
  have hlone : p.match? ('{' :: (inside ++ rest)) = none := by
    apply match?_of_lone_brace
    cases inside with
    | nil => exact absurd rfl hne
    | cons c inside =>
      rw [List.mem_cons, not_or] at hinside
      simpa using Ne.symm hinside.1
  rw [pieces_cons_of_eq_none hnone, pieces_cons_of_eq_none hlone, pieces_plain_append hinside]
  rfl

end CommandTemplate
