import CommandTemplate.Proofs.CustomSets
import CommandTemplate.Time.Format
import Mathlib.Data.List.Basic

/-!
# The segments of a date format

A format is divided from the left: a run in brackets as a whole, else the longest token that it
begins with, else one character. This can be done in one way only, and it is the way in which the
format is read.
-/
namespace CommandTemplate

/-- The tokens of a format, and what they stand for. -/
inductive Spells : List Char → Segment → Prop where
  | field (f : DateField) : Spells f.spelling (.field f)
  | weekdayPair : Spells ['d', 'd'] .weekdayPair

structure LongestToken (s token : List Char) : Prop where
  front : token <+: s
  longest : ∀ other segment, Spells other segment → other <+: s → other.length ≤ token.length

/-- `Begins s piece segment`: the first segment of `s` takes up `piece`. -/
inductive Begins : List Char → List Char → Segment → Prop where
  | closed {run rest} : ']' ∉ run →
      Begins ('[' :: (run ++ ']' :: rest)) ('[' :: (run ++ [']'])) (.literal run)
  /-- Brackets left open reach to the end. -/
  | unclosed {run} : ']' ∉ run → Begins ('[' :: run) ('[' :: run) (.literal run)
  | token {s token segment} :
      Spells token segment → LongestToken s token → Begins s token segment
  | char {c s} : c ≠ '[' → (∀ token segment, Spells token segment → ¬token <+: c :: s) →
      Begins (c :: s) [c] (.literal [c])

/-- `Divides s pieces`: read from the left, `s` is these pieces with these segments. -/
inductive Divides : List Char → List (List Char × Segment) → Prop where
  | nil : Divides [] []
  | cons {piece segment rest pieces} : Begins (piece ++ rest) piece segment →
      Divides rest pieces → Divides (piece ++ rest) ((piece, segment) :: pieces)

/-! ## Tokens -/

theorem eq_of_spelling_eq {f g : DateField} (h : f.spelling = g.spelling) : f = g := by
  have hall : ∀ f ∈ DateField.all, ∀ g ∈ DateField.all, f.spelling = g.spelling → f = g := by
    decide +kernel
  exact hall f f.mem_all g g.mem_all h

theorem DateField.spelling_ne_pair (f : DateField) : f.spelling ≠ ['d', 'd'] := by
  cases f <;> decide

/-- A field whose spelling begins with two letters for days has a third. -/
theorem DateField.spelling_triple (f : DateField) (h : ['d', 'd'] <+: f.spelling) :
    ['d', 'd', 'd'] <+: f.spelling := by
  revert h
  cases f <;> decide

theorem DateField.head?_spelling (f : DateField) :
    ∃ c, f.spelling.head? = some c ∧ c ≠ '[' := by
  cases f <;> exact ⟨_, rfl, by decide⟩

/-- Longer spellings come first, so the first that fits is the longest. -/
theorem DateField.pairwise_all :
    all.Pairwise fun f g => g.spelling.length ≤ f.spelling.length := by decide

/-- No token stands for two segments. -/
theorem Spells.unique {token : List Char} {segment segment' : Segment} (h : Spells token segment)
    (h' : Spells token segment') : segment = segment' := by
  generalize htoken : token = token' at h'
  cases h with
  | field f =>
    cases h' with
    | field g => rw [eq_of_spelling_eq htoken]
    | weekdayPair => exact absurd htoken f.spelling_ne_pair
  | weekdayPair =>
    cases h' with
    | field g => exact absurd htoken.symm g.spelling_ne_pair
    | weekdayPair => rfl

theorem Spells.head? {token : List Char} {segment : Segment} (h : Spells token segment) :
    ∃ c, token.head? = some c ∧ c ≠ '[' := by
  cases h with
  | field f => exact f.head?_spelling
  | weekdayPair => exact ⟨'d', rfl, by decide⟩

/-- There is only one longest token. -/
theorem LongestToken.unique {s token token' : List Char} {segment segment' : Segment}
    (h : LongestToken s token) (hs : Spells token segment) (h' : LongestToken s token')
    (hs' : Spells token' segment') : token = token' := by
  have hlength : token.length = token'.length :=
    Nat.le_antisymm (h'.longest _ _ hs h.front) (h.longest _ _ hs' h'.front)
  have hfront : token <+: token' :=
    List.prefix_of_prefix_length_le h.front h'.front (Nat.le_of_eq hlength)
  exact hfront.eq_of_length hlength

/-- What is found in a table of words stands at the front of the text. -/
theorem front_of_find? {α : Type} {word : α → List Char} {table : List α} {s : List Char} {a : α}
    (h : table.find? (fun a => (word a).isPrefixOf s) = some a) : word a <+: s :=
  List.isPrefixOf_iff_prefix.1 (List.find?_some (p := fun a => (word a).isPrefixOf s) h)

section
variable {s : List Char}

/-- The table is sorted by length, so the field that is found first is spelled longest. -/
theorem length_le_of_find?_spelling {f g : DateField}
    (hf : DateField.all.find? (·.spelling.isPrefixOf s) = some f) (hg : g.spelling <+: s) :
    g.spelling.length ≤ f.spelling.length := by
  rcases eq_or_rel_of_find? DateField.pairwise_all hf g.mem_all (List.isPrefixOf_iff_prefix.2 hg)
    with rfl | hle
  · exact Nat.le_refl _
  · exact hle

/-- What begins with two letters for days and is longer begins with three. -/
theorem triple_front {f : DateField} (hpair : ['d', 'd'] <+: s) (hf : f.spelling <+: s)
    (hlength : 2 ≤ f.spelling.length) : ['d', 'd', 'd'] <+: s :=
  (f.spelling_triple (List.prefix_of_prefix_length_le hpair hf hlength)).trans hf

theorem pair_front_iff : (['d', 'd'].isPrefixOf s && !(['d', 'd', 'd'].isPrefixOf s)) = true ↔
    ['d', 'd'] <+: s ∧ ¬['d', 'd', 'd'] <+: s := by
  rw [Bool.and_eq_true, Bool.not_eq_true', ← Bool.not_eq_true, List.isPrefixOf_iff_prefix,
    List.isPrefixOf_iff_prefix]

theorem longestToken_pair (hpair : ['d', 'd'] <+: s) (htriple : ¬['d', 'd', 'd'] <+: s) :
    LongestToken s ['d', 'd'] := by
  refine ⟨hpair, ?_⟩
  rintro other segment (f | -) hother
  · by_contra hlonger
    exact htriple (triple_front hpair hother (Nat.le_of_lt (Nat.lt_of_not_le hlonger)))
  · exact Nat.le_refl _

theorem longestToken_field {f : DateField}
    (hf : DateField.all.find? (·.spelling.isPrefixOf s) = some f)
    (hpair : ['d', 'd'] <+: s → ['d', 'd', 'd'] <+: s) : LongestToken s f.spelling := by
  refine ⟨front_of_find? hf, ?_⟩
  rintro other segment (g | -) hother
  · exact length_le_of_find?_spelling hf hother
  · -- a third letter makes a field of the pair, and that is longer
    have hlength := length_le_of_find?_spelling (g := .weekdayAbbr) hf (hpair hother)
    exact Nat.le_of_succ_le hlength

theorem fieldAt?_eq_some {segment : Segment} {n : Nat} (h : fieldAt? s = some (segment, n)) :
    ∃ token, Spells token segment ∧ LongestToken s token ∧ token.length = n := by
  rw [fieldAt?] at h
  split at h
  · rename_i hpair
    obtain ⟨hpair, htriple⟩ := pair_front_iff.1 hpair
    obtain ⟨rfl, rfl⟩ := Prod.mk.inj (Option.some.inj h)
    exact ⟨['d', 'd'], .weekdayPair, longestToken_pair hpair htriple, rfl⟩
  · rename_i hpair
    rw [pair_front_iff, not_and_not_right] at hpair
    obtain ⟨f, hf, he⟩ := Option.map_eq_some_iff.1 h
    obtain ⟨rfl, rfl⟩ := Prod.mk.inj he
    exact ⟨f.spelling, .field f, longestToken_field hf hpair, rfl⟩

/-- Where nothing is read, no token stands. -/
theorem fieldAt?_eq_none (h : fieldAt? s = none) {token : List Char} {segment : Segment}
    (hs : Spells token segment) : ¬token <+: s := by
  intro hfront
  rw [fieldAt?] at h
  split at h
  · cases h
  · rename_i hpair
    rw [Option.map_eq_none_iff, List.find?_eq_none] at h
    have hnone : ∀ f : DateField, ¬f.spelling <+: s := by
      intro f hf
      exact h f f.mem_all (List.isPrefixOf_iff_prefix.2 hf)
    cases hs with
    | field f => exact hnone f hfront
    | weekdayPair =>
      have hday : DateField.weekday.spelling <+: ['d', 'd'] := by decide
      exact hnone .weekday (hday.trans hfront)

theorem fieldAt?_of_none (h : ∀ token segment, Spells token segment → ¬token <+: s) :
    fieldAt? s = none := by
  by_contra hsome
  obtain ⟨⟨segment, n⟩, hat⟩ := Option.ne_none_iff_exists'.1 hsome
  obtain ⟨token, hspells, hlongest, -⟩ := fieldAt?_eq_some hat
  exact h token segment hspells hlongest.front

/-- The longest token at the start of the text is the one that is read. -/
theorem fieldAt?_of_longest {token : List Char} {segment : Segment} (hs : Spells token segment)
    (hlongest : LongestToken s token) : fieldAt? s = some (segment, token.length) := by
  cases hat : fieldAt? s with
  | none => exact absurd hlongest.front (fieldAt?_eq_none hat hs)
  | some found =>
    obtain ⟨token', hs', hlongest', hlength⟩ := fieldAt?_eq_some hat
    obtain rfl := hlongest.unique hs hlongest' hs'
    rw [hs.unique hs', hlength]

end

/-! ## The first segment -/

/-- The piece and the segment that a format begins with. -/
def firstPiece? : List Char → Option (List Char × Segment)
  | [] => none
  | c :: s =>
    if c = '[' then
      let run := s.takeWhile (· != ']')
      some ('[' :: s.take (run.length + 1), .literal run)
    else
      match fieldAt? (c :: s) with
      | some (segment, length) => some ((c :: s).take length, segment)
      | none => some ([c], .literal [c])

theorem takeWhile_run {run : List Char} (h : ']' ∉ run) (rest : List Char) :
    (run ++ rest).takeWhile (· != ']') = run ++ rest.takeWhile (· != ']') := by
  refine List.takeWhile_append_of_pos fun c hc => ?_
  rw [bne_iff_ne]
  rintro rfl
  exact h hc

theorem firstPiece?_closed {run : List Char} (h : ']' ∉ run) (rest : List Char) :
    firstPiece? ('[' :: (run ++ ']' :: rest)) = some ('[' :: (run ++ [']']), .literal run) := by
  have hrun : (run ++ ']' :: rest).takeWhile (· != ']') = run := by
    rw [takeWhile_run h]
    simp
  rw [firstPiece?, if_pos rfl, hrun]
  dsimp only
  rw [List.take_length_add_append]
  rfl

theorem firstPiece?_unclosed {run : List Char} (h : ']' ∉ run) :
    firstPiece? ('[' :: run) = some ('[' :: run, .literal run) := by
  have hrun : run.takeWhile (· != ']') = run := by simpa using takeWhile_run h []
  rw [firstPiece?, if_pos rfl, hrun]
  dsimp only
  rw [List.take_of_length_le (Nat.le_succ _)]

theorem firstPiece?_cons {c : Char} (hc : c ≠ '[') (s : List Char) :
    firstPiece? (c :: s) =
      match fieldAt? (c :: s) with
      | some (segment, length) => some ((c :: s).take length, segment)
      | none => some ([c], .literal [c]) := by
  rw [firstPiece?, if_neg hc]

theorem firstPiece?_of_begins {s piece : List Char} {segment : Segment}
    (h : Begins s piece segment) : firstPiece? s = some (piece, segment) := by
  cases h with
  | closed hrun => exact firstPiece?_closed hrun _
  | unclosed hrun => exact firstPiece?_unclosed hrun
  | token hspells hlongest =>
    obtain ⟨rest, rfl⟩ := hlongest.front
    obtain ⟨c, hhead, hc⟩ := hspells.head?
    have hat := fieldAt?_of_longest hspells hlongest
    cases piece with
    | nil => cases hhead
    | cons d piece =>
      obtain rfl := Option.some.inj hhead
      rw [List.cons_append] at hat ⊢
      rw [firstPiece?_cons hc, hat]
      simp
  | @char c s hc hnone =>
    rw [firstPiece?_cons hc, fieldAt?_of_none hnone]

theorem begins_of_firstPiece? {s piece : List Char} {segment : Segment}
    (h : firstPiece? s = some (piece, segment)) : Begins s piece segment := by
  cases s with
  | nil => cases h
  | cons c s =>
    by_cases hc : c = '['
    · subst hc
      by_cases hclosed : ']' ∈ s
      · obtain ⟨run, rest, rfl, hrun⟩ := List.eq_append_cons_of_mem hclosed
        rw [firstPiece?_closed hrun] at h
        obtain ⟨rfl, rfl⟩ := Prod.mk.inj (Option.some.inj h)
        exact .closed hrun
      · rw [firstPiece?_unclosed hclosed] at h
        obtain ⟨rfl, rfl⟩ := Prod.mk.inj (Option.some.inj h)
        exact .unclosed hclosed
    · rw [firstPiece?_cons hc] at h
      split at h
      · rename_i found length hat
        obtain ⟨token, hspells, hlongest, rfl⟩ := fieldAt?_eq_some hat
        obtain ⟨rfl, rfl⟩ := Prod.mk.inj (Option.some.inj h)
        rw [← List.prefix_iff_eq_take.1 hlongest.front]
        exact .token hspells hlongest
      · rename_i hat
        obtain ⟨rfl, rfl⟩ := Prod.mk.inj (Option.some.inj h)
        exact .char hc fun token found hspells => fieldAt?_eq_none hat hspells

/-- There is one segment that a format begins with, and it is found. -/
theorem begins_iff {s piece : List Char} {segment : Segment} :
    Begins s piece segment ↔ firstPiece? s = some (piece, segment) :=
  ⟨firstPiece?_of_begins, begins_of_firstPiece?⟩

/-- The first segment of a text is determined. -/
theorem Begins.unique {s piece piece' : List Char} {segment segment' : Segment}
    (h : Begins s piece segment) (h' : Begins s piece' segment') :
    piece = piece' ∧ segment = segment' :=
  Prod.mk.inj (Option.some.inj ((begins_iff.1 h).symm.trans (begins_iff.1 h')))

theorem Begins.front {s piece : List Char} {segment : Segment} (h : Begins s piece segment) :
    piece ≠ [] ∧ piece <+: s := by
  cases h with
  | @closed run rest hrun => exact ⟨by simp, ⟨rest, by simp⟩⟩
  | unclosed hrun => exact ⟨by simp, List.prefix_refl _⟩
  | token hspells hlongest =>
    obtain ⟨c, hhead, -⟩ := hspells.head?
    refine ⟨?_, hlongest.front⟩
    rintro rfl
    cases hhead
  | @char c s hc hnone => exact ⟨by simp, ⟨s, rfl⟩⟩

theorem exists_begins {s : List Char} (h : s ≠ []) : ∃ piece segment, Begins s piece segment := by
  have hsome : (firstPiece? s).isSome := by
    cases s with
    | nil => exact absurd rfl h
    | cons c s =>
      rw [firstPiece?]
      split
      · rfl
      · split <;> rfl
  obtain ⟨⟨piece, segment⟩, hpiece⟩ := Option.isSome_iff_exists.1 hsome
  exact ⟨piece, segment, begins_iff.2 hpiece⟩

/-! ## The division -/

/-- What is skipped has no say in the segments behind it. -/
theorem segmentsAfter_eq_segments_drop (skip : Nat) (s : List Char) :
    segmentsAfter skip s = segments (s.drop skip) := by
  induction s generalizing skip with
  | nil => cases skip <;> rfl
  | cons c s ih =>
    cases skip with
    | zero => rfl
    | succ skip =>
      rw [segmentsAfter, ih]
      rfl

theorem drop_length_take {α : Type} (n : Nat) (s : List α) :
    s.drop (s.take n).length = s.drop n := by
  have hleft : (s.take n ++ s.drop n).drop (s.take n).length = s.drop n := List.drop_left
  rwa [List.take_append_drop] at hleft

/-- The segments of a format are its first and those of the rest. -/
theorem segments_eq_firstPiece? (s : List Char) :
    segments s =
      match firstPiece? s with
      | some (piece, segment) => segment :: segments (s.drop piece.length)
      | none => [] := by
  cases s with
  | nil => rfl
  | cons c s =>
    by_cases hc : c = '['
    · rw [segments, segmentsAfter, if_pos hc, firstPiece?, if_pos hc]
      dsimp only
      rw [segmentsAfter_eq_segments_drop, List.length_cons, List.drop_succ_cons, drop_length_take]
    · rw [segments, segmentsAfter, if_neg hc, firstPiece?_cons hc]
      cases hat : fieldAt? (c :: s) with
      | none => rfl
      | some found =>
        obtain ⟨segment, length⟩ := found
        obtain ⟨token, hspells, -, rfl⟩ := fieldAt?_eq_some hat
        obtain ⟨d, hhead, -⟩ := hspells.head?
        obtain ⟨length, hlength⟩ : ∃ n, token.length = n + 1 := by
          cases token with
          | nil => cases hhead
          | cons d token => exact ⟨token.length, rfl⟩
        dsimp only
        rw [segmentsAfter_eq_segments_drop, drop_length_take, hlength, List.drop_succ_cons,
          Nat.add_sub_cancel]

/-- The segments are those that the format begins with in turn. -/
theorem segments_append {piece rest : List Char} {segment : Segment}
    (h : Begins (piece ++ rest) piece segment) :
    segments (piece ++ rest) = segment :: segments rest := by
  rw [segments_eq_firstPiece?, begins_iff.1 h]
  dsimp only
  rw [List.drop_left]

/-- A format is read from its start, one segment after the other. -/
theorem segments_induction {motive : List Char → Prop} (nil : motive [])
    (segment : ∀ piece segment rest, Begins (piece ++ rest) piece segment → motive rest →
      motive (piece ++ rest)) (s : List Char) : motive s := by
  induction hn : s.length using Nat.strongRecOn generalizing s with
  | ind n ih =>
    by_cases hs : s = []
    · exact hs ▸ nil
    · obtain ⟨piece, found, hbegins⟩ := exists_begins hs
      obtain ⟨hne, rest, rfl⟩ := hbegins.front
      have hshorter : rest.length < n := by
        have := List.length_pos_iff.2 hne
        rw [List.length_append] at hn
        omega
      exact segment piece found rest hbegins (ih _ hshorter rest rfl)

/-- A format is divided in only one way. -/
theorem Divides.unique {s : List Char} {pieces pieces' : List (List Char × Segment)}
    (h : Divides s pieces) (h' : Divides s pieces') : pieces = pieces' := by
  induction h generalizing pieces' with
  | nil =>
    generalize hs : ([] : List Char) = s at h'
    cases h' with
    | nil => rfl
    | cons hbegins _ => exact absurd (List.append_eq_nil_iff.1 hs.symm).1 hbegins.front.1
  | @cons piece segment rest pieces hbegins _ ih =>
    generalize hs : piece ++ rest = s at h'
    cases h' with
    | nil => exact absurd (List.append_eq_nil_iff.1 hs).1 hbegins.front.1
    | @cons piece' segment' rest' pieces' hbegins' hdivides' =>
      rw [hs] at hbegins
      obtain ⟨rfl, rfl⟩ := hbegins.unique hbegins'
      rw [List.append_cancel_left hs] at ih
      rw [ih hdivides']

theorem Divides.flatten {s : List Char} {pieces : List (List Char × Segment)}
    (h : Divides s pieces) : (pieces.map (·.1)).flatten = s := by
  induction h with
  | nil => rfl
  | cons _ _ ih => rw [List.map_cons, List.flatten_cons, ih]

theorem Divides.segments_eq {s : List Char} {pieces : List (List Char × Segment)}
    (h : Divides s pieces) : segments s = pieces.map (·.2) := by
  induction h with
  | nil => rfl
  | cons hbegins _ ih => rw [segments_append hbegins, ih, List.map_cons]

/-- A format is divided in one way. -/
theorem existsUnique_divides (s : List Char) : ∃! pieces, Divides s pieces := by
  have hexists : ∃ pieces, Divides s pieces := by
    induction s using segments_induction with
    | nil => exact ⟨[], .nil⟩
    | segment piece segment rest hbegins ih =>
      obtain ⟨pieces, hpieces⟩ := ih
      exact ⟨_, .cons hbegins hpieces⟩
  obtain ⟨pieces, hpieces⟩ := hexists
  exact ⟨pieces, hpieces, fun _ h => h.unique hpieces⟩

example : segments "[at]YYYYYdd[".toList =
    [.literal ['a', 't'], .field .year4, .literal ['Y'], .weekdayPair, .literal []] := by
  decide +kernel

end CommandTemplate
