import CommandTemplate.Proofs.DateFormats
import CommandTemplate.Proofs.Occurrences

/-!
# Date formats as `strftime` formats

A format is translated in rounds, each of which cuts a segment off the front of what is left. The
cuts are made by bytes and all fall between characters. What the rounds write can be read as a
`strftime` format in one way only: each field is the directive of its own, and all else is the
literal text that it was.
-/
namespace CommandTemplate

/-! ## Rounds -/

/-- The text before byte `n` and the text from there on; none if a character lies across the byte
or the text ends before it. -/
def cutBytes? : (n : Nat) → List Char → Option (List Char × List Char)
  | 0, s => some ([], s)
  | _ + 1, [] => none
  | n + 1, c :: s =>
    if c.utf8Size ≤ n + 1 then
      (cutBytes? (n + 1 - c.utf8Size) s).map fun (before, after) => (c :: before, after)
    else none

/-- The byte of the first closing bracket, or the end of the text. -/
def closingByte (s : List Char) : Nat := utf8Length (s.takeWhile (· != ']'))

/-- What one round writes and what it leaves; none if it cuts where it may not. -/
def round? (weekday : Nat) : List Char → Option (List Char × List Char)
  | [] => none
  | c :: s =>
    if c = '[' then do
      let stop := closingByte (c :: s)
      let (front, _) ← cutBytes? stop (c :: s)
      let (_, run) ← cutBytes? 1 front
      -- a bracket that is not closed leaves nothing, so here a cut beyond the end is allowed for
      let rest := ((cutBytes? (stop + 1) (c :: s)).map (·.2)).getD []
      return (doublePercent run, rest)
    else if ['d', 'd'].isPrefixOf (c :: s) && !(['d', 'd', 'd'].isPrefixOf (c :: s)) then do
      let (pair, _) ← cutBytes? 2 ((weekdayName weekday).toList.take 3)
      let (_, rest) ← cutBytes? 2 (c :: s)
      return (doublePercent pair, rest)
    else
      match DateField.all.find? (·.spelling.isPrefixOf (c :: s)) with
      | some f => do
        let (_, rest) ← cutBytes? (utf8Length f.spelling) (c :: s)
        return ('%' :: f.directive, rest)
      | none => do
        let (literal, rest) ← cutBytes? c.utf8Size (c :: s)
        return (doublePercent literal, rest)

/-- `Rounds weekday s out`: nothing is left of `s` after some rounds, and they write `out`. -/
inductive Rounds (weekday : Nat) : List Char → List Char → Prop where
  | done : Rounds weekday [] []
  | next {s written rest out} : round? weekday s = some (written, rest) →
      Rounds weekday rest out → Rounds weekday s (written ++ out)

theorem cutBytes?_append (s t : List Char) : cutBytes? (utf8Length s) (s ++ t) = some (s, t) := by
  induction s with
  | nil => rw [utf8Length, cutBytes?, List.nil_append]
  | cons c s ih =>
    obtain ⟨n, hn⟩ : ∃ n, c.utf8Size + utf8Length s = n + 1 :=
      ⟨c.utf8Size + utf8Length s - 1, by have := c.utf8Size_pos; omega⟩
    have hrest : n + 1 - c.utf8Size = utf8Length s := by omega
    rw [utf8Length, List.cons_append, hn, cutBytes?, if_pos (by omega), hrest, ih]
    rfl

theorem cutBytes?_self (s : List Char) : cutBytes? (utf8Length s) s = some (s, []) := by
  have hcut := cutBytes?_append s []
  rwa [List.append_nil] at hcut

theorem cutBytes?_beyond {n : Nat} {s : List Char} (h : utf8Length s < n) :
    cutBytes? n s = none := by
  induction s generalizing n with
  | nil =>
    obtain ⟨n, rfl⟩ := Nat.exists_eq_succ_of_ne_zero (Nat.ne_of_gt h)
    rfl
  | cons c s ih =>
    rw [utf8Length] at h
    obtain ⟨n, rfl⟩ := Nat.exists_eq_succ_of_ne_zero (Nat.ne_of_gt (Nat.zero_lt_of_lt h))
    rw [cutBytes?, if_pos (by omega), ih (by omega)]
    rfl

/-- The characters of tokens are single bytes. -/
theorem Spells.utf8Length_eq {token : List Char} {segment : Segment} (h : Spells token segment) :
    utf8Length token = token.length := by
  cases h with
  | field f => cases f <;> rfl
  | weekdayPair => rfl

/-- The two letters that stand for a weekday are cut off its short name, and none is a percent. -/
theorem cutBytes?_weekday (weekday : Fin 7) :
    ∃ rest, cutBytes? 2 ((weekdayName weekday).toList.take 3) =
      some (weekdayPairText weekday, rest) := by
  have hall : ∀ weekday : Fin 7, cutBytes? 2 ((weekdayName weekday).toList.take 3) =
      some (weekdayPairText weekday, ((weekdayName weekday).toList.take 3).drop 2) := by decide
  exact ⟨_, hall weekday⟩

theorem doublePercent_weekdayPairText (weekday : Fin 7) :
    doublePercent (weekdayPairText weekday) = weekdayPairText weekday := by
  revert weekday
  decide

section
variable {weekday : Fin 7}

theorem round?_closed {run : List Char} (h : ']' ∉ run) (rest : List Char) :
    round? weekday ('[' :: (run ++ ']' :: rest)) = some (doublePercent run, rest) := by
  have hstop : closingByte ('[' :: (run ++ ']' :: rest)) = utf8Length ('[' :: run) := by
    have hbracket : ']' ∉ '[' :: run := by simpa using h
    rw [closingByte, ← List.cons_append, takeWhile_run hbracket]
    simp
  have hfront := cutBytes?_append ('[' :: run) (']' :: rest)
  have hrun : cutBytes? 1 ('[' :: run) = some (['['], run) := cutBytes?_append ['['] run
  have hbehind : utf8Length ('[' :: run) + 1 = utf8Length ('[' :: (run ++ [']'])) := by
    rw [← List.cons_append, utf8Length_append]
    rfl
  have hrest := cutBytes?_append ('[' :: (run ++ [']'])) rest
  rw [List.cons_append] at hfront
  rw [List.cons_append, List.append_assoc, List.singleton_append] at hrest
  rw [round?, if_pos rfl]
  simp [hstop, hfront, hrun, hbehind, hrest]

theorem round?_unclosed {run : List Char} (h : ']' ∉ run) :
    round? weekday ('[' :: run) = some (doublePercent run, []) := by
  have hstop : closingByte ('[' :: run) = utf8Length ('[' :: run) := by
    have hbracket : ']' ∉ '[' :: run := by simpa using h
    have htake := takeWhile_run hbracket []
    rw [List.append_nil] at htake
    rw [closingByte, htake]
    simp
  have hfront := cutBytes?_self ('[' :: run)
  have hrun : cutBytes? 1 ('[' :: run) = some (['['], run) := cutBytes?_append ['['] run
  have hbeyond := cutBytes?_beyond (Nat.lt_succ_self (utf8Length ('[' :: run)))
  rw [round?, if_pos rfl]
  simp [hstop, hfront, hrun, hbeyond]

/-- Outside brackets the round writes the token that stands there, or else the character. -/
theorem round?_of_fieldAt? {c : Char} {s : List Char} (hc : c ≠ '[') :
    round? weekday (c :: s) =
      match fieldAt? (c :: s) with
      | some (segment, length) =>
        (cutBytes? length (c :: s)).map fun p => (segment.toStrftime weekday, p.2)
      | none => some (doublePercent [c], s) := by
  obtain ⟨after, hpair⟩ := cutBytes?_weekday weekday
  have hcharacter : cutBytes? c.utf8Size (c :: s) = some ([c], s) := cutBytes?_append [c] s
  rw [round?, if_neg hc, fieldAt?]
  split
  · rw [hpair]
    cases hcut : cutBytes? 2 (c :: s) with
    | none => simp [hcut]
    | some p => simp [hcut, Segment.toStrftime, doublePercent_weekdayPairText]
  · cases DateField.all.find? (·.spelling.isPrefixOf (c :: s)) with
    | none => simp [hcharacter]
    | some f =>
      have hlength : utf8Length f.spelling = f.spelling.length := (Spells.field f).utf8Length_eq
      cases hcut : cutBytes? f.spelling.length (c :: s) with
      | none => simp [hlength, hcut]
      | some p => simp [hlength, hcut, Segment.toStrftime]

/-- A round takes the first segment, and every cut that it makes can be made. -/
theorem round?_of_begins {piece rest : List Char} {segment : Segment}
    (h : Begins (piece ++ rest) piece segment) :
    round? weekday (piece ++ rest) = some (segment.toStrftime weekday, rest) := by
  generalize hs : piece ++ rest = s at h
  cases h with
  | @closed run after hrun =>
    obtain rfl : rest = after := by simpa using hs
    exact round?_closed hrun rest
  | @unclosed run hrun =>
    obtain rfl : rest = [] := by simpa using hs
    exact round?_unclosed hrun
  | token hspells hlongest =>
    subst hs
    obtain ⟨c, hhead, hc⟩ := hspells.head?
    have hat := fieldAt?_of_longest hspells hlongest
    have hcut := cutBytes?_append piece rest
    rw [hspells.utf8Length_eq] at hcut
    cases piece with
    | nil => cases hhead
    | cons d piece =>
      obtain rfl := Option.some.inj hhead
      rw [List.cons_append] at hat hcut ⊢
      rw [round?_of_fieldAt? hc, hat]
      dsimp only
      rw [hcut]
      rfl
  | @char c s hc hnone =>
    obtain rfl : rest = s := by simpa using hs
    rw [round?_of_fieldAt? hc, fieldAt?_of_none hnone]
    rfl

/-- Every round takes something off the front of the text, so the rounds come to an end. -/
theorem exists_round? {s : List Char} (h : s ≠ []) :
    ∃ written rest, round? weekday s = some (written, rest) ∧ rest.length < s.length := by
  obtain ⟨piece, segment, hbegins⟩ := exists_begins h
  obtain ⟨hne, rest, rfl⟩ := hbegins.front
  refine ⟨_, rest, round?_of_begins hbegins, ?_⟩
  have := List.length_pos_iff.2 hne
  rw [List.length_append]
  omega

/-- The rounds come to an end, and they write the translation. -/
theorem rounds_translation (weekday : Fin 7) (s : List Char) :
    Rounds weekday s ((segments s).flatMap (·.toStrftime weekday)) := by
  induction s using segments_induction with
  | nil => exact .done
  | segment piece segment rest hbegins ih =>
    rw [segments_append hbegins, List.flatMap_cons]
    exact .next (round?_of_begins hbegins) ih

end

/-- What the rounds write is determined. -/
theorem Rounds.unique {weekday : Nat} {s out out' : List Char} (h : Rounds weekday s out)
    (h' : Rounds weekday s out') : out = out' := by
  induction h generalizing out' with
  | done =>
    cases h' with
    | done => rfl
    | next hround _ => cases hround
  | next hround _ ih =>
    cases h' with
    | done => cases hround
    | next hround' hrest' =>
      obtain ⟨rfl, rfl⟩ := Prod.mk.inj (Option.some.inj (hround.symm.trans hround'))
      rw [ih hrest']

/-! ## Reading -/

/-- `Reads s items`: read from the left as a `strftime` format, `s` is these items. A percent that
neither doubles nor begins the directive of a field cannot be read. -/
inductive Reads : List Char → List StrftimeItem → Prop where
  | nil : Reads [] []
  | percent {s items} : Reads s items → Reads ('%' :: '%' :: s) (.char '%' :: items)
  | field (f : DateField) {s items} : Reads s items →
      Reads ('%' :: (f.directive ++ s)) (.field f :: items)
  | char {c s items} : c ≠ '%' → Reads s items → Reads (c :: s) (.char c :: items)

/-- No directive begins another one. -/
theorem eq_of_directive_front {f g : DateField} {s : List Char}
    (h : g.directive <+: f.directive ++ s) : g = f := by
  have hall : ∀ f ∈ DateField.all, ∀ g ∈ DateField.all, f.directive <+: g.directive → f = g := by
    decide +kernel
  rcases List.prefix_or_prefix_of_prefix h (List.prefix_append _ s) with hfront | hfront
  · exact hall g g.mem_all f f.mem_all hfront
  · exact (hall f f.mem_all g g.mem_all hfront).symm

theorem DateField.head?_directive (f : DateField) : ∃ c s, f.directive = c :: s ∧ c ≠ '%' := by
  cases f <;> exact ⟨_, _, rfl, by decide⟩

/-- No directive begins another one. -/
theorem directiveAt?_append (f : DateField) (s : List Char) :
    directiveAt? (f.directive ++ s) = some (f, s) := by
  have hsome : (DateField.all.find? (·.directive.isPrefixOf (f.directive ++ s))).isSome :=
    List.find?_isSome.2 ⟨f, f.mem_all, List.isPrefixOf_iff_prefix.2 (List.prefix_append _ s)⟩
  obtain ⟨g, hg⟩ := Option.isSome_iff_exists.1 hsome
  obtain rfl := eq_of_directive_front (front_of_find? hg)
  rw [directiveAt?, hg]
  simp

theorem directiveAt?_eq_some {s rest : List Char} {f : DateField}
    (h : directiveAt? s = some (f, rest)) : s = f.directive ++ rest := by
  obtain ⟨g, hg, he⟩ := Option.map_eq_some_iff.1 h
  obtain ⟨rfl, rfl⟩ := Prod.mk.inj he
  exact (List.prefix_iff_eq_append.1 (front_of_find? hg)).symm

theorem readStrftimeAfter_eq_drop (skip : Nat) (s : List Char) :
    readStrftimeAfter skip s = readStrftime (s.drop skip) := by
  induction s generalizing skip with
  | nil => cases skip <;> rfl
  | cons c s ih =>
    cases skip with
    | zero => rfl
    | succ skip =>
      rw [readStrftimeAfter, ih]
      rfl

theorem readStrftime_percent (s : List Char) :
    readStrftime ('%' :: '%' :: s) = (readStrftime s).map (.char '%' :: ·) := by
  rw [readStrftime, readStrftimeAfter, if_pos rfl, if_pos (by rfl), readStrftimeAfter_eq_drop]
  rfl

theorem readStrftime_field (f : DateField) (s : List Char) :
    readStrftime ('%' :: (f.directive ++ s)) = (readStrftime s).map (.field f :: ·) := by
  obtain ⟨c, rest, hdirective, hc⟩ := f.head?_directive
  have hhead : (f.directive ++ s).head? ≠ some '%' := by simpa [hdirective] using hc
  rw [readStrftime, readStrftimeAfter, if_pos rfl, if_neg hhead, directiveAt?_append]
  dsimp only
  rw [readStrftimeAfter_eq_drop, List.drop_left]

theorem readStrftime_char {c : Char} (hc : c ≠ '%') (s : List Char) :
    readStrftime (c :: s) = (readStrftime s).map (.char c :: ·) := by
  rw [readStrftime, readStrftimeAfter, if_neg hc]
  rfl

/-- What the grammar reads the reader reads. -/
theorem readStrftime_of_reads {s : List Char} {items : List StrftimeItem} (h : Reads s items) :
    readStrftime s = some items := by
  induction h with
  | nil => rfl
  | percent _ ih => rw [readStrftime_percent, ih, Option.map_some]
  | field f _ ih => rw [readStrftime_field, ih, Option.map_some]
  | char hc _ ih => rw [readStrftime_char hc, ih, Option.map_some]

theorem readStrftime_eq_none {s : List Char} (hhead : s.head? ≠ some '%')
    (hat : directiveAt? s = none) : readStrftime ('%' :: s) = none := by
  rw [readStrftime, readStrftimeAfter, if_pos rfl, if_neg hhead, hat]

/-- What the reader reads is by the grammar. -/
theorem reads_of_readStrftime {s : List Char} {items : List StrftimeItem}
    (h : readStrftime s = some items) : Reads s items := by
  induction hn : s.length using Nat.strongRecOn generalizing s items with
  | ind n ih =>
    subst hn
    cases s with
    | nil =>
      obtain rfl : [] = items := Option.some.inj h
      exact .nil
    | cons c s =>
      by_cases hc : c = '%'
      · subst hc
        by_cases hhead : s.head? = some '%'
        · obtain ⟨rest, rfl⟩ := List.head?_eq_some_iff.1 hhead
          rw [readStrftime_percent, Option.map_eq_some_iff] at h
          obtain ⟨items, hitems, rfl⟩ := h
          have hshorter : rest.length < ('%' :: '%' :: rest).length := by
            rw [List.length_cons, List.length_cons]
            omega
          exact .percent (ih rest.length hshorter hitems rfl)
        · cases hat : directiveAt? s with
          | none => simp [readStrftime_eq_none hhead hat] at h
          | some found =>
            obtain ⟨f, rest⟩ := found
            obtain rfl := directiveAt?_eq_some hat
            rw [readStrftime_field, Option.map_eq_some_iff] at h
            obtain ⟨items, hitems, rfl⟩ := h
            have hshorter : rest.length < ('%' :: (f.directive ++ rest)).length := by
              rw [List.length_cons, List.length_append]
              omega
            exact .field f (ih rest.length hshorter hitems rfl)
      · rw [readStrftime_char hc, Option.map_eq_some_iff] at h
        obtain ⟨items, hitems, rfl⟩ := h
        exact .char hc (ih s.length (Nat.lt_succ_self _) hitems rfl)

/-- What can be read is read, and in one way. -/
theorem reads_iff {s : List Char} {items : List StrftimeItem} :
    Reads s items ↔ readStrftime s = some items :=
  ⟨readStrftime_of_reads, reads_of_readStrftime⟩

/-- A `strftime` format can be read in only one way. -/
theorem Reads.unique {s : List Char} {items items' : List StrftimeItem} (h : Reads s items)
    (h' : Reads s items') : items = items' :=
  Option.some.inj ((reads_iff.1 h).symm.trans (reads_iff.1 h'))

theorem Reads.append {s t : List Char} {items items' : List StrftimeItem} (h : Reads s items)
    (h' : Reads t items') : Reads (s ++ t) (items ++ items') := by
  induction h with
  | nil => exact h'
  | percent _ ih => exact .percent ih
  | field f _ ih =>
    rw [List.cons_append, List.append_assoc]
    exact .field f ih
  | char hc _ ih => exact .char hc ih

/-- With its percents doubled a text stands for itself. -/
theorem reads_doublePercent (s : List Char) : Reads (doublePercent s) (s.map .char) := by
  induction s with
  | nil => exact .nil
  | cons c s ih =>
    rw [doublePercent, List.flatMap_cons]
    split
    · rename_i hc
      subst hc
      exact .percent ih
    · rename_i hc
      exact .char hc ih

namespace Segment

def items (weekday : Nat) : Segment → List StrftimeItem
  | field f => [.field f]
  | literal s => s.map .char
  | weekdayPair => (weekdayPairText weekday).map .char

theorem reads_toStrftime (weekday : Fin 7) (segment : Segment) :
    Reads (segment.toStrftime weekday) (segment.items weekday) := by
  cases segment with
  | field f =>
    have hfield := Reads.field f .nil
    rwa [List.append_nil] at hfield
  | literal s => exact reads_doublePercent s
  | weekdayPair =>
    have hpair := reads_doublePercent (weekdayPairText weekday)
    rwa [doublePercent_weekdayPairText] at hpair

end Segment

theorem reads_flatMap_toStrftime (weekday : Fin 7) (gs : List Segment) :
    Reads (gs.flatMap (·.toStrftime weekday)) (gs.flatMap (·.items weekday)) := by
  induction gs with
  | nil => exact .nil
  | cons g gs ih =>
    rw [List.flatMap_cons, List.flatMap_cons]
    exact (g.reads_toStrftime weekday).append ih

/-! ## Filling in -/

def StrftimeItem.filled (render : DateField → List Char) : StrftimeItem → List Char
  | .field f => render f
  | .char c => [c]

/-- A `strftime` format filled in; none at a directive that is not known. -/
def strftime? (render : DateField → List Char) (s : List Char) : Option (List Char) :=
  (readStrftime s).map fun items => items.flatMap (·.filled render)

def Segment.filled (render : DateField → List Char) (weekday : Nat) : Segment → List Char
  | .field f => render f
  | .literal s => s
  | .weekdayPair => weekdayPairText weekday

theorem flatMap_filled_map_char (render : DateField → List Char) (s : List Char) :
    (s.map StrftimeItem.char).flatMap (·.filled render) = s := by
  rw [List.flatMap_map]
  exact List.flatMap_singleton' s

theorem Segment.flatMap_filled_items (render : DateField → List Char) (weekday : Nat)
    (segment : Segment) :
    (segment.items weekday).flatMap (·.filled render) = segment.filled render weekday := by
  cases segment with
  | field f => exact List.append_nil _
  | literal s => exact flatMap_filled_map_char render s
  | weekdayPair => exact flatMap_filled_map_char render _

theorem flatMap_filled_items (render : DateField → List Char) (weekday : Nat) (gs : List Segment) :
    (gs.flatMap (·.items weekday)).flatMap (·.filled render) =
      gs.flatMap (·.filled render weekday) := by
  rw [List.flatMap_assoc]
  exact List.flatMap_congr fun g _ => g.flatMap_filled_items render weekday

structure FormatTranslated (format : String) (weekday : Fin 7) : Prop where
  /-- It is divided in one way, and the pieces make up the format. -/
  divided : ∃ pieces, Divides format.toList pieces ∧ (pieces.map (·.1)).flatten = format.toList ∧
    ∀ other, Divides format.toList other → other = pieces
  /-- The rounds come to an end with the translation, and with nothing else. -/
  written : ∀ out, Rounds weekday format.toList out ↔ out = (toStrftime format weekday).toList
  /-- It has one reading, segment by segment, -/
  read : ∀ pieces, Divides format.toList pieces → ∀ items,
    Reads (toStrftime format weekday).toList items ↔
      items = pieces.flatMap fun p => p.2.items weekday
  /-- so however fields are rendered, no directive is unknown, and each segment is filled in. -/
  filled : ∀ pieces, Divides format.toList pieces → ∀ render,
    strftime? render (toStrftime format weekday).toList =
      some (pieces.flatMap fun p => p.2.filled render weekday)

theorem toList_toStrftime (format : String) (weekday : Nat) :
    (toStrftime format weekday).toList =
      (segments format.toList).flatMap (·.toStrftime weekday) := by
  rw [toStrftime, String.toList_ofList]

theorem reads_toStrftime (format : String) (weekday : Fin 7) :
    Reads (toStrftime format weekday).toList
      ((segments format.toList).flatMap (·.items weekday)) := by
  rw [toList_toStrftime]
  exact reads_flatMap_toStrftime weekday _

/-- The translated format is filled in as the segments are. -/
theorem strftime?_toStrftime (render : DateField → List Char) (format : String)
    (weekday : Fin 7) :
    strftime? render (toStrftime format weekday).toList =
      some ((segments format.toList).flatMap (·.filled render weekday)) := by
  rw [strftime?, reads_iff.1 (reads_toStrftime format weekday), Option.map_some,
    flatMap_filled_items]

theorem formatTranslated (format : String) (weekday : Fin 7) : FormatTranslated format weekday where
  divided := by
    obtain ⟨pieces, hpieces, honly⟩ := existsUnique_divides format.toList
    exact ⟨pieces, hpieces, hpieces.flatten, honly⟩
  written out := by
    have hrounds := rounds_translation weekday format.toList
    rw [← toList_toStrftime] at hrounds
    constructor
    · exact fun h => h.unique hrounds
    · rintro rfl
      exact hrounds
  read pieces hpieces items := by
    have hreads := reads_toStrftime format weekday
    rw [hpieces.segments_eq, List.flatMap_map] at hreads
    constructor
    · exact fun h => h.unique hreads
    · rintro rfl
      exact hreads
  filled pieces hpieces render := by
    rw [strftime?_toStrftime, hpieces.segments_eq, List.flatMap_map]

theorem Segment.filled_render (m : Moment) (segment : Segment) :
    segment.filled (·.render m) m.date.weekday = segment.render m := by
  cases segment <;> rfl

theorem Date.weekday_lt (d : Date) : d.weekday < 7 := by
  rw [weekday]
  omega

/-- The translation of a format, filled in by a formatter, is the format filled in. -/
theorem strftime?_render (m : Moment) (format : String) :
    strftime? (·.render m) (toStrftime format m.date.weekday).toList =
      some (m.format format).toList := by
  have hfilled := strftime?_toStrftime (·.render m) format ⟨_, m.date.weekday_lt⟩
  rw [hfilled, Moment.format, String.toList_ofList]
  exact congrArg some (List.flatMap_congr fun g _ => g.filled_render m)

/-- Every format is translated faithfully, whatever the day of the week, in rounds each of which
makes its cuts and shortens what is left. To fill in the translation is to fill in the format. -/
theorem formats_translated :
    (∀ (weekday : Fin 7) (s : List Char), s ≠ [] →
      ∃ written rest, round? weekday s = some (written, rest) ∧ rest.length < s.length) ∧
      (∀ format weekday, FormatTranslated format weekday) ∧
      ∀ (m : Moment) format, strftime? (·.render m) (toStrftime format m.date.weekday).toList =
        some (m.format format).toList :=
  ⟨fun _ _ => exists_round?, formatTranslated, strftime?_render⟩

example : toStrftime "100% [dd%] dd DDDDDY" 2 = "100%% dd%% Tu %j%-dY" := by decide +kernel

end CommandTemplate
