import CommandTemplate.Proofs.Capture

/-!
# Where a token ends

A token ends at the first closing braces behind its name, unless a text argument runs past them.
It does so in two cases only: nothing of it stands in front of the braces, or a required parameter
is still to come. It is then stretched to the first place from which the rest of the schema can be
read, over whatever stands in between.
-/
namespace CommandTemplate

/-- Two closing braces stand in the text before its end. -/
def ClosesEarly (s : List Char) : Prop :=
  ∃ before after, s = before ++ '}' :: '}' :: after ∧ after ≠ []

/-- Closing braces begin within the text `a` that `tail` stands behind: at its start, or with a
parameter behind it that may not be left out. -/
def RunsPast (a tail : List Char) (parameters : List Parameter) : Prop :=
  ∃ stop more, a ++ tail = stop ++ '}' :: '}' :: more ∧ stop.length < a.length ∧
    (stop = [] ∨ ∃ p ∈ parameters, p.required = true)

/-- A text among the arguments runs past closing braces. -/
inductive Overruns : List Parameter → List (Option (List Char)) → Prop where
  | here {p : Parameter} {parameters a arguments} : p.shape = .ok .text →
    RunsPast a (Token.tailText arguments) parameters →
    Overruns (p :: parameters) (some a :: arguments)
  | behind {p : Parameter} {parameters argument arguments} :
    Overruns parameters arguments → Overruns (p :: parameters) (argument :: arguments)

/-- Arguments for the parameters, with the end of the token, stand at the start of the text. -/
def Readable (parameters : List Parameter) (s : List Char) : Prop :=
  ∃ arguments, List.Forall₂ Parameter.Takes parameters arguments ∧ Token.tailText arguments <+: s

/-- Every text argument ends in the first place behind its first character from which the other
parameters can be read; `after` is what follows the token. -/
def StopsEarliest : List Parameter → List (Option (List Char)) → (after : List Char) → Prop
  | p :: parameters, some a :: arguments, after =>
    (p.shape = .ok .text → ∀ stop more, a = stop ++ more → stop ≠ [] → more ≠ [] →
      ¬Readable parameters (more ++ (Token.tailText arguments ++ after))) ∧
    StopsEarliest parameters arguments after
  | _ :: parameters, none :: arguments, after => StopsEarliest parameters arguments after
  | _, _, _ => True

/-! ## The shortest run -/

/-- A run stops in the first place behind its first character where `next` succeeds. -/
theorem shortestRun_minimal {α : Type} {ok : Char → Bool} {next : List Char → Option α}
    {stop more rest : List Char} {a : α}
    (h : shortestRun ok next (stop ++ more ++ rest) = some (stop ++ more, a)) (hstop : stop ≠ [])
    (hmore : more ≠ []) : next (more ++ rest) = none := by
  induction stop with
  | nil => exact absurd rfl hstop
  | cons c stop ih =>
    rw [List.cons_append, List.cons_append, shortestRun] at h
    split at h
    · split at h
      · -- a run of one character has no place to stop in
        obtain ⟨hrun, -⟩ := Prod.mk.inj (Option.some.inj h)
        obtain ⟨-, hnil⟩ := List.cons.inj hrun
        exact absurd (List.append_eq_nil_iff.1 hnil.symm).2 hmore
      · rename_i hnone
        obtain ⟨⟨run, b⟩, hrest, he⟩ := Option.map_eq_some_iff.1 h
        obtain ⟨hrun, rfl⟩ := Prod.mk.inj he
        obtain ⟨-, rfl⟩ := List.cons.inj hrun
        by_cases hfirst : stop = []
        · subst hfirst
          exact hnone
        · exact ih hrest hfirst
    · cases h

theorem Slot.Of.text {slot : Slot} {p : Parameter} (h : slot.Of p) (hp : p.shape = .ok .text) :
    slot.admits = .text := by
  obtain ⟨shape, hshape, rfl⟩ := h
  obtain rfl : shape = .text := Except.ok.inj (hshape.symm.trans hp)
  rfl

/-- What is read for the slots of a schema stops every text as early as can be. -/
theorem stopsEarliest_of_matchSlots {slots : List Slot} {parameters : List Parameter}
    (hslots : List.Forall₂ Slot.Of slots parameters) {s rest : List Char}
    {arguments : List (Option (List Char))} (h : matchSlots slots s = some (arguments, rest)) :
    StopsEarliest parameters arguments rest := by
  induction hslots generalizing s arguments with
  | nil =>
    obtain ⟨rfl, -⟩ := matchSlots_nil_eq_some h
    trivial
  | @cons slot p slots parameters hof hslots ih =>
    rcases matchSlots_cons_eq_some h with
      ⟨a, arguments, t, rfl, rfl, hgiven⟩ | ⟨arguments, rfl, -, hrest⟩
    · obtain ⟨rest', rfl, -, hrest⟩ := Admission.match?_eq_some hgiven
      refine ⟨?_, ih hrest⟩
      rintro hshape stop more rfl hstop hmore ⟨others, hothers, z, hz⟩
      rw [hof.text hshape, Admission.match?] at hgiven
      have hnone := shortestRun_minimal hgiven hstop hmore
      have hsome := isSome_matchSlots ((fills_iff_forall₂ hslots others).2 hothers) z
      rw [hz, ← (matchSlots_eq_some hrest).1, hnone] at hsome
      cases hsome
    · exact ih hrest

/-! ## Braces in a token -/

theorem ClosesEarly.append_left {s : List Char} (h : ClosesEarly s) (t : List Char) :
    ClosesEarly (t ++ s) := by
  obtain ⟨before, after, rfl, hafter⟩ := h
  exact ⟨t ++ before, after, by rw [List.append_assoc], hafter⟩

/-- Closing braces do not begin in a text without any. -/
theorem exists_behind_of_braceless {s t before after : List Char} (hs : '}' ∉ s)
    (h : s ++ t = before ++ '}' :: '}' :: after) :
    ∃ before', before = s ++ before' ∧ t = before' ++ '}' :: '}' :: after := by
  rcases List.append_eq_append_iff.1 h with ⟨more, hmore, ht⟩ | ⟨more, rfl, hclose⟩
  · exact ⟨more, hmore, ht⟩
  · cases more with
    | nil => exact ⟨[], by simp, by simpa using hclose.symm⟩
    | cons c more =>
      obtain ⟨rfl, -⟩ := List.cons.inj hclose
      exact absurd (by simp) hs

/-- A front without closing braces makes no difference to where they first stand. -/
theorem closesEarly_append_iff {s t : List Char} (hs : '}' ∉ s) :
    ClosesEarly (s ++ t) ↔ ClosesEarly t := by
  constructor
  · rintro ⟨before, after, h, hafter⟩
    obtain ⟨before', -, ht⟩ := exists_behind_of_braceless hs h
    exact ⟨before', after, ht, hafter⟩
  · exact fun h => h.append_left s

theorem Token.closed_text (t : Token) : ['}', '}'] <:+ t.text :=
  ⟨'{' :: '{' :: (markText t.marked ++ t.name ++ t.arguments.flatMap argumentText), by
    simp [text, tailText]⟩

theorem closesEarly_text_iff {t : Token} (hname : '}' ∉ t.name) :
    ClosesEarly t.text ↔ ClosesEarly (Token.tailText t.arguments) := by
  have hmark : '}' ∉ Token.markText t.marked := by cases t.marked <;> decide
  have hopen : '}' ∉ '{' :: '{' :: (Token.markText t.marked ++ t.name) := by
    simp [hmark, hname]
  exact closesEarly_append_iff hopen

/-- Two texts that begin alike and end at their first closing braces are the same. -/
theorem eq_of_append_eq_of_not_closesEarly {s t rest rest' : List Char}
    (h : s ++ rest = t ++ rest') (hs : ['}', '}'] <:+ s) (ht : ['}', '}'] <:+ t)
    (hsfirst : ¬ClosesEarly s) (htfirst : ¬ClosesEarly t) : s = t := by
  obtain ⟨body, rfl⟩ := hs
  obtain ⟨body', rfl⟩ := ht
  rcases List.append_eq_append_iff.1 h with ⟨more, hmore, -⟩ | ⟨more, hmore, -⟩
  · by_cases hnil : more = []
    · rw [hmore, hnil, List.append_nil]
    · exact absurd ⟨body, more, by simp [hmore], hnil⟩ htfirst
  · by_cases hnil : more = []
    · rw [hmore, hnil, List.append_nil]
    · exact absurd ⟨body', more, by simp [hmore], hnil⟩ hsfirst

/-! ## Braces in arguments -/

/-- Only a text can have closing braces in it. -/
theorem brace_not_mem_of_takes {p : Parameter} {a : List Char} (h : p.Takes (some a))
    (hp : p.shape ≠ .ok .text)
    (hoptions : ∀ shape, p.shape = .ok shape → shape.Avoids (· = '}')) : '}' ∉ a := by
  obtain ⟨shape, hshape, ha⟩ := h
  have hmarks : ∀ c, c = '}' → c ∈ Text.marks := by
    rintro c rfl
    decide
  have htext : shape = .text → ∀ c ∈ a, ¬c = '}' := fun h => absurd (h ▸ hshape) hp
  exact fun hmem => (hoptions shape hshape).argument hmarks ha htext _ hmem rfl

theorem tailText_cons (argument : Option (List Char)) (arguments : List (Option (List Char))) :
    Token.tailText (argument :: arguments) =
      Token.argumentText argument ++ Token.tailText arguments := by
  simp [Token.tailText]

theorem takes_replicate_none {parameters : List Parameter}
    (h : ∀ p ∈ parameters, p.required = false) :
    List.Forall₂ Parameter.Takes parameters (List.replicate parameters.length none) := by
  induction parameters with
  | nil => exact .nil
  | cons p parameters ih =>
    obtain ⟨hp, hparameters⟩ := List.forall_mem_cons.1 h
    exact .cons hp (ih hparameters)

/-- Parameters that may all be left out can be read at closing braces. -/
theorem readable_of_optional {parameters : List Parameter}
    (h : ∀ p ∈ parameters, p.required = false) (s : List Char) :
    Readable parameters ('}' :: '}' :: s) :=
  ⟨_, takes_replicate_none h, by rw [tailText_replicate_none]; exact ⟨s, rfl⟩⟩

/-- Braces within a text that stops as early as it can are ones that it could not stop at. -/
theorem runsPast_of_stopsEarliest {p : Parameter} {parameters : List Parameter} {a : List Char}
    {arguments : List (Option (List Char))} {after : List Char} (hp : p.shape = .ok .text)
    (hstops : StopsEarliest (p :: parameters) (some a :: arguments) after) {stop more : List Char}
    (h : a ++ Token.tailText arguments = stop ++ '}' :: '}' :: more)
    (hstop : stop.length < a.length) : RunsPast a (Token.tailText arguments) parameters := by
  refine ⟨stop, more, h, hstop, ?_⟩
  by_contra hneither
  obtain ⟨hne, hoptional⟩ := not_or.1 hneither
  obtain ⟨inner, rfl⟩ : stop <+: a :=
    List.prefix_of_prefix_length_le ⟨'}' :: '}' :: more, h.symm⟩ (List.prefix_append _ _)
      (Nat.le_of_lt hstop)
  have hinner : inner ≠ [] := by
    rintro rfl
    simp at hstop
  refine hstops.1 hp stop inner rfl hne hinner ?_
  rw [List.append_assoc, List.append_cancel_left_eq] at h
  rw [← List.append_assoc, h]
  refine readable_of_optional (fun q hq => ?_) _
  by_contra hrequired
  exact hoptional ⟨q, hq, by simpa using hrequired⟩

/-- Two closing braces before the end are inside a text, by induction on the schema. -/
theorem overruns_of_closesEarly {parameters : List Parameter}
    {arguments : List (Option (List Char))} {after : List Char}
    (htakes : List.Forall₂ Parameter.Takes parameters arguments)
    (hoptions : OptionsAvoid (· = '}') parameters)
    (hstops : StopsEarliest parameters arguments after)
    (h : ClosesEarly (Token.tailText arguments)) : Overruns parameters arguments := by
  induction htakes with
  | nil =>
    obtain ⟨before, behind, htail, hne⟩ := h
    have hlength := congrArg List.length htail
    have hpos := List.length_pos_of_ne_nil hne
    simp at hlength
    omega
  | @cons p argument parameters arguments hargument _ ih =>
    obtain ⟨hp, hparameters⟩ := List.forall_mem_cons.1 hoptions
    cases argument with
    | none => exact .behind (ih hparameters hstops h)
    | some a =>
      rw [tailText_cons] at h
      have htail : ClosesEarly (a ++ Token.tailText arguments) :=
        (closesEarly_append_iff (s := [':']) (by decide)).1 h
      by_cases hshape : p.shape = .ok .text
      · obtain ⟨stop, more, hsplit, hne⟩ := htail
        by_cases hstop : stop.length < a.length
        · exact .here hshape (runsPast_of_stopsEarliest hshape hstops hsplit hstop)
        · -- the braces begin behind this argument
          obtain ⟨rest, rfl⟩ : a <+: stop :=
            List.prefix_of_prefix_length_le (List.prefix_append _ _)
              ⟨'}' :: '}' :: more, hsplit.symm⟩ (by omega)
          rw [List.append_assoc, List.append_cancel_left_eq] at hsplit
          exact .behind (ih hparameters hstops.2 ⟨rest, more, hsplit, hne⟩)
      · have hbraceless := brace_not_mem_of_takes hargument hshape hp
        exact .behind (ih hparameters hstops.2 ((closesEarly_append_iff hbraceless).1 htail))

theorem Overruns.closesEarly {parameters : List Parameter} {arguments : List (Option (List Char))}
    (h : Overruns parameters arguments) : ClosesEarly (Token.tailText arguments) := by
  induction h with
  | @here p parameters a arguments _ hpast =>
    obtain ⟨stop, more, hsplit, hstop, -⟩ := hpast
    have hlength := congrArg List.length hsplit
    simp [Token.tailText] at hlength
    have htail : ClosesEarly (a ++ Token.tailText arguments) :=
      ⟨stop, more, hsplit, List.ne_nil_of_length_pos (by omega)⟩
    exact tailText_cons (some a) arguments ▸ htail.append_left [':']
  | @behind p parameters argument arguments _ ih =>
    exact tailText_cons argument arguments ▸ ih.append_left _

/-- Without parameters that take text nothing can overrun. -/
theorem not_overruns_of_textless {parameters : List Parameter}
    (h : ∀ p ∈ parameters, p.shape ≠ .ok .text) (arguments : List (Option (List Char))) :
    ¬Overruns parameters arguments := by
  intro hover
  induction hover with
  | here hp _ => exact h _ (List.mem_cons_self ..) hp
  | behind _ ih => exact ih (List.forall_mem_cons.1 h).2

/-! ## Occurrences -/

theorem eq_of_utf8Length_eq {s t rest rest' : List Char} (h : s ++ rest = t ++ rest')
    (hlength : utf8Length s = utf8Length t) : s = t := by
  rcases List.append_eq_append_iff.1 h with ⟨more, rfl, -⟩ | ⟨more, rfl, -⟩
  all_goals
    by_cases hnil : more = []
    · rw [hnil, List.append_nil]
    · have hpos := utf8Length_pos hnil
      rw [utf8Length_append] at hlength
      omega

structure Occurrence.Ends (name : String) (parameters : List Parameter) (content : String)
    (o : Occurrence) : Prop where
  /-- Its text arguments are as short as the text in and behind it allows. -/
  earliest : ∃ before after, content.toList = before ++ o.token.text ++ after ∧
    o.start = utf8Length before ∧ StopsEarliest parameters o.token.arguments after
  /-- Its last two characters are the first closing braces in it unless a text runs past others. -/
  closesEarly_iff : ClosesEarly o.token.text ↔ Overruns parameters o.token.arguments
  /-- So they are always where no parameter is a text. -/
  textless : (∀ p ∈ parameters, p.shape ≠ .ok .text) → ¬ClosesEarly o.token.text
  /-- Where what is written up to the first closing braces is no token, whatever follows it, only
  such a text makes it one. -/
  refused : ∀ w stop, Occupies content o.start stop (String.ofList w) → ['}', '}'] <:+ w →
    ¬ClosesEarly w → (∀ t, IsTokenOf name parameters t → t.text ≠ w) →
    Overruns parameters o.token.arguments

/-- Tokens end at their first closing braces, except where a text argument is left empty in front
of them or parameters behind it are missing. -/
theorem occurrences_end (name : String) (parameters : List Parameter) (content : String)
    (hname : '}' ∉ name.toList) (hschema : WellFormed parameters)
    (hoptions : OptionsAvoid (· = '}') parameters) :
    ∃ p, TokenPattern.ofSchema name parameters = .ok p ∧
      ∀ o ∈ p.occurrences content.toList, o.Ends name parameters content := by
  obtain ⟨slots, hp, hslots⟩ := TokenPattern.ofSchema_eq_ok name hschema
  refine ⟨_, hp, ?_⟩
  intro o ho
  obtain ⟨before, after, hpieces, hstart, -⟩ := mem_occurrencesFrom ho
  rw [Nat.zero_add] at hstart
  have hcontent := TokenPattern.flatMap_text_pieces ⟨name.toList, slots⟩ content.toList
  rw [hpieces, List.flatMap_append, List.flatMap_cons, ← List.append_assoc] at hcontent
  obtain ⟨hf, rest, hrest, hread⟩ :=
    TokenPattern.exists_matchSlots_of_match? (TokenPattern.match?_of_pieces_eq hpieces)
  obtain rfl := List.append_cancel_left hrest
  have hstops := stopsEarliest_of_matchSlots hslots hread
  have htakes := (fills_iff_forall₂ hslots _).1 (matchSlots_eq_some hread).2
  have htokenName : '}' ∉ o.token.name := fun hmem =>
    hname (Text.mark_mem_of_sameFolded (by decide) (Text.sameFolded_symm hf) hmem)
  have hiff : ClosesEarly o.token.text ↔ Overruns parameters o.token.arguments :=
    (closesEarly_text_iff htokenName).trans
      ⟨overruns_of_closesEarly htakes hoptions hstops, Overruns.closesEarly⟩
  constructor
  case earliest => exact ⟨_, _, hcontent.symm, hstart, hstops⟩
  case closesEarly_iff => exact hiff
  case textless => exact fun htextless => mt hiff.1 (not_overruns_of_textless htextless _)
  case refused =>
    intro w stop hw hends hfirst hnone
    by_contra hover
    obtain ⟨before', after', hsplit, hlength⟩ := hw.exists_toList
    rw [← hcontent, List.append_assoc, List.append_assoc] at hsplit
    obtain rfl := eq_of_utf8Length_eq hsplit (hstart ▸ hlength)
    have hsame := eq_of_append_eq_of_not_closesEarly (List.append_cancel_left hsplit)
      o.token.closed_text hends (mt hiff.1 hover) hfirst
    exact hnone o.token ⟨hf, htakes⟩ hsame

def noteSchema : List Parameter :=
  [.text "value", .optional (.choice "mode" ["raw", "trimmed"])]

theorem wellFormed_noteSchema : WellFormed noteSchema := by
  intro p hp
  simp only [noteSchema, List.mem_cons, List.not_mem_nil, or_false] at hp
  rcases hp with rfl | rfl
  · exact ⟨.text, rfl⟩
  · exact ⟨.choice ["raw", "trimmed"], rfl⟩

theorem optionsAvoid_noteSchema : OptionsAvoid (· = '}') noteSchema := by
  intro p hp shape hshape
  simp only [noteSchema, List.mem_cons, List.not_mem_nil, or_false] at hp
  rcases hp with rfl | rfl
  · cases hshape
    trivial
  · cases hshape
    intro option hoption c hc
    simp only [List.mem_cons, List.not_mem_nil, or_false] at hoption
    rcases hoption with rfl | rfl
    all_goals
      rintro rfl
      exact absurd hc (by decide)

def notes : String :=
  "\x7b\x7bnote:a\x7d\x7d \x7b\x7b!note:b:RAW\x7d\x7d\x7d \x7b\x7bnote:\x7d\x7d \x7b\x7bnote:c\x7d\x7d"

theorem occurrences_end_notes :
    '}' ∉ "note".toList ∧ WellFormed noteSchema ∧ OptionsAvoid (· = '}') noteSchema ∧
      ∃ p, TokenPattern.ofSchema "note" noteSchema = .ok p ∧
        ∀ o ∈ p.occurrences notes.toList, o.Ends "note" noteSchema notes :=
  have hname : '}' ∉ "note".toList := by decide
  ⟨hname, wellFormed_noteSchema, optionsAvoid_noteSchema,
    occurrences_end "note" noteSchema notes hname wellFormed_noteSchema optionsAvoid_noteSchema⟩

/-- The first two end at once; the third is left empty and runs over the fourth. -/
example :
    (TokenPattern.ofSchema "note" noteSchema).toOption.map
        (fun p => (p.occurrences notes.toList).map (·.token.arguments)) =
      some [[some ['a'], none], [some ['b'], some ['R', 'A', 'W']],
        [some "\x7d\x7d \x7b\x7bnote:c".toList, none]] := by decide +kernel

def emptyText : String := "\x7b\x7bpassthrough:\x7d\x7d \x7b\x7bpassthrough:b\x7d\x7d"

/-- A token with nothing in the place of its text swallows the token behind it. -/
theorem empty_text_swallows_next :
    '}' ∉ "passthrough".toList ∧ WellFormed [.text "value"] ∧
      OptionsAvoid (· = '}') [.text "value"] ∧
      ∃ p o, TokenPattern.ofSchema "passthrough" [.text "value"] = .ok p ∧
        p.occurrences emptyText.toList = [o] ∧ o.token.text = emptyText.toList ∧
        ClosesEarly o.token.text := by
  refine ⟨by decide, ?_, ?_, ⟨"passthrough".toList, [⟨.text, true⟩]⟩,
    ⟨0, 34, ⟨false, "passthrough".toList, [some "\x7d\x7d \x7b\x7bpassthrough:b".toList]⟩⟩,
    rfl, ?_⟩
  · intro p hp
    rw [List.mem_singleton.1 hp]
    exact ⟨.text, rfl⟩
  · intro p hp shape hshape
    rw [List.mem_singleton.1 hp] at hshape
    cases hshape
    trivial
  · refine ⟨by decide +kernel, by decide +kernel, "\x7b\x7bpassthrough:".toList,
      " \x7b\x7bpassthrough:b\x7d\x7d".toList, by decide +kernel, by decide +kernel⟩

end CommandTemplate
