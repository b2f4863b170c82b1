import CommandTemplate.Proofs.Capture

/-!
# Tokens written for a schema

A token written for a schema, with a brace nowhere before it, is the first that a scan finds, and
has the arguments it was written with. What stands behind it has no say, although it could offer
other readings.
-/
namespace CommandTemplate

/-- Arguments that a token of the schema can be written with: only the last ones are left out, for
optional parameters, and only a text in the last place of all may have a colon. -/
inductive Renderable : List Parameter → List (Option (List Char)) → Prop where
  | omitted {parameters : List Parameter} :
    (∀ p ∈ parameters, p.required = false) →
    Renderable parameters (List.replicate parameters.length none)
  | given {p : Parameter} {parameters shape a arguments} :
    p.shape = .ok shape → shape.admission.Admits a →
    (shape = .text → ∀ c ∈ a, ¬isBoundary c) →
    Renderable parameters arguments → Renderable (p :: parameters) (some a :: arguments)
  | last {p : Parameter} {a} :
    p.shape = .ok .text → Admission.text.Admits a → '}' ∉ a → Renderable [p] [some a]

/-! ## From a schema to its slots -/

theorem Shape.Avoids.closed {shape : Shape} (h : shape.Avoids (isBoundary · = true)) :
    shape.admission.Closed := by
  cases shape with
  | text => trivial
  | integer => trivial
  | choice options =>
    intro option hmem c hc
    obtain ⟨o, ho, rfl⟩ := List.mem_map.1 hmem
    exact Bool.not_eq_true _ ▸ h o ho c hc

theorem slots_optional {slots : List Slot} {parameters : List Parameter}
    (hslots : List.Forall₂ Slot.Of slots parameters) (h : ∀ p ∈ parameters, p.required = false) :
    ∀ slot ∈ slots, slot.required = false := by
  induction hslots with
  | nil => simp
  | cons hof _ ih =>
    obtain ⟨hp, hparameters⟩ := List.forall_mem_cons.1 h
    obtain ⟨shape, -, rfl⟩ := hof
    exact List.forall_mem_cons.2 ⟨hp, ih hparameters⟩

/-- What the schema allows to write can be read back from the slots. -/
theorem Renderable.written {parameters : List Parameter} {arguments : List (Option (List Char))}
    (h : Renderable parameters arguments) (hoptions : OptionsAvoid (isBoundary · = true) parameters)
    {slots : List Slot} (hslots : List.Forall₂ Slot.Of slots parameters) :
    Written slots arguments := by
  induction h generalizing slots with
  | @omitted parameters hoptional =>
    rw [← hslots.length_eq]
    exact .omitted (slots_optional hslots hoptional)
  | @given p parameters shape a arguments hshape ha htext _ ih =>
    cases hslots with
    | @cons slot _ slots _ hof hslots =>
      obtain ⟨shape', hshape', rfl⟩ := hof
      obtain rfl : shape = shape' := Except.ok.inj (hshape.symm.trans hshape')
      obtain ⟨hp, hparameters⟩ := List.forall_mem_cons.1 hoptions
      have hbounded := hp shape hshape
      have hplain := hbounded.argument (fun c => mark_of_isBoundary) ha htext
      exact .given ha hbounded.closed (fun c hc => Bool.eq_false_iff.2 (hplain c hc))
        (ih hparameters hslots)
  | @last p a hshape ha hbrace =>
    cases hslots with
    | @cons slot _ slots _ hof hslots =>
      cases hslots
      obtain ⟨shape, hshape', rfl⟩ := hof
      obtain rfl : Shape.text = shape := Except.ok.inj (hshape.symm.trans hshape')
      exact .last ha hbrace

/-! ## Reading what was written -/

/-- A written token with no brace before it is what is found first, as it was written. -/
theorem first_occurrence_written {name : String} {parameters : List Parameter}
    (hname : name.toList.head? ≠ some '!') (hschema : WellFormed parameters)
    (hoptions : OptionsAvoid (isBoundary · = true) parameters) {t : Token}
    (hspelled : Text.sameFolded name.toList t.name) (harguments : Renderable parameters t.arguments)
    {before : String} (hbefore : '{' ∉ before.toList) (after : String) :
    ∃ p, TokenPattern.ofSchema name parameters = .ok p ∧
      (p.occurrences (before ++ String.ofList t.text ++ after).toList).head? =
        some ⟨before.utf8ByteSize, before.utf8ByteSize + (String.ofList t.text).utf8ByteSize, t⟩ ∧
      t.escapes = !t.marked := by
  obtain ⟨slots, hp, hslots⟩ := TokenPattern.ofSchema_eq_ok name hschema
  refine ⟨_, hp, ?_, Token.escapes_eq ?_⟩
  · have hmatch := TokenPattern.match?_written (p := ⟨name.toList, slots⟩) hspelled hname
      (harguments.written hoptions hslots) after.toList
    have hpieces : TokenPattern.pieces ⟨name.toList, slots⟩
        (before ++ String.ofList t.text ++ after).toList =
          before.toList.map .char ++
            .token t :: TokenPattern.pieces ⟨name.toList, slots⟩ after.toList := by
      rw [String.toList_append, String.toList_append, String.toList_ofList, List.append_assoc,
        TokenPattern.pieces_plain_append hbefore, TokenPattern.pieces_token_append hmatch]
    rw [TokenPattern.occurrences, hpieces, occurrencesFrom_chars_append, occurrencesFrom,
      utf8Length_eq_utf8ByteSize, utf8Length_eq_utf8ByteSize, String.ofList_toList, Nat.zero_add]
    rfl
  · exact Text.head_ne_mark_of_sameFolded (by decide) hspelled hname

def logSchema : List Parameter :=
  [.optional (.integer "count"), .choice "mode" ["re", "relative"], .text "message"]

theorem wellFormed_logSchema : WellFormed logSchema := by
  intro p hp
  simp only [logSchema, List.mem_cons, List.not_mem_nil, or_false] at hp
  rcases hp with rfl | rfl | rfl
  · exact ⟨.integer, rfl⟩
  · exact ⟨.choice ["re", "relative"], rfl⟩
  · exact ⟨.text, rfl⟩

theorem optionsAvoid_logSchema : OptionsAvoid (isBoundary · = true) logSchema := by
  intro p hp shape hshape
  simp only [logSchema, List.mem_cons, List.not_mem_nil, or_false] at hp
  rcases hp with rfl | rfl | rfl
  · cases hshape
    trivial
  · cases hshape
    have hplain : ∀ option ∈ ["re", "relative"], option.toList.all (!isBoundary ·) := by decide
    intro option hoption c hc
    simpa using List.all_eq_true.1 (hplain option hoption) c hc
  · cases hshape
    trivial

/-- Digits of another script, a longer option than the first that fits, and a colon in the text. -/
def logToken : Token :=
  ⟨true, "LOG".toList, [some "٣".toList, some "Relative".toList, some "a:b".toList]⟩

theorem renderable_logToken : Renderable logSchema logToken.arguments := by
  have hdigit : ∀ c ∈ "٣".toList, Text.isDecimalDigit c := by
    rw [← List.forall_iff_forall_mem]
    decide +kernel
  have hline : ∀ c ∈ "a:b".toList, c ≠ '\n' := by
    rw [← List.forall_iff_forall_mem]
    decide +kernel
  have hcount : (Parameter.integer "count").optional.shape = .ok .integer := rfl
  have hmode : (Parameter.choice "mode" ["re", "relative"]).shape =
      .ok (.choice ["re", "relative"]) := rfl
  refine .given hcount ⟨by decide, hdigit⟩ (fun h => by cases h) ?_
  refine .given hmode ?_ (fun h => by cases h) ?_
  · exact ⟨"relative".toList, by decide, by decide +kernel⟩
  · exact .last rfl ⟨by decide, hline⟩ (by decide)

def logBefore : String := "é\x7d\x7d "

def logAfter : String := "\x7d\x7d :b\x7d\x7d"

theorem first_occurrence_written_log :
    "log".toList.head? ≠ some '!' ∧ WellFormed logSchema ∧
      OptionsAvoid (isBoundary · = true) logSchema ∧
      Text.sameFolded "log".toList logToken.name ∧ Renderable logSchema logToken.arguments ∧
      '{' ∉ logBefore.toList ∧
      ∃ p, TokenPattern.ofSchema "log" logSchema = .ok p ∧
        (p.occurrences (logBefore ++ String.ofList logToken.text ++ logAfter).toList).head? =
          some ⟨logBefore.utf8ByteSize,
            logBefore.utf8ByteSize + (String.ofList logToken.text).utf8ByteSize, logToken⟩ ∧
        logToken.escapes = !logToken.marked :=
  have hname : "log".toList.head? ≠ some '!' := by decide
  have hspelled : Text.sameFolded "log".toList logToken.name := by decide +kernel
  have hbefore : '{' ∉ logBefore.toList := by decide
  ⟨hname, wellFormed_logSchema, optionsAvoid_logSchema, hspelled, renderable_logToken, hbefore,
    first_occurrence_written hname wellFormed_logSchema optionsAvoid_logSchema hspelled
      renderable_logToken hbefore logAfter⟩

end CommandTemplate
