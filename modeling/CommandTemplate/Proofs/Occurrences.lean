import CommandTemplate.Proofs.Acceptance
import Mathlib.Data.List.Forall2

/-!
# The occurrences of a variable

The tokens of a schema, said without a pattern, and what a scan finds of them: every occurrence is
such a token and stands where it says, no two overlap, and no token of the schema begins in a place
that the scan has passed over.
-/
namespace CommandTemplate

/-- What may stand in the place of a parameter; nothing at all only if it is optional. -/
def Parameter.Takes (p : Parameter) : Option (List Char) → Prop
  | some a => ∃ shape, p.shape = .ok shape ∧ shape.admission.Admits a
  | none => p.required = false

structure IsTokenOf (name : String) (parameters : List Parameter) (t : Token) : Prop where
  name : Text.sameFolded name.toList t.name
  arguments : List.Forall₂ Parameter.Takes parameters t.arguments

/-- The text takes up the bytes from `start` up to `stop` of the content. -/
def Occupies (content : String) (start stop : Nat) (text : String) : Prop :=
  ∃ before after, content = before ++ text ++ after ∧ start = before.utf8ByteSize ∧
    stop = start + text.utf8ByteSize

def WellFormed (parameters : List Parameter) : Prop :=
  ∀ p ∈ parameters, ∃ shape, p.shape = .ok shape

/-! ## From a schema to its pattern -/

def Slot.Of (slot : Slot) (p : Parameter) : Prop :=
  ∃ shape, p.shape = .ok shape ∧ slot = ⟨shape.admission, p.required⟩

theorem Parameter.slot_eq_ok {name : String} {p : Parameter} {slot : Slot}
    (h : slot.Of p) : p.slot name = .ok slot := by
  obtain ⟨shape, hs, rfl⟩ := h
  rw [Parameter.slot, hs]

/-- A well-formed schema has a slot for each parameter. -/
theorem mapM_slot (name : String) {parameters : List Parameter} (h : WellFormed parameters) :
    ∃ slots, parameters.mapM (Parameter.slot name) = .ok slots ∧
      List.Forall₂ Slot.Of slots parameters := by
  induction parameters with
  | nil => exact ⟨[], rfl, .nil⟩
  | cons p parameters ih =>
    obtain ⟨⟨shape, hs⟩, hp⟩ := List.forall_mem_cons.1 h
    obtain ⟨slots, hm, hslots⟩ := ih hp
    have hof : Slot.Of ⟨shape.admission, p.required⟩ p := ⟨shape, hs, rfl⟩
    refine ⟨_ :: slots, ?_, .cons hof hslots⟩
    rw [List.mapM_cons, Parameter.slot_eq_ok hof, hm]
    rfl

theorem TokenPattern.ofSchema_eq_ok (name : String) {parameters : List Parameter}
    (h : WellFormed parameters) :
    ∃ slots, ofSchema name parameters = .ok ⟨name.toList, slots⟩ ∧
      List.Forall₂ Slot.Of slots parameters := by
  obtain ⟨slots, hm, hslots⟩ := mapM_slot name h
  refine ⟨slots, ?_, hslots⟩
  rw [ofSchema, hm]
  rfl

theorem Slot.Of.takes {slot : Slot} {p : Parameter} (h : slot.Of p) (a : List Char) :
    p.Takes (some a) ↔ slot.admits.Admits a := by
  obtain ⟨shape, hs, rfl⟩ := h
  simp [Parameter.Takes, hs]

/-- Slots are filled by what their parameters take. -/
theorem fills_iff_forall₂ {slots : List Slot} {parameters : List Parameter}
    (h : List.Forall₂ Slot.Of slots parameters) (arguments : List (Option (List Char))) :
    Fills slots arguments ↔ List.Forall₂ Parameter.Takes parameters arguments := by
  induction h generalizing arguments with
  | nil =>
    constructor
    · rintro ⟨⟩
      exact .nil
    · rintro ⟨⟩
      exact .nil
  | @cons slot p slots parameters hof _ ih =>
    have hreq : slot.required = p.required := by
      obtain ⟨shape, -, rfl⟩ := hof
      rfl
    constructor
    · intro hf
      cases hf with
      | given ha hf => exact .cons ((hof.takes _).2 ha) ((ih _).1 hf)
      | omitted hr hf => exact .cons (hreq.symm.trans hr) ((ih _).1 hf)
    · intro hf
      cases hf with
      | @cons _ a _ arguments ha hf =>
        cases a with
        | some a => exact .given ((hof.takes a).1 ha) ((ih _).2 hf)
        | none => exact .omitted (hreq.trans ha) ((ih _).2 hf)

/-- A pattern has the tokens of the schema that it was made from. -/
theorem TokenPattern.derives_iff (name : String) {slots : List Slot} {parameters : List Parameter}
    (h : List.Forall₂ Slot.Of slots parameters) (t : Token) :
    TokenPattern.Derives ⟨name.toList, slots⟩ t ↔ IsTokenOf name parameters t :=
  ⟨fun hd => ⟨hd.name, (fills_iff_forall₂ h _).1 hd.arguments⟩,
    fun ht => ⟨ht.name, (fills_iff_forall₂ h _).2 ht.arguments⟩⟩

/-! ## Scanning -/

theorem Token.text_ne_nil (t : Token) : t.text ≠ [] := by simp [Token.text]

namespace TokenPattern

/-- What a scan skips has no say in the pieces behind it. -/
theorem scan_eq_pieces_drop (p : TokenPattern) (skip : Nat) (s : List Char) :
    p.scan skip s = p.pieces (s.drop skip) := by
  induction s generalizing skip with
  | nil => simp [pieces, scan]
  | cons c s ih =>
    cases skip with
    | zero => rfl
    | succ skip => simpa [scan] using ih skip

theorem pieces_cons_of_eq_none {p : TokenPattern} {c : Char} {s : List Char}
    (h : p.match? (c :: s) = none) : p.pieces (c :: s) = .char c :: p.pieces s := by
  rw [pieces, scan, h]
  rfl

theorem pieces_token_append {p : TokenPattern} {t : Token} {rest : List Char}
    (h : p.match? (t.text ++ rest) = some t) :
    p.pieces (t.text ++ rest) = .token t :: p.pieces rest := by
  cases ht : t.text with
  | nil => exact absurd ht t.text_ne_nil
  | cons c cs =>
    rw [ht, List.cons_append] at h
    rw [List.cons_append, pieces, scan, h]
    simp [ht, scan_eq_pieces_drop]

/-- A text is read from its start: a token as a whole, or else one character. -/
theorem pieces_induction (p : TokenPattern) {motive : List Char → Prop} (nil : motive [])
    (token : ∀ t rest, p.Derives t → p.match? (t.text ++ rest) = some t → motive rest →
      motive (t.text ++ rest))
    (char : ∀ c s, p.match? (c :: s) = none → motive s → motive (c :: s))
    (s : List Char) : motive s := by
  induction hn : s.length using Nat.strongRecOn generalizing s with
  | ind n ih =>
    cases s with
    | nil => exact nil
    | cons c s =>
      cases hm : p.match? (c :: s) with
      | none =>
        refine char c s hm (ih s.length ?_ s rfl)
        simp [← hn]
      | some t =>
        obtain ⟨hd, rest, hs⟩ := match?_eq_some hm
        rw [hs] at hm hn ⊢
        refine token t rest hd hm (ih rest.length ?_ rest rfl)
        have hpos := List.length_pos_of_ne_nil t.text_ne_nil
        rw [List.length_append] at hn
        omega

/-- A token among the pieces of a text is what the matcher finds in front of the pieces behind. -/
theorem match?_of_pieces_eq {p : TokenPattern} {s : List Char} {before after : List Piece}
    {t : Token} (h : p.pieces s = before ++ .token t :: after) :
    p.match? (t.text ++ after.flatMap Piece.text) = some t := by
  induction s using p.pieces_induction generalizing before with
  | nil => simp [pieces, scan] at h
  | token t' rest hd hm ih =>
    rw [pieces_token_append hm] at h
    cases before with
    | nil =>
      obtain ⟨ht, rfl⟩ := List.cons.inj h
      rw [← Piece.token.inj ht, flatMap_text_pieces]
      exact hm
    | cons piece before => exact ih (List.cons.inj h).2
  | char c s hm ih =>
    rw [pieces_cons_of_eq_none hm] at h
    cases before with
    | nil => simp at h
    | cons piece before => exact ih (List.cons.inj h).2

/-- Every token that is found is one of the pattern. -/
theorem derives_of_mem_pieces {p : TokenPattern} {s : List Char} {t : Token}
    (h : .token t ∈ p.pieces s) : p.Derives t := by
  obtain ⟨before, after, hpieces⟩ := List.append_of_mem h
  exact (match?_eq_some (match?_of_pieces_eq hpieces)).1

end TokenPattern

/-! ## Bytes -/

@[simp] theorem utf8Length_append (s t : List Char) :
    utf8Length (s ++ t) = utf8Length s + utf8Length t := by
  induction s with
  | nil => simp [utf8Length]
  | cons c s ih => simp [utf8Length, ih, Nat.add_assoc]

/-- The length in bytes is the one that texts are measured by. -/
theorem utf8Length_eq_utf8ByteSize (s : List Char) :
    utf8Length s = (String.ofList s).utf8ByteSize := by
  induction s with
  | nil => rfl
  | cons c s ih =>
    have hsplit : String.ofList (c :: s) = String.singleton c ++ String.ofList s := by
      rw [← String.toList_inj]
      simp
    rw [utf8Length, ih, hsplit, String.utf8ByteSize_append, String.utf8ByteSize_singleton]

theorem utf8Length_pos {s : List Char} (h : s ≠ []) : 0 < utf8Length s := by
  cases s with
  | nil => exact absurd rfl h
  | cons c s =>
    have := c.utf8Size_pos
    rw [utf8Length]
    omega

/-- An occurrence is a token among the pieces, at the bytes behind those of the pieces before it. -/
theorem mem_occurrencesFrom {start : Nat} {ps : List Piece} {o : Occurrence}
    (h : o ∈ occurrencesFrom start ps) :
    ∃ before after, ps = before ++ .token o.token :: after ∧
      o.start = start + utf8Length (before.flatMap Piece.text) ∧
      o.stop = o.start + utf8Length o.token.text := by
  induction ps generalizing start with
  | nil => simp [occurrencesFrom] at h
  | cons piece ps ih =>
    cases piece with
    | char c =>
      obtain ⟨before, after, rfl, hstart, hstop⟩ := ih h
      refine ⟨.char c :: before, after, rfl, ?_, hstop⟩
      simp [hstart, utf8Length, Nat.add_assoc]
    | token t =>
      rcases List.mem_cons.1 h with rfl | h
      · exact ⟨[], ps, rfl, by simp [utf8Length], rfl⟩
      · obtain ⟨before, after, rfl, hstart, hstop⟩ := ih h
        refine ⟨.token t :: before, after, rfl, ?_, hstop⟩
        simp [hstart, Nat.add_assoc]

theorem occurrencesFrom_chars_append (start : Nat) (s : List Char) (ps : List Piece) :
    occurrencesFrom start (s.map .char ++ ps) = occurrencesFrom (start + utf8Length s) ps := by
  induction s generalizing start with
  | nil => rfl
  | cons c s ih =>
    rw [List.map_cons, List.cons_append, occurrencesFrom, ih, utf8Length, Nat.add_assoc]

/-- Occurrences stand behind one another and do not overlap. -/
theorem occurrencesFrom_pairwise (start : Nat) (ps : List Piece) :
    (occurrencesFrom start ps).Pairwise fun o o' => o.stop ≤ o'.start := by
  induction ps generalizing start with
  | nil => exact .nil
  | cons piece ps ih =>
    cases piece with
    | char c => exact ih _
    | token t =>
      refine .cons ?_ (ih _)
      intro o ho
      obtain ⟨before, after, -, hstart, -⟩ := mem_occurrencesFrom ho
      dsimp only
      omega

/-- A token of the pattern never begins outside the occurrences. -/
theorem exists_occurrence_over {p : TokenPattern} {t : Token} (ht : p.Derives t)
    {s before after : List Char} (hs : s = before ++ t.text ++ after) (start : Nat) :
    ∃ o ∈ occurrencesFrom start (p.pieces s), o.start ≤ start + utf8Length before ∧
      start + utf8Length before < o.stop := by
  induction s using p.pieces_induction generalizing before start with
  | nil =>
    have := t.text_ne_nil
    simp_all
  | token t' rest hd hm ih =>
    rw [TokenPattern.pieces_token_append hm]
    by_cases hlen : before.length < t'.text.length
    · -- the token begins inside the one that the scan finds first
      have hpre : before <+: t'.text :=
        List.prefix_of_prefix_length_le ⟨t.text ++ after, by rw [hs, List.append_assoc]⟩
          (List.prefix_append _ _) (Nat.le_of_lt hlen)
      obtain ⟨inner, hinner⟩ := hpre
      have hne : inner ≠ [] := by
        rintro rfl
        rw [← hinner] at hlen
        simp at hlen
      have hpos := utf8Length_pos hne
      refine ⟨⟨start, start + utf8Length t'.text, t'⟩, List.mem_cons_self .., by simp, ?_⟩
      dsimp only
      rw [← hinner, utf8Length_append]
      omega
    · have hpre : t'.text <+: before :=
        List.prefix_of_prefix_length_le (List.prefix_append _ _)
          ⟨t.text ++ after, by rw [hs, List.append_assoc]⟩ (by omega)
      obtain ⟨before', rfl⟩ := hpre
      have hrest : rest = before' ++ t.text ++ after := by simpa using hs
      obtain ⟨o, ho, hstart, hstop⟩ := ih hrest (start + utf8Length t'.text)
      refine ⟨o, List.mem_cons_of_mem _ ho, ?_, ?_⟩
      all_goals rw [utf8Length_append]; omega
  | char c s hm ih =>
    rw [TokenPattern.pieces_cons_of_eq_none hm]
    cases before with
    | nil =>
      have hsome := TokenPattern.isSome_match? ht after
      rw [List.nil_append] at hs
      rw [← hs, hm] at hsome
      simp at hsome
    | cons b before =>
      simp only [List.cons_append, List.cons.injEq] at hs
      obtain ⟨rfl, hs⟩ := hs
      obtain ⟨o, ho, hstart, hstop⟩ := ih hs (start + c.utf8Size)
      refine ⟨o, ho, ?_, ?_⟩
      all_goals rw [utf8Length]; omega

/-! ## The scan of a text -/

/-- What is found are the tokens of the schema in the content, where they stand; wherever one of
them begins, it begins in one that is found. -/
structure FindsExactly (name : String) (parameters : List Parameter) (content : String)
    (found : List Occurrence) : Prop where
  nonempty : ∀ o ∈ found, o.start < o.stop
  occupies : ∀ o ∈ found, Occupies content o.start o.stop (String.ofList o.token.text)
  apart : found.Pairwise fun o o' => o.stop ≤ o'.start
  tokens : ∀ o ∈ found, IsTokenOf name parameters o.token
  escapes : ∀ o ∈ found, o.token.escapes = !o.token.marked
  complete : ∀ t start stop, IsTokenOf name parameters t →
    Occupies content start stop (String.ofList t.text) →
    ∃ o ∈ found, o.start ≤ start ∧ start < o.stop

/-- A mark is all that keeps a value from being escaped when no name begins with it. -/
theorem Token.escapes_eq {t : Token} (h : t.name.head? ≠ some '!') : t.escapes = !t.marked := by
  rw [escapes, beq_eq_false_iff_ne.2 h, Bool.or_false]

/-- A part of a text takes up the bytes behind those of the part before it. -/
theorem Occupies.of_toList {content : String} {before after text : List Char}
    (h : content.toList = before ++ text ++ after) :
    Occupies content (utf8Length before) (utf8Length before + utf8Length text)
      (String.ofList text) := by
  refine ⟨String.ofList before, String.ofList after, ?_, utf8Length_eq_utf8ByteSize _, ?_⟩
  · rw [← String.toList_inj]
    simpa using h
  · rw [utf8Length_eq_utf8ByteSize text]

theorem Occupies.exists_toList {content : String} {start stop : Nat} {text : List Char}
    (h : Occupies content start stop (String.ofList text)) :
    ∃ before after, content.toList = before ++ text ++ after ∧ start = utf8Length before := by
  obtain ⟨before, after, rfl, hstart, -⟩ := h
  refine ⟨before.toList, after.toList, by simp, ?_⟩
  rw [hstart, utf8Length_eq_utf8ByteSize, String.ofList_toList]

/-- The pattern of a well-formed schema finds exactly the tokens of the schema. -/
theorem occurrences_exact (name : String) (parameters : List Parameter) (content : String)
    (hname : name.toList.head? ≠ some '!') (hschema : WellFormed parameters) :
    ∃ p, TokenPattern.ofSchema name parameters = .ok p ∧
      FindsExactly name parameters content (p.occurrences content.toList) := by
  obtain ⟨slots, hp, hslots⟩ := TokenPattern.ofSchema_eq_ok name hschema
  have hderives := TokenPattern.derives_iff name hslots
  refine ⟨_, hp, ?_⟩
  have htoken : ∀ o ∈ TokenPattern.occurrences ⟨name.toList, slots⟩ content.toList,
      IsTokenOf name parameters o.token := by
    intro o ho
    obtain ⟨before, after, hpieces, -, -⟩ := mem_occurrencesFrom ho
    exact (hderives _).1 (TokenPattern.derives_of_mem_pieces (by rw [hpieces]; simp))
  constructor
  case nonempty =>
    intro o ho
    obtain ⟨-, -, -, -, hstop⟩ := mem_occurrencesFrom ho
    have hpos := utf8Length_pos o.token.text_ne_nil
    omega
  case occupies =>
    intro o ho
    obtain ⟨before, after, hpieces, hstart, hstop⟩ := mem_occurrencesFrom ho
    have htext := TokenPattern.flatMap_text_pieces ⟨name.toList, slots⟩ content.toList
    rw [hpieces, List.flatMap_append, List.flatMap_cons, ← List.append_assoc] at htext
    have hoccupies := Occupies.of_toList htext.symm
    rw [Nat.zero_add] at hstart
    rw [hstop, hstart]
    exact hoccupies
  case apart => exact occurrencesFrom_pairwise 0 _
  case tokens => exact htoken
  case escapes =>
    intro o ho
    exact Token.escapes_eq
      (Text.head_ne_mark_of_sameFolded (by decide) (htoken o ho).name hname)
  case complete =>
    intro t start stop ht hoccupies
    obtain ⟨before, after, htext, rfl⟩ := hoccupies.exists_toList
    obtain ⟨o, ho, hstart, hstop⟩ := exists_occurrence_over ((hderives t).2 ht) htext 0
    rw [Nat.zero_add] at hstart hstop
    exact ⟨o, ho, hstart, hstop⟩

def pathSchema : List Parameter :=
  [.choice "mode" ["absolute", "relative"], .optional (.integer "depth")]

theorem wellFormed_pathSchema : WellFormed pathSchema := by
  intro p hp
  simp only [pathSchema, List.mem_cons, List.not_mem_nil, or_false] at hp
  rcases hp with rfl | rfl
  · exact ⟨.choice ["absolute", "relative"], rfl⟩
  · exact ⟨.integer, rfl⟩

theorem occurrences_exact_path :
    "path".toList.head? ≠ some '!' ∧ WellFormed pathSchema ∧
      ∃ p, TokenPattern.ofSchema "path" pathSchema = .ok p ∧
        FindsExactly "path" pathSchema "é{{!PATH:Relative:7}}{{path:absolute}}"
          (p.occurrences "é{{!PATH:Relative:7}}{{path:absolute}}".toList) :=
  have hname : "path".toList.head? ≠ some '!' := by decide
  ⟨hname, wellFormed_pathSchema, occurrences_exact _ _ _ hname wellFormed_pathSchema⟩

/-- The two bytes of the first letter count, and the mark and the arguments are told apart. -/
example :
    (TokenPattern.ofSchema "path" pathSchema).toOption.map
        (·.occurrences "é{{!PATH:Relative:7}}{{path:absolute}}".toList) =
      some [⟨2, 22, ⟨true, "PATH".toList, [some "Relative".toList, some ['7']]⟩⟩,
        ⟨22, 39, ⟨false, "path".toList, [some "absolute".toList, none]⟩⟩] := by decide +kernel

end CommandTemplate
