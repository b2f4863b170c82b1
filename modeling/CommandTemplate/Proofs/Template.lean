import CommandTemplate.Proofs.Builtins
import CommandTemplate.Proofs.Rendering
import CommandTemplate.Proofs.Stateless

/-!
# Templates

A template is written as literal text with tokens in it, and means the literal text with the values
of the tokens in their places. Every variable reads the whole text and finds in it just its own
tokens, so the turns can be taken in any order.
-/
namespace CommandTemplate

/-- A part of a template: text that stands for itself, or a token with the value it is to have. -/
inductive TemplatePart where
  | literal (text : List Char)
  | token (source : Variable) (marked : Bool) (arguments : List (Option (List Char)))
    (value : String)

namespace TemplatePart

def text : TemplatePart → List Char
  | literal s => s
  | token v marked arguments _ => Token.text ⟨marked, v.name.toList, arguments⟩

/-- What the part stands for: a value is written for the shell unless its token is marked. -/
def meaning (escaper : Option Escaper) : TemplatePart → List Char
  | literal s => s
  | token _ true _ value => value.toList
  | token _ false _ value => (escaper.getD id) value.toList

def isToken : TemplatePart → Bool
  | literal _ => false
  | token .. => true

end TemplatePart

def Braceless (s : List Char) : Prop := '{' ∉ s ∧ '}' ∉ s

instance (s : List Char) : Decidable (Braceless s) := inferInstanceAs (Decidable (_ ∧ _))

/-- None of the characters that a token is divided by stands in the text. -/
def Undivided (s : List Char) : Prop := Braceless s ∧ ':' ∉ s

instance (s : List Char) : Decidable (Undivided s) := inferInstanceAs (Decidable (_ ∧ _))

/-- Arguments for the parameters of a schema: texts are undivided, and only the last ones are left
out, for optional parameters. -/
inductive Supplied : List Parameter → List (Option (List Char)) → Prop where
  | omitted {parameters : List Parameter} :
    (∀ p ∈ parameters, p.required = false) →
    Supplied parameters (List.replicate parameters.length none)
  | given {p : Parameter} {parameters shape a arguments} :
    p.shape = .ok shape → shape.admission.Admits a → (shape = .text → Undivided a) →
    Supplied parameters arguments → Supplied (p :: parameters) (some a :: arguments)

def OptionsUndivided (parameters : List Parameter) : Prop :=
  ∀ p ∈ parameters, ∀ options, p.shape = .ok (.choice options) →
    ∀ option ∈ options, Undivided option.toList

structure Distinguishable (vs : List Variable) : Prop where
  names : ∀ v ∈ vs, Undivided v.name.toList ∧ v.name.toList.head? ≠ some '!'
  distinct : vs.Pairwise fun v w => ¬Text.sameFolded v.name.toList w.name.toList
  schemas : ∀ v ∈ vs, WellFormed v.parameters
  options : ∀ v ∈ vs, OptionsUndivided v.parameters
  determined : ∀ v ∈ vs, v.Determined

/-- The part can stand in a template for these variables. -/
inductive TemplatePart.Fits (vs : List Variable) : TemplatePart → Prop where
  | literal {s : List Char} : Braceless s → Fits vs (.literal s)
  | token {v : Variable} {marked arguments value} : v ∈ vs → Supplied v.parameters arguments →
    v.outcome arguments = .ok value → Braceless value.toList →
    Fits vs (.token v marked arguments value)

/-! ## Values bring no braces with them -/

/-- Between quotes stand the characters of the value, and those that its characters are written
with. -/
theorem mem_of_mem_quoted {written : Char → List Char} (added : Char → Prop) (hquote : added '\'')
    (hwritten : ∀ d, ∀ c ∈ written d, c = d ∨ added c) {c : Char} {s : List Char}
    (h : c ∈ '\'' :: (s.flatMap written ++ ['\''])) : c ∈ s ∨ added c := by
  simp only [List.mem_cons, List.mem_append, List.mem_flatMap, List.not_mem_nil, or_false] at h
  rcases h with rfl | ⟨d, hd, h⟩ | rfl
  · exact .inr hquote
  · rcases hwritten d c h with rfl | hc
    · exact .inl hd
    · exact .inr hc
  · exact .inr hquote

theorem Posix.mem_encode {c : Char} {s : List Char} (h : c ∈ Posix.encode s) :
    c ∈ s ∨ c = '\'' ∨ c = '\\' := by
  rw [Posix.encode] at h
  split at h
  · exact .inl h
  · refine mem_of_mem_quoted (fun c => c = '\'' ∨ c = '\\') (.inl rfl) (fun d c hc => ?_) h
    rw [Posix.quotedChar] at hc
    split at hc
    · simp only [List.mem_cons, List.not_mem_nil, or_false] at hc
      tauto
    · exact .inl (List.mem_singleton.1 hc)

theorem PowerShell.mem_encode {c : Char} {s : List Char} (h : c ∈ PowerShell.encode s) :
    c ∈ s ∨ c = '\'' := by
  rw [PowerShell.encode] at h
  split at h
  · exact .inl h
  · refine mem_of_mem_quoted (· = '\'') rfl (fun d c hc => ?_) h
    rw [PowerShell.doubled] at hc
    split at hc <;> exact .inl (by simpa using hc)

/-- Quoting adds quotes and backslashes only. -/
theorem Quoting.mem_encode {q : Quoting} {c : Char} {s : List Char} (h : c ∈ q.encode s) :
    c ∈ s ∨ c = '\'' ∨ c = '\\' := by
  cases q with
  | posix => exact Posix.mem_encode h
  | powerShell => exact (PowerShell.mem_encode h).imp_right .inl
  | verbatim => exact .inl h

/-- Encoding brings in quotes and backslashes at most. -/
theorem Quoting.not_mem_encode (q : Quoting) {c : Char} {s : List Char} (h : c ∉ s)
    (hquote : c ≠ '\'') (hbackslash : c ≠ '\\') : c ∉ q.encode s := by
  intro hmem
  rcases Quoting.mem_encode hmem with hs | hs | hs
  · exact h hs
  · exact hquote hs
  · exact hbackslash hs

theorem not_mem_insertedText {c : Char} (hquote : c ≠ '\'') (hbackslash : c ≠ '\\')
    (quoting : Option Quoting) (t : Token) {value : List Char} (h : c ∉ value) :
    c ∉ insertedText (quoting.map Quoting.encode) t (String.ofList value) := by
  rw [insertedText.eq_def, String.toList_ofList]
  cases quoting with
  | none => exact h
  | some q =>
    rw [Option.map_some]
    dsimp only
    split
    · exact q.not_mem_encode h hquote hbackslash
    · exact h

/-- The escaper, if there is one, writes no brace that does not stand in the value. -/
def AddsNoBrace (escaper : Option Escaper) : Prop :=
  ∀ encode ∈ escaper, ∀ s, Braceless s → Braceless (encode s)

/-- None of the ways of quoting writes braces of its own. -/
theorem addsNoBrace_quoting (quoting : Option Quoting) :
    AddsNoBrace (quoting.map Quoting.encode) := by
  intro encode hencode s hs
  obtain ⟨q, -, rfl⟩ := Option.map_eq_some_iff.1 hencode
  exact ⟨q.not_mem_encode hs.1 (by decide) (by decide),
    q.not_mem_encode hs.2 (by decide) (by decide)⟩

theorem TemplatePart.Fits.braceless_meaning {vs : List Variable} {x : TemplatePart}
    (h : x.Fits vs) {escaper : Option Escaper} (hescaper : AddsNoBrace escaper) :
    Braceless (x.meaning escaper) := by
  cases h with
  | literal hs => exact hs
  | @token v marked arguments value _ _ _ hvalue =>
    cases marked with
    | true => exact hvalue
    | false =>
      cases escaper with
      | none => exact hvalue
      | some encode => exact hescaper encode rfl _ hvalue

/-! ## Arguments in a template can be read back -/

theorem undivided_iff {s : List Char} : Undivided s ↔ ∀ c ∈ s, c ∉ ['{', '}', ':'] := by
  simp only [Undivided, Braceless, List.mem_cons, List.not_mem_nil, or_false, not_or]
  grind

theorem not_isBoundary_of_undivided {s : List Char} (h : Undivided s) :
    ∀ c ∈ s, isBoundary c = false := by
  intro c hc
  rw [isBoundary, Bool.or_eq_false_iff, beq_eq_false_iff_ne, beq_eq_false_iff_ne]
  exact ⟨fun he => h.2 (he ▸ hc), fun he => h.1.2 (he ▸ hc)⟩

theorem OptionsUndivided.avoid {parameters : List Parameter} (h : OptionsUndivided parameters) :
    OptionsAvoid (· ∈ ['{', '}', ':']) parameters := by
  intro p hp shape hshape
  cases shape with
  | text => trivial
  | integer => trivial
  | choice options =>
    intro option hoption
    exact undivided_iff.1 (h p hp options hshape option hoption)

/-- Whatever its kind, an argument in a template has none of the dividing characters. -/
theorem undivided_argument {shape : Shape} {a : List Char}
    (hoptions : shape.Avoids (· ∈ ['{', '}', ':'])) (ha : shape.admission.Admits a)
    (htext : shape = .text → Undivided a) : Undivided a := by
  have hmarks : ∀ c, c ∈ ['{', '}', ':'] → c ∈ Text.marks := by
    intro c hc
    simp only [List.mem_cons, List.not_mem_nil, or_false] at hc
    rcases hc with rfl | rfl | rfl <;> decide
  exact undivided_iff.2 (hoptions.argument hmarks ha fun h => undivided_iff.1 (htext h))

/-- The arguments of a template are such as can be written and read back. -/
theorem Supplied.renderable {parameters : List Parameter} {arguments : List (Option (List Char))}
    (h : Supplied parameters arguments) : Renderable parameters arguments := by
  induction h with
  | omitted hoptional => exact .omitted hoptional
  | given hshape ha htext _ ih =>
    refine .given hshape ha (fun h c hc => ?_) ih
    simp [not_isBoundary_of_undivided (htext h) c hc]

/-- Arguments without marks are read back from the slots. -/
theorem Supplied.written {parameters : List Parameter} {arguments : List (Option (List Char))}
    (h : Supplied parameters arguments) (hoptions : OptionsUndivided parameters)
    {slots : List Slot} (hslots : List.Forall₂ Slot.Of slots parameters) :
    Written slots arguments := by
  have hbounded : OptionsAvoid (isBoundary · = true) parameters := by
    refine hoptions.avoid.mono fun c hc => ?_
    rw [isBoundary, Bool.or_eq_true, beq_iff_eq, beq_iff_eq] at hc
    rcases hc with rfl | rfl <;> decide
  exact h.renderable.written hbounded hslots

theorem Supplied.brace_not_mem_tail {parameters : List Parameter}
    {arguments : List (Option (List Char))} (h : Supplied parameters arguments)
    (hoptions : OptionsUndivided parameters) : '{' ∉ Token.tailText arguments := by
  induction h with
  | omitted _ =>
    rw [tailText_replicate_none]
    decide
  | @given p parameters shape a arguments hshape ha htext _ ih =>
    obtain ⟨-, hparameters⟩ := List.forall_mem_cons.1 hoptions
    have havoid := hoptions.avoid p (List.mem_cons_self ..) shape hshape
    have hbrace := (undivided_argument havoid ha htext).1.1
    have htail := ih hparameters
    simp at htail ⊢
    exact ⟨hbrace, htail⟩

/-! ## One turn -/

theorem substituted_chars (escaper : Option Escaper) (v : Variable) (s : List Char)
    (ps : List Piece) :
    v.substituted escaper (s.map .char ++ ps) =
      (v.substituted escaper ps).map fun (s', n) => (s ++ s', n) := by
  induction s with
  | nil =>
    rw [List.map_nil, List.nil_append]
    cases v.substituted escaper ps <;> rfl
  | cons c s ih =>
    rw [List.map_cons, List.cons_append, Variable.substituted, ih]
    cases v.substituted escaper ps <;> rfl

namespace TemplatePart

/-- What a turn of the variable leaves of the part: its own tokens become text. -/
def settle (escaper : Option Escaper) (v : Variable) : TemplatePart → TemplatePart
  | literal s => literal s
  | token w marked arguments value =>
    if Text.sameFolded v.name.toList w.name.toList then
      literal ((token w marked arguments value).meaning escaper)
    else token w marked arguments value

def isOf (v : Variable) : TemplatePart → Bool
  | literal _ => false
  | token w .. => Text.sameFolded v.name.toList w.name.toList

@[simp] theorem meaning_settle (escaper : Option Escaper) (v : Variable) (x : TemplatePart) :
    (x.settle escaper v).meaning escaper = x.meaning escaper := by
  cases x with
  | literal s => rfl
  | token w marked arguments value =>
    rw [settle]
    split <;> rfl

/-- A turn takes the tokens of its variable from those that stand. -/
theorem countP_settle (escaper : Option Escaper) (v : Variable) (template : List TemplatePart) :
    template.countP isToken =
      template.countP (isOf v) + (template.map (settle escaper v)).countP isToken := by
  induction template with
  | nil => rfl
  | cons x template ih =>
    cases x with
    | literal s => simpa [List.countP_cons, settle, isOf, isToken] using ih
    | token w marked arguments value =>
      cases hw : Text.sameFolded v.name.toList w.name.toList
      all_goals
        simp [List.countP_cons, settle, isOf, isToken, hw, ih]
        omega

end TemplatePart

/-- What takes the place of a token is what the template says it means. -/
theorem insertedText_eq_meaning (escaper : Option Escaper) {w : Variable}
    (hw : w.name.toList.head? ≠ some '!') (marked : Bool)
    (arguments : List (Option (List Char))) (value : String) :
    insertedText escaper ⟨marked, w.name.toList, arguments⟩ value =
      (TemplatePart.token w marked arguments value).meaning escaper := by
  have hescapes := Token.escapes_eq (t := ⟨marked, w.name.toList, arguments⟩) hw
  cases escaper with
  | none => cases marked <;> rfl
  | some q => cases marked <;> simp [insertedText, hescapes, TemplatePart.meaning]

namespace Distinguishable

variable {v : Variable} {vs : List Variable}

theorem of_cons (h : Distinguishable (v :: vs)) : Distinguishable vs where
  names w hw := h.names w (List.mem_cons_of_mem _ hw)
  distinct := (List.pairwise_cons.1 h.distinct).2
  schemas w hw := h.schemas w (List.mem_cons_of_mem _ hw)
  options w hw := h.options w (List.mem_cons_of_mem _ hw)
  determined w hw := h.determined w (List.mem_cons_of_mem _ hw)

/-- The order of the variables does not matter. -/
theorem perm {vs' : List Variable} (h : Distinguishable vs) (hperm : vs'.Perm vs) :
    Distinguishable vs' where
  names w hw := h.names w (hperm.subset hw)
  distinct := (hperm.pairwise_iff fun hne he => hne (Text.sameFolded_symm he)).2 h.distinct
  schemas w hw := h.schemas w (hperm.subset hw)
  options w hw := h.options w (hperm.subset hw)
  determined w hw := h.determined w (hperm.subset hw)

/-- A token that carries the name of a variable belongs to it. -/
theorem eq_of_sameFolded (h : Distinguishable (v :: vs)) {w : Variable} (hw : w ∈ v :: vs)
    (hname : Text.sameFolded v.name.toList w.name.toList) : w = v := by
  rcases List.mem_cons.1 hw with hw | hw
  · exact hw
  · exact absurd hname ((List.pairwise_cons.1 h.distinct).1 w hw)

theorem exists_pattern (h : Distinguishable vs) (hv : v ∈ vs) :
    ∃ slots, v.pattern = .ok ⟨v.name.toList, slots⟩ ∧
      List.Forall₂ Slot.Of slots v.parameters :=
  TokenPattern.ofSchema_eq_ok v.name (h.schemas v hv)

end Distinguishable

section
variable {escaper : Option Escaper} {v : Variable} {vs : List Variable} {slots : List Slot}

/-- A token of the variable is found as it was written. -/
theorem pieces_own_token (h : Distinguishable vs) (hv : v ∈ vs)
    (hslots : List.Forall₂ Slot.Of slots v.parameters) {arguments : List (Option (List Char))}
    (hsupplied : Supplied v.parameters arguments) (marked : Bool) (rest : List Char) :
    TokenPattern.pieces ⟨v.name.toList, slots⟩
        (Token.text ⟨marked, v.name.toList, arguments⟩ ++ rest) =
      .token ⟨marked, v.name.toList, arguments⟩ ::
        TokenPattern.pieces ⟨v.name.toList, slots⟩ rest :=
  TokenPattern.pieces_token_append <| TokenPattern.match?_written (Text.sameFolded_refl _)
    (h.names v hv).2 (hsupplied.written (h.options v hv) hslots) rest

/-- A token of another variable is passed over. -/
theorem pieces_other_token (h : Distinguishable vs) (hv : v ∈ vs) {w : Variable} (hw : w ∈ vs)
    (hne : ¬Text.sameFolded v.name.toList w.name.toList)
    {arguments : List (Option (List Char))} (hsupplied : Supplied w.parameters arguments)
    (marked : Bool) (rest : List Char) :
    TokenPattern.pieces ⟨v.name.toList, slots⟩
        (Token.text ⟨marked, w.name.toList, arguments⟩ ++ rest) =
      (Token.text ⟨marked, w.name.toList, arguments⟩).map .char ++
        TokenPattern.pieces ⟨v.name.toList, slots⟩ rest := by
  obtain ⟨hvname, hvmark⟩ := h.names v hv
  obtain ⟨hwname, hwmark⟩ := h.names w hw
  obtain ⟨c, tail, htail, hc⟩ := tailText_eq_cons arguments
  have hends : TokenPattern.EndsName ⟨v.name.toList, slots⟩ (isBoundary · = true) :=
    TokenPattern.endsName_boundary (not_isBoundary_of_undivided hvname)
  have hplain : ∀ c ∈ w.name.toList, ¬isBoundary c = true := fun c hc => by
    simp [not_isBoundary_of_undivided hwname c hc]
  apply TokenPattern.pieces_of_match?_eq_none
  · exact TokenPattern.match?_other hends hvmark (by decide) hplain hwmark hne htail hc rest
  · exact hwname.1.1
  · exact hsupplied.brace_not_mem_tail (h.options w hw)

/-- A turn finds the tokens of its variable and nothing else. -/
theorem substituted_template (h : Distinguishable (v :: vs))
    (hslots : List.Forall₂ Slot.Of slots v.parameters) {template : List TemplatePart}
    (ht : ∀ x ∈ template, x.Fits (v :: vs)) :
    v.substituted escaper
        (TokenPattern.pieces ⟨v.name.toList, slots⟩ (template.flatMap TemplatePart.text)) =
      .ok ((template.map (·.settle escaper v)).flatMap TemplatePart.text,
        template.countP (·.isOf v)) := by
  induction template with
  | nil => rfl
  | cons x template ih =>
    obtain ⟨hx, htemplate⟩ := List.forall_mem_cons.1 ht
    have hrest := ih htemplate
    rw [List.flatMap_cons, List.map_cons, List.flatMap_cons, List.countP_cons]
    cases hx with
    | @literal s hs =>
      rw [TemplatePart.text, TokenPattern.pieces_plain_append hs.1, substituted_chars, hrest]
      rfl
    | @token w marked arguments value hw hsupplied hvalue _ =>
      cases hname : Text.sameFolded v.name.toList w.name.toList with
      | true =>
        obtain rfl := h.eq_of_sameFolded hw hname
        rw [TemplatePart.text, pieces_own_token h hw hslots hsupplied, Variable.substituted,
          hvalue, hrest]
        simp [TemplatePart.settle, TemplatePart.isOf, TemplatePart.text,
          insertedText_eq_meaning escaper (h.names w hw).2]
      | false =>
        rw [TemplatePart.text, pieces_other_token h (List.mem_cons_self ..) hw (by simp [hname])
          hsupplied, substituted_chars, hrest]
        simp [TemplatePart.settle, TemplatePart.isOf, TemplatePart.text, hname]

/-- A part that a turn has settled fits the variables whose turns are to come. -/
theorem TemplatePart.Fits.settle (hescaper : AddsNoBrace escaper) {x : TemplatePart}
    (hx : x.Fits (v :: vs)) : (x.settle escaper v).Fits vs := by
  have hmeaning := hx.braceless_meaning hescaper
  cases hx with
  | literal hs => exact .literal hs
  | @token w marked arguments value hw hsupplied hvalue hbraceless =>
    rw [TemplatePart.settle]
    split
    · exact .literal hmeaning
    · rename_i hname
      rcases List.mem_cons.1 hw with rfl | hw
      · exact absurd (Text.sameFolded_refl _) hname
      · exact .token hw hsupplied hvalue hbraceless
end

/-- Taking their turns one after the other, the variables turn a template into its meaning. -/
theorem resolved_template {escaper : Option Escaper} (hescaper : AddsNoBrace escaper)
    {vs : List Variable} (h : Distinguishable vs) {template : List TemplatePart}
    (ht : ∀ x ∈ template, x.Fits vs) :
    resolved escaper vs (template.flatMap TemplatePart.text) =
      .ok (.ok (template.flatMap (·.meaning escaper), template.countP TemplatePart.isToken)) := by
  induction vs generalizing template with
  | nil =>
    have hliteral : ∀ x ∈ template, x.text = x.meaning escaper ∧ x.isToken = false := by
      intro x hx
      cases ht x hx with
      | literal _ => exact ⟨rfl, rfl⟩
      | token hw => simp at hw
    have hcount : template.countP TemplatePart.isToken = 0 := by
      rw [List.countP_eq_zero]
      intro x hx
      simp [(hliteral x hx).2]
    rw [resolved, hcount, List.flatMap_congr fun x hx => (hliteral x hx).1]
  | cons v vs ih =>
    obtain ⟨slots, hp, hslots⟩ := h.exists_pattern (List.mem_cons_self ..)
    have hsettled : ∀ x ∈ template.map (·.settle escaper v), x.Fits vs := by
      intro x hx
      obtain ⟨y, hy, rfl⟩ := List.mem_map.1 hx
      exact (ht y hy).settle hescaper
    rw [resolved, hp]
    dsimp only
    rw [substituted_template h hslots ht]
    dsimp only
    rw [ih h.of_cons hsettled, TemplatePart.countP_settle escaper v template]
    simp [List.flatMap_map]

/-- Every template resolves to its meaning, in whatever order the variables take their turns and
whatever the instances were used for before. -/
theorem resolveContent_template (quoting : Option Quoting) {vs : List Variable}
    (hvs : Distinguishable vs) {template : List TemplatePart} (ht : ∀ x ∈ template, x.Fits vs)
    {order : List Instance} (horder : (order.map (·.base)).Perm vs) :
    ∃ left, resolveContent (quoting.map Quoting.encode) order
        (String.ofList (template.flatMap TemplatePart.text)) =
      .ok (left, .success (String.ofList (template.flatMap TemplatePart.text))
        (String.ofList (template.flatMap (·.meaning (quoting.map Quoting.encode))))
        (template.countP TemplatePart.isToken)) := by
  have hescaper := addsNoBrace_quoting quoting
  generalize quoting.map Quoting.encode = escaper at hescaper ⊢
  have hdistinct := hvs.perm horder
  have hfits : ∀ x ∈ template, x.Fits (order.map (·.base)) := by
    intro x hx
    cases ht x hx with
    | literal hs => exact .literal hs
    | token hw hsupplied hvalue hbraceless =>
      exact .token (horder.symm.subset hw) hsupplied hvalue hbraceless
  have hdetermined : ∀ v ∈ order, v.base.Determined := fun v hv =>
    hdistinct.determined v.base (List.mem_map_of_mem hv)
  have hresolution : resolution escaper (order.map (·.base))
      (String.ofList (template.flatMap TemplatePart.text)) =
        .ok (.success (String.ofList (template.flatMap TemplatePart.text))
          (String.ofList (template.flatMap (·.meaning escaper)))
          (template.countP TemplatePart.isToken)) := by
    rw [resolution, String.toList_ofList, resolved_template hescaper hdistinct hfits]
    rfl
  exact exists_resolveContent_of_resolution hdetermined hresolution

def greeting : List TemplatePart :=
  [.literal "echo ".toList, .token Builtin.passthrough false [some "it's".toList] "it's",
    .literal ['/'], .token Builtin.newline true [none] "\n"]

theorem distinguishable_passthrough_newline :
    Distinguishable [Builtin.passthrough, Builtin.newline] where
  names := by
    simp only [List.forall_mem_cons, List.not_mem_nil, false_imp_iff, implies_true, and_true]
    exact ⟨by decide +kernel, by decide +kernel⟩
  distinct := by
    refine .cons ?_ (.cons (by simp) .nil)
    simp only [List.forall_mem_cons, List.not_mem_nil, false_imp_iff, implies_true, and_true]
    decide +kernel
  schemas := by
    simp only [List.forall_mem_cons, List.not_mem_nil, false_imp_iff, implies_true, and_true]
    exact ⟨Builtin.wellFormed_passthrough, Builtin.wellFormed_newline⟩
  options := by
    simp only [List.forall_mem_cons, List.not_mem_nil, false_imp_iff, implies_true, and_true]
    constructor
    · intro p hp options ho
      rw [List.mem_singleton.1 hp] at ho
      simp [Parameter.shape, Parameter.text] at ho
    · intro p hp options ho
      rw [List.mem_singleton.1 hp] at ho
      simp [Parameter.shape, Parameter.optional, Parameter.integer] at ho
  determined := by
    simp only [List.forall_mem_cons, List.not_mem_nil, false_imp_iff, implies_true, and_true]
    exact ⟨Builtin.determined_passthrough, Builtin.determined_newline⟩

theorem fits_greeting : ∀ x ∈ greeting, x.Fits [Builtin.passthrough, Builtin.newline] := by
  simp only [greeting, List.forall_mem_cons, List.not_mem_nil, false_imp_iff, implies_true,
    and_true]
  refine ⟨.literal (by decide +kernel), .token (by simp) ?_ (by decide +kernel)
    (by decide +kernel), .literal (by decide +kernel), .token (by simp) ?_ (by decide +kernel)
    (by decide +kernel)⟩
  · have hshape : (Parameter.text "value").shape = .ok .text := rfl
    have hrest : Supplied [] [] := .omitted (by simp)
    have hline : ∀ c ∈ "it's".toList, c ≠ '\n' := by
      rw [← List.forall_iff_forall_mem]
      decide +kernel
    exact .given hshape ⟨by decide +kernel, hline⟩ (fun _ => by decide +kernel) hrest
  · have hoptional : ∀ p ∈ Builtin.newline.parameters, p.required = false := by decide +kernel
    exact .omitted hoptional

theorem resolveContent_template_greeting :
    Distinguishable [Builtin.passthrough, Builtin.newline] ∧
      (∀ x ∈ greeting, x.Fits [Builtin.passthrough, Builtin.newline]) ∧
      ([Instance.of Builtin.newline, .of Builtin.passthrough].map (·.base)).Perm
        [Builtin.passthrough, Builtin.newline] ∧
      ∃ left, resolveContent (some Posix.encode) [.of Builtin.newline, .of Builtin.passthrough]
          (String.ofList (greeting.flatMap TemplatePart.text)) =
        .ok (left, .success (String.ofList (greeting.flatMap TemplatePart.text))
          (String.ofList (greeting.flatMap (·.meaning (some Posix.encode))))
          (greeting.countP TemplatePart.isToken)) :=
  have horder : ([Instance.of Builtin.newline, .of Builtin.passthrough].map (·.base)).Perm
      [Builtin.passthrough, Builtin.newline] := .swap _ _ _
  ⟨distinguishable_passthrough_newline, fits_greeting, horder,
    resolveContent_template (some .posix) distinguishable_passthrough_newline fits_greeting horder⟩

example : greeting.flatMap TemplatePart.text =
    "echo \x7b\x7bpassthrough:it's\x7d\x7d/\x7b\x7b!newline\x7d\x7d".toList := by decide +kernel

example : greeting.flatMap (·.meaning (some Posix.encode)) = "echo 'it'\\''s'/\n".toList := by
  decide +kernel

end CommandTemplate
