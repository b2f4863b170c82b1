import CommandTemplate.Proofs.Template
import Mathlib.Data.List.Chain

/-!
# Texts in which tokens still stand

A variable without parameters reads a text in which its tokens and those of others stand between
pieces of any text. It takes its own tokens out and leaves the others where they are; what it finds
besides, in the text between, shows in the count.
-/
namespace CommandTemplate

/-! ## Texts that no token begins in -/

/-- Nowhere do two opening braces stand in a row. -/
def Unopened (s : List Char) : Prop := s.IsChain fun c d => ¬(c = '{' ∧ d = '{')

instance (s : List Char) : Decidable (Unopened s) := inferInstanceAs (Decidable (List.IsChain _ s))

/-- Nor do they in a text around this one. -/
structure Shut (s : List Char) : Prop where
  unopened : Unopened s
  nonempty : s ≠ []
  head : s.head? ≠ some '{'
  last : s.getLast? ≠ some '{'

/-- Braces can only come together where one text ends and the other begins. -/
theorem Unopened.append {s t : List Char} (hs : Unopened s) (ht : Unopened t)
    (h : s.getLast? ≠ some '{' ∨ t.head? ≠ some '{') : Unopened (s ++ t) := by
  rw [Unopened, List.isChain_append]
  refine ⟨hs, ht, ?_⟩
  rintro c hc d hd ⟨rfl, rfl⟩
  rcases h with h | h
  · exact h hc
  · exact h hd

theorem unopened_of_not_mem {s : List Char} (h : '{' ∉ s) : Unopened s := by
  induction s with
  | nil => exact .nil
  | cons c s ih =>
    rw [List.mem_cons, not_or] at h
    rw [Unopened, List.isChain_cons]
    exact ⟨fun d _ hbraces => h.1 hbraces.1.symm, ih h.2⟩

/-- Braces that nothing else becomes come no closer to each other. -/
theorem Unopened.flatMap {f : Char → List Char} (hf : ∀ c, f c = [c] ∨ f c ≠ [] ∧ '{' ∉ f c)
    {s : List Char} (h : Unopened s) : Unopened (s.flatMap f) := by
  have hhead : ∀ t : List Char, (t.flatMap f).head? = some '{' → t.head? = some '{' := by
    rintro (- | ⟨c, t⟩) ht
    · exact ht
    · rw [List.flatMap_cons] at ht
      rcases hf c with hc | ⟨hne, hbrace⟩
      · simpa [hc] using ht
      · rw [List.head?_append_of_ne_nil _ hne] at ht
        exact absurd (List.mem_of_head? ht) hbrace
  induction s with
  | nil => exact h
  | cons c s ih =>
    rw [Unopened, List.isChain_cons] at h
    rw [List.flatMap_cons]
    rcases hf c with hc | ⟨hne, hbrace⟩
    · rw [hc]
      refine Unopened.append (.singleton c) (ih h.2) ?_
      by_cases hopen : c = '{'
      · exact .inr fun hs => h.1 '{' (hhead s hs) ⟨hopen, rfl⟩
      · exact .inl (by simpa using hopen)
    · exact (unopened_of_not_mem hbrace).append (ih h.2)
        (.inl fun hlast => hbrace (List.mem_of_getLast? hlast))

theorem Unopened.append_shut {s t : List Char} (hs : Unopened s) (ht : Shut t) :
    Unopened (s ++ t) ∧ (s ++ t).getLast? ≠ some '{' := by
  refine ⟨hs.append ht.unopened (.inr ht.head), ?_⟩
  rw [List.getLast?_append_of_ne_nil s ht.nonempty]
  exact ht.last

namespace TokenPattern

/-- A text without two opening braces is read as its characters. -/
theorem pieces_of_unopened (p : TokenPattern) {s : List Char} (h : Unopened s) :
    p.pieces s = s.map .char := by
  induction s with
  | nil => rfl
  | cons c s ih =>
    rw [Unopened, List.isChain_cons] at h
    have hnone : p.match? (c :: s) = none := by
      by_cases hc : c = '{'
      · subst hc
        exact match?_of_lone_brace fun hs => h.1 '{' hs ⟨rfl, rfl⟩
      · exact match?_of_ne_brace hc s
    rw [pieces_cons_of_eq_none hnone, ih h.2]
    rfl

/-! ## No token reaches into the next one -/

/-- A token that begins in front of two braces ends there too. -/
theorem fits_before_braces {t : Token} (hname : '{' ∉ t.name) (harguments : t.arguments = [])
    {s rest after : List Char} (hs : s ≠ []) (h : t.text ++ rest = s ++ '{' :: '{' :: after) :
    ∃ s', s = t.text ++ s' := by
  rcases List.append_eq_append_iff.1 h with ⟨s', hs', -⟩ | ⟨beyond, htext, hbeyond⟩
  · exact ⟨s', hs'⟩
  · have htail : '{' ∉ Token.tailText t.arguments := by
      rw [harguments]
      decide
    have hinside := Token.brace_not_mem_inside hname htail
    have hne := t.inside_ne_nil
    obtain ⟨x, s, rfl⟩ := List.exists_cons_of_ne_nil hs
    cases beyond with
    | nil => exact ⟨[], by rw [htext, List.append_nil, List.append_nil]⟩
    | cons d beyond =>
      rw [Token.text_eq, List.cons_append, List.cons.injEq] at htext
      rw [List.cons_append, List.cons.injEq] at hbeyond
      generalize t.inside = inside at *
      cases s with
      | nil =>
        -- The token would have three braces in a row.
        obtain ⟨b, inside, rfl⟩ := List.exists_cons_of_ne_nil hne
        rw [List.nil_append, List.cons.injEq] at htext
        rw [← htext.2.2, List.cons_append, List.cons.injEq] at hbeyond
        exact absurd (hbeyond.2.1 ▸ List.mem_cons_self ..) hinside
      | cons y s =>
        rw [List.cons_append, List.cons.injEq] at htext
        rw [← hbeyond.1] at htext
        exact absurd (htext.2.2 ▸ List.mem_append_right s (List.mem_cons_self ..)) hinside

structure Plain (p : TokenPattern) : Prop where
  name : Braceless p.name
  head : p.name.head? ≠ some '!'
  slots : p.slots = []

variable {p : TokenPattern}

theorem Plain.of_derives (hp : p.Plain) {t : Token} (ht : p.Derives t) :
    '{' ∉ t.name ∧ t.arguments = [] := by
  constructor
  · intro hmem
    exact hp.name.1 (Text.mark_mem_of_sameFolded (by decide) (Text.sameFolded_symm ht.name) hmem)
  · have harguments := ht.arguments
    rw [hp.slots] at harguments
    exact harguments.eq_nil

/-- What a pattern finds it finds whatever stands behind. -/
theorem Plain.match?_append (hp : p.Plain) {t : Token} (ht : p.Derives t) (rest : List Char) :
    p.match? (t.text ++ rest) = some t := by
  refine match?_written ht.name hp.head ?_ rest
  rw [hp.slots, (hp.of_derives ht).2]
  exact .omitted (by simp)

/-- A text is read up to the next token as if it ended there. -/
theorem Plain.pieces_append (hp : p.Plain) (s after : List Char) :
    p.pieces (s ++ '{' :: '{' :: after) = p.pieces s ++ p.pieces ('{' :: '{' :: after) := by
  induction s using p.pieces_induction with
  | nil => rfl
  | token t rest ht hm ih =>
    rw [pieces_token_append hm, List.append_assoc, pieces_token_append (hp.match?_append ht _), ih,
      List.cons_append]
  | char c s hm ih =>
    have hnone : p.match? (c :: (s ++ '{' :: '{' :: after)) = none := by
      by_contra hsome
      obtain ⟨t, ht⟩ := Option.ne_none_iff_exists'.1 hsome
      obtain ⟨hd, rest, hrest⟩ := match?_eq_some ht
      obtain ⟨hname, harguments⟩ := hp.of_derives hd
      obtain ⟨s', hs'⟩ := fits_before_braces hname harguments (List.cons_ne_nil c s) hrest.symm
      rw [hs', hp.match?_append hd] at hm
      cases hm
    rw [List.cons_append, pieces_cons_of_eq_none hnone, ih, pieces_cons_of_eq_none hm,
      List.cons_append]

end TokenPattern

/-! ## Turns of variables with one value -/

structure Fixed (value : Variable → String) (v : Variable) : Prop where
  parameters : v.parameters = []
  generate : ∀ a n, v.generate a n = .ok (value v)

def Piece.isToken : Piece → Bool
  | .char _ => false
  | .token _ => true

@[simp] theorem Piece.isToken_char (c : Char) : (char c).isToken = false := rfl

@[simp] theorem Piece.isToken_token (t : Token) : (token t).isToken = true := rfl

def Piece.filled (escaper : Option Escaper) (value : String) : Piece → List Char
  | .char c => [c]
  | .token t => insertedText escaper t value

@[simp] theorem Piece.filled_char (escaper : Option Escaper) (value : String) (c : Char) :
    (char c).filled escaper value = [c] := rfl

@[simp] theorem Piece.filled_token (escaper : Option Escaper) (value : String) (t : Token) :
    (token t).filled escaper value = insertedText escaper t value := rfl

theorem countP_char (cs : List Char) : (cs.map Piece.char).countP Piece.isToken = 0 := by
  simp [List.countP_eq_zero]

theorem flatMap_filled_char (escaper : Option Escaper) (value : String) (cs : List Char) :
    (cs.map Piece.char).flatMap (Piece.filled escaper value) = cs := by
  simp [List.flatMap_map]

theorem flatMap_filled_of_countP {escaper : Option Escaper} {value : String} {ps : List Piece}
    (h : ps.countP Piece.isToken = 0) :
    ps.flatMap (Piece.filled escaper value) = ps.flatMap Piece.text := by
  rw [List.countP_eq_zero] at h
  refine List.flatMap_congr fun piece hpiece => ?_
  cases piece with
  | char c => rfl
  | token t => exact absurd rfl (h _ hpiece)

section

variable {value : Variable → String} {v : Variable}

theorem Fixed.pattern_eq (hv : Fixed value v) : v.pattern = .ok ⟨v.name.toList, []⟩ := by
  rw [Variable.pattern, hv.parameters]
  rfl

/-- A variable with one value puts it in place of all its tokens. -/
theorem Fixed.substituted_eq (hv : Fixed value v) (escaper : Option Escaper) (ps : List Piece) :
    v.substituted escaper ps =
      .ok (ps.flatMap (Piece.filled escaper (value v)), ps.countP Piece.isToken) := by
  induction ps with
  | nil => rfl
  | cons piece ps ih =>
    cases piece with
    | char c =>
      rw [Variable.substituted, ih]
      simp
    | token t =>
      have houtcome : v.outcome t.arguments = .ok (value v) := by
        rw [Variable.outcome, hv.generate]
      rw [Variable.substituted, houtcome, ih, List.countP_cons_of_pos rfl]
      simp

/-- Variables with one value resolve every text. -/
theorem exists_resolved (escaper : Option Escaper) {vs : List Variable}
    (hvs : ∀ v ∈ vs, Fixed value v) (s : List Char) :
    ∃ s' n, resolved escaper vs s = .ok (.ok (s', n)) := by
  induction vs generalizing s with
  | nil => exact ⟨s, 0, rfl⟩
  | cons v vs ih =>
    obtain ⟨hv, hvs⟩ := List.forall_mem_cons.1 hvs
    rw [resolved, hv.pattern_eq]
    simp only [hv.substituted_eq]
    obtain ⟨s', n, hrest⟩ := ih hvs (((⟨v.name.toList, []⟩ : TokenPattern).pieces s).flatMap
      (Piece.filled escaper (value v)))
    rw [hrest]
    exact ⟨_, _, rfl⟩

end

/-! ## Layouts -/

def Variable.bare (v : Variable) : TokenPattern := ⟨v.name.toList, []⟩

def Variable.isNamed (v w : Variable) : Bool := Text.sameFolded v.name.toList w.name.toList

/-- A command of which some tokens still stand, with any text before, between and behind them. -/
inductive Layout where
  | done (s : List Char)
  | token (s : List Char) (v : Variable) (rest : Layout)

namespace Layout

def text : Layout → List Char
  | done s => s
  | token s v rest => s ++ (Token.text ⟨false, v.name.toList, []⟩ ++ rest.text)

/-- The text with the values in the places of the tokens that still stand. -/
def meaning (q : Quoting) (value : Variable → String) : Layout → List Char
  | done s => s
  | token s v rest => s ++ (q.encode (value v).toList ++ rest.meaning q value)

def pending : Layout → List Variable
  | done _ => []
  | token _ v rest => v :: rest.pending

/-- No token begins in the text outside the tokens. -/
def Clear : Layout → Prop
  | done s => Unopened s
  | token s _ rest => Unopened s ∧ rest.Clear

def behind (s : List Char) : Layout → Layout
  | done t => done (s ++ t)
  | token t v rest => token (s ++ t) v rest

variable {q : Quoting} {value : Variable → String} {v : Variable}

theorem text_behind (s : List Char) (l : Layout) : (l.behind s).text = s ++ l.text := by
  cases l <;> simp [behind, text]

theorem meaning_behind (s : List Char) (l : Layout) :
    (l.behind s).meaning q value = s ++ l.meaning q value := by
  cases l <;> simp [behind, meaning]

theorem pending_behind (s : List Char) (l : Layout) : (l.behind s).pending = l.pending := by
  cases l <;> rfl

theorem clear_behind {s : List Char} (hs : Unopened s) (hlast : s.getLast? ≠ some '{') {l : Layout}
    (hl : l.Clear) : (l.behind s).Clear := by
  cases l with
  | done t => exact hs.append hl (.inl hlast)
  | token t v rest => exact ⟨hs.append hl.1 (.inl hlast), hl.2⟩

structure Turns (q : Quoting) (value : Variable → String) (v : Variable) (l l' : Layout) (n : Nat) :
    Prop where
  left : l'.pending = l.pending.filter fun w => !v.isNamed w
  enough : l.pending.countP v.isNamed ≤ n
  faithful : n = l.pending.countP v.isNamed → l'.meaning q value = l.meaning q value
  undisturbed : l.Clear → (∀ w ∈ l.pending, Shut (q.encode (value w).toList)) →
    n = l.pending.countP v.isNamed ∧ l'.Clear

theorem Turns.done {s s' : List Char} {k : Nat} (hexact : k = 0 → s' = s)
    (hclear : Unopened s → k = 0) : Turns q value v (.done s) (.done s') k where
  left := rfl
  enough := Nat.zero_le k
  faithful h := hexact h
  undisturbed h _ := by
    have hk := hclear h
    exact ⟨hk, by rw [hexact hk]; exact h⟩

/-- Text in front of a token of the variable, and the token. -/
theorem Turns.own {s s' : List Char} {k n : Nat} {l l' : Layout} (hexact : k = 0 → s' = s)
    (hclear : Unopened s → k = 0) (h : Turns q value v l l' n) :
    Turns q value v (token s v l) (l'.behind (s' ++ q.encode (value v).toList)) (k + (n + 1)) := by
  have hown : v.isNamed v = true := Text.sameFolded_refl _
  have hcount : (token s v l).pending.countP v.isNamed = l.pending.countP v.isNamed + 1 := by
    rw [pending, List.countP_cons_of_pos hown]
  have henough := h.enough
  constructor
  · rw [pending_behind, h.left, pending, List.filter_cons_of_neg (by simp [hown])]
  · omega
  · intro hn
    rw [meaning_behind, hexact (by omega), h.faithful (by omega), meaning, List.append_assoc]
  · intro hl hvalues
    obtain ⟨hv, hvalues⟩ := List.forall_mem_cons.1 hvalues
    obtain ⟨hn, hl'⟩ := h.undisturbed hl.2 hvalues
    have hk := hclear hl.1
    rw [hexact hk]
    obtain ⟨hopen, hlast⟩ := hl.1.append_shut hv
    exact ⟨by omega, clear_behind hopen hlast hl'⟩

/-- Text in front of a token of another variable, and the token. -/
theorem Turns.other {s s' : List Char} {k n : Nat} {w : Variable} {l l' : Layout}
    (hexact : k = 0 → s' = s) (hclear : Unopened s → k = 0) (hw : v.isNamed w = false)
    (h : Turns q value v l l' n) : Turns q value v (token s w l) (token s' w l') (k + n) := by
  have hcount : (token s w l).pending.countP v.isNamed = l.pending.countP v.isNamed := by
    rw [pending, List.countP_cons_of_neg (by simp [hw])]
  have henough := h.enough
  constructor
  · rw [pending, h.left, pending, List.filter_cons_of_pos (by simp [hw])]
  · omega
  · intro hn
    rw [meaning, hexact (by omega), h.faithful (by omega), meaning]
  · intro hl hvalues
    obtain ⟨-, hvalues⟩ := List.forall_mem_cons.1 hvalues
    obtain ⟨hn, hl'⟩ := h.undisturbed hl.2 hvalues
    have hk := hclear hl.1
    exact ⟨by omega, by rw [hexact hk]; exact hl.1, hl'⟩

end Layout

section

variable {value : Variable → String} {v : Variable}

/-- Its own token is found where it stands. -/
theorem pieces_own (hp : v.bare.Plain) (rest : List Char) :
    v.bare.pieces (Token.text ⟨false, v.name.toList, []⟩ ++ rest) =
      .token ⟨false, v.name.toList, []⟩ :: v.bare.pieces rest := by
  have ht : v.bare.Derives ⟨false, v.name.toList, []⟩ := ⟨Text.sameFolded_refl _, .nil⟩
  exact TokenPattern.pieces_token_append (hp.match?_append ht rest)

/-- A token of another variable is read as characters. -/
theorem pieces_other (hp : v.bare.Plain) {w : Variable} (hw : w.bare.Plain)
    (hne : v.isNamed w = false) (rest : List Char) :
    v.bare.pieces (Token.text ⟨false, w.name.toList, []⟩ ++ rest) =
      (Token.text ⟨false, w.name.toList, []⟩).map .char ++ v.bare.pieces rest := by
  have hkind : ∀ c ∈ w.name.toList, ¬c = '}' := by
    rintro c hc rfl
    exact hw.name.2 hc
  have htail : '{' ∉ Token.tailText [] := by decide
  have hname : ¬Text.sameFolded v.bare.name w.name.toList := by
    rw [Variable.isNamed] at hne
    simp [Variable.bare, hne]
  refine TokenPattern.pieces_of_match?_eq_none ?_ hw.name.1 htail
  exact TokenPattern.match?_other (TokenPattern.endsName_brace hp.name.2) hp.head (by decide)
    hkind hw.head hname rfl rfl rest

/-- The pieces in front of a token: where none of them is a token, they stay as they are. -/
theorem filled_pieces (escaper : Option Escaper) (p : TokenPattern) (s : List Char)
    (hcount : (p.pieces s).countP Piece.isToken = 0) (value : String) :
    (p.pieces s).flatMap (Piece.filled escaper value) = s := by
  rw [flatMap_filled_of_countP hcount, p.flatMap_text_pieces]

theorem countP_pieces_of_unopened (p : TokenPattern) {s : List Char} (h : Unopened s) :
    (p.pieces s).countP Piece.isToken = 0 := by
  rw [p.pieces_of_unopened h, countP_char]

/-- A variable takes a layout to one in which its own tokens no longer stand. -/
theorem exists_turns (q : Quoting) (value : Variable → String) (hp : v.bare.Plain) (l : Layout)
    (hl : ∀ w ∈ l.pending, w.bare.Plain ∧ (v.isNamed w = true → w = v)) :
    ∃ l', (v.bare.pieces l.text).flatMap (Piece.filled (some q.encode) (value v)) = l'.text ∧
      l.Turns q value v l' ((v.bare.pieces l.text).countP Piece.isToken) := by
  induction l with
  | done s =>
    refine ⟨.done _, rfl, .done (fun hcount => ?_) (countP_pieces_of_unopened v.bare)⟩
    exact filled_pieces (some q.encode) v.bare s hcount (value v)
  | token s w l ih =>
    obtain ⟨⟨hw, hsame⟩, hl⟩ := List.forall_mem_cons.1 hl
    obtain ⟨l', htext, hturns⟩ := ih hl
    have hexact := fun hcount => filled_pieces (some q.encode) v.bare s hcount (value v)
    have hclear : Unopened s → (v.bare.pieces s).countP Piece.isToken = 0 :=
      countP_pieces_of_unopened v.bare
    have hsplit : v.bare.pieces (Layout.token s w l).text =
        v.bare.pieces s ++ v.bare.pieces (Token.text ⟨false, w.name.toList, []⟩ ++ l.text) :=
      hp.pieces_append s _
    rw [hsplit, List.flatMap_append, List.countP_append]
    cases hnamed : v.isNamed w with
    | true =>
      obtain rfl := hsame hnamed
      rw [pieces_own hp, List.flatMap_cons, htext, List.countP_cons_of_pos rfl]
      refine ⟨_, ?_, .own hexact hclear hturns⟩
      have hinserted : Piece.filled (some q.encode) (value w) (.token ⟨false, w.name.toList, []⟩) =
          q.encode (value w).toList := by
        have hescapes : Token.escapes ⟨false, w.name.toList, []⟩ = true := by
          rw [Token.escapes_eq hp.head]
          rfl
        simp [insertedText, hescapes]
      rw [hinserted, Layout.text_behind, List.append_assoc]
    | false =>
      rw [pieces_other hp hw hnamed, List.flatMap_append, htext, List.countP_append, countP_char,
        flatMap_filled_char, Nat.zero_add]
      exact ⟨_, rfl, .other hexact hclear hnamed hturns⟩

end

theorem eq_of_isNamed {vs : List Variable} {v w : Variable} (h : ∀ w ∈ vs, v.isNamed w = false)
    (hw : w ∈ v :: vs) (hnamed : v.isNamed w = true) : w = v := by
  rcases List.mem_cons.1 hw with rfl | hmem
  · rfl
  · rw [h w hmem] at hnamed
    cases hnamed

theorem mem_of_not_isNamed {vs : List Variable} {v w : Variable} (hw : w ∈ v :: vs)
    (hnamed : v.isNamed w = false) : w ∈ vs := by
  rcases List.mem_cons.1 hw with rfl | hmem
  · have hself : w.isNamed w = true := Text.sameFolded_refl _
    rw [hself] at hnamed
    cases hnamed
  · exact hmem

/-- When all variables have had their turns, at least the tokens of the layout have been replaced,
and if no more were then the text is what the layout means. -/
theorem resolved_layout (q : Quoting) {value : Variable → String} {vs : List Variable}
    (hfixed : ∀ v ∈ vs, Fixed value v) (hplain : ∀ v ∈ vs, v.bare.Plain)
    (hdistinct : vs.Pairwise fun v w => v.isNamed w = false) {l : Layout}
    (hl : ∀ w ∈ l.pending, w ∈ vs) :
    ∃ s n, resolved (some q.encode) vs l.text = .ok (.ok (s, n)) ∧ l.pending.length ≤ n ∧
      (n = l.pending.length → s = l.meaning q value) ∧
      (l.Clear → (∀ w ∈ l.pending, Shut (q.encode (value w).toList)) →
        n = l.pending.length) := by
  induction vs generalizing l with
  | nil =>
    cases l with
    | done s => exact ⟨s, 0, rfl, Nat.le_refl 0, fun _ => rfl, fun _ _ => rfl⟩
    | token s w l => exact absurd (hl w (List.mem_cons_self ..)) List.not_mem_nil
  | cons v vs ih =>
    obtain ⟨hv, hfixed⟩ := List.forall_mem_cons.1 hfixed
    obtain ⟨hpv, hplain'⟩ := List.forall_mem_cons.1 hplain
    obtain ⟨hother, hdistinct⟩ := List.pairwise_cons.1 hdistinct
    have hsame : ∀ w ∈ l.pending, w.bare.Plain ∧ (v.isNamed w = true → w = v) :=
      fun w hw => ⟨hplain w (hl w hw), eq_of_isNamed hother (hl w hw)⟩
    obtain ⟨l', htext, hturns⟩ := exists_turns q value hpv l hsame
    have hlength : l.pending.length = l.pending.countP v.isNamed + l'.pending.length := by
      rw [hturns.left, ← List.countP_eq_length_filter]
      simpa using l.pending.length_eq_countP_add_countP v.isNamed
    have hl' : ∀ w ∈ l'.pending, w ∈ vs := by
      intro w hw
      rw [hturns.left, List.mem_filter] at hw
      exact mem_of_not_isNamed (hl w hw.1) (by simpa using hw.2)
    obtain ⟨s, m, hrest, henough, hfaithful, hundisturbed⟩ := ih hfixed hplain' hdistinct hl'
    have hcount := hturns.enough
    have hresolved : resolved (some q.encode) (v :: vs) l.text =
        .ok (.ok (s, (v.bare.pieces l.text).countP Piece.isToken + m)) := by
      rw [resolved, hv.pattern_eq]
      simp only [hv.substituted_eq]
      rw [Variable.bare] at htext
      rw [htext, hrest]
      rfl
    refine ⟨s, _, hresolved, by omega, ?_, ?_⟩
    · intro hn
      rw [hfaithful (by omega), hturns.faithful (by omega)]
    · intro hclear hvalues
      obtain ⟨hn, hclear'⟩ := hturns.undisturbed hclear hvalues
      have hvalues' : ∀ w ∈ l'.pending, Shut (q.encode (value w).toList) := by
        intro w hw
        rw [hturns.left] at hw
        exact hvalues w (List.mem_of_mem_filter hw)
      have hm := hundisturbed hclear' hvalues'
      omega

end CommandTemplate
