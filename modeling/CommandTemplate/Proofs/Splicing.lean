import CommandTemplate.Proofs.Builtins
import CommandTemplate.Proofs.Faults
import CommandTemplate.Proofs.Stateless
import Mathlib.Data.List.Nodup

/-!
# Turns of variables as edits of a text

What variables make of a text, said without instances and without pieces: in its turn a variable
lists its occurrences by their bytes, each has the outcome of the arguments captured there and of
nothing else, and the values are spliced in at the ranges.
-/
namespace CommandTemplate

/-! ## Arguments of an occurrence -/

/-- The argument that a captured text gives: an integer where one is asked for and the text is
one. -/
def Parameter.read (p : Parameter) (raw : List Char) : Argument :=
  if p.isInteger then
    match Text.readInt64 raw with
    | some n => .integer n
    | none => .text (String.ofList raw)
  else .text (String.ofList raw)

/-- The arguments captured at an occurrence, under the names of their parameters. -/
def captured (parameters : List Parameter) (given : List (Option (List Char))) :
    List (String × Argument) :=
  (parameters.zip given).filterMap fun (p, raw) => raw.map fun raw => (p.name, p.read raw)

def CapturesExactly (parameters : List Parameter) (given : List (Option (List Char)))
    (arguments : Arguments) : Prop :=
  ∀ name argument, arguments.get? name = some argument ↔
    ∃ p raw, (p, some raw) ∈ parameters.zip given ∧ p.name = name ∧ p.read raw = argument

theorem keys_captured_sublist (parameters : List Parameter) (given : List (Option (List Char))) :
    ((captured parameters given).map (·.1)).Sublist (parameters.map (·.name)) := by
  induction parameters generalizing given with
  | nil => simp [captured]
  | cons p parameters ih =>
    cases given with
    | nil => simp [captured]
    | cons raw given =>
      cases raw with
      | none => exact (ih given).cons _
      | some raw => exact (ih given).cons_cons _

/-- With parameters of different names nothing captured is lost. -/
theorem capturesExactly_ofList {parameters : List Parameter}
    (hnames : (parameters.map (·.name)).Nodup) (given : List (Option (List Char))) :
    CapturesExactly parameters given (.ofList (captured parameters given)) := by
  intro name argument
  rw [Dict.get?_ofList_iff (hnames.sublist (keys_captured_sublist parameters given)), captured,
    List.mem_filterMap]
  constructor
  · rintro ⟨⟨p, raw⟩, hmem, hraw⟩
    obtain ⟨raw, rfl, heq⟩ := Option.map_eq_some_iff.1 hraw
    obtain ⟨rfl, rfl⟩ := Prod.mk.inj heq
    exact ⟨p, raw, hmem, rfl, rfl⟩
  · rintro ⟨p, raw, hmem, rfl, rfl⟩
    exact ⟨(p, some raw), hmem, rfl⟩

theorem Variable.argument_eq_read {v : Variable} (hnames : (v.parameters.map (·.name)).Nodup)
    {p : Parameter} (hp : p ∈ v.parameters) (raw : List Char) :
    v.argument p.name (String.ofList raw) = p.read raw := by
  have htakes : v.takesInteger p.name = p.isInteger := by
    rw [takesInteger, Bool.eq_iff_iff, List.any_eq_true]
    constructor
    · rintro ⟨q, hq, hqp⟩
      rw [Bool.and_eq_true, beq_iff_eq] at hqp
      rw [← List.inj_on_of_nodup_map hnames hq hp hqp.1]
      exact hqp.2
    · intro hinteger
      exact ⟨p, hp, by simp [hinteger]⟩
  rewrite [argument, htakes, Parameter.read, String.toList_ofList]
  rfl

/-- Setting arguments one by one leaves exactly those that were captured. -/
theorem Variable.argumentsOf_eq_ofList {v : Variable}
    (hnames : (v.parameters.map (·.name)).Nodup) (given : List (Option (List Char))) :
    v.argumentsOf given = .ofList (captured v.parameters given) := by
  have hread : ∀ p ∈ v.parameters, ∀ raw, v.argument p.name (String.ofList raw) = p.read raw :=
    fun p hp raw => v.argument_eq_read hnames hp raw
  rw [argumentsOf, Dict.ofList]
  generalize (∅ : Arguments) = d
  generalize v.parameters = parameters at hread
  induction parameters generalizing given d with
  | nil => rfl
  | cons p parameters ih =>
    obtain ⟨hp, hparameters⟩ := List.forall_mem_cons.1 hread
    cases given with
    | nil => rfl
    | cons raw given =>
      cases raw with
      | none => exact ih given d hparameters
      | some raw =>
        have hrest := ih given (d.insert p.name (p.read raw)) hparameters
        rw [← hp raw] at hrest
        simpa [captured, hp raw] using hrest

/-! ## Splicing -/

/-- The text before a byte and the text from there on. -/
def cutAt : Nat → List Char → List Char × List Char
  | _, [] => ([], [])
  | 0, s => ([], s)
  | n + 1, c :: s =>
    let cut := cutAt (n + 1 - c.utf8Size) s
    (c :: cut.1, cut.2)

theorem cutAt_append (s t : List Char) : cutAt (utf8Length s) (s ++ t) = (s, t) := by
  induction s with
  | nil => cases t <;> rfl
  | cons c s ih =>
    have hpos := c.utf8Size_pos
    obtain ⟨n, hn⟩ : ∃ n, c.utf8Size + utf8Length s = n + 1 :=
      ⟨c.utf8Size + utf8Length s - 1, by omega⟩
    have hrest : n + 1 - c.utf8Size = utf8Length s := by omega
    rw [utf8Length, List.cons_append, hn, cutAt, hrest, ih]

/-- Puts values in the place of ranges of bytes; the text begins at byte `start`. -/
def splice (start : Nat) : List (Occurrence × List Char) → List Char → List Char
  | [], s => s
  | (o, value) :: values, s =>
    let kept := cutAt (o.start - start) s
    kept.1 ++ value ++ splice o.stop values (cutAt (o.stop - o.start) kept.2).2

/-- The text between two occurrences stays as it is. -/
theorem splice_cons (start : Nat) (gap inner rest value : List Char) (t : Token)
    (values : List (Occurrence × List Char)) :
    splice start ((⟨start + utf8Length gap, start + utf8Length gap + utf8Length inner, t⟩, value) ::
        values) (gap ++ (inner ++ rest)) =
      gap ++ (value ++ splice (start + utf8Length gap + utf8Length inner) values rest) := by
  rw [splice]
  dsimp only
  rw [Nat.add_sub_cancel_left, Nat.add_sub_cancel_left, cutAt_append, cutAt_append,
    List.append_assoc]

/-! ## The turn of a variable -/

/-- The answer of a variable to arguments, whatever it has been asked before. -/
def Variable.respond (v : Variable) (arguments : Arguments) : Except (List String) String :=
  match v.generate arguments 0 with
  | .ok value => .ok value
  | .error failure => .error (failure.reported v.name)

/-- The answer at an occurrence, to the arguments captured there and no others. -/
def Variable.answerAt (v : Variable) (o : Occurrence) : Except (List String) String :=
  v.respond (.ofList (captured v.parameters o.token.arguments))

def Variable.found (v : Variable) (s : List Char) : List Occurrence :=
  match v.pattern with
  | .ok p => p.occurrences s
  | .error _ => []

def Variable.replacement (escaper : Option Escaper) (v : Variable) (o : Occurrence) :
    Except (List String) (Occurrence × List Char) :=
  (v.answerAt o).map fun value => (o, insertedText escaper o.token value)

/-- The values of all occurrences in a text, put in their places. -/
def Variable.turn (escaper : Option Escaper) (v : Variable) (s : List Char) : Outcome :=
  ((v.found s).mapM (v.replacement escaper)).map fun values =>
    (splice 0 values s, values.length)

/-- The variables take their turns, each on the text that those before it left. -/
def turns (escaper : Option Escaper) : List Variable → List Char → Outcome
  | [], s => .ok (s, 0)
  | v :: vs, s =>
    match v.turn escaper s with
    | .error messages => .error messages
    | .ok (s, n) => (turns escaper vs s).map fun (s, m) => (s, n + m)

def Resolution.ofOutcome (content : String) : Outcome → Resolution
  | .ok (s, n) => .success content (String.ofList s) n
  | .error messages => .failure content messages

/-- The messages are those of the first occurrence without a value, by the order of the variables
and then from left to right in the text that the variables before have left. -/
def FirstFailure (escaper : Option Escaper) (vs : List Variable) (s : List Char)
    (messages : List String) : Prop :=
  ∃ done v more t n, vs = done ++ v :: more ∧ turns escaper done s = .ok (t, n) ∧
    ∃ before o after, v.found t = before ++ o :: after ∧
      (∀ o' ∈ before, ∃ value, v.answerAt o' = .ok value) ∧ v.answerAt o = .error messages

structure Variable.Regular (v : Variable) : Prop where
  schema : WellFormed v.parameters
  names : (v.parameters.map (·.name)).Nodup
  determined : v.Determined

/-- An occurrence is answered by its own arguments alone. -/
theorem Variable.outcome_eq_respond {v : Variable} (hnames : (v.parameters.map (·.name)).Nodup)
    (given : List (Option (List Char))) :
    v.outcome given = v.respond (.ofList (captured v.parameters given)) := by
  rw [outcome, argumentsOf_eq_ofList hnames]
  rfl

/-- Replacing piece by piece comes to the same as splicing the values of all occurrences in. The
characters in front of the next occurrence wait in `gap`. -/
theorem Variable.substituted_eq_splice (escaper : Option Escaper) {v : Variable}
    (hnames : (v.parameters.map (·.name)).Nodup) (ps : List Piece) (start : Nat)
    (gap : List Char) :
    (v.substituted escaper ps).map (fun (s, n) => (gap ++ s, n)) =
      ((occurrencesFrom (start + utf8Length gap) ps).mapM (v.replacement escaper)).map
        fun values => (splice start values (gap ++ ps.flatMap Piece.text), values.length) := by
  induction ps generalizing start gap with
  | nil => simp [substituted, occurrencesFrom, splice]
  | cons piece ps ih =>
    cases piece with
    | char c =>
      have hgap := ih start (gap ++ [c])
      have hc : utf8Length [c] = c.utf8Size := rfl
      rw [utf8Length_append, hc, ← Nat.add_assoc, List.append_assoc] at hgap
      rw [substituted, occurrencesFrom, List.flatMap_cons]
      refine Eq.trans ?_ hgap
      cases v.substituted escaper ps <;> simp
    | token t =>
      -- the token ends the gap, and the rest begins behind it with none
      have hrest := ih (start + utf8Length gap + utf8Length t.text) []
      rw [substituted, occurrencesFrom, outcome_eq_respond hnames]
      dsimp only
      rw [List.mapM_cons, replacement, answerAt]
      cases v.respond (.ofList (captured v.parameters t.arguments)) with
      | error messages => rfl
      | ok value =>
        rw [utf8Length, Nat.add_zero] at hrest
        generalize v.substituted escaper ps = out at hrest ⊢
        generalize (occurrencesFrom _ ps).mapM (v.replacement escaper) = found at hrest ⊢
        cases found with
        | error messages =>
          rw [map_eq_error_iff.1 hrest]
          rfl
        | ok values =>
          have hout : out = .ok (splice (start + utf8Length gap + utf8Length t.text) values
              (ps.flatMap Piece.text), values.length) := by
            cases out with
            | error messages => cases hrest
            | ok out => exact hrest
          have hsplice := splice_cons start gap t.text (ps.flatMap Piece.text)
            (insertedText escaper t value) t values
          rw [hout]
          exact congrArg Except.ok (Prod.ext hsplice.symm rfl)

/-- A turn replaces exactly what the scan has found. -/
theorem Variable.substituted_eq_turn (escaper : Option Escaper) {v : Variable}
    (hnames : (v.parameters.map (·.name)).Nodup) {p : TokenPattern} (hp : v.pattern = .ok p)
    (s : List Char) : v.substituted escaper (p.pieces s) = v.turn escaper s := by
  have hsplice := v.substituted_eq_splice escaper hnames (p.pieces s) 0 []
  rw [TokenPattern.flatMap_text_pieces] at hsplice
  rw [turn, found, hp]
  refine Eq.trans ?_ hsplice
  cases v.substituted escaper (p.pieces s) <;> rfl

/-- Regular variables resolve a text by taking their turns. -/
theorem resolved_eq_turns (escaper : Option Escaper) {vs : List Variable}
    (hvs : ∀ v ∈ vs, v.Regular) (s : List Char) :
    resolved escaper vs s = .ok (turns escaper vs s) := by
  induction vs generalizing s with
  | nil => rfl
  | cons v vs ih =>
    obtain ⟨hv, hvs⟩ := List.forall_mem_cons.1 hvs
    obtain ⟨p, hp⟩ := v.exists_pattern_iff.2 hv.schema
    rw [resolved, hp, turns, ← v.substituted_eq_turn escaper hv.names hp]
    dsimp only
    cases v.substituted escaper (p.pieces s) with
    | error messages => rfl
    | ok out =>
      dsimp only
      rw [ih hvs]
      rfl

/-! ## The first failure -/

/-- A turn fails at the first occurrence without an answer, with its messages. -/
theorem Variable.turn_eq_error_iff (escaper : Option Escaper) (v : Variable) (s : List Char)
    (messages : List String) :
    v.turn escaper s = .error messages ↔ ∃ before o after, v.found s = before ++ o :: after ∧
      (∀ o' ∈ before, ∃ value, v.answerAt o' = .ok value) ∧ v.answerAt o = .error messages := by
  rw [turn, map_eq_error_iff, mapM_eq_error_iff]
  simp only [replacement, exists_map_eq_ok_iff, map_eq_error_iff]

theorem turns_cons_eq_ok_iff {escaper : Option Escaper} {v : Variable} {vs : List Variable}
    {s t : List Char} {n : Nat} :
    turns escaper (v :: vs) s = .ok (t, n) ↔ ∃ u k m, v.turn escaper s = .ok (u, k) ∧
      turns escaper vs u = .ok (t, m) ∧ n = k + m := by
  rw [turns]
  constructor
  · intro h
    split at h
    · cases h
    · rename_i u k hturn
      cases hrest : turns escaper vs u with
      | error messages => simp [hrest] at h
      | ok out =>
        rw [hrest] at h
        obtain ⟨rfl, rfl⟩ := Prod.mk.inj (Except.ok.inj h)
        exact ⟨u, k, out.2, hturn, hrest, rfl⟩
  · rintro ⟨u, k, m, hturn, hrest, rfl⟩
    rw [hturn]
    dsimp only
    rw [hrest]
    rfl

theorem turns_cons_eq_error_iff {escaper : Option Escaper} {v : Variable} {vs : List Variable}
    {s : List Char} {messages : List String} :
    turns escaper (v :: vs) s = .error messages ↔ v.turn escaper s = .error messages ∨
      ∃ u k, v.turn escaper s = .ok (u, k) ∧ turns escaper vs u = .error messages := by
  rw [turns]
  cases v.turn escaper s with
  | error messages' => simp
  | ok out => simp [map_eq_error_iff, Prod.ext_iff]

theorem turns_singleton (escaper : Option Escaper) (v : Variable) (s : List Char) :
    turns escaper [v] s = v.turn escaper s := by
  rw [turns]
  cases v.turn escaper s <;> rfl

/-- The turns fail with the first failure there is. -/
theorem turns_eq_error_iff (escaper : Option Escaper) (vs : List Variable) (s : List Char)
    (messages : List String) :
    turns escaper vs s = .error messages ↔ FirstFailure escaper vs s messages := by
  induction vs generalizing s with
  | nil => simp [turns, FirstFailure]
  | cons v vs ih =>
    rw [turns_cons_eq_error_iff, Variable.turn_eq_error_iff]
    simp only [ih]
    constructor
    · rintro (hfirst | ⟨u, k, hturn, done, w, more, t, n, rfl, hdone, hfirst⟩)
      · exact ⟨[], v, vs, s, 0, rfl, rfl, hfirst⟩
      · exact ⟨v :: done, w, more, t, k + n, rfl,
          turns_cons_eq_ok_iff.2 ⟨u, k, n, hturn, hdone, rfl⟩, hfirst⟩
    · rintro ⟨done, w, more, t, n, hsplit, hdone, hfirst⟩
      cases done with
      | nil =>
        obtain ⟨rfl, rfl⟩ := List.cons.inj hsplit
        obtain ⟨rfl, rfl⟩ := Prod.mk.inj (Except.ok.inj hdone)
        exact .inl hfirst
      | cons w' done =>
        obtain ⟨rfl, rfl⟩ := List.cons.inj hsplit
        obtain ⟨u, k, m, hturn, hrest, rfl⟩ := turns_cons_eq_ok_iff.1 hdone
        exact .inr ⟨u, k, hturn, done, w, more, t, m, rfl, hrest, hfirst⟩

/-! ## A content -/

structure Stateless (escaper : Option Escaper) (vs : List Instance) (content : String) : Prop where
  /-- Each occurrence has an answer to its own arguments, -/
  captures : ∀ v ∈ vs, ∀ given, CapturesExactly v.base.parameters given
    (.ofList (captured v.base.parameters given))
  /-- the values are spliced in turn by turn, -/
  resolves : ∃ left, resolveContent escaper vs content =
    .ok (left, .ofOutcome content (turns escaper (vs.map (·.base)) content.toList))
  /-- the first failure is all that is left of a content that fails, -/
  fails_iff : ∀ messages, (∃ left, resolveContent escaper vs content =
      .ok (left, .failure content messages)) ↔
    FirstFailure escaper (vs.map (·.base)) content.toList messages
  /-- and none of it depends on what the instances still hold. -/
  leftovers : ∀ used : List Instance, used.map (·.base) = vs.map (·.base) →
    (resolveContent escaper used content).map (·.2) = (resolveContent escaper vs content).map (·.2)

theorem Resolution.ofOutcome_eq_failure_iff (content : String) (o : Outcome)
    (messages : List String) :
    ofOutcome content o = failure content messages ↔ o = .error messages := by
  cases o <;> simp [ofOutcome, success, failure]

theorem resolution_eq_turns (escaper : Option Escaper) {vs : List Variable}
    (hvs : ∀ v ∈ vs, v.Regular) (content : String) :
    resolution escaper vs content = .ok (.ofOutcome content (turns escaper vs content.toList)) := by
  rw [resolution, resolved_eq_turns escaper hvs]
  cases turns escaper vs content.toList <;> rfl

theorem exists_resolveContent_eq_turns (escaper : Option Escaper) {vs : List Instance}
    (hvs : ∀ v ∈ vs, v.base.Regular) (content : String) :
    ∃ left, resolveContent escaper vs content =
      .ok (left, .ofOutcome content (turns escaper (vs.map (·.base)) content.toList)) :=
  exists_resolveContent_of_resolution (fun v hv => (hvs v hv).determined)
    (resolution_eq_turns escaper (by simpa using hvs) content)

/-- Occurrences are isolated from each other: a content resolves by the arguments captured in it
and by nothing that was there before. -/
theorem resolveContent_stateless (escaper : Option Escaper) (vs : List Instance)
    (hvs : ∀ v ∈ vs, v.base.Regular) (content : String) : Stateless escaper vs content := by
  constructor
  case captures =>
    intro v hv given
    exact capturesExactly_ofList (hvs v hv).names given
  case resolves => exact exists_resolveContent_eq_turns escaper hvs content
  case fails_iff =>
    intro messages
    obtain ⟨left, hres⟩ := exists_resolveContent_eq_turns escaper hvs content
    rw [hres, ← turns_eq_error_iff, ← Resolution.ofOutcome_eq_failure_iff content]
    simp
  case leftovers =>
    intro used hused
    have hdetermined : ∀ v ∈ vs, v.base.Determined := fun v hv => (hvs v hv).determined
    exact resolveContent_congr escaper hdetermined hused content

/-- Instances that still hold what an earlier content has left in them. -/
def lingering : List Instance :=
  [⟨Builtin.newline, .ofList [("count", .integer 7)], ["stale"], 3⟩, .of Builtin.passthrough]

theorem regular_lingering : ∀ v ∈ lingering, v.base.Regular := by
  simp only [lingering, List.forall_mem_cons, List.not_mem_nil, false_imp_iff, implies_true,
    and_true]
  exact ⟨⟨Builtin.wellFormed_newline, by decide, Builtin.determined_newline⟩,
    Builtin.wellFormed_passthrough, by decide, Builtin.determined_passthrough⟩

def newlines : String :=
  "\x7b\x7bpassthrough:a b\x7d\x7d\x7b\x7bnewline:2\x7d\x7dé\x7b\x7bnewline\x7d\x7d"

def tooManyNewlines : String :=
  "\x7b\x7bnewline:1001\x7d\x7d\x7b\x7bnewline:9223372036854775808\x7d\x7d"

/-- The second newline is one, not two as before it and not seven as the instance still has it; of
two failures the first is told. -/
theorem resolveContent_stateless_lingering :
    (∀ v ∈ lingering, v.base.Regular) ∧
      (∃ left, resolveContent (some Posix.encode) lingering newlines =
        .ok (left, .success newlines "'a b''\n\n'é'\n'" 3)) ∧
      ∃ left, resolveContent none lingering tooManyNewlines =
        .ok (left, .failure tooManyNewlines
          ["\x7b\x7bnewline\x7d\x7d: count 1001 exceeds the maximum of 1000"]) := by
  have hnewlines :=
    resolveContent_stateless (some Posix.encode) lingering regular_lingering newlines
  have htooMany := resolveContent_stateless none lingering regular_lingering tooManyNewlines
  have hvalues : turns (some Posix.encode) (lingering.map (·.base)) newlines.toList =
      .ok ("'a b''\n\n'é'\n'".toList, 3) := by decide +kernel
  have hmessages : turns none (lingering.map (·.base)) tooManyNewlines.toList =
      .error ["\x7b\x7bnewline\x7d\x7d: count 1001 exceeds the maximum of 1000"] := by
    decide +kernel
  refine ⟨regular_lingering, ?_, ?_⟩
  · obtain ⟨left, hres⟩ := hnewlines.resolves
    rw [hvalues, Resolution.ofOutcome, String.ofList_toList] at hres
    exact ⟨left, hres⟩
  · obtain ⟨left, hres⟩ := htooMany.resolves
    rw [hmessages, Resolution.ofOutcome] at hres
    exact ⟨left, hres⟩

end CommandTemplate
