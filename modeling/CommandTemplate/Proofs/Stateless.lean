import CommandTemplate.Proofs.Occurrences
import CommandTemplate.Proofs.Results
import CommandTemplate.Resolution

/-!
# Resolving without state

An instance carries arguments, messages and a count from one occurrence to the next. For variables
that are determined by their arguments none of it shows: what a text resolves to is a function of
the variables alone, and the instances are left with the same variables as before.
-/
namespace CommandTemplate

/-- The arguments that a token gives a variable, by their places in its schema. -/
def Variable.argumentsOf (v : Variable) (given : List (Option (List Char))) : Arguments :=
  ((v.parameters.map (·.name)).zip given).foldl
    (fun d (parameter, raw) =>
      match raw with
      | some raw => d.insert parameter (v.argument parameter (String.ofList raw))
      | none => d)
    ∅

def Failure.reported (name : String) (f : Failure) : List String :=
  if f.messages.isEmpty then [tokenOf name ++ ": no value could be generated"] else f.messages

/-- The value of a variable for the arguments of a token, or the messages of its failure. -/
def Variable.outcome (v : Variable) (given : List (Option (List Char))) :
    Except (List String) String :=
  match v.generate (v.argumentsOf given) 0 with
  | .ok value => .ok value
  | .error failure => .error (failure.reported v.name)

/-- What becomes of the pieces of a text when a variable puts its values in. -/
def Variable.substituted (escaper : Option Escaper) (v : Variable) : List Piece → Outcome
  | [] => .ok ([], 0)
  | .char c :: ps => (v.substituted escaper ps).map fun (s, n) => (c :: s, n)
  | .token t :: ps =>
    match v.outcome t.arguments with
    | .error messages => .error messages
    | .ok value =>
      (v.substituted escaper ps).map fun (s, n) => (insertedText escaper t value ++ s, n + 1)

def resolved (escaper : Option Escaper) :
    List Variable → List Char → Except TemplateError Outcome
  | [], s => .ok (.ok (s, 0))
  | v :: vs, s =>
    match v.pattern with
    | .error e => .error e
    | .ok p =>
      match v.substituted escaper (p.pieces s) with
      | .error messages => .ok (.error messages)
      | .ok (s, n) => (resolved escaper vs s).map fun o => o.map fun (s, m) => (s, n + m)

def resolution (escaper : Option Escaper) (vs : List Variable) (content : String) :
    Except TemplateError Resolution :=
  (resolved escaper vs content.toList).map fun
    | .ok (s, n) => .success content (String.ofList s) n
    | .error messages => .failure content messages

namespace Instance

/-- Setting arguments changes nothing but the arguments. -/
theorem setArguments_reset (v : Instance) (given : List (Option (List Char))) :
    v.reset.setArguments given = { v.reset with arguments := v.base.argumentsOf given } := by
  refine List.foldl_hom (fun a => ({ v.reset with arguments := a } : Instance)) ?_
  intro a e
  obtain ⟨parameter, raw⟩ := e
  cases raw <;> rfl

theorem base_answer (v : Instance) (t : Token) : (v.answer t).1.base = v.base := by
  rw [answer, setArguments_reset, generate]
  simp only [reset]
  cases v.base.generate (v.base.argumentsOf t.arguments) v.drawn <;> rfl

/-- An answer shows nothing of what the instance was used for before. -/
theorem answer_eq_outcome {v : Instance} (hv : v.base.Determined) (t : Token) :
    (v.answer t).2 = v.base.outcome t.arguments := by
  have hgen := hv (v.base.argumentsOf t.arguments) v.drawn 0
  rw [answer, setArguments_reset, generate]
  simp only [reset]
  rw [hgen, Variable.outcome]
  cases v.base.generate (v.base.argumentsOf t.arguments) 0 with
  | ok value => rfl
  | error failure => simp [record, Failure.reported]

theorem base_substitute (escaper : Option Escaper) (v : Instance) (ps : List Piece) :
    (v.substitute escaper ps).1.base = v.base := by
  induction ps generalizing v with
  | nil => rfl
  | cons piece ps ih =>
    cases piece with
    | char c =>
      have hbase := ih v
      rw [substitute]
      generalize v.substitute escaper ps = r at *
      obtain ⟨w, o⟩ := r
      cases o <;> exact hbase
    | token t =>
      have hanswer := base_answer v t
      rw [substitute]
      generalize v.answer t = r at *
      obtain ⟨w, o⟩ := r
      cases o with
      | error messages => exact hanswer
      | ok value =>
        have hbase := (ih w).trans hanswer
        dsimp only
        generalize w.substitute escaper ps = r at *
        obtain ⟨w', o⟩ := r
        cases o <;> exact hbase

/-- What a variable puts in does not depend on what it was asked before. -/
theorem substitute_eq_substituted (escaper : Option Escaper) {v : Instance}
    (hv : v.base.Determined) (ps : List Piece) :
    (v.substitute escaper ps).2 = v.base.substituted escaper ps := by
  induction ps generalizing v with
  | nil => rfl
  | cons piece ps ih =>
    cases piece with
    | char c =>
      rw [substitute, Variable.substituted, ← ih hv]
      generalize v.substitute escaper ps = r
      obtain ⟨w, o⟩ := r
      cases o <;> rfl
    | token t =>
      have hanswer := base_answer v t
      rw [substitute, Variable.substituted, ← answer_eq_outcome hv t]
      generalize v.answer t = r at *
      obtain ⟨w, o⟩ := r
      cases o with
      | error messages => rfl
      | ok value =>
        dsimp only at hanswer ⊢
        rw [← hanswer, ← ih (by rw [hanswer]; exact hv)]
        generalize w.substitute escaper ps = r
        obtain ⟨w', o⟩ := r
        cases o <;> rfl

end Instance

/-! ## A whole text -/

section

variable {escaper : Option Escaper} {v w : Instance} {vs left : List Instance} {p : TokenPattern}
  {s : List Char}

theorem resolveText_cons_of_failed (hp : v.base.pattern = .ok p) {messages : List String}
    (h : v.substitute escaper (p.pieces s) = (w, .error messages)) (vs : List Instance) :
    resolveText escaper (v :: vs) s = .ok (w :: vs, .error messages) := by
  rw [resolveText, hp]
  dsimp only
  rw [h]

theorem resolveText_cons_of_ok (hp : v.base.pattern = .ok p) {t : List Char} {n : Nat}
    (h : v.substitute escaper (p.pieces s) = (w, .ok (t, n))) (vs : List Instance) :
    resolveText escaper (v :: vs) s = (resolveText escaper vs t).map fun (left, o) =>
      (w :: left, o.map fun (u, m) => (u, n + m)) := by
  rw [resolveText, hp]
  dsimp only
  rw [h]
  dsimp only
  cases resolveText escaper vs t with
  | error e => rfl
  | ok r =>
    obtain ⟨left, o⟩ := r
    cases o <;> rfl

/-- All that resolving with a first variable and others can come to. -/
theorem resolveText_cons_cases {o : Outcome} (h : resolveText escaper (v :: vs) s = .ok (left, o)) :
    ∃ p w, v.base.pattern = .ok p ∧
      ((∃ messages, v.substitute escaper (p.pieces s) = (w, .error messages) ∧
          left = w :: vs ∧ o = .error messages) ∨
        ∃ t n left' o', v.substitute escaper (p.pieces s) = (w, .ok (t, n)) ∧
          resolveText escaper vs t = .ok (left', o') ∧ left = w :: left' ∧
          o = o'.map fun (u, m) => (u, n + m)) := by
  cases hp : v.base.pattern with
  | error e =>
    rw [resolveText, hp] at h
    cases h
  | ok p =>
    rcases hsub : v.substitute escaper (p.pieces s) with ⟨w, out⟩
    refine ⟨p, w, rfl, ?_⟩
    cases out with
    | error messages =>
      rw [resolveText_cons_of_failed hp hsub] at h
      obtain ⟨rfl, rfl⟩ := Prod.mk.inj (Except.ok.inj h)
      exact .inl ⟨messages, hsub, rfl, rfl⟩
    | ok out =>
      obtain ⟨t, n⟩ := out
      rw [resolveText_cons_of_ok hp hsub] at h
      obtain ⟨⟨left', o'⟩, hrest, he⟩ := map_eq_ok_iff.1 h
      obtain ⟨rfl, rfl⟩ := Prod.mk.inj he
      exact .inr ⟨t, n, left', o', hsub, hrest, rfl, rfl⟩

end

/-- The variables that a text is resolved with are there again afterwards. -/
theorem base_resolveText {escaper : Option Escaper} {vs left : List Instance} {s : List Char}
    {o : Outcome} (h : resolveText escaper vs s = .ok (left, o)) :
    left.map (·.base) = vs.map (·.base) := by
  induction vs generalizing s left o with
  | nil =>
    simp only [resolveText, Except.ok.injEq, Prod.mk.injEq] at h
    rw [← h.1]
  | cons v vs ih =>
    obtain ⟨p, w, -, hcases⟩ := resolveText_cons_cases h
    have hbase := v.base_substitute escaper (p.pieces s)
    rcases hcases with ⟨messages, hsub, rfl, -⟩ | ⟨t, n, left', o', hsub, hrest, rfl, -⟩
    · rw [hsub] at hbase
      rw [List.map_cons, List.map_cons, hbase]
    · rw [hsub] at hbase
      rw [List.map_cons, List.map_cons, hbase, ih hrest]

theorem resolveText_eq_resolved (escaper : Option Escaper) {vs : List Instance}
    (hvs : ∀ v ∈ vs, v.base.Determined) (s : List Char) :
    (resolveText escaper vs s).map (·.2) = resolved escaper (vs.map (·.base)) s := by
  induction vs generalizing s with
  | nil => rfl
  | cons v vs ih =>
    obtain ⟨hv, hvs⟩ := List.forall_mem_cons.1 hvs
    rw [resolveText, List.map_cons, resolved]
    cases v.base.pattern with
    | error e => rfl
    | ok p =>
      dsimp only
      rw [← Instance.substitute_eq_substituted escaper hv]
      generalize v.substitute escaper (p.pieces s) = r
      obtain ⟨w, o⟩ := r
      cases o with
      | error messages => rfl
      | ok sn =>
        obtain ⟨s', n⟩ := sn
        dsimp only
        rw [← ih hvs s']
        cases resolveText escaper vs s' with
        | error e => rfl
        | ok r =>
          obtain ⟨left, o⟩ := r
          cases o <;> rfl

/-- A text that is resolved has had the turn of the first variable and then those of the others. -/
theorem exists_of_resolved_cons {escaper : Option Escaper} {v : Variable} {vs : List Variable}
    {s s' : List Char} {n : Nat} (h : resolved escaper (v :: vs) s = .ok (.ok (s', n))) :
    ∃ p t k m, v.pattern = .ok p ∧ v.substituted escaper (p.pieces s) = .ok (t, k) ∧
      resolved escaper vs t = .ok (.ok (s', m)) ∧ n = k + m := by
  rw [resolved] at h
  split at h
  · cases h
  · rename_i p hp
    split at h
    · cases h
    · rename_i t k hsub
      cases hrest : resolved escaper vs t with
      | error e => simp [hrest] at h
      | ok o =>
        cases o with
        | error messages => simp [hrest] at h
        | ok out =>
          obtain ⟨t', m⟩ := out
          simp only [hrest, map_ok, Except.ok.injEq, Prod.mk.injEq] at h
          obtain ⟨rfl, rfl⟩ := h
          exact ⟨p, t, k, m, hp, hsub, hrest, rfl⟩

theorem resolved_append {escaper : Option Escaper} {vs ws : List Variable} {s s' t : List Char}
    {n m : Nat} (h : resolved escaper vs s = .ok (.ok (s', n)))
    (h' : resolved escaper ws s' = .ok (.ok (t, m))) :
    resolved escaper (vs ++ ws) s = .ok (.ok (t, n + m)) := by
  induction vs generalizing s n with
  | nil =>
    simp only [resolved, Except.ok.injEq, Prod.mk.injEq] at h
    obtain ⟨rfl, rfl⟩ := h
    rw [List.nil_append, h', Nat.zero_add]
  | cons v vs ih =>
    obtain ⟨p, u, k, l, hp, hsub, hrest, rfl⟩ := exists_of_resolved_cons h
    rw [List.cons_append, resolved, hp]
    simp only [hsub]
    rw [ih hrest]
    simp [Nat.add_assoc]

/-- Nothing but a malformed schema keeps a text from being resolved. -/
theorem exists_resolveText (escaper : Option Escaper) {vs : List Instance}
    (hvs : ∀ v ∈ vs, WellFormed v.base.parameters) (s : List Char) :
    ∃ left o, resolveText escaper vs s = .ok (left, o) := by
  induction vs generalizing s with
  | nil => exact ⟨_, _, rfl⟩
  | cons v vs ih =>
    obtain ⟨hv, hvs⟩ := List.forall_mem_cons.1 hvs
    obtain ⟨slots, hp, -⟩ := TokenPattern.ofSchema_eq_ok v.base.name hv
    rcases hsub : v.substitute escaper (TokenPattern.pieces ⟨v.base.name.toList, slots⟩ s)
      with ⟨w, messages | ⟨t, n⟩⟩
    · exact ⟨_, _, resolveText_cons_of_failed hp hsub vs⟩
    · obtain ⟨left, o, hrest⟩ := ih hvs t
      rw [resolveText_cons_of_ok hp hsub, hrest]
      exact ⟨_, _, rfl⟩

/-! ## A content -/

theorem base_resolveContent {escaper : Option Escaper} {vs left : List Instance}
    {content : String} {r : Resolution} (h : resolveContent escaper vs content = .ok (left, r)) :
    left.map (·.base) = vs.map (·.base) := by
  rw [resolveContent] at h
  split at h
  · simp at h
  all_goals
    rename_i htext
    simp only [Except.ok.injEq, Prod.mk.injEq] at h
    rw [← h.1]
    exact base_resolveText htext

theorem exists_resolveContent (escaper : Option Escaper) {vs : List Instance}
    (hvs : ∀ v ∈ vs, WellFormed v.base.parameters) (content : String) :
    ∃ left r, resolveContent escaper vs content = .ok (left, r) := by
  obtain ⟨left, o, htext⟩ := exists_resolveText escaper hvs content.toList
  rw [resolveContent, htext]
  cases o <;> exact ⟨_, _, rfl⟩

/-- What a content resolves to does not depend on what the instances were used for before. -/
theorem resolveContent_eq_resolution (escaper : Option Escaper) {vs : List Instance}
    (hvs : ∀ v ∈ vs, v.base.Determined) (content : String) :
    (resolveContent escaper vs content).map (·.2) =
      resolution escaper (vs.map (·.base)) content := by
  rw [resolveContent, resolution, ← resolveText_eq_resolved escaper hvs]
  cases resolveText escaper vs content.toList with
  | error e => rfl
  | ok r =>
    obtain ⟨left, o⟩ := r
    cases o <;> rfl

theorem Instance.map_base_of (vs : List Variable) : (vs.map Instance.of).map (·.base) = vs := by
  simp [Function.comp_def]

theorem Instance.determined_of_map_base_eq {used : List Instance} {vs : List Variable}
    (hbase : used.map (·.base) = vs) (hvs : ∀ v ∈ vs, v.Determined) :
    ∀ v ∈ used, v.base.Determined := by
  subst hbase
  exact fun v hv => hvs v.base (List.mem_map_of_mem hv)

/-- Instances of the same variables resolve a content alike, whatever they were used for. -/
theorem resolveContent_congr (escaper : Option Escaper) {vs used : List Instance}
    (hvs : ∀ v ∈ vs, v.base.Determined) (hused : used.map (·.base) = vs.map (·.base))
    (content : String) :
    (resolveContent escaper used content).map (·.2) =
      (resolveContent escaper vs content).map (·.2) := by
  have hleft := Instance.determined_of_map_base_eq hused (List.forall_mem_map.2 hvs)
  rw [resolveContent_eq_resolution escaper hleft, hused, resolveContent_eq_resolution escaper hvs]

theorem exists_resolveContent_of_resolution {escaper : Option Escaper} {vs : List Instance}
    (hvs : ∀ v ∈ vs, v.base.Determined) {content : String} {r : Resolution}
    (h : resolution escaper (vs.map (·.base)) content = .ok r) :
    ∃ left, resolveContent escaper vs content = .ok (left, r) := by
  rw [← resolveContent_eq_resolution escaper hvs] at h
  cases hc : resolveContent escaper vs content with
  | error e => simp [hc] at h
  | ok out =>
    simp only [hc, map_ok, Except.ok.injEq] at h
    exact ⟨out.1, by rw [← h]⟩

end CommandTemplate
