import CommandTemplate.Proofs.History
import CommandTemplate.Variable.Builtin

/-!
# Errors leave no trace

A phase takes its set off the queue and puts the results into the run one by one, so an error on the
way would leave a run that is neither as before nor behind the phase. There is none: whatever can be
refused is refused before anything is touched.
-/
namespace CommandTemplate.Run

variable {r r' : Run}

/-! ## A phase in place -/

/-- Resolves contents one by one and puts each result into the run at once. -/
def commitContents (r : Run) (vs : List Instance) :
    List (String × String) → Run × Except TemplateError Bool
  | [] => (r, .ok true)
  | (key, content) :: contents =>
    match resolveContent (r.escaperFor key) vs (r.inputFor key content) with
    | .error e => (r, .error e)
    | .ok (vs, next) =>
      match (r.record key (r.resultAfter key next)).commitContents vs contents with
      | (r, .error e) => (r, .error e)
      | (r, .ok ok) => (r, .ok (next.succeeded && ok))

/-- The next phase, done on the run itself: an error leaves it as far as the phase had come. -/
def advanceInPlace (r : Run) : Run × Except TemplateError Bool :=
  if r.hasFailed then (r, .ok false)
  else
    match r.queue with
    | [] => (r, .error .noPhasesRemaining)
    | vs :: queue =>
      match checkSchemas vs with
      | .error e => (r, .error e)
      | .ok () =>
        match { r with queue := queue }.commitContents vs r.contents with
        | (r, .error e) => (r, .error e)
        | (r, .ok ok) => ({ r with completed := r.completed + 1 }, .ok ok)

/-- Contents are resolved one by one, each with the run in which those before have their results. -/
theorem resolveContents_cons {vs left : List Instance} {key content : String} {next : Resolution}
    (h : resolveContent (r.escaperFor key) vs (r.inputFor key content) = .ok (left, next))
    (contents : List (String × String)) :
    r.resolveContents vs ((key, content) :: contents) =
      ((r.record key (r.resultAfter key next)).resolveContents left contents).map
        fun (results, ok) => (results, next.succeeded && ok) := by
  rw [resolveContents, h]
  rfl

/-- The queue has no say in how contents resolve. -/
theorem resolveContents_queue (r : Run) (queue : List (List Instance)) (vs : List Instance)
    (contents : List (String × String)) :
    { r with queue := queue }.resolveContents vs contents = r.resolveContents vs contents := by
  induction contents generalizing r vs with
  | nil => rfl
  | cons e contents ih =>
    obtain ⟨key, content⟩ := e
    cases hres : resolveContent (r.escaperFor key) vs (r.inputFor key content) with
    | error e =>
      have hqueue : resolveContent ({ r with queue := queue }.escaperFor key) vs
          ({ r with queue := queue }.inputFor key content) = .error e := hres
      rw [resolveContents, resolveContents, hres, hqueue]
    | ok out =>
      have hqueue : resolveContent ({ r with queue := queue }.escaperFor key) vs
          ({ r with queue := queue }.inputFor key content) = .ok out := hres
      rw [resolveContents_cons hres, resolveContents_cons hqueue]
      exact congrArg _ (ih (r.record key (r.resultAfter key out.2)) out.1)

/-- Where no error comes up, the results put in at once are those that are collected first. -/
theorem commitContents_of_resolveContents {vs : List Instance} {contents : List (String × String)}
    {results : Dict Resolution} {ok : Bool}
    (h : r.resolveContents vs contents = .ok (results, ok)) :
    r.commitContents vs contents = ({ r with results := results }, .ok ok) := by
  induction contents generalizing r vs ok with
  | nil =>
    rw [resolveContents, Except.ok.injEq, Prod.mk.injEq] at h
    obtain ⟨rfl, rfl⟩ := h
    rfl
  | cons e contents ih =>
    obtain ⟨key, content⟩ := e
    cases hres : resolveContent (r.escaperFor key) vs (r.inputFor key content) with
    | error e => simp [resolveContents, hres] at h
    | ok out =>
      obtain ⟨left, next⟩ := out
      rw [resolveContents_cons hres] at h
      cases hrest : (r.record key (r.resultAfter key next)).resolveContents left contents with
      | error e => simp [hrest] at h
      | ok out =>
        obtain ⟨results', ok'⟩ := out
        simp only [hrest, map_ok, Except.ok.injEq, Prod.mk.injEq] at h
        obtain ⟨rfl, rfl⟩ := h
        rw [commitContents, hres]
        simp only [ih hrest]
        rfl

/-- Once the schemas of a set have been looked at, no content can meet an error. -/
theorem exists_commitContents {vs : List Instance} (hvs : checkSchemas vs = .ok ())
    (queue : List (List Instance)) (hkeys : (r.contents.map (·.1)).Nodup) :
    ∃ results ok, r.resolveContents vs r.contents = .ok (results, ok) ∧
      { r with queue := queue }.commitContents vs r.contents =
        ({ r with queue := queue, results := results }, .ok ok) := by
  obtain ⟨next, results, hres, -, -⟩ :=
    exists_resolveContents r ((checkSchemas_eq_ok_iff vs).1 hvs) hkeys
  refine ⟨results, _, hres, ?_⟩
  rw [← resolveContents_queue r queue] at hres
  exact commitContents_of_resolveContents hres

/-- A phase in place is never left half done. -/
theorem advance_eq_advanceInPlace (hkeys : (r.contents.map (·.1)).Nodup) :
    r.advance = r.advanceInPlace := by
  rw [advance, advanceInPlace]
  cases hfailed : r.hasFailed with
  | true => rfl
  | false =>
    cases hqueue : r.queue with
    | nil => rfl
    | cons vs queue =>
      cases hcheck : checkSchemas vs with
      | error e => simp [hcheck]
      | ok u =>
        obtain ⟨results, ok, hres, hcommit⟩ := exists_commitContents hcheck queue hkeys
        simp [hcheck, hres, hcommit]

/-! ## Errors -/

/-- An error leaves the run as it is, and is either that nothing is queued or that the next set is
refused. -/
theorem advance_eq_error (hkeys : (r.contents.map (·.1)).Nodup) {e : TemplateError}
    (h : r.advance = (r', .error e)) : r' = r ∧ r.hasFailed = false ∧
      ((r.queue = [] ∧ e = .noPhasesRemaining) ∨
        ∃ vs queue, r.queue = vs :: queue ∧ RefusedWith (vs.map (·.base)) e) := by
  have hadvances := advances hkeys
  rw [h] at hadvances
  cases hadvances with
  | exhausted hfailed hqueue => exact ⟨rfl, hfailed, .inl ⟨hqueue, rfl⟩⟩
  | refused hfailed hqueue hrefused => exact ⟨rfl, hfailed, .inr ⟨_, _, hqueue, hrefused⟩⟩

/-! ## Several phases -/

/-- So many phases, each of which succeeds, lead from one run to the other. -/
inductive Completes : Nat → Run → Run → Prop where
  | none (r : Run) : Completes 0 r r
  | next {n : Nat} {r r' r'' : Run} :
    r.advance = (r', .ok true) → Completes n r' r'' → Completes (n + 1) r r''

theorem advance_eq_ok_true (hkeys : (r.contents.map (·.1)).Nodup)
    (h : r.advance = (r', .ok true)) :
    r'.contents = r.contents ∧ r'.completed = r.completed + 1 ∧ ∃ vs, r.queue = vs :: r'.queue := by
  have hadvances := advances hkeys
  rw [h] at hadvances
  generalize hout : (Except.ok true : Except TemplateError Bool) = o at hadvances
  cases hadvances with
  | failed _ => cases hout
  | exhausted _ _ => cases hout
  | refused _ _ _ => cases hout
  | phase hfailed hqueue _ _ _ => exact ⟨rfl, rfl, _, hqueue⟩

/-- Each completed phase takes one set from the front of the queue. -/
theorem Completes.queue_eq {n : Nat} (h : Completes n r r') (hkeys : (r.contents.map (·.1)).Nodup) :
    r'.contents = r.contents ∧ r'.completed = r.completed + n ∧ r'.queue = r.queue.drop n := by
  induction h with
  | none r => exact ⟨rfl, rfl, rfl⟩
  | @next n r r₁ r₂ hadvance _ ih =>
    obtain ⟨hcontents, hcompleted, vs, hqueue⟩ := advance_eq_ok_true hkeys hadvance
    obtain ⟨hcontents', hcompleted', hqueue'⟩ := ih (by rw [hcontents]; exact hkeys)
    refine ⟨hcontents'.trans hcontents, by omega, ?_⟩
    rw [hqueue', hqueue, List.drop_succ_cons]

/-- Advancing stops at an error behind phases that all succeeded. -/
theorem advanceUpTo_eq_error {n : Nat} {e : TemplateError} (h : r.advanceUpTo n = (r', .error e)) :
    ∃ k last, k < n ∧ Completes k r last ∧ last.advance = (r', .error e) := by
  induction n generalizing r with
  | zero => simp [advanceUpTo] at h
  | succ n ih =>
    rw [advanceUpTo] at h
    split at h
    · rename_i r₁ hadvance
      obtain ⟨k, last, hk, hcompletes, hlast⟩ := ih h
      exact ⟨k + 1, last, Nat.succ_lt_succ hk, .next hadvance hcompletes, hlast⟩
    · rename_i r₁ other _ hadvance
      rw [h] at hadvance
      exact ⟨0, r, Nat.succ_pos n, .none r, hadvance⟩

/-! ## Atomicity -/

structure Atomic (r : Run) : Prop where
  add_refused : ∀ key content, key ∈ r.contents.map (·.1) →
    r.addContent key content = .error (.duplicateKey key) ∧ (Operation.add key content).apply r = r
  advance_error_iff : r.hasFailed = false → ∀ e, r.advance.2 = .error e ↔
    (r.queue = [] ∧ e = .noPhasesRemaining) ∨
      ∃ vs queue, r.queue = vs :: queue ∧ RefusedWith (vs.map (·.base)) e
  advance_unchanged : ∀ e, r.advance.2 = .error e → r.advance.1 = r
  /-- That holds of a phase that works on the run itself, -/
  in_place : r.advance = r.advanceInPlace
  /-- which meets no error once its set is off the queue. -/
  committed : ∀ vs queue, r.queue = vs :: queue → checkSchemas vs = .ok () →
    ∃ r' ok, { r with queue := queue }.commitContents vs r.contents = (r', .ok ok)
  advanceAll_error : ∀ last e, r.advanceAll = (last, .error e) →
    ∃ n vs queue, Completes n r last ∧ last.completed = r.completed + n ∧
      r.queue.drop n = vs :: queue ∧ last.queue = vs :: queue ∧ RefusedWith (vs.map (·.base)) e

theorem Coherent.atomic (h : r.Coherent) : r.Atomic := by
  have hkeys := h.keys_nodup
  constructor
  case add_refused =>
    intro key content hkey
    rcases r.addContent_cases key content with ⟨-, hadd⟩ | ⟨hnew, -⟩
    · exact ⟨hadd, by rw [Operation.apply, hadd]⟩
    · exact absurd hkey hnew
  case advance_error_iff =>
    intro hfailed e
    constructor
    · intro herror
      exact (advance_eq_error hkeys (Prod.ext rfl herror)).2.2
    · rintro (⟨hqueue, rfl⟩ | ⟨vs, queue, hqueue, hrefused⟩)
      · rw [advance_of_queue_eq_nil hfailed hqueue]
      · rw [advance_of_refused hfailed hqueue hrefused]
  case advance_unchanged =>
    intro e herror
    exact (advance_eq_error hkeys (Prod.ext rfl herror)).1
  case in_place => exact advance_eq_advanceInPlace hkeys
  case committed =>
    intro vs queue hqueue hcheck
    obtain ⟨results, ok, -, hcommit⟩ := exists_commitContents hcheck queue hkeys
    exact ⟨_, ok, hcommit⟩
  case advanceAll_error =>
    intro last e herror
    rw [advanceAll] at herror
    split at herror
    · simp at herror
    · obtain ⟨n, stopped, hn, hcompletes, hadvance⟩ := advanceUpTo_eq_error herror
      obtain ⟨hcontents, hcompleted, hqueue⟩ := hcompletes.queue_eq hkeys
      obtain ⟨rfl, -, ⟨hempty, -⟩ | ⟨vs, queue, hfront, hrefused⟩⟩ :=
        advance_eq_error (by rw [hcontents]; exact hkeys) hadvance
      · rw [hqueue, List.drop_eq_nil_iff] at hempty
        omega
      · exact ⟨n, vs, queue, hcompletes, hcompleted, hqueue ▸ hfront, hfront, hrefused⟩

/-- Whatever has been done to a run, its errors leave no trace. -/
theorem errors_atomic (shell : Shell) (ops : List Operation) :
    ((start shell).perform ops).Atomic := (coherent_perform shell ops).atomic

/-- The first variable of the second set would fail, but the schema of the other is at fault. -/
example :
    let untyped := { Builtin.newline with parameters := [⟨"count", none, none, false⟩] }
    let r := (start .bash).perform [.add "a" "\x7b\x7bnewline:9999\x7d\x7d", .move (.push []),
      .move (.push [Builtin.newline, untyped])]
    r.advanceAll.2 = .error (.invalidParameter "newline" "count" .neitherTypeNorOptions) ∧
      (r.advanceAll.1.completed, r.advanceAll.1.remaining, r.advanceAll.1.state) =
        (1, 1, .pending) := by decide +kernel

end CommandTemplate.Run
