import CommandTemplate.Proofs.Isolation

/-!
# Histories of a run

Anything can be done to a run at any time: contents and exempt keys come in between phases, keys are
taken, sets are malformed, variables fail. What a phase can come to is said once, and what every
phase keeps is kept by every history. Nothing is asked of the variables here.
-/
namespace CommandTemplate

/-! ## What a resolution says -/

/-- Either there is a text and no message, or there are messages and no text. -/
def Resolution.Decided (r : Resolution) : Prop :=
  (r.succeeded = true ∧ r.resolved.isSome ∧ r.messages = []) ∨
    (r.succeeded = false ∧ r.resolved = none ∧ r.messages ≠ [])

namespace Resolution

variable {r next : Resolution}

theorem Decided.messages_eq_nil (h : r.Decided) (hr : r.succeeded = true) : r.messages = [] := by
  rcases h with ⟨-, -, hmessages⟩ | ⟨hfailed, -, -⟩
  · exact hmessages
  · simp [hr] at hfailed

theorem Decided.messages_ne_nil_iff (h : r.Decided) : r.messages ≠ [] ↔ r.succeeded = false := by
  rcases h with ⟨hr, -, hmessages⟩ | ⟨hr, -, hmessages⟩ <;> simp [hr, hmessages]

theorem Decided.resolved_eq_none_iff (h : r.Decided) : r.resolved = none ↔ r.succeeded = false := by
  rcases h with ⟨hr, hresolved, -⟩ | ⟨hr, hresolved, -⟩
  · simp [hr, Option.isSome_iff_ne_none.1 hresolved]
  · simp [hr, hresolved]

theorem Decided.isSome_resolved_iff (h : r.Decided) : r.resolved.isSome ↔ r.succeeded = true := by
  rw [Option.isSome_iff_ne_none, Ne, h.resolved_eq_none_iff, Bool.not_eq_false]

/-- Only a success is ever resolved further, so that the later resolution decides. -/
theorem Decided.merge (h : r.Decided) (hr : r.succeeded = true) (hnext : next.Decided) :
    (r.merge next).Decided := by
  simpa [Decided, hr, h.messages_eq_nil hr] using hnext

end Resolution

/-- A failure always says something. -/
theorem Instance.messages_answer_ne_nil {v w : Instance} {t : Token} {messages : List String}
    (h : v.answer t = (w, .error messages)) : messages ≠ [] := by
  rw [answer] at h
  split at h
  · simp at h
  · rename_i u failure _
    simp only [Prod.mk.injEq, Except.error.injEq] at h
    rw [← h.2, record]
    cases hm : failure.messages <;> simp

theorem Instance.messages_substitute_ne_nil {escaper : Option Escaper} {v w : Instance}
    {ps : List Piece} {messages : List String}
    (h : v.substitute escaper ps = (w, .error messages)) : messages ≠ [] := by
  induction ps generalizing v w with
  | nil => simp [substitute] at h
  | cons piece ps ih =>
    cases piece with
    | char c =>
      rw [substitute] at h
      split at h
      · simp at h
      · rename_i hrest
        simp only [Prod.mk.injEq, Except.error.injEq] at h
        obtain ⟨-, rfl⟩ := h
        exact ih hrest
    | token t =>
      rw [substitute] at h
      split at h
      · rename_i hanswer
        simp only [Prod.mk.injEq, Except.error.injEq] at h
        obtain ⟨-, rfl⟩ := h
        exact messages_answer_ne_nil hanswer
      · split at h
        · simp at h
        · rename_i hrest
          simp only [Prod.mk.injEq, Except.error.injEq] at h
          obtain ⟨-, rfl⟩ := h
          exact ih hrest

theorem messages_resolveText_ne_nil {escaper : Option Escaper} {vs left : List Instance}
    {s : List Char} {messages : List String}
    (h : resolveText escaper vs s = .ok (left, .error messages)) : messages ≠ [] := by
  induction vs generalizing s left with
  | nil => simp [resolveText] at h
  | cons v vs ih =>
    obtain ⟨p, w, -, ⟨messages, hsub, -, ho⟩ | ⟨t, n, left', o', -, hrest, -, ho⟩⟩ :=
      resolveText_cons_cases h
    · rw [Except.error.inj ho]
      exact Instance.messages_substitute_ne_nil hsub
    · obtain rfl : o' = .error _ := map_eq_error_iff.1 ho.symm
      exact ih hrest

/-- Every resolution of a content is a success with a text or a failure with messages. -/
theorem decided_resolveContent {escaper : Option Escaper} {vs left : List Instance}
    {content : String} {r : Resolution} (h : resolveContent escaper vs content = .ok (left, r)) :
    r.Decided ∧ r.content = content := by
  rw [resolveContent] at h
  split at h
  · simp at h
  · simp only [Except.ok.injEq, Prod.mk.injEq] at h
    rw [← h.2]
    exact ⟨.inl ⟨rfl, rfl, rfl⟩, rfl⟩
  · rename_i htext
    simp only [Except.ok.injEq, Prod.mk.injEq] at h
    rw [← h.2]
    exact ⟨.inr ⟨rfl, rfl, messages_resolveText_ne_nil htext⟩, rfl⟩

namespace Run

variable {r : Run}

/-! ## What a phase comes to -/

/-- All that asking a run for its next phase can come to. -/
inductive Advances (r : Run) : Run × Except TemplateError Bool → Prop where
  | failed : r.hasFailed = true → r.Advances (r, .ok false)
  | exhausted : r.hasFailed = false → r.queue = [] → r.Advances (r, .error .noPhasesRemaining)
  | refused {vs : List Instance} {queue : List (List Instance)} {e : TemplateError} :
    r.hasFailed = false → r.queue = vs :: queue → RefusedWith (vs.map (·.base)) e →
    r.Advances (r, .error e)
  | phase {vs : List Instance} {queue : List (List Instance)} {next : String → Resolution}
      {results : Dict Resolution} :
    r.hasFailed = false → r.queue = vs :: queue → (∀ v ∈ vs, WellFormed v.base.parameters) →
    (∀ key content, (key, content) ∈ r.contents → r.Yields vs key content (next key)) →
    r.Extends r.contents next results →
    r.Advances ({ r with results := results, queue := queue, completed := r.completed + 1 },
      .ok (r.contents.all fun e => (next e.1).succeeded))

/-- Asking for the next phase comes to one of these. -/
theorem advances (hkeys : (r.contents.map (·.1)).Nodup) : r.Advances r.advance := by
  cases hfailed : r.hasFailed with
  | true =>
    rw [advance_of_hasFailed hfailed]
    exact .failed hfailed
  | false =>
    cases hqueue : r.queue with
    | nil =>
      rw [advance_of_queue_eq_nil hfailed hqueue]
      exact .exhausted hfailed hqueue
    | cons vs queue =>
      cases hcheck : checkSchemas vs with
      | error e =>
        have hrefused := (checkSchemas_eq_error_iff vs e).1 hcheck
        rw [advance_of_refused hfailed hqueue hrefused]
        exact .refused hfailed hqueue hrefused
      | ok u =>
        have hvs := (checkSchemas_eq_ok_iff vs).1 hcheck
        obtain ⟨next, results, hadvance, hyields, hextends⟩ :=
          exists_advance hfailed hqueue hvs hkeys
        rw [hadvance]
        exact .phase hfailed hqueue hvs hyields hextends

/-- What single phases preserve, any number of them preserves. -/
theorem advanceUpTo_induction {P : Run → Prop} (hstep : ∀ r, P r → P r.advance.1) (n : Nat)
    (h : P r) : P (r.advanceUpTo n).1 := by
  induction n generalizing r with
  | zero => exact h
  | succ n ih =>
    have hnext := hstep r h
    rw [advanceUpTo]
    split
    · rename_i hadvance
      rw [hadvance] at hnext
      exact ih hnext
    · rename_i hadvance
      rw [hadvance] at hnext
      exact hnext

/-- What one phase keeps, all phases keep. -/
theorem advanceAll_induction {P : Run → Prop} (hstep : ∀ r, P r → P r.advance.1)
    (h : P r) : P r.advanceAll.1 := by
  rw [advanceAll]
  split
  · exact h
  · exact advanceUpTo_induction hstep _ h

/-! ## Operations -/

/-- What can be done to a run: with the moves, contents and exempt keys come in at any time. -/
inductive Operation where
  | add (key content : String)
  | exempt (key : String)
  | move (move : Move)

/-- The run after an operation; it goes on unchanged when a content is refused. -/
def Operation.apply (r : Run) : Operation → Run
  | .add key content =>
    match r.addContent key content with
    | .ok r' => r'
    | .error _ => r
  | .exempt key => r.skipEscaping key
  | .move m => m.apply r

def perform (r : Run) (ops : List Operation) : Run := ops.foldl Operation.apply r

@[simp] theorem perform_nil (r : Run) : r.perform [] = r := rfl

@[simp] theorem perform_cons (r : Run) (op : Operation) (ops : List Operation) :
    r.perform (op :: ops) = (op.apply r).perform ops := rfl

theorem perform_append (r : Run) (ops more : List Operation) :
    r.perform (ops ++ more) = (r.perform ops).perform more := List.foldl_append

/-- A content under a taken key is refused, any other comes behind those that are there. -/
theorem addContent_cases (r : Run) (key content : String) :
    (key ∈ r.contents.map (·.1) ∧ r.addContent key content = .error (.duplicateKey key)) ∨
      (key ∉ r.contents.map (·.1) ∧
        r.addContent key content = .ok { r with contents := r.contents ++ [(key, content)] }) := by
  have hany : (r.contents.any (·.1 == key)) = true ↔ key ∈ r.contents.map (·.1) := by
    simp [List.any_eq_true]
  by_cases hmem : key ∈ r.contents.map (·.1)
  · exact .inl ⟨hmem, by rw [addContent, if_pos (hany.2 hmem)]⟩
  · exact .inr ⟨hmem, by rw [addContent, if_neg (fun h => hmem (hany.1 h))]⟩

/-- An offer touches nothing but the contents. -/
theorem exists_apply_add (r : Run) (key content : String) :
    ∃ contents, (Operation.add key content).apply r = { r with contents := contents } := by
  rw [Operation.apply]
  rcases r.addContent_cases key content with ⟨-, hadd⟩ | ⟨-, hadd⟩
  · exact ⟨r.contents, by rw [hadd]⟩
  · exact ⟨_, by rw [hadd]⟩

/-! ## What every history preserves -/

structure Coherent (r : Run) : Prop where
  keys_nodup : (r.contents.map (·.1)).Nodup
  known : ∀ key, key ∉ r.contents.map (·.1) → r.results.get? key = none
  content_eq : ∀ key content result, (key, content) ∈ r.contents →
    r.results.get? key = some result → result.content = content
  decided : ∀ key result, r.results.get? key = some result → result.Decided

/-- Every result belongs to one of the contents. -/
theorem Coherent.mem_keys (h : r.Coherent) {key : String} {result : Resolution}
    (hget : r.results.get? key = some result) : key ∈ r.contents.map (·.1) := by
  by_contra hkey
  rw [h.known key hkey] at hget
  cases hget

theorem coherent_start (shell : Shell) : (start shell).Coherent :=
  ⟨List.nodup_nil, fun _ _ => rfl, fun _ _ _ h => absurd h List.not_mem_nil, fun _ _ h => nomatch h⟩

/-- The result of a content is again one of that content and says what became of it. -/
theorem Coherent.resultAfter (h : r.Coherent) (hfailed : r.hasFailed = false) {vs : List Instance}
    {key content : String} {next : Resolution} (hmem : (key, content) ∈ r.contents)
    (hnext : r.Yields vs key content next) :
    (r.resultAfter key next).Decided ∧ (r.resultAfter key next).content = content := by
  obtain ⟨used, left, -, hres⟩ := hnext
  obtain ⟨hdecided, hcontent⟩ := decided_resolveContent hres
  rw [Run.resultAfter]
  cases hget : r.results.get? key with
  | none =>
    have hinput : r.inputFor key content = content := by simp [inputFor, hget]
    exact ⟨hdecided, hcontent.trans hinput⟩
  | some result =>
    have hsucceeded := succeeded_of_hasFailed_eq_false hfailed hget
    exact ⟨(h.decided key result hget).merge hsucceeded hdecided,
      h.content_eq key content result hmem hget⟩

theorem Coherent.advance (h : r.Coherent) : r.advance.1.Coherent := by
  have hadvances := advances h.keys_nodup
  generalize r.advance = out at hadvances ⊢
  cases hadvances with
  | failed _ => exact h
  | exhausted _ _ => exact h
  | refused _ _ _ => exact h
  | @phase vs queue next results hfailed hqueue hvs hyields hextends =>
    have hafter : ∀ key content, (key, content) ∈ r.contents →
        (r.resultAfter key (next key)).Decided ∧
          (r.resultAfter key (next key)).content = content :=
      fun key content hmem => h.resultAfter hfailed hmem (hyields key content hmem)
    refine ⟨h.keys_nodup, ?_, ?_, ?_⟩
    · intro key hkey
      exact (hextends.kept key hkey).trans (h.known key hkey)
    · intro key content result hmem hget
      rw [hextends.added key content hmem, Option.some.injEq] at hget
      exact hget ▸ (hafter key content hmem).2
    · intro key result hget
      by_cases hkey : key ∈ r.contents.map (·.1)
      · obtain ⟨⟨key, content⟩, hmem, rfl⟩ := List.mem_map.1 hkey
        rw [hextends.added key content hmem, Option.some.injEq] at hget
        exact hget ▸ (hafter key content hmem).1
      · rw [hextends.kept key hkey, h.known key hkey] at hget
        cases hget

theorem Coherent.addContent (h : r.Coherent) (key content : String) :
    ((Operation.add key content).apply r).Coherent := by
  rw [Operation.apply]
  rcases r.addContent_cases key content with ⟨-, hadd⟩ | ⟨hkey, hadd⟩
  · rw [hadd]
    exact h
  · rw [hadd]
    refine ⟨?_, ?_, ?_, h.decided⟩
    · rw [List.map_append, List.nodup_append]
      refine ⟨h.keys_nodup, by simp, ?_⟩
      intro other hother added hadded heq
      rw [List.map_singleton, List.mem_singleton] at hadded
      rw [heq, hadded] at hother
      exact hkey hother
    · intro other hother
      rw [List.map_append, List.mem_append, not_or] at hother
      exact h.known other hother.1
    · intro other content' result hmem hget
      rcases List.mem_append.1 hmem with hmem | hmem
      · exact h.content_eq other content' result hmem hget
      · -- the content is new, so that no result can be its own
        obtain ⟨rfl, rfl⟩ := Prod.mk.inj (List.mem_singleton.1 hmem)
        have hnone : r.results.get? other = none := h.known other hkey
        rw [hnone] at hget
        cases hget

/-- Every operation keeps a run coherent. -/
theorem Coherent.apply (h : r.Coherent) (op : Operation) : (op.apply r).Coherent := by
  cases op with
  | add key content => exact h.addContent key content
  | exempt key => exact ⟨h.keys_nodup, h.known, h.content_eq, h.decided⟩
  | move move =>
    cases move with
    | push vs => exact ⟨h.keys_nodup, h.known, h.content_eq, h.decided⟩
    | advance => exact h.advance
    | advanceAll => exact advanceAll_induction (fun r h => h.advance) h

theorem Coherent.perform (h : r.Coherent) (ops : List Operation) : (r.perform ops).Coherent := by
  induction ops generalizing r with
  | nil => exact h
  | cons op ops ih => exact ih (h.apply op)

theorem coherent_perform (shell : Shell) (ops : List Operation) :
    ((start shell).perform ops).Coherent := (coherent_start shell).perform ops

end Run
end CommandTemplate
