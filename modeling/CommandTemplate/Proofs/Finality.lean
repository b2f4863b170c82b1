import CommandTemplate.Proofs.History
import CommandTemplate.Variable.Builtin

/-!
# Nothing is undone, and a failure is final

What a run has come to is only ever added to. A failed run takes in contents, exempt keys and sets
as before, but no phase of it runs any more.
-/
namespace CommandTemplate.Run

variable {r r' r'' : Run}

/-! ## What is kept -/

structure Retains (r r' : Run) : Prop where
  completed_le : r.completed ≤ r'.completed
  kept : ∀ key result, r.results.get? key = some result →
    ∃ result', r'.results.get? key = some result' ∧ result'.content = result.content ∧
      result.count ≤ result'.count

theorem Retains.of_eq (hcompleted : r'.completed = r.completed)
    (hresults : r'.results = r.results) : r.Retains r' :=
  ⟨Nat.le_of_eq hcompleted.symm,
    fun _ result hget => ⟨result, by rw [hresults, hget], rfl, Nat.le_refl _⟩⟩

theorem Retains.refl (r : Run) : r.Retains r := .of_eq rfl rfl

theorem Retains.trans (h : r.Retains r') (h' : r'.Retains r'') : r.Retains r'' := by
  refine ⟨Nat.le_trans h.completed_le h'.completed_le, fun key result hget => ?_⟩
  obtain ⟨result', hget', hcontent, hcount⟩ := h.kept key result hget
  obtain ⟨result'', hget'', hcontent', hcount'⟩ := h'.kept key result' hget'
  exact ⟨result'', hget'', hcontent'.trans hcontent, Nat.le_trans hcount hcount'⟩

/-- A phase adds to a result what its own resolution has come to. -/
theorem Coherent.retains_advance (h : r.Coherent) : r.Retains r.advance.1 := by
  have hadvances := advances h.keys_nodup
  generalize r.advance = out at hadvances ⊢
  cases hadvances with
  | failed _ => exact .refl r
  | exhausted _ _ => exact .refl r
  | refused _ _ _ => exact .refl r
  | @phase vs queue next results _ _ _ _ hextends =>
    refine ⟨Nat.le_succ _, fun key result hget => ?_⟩
    obtain ⟨⟨key, content⟩, hmem, rfl⟩ := List.mem_map.1 (h.mem_keys hget)
    have hafter : r.resultAfter key (next key) = result.merge (next key) := by
      rw [Run.resultAfter, hget]
    exact ⟨_, hextends.added key content hmem, by rw [hafter, Resolution.merge_content],
      by rw [hafter, Resolution.merge_count]; exact Nat.le_add_right ..⟩

theorem Coherent.retains_apply (h : r.Coherent) (op : Operation) : r.Retains (op.apply r) := by
  cases op with
  | add key content =>
    obtain ⟨contents, hadd⟩ := r.exists_apply_add key content
    rw [hadd]
    exact .of_eq rfl rfl
  | exempt key => exact .of_eq rfl rfl
  | move m =>
    cases m with
    | push vs => exact .of_eq rfl rfl
    | advance => exact h.retains_advance
    | advanceAll =>
      have hstep : ∀ r' : Run, r'.Coherent ∧ r.Retains r' →
          r'.advance.1.Coherent ∧ r.Retains r'.advance.1 :=
        fun r' ⟨h', hretains⟩ => ⟨h'.advance, hretains.trans h'.retains_advance⟩
      exact (advanceAll_induction hstep ⟨h, .refl r⟩).2

/-- No history takes back a result or a phase. -/
theorem Coherent.retains_perform (h : r.Coherent) (ops : List Operation) :
    r.Retains (r.perform ops) := by
  induction ops generalizing r with
  | nil => exact .refl r
  | cons op ops ih => exact (h.retains_apply op).trans (ih (h.apply op))

/-! ## Failure -/

/-- `r'` is what has become of the failed run `r`: new sets may wait behind the old ones, and
nothing will ever run. -/
structure Frozen (r r' : Run) : Prop where
  results_eq : r'.results = r.results
  completed_eq : r'.completed = r.completed
  queue_prefix : r.queue <+: r'.queue
  advance_eq : r'.advance = (r', .ok false)
  advanceAll_eq : r'.advanceAll = (r', .ok false)
  state_eq : r'.state = .failed

/-- A failure shows in the results alone. -/
theorem hasFailed_congr (h : r'.results = r.results) : r'.hasFailed = r.hasFailed := by
  rw [hasFailed, h, hasFailed]

theorem advanceAll_of_hasFailed (h : r.hasFailed) : r.advanceAll = (r, .ok false) := by
  rw [advanceAll, if_pos h]

theorem apply_of_hasFailed (h : r.hasFailed) (op : Operation) :
    (op.apply r).results = r.results ∧ (op.apply r).completed = r.completed ∧
      r.queue <+: (op.apply r).queue := by
  cases op with
  | add key content =>
    obtain ⟨contents, hadd⟩ := r.exists_apply_add key content
    rw [hadd]
    exact ⟨rfl, rfl, List.prefix_refl _⟩
  | exempt key => exact ⟨rfl, rfl, List.prefix_refl _⟩
  | move m =>
    cases m with
    | push vs => exact ⟨rfl, rfl, List.prefix_append ..⟩
    | advance =>
      rw [Operation.apply, Move.apply, advance_of_hasFailed h]
      exact ⟨rfl, rfl, List.prefix_refl _⟩
    | advanceAll =>
      rw [Operation.apply, Move.apply, advanceAll_of_hasFailed h]
      exact ⟨rfl, rfl, List.prefix_refl _⟩

/-- In a failed run only the queue can grow. -/
theorem perform_of_hasFailed (h : r.hasFailed) (ops : List Operation) :
    (r.perform ops).results = r.results ∧ (r.perform ops).completed = r.completed ∧
      r.queue <+: (r.perform ops).queue := by
  induction ops generalizing r with
  | nil => exact ⟨rfl, rfl, List.prefix_refl _⟩
  | cons op ops ih =>
    obtain ⟨hresults, hcompleted, hqueue⟩ := apply_of_hasFailed h op
    obtain ⟨hresults', hcompleted', hqueue'⟩ := ih (by rw [hasFailed_congr hresults]; exact h)
    exact ⟨hresults'.trans hresults, hcompleted'.trans hcompleted, hqueue.trans hqueue'⟩

/-- Whatever is done to a failed run, it stays as it has failed. -/
theorem frozen_perform (h : r.hasFailed) (ops : List Operation) : r.Frozen (r.perform ops) := by
  obtain ⟨hresults, hcompleted, hqueue⟩ := perform_of_hasFailed h ops
  have hfailed : (r.perform ops).hasFailed := by
    rw [hasFailed_congr hresults]
    exact h
  exact ⟨hresults, hcompleted, hqueue, advance_of_hasFailed hfailed,
    advanceAll_of_hasFailed hfailed, by rw [state, if_pos hfailed]⟩

/-- A run only gains, at every step and over any history, and once it has failed not even that. -/
theorem failure_final (shell : Shell) (before : List Operation) :
    (∀ op : Operation, ((start shell).perform before).Retains
        (op.apply ((start shell).perform before))) ∧
      (∀ after : List Operation, ((start shell).perform before).Retains
        (((start shell).perform before).perform after)) ∧
      (((start shell).perform before).hasFailed →
        ∀ after : List Operation, ((start shell).perform before).Frozen
          (((start shell).perform before).perform after)) := by
  have hcoherent := coherent_perform shell before
  exact ⟨hcoherent.retains_apply, hcoherent.retains_perform, frozen_perform⟩

def oneOfTwoFails : List Operation :=
  [.add "long" "\x7b\x7bnewline:1001\x7d\x7d", .add "short" "\x7b\x7bnewline\x7d\x7d",
    .move (.push [Builtin.newline]), .move .advance]

theorem failure_final_oneOfTwoFails :
    ((start .bash).perform oneOfTwoFails).hasFailed ∧
      ∀ after : List Operation, ((start .bash).perform oneOfTwoFails).Frozen
        (((start .bash).perform oneOfTwoFails).perform after) := by
  have hfailed : ((start .bash).perform oneOfTwoFails).hasFailed := by decide +kernel
  exact ⟨hfailed, (failure_final .bash oneOfTwoFails).2.2 hfailed⟩

end CommandTemplate.Run
