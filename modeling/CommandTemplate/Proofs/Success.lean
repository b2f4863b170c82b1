import CommandTemplate.Proofs.Consistency
import Mathlib.Data.List.Nodup
import Mathlib.Data.List.Perm.Subperm

/-!
# What a run that has succeeded has resolved

The state of a run is read off its results and its queue. A run that says it has succeeded has
resolved the contents that its last phase found; a content that came in behind that phase has no
result, and the run says nothing of it.
-/
namespace CommandTemplate.Run

variable {r : Run}

def HasResolved (r : Run) (key : String) : Prop :=
  ∃ result, r.results.get? key = some result ∧ result.succeeded = true ∧ result.resolved.isSome

/-- The state speaks of the queue and of the results that there are, not of contents without one. -/
theorem state_eq_succeeded_iff (r : Run) :
    r.state = .succeeded ↔ r.hasFailed = false ∧ r.queue = [] := by
  rw [state]
  cases r.hasFailed with
  | true => simp
  | false => cases r.queue <;> simp

/-- In a run that has not failed every result is a success. -/
theorem Coherent.hasResolved_iff (h : r.Coherent) (hfailed : r.hasFailed = false) (key : String) :
    r.HasResolved key ↔ (r.results.get? key).isSome := by
  rw [Option.isSome_iff_exists]
  refine exists_congr fun result => and_iff_left_of_imp fun hget => ?_
  have hsucceeded := succeeded_of_hasFailed_eq_false hfailed hget
  exact ⟨hsucceeded, (h.decided key result hget).isSome_resolved_iff.2 hsucceeded⟩

/-! ## Contents that come in late -/

theorem prefix_contents_perform (h : r.Coherent) (ops : List Operation) :
    r.contents <+: (r.perform ops).contents := by
  induction ops generalizing r with
  | nil => exact List.prefix_refl _
  | cons op ops ih => exact (prefix_contents_apply h op).trans (ih (h.apply op))

/-- The contents stay the same as long as only taken keys are offered. -/
theorem contents_perform_eq_iff (h : r.Coherent) (ops : List Operation) :
    (r.perform ops).contents = r.contents ↔ ∀ e ∈ offered ops, e.1 ∈ r.contents.map (·.1) := by
  induction ops generalizing r with
  | nil => simp [offered]
  | cons op ops ih =>
    rw [perform_cons, offered_cons]
    rcases contents_apply h op with ⟨htaken, heq⟩ | ⟨e, hop, hnew, heq⟩
    · have hrest := ih (h.apply op)
      rw [heq] at hrest
      rw [hrest]
      constructor
      · intro hall e he
        rcases List.mem_append.1 he with he | he
        · exact htaken e (Option.mem_toList.1 he)
        · exact hall e he
      · exact fun hall e he => hall e (List.mem_append_right _ he)
    · have hlonger := (prefix_contents_perform (h.apply op) ops).length_le
      rw [heq, List.length_append, List.length_singleton] at hlonger
      constructor
      · intro hsame
        rw [hsame] at hlonger
        omega
      · intro hall
        exact absurd (hall e (by simp [hop])) hnew

/-- What a run that says it has succeeded has done, when its last phase was completed behind
`before` and nothing but `after` has been done since. -/
structure Succeeded (shell : Shell) (before after : List Operation) (r : Run) : Prop where
  /-- Every set that was queued has had its phase. -/
  exhausted : r.queue = []
  /-- The contents that the last phase found are resolved, -/
  resolved : ∀ e ∈ ((start shell).perform before).contents, r.HasResolved e.1
  /-- and the others have no result. -/
  unresolved : ∀ e ∈ r.contents, e ∉ ((start shell).perform before).contents →
    r.results.get? e.1 = none
  /-- So all contents are resolved just when none has come in since under a new key. -/
  all_iff : (∀ e ∈ r.contents, r.HasResolved e.1) ↔
    ∀ e ∈ offered after, e.1 ∈ ((start shell).perform before).contents.map (·.1)

/-- An operation that completes a phase brings no content with it. -/
theorem contents_apply_of_completes (h : r.Coherent) {op : Operation}
    (hop : r.completed < (op.apply r).completed) : (op.apply r).contents = r.contents := by
  rcases contents_apply h op with ⟨-, heq⟩ | ⟨e, hoffered, -, -⟩
  · exact heq
  · cases op with
    | add key content =>
      obtain ⟨contents, hadd⟩ := r.exists_apply_add key content
      rw [hadd] at hop
      exact absurd hop (Nat.lt_irrefl _)
    | exempt key => cases hoffered
    | move m => cases m <;> cases hoffered

/-- Whatever the history, a run that has completed a phase and says it has succeeded has resolved
what its last phase found, and so everything exactly if nothing has come in since. -/
theorem succeeded_perform (shell : Shell) (ops : List Operation)
    (hcompleted : 0 < ((start shell).perform ops).completed)
    (hstate : ((start shell).perform ops).state = .succeeded) :
    ∃ before op after, ops = before ++ op :: after ∧ (start shell).LastPhase before op after ∧
      Succeeded shell before after ((start shell).perform ops) := by
  have hstart := coherent_start shell
  have hcoherent := hstart.perform ops
  obtain ⟨hfailed, hqueue⟩ := (state_eq_succeeded_iff _).1 hstate
  rcases covers_perform hstart rfl ops with ⟨hnone, -⟩ | ⟨before, op, after, hops, hlast, hcovers⟩
  · rw [hnone] at hcompleted
    exact absurd hcompleted (Nat.lt_irrefl 0)
  · refine ⟨before, op, after, hops, hlast, ?_⟩
    have hbefore := hstart.perform before
    have hresolved : ∀ key, ((start shell).perform ops).HasResolved key ↔
        key ∈ ((start shell).perform before).contents.map (·.1) := fun key =>
      (hcoherent.hasResolved_iff hfailed key).trans (hcovers.isSome_iff key)
    have hlate : ∀ e ∈ ((start shell).perform ops).contents,
        e.1 ∈ ((start shell).perform before).contents.map (·.1) →
        e ∈ ((start shell).perform before).contents := by
      intro e he hkey
      obtain ⟨e', he', heq⟩ := List.mem_map.1 hkey
      have hmem := hcovers.isPrefix.subset he'
      rwa [List.inj_on_of_nodup_map hcoherent.keys_nodup hmem he heq] at he'
    constructor
    case exhausted => exact hqueue
    case resolved => exact fun e he => (hresolved e.1).2 (List.mem_map_of_mem he)
    case unresolved =>
      intro e he hnot
      refine Option.not_isSome_iff_eq_none.1 fun hsome => hnot (hlate e he ?_)
      exact (hcovers.isSome_iff e.1).1 hsome
    case all_iff =>
      have hphase := contents_apply_of_completes hbefore hlast.completes
      have hsame := contents_perform_eq_iff (hbefore.apply op) after
      rw [hphase, ← perform_cons, ← perform_append, ← hops] at hsame
      rw [← hsame]
      constructor
      · intro hall
        have hsubset : ((start shell).perform ops).contents ⊆
            ((start shell).perform before).contents := fun e he =>
          hlate e he ((hresolved e.1).1 (hall e he))
        have hnodup := List.Nodup.of_map _ hcoherent.keys_nodup
        have hlength := (hnodup.subperm hsubset).length_le
        exact (hcovers.isPrefix.eq_of_length_le hlength).symm
      · intro heq e he
        rw [heq] at he
        exact (hresolved e.1).2 (List.mem_map_of_mem he)

def lateContent : List Operation :=
  [.add "command" "\x7b\x7bnewline\x7d\x7d", .move (.push [Builtin.newline]), .move .advanceAll,
    .add "alias" "\x7b\x7bnewline:2\x7d\x7d"]

/-- The late content has a phase of its own, and behind that nothing comes in: the key is taken. -/
def lateContentResolved : List Operation :=
  lateContent ++ [.move (.push [Builtin.newline]), .move .advance, .add "command" "other",
    .exempt "alias"]

theorem succeeded_perform_lateContentResolved :
    0 < ((start .bash).perform lateContentResolved).completed ∧
      ((start .bash).perform lateContentResolved).state = .succeeded ∧
      ∃ before op after, lateContentResolved = before ++ op :: after ∧
        (start .bash).LastPhase before op after ∧
        Succeeded .bash before after ((start .bash).perform lateContentResolved) := by
  have hcompleted : 0 < ((start .bash).perform lateContentResolved).completed := by
    decide +kernel
  have hstate : ((start .bash).perform lateContentResolved).state = .succeeded := by
    decide +kernel
  exact ⟨hcompleted, hstate, succeeded_perform .bash lateContentResolved hcompleted hstate⟩

/-- The run says that it has succeeded, and the late content has no result. -/
theorem succeeded_without_result :
    0 < ((start .bash).perform lateContent).completed ∧
      ((start .bash).perform lateContent).state = .succeeded ∧
      ("alias", "\x7b\x7bnewline:2\x7d\x7d") ∈ ((start .bash).perform lateContent).contents ∧
      ((start .bash).perform lateContent).results.get? "alias" = none := by
  decide +kernel

end CommandTemplate.Run
