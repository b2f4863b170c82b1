import CommandTemplate.Proofs.Consistency

/-!
# Runs that take their phases one at a time

A run to which a set is only pushed when it is to be taken at once has nothing queued in between.
With well-formed schemas such a run meets no error, so that a phase comes down to one more
resolution of each content, and to whether one of them has failed.
-/
namespace CommandTemplate.Run

variable {r r' : Run} {vs : List Variable}

structure Idle (r : Run) : Prop where
  coherent : r.Coherent
  not_failed : r.hasFailed = false
  queue_eq : r.queue = []

/-- `r'` is `r` behind a phase with these variables, whether the phase has succeeded or not. -/
structure Takes (r : Run) (vs : List Variable) (r' : Run) : Prop where
  advance_eq : (r.push vs).advance = (r', .ok !r'.hasFailed)
  coherent : r'.Coherent
  shell_eq : r'.shell = r.shell
  contents_eq : r'.contents = r.contents
  exempt_eq : r'.exempt = r.exempt
  queue_eq : r'.queue = []
  yields : ∀ key content, (key, content) ∈ r.contents →
    ∃ next, r.Yields (vs.map .of) key content next ∧
      r'.results.get? key = some (r.resultAfter key next)

theorem idle_of_nodup (shell : Shell) {contents : List (String × String)}
    (hkeys : (contents.map (·.1)).Nodup) (exempt : List String) :
    Idle ⟨shell, contents, ∅, exempt, [], 0⟩ where
  coherent := ⟨hkeys, fun _ _ => rfl, by simp, by simp⟩
  not_failed := rfl
  queue_eq := rfl

theorem Takes.idle (h : r.Takes vs r') (hfailed : r'.hasFailed = false) : r'.Idle :=
  ⟨h.coherent, hfailed, h.queue_eq⟩

/-- Behind its phase every content of the run has a result. -/
theorem Takes.covers (h : r.Takes vs r') : r'.Covers r'.contents := by
  refine ⟨List.prefix_refl _, fun key => ?_⟩
  constructor
  · intro hsome
    obtain ⟨result, hget⟩ := Option.isSome_iff_exists.1 hsome
    exact h.coherent.mem_keys hget
  · intro hkey
    rw [h.contents_eq] at hkey
    obtain ⟨⟨key, content⟩, hmem, rfl⟩ := List.mem_map.1 hkey
    obtain ⟨next, -, hget⟩ := h.yields key content hmem
    exact Option.isSome_of_eq_some hget

/-- A run has failed exactly when one of its results has. -/
theorem Coherent.not_hasFailed_iff (h : r.Coherent) :
    (!r.hasFailed) = true ↔ ∀ e ∈ r.resultList, e.2.succeeded = true := by
  rw [Bool.not_eq_true', ← Bool.not_eq_true, hasFailed_iff]
  push Not
  constructor
  · intro hall e he
    simpa using hall e.1 e.2 (mem_resultList.1 he).2
  · intro hall key result hget
    simpa using hall (key, result) (mem_resultList.2 ⟨h.mem_keys hget, hget⟩)

/-- With well-formed schemas a phase meets no error, and says whether the run has failed in it. -/
theorem Idle.exists_takes (h : r.Idle) (vs : List Variable)
    (hvs : ∀ v ∈ vs, WellFormed v.parameters) :
    ∃ r', r.Takes vs r' := by
  have hcoherent : (r.push vs).Coherent := h.coherent.apply (.move (.push vs))
  have hqueue : (r.push vs).queue = [vs.map .of] := by rw [push, h.queue_eq, List.nil_append]
  obtain ⟨next, results, hadvance, hyields, hextends⟩ :=
    exists_advance (r := r.push vs) h.not_failed hqueue (List.forall_mem_map.2 hvs)
      hcoherent.keys_nodup
  have hfailed : ∀ r' : Run, r'.results = results →
      r'.hasFailed = !(r.push vs).contents.all fun e => (next e.1).succeeded := by
    rintro r' rfl
    exact hextends.hasFailed_eq h.not_failed hcoherent.known
  have hcoherent' := hcoherent.advance
  rw [hadvance] at hcoherent'
  refine ⟨_, ?_, hcoherent', rfl, rfl, rfl, rfl, ?_⟩
  · rw [hadvance, hfailed _ rfl, Bool.not_not]
  · intro key content hmem
    exact ⟨next key, hyields key content hmem, hextends.added key content hmem⟩

end CommandTemplate.Run
