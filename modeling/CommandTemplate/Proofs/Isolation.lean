import CommandTemplate.Proofs.Builtins
import CommandTemplate.Proofs.Phase

/-!
# Contents of a run do not touch each other

The contents of a run share the instances of its variables. For variables that are determined by
their arguments the result of a content is nevertheless a fold over the sets, which starts from the
content and knows nothing of the other contents; these only decide how far the run gets.
-/
namespace CommandTemplate

def Sound (vs : List Variable) : Prop := ∀ v ∈ vs, WellFormed v.parameters ∧ v.Determined

def Shell.escaperOf (shell : Shell) (exempt : List String) (key : String) : Option Escaper :=
  if exempt.contains key then none else some shell.quoting.encode

def Resolution.after (next : Resolution) : Option Resolution → Resolution
  | some result => result.merge next
  | none => next

/-- One more set, in new instances, for what the last result left of a content. -/
def further (escaper : Option Escaper) (content : String) (last : Option Resolution)
    (vs : List Variable) : Except TemplateError (Option Resolution) :=
  (resolveContent escaper (vs.map .of) ((last.bind (·.resolved)).getD content)).map fun (_, next) =>
    some (next.after last)

/-- The result of a content after some sets, each in new instances; without sets there is none. -/
def foldSets (escaper : Option Escaper) (content : String) (sets : List (List Variable)) :
    Except TemplateError (Option Resolution) :=
  sets.foldlM (further escaper content) none

theorem foldSets_append_singleton (escaper : Option Escaper) (content : String)
    (sets : List (List Variable)) (vs : List Variable) :
    foldSets escaper content (sets ++ [vs]) =
      (foldSets escaper content sets).bind fun last => further escaper content last vs := by
  rw [foldSets, List.foldlM_append, foldSets]
  refine congrArg _ (funext fun last => ?_)
  simp

/-- One more set adds the resolution that its variables have without any state. -/
theorem further_eq {escaper : Option Escaper} {content : String} {vs : List Variable}
    (hvs : Sound vs) (last : Option Resolution) {next : Resolution}
    (h : resolution escaper vs ((last.bind (·.resolved)).getD content) = .ok next) :
    further escaper content last vs = .ok (some (next.after last)) := by
  have hfresh : ∀ v ∈ vs.map Instance.of, v.base.Determined := by
    intro v hv
    obtain ⟨w, hw, rfl⟩ := List.mem_map.1 hv
    exact (hvs w hw).2
  rw [← Instance.map_base_of vs] at h
  obtain ⟨left, hleft⟩ := exists_resolveContent_of_resolution hfresh h
  rw [further, hleft]
  rfl

/-- The fold of some content over the first `n` sets fails. -/
def FailsAt (shell : Shell) (contents : List (String × String)) (exempt : List String)
    (sets : List (List Variable)) (n : Nat) : Prop :=
  ∃ key content result, (key, content) ∈ contents ∧
    foldSets (shell.escaperOf exempt key) content (sets.take n) = .ok (some result) ∧
    result.succeeded = false

namespace Run

/-- What is done to a run once its contents are settled. -/
inductive Move where
  | push (vs : List Variable)
  | advance
  | advanceAll

def Move.apply (r : Run) : Move → Run
  | .push vs => r.push vs
  | .advance => r.advance.1
  | .advanceAll => r.advanceAll.1

def follow (r : Run) (moves : List Move) : Run := moves.foldl Move.apply r

theorem follow_append (r : Run) (moves more : List Move) :
    r.follow (moves ++ more) = (r.follow moves).follow more := List.foldl_append

def Move.pushed? : Move → Option (List Variable)
  | .push vs => some vs
  | _ => none

def pushed (moves : List Move) : List (List Variable) := moves.filterMap Move.pushed?

/-! ## What the moves preserve -/

/-- A run that was set up with these contents and has been given these sets. -/
structure Tracks (shell : Shell) (contents : List (String × String)) (exempt : List String)
    (sets : List (List Variable)) (r : Run) : Prop where
  shell_eq : r.shell = shell
  contents_eq : r.contents = contents
  exempt_eq : r.exempt = exempt
  completed_le : r.completed ≤ sets.length
  queue_eq : r.queue = (sets.drop r.completed).map (·.map .of)
  folded : ∀ key content, (key, content) ∈ contents →
    foldSets (shell.escaperOf exempt key) content (sets.take r.completed) =
      .ok (r.results.get? key)
  absent : ∀ key, key ∉ contents.map (·.1) → r.results.get? key = none
  clean : ∀ m < r.completed, ¬ FailsAt shell contents exempt sets m

section

variable {shell : Shell} {contents : List (String × String)} {exempt : List String}
  {sets : List (List Variable)} {r : Run}

/-- A prepared run has been given no sets. -/
theorem tracks_prepared :
    Tracks shell contents exempt [] ⟨shell, contents, ∅, exempt, [], 0⟩ := by
  refine ⟨rfl, rfl, rfl, Nat.le_refl 0, rfl, ?_, ?_, ?_⟩
  · intro key content hmem
    rfl
  · intro key hkey
    rfl
  · intro m hm
    exact absurd hm (Nat.not_lt_zero m)

/-- Sets that come later do not change what has failed. -/
theorem failsAt_append {n : Nat} (hn : n ≤ sets.length) (more : List (List Variable)) :
    FailsAt shell contents exempt (sets ++ more) n ↔ FailsAt shell contents exempt sets n := by
  rw [FailsAt, FailsAt, List.take_append_of_le_length hn]

/-- Queueing a set adds it to those that the run has been given. -/
theorem Tracks.push (h : Tracks shell contents exempt sets r) (vs : List Variable) :
    Tracks shell contents exempt (sets ++ [vs]) (r.push vs) := by
  refine ⟨h.shell_eq, h.contents_eq, h.exempt_eq, ?_, ?_, ?_, h.absent, ?_⟩
  · have := h.completed_le
    rw [Run.push_completed, List.length_append]
    omega
  · rw [Run.push_queue, Run.push_completed, h.queue_eq,
      List.drop_append_of_le_length h.completed_le]
    simp
  · intro key content hmem
    rw [Run.push_completed, List.take_append_of_le_length h.completed_le]
    exact h.folded key content hmem
  · intro m hm
    have hlt : m < r.completed := hm
    have hle := h.completed_le
    rw [failsAt_append (by omega)]
    exact h.clean m hm

/-- A run has failed exactly when the fold of one of its contents has. -/
theorem Tracks.hasFailed_iff (h : Tracks shell contents exempt sets r) :
    r.hasFailed ↔ FailsAt shell contents exempt sets r.completed := by
  rw [Run.hasFailed_iff]
  constructor
  · rintro ⟨key, result, hget, hresult⟩
    by_cases hmem : key ∈ contents.map (·.1)
    · obtain ⟨⟨key, content⟩, he, rfl⟩ := List.mem_map.1 hmem
      exact ⟨key, content, result, he, by rw [h.folded key content he, hget], hresult⟩
    · rw [h.absent key hmem] at hget
      cases hget
  · rintro ⟨key, content, result, he, hfold, hresult⟩
    rw [h.folded key content he, Except.ok.injEq] at hfold
    exact ⟨key, result, hfold, hresult⟩

/-- The contents of a phase are folded one set further. -/
theorem further_of_yields {vs : List Variable} (hvs : Sound vs) {key content : String}
    {next : Resolution} (h : r.Yields (vs.map .of) key content next) :
    further (r.escaperFor key) content (r.results.get? key) vs =
      .ok (some (r.resultAfter key next)) := by
  obtain ⟨used, left, hbase, hres⟩ := h
  rw [Instance.map_base_of] at hbase
  have hused := Instance.determined_of_map_base_eq hbase fun v hv => (hvs v hv).2
  have hstateless := resolveContent_eq_resolution (r.escaperFor key) hused (r.inputFor key content)
  rw [hres, hbase] at hstateless
  rw [further_eq hvs (r.results.get? key) hstateless.symm]
  rfl

/-- What the next phase does to a run that has not failed and still has one. -/
theorem Tracks.advance (h : Tracks shell contents exempt sets r)
    (hkeys : (contents.map (·.1)).Nodup) (hsets : ∀ vs ∈ sets, Sound vs)
    (hfailed : r.hasFailed = false) (hlt : r.completed < sets.length) :
    ∃ r', r.advance = (r', .ok (!r'.hasFailed)) ∧ r'.completed = r.completed + 1 ∧
      Tracks shell contents exempt sets r' := by
  have hvs : Sound sets[r.completed] := hsets _ (List.getElem_mem hlt)
  have hqueue : r.queue = sets[r.completed].map Instance.of ::
      (sets.drop (r.completed + 1)).map (·.map .of) := by
    rw [h.queue_eq, List.drop_eq_getElem_cons hlt, List.map_cons]
  obtain ⟨next, results, hadvance, hyields, hextends⟩ := exists_advance hfailed hqueue
    (by simpa using fun v hv => (hvs v hv).1) (by rw [h.contents_eq]; exact hkeys)
  rw [← h.contents_eq] at hkeys
  rw [hadvance]
  refine ⟨_, congrArg _ (congrArg _ ?_), rfl, ?_⟩
  · rw [Extends.hasFailed_eq hfailed (by rw [h.contents_eq]; exact h.absent) hextends, Bool.not_not]
  · refine ⟨h.shell_eq, h.contents_eq, h.exempt_eq, hlt, rfl, ?_, ?_, ?_⟩
    · intro key content hmem
      have hhere := further_of_yields hvs (hyields key content (h.contents_eq ▸ hmem))
      have hescaper : r.escaperFor key = shell.escaperOf exempt key := by
        rw [escaperFor, h.exempt_eq, h.shell_eq, Shell.escaperOf]
      rw [hescaper] at hhere
      rw [List.take_add_one, List.getElem?_eq_getElem hlt, Option.toList_some,
        foldSets_append_singleton, h.folded key content hmem]
      simp only [bind_ok, hhere, hextends.added key content (h.contents_eq ▸ hmem)]
    · intro key hkey
      rw [← h.contents_eq] at hkey
      exact (hextends.kept key hkey).trans (h.absent key (h.contents_eq ▸ hkey))
    · intro m hm
      rcases Nat.lt_succ_iff_lt_or_eq.1 hm with hm | rfl
      · exact h.clean m hm
      · rw [← h.hasFailed_iff, hfailed]
        simp

/-- When all sets have had their phase there is nothing to advance to. -/
theorem Tracks.advance_of_done (h : Tracks shell contents exempt sets r)
    (hfailed : r.hasFailed = false) (hdone : sets.length ≤ r.completed) :
    r.advance = (r, .error .noPhasesRemaining) := by
  refine advance_of_queue_eq_nil hfailed ?_
  rw [h.queue_eq, List.drop_eq_nil_of_le hdone]
  rfl

/-- Advancing as long as there are phases stops behind the first one that fails. -/
theorem Tracks.advanceUpTo (hkeys : (contents.map (·.1)).Nodup) (hsets : ∀ vs ∈ sets, Sound vs)
    (h : Tracks shell contents exempt sets r) (hfailed : r.hasFailed = false) {n : Nat}
    (hn : r.completed + n = sets.length) :
    ∃ r', r.advanceUpTo n = (r', .ok (!r'.hasFailed)) ∧
      (r'.hasFailed = false → r'.completed = sets.length) ∧
      Tracks shell contents exempt sets r' := by
  induction n generalizing r with
  | zero => exact ⟨r, by rw [Run.advanceUpTo, hfailed, Bool.not_false], fun _ => hn, h⟩
  | succ n ih =>
    obtain ⟨r₁, hadvance, hcompleted, h₁⟩ := h.advance hkeys hsets hfailed (by omega)
    rw [Run.advanceUpTo, hadvance]
    cases hfailed₁ : r₁.hasFailed with
    | false => exact ih h₁ hfailed₁ (by omega)
    | true => exact ⟨r₁, by simp [hfailed₁], by simp [hfailed₁], h₁⟩

theorem Tracks.advanceAll (hkeys : (contents.map (·.1)).Nodup) (hsets : ∀ vs ∈ sets, Sound vs)
    (h : Tracks shell contents exempt sets r) :
    ∃ r', r.advanceAll = (r', .ok (!r'.hasFailed)) ∧
      (r'.hasFailed = false → r'.completed = sets.length) ∧
      Tracks shell contents exempt sets r' := by
  rw [Run.advanceAll]
  cases hfailed : r.hasFailed with
  | true => exact ⟨r, by simp [hfailed], by simp [hfailed], h⟩
  | false =>
    have hn : r.completed + r.queue.length = sets.length := by
      have hle := h.completed_le
      rw [h.queue_eq, List.length_map, List.length_drop]
      omega
    exact h.advanceUpTo hkeys hsets hfailed hn

/-- All phases are completed, or those up to the first in which the fold of a content fails. -/
theorem Tracks.exists_advanceAll (hkeys : (contents.map (·.1)).Nodup)
    (hsets : ∀ vs ∈ sets, Sound vs) (h : Tracks shell contents exempt sets r) :
    ∃ final ok, r.advanceAll = (final, .ok ok) ∧ Tracks shell contents exempt sets final ∧
      (ok = false → FailsAt shell contents exempt sets final.completed) ∧
      (ok = true → final.completed = sets.length) ∧
      (ok = true ↔ ∀ m ≤ sets.length, ¬ FailsAt shell contents exempt sets m) := by
  obtain ⟨final, hadvance, hdone, hfinal⟩ := Tracks.advanceAll hkeys hsets h
  have hfails := hfinal.hasFailed_iff
  refine ⟨final, _, hadvance, hfinal, ?_, ?_, ?_, ?_⟩
  · intro hok
    exact hfails.1 (by simpa using hok)
  · intro hok
    exact hdone (by simpa using hok)
  · intro hok m hm
    have hfailed : final.hasFailed = false := by simpa using hok
    rw [← hdone hfailed] at hm
    rcases Nat.lt_or_eq_of_le hm with hlt | rfl
    · exact hfinal.clean m hlt
    · rw [← hfails, hfailed]
      simp
  · intro hnone
    have hclean := hnone final.completed hfinal.completed_le
    rw [← hfails] at hclean
    simpa using hclean

/-! ## Whole histories -/

/-- One move keeps track, whether or not the run has failed or has phases left. -/
theorem Tracks.apply (hkeys : (contents.map (·.1)).Nodup) (hsets : ∀ vs ∈ sets, Sound vs)
    (h : Tracks shell contents exempt sets r) (move : Move) :
    Tracks shell contents exempt (sets ++ move.pushed?.toList) (move.apply r) := by
  cases move with
  | push vs => exact h.push vs
  | advance =>
    have hnone : sets ++ (Move.pushed? .advance).toList = sets := List.append_nil sets
    rw [hnone, Move.apply]
    cases hfailed : r.hasFailed with
    | true => rw [advance_of_hasFailed hfailed]; exact h
    | false =>
      by_cases hlt : r.completed < sets.length
      · obtain ⟨r', hadvance, -, h'⟩ := h.advance hkeys hsets hfailed hlt
        rw [hadvance]
        exact h'
      · rw [h.advance_of_done hfailed (Nat.le_of_not_lt hlt)]
        exact h
  | advanceAll =>
    have hnone : sets ++ (Move.pushed? .advanceAll).toList = sets := List.append_nil sets
    rw [hnone, Move.apply]
    obtain ⟨r', hadvance, -, h'⟩ := Tracks.advanceAll hkeys hsets h
    rw [hadvance]
    exact h'

theorem Tracks.follow (hkeys : (contents.map (·.1)).Nodup) {moves : List Move}
    (hsets : ∀ vs ∈ sets ++ pushed moves, Sound vs) (h : Tracks shell contents exempt sets r) :
    Tracks shell contents exempt (sets ++ pushed moves) (r.follow moves) := by
  induction moves generalizing r sets with
  | nil => simpa [pushed, Run.follow] using h
  | cons move moves ih =>
    have hpushed : pushed (move :: moves) = move.pushed?.toList ++ pushed moves := by
      cases move <;> rfl
    rw [hpushed, ← List.append_assoc] at hsets ⊢
    have hsets' : ∀ vs ∈ sets, Sound vs := fun vs hvs => hsets vs (by simp [hvs])
    exact ih hsets (h.apply hkeys hsets' move)

/-- Phases are completed one by one as long as none of the contents fails. -/
theorem Tracks.completed_replicate (hkeys : (contents.map (·.1)).Nodup)
    (hsets : ∀ vs ∈ sets, Sound vs) (h : Tracks shell contents exempt sets r) {n : Nat}
    (hn : r.completed + n ≤ sets.length)
    (hclean : ∀ m < r.completed + n, ¬ FailsAt shell contents exempt sets m) :
    (r.follow (List.replicate n .advance)).completed = r.completed + n := by
  induction n generalizing r with
  | zero => rfl
  | succ n ih =>
    have hfailed : r.hasFailed = false := by
      have := hclean r.completed (by omega)
      rw [← h.hasFailed_iff] at this
      simpa using this
    obtain ⟨r', hadvance, hcompleted, h'⟩ := h.advance hkeys hsets hfailed (by omega)
    have hrest := ih h' (by omega) (fun m hm => hclean m (by omega))
    rw [List.replicate_succ, Run.follow, List.foldl_cons, Move.apply, hadvance]
    exact hrest.trans (by omega)

end

/-- Whatever the order in which sets come in and phases are asked for, the results are the folds. -/
theorem tracks_follow (shell : Shell) {contents : List (String × String)}
    (hkeys : (contents.map (·.1)).Nodup) (exempt : List String) {moves : List Move}
    {sets : List (List Variable)} (hpushed : pushed moves = sets) (hsets : ∀ vs ∈ sets, Sound vs) :
    Tracks shell contents exempt sets (follow ⟨shell, contents, ∅, exempt, [], 0⟩ moves) := by
  subst hpushed
  exact Tracks.follow hkeys hsets tracks_prepared

def phases (sets : List (List Variable)) (n : Nat) : List Move :=
  sets.map .push ++ List.replicate n .advance

theorem pushed_phases (sets : List (List Variable)) (n : Nat) : pushed (phases sets n) = sets := by
  rw [pushed, phases, List.filterMap_append, List.filterMap_map]
  simp [List.filterMap_replicate, Move.pushed?, Function.comp_def]

theorem follow_push (r : Run) (sets : List (List Variable)) :
    r.follow (sets.map .push) = { r with queue := r.queue ++ sets.map (·.map .of) } := by
  induction sets generalizing r with
  | nil => simp [follow]
  | cons vs sets ih =>
    have hrest := ih (r.push vs)
    rw [List.map_cons, follow, List.foldl_cons]
    exact hrest.trans (by simp)

/-- A run goes through as many phases as it is asked for before one of its contents fails. -/
theorem completed_follow_phases (shell : Shell) {contents : List (String × String)}
    (hkeys : (contents.map (·.1)).Nodup) (exempt : List String) {sets : List (List Variable)}
    (hsets : ∀ vs ∈ sets, Sound vs) {n : Nat} (hn : n ≤ sets.length)
    (hclean : ∀ m < n, ¬ FailsAt shell contents exempt sets m) :
    (follow ⟨shell, contents, ∅, exempt, [], 0⟩ (phases sets n)).completed = n := by
  have hqueued := tracks_follow shell hkeys exempt (pushed_phases sets 0) hsets
  rw [phases, List.replicate_zero, List.append_nil, follow_push] at hqueued
  have hadvanced := hqueued.completed_replicate hkeys hsets (n := n) (by simpa using hn)
    (by simpa using hclean)
  rw [phases, follow_append, follow_push, hadvanced]
  exact Nat.zero_add n

/-- Runs of one content that have completed as many phases over the same sets agree on it. -/
theorem Tracks.results_eq {shell : Shell} {contents contents' : List (String × String)}
    {exempt exempt' : List String} {sets : List (List Variable)} {r r' : Run}
    (h : Tracks shell contents exempt sets r) (h' : Tracks shell contents' exempt' sets r')
    {key content : String} (hmem : (key, content) ∈ contents) (hmem' : (key, content) ∈ contents')
    (hexempt : exempt'.contains key = exempt.contains key)
    (hcompleted : r'.completed = r.completed) :
    r'.results.get? key = r.results.get? key := by
  have hfolded := h.folded key content hmem
  have hfolded' := h'.folded key content hmem'
  have hescaper : shell.escaperOf exempt' key = shell.escaperOf exempt key := by
    rw [Shell.escaperOf, hexempt, Shell.escaperOf]
  rw [hescaper, hcompleted, hfolded, Except.ok.injEq] at hfolded'
  exact hfolded'.symm

end Run

open Run in
/-- The result of a content is the fold of the phases completed over the sets, and a run of that
content alone reaches it; the other contents only stop a run, behind the first phase in which one
of them fails. -/
theorem contents_isolated (shell : Shell) {contents : List (String × String)}
    (hkeys : (contents.map (·.1)).Nodup) (exempt : List String) {moves : List Move}
    (hsets : ∀ vs ∈ pushed moves, Sound vs) :
    ∃ start, prepare shell contents exempt = .ok start ∧
      (∀ key content, (key, content) ∈ contents →
        foldSets (shell.escaperOf exempt key) content
            ((pushed moves).take (start.follow moves).completed) =
          .ok ((start.follow moves).results.get? key) ∧
        (∃ start', prepare shell [(key, content)] exempt = .ok start' ∧
          let alone := start'.follow (phases (pushed moves) (start.follow moves).completed)
          alone.completed = (start.follow moves).completed ∧
            alone.results.get? key = (start.follow moves).results.get? key) ∧
        ∀ contents' exempt' moves', (contents'.map (·.1)).Nodup → (key, content) ∈ contents' →
          exempt'.contains key = exempt.contains key → pushed moves' = pushed moves →
          ∃ start', prepare shell contents' exempt' = .ok start' ∧
            ((start'.follow moves').completed = (start.follow moves).completed →
              (start'.follow moves').results.get? key =
                (start.follow moves).results.get? key)) ∧
      ∃ final ok, (start.follow moves).advanceAll = (final, .ok ok) ∧
        (∀ m < final.completed, ¬ FailsAt shell contents exempt (pushed moves) m) ∧
        (ok = false → FailsAt shell contents exempt (pushed moves) final.completed) ∧
        (ok = true → final.completed = (pushed moves).length) ∧
        (ok = true ↔ ∀ m ≤ (pushed moves).length,
          ¬ FailsAt shell contents exempt (pushed moves) m) ∧
        final.queue = ((pushed moves).drop final.completed).map (·.map .of) ∧
        ∀ key content, (key, content) ∈ contents →
          foldSets (shell.escaperOf exempt key) content ((pushed moves).take final.completed) =
            .ok (final.results.get? key) := by
  have htracks := tracks_follow shell hkeys exempt rfl hsets
  refine ⟨_, prepare_eq_ok shell exempt hkeys, ?_, ?_⟩
  · intro key content hmem
    refine ⟨htracks.folded key content hmem, ?_, ?_⟩
    · have hkeys' : ([(key, content)].map (·.1)).Nodup := by simp
      have hclean : ∀ m < (follow ⟨shell, contents, ∅, exempt, [], 0⟩ moves).completed,
          ¬ FailsAt shell [(key, content)] exempt (pushed moves) m := by
        rintro m hm ⟨key', content', result, hsingle, hfails⟩
        rw [List.mem_singleton] at hsingle
        exact htracks.clean m hm ⟨key', content', result, hsingle ▸ hmem, hfails⟩
      have hcompleted :=
        completed_follow_phases shell hkeys' exempt hsets htracks.completed_le hclean
      have hpushed := pushed_phases (pushed moves)
        (follow ⟨shell, contents, ∅, exempt, [], 0⟩ moves).completed
      have halone := tracks_follow shell hkeys' exempt hpushed hsets
      exact ⟨_, prepare_eq_ok shell exempt hkeys', hcompleted,
        htracks.results_eq halone hmem (List.mem_singleton.2 rfl) rfl hcompleted⟩
    · intro contents' exempt' moves' hkeys' hmem' hexempt hpushed
      have htracks' := tracks_follow shell hkeys' exempt' hpushed hsets
      exact ⟨_, prepare_eq_ok shell exempt' hkeys',
        fun hcompleted => htracks.results_eq htracks' hmem hmem' hexempt hcompleted⟩
  · obtain ⟨final, ok, hadvance, hfinal, hfails, hdone, hok⟩ :=
      htracks.exists_advanceAll hkeys hsets
    exact ⟨final, ok, hadvance, hfinal.clean, hfails, hdone, hok, hfinal.queue_eq, hfinal.folded⟩

/-- The alias fails in the second phase, and the command does not. -/
def company : List (String × String) :=
  [("command", "\x7b\x7bpassthrough:a b\x7d\x7d \x7b\x7bnewline\x7d\x7d"),
    ("alias", "\x7b\x7bnewline:9999999\x7d\x7d")]

theorem sound_passthrough_newline : Sound [Builtin.passthrough, Builtin.newline] := by
  simp only [Sound, List.forall_mem_cons, List.not_mem_nil, false_imp_iff, implies_true, and_true]
  exact ⟨⟨Builtin.wellFormed_passthrough, Builtin.determined_passthrough⟩,
    Builtin.wellFormed_newline, Builtin.determined_newline⟩

def companyMoves : List Run.Move :=
  [.push [Builtin.passthrough], .advance, .push [Builtin.newline], .advanceAll]

theorem sound_companyMoves : ∀ vs ∈ Run.pushed companyMoves, Sound vs := by
  have hflatten : (Run.pushed companyMoves).flatten = [Builtin.passthrough, Builtin.newline] := rfl
  intro vs hvs v hv
  exact sound_passthrough_newline v (hflatten ▸ List.mem_flatten_of_mem hvs hv)

theorem contents_isolated_company :
    (company.map (·.1)).Nodup ∧ (∀ vs ∈ Run.pushed companyMoves, Sound vs) ∧
      ∃ start, Run.prepare .bash company ["alias"] = .ok start ∧
        foldSets (Shell.bash.escaperOf ["alias"] "command")
            "\x7b\x7bpassthrough:a b\x7d\x7d \x7b\x7bnewline\x7d\x7d"
            ((Run.pushed companyMoves).take (start.follow companyMoves).completed) =
          .ok ((start.follow companyMoves).results.get? "command") ∧
        ∃ final ok, (start.follow companyMoves).advanceAll = (final, .ok ok) ∧
          (ok = false →
            FailsAt .bash company ["alias"] (Run.pushed companyMoves) final.completed) := by
  have hkeys : (company.map (·.1)).Nodup := by decide +kernel
  obtain ⟨start, hstart, hcontents, final, ok, hadvance, -, hfails, -⟩ :=
    contents_isolated .bash hkeys ["alias"] sound_companyMoves
  exact ⟨hkeys, sound_companyMoves, start, hstart,
    (hcontents _ _ (List.mem_cons_self ..)).1, final, ok, hadvance, hfails⟩

example : (((Run.follow ⟨.bash, company, ∅, ["alias"], [], 0⟩ companyMoves).results.get?
    "command").map fun r => (r.resolved, r.count)) = some (some "'a b' '\n'", 2) := by
  decide +kernel

end CommandTemplate
