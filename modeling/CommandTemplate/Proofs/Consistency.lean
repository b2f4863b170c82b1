import CommandTemplate.Proofs.History
import CommandTemplate.Variable.Builtin
import Mathlib.Data.List.Induction

/-!
# What holds of a run after any history

Which contents have results, what these say of the text that was given, and that the count of
phases, the state of the run and its messages agree.
-/
namespace CommandTemplate.Run

variable {r r' : Run}

def Operation.offered? : Operation → Option (String × String)
  | .add key content => some (key, content)
  | _ => none

def offered (ops : List Operation) : List (String × String) := ops.filterMap Operation.offered?

def Operation.queued? : Operation → Option (List Variable)
  | .move m => m.pushed?
  | _ => none

def queued (ops : List Operation) : List (List Variable) := ops.filterMap Operation.queued?

/-! ## Asking for phases -/

/-- `r'` is `r` with some more of its phases completed, perhaps none. -/
structure Phased (r r' : Run) : Prop where
  coherent : r'.Coherent
  contents_eq : r'.contents = r.contents
  total_eq : r'.completed + r'.remaining = r.completed + r.remaining
  settled : (r'.completed = r.completed ∧ r'.results = r.results) ∨
    (r.completed < r'.completed ∧
      ∀ key, (r'.results.get? key).isSome ↔ key ∈ r.contents.map (·.1))

theorem Phased.refl (h : r.Coherent) : r.Phased r := ⟨h, rfl, rfl, .inl ⟨rfl, rfl⟩⟩

/-- A phase gives every content a result and nothing else. -/
theorem Extends.isSome_iff {next : String → Resolution} {results : Dict Resolution}
    (h : r.Coherent) (hextends : r.Extends r.contents next results) (key : String) :
    (results.get? key).isSome ↔ key ∈ r.contents.map (·.1) := by
  by_cases hkey : key ∈ r.contents.map (·.1)
  · obtain ⟨⟨key, content⟩, hmem, rfl⟩ := List.mem_map.1 hkey
    simp [hextends.added key content hmem, hkey]
  · simp [hextends.kept key hkey, h.known key hkey, hkey]

theorem Phased.advance (h : r.Phased r') : r.Phased r'.advance.1 := by
  have hadvances := advances h.coherent.keys_nodup
  have hcoherent := h.coherent.advance
  generalize r'.advance = out at hadvances hcoherent ⊢
  cases hadvances with
  | failed _ => exact h
  | exhausted _ _ => exact h
  | refused _ _ _ => exact h
  | @phase vs queue next results hfailed hqueue hvs hyields hextends =>
    have hle : r.completed ≤ r'.completed := by
      rcases h.settled with ⟨heq, -⟩ | ⟨hlt, -⟩ <;> omega
    refine ⟨hcoherent, h.contents_eq, ?_, .inr ⟨Nat.lt_succ_of_le hle, ?_⟩⟩
    · have htotal := h.total_eq
      simp only [remaining, hqueue, List.length_cons] at htotal ⊢
      omega
    · intro key
      rw [← h.contents_eq]
      exact hextends.isSome_iff h.coherent key

theorem phased_advance (h : r.Coherent) : r.Phased r.advance.1 := (Phased.refl h).advance

/-- Asking for all phases completes some of them, one after the other. -/
theorem phased_advanceAll (h : r.Coherent) : r.Phased r.advanceAll.1 :=
  advanceAll_induction (fun _ h => h.advance) (Phased.refl h)

/-! ## The contents -/

/-- Nothing but the offer of a content under a new key changes the contents. -/
theorem contents_apply (h : r.Coherent) (op : Operation) :
    ((∀ e ∈ op.offered?, e.1 ∈ r.contents.map (·.1)) ∧ (op.apply r).contents = r.contents) ∨
      ∃ e, op.offered? = some e ∧ e.1 ∉ r.contents.map (·.1) ∧
        (op.apply r).contents = r.contents ++ [e] := by
  cases op with
  | add key content =>
    rw [Operation.apply]
    rcases r.addContent_cases key content with ⟨hkey, hadd⟩ | ⟨hkey, hadd⟩
    · refine .inl ⟨?_, by rw [hadd]⟩
      intro e he
      exact Option.some.inj he ▸ hkey
    · exact .inr ⟨(key, content), rfl, hkey, by rw [hadd]⟩
  | exempt key => exact .inl ⟨by simp [Operation.offered?], rfl⟩
  | move m =>
    cases m with
    | push vs => exact .inl ⟨by simp [Operation.offered?], rfl⟩
    | advance => exact .inl ⟨by simp [Operation.offered?], (phased_advance h).contents_eq⟩
    | advanceAll => exact .inl ⟨by simp [Operation.offered?], (phased_advanceAll h).contents_eq⟩

/-- Contents are only ever added at the end. -/
theorem prefix_contents_apply (h : r.Coherent) (op : Operation) :
    r.contents <+: (op.apply r).contents := by
  rcases contents_apply h op with ⟨-, heq⟩ | ⟨e, -, -, heq⟩
  · exact heq ▸ List.prefix_refl _
  · exact heq ▸ List.prefix_append ..

theorem sublist_contents_apply (h : r.Coherent) (op : Operation) :
    (op.apply r).contents.Sublist (r.contents ++ op.offered?.toList) := by
  rcases contents_apply h op with ⟨-, heq⟩ | ⟨e, hop, -, heq⟩
  · rw [heq]
    exact List.sublist_append_left ..
  · rw [heq, hop]
    exact List.Sublist.refl _

/-- An offer under a taken key does not hide the content that is there. -/
theorem lookup_append_singleton_of_mem {es : List (String × String)} {e : String × String}
    (h : e.1 ∈ es.map (·.1)) (key : String) : (es ++ [e]).lookup key = es.lookup key := by
  rw [List.lookup_append]
  by_cases hkey : key = e.1
  · obtain ⟨e', he', heq⟩ := List.mem_map.1 h
    have hsome : (es.lookup key).isSome :=
      List.lookup_isSome_iff.2 ⟨e', he', by simp [hkey, heq]⟩
    obtain ⟨content, hcontent⟩ := Option.isSome_iff_exists.1 hsome
    rw [hcontent]
    rfl
  · rw [Dict.lookup_cons_ite, if_neg hkey]
    simp

/-- A key keeps the content that it was first given. -/
theorem lookup_contents_apply (h : r.Coherent) (op : Operation) (key : String) :
    (op.apply r).contents.lookup key = (r.contents ++ op.offered?.toList).lookup key := by
  rcases contents_apply h op with ⟨htaken, heq⟩ | ⟨e, hop, -, heq⟩
  · rw [heq]
    cases hop : op.offered? with
    | none => simp
    | some e => exact (lookup_append_singleton_of_mem (htaken e hop) key).symm
  · rw [heq, hop]
    rfl

theorem offered_cons (op : Operation) (ops : List Operation) :
    offered (op :: ops) = op.offered?.toList ++ offered ops := by
  rw [offered, List.filterMap_cons, offered]
  cases op.offered? <;> rfl

theorem sublist_contents_perform (h : r.Coherent) (ops : List Operation) :
    (r.perform ops).contents.Sublist (r.contents ++ offered ops) := by
  induction ops generalizing r with
  | nil => simp [offered]
  | cons op ops ih =>
    rw [offered_cons, ← List.append_assoc]
    exact (ih (h.apply op)).trans ((sublist_contents_apply h op).append_right _)

/-- The content of a key is the first one that was offered under it. -/
theorem lookup_contents_perform (h : r.Coherent) (ops : List Operation) (key : String) :
    (r.perform ops).contents.lookup key = (r.contents ++ offered ops).lookup key := by
  induction ops generalizing r with
  | nil => simp [offered]
  | cons op ops ih =>
    rw [offered_cons, ← List.append_assoc, perform_cons, ih (h.apply op), List.lookup_append,
      lookup_contents_apply h op, ← List.lookup_append]

/-! ## The results -/

/-- The contents that came first, up to `settled`, have results, and no others. -/
structure Covers (r : Run) (settled : List (String × String)) : Prop where
  isPrefix : settled <+: r.contents
  isSome_iff : ∀ key, (r.results.get? key).isSome ↔ key ∈ settled.map (·.1)

theorem keys_resultList (r : Run) :
    r.resultList.map (·.1) =
      (r.contents.filter fun e => (r.results.get? e.1).isSome).map (·.1) := by
  rw [resultList]
  induction r.contents with
  | nil => rfl
  | cons e contents ih =>
    rw [List.filterMap_cons, List.filter_cons]
    cases hget : r.results.get? e.1 with
    | none => simpa [hget] using ih
    | some result => simpa [hget] using ih

/-- The listed results are those of the keys that have one. -/
theorem mem_resultList {key : String} {result : Resolution} :
    (key, result) ∈ r.resultList ↔
      key ∈ r.contents.map (·.1) ∧ r.results.get? key = some result := by
  simp only [resultList, List.mem_filterMap, List.mem_map, Option.map_eq_some_iff, Prod.mk.injEq]
  constructor
  · rintro ⟨e, he, result, hget, rfl, rfl⟩
    exact ⟨⟨e, he, rfl⟩, hget⟩
  · rintro ⟨⟨e, he, rfl⟩, hget⟩
    exact ⟨e, he, result, hget, rfl, rfl⟩

/-- The results are listed in the order of the contents that have them. -/
theorem Covers.keys_resultList {settled : List (String × String)} (h : r.Covers settled)
    (hkeys : (r.contents.map (·.1)).Nodup) : r.resultList.map (·.1) = settled.map (·.1) := by
  obtain ⟨late, hlate⟩ := h.isPrefix
  rw [← hlate, List.map_append] at hkeys
  have hsettled : settled.filter (fun e => (r.results.get? e.1).isSome) = settled :=
    List.filter_eq_self.2 fun e he => (h.isSome_iff e.1).2 (List.mem_map_of_mem he)
  have hnone : late.filter (fun e => (r.results.get? e.1).isSome) = [] := by
    refine List.filter_eq_nil_iff.2 fun e he hsome => ?_
    exact (List.nodup_append.1 hkeys).2.2 e.1 ((h.isSome_iff e.1).1 hsome) e.1
      (List.mem_map_of_mem he) rfl
  rw [Run.keys_resultList, ← hlate, List.filter_append, hsettled, hnone, List.append_nil]

/-- An operation completes no phase and leaves the results alone, or it gives a result to each of
the contents. -/
theorem settled_apply (h : r.Coherent) (op : Operation) :
    ((op.apply r).completed = r.completed ∧ (op.apply r).results = r.results) ∨
      (r.completed < (op.apply r).completed ∧ (op.apply r).Covers r.contents) := by
  have hphased : ∀ r' : Run, r.Phased r' →
      (r'.completed = r.completed ∧ r'.results = r.results) ∨
        (r.completed < r'.completed ∧ r'.Covers r.contents) := by
    intro r' hphased
    refine hphased.settled.imp_right fun ⟨hlt, hiff⟩ => ⟨hlt, ?_, hiff⟩
    exact hphased.contents_eq ▸ List.prefix_refl _
  cases op with
  | add key content =>
    obtain ⟨contents, hadd⟩ := r.exists_apply_add key content
    rw [hadd]
    exact .inl ⟨rfl, rfl⟩
  | exempt key => exact .inl ⟨rfl, rfl⟩
  | move m =>
    cases m with
    | push vs => exact .inl ⟨rfl, rfl⟩
    | advance => exact hphased _ (phased_advance h)
    | advanceAll => exact hphased _ (phased_advanceAll h)

/-- Behind `before`, `op` completed a phase, and nothing of `after` completed another. -/
structure LastPhase (r : Run) (before : List Operation) (op : Operation) (after : List Operation) :
    Prop where
  completes : (r.perform before).completed < (op.apply (r.perform before)).completed
  last : (r.perform (before ++ op :: after)).completed = (op.apply (r.perform before)).completed

/-- The contents with results are those that were there when the last phase was completed. -/
theorem covers_perform (h : r.Coherent) (hnone : r.results = ∅) (ops : List Operation) :
    ((r.perform ops).completed = r.completed ∧ (r.perform ops).results = ∅) ∨
      ∃ before op after, ops = before ++ op :: after ∧ r.LastPhase before op after ∧
        (r.perform ops).Covers (r.perform before).contents := by
  induction ops using List.reverseRecOn with
  | nil => exact .inl ⟨rfl, hnone⟩
  | append_singleton ops op ih =>
    have hperform : r.perform (ops ++ [op]) = op.apply (r.perform ops) := perform_append r ops [op]
    have hcoherent := h.perform ops
    rcases settled_apply hcoherent op with ⟨hcompleted, hresults⟩ | ⟨hlt, hcovers⟩
    · rw [hperform]
      rcases ih with ⟨heq, hempty⟩ | ⟨before, last, after, rfl, hlast, hcovers⟩
      · exact .inl ⟨hcompleted.trans heq, hresults.trans hempty⟩
      · refine .inr ⟨before, last, after ++ [op], by simp, ⟨hlast.completes, ?_⟩, ?_, ?_⟩
        · rw [← List.cons_append, ← List.append_assoc, hperform, hcompleted, hlast.last]
        · exact hcovers.isPrefix.trans (prefix_contents_apply hcoherent op)
        · rw [hresults]
          exact hcovers.isSome_iff
    · refine .inr ⟨ops, op, [], rfl, ⟨hlt, by rw [hperform]⟩, ?_⟩
      rw [hperform]
      exact hcovers

/-! ## The phases -/

theorem total_apply (h : r.Coherent) (op : Operation) :
    (op.apply r).completed + (op.apply r).remaining =
      r.completed + r.remaining + op.queued?.toList.length := by
  cases op with
  | add key content =>
    obtain ⟨contents, hadd⟩ := r.exists_apply_add key content
    rw [hadd]
    rfl
  | exempt key => rfl
  | move m =>
    cases m with
    | push vs =>
      simp [Operation.apply, Move.apply, remaining, Operation.queued?, Move.pushed?]
      omega
    | advance => exact (phased_advance h).total_eq
    | advanceAll => exact (phased_advanceAll h).total_eq

/-- A set that was queued is either completed or still there. -/
theorem total_perform (h : r.Coherent) (ops : List Operation) :
    (r.perform ops).completed + (r.perform ops).remaining =
      r.completed + r.remaining + (queued ops).length := by
  induction ops generalizing r with
  | nil => rfl
  | cons op ops ih =>
    have hlength :
        (queued (op :: ops)).length = op.queued?.toList.length + (queued ops).length := by
      rw [queued, List.filterMap_cons, queued]
      cases op.queued? <;> simp [Nat.add_comm]
    rw [perform_cons, ih (h.apply op), total_apply h op, hlength, Nat.add_assoc]

/-! ## Failure -/

theorem state_eq_failed_iff (r : Run) : r.state = .failed ↔ r.hasFailed := by
  rw [state]
  cases r.hasFailed with
  | true => simp
  | false => cases r.queue.isEmpty <;> simp

/-- A run has messages exactly when it has failed. -/
theorem messages_ne_nil_iff (h : r.Coherent) : r.messages ≠ [] ↔ r.hasFailed := by
  rw [hasFailed_iff, messages, Ne, List.flatMap_eq_nil_iff]
  push Not
  constructor
  · rintro ⟨⟨key, result⟩, hmem, hmessages⟩
    have hget := (mem_resultList.1 hmem).2
    exact ⟨key, result, hget, (h.decided key result hget).messages_ne_nil_iff.1 hmessages⟩
  · rintro ⟨key, result, hget, hfailed⟩
    exact ⟨(key, result), mem_resultList.2 ⟨h.mem_keys hget, hget⟩,
      (h.decided key result hget).messages_ne_nil_iff.2 hfailed⟩

/-- Just in a failed run some result has no text. -/
theorem exists_lost_iff (h : r.Coherent) :
    (∃ key result, r.results.get? key = some result ∧ result.resolved = none) ↔ r.hasFailed := by
  rw [hasFailed_iff]
  refine exists_congr fun key => exists_congr fun result => and_congr_right fun hget => ?_
  exact (h.decided key result hget).resolved_eq_none_iff

/-! ## The invariant -/

structure Consistent (shell : Shell) (ops : List Operation) (r : Run) : Prop where
  keys_nodup : (r.contents.map (·.1)).Nodup
  /-- Contents stand in the order in which they were offered, -/
  contents_sublist : r.contents.Sublist (offered ops)
  /-- and the first one under a key counts. -/
  contents_lookup : ∀ key, r.contents.lookup key = (offered ops).lookup key
  results_listed : ∀ key, (r.results.get? key).isSome ↔ key ∈ r.resultList.map (·.1)
  results_prefix : r.resultList.map (·.1) <+: r.contents.map (·.1)
  /-- Results are there for the contents that the last completed phase found. -/
  last_phase : (r.completed = 0 ∧ r.resultList = []) ∨
    ∃ before op after, ops = before ++ op :: after ∧ (start shell).LastPhase before op after ∧
      r.resultList.map (·.1) = ((start shell).perform before).contents.map (·.1)
  original : ∀ key result, r.results.get? key = some result →
    (offered ops).lookup key = some result.content
  decided : ∀ key result, r.results.get? key = some result → result.Decided
  phases_eq : r.completed + r.remaining = (queued ops).length
  failed_iff_messages : r.state = .failed ↔ r.messages ≠ []
  messages_iff_lost : r.messages ≠ [] ↔
    ∃ key result, r.results.get? key = some result ∧ result.resolved = none

theorem lookup_eq_some_of_mem {α : Type} {es : List (String × α)} (hkeys : (es.map (·.1)).Nodup)
    {key : String} {a : α} (h : (key, a) ∈ es) : es.lookup key = some a := by
  obtain ⟨before, after, rfl⟩ := List.append_of_mem h
  rw [List.map_append, List.map_cons, List.nodup_append] at hkeys
  refine List.lookup_eq_some_iff.2 ⟨before, after, rfl, fun e he => bne_iff_ne.2 fun heq => ?_⟩
  exact hkeys.2.2 e.1 (List.mem_map_of_mem he) key (List.mem_cons_self ..) heq.symm

/-- After any history, whatever was offered, queued or asked for, a run is consistent with it. -/
theorem consistent_perform (shell : Shell) (ops : List Operation) :
    Consistent shell ops ((start shell).perform ops) := by
  have hstart := coherent_start shell
  have hcoherent := hstart.perform ops
  have hlookup : ∀ key, ((start shell).perform ops).contents.lookup key =
      (offered ops).lookup key := fun key => lookup_contents_perform hstart ops key
  constructor
  case keys_nodup => exact hcoherent.keys_nodup
  case contents_sublist => exact sublist_contents_perform hstart ops
  case contents_lookup => exact hlookup
  case results_listed =>
    intro key
    rw [Option.isSome_iff_exists]
    constructor
    · rintro ⟨result, hget⟩
      exact List.mem_map.2 ⟨(key, result), mem_resultList.2 ⟨hcoherent.mem_keys hget, hget⟩, rfl⟩
    · intro hkey
      obtain ⟨⟨key, result⟩, hmem, rfl⟩ := List.mem_map.1 hkey
      exact ⟨result, (mem_resultList.1 hmem).2⟩
  case results_prefix =>
    rcases covers_perform hstart rfl ops with ⟨-, hempty⟩ | ⟨before, op, after, -, -, hcovers⟩
    · simp [resultList, hempty]
    · rw [hcovers.keys_resultList hcoherent.keys_nodup]
      exact hcovers.isPrefix.map _
  case last_phase =>
    rcases covers_perform hstart rfl ops with
      ⟨hcompleted, hempty⟩ | ⟨before, op, after, hops, hlast, hcovers⟩
    · exact .inl ⟨hcompleted, by simp [resultList, hempty]⟩
    · exact .inr ⟨before, op, after, hops, hlast,
        hcovers.keys_resultList hcoherent.keys_nodup⟩
  case original =>
    intro key result hget
    obtain ⟨⟨key, content⟩, hmem, rfl⟩ := List.mem_map.1 (hcoherent.mem_keys hget)
    rw [← hlookup, lookup_eq_some_of_mem hcoherent.keys_nodup hmem,
      hcoherent.content_eq key content result hmem hget]
  case decided => exact hcoherent.decided
  case phases_eq => simpa [remaining] using total_perform hstart ops
  case failed_iff_messages =>
    exact (state_eq_failed_iff _).trans (messages_ne_nil_iff hcoherent).symm
  case messages_iff_lost =>
    exact (messages_ne_nil_iff hcoherent).trans (exists_lost_iff hcoherent).symm

/-- The second offer of a key is refused, and the content that comes behind the phase has no result;
asking for another phase is an error that nothing shows of. -/
example :
    let r := (start .bash).perform [.add "a" "x", .add "a" "y", .move (.push [Builtin.newline]),
      .move .advance, .add "b" "z", .move .advance]
    (r.contents, r.resultList.map (·.1), r.completed, r.state) =
      ([("a", "x"), ("b", "z")], ["a"], 1, .succeeded) := by decide +kernel

end CommandTemplate.Run
