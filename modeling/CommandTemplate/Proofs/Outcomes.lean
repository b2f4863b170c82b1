import CommandTemplate.CommandLine.Report
import CommandTemplate.Proofs.Distinct
import CommandTemplate.Proofs.Requests

/-!
# What an outcome says

Whether a request has succeeded is taken from the last phase that ran, and the results have been
gathered over one phase or two. Whichever end a request comes to, the two agree: a success has a
text for every key, and a failure has a message.
-/
namespace CommandTemplate

theorem ResolveOutcome.messages_eq_nil_iff (o : ResolveOutcome) :
    o.messages = [] ↔ ∀ e ∈ o.results, e.2.messages = [] := by
  simp only [messages, Resolution.distinctMessages, List.eq_nil_iff_forall_not_mem, mem_distinct,
    List.mem_flatMap]
  constructor
  · intro h e he message hmessage
    exact h message ⟨e, he, hmessage⟩
  · rintro h message ⟨e, he, hmessage⟩
    exact h e he message hmessage

/-! ## The results of a run -/

namespace Run

variable {r : Run}

/-- The results stand in the order of the contents and begin with them. -/
theorem Coherent.map_content_resultList (h : r.Coherent) (hcovers : r.Covers r.contents) :
    r.resultList.map (fun e => (e.1, e.2.content)) = r.contents := by
  have hsome : ∀ e ∈ r.contents,
      ((r.results.get? e.1).map fun result => (e.1, result)).map
        (fun e => (e.1, e.2.content)) = some e := by
    intro e he
    obtain ⟨result, hget⟩ :=
      Option.isSome_iff_exists.1 ((hcovers.isSome_iff e.1).2 (List.mem_map_of_mem he))
    rw [hget, Option.map_some, Option.map_some, h.content_eq e.1 e.2 result he hget]
  rw [resultList, List.map_filterMap, List.filterMap_congr hsome, List.filterMap_some]

end Run

/-! ## Outcomes -/

namespace ResolveOutcome

structure Consistent (o : ResolveOutcome) (r : ResolveRequest) : Prop where
  /-- The results are those of the texts of the request, in order. -/
  contents_eq : o.results.map (fun e => (e.1, e.2.content)) =
    (ResolveRequest.commandKey, r.command) ::
      (r.shown.map fun text => (ResolveRequest.shownKey, text)).toList
  get?_eq_some_iff : ∀ key result, o.get? key = some result ↔ (key, result) ∈ o.results
  succeeded_iff : o.succeeded = true ↔ ∀ e ∈ o.results, e.2.succeeded = true
  resolved_iff : o.succeeded = true ↔ ∀ e ∈ o.results, e.2.resolved.isSome
  messages_iff : o.succeeded = true ↔ o.messages = []
  /-- A success has a line to print for each key, -/
  printed : o.succeeded = true → ∀ key ∈ o.results.map (·.1),
    ∃ text, CommandLine.Report.resolvedLine o key = [text]
  /-- and a failure has messages of one key at least. -/
  explained : o.succeeded = false → ∃ e ∈ o.results, e.2.messages ≠ []

end ResolveOutcome

/-- The outcome of a coherent run in which every content has a result is consistent. -/
theorem Run.Coherent.consistent_outcome {run : Run} (h : run.Coherent)
    (hcovers : run.Covers run.contents) {r : ResolveRequest}
    (hcontents : run.contents = r.contents) :
    (run.outcome !run.hasFailed).Consistent r := by
  have hdecided : ∀ e ∈ run.resultList, e.2.Decided :=
    fun e he => h.decided e.1 e.2 (mem_resultList.1 he).2
  have hkeys : (run.resultList.map (·.1)).Nodup := by
    rw [hcovers.keys_resultList h.keys_nodup]
    exact h.keys_nodup
  have hget : ∀ key result,
      run.resultList.lookup key = some result ↔ (key, result) ∈ run.resultList := by
    intro key result
    refine ⟨fun hlookup => ?_, lookup_eq_some_of_mem hkeys⟩
    obtain ⟨before, after, hsplit, -⟩ := List.lookup_eq_some_iff.1 hlookup
    simp [hsplit]
  have hresolved : (!run.hasFailed) = true ↔ ∀ e ∈ run.resultList, e.2.resolved.isSome := by
    rw [h.not_hasFailed_iff]
    exact forall₂_congr fun e he => (hdecided e he).isSome_resolved_iff.symm
  have hmessages : ∀ e ∈ run.resultList, (e.2.messages = [] ↔ e.2.succeeded = true) := by
    intro e he
    have hne := (hdecided e he).messages_ne_nil_iff
    rw [← Bool.not_eq_false, ← hne, not_not]
  constructor
  case contents_eq => exact (h.map_content_resultList hcovers).trans hcontents
  case get?_eq_some_iff => exact hget
  case succeeded_iff => exact h.not_hasFailed_iff
  case resolved_iff => exact hresolved
  case messages_iff =>
    rw [ResolveOutcome.messages_eq_nil_iff]
    exact h.not_hasFailed_iff.trans (forall₂_congr fun e he => (hmessages e he).symm)
  case printed =>
    intro hsucceeded key hkey
    obtain ⟨⟨key, result⟩, hmem, rfl⟩ := List.mem_map.1 hkey
    obtain ⟨text, htext⟩ := Option.isSome_iff_exists.1 (hresolved.1 hsucceeded _ hmem)
    have hlookup : (run.outcome !run.hasFailed).get? key = some result := (hget key result).2 hmem
    refine ⟨text, ?_⟩
    rw [CommandLine.Report.resolvedLine, hlookup, Option.bind_some, htext]
    rfl
  case explained =>
    intro hfailed
    by_contra hnone
    push Not at hnone
    have hsucceeded := h.not_hasFailed_iff.2 fun e he => (hmessages e he).1 (hnone e he)
    exact Bool.false_ne_true (hfailed.symm.trans hsucceeded)

/-- Whatever is asked for, in whatever surroundings and with whatever answers: an outcome is
consistent, in whichever phase its texts may have failed. -/
theorem ResolveRequest.outcome_consistent (r : ResolveRequest) (settings : Settings)
    (w : Surroundings) (exhausted : Option String) (replies : List String) {o : ResolveOutcome}
    (h : (r.resolve settings w).run exhausted replies = .ok o) : o.Consistent r := by
  have hends := r.ends_resolve settings w exhausted replies
  rw [h] at hends
  cases hends with
  | @stopped shell run hshell hfirst hfailed =>
    have hconsistent := hfirst.coherent.consistent_outcome hfirst.covers hfirst.contents_eq
    rwa [hfailed] at hconsistent
  | @finished shell run last custom hshell hfirst hfailed hcustom hsecond =>
    exact hsecond.coherent.consistent_outcome hsecond.covers
      (hsecond.contents_eq.trans hfirst.contents_eq)

/-- The command resolves, but the text shown for it asks for a name that was never given a value. -/
def halfKnown : ResolveRequest where
  command := "echo \x7b\x7b_name\x7d\x7d"
  shown := some "\x7b\x7b_name\x7d\x7d of \x7b\x7b_city\x7d\x7d"
  shell := none
  file := none
  event := none
  clipboard := none
  assignments := [("name", "a b")]
  prompt := false

def citySettings : Settings := { (∅ : Settings) with prompt := [⟨"city", none, none⟩] }

def halfKnownOutcome : ResolveOutcome :=
  ⟨.bash, false,
    [("command", .success "echo \x7b\x7b_name\x7d\x7d" "echo 'a b'" 1),
      ("alias", .failure "\x7b\x7b_name\x7d\x7d of \x7b\x7b_city\x7d\x7d"
        ["\x7b\x7b_city\x7d\x7d: custom variable has no value"])]⟩

theorem outcome_consistent_halfKnown :
    (halfKnown.resolve citySettings bareSurroundings).run none [] = .ok halfKnownOutcome ∧
      halfKnownOutcome.Consistent halfKnown := by
  have hresolve :
      (halfKnown.resolve citySettings bareSurroundings).run none [] = .ok halfKnownOutcome := by
    decide +kernel
  exact ⟨hresolve, halfKnown.outcome_consistent citySettings bareSurroundings none [] hresolve⟩

end CommandTemplate
