import CommandTemplate.Proofs.Faults
import CommandTemplate.Proofs.Stateless

/-!
# One phase of a run

How a run is set up, and what a phase does to it: every content gets one more resolution, of what
its own last one left, and nothing else of the run is looked at or changed.
-/
namespace CommandTemplate.Run

/-- A run with contents and exempt keys, before anything is queued. -/
def prepare (shell : Shell) (contents : List (String × String)) (exempt : List String) :
    Except TemplateError Run :=
  (contents.foldlM (fun (r : Run) e => r.addContent e.1 e.2) (start shell)).map
    (exempt.foldl skipEscaping)

/-- Contents under distinct keys are all added, in order. -/
theorem foldlM_addContent (r : Run) {contents : List (String × String)}
    (h : ((r.contents ++ contents).map (·.1)).Nodup) :
    contents.foldlM (fun (r : Run) e => r.addContent e.1 e.2) r =
      .ok { r with contents := r.contents ++ contents } := by
  induction contents generalizing r with
  | nil => simp
  | cons e contents ih =>
    obtain ⟨key, content⟩ := e
    have hnew : r.contents.any (·.1 == key) = false := by
      rw [List.any_eq_false]
      intro e he
      rw [List.map_append, List.map_cons, List.nodup_append] at h
      have hne := h.2.2 e.1 (List.mem_map_of_mem he) key (List.mem_cons_self ..)
      simpa using hne
    have hadd : r.addContent key content =
        .ok { r with contents := r.contents ++ [(key, content)] } := by
      rw [addContent, hnew]
      rfl
    have hrest := ih { r with contents := r.contents ++ [(key, content)] } (by simpa using h)
    rw [List.foldlM_cons]
    simp only [hadd]
    simpa using hrest

theorem foldl_skipEscaping (r : Run) (keys : List String) :
    keys.foldl skipEscaping r = { r with exempt := r.exempt ++ keys } := by
  induction keys generalizing r with
  | nil => simp
  | cons key keys ih => simp [ih, skipEscaping]

/-- Distinct keys are all it takes to set up a run. -/
theorem prepare_eq_ok (shell : Shell) {contents : List (String × String)} (exempt : List String)
    (h : (contents.map (·.1)).Nodup) :
    prepare shell contents exempt = .ok ⟨shell, contents, ∅, exempt, [], 0⟩ := by
  rw [prepare, foldlM_addContent (start shell) (by simpa using h)]
  simp [foldl_skipEscaping]

/-! ## Failure -/

/-- A run has failed if one of its results has. -/
theorem hasFailed_iff (r : Run) :
    r.hasFailed ↔ ∃ key result, r.results.get? key = some result ∧ result.succeeded = false := by
  rw [hasFailed, List.any_eq_true]
  constructor
  · rintro ⟨⟨key, result⟩, hmem, hfailed⟩
    exact ⟨key, result, (Dict.mem_entries_iff ..).1 hmem, by simpa using hfailed⟩
  · rintro ⟨key, result, hget, hfailed⟩
    exact ⟨(key, result), (Dict.mem_entries_iff ..).2 hget, by simp [hfailed]⟩

theorem succeeded_of_hasFailed_eq_false {r : Run} (hfailed : r.hasFailed = false) {key : String}
    {result : Resolution} (h : r.results.get? key = some result) : result.succeeded = true := by
  by_contra hne
  have hany := r.hasFailed_iff.2 ⟨key, result, h, by simpa using hne⟩
  simp [hfailed] at hany

/-! ## The contents of a phase -/

theorem inputFor_congr {r r' : Run} {key : String}
    (h : r.results.get? key = r'.results.get? key) (content : String) :
    r.inputFor key content = r'.inputFor key content := by
  rw [inputFor, h, inputFor]

theorem resultAfter_congr {r r' : Run} {key : String}
    (h : r.results.get? key = r'.results.get? key) (next : Resolution) :
    r.resultAfter key next = r'.resultAfter key next := by
  rw [resultAfter, h, resultAfter]

/-- Some instances of the variables resolve what is left of the content to this. -/
def Yields (r : Run) (vs : List Instance) (key content : String) (next : Resolution) : Prop :=
  ∃ used left, used.map (·.base) = vs.map (·.base) ∧
    resolveContent (r.escaperFor key) used (r.inputFor key content) = .ok (left, next)

structure Extends (r : Run) (contents : List (String × String)) (next : String → Resolution)
    (results : Dict Resolution) : Prop where
  added : ∀ key content, (key, content) ∈ contents →
    results.get? key = some (r.resultAfter key (next key))
  kept : ∀ key, key ∉ contents.map (·.1) → results.get? key = r.results.get? key

def record (r : Run) (key : String) (result : Resolution) : Run :=
  { r with results := r.results.insert key result }

theorem get?_record {r : Run} {key other : String} (h : other ≠ key) (result : Resolution) :
    (r.record key result).results.get? other = r.results.get? other := by
  rw [record, Dict.get?_insert, if_neg h]

/-- The result of one content does not matter to another. -/
theorem Yields.of_record {r : Run} {vs left : List Instance} {key other content : String}
    {result next : Resolution} (hleft : left.map (·.base) = vs.map (·.base)) (hother : other ≠ key)
    (h : (r.record key result).Yields left other content next) :
    r.Yields vs other content next := by
  obtain ⟨used, left', hused, hres⟩ := h
  rw [inputFor_congr (get?_record hother result)] at hres
  exact ⟨used, left', hused.trans hleft, hres⟩

theorem Extends.cons {r : Run} {key content : String} {contents : List (String × String)}
    {next : String → Resolution} {results : Dict Resolution} {here : Resolution}
    (hkey : key ∉ contents.map (·.1))
    (h : (r.record key (r.resultAfter key here)).Extends contents next results) :
    r.Extends ((key, content) :: contents) (Function.update next key here) results := by
  constructor
  · intro other content' hmem
    rcases List.mem_cons.1 hmem with heq | hrest
    · obtain ⟨rfl, rfl⟩ := Prod.mk.inj heq
      rw [h.kept other hkey, Function.update_self]
      exact Dict.get?_insert_self ..
    · have hother : other ≠ key := fun heq => hkey (List.mem_map.2 ⟨_, hrest, heq⟩)
      rw [h.added other content' hrest, Function.update_of_ne hother]
      exact congrArg some (resultAfter_congr (get?_record hother _) _)
  · intro other hother
    rw [List.map_cons, List.mem_cons, not_or] at hother
    rw [h.kept other hother.2]
    exact get?_record hother.1 _

/-- With well-formed schemas every content of a phase gets its resolution. -/
theorem exists_resolveContents (r : Run) {vs : List Instance}
    (hvs : ∀ v ∈ vs, WellFormed v.base.parameters) {contents : List (String × String)}
    (hkeys : (contents.map (·.1)).Nodup) :
    ∃ next results, r.resolveContents vs contents =
        .ok (results, contents.all fun e => (next e.1).succeeded) ∧
      (∀ key content, (key, content) ∈ contents → r.Yields vs key content (next key)) ∧
      r.Extends contents next results := by
  induction contents generalizing r vs with
  | nil =>
    refine ⟨fun key => .success key key 0, r.results, rfl, by simp, ?_⟩
    exact ⟨by simp, fun _ _ => rfl⟩
  | cons e contents ih =>
    obtain ⟨key, content⟩ := e
    rw [List.map_cons, List.nodup_cons] at hkeys
    obtain ⟨hkey, hkeys⟩ := hkeys
    obtain ⟨left, here, hhere⟩ :=
      exists_resolveContent (r.escaperFor key) hvs (r.inputFor key content)
    have hbase := base_resolveContent hhere
    have hleft : ∀ v ∈ left, WellFormed v.base.parameters := by
      intro v hv
      obtain ⟨w, hw, hwv⟩ := List.mem_map.1 (hbase ▸ List.mem_map_of_mem hv)
      exact hwv ▸ hvs w hw
    obtain ⟨next, results, hrest, hyields, hextends⟩ :=
      ih (r.record key (r.resultAfter key here)) hleft hkeys
    have hne : ∀ other content', (other, content') ∈ contents → other ≠ key :=
      fun other content' hmem heq => hkey (List.mem_map.2 ⟨_, hmem, heq⟩)
    refine ⟨Function.update next key here, results, ?_, ?_, hextends.cons hkey⟩
    · have hall : (contents.all fun e => (next e.1).succeeded) =
          contents.all fun e => (Function.update next key here e.1).succeeded := by
        rw [Bool.eq_iff_iff, List.all_eq_true, List.all_eq_true]
        refine forall₂_congr fun e he => ?_
        rw [Function.update_of_ne (hne e.1 e.2 he)]
      rw [record] at hrest
      rw [resolveContents, hhere]
      simp only [hrest, map_ok, List.all_cons, Function.update_self, hall]
    · intro other content' hmem
      rcases List.mem_cons.1 hmem with heq | hmem
      · obtain ⟨rfl, rfl⟩ := Prod.mk.inj heq
        exact ⟨vs, left, rfl, by rw [Function.update_self]; exact hhere⟩
      · have hother := hne other content' hmem
        rw [Function.update_of_ne hother]
        exact (hyields other content' hmem).of_record hbase hother

/-! ## A whole phase -/

theorem advance_of_hasFailed {r : Run} (h : r.hasFailed) : r.advance = (r, .ok false) := by
  rw [advance, if_pos h]

theorem advance_of_queue_eq_nil {r : Run} (hfailed : r.hasFailed = false) (hqueue : r.queue = []) :
    r.advance = (r, .error .noPhasesRemaining) := by
  rw [advance, hfailed, hqueue]
  rfl

/-- A malformed schema is reported before anything is resolved. -/
theorem advance_of_refused {r : Run} (hfailed : r.hasFailed = false) {vs : List Instance}
    {queue : List (List Instance)} (hqueue : r.queue = vs :: queue) {e : TemplateError}
    (h : RefusedWith (vs.map (·.base)) e) : r.advance = (r, .error e) := by
  have hcheck := (checkSchemas_eq_error_iff vs e).2 h
  rw [advance, hfailed, hqueue]
  simp [hcheck]

/-- A phase with well-formed schemas goes through, whether its contents succeed or not. -/
theorem exists_advance {r : Run} {vs : List Instance} {queue : List (List Instance)}
    (hfailed : r.hasFailed = false) (hqueue : r.queue = vs :: queue)
    (hvs : ∀ v ∈ vs, WellFormed v.base.parameters) (hkeys : (r.contents.map (·.1)).Nodup) :
    ∃ next results,
      r.advance = ({ r with results := results, queue := queue, completed := r.completed + 1 },
        .ok (r.contents.all fun e => (next e.1).succeeded)) ∧
      (∀ key content, (key, content) ∈ r.contents → r.Yields vs key content (next key)) ∧
      r.Extends r.contents next results := by
  obtain ⟨next, results, hphase, hyields, hextends⟩ := exists_resolveContents r hvs hkeys
  refine ⟨next, results, ?_, hyields, hextends⟩
  rw [advance, hfailed, hqueue]
  simp [(checkSchemas_eq_ok_iff vs).2 hvs, hphase]

/-- A phase fails a run that had not failed exactly when one of its contents does not succeed. -/
theorem Extends.hasFailed_eq {r r' : Run} {next : String → Resolution}
    (hfailed : r.hasFailed = false)
    (hnone : ∀ key, key ∉ r.contents.map (·.1) → r.results.get? key = none)
    (h : r.Extends r.contents next r'.results) :
    r'.hasFailed = !r.contents.all fun e => (next e.1).succeeded := by
  have hafter : ∀ key, (r.resultAfter key (next key)).succeeded = (next key).succeeded := by
    intro key
    rw [resultAfter]
    cases hget : r.results.get? key with
    | none => rfl
    | some result =>
      have hresult := succeeded_of_hasFailed_eq_false hfailed hget
      simp [hresult]
  rw [Bool.eq_iff_iff, hasFailed_iff, Bool.not_eq_true', ← Bool.not_eq_true, List.all_eq_true]
  constructor
  · rintro ⟨key, result, hget, hresult⟩ hall
    by_cases hmem : key ∈ r.contents.map (·.1)
    · obtain ⟨e, he, rfl⟩ := List.mem_map.1 hmem
      rw [h.added e.1 e.2 he, Option.some.injEq] at hget
      rw [← hget, hafter, hall e he] at hresult
      cases hresult
    · rw [h.kept key hmem, hnone key hmem] at hget
      cases hget
  · intro hall
    push Not at hall
    obtain ⟨e, he, hnext⟩ := hall
    exact ⟨e.1, _, h.added e.1 e.2 he, by rw [hafter]; simpa using hnext⟩

end CommandTemplate.Run
