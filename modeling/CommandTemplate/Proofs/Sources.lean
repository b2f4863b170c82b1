import CommandTemplate.Proofs.Answers
import CommandTemplate.Proofs.CustomSets
import CommandTemplate.Proofs.Requests

/-!
# Where custom values come from

The settings, the fields of the prompt, the assignments of the request and the answers of the user
are merged one after the other. What comes out is a matter of names and precedence alone: the set
has every name that a source mentions, and under it the value of the last source that has one. Two
names are one here only if they are normalized to the same text, with the same case.
-/
namespace CommandTemplate

/-- What is known of custom variables, in the order of increasing precedence. -/
structure Sources where
  configured : List (String × String)
  /-- The names that the prompt asks for; they need not have values. -/
  declared : List String
  assigned : List (String × String)
  answered : List (String × String)

theorem isSome_lastValue?_customName_iff {es : List (String × String)} {name : String} :
    (lastValue? (fun key => customName key == name) es).isSome ↔
      name ∈ (es.map (·.1)).map customName := by
  simp [isSome_lastValue?_iff]

/-- An answer is taken over last, then an assignment, a declaration and a configured value. -/
theorem CustomSet.atop_in_turn (answered assigned configured : Option String) (p : Prop)
    [Decidable p] :
    atop (answered.map some)
        (atop (assigned.map some) (atop (if p then some none else none) (configured.map some))) =
      if answered.isSome ∨ assigned.isSome ∨ p ∨ configured.isSome then
        some (answered.or (assigned.or configured))
      else none := by
  cases answered with
  | some value => rfl
  | none =>
    cases assigned with
    | some value => rfl
    | none =>
      by_cases hp : p
      · cases configured <;> simp [hp, atop]
      · cases configured <;> simp [hp]

namespace Sources

def mentioned (s : Sources) : List String :=
  (s.configured.map (·.1) ++ s.declared ++ s.assigned.map (·.1) ++ s.answered.map (·.1)).map
    customName

/-- The value that counts most for some normalized names: the last answer, else the last
assignment, else the configured value. -/
def value? (s : Sources) (names : String → Bool) : Option String :=
  (lastValue? (fun key => names (customName key)) s.answered).or
    ((lastValue? (fun key => names (customName key)) s.assigned).or
      (lastValue? (fun key => names (customName key)) s.configured))

def set (s : Sources) : CustomSet :=
  ⟨.ofList (s.mentioned.map fun name => (name, s.value? (· == name)))⟩

variable {s : Sources}

/-- A name is known if it is configured, declared, assigned or answered, in whatever spelling. -/
theorem mem_mentioned_iff {name : String} : name ∈ s.mentioned ↔
    name ∈ (s.configured.map (·.1)).map customName ∨ name ∈ s.declared.map customName ∨
      name ∈ (s.assigned.map (·.1)).map customName ∨
      name ∈ (s.answered.map (·.1)).map customName := by
  rw [mentioned, List.map_append, List.map_append, List.map_append]
  simp only [List.mem_append, or_assoc]

theorem customName_of_mem_mentioned {name : String} (h : name ∈ s.mentioned) :
    customName name = name := by
  obtain ⟨key, -, rfl⟩ := List.mem_map.1 h
  exact customName_customName key

/-- Every mentioned name has the value that counts most, or is only declared. -/
theorem values_set (s : Sources) (name : String) :
    s.set.values.get? name = if name ∈ s.mentioned then some (s.value? (· == name)) else none := by
  rw [set, Dict.get?_ofList]
  induction s.mentioned with
  | nil => rfl
  | cons key keys ih =>
    rw [List.map_cons, lastValue?_cons, ih]
    by_cases hkey : name = key
    · subst hkey
      by_cases hkeys : name ∈ keys <;> simp [hkeys]
    · simp [hkey, Ne.symm hkey]

/-- Names that are one but for their spelling have one value if they are spelled alike. -/
theorem value?_congr {names names' : String → Bool}
    (h : ∀ name ∈ s.mentioned, names name = names' name) : s.value? names = s.value? names' := by
  have hkey : ∀ keys : List (String × String), (∀ e ∈ keys, customName e.1 ∈ s.mentioned) →
      lastValue? (fun key => names (customName key)) keys =
        lastValue? (fun key => names' (customName key)) keys :=
    fun keys hkeys => lastValue?_congr _ _ fun e he => h _ (hkeys e he)
  have hmem : ∀ e : String × String, e ∈ s.configured ∨ e ∈ s.assigned ∨ e ∈ s.answered →
      customName e.1 ∈ s.mentioned := by
    intro e he
    refine List.mem_map_of_mem ?_
    simp only [List.mem_append, List.mem_map]
    rcases he with he | he | he
    · exact .inl (.inl (.inl ⟨e, he, rfl⟩))
    · exact .inl (.inr ⟨e, he, rfl⟩)
    · exact .inr ⟨e, he, rfl⟩
  rw [value?, hkey _ fun e he => hmem e (.inr (.inr he)),
    hkey _ fun e he => hmem e (.inr (.inl he)), hkey _ fun e he => hmem e (.inl he), value?]

end Sources

namespace ResolveRequest

variable (r : ResolveRequest) (settings : Settings)

def sources (answers : List (String × String)) : Sources where
  configured := settings.customValues.entries
  declared := settings.prompt.map (·.variableName)
  assigned := r.assignments
  answered := answers

def answers (h : Host) (exhausted : Option String) (replies : List String) :
    Except ProgramError (List (String × String)) :=
  if r.asks settings then Prompt.answers Builtin.all h exhausted replies settings.prompt else .ok []

/-- The set that the second phase is given is that of the sources. -/
theorem values_knownSet_extend (answers : List (String × String)) :
    (r.knownSet settings).extend (.ofList answers) = (r.sources settings answers).set := by
  refine CustomSet.ext_values fun name => ?_
  have hdeclared : settings.declaredSet =
      (settings.prompt.map (·.variableName)).foldl CustomSet.declare settings.customSet :=
    (List.foldl_map ..).symm
  rw [Sources.values_set, CustomSet.values_extend, knownSet, CustomSet.values_extend, hdeclared,
    CustomSet.values_foldl_declare, Settings.customSet, CustomSet.values_ofList,
    CustomSet.values_ofList, CustomSet.values_ofList, CustomSet.atop_in_turn]
  refine if_congr ?_ rfl rfl
  simp only [isSome_lastValue?_customName_iff, Sources.mem_mentioned_iff, sources]
  tauto

/-- The second phase is run with the set of all sources, unless a question gets no answer. -/
theorem run_customSet (h : Host) (exhausted : Option String) (replies : List String) :
    (r.customSet settings h).run exhausted replies =
      match r.answers settings h exhausted replies with
      | .ok answers => .ok (r.sources settings answers).set
      | .error e => .error (.during .prompt e) := by
  rw [customSet, answers]
  cases hasks : r.asks settings with
  | true =>
    rw [asks] at hasks
    rw [if_pos hasks, Dialogue.run_map, Prompt.run_ask]
    cases hanswers : Prompt.answers Builtin.all h exhausted replies settings.prompt with
    | error e => simp
    | ok given => simp [← values_knownSet_extend]
  | false =>
    rw [asks] at hasks
    have hknown : r.knownSet settings = (r.sources settings []).set :=
      r.values_knownSet_extend settings []
    simp [hasks, Dialogue.run, hknown]

end ResolveRequest
end CommandTemplate
