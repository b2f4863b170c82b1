import CommandTemplate.Proofs.Outcomes
import CommandTemplate.Proofs.RequestErrors
import CommandTemplate.Proofs.Sources
import CommandTemplate.Proofs.Untouched

/-!
# The token of a custom variable

The sources are merged by names as they are written, and a token is compared with names regardless
of case. So of several spellings of one name the first in order takes the token, with the value that
counts most for this very spelling, and what the sources say under the other spellings is not looked
at.
-/
namespace CommandTemplate

def sameName (name other : String) : Bool := Text.sameFolded name.toList other.toList

def escaped (escaper : Option Escaper) (value : String) : List Char :=
  match escaper with
  | some encode => encode value.toList
  | none => value.toList

/-- A variable without parameters has one answer for all spellings of its token. -/
theorem Variable.turn_own_token (escaper : Option Escaper) {v : Variable}
    (hparameters : v.parameters = []) (hmark : v.name.toList.head? ≠ some '!')
    {spelled : List Char} (hname : Text.sameFolded v.name.toList spelled) (marked : Bool) :
    v.turn escaper (Token.text ⟨marked, spelled, []⟩) =
      (v.respond ∅).map fun value => (insertedText escaper ⟨marked, spelled, []⟩ value, 1) := by
  have hpattern : v.pattern = .ok ⟨v.name.toList, []⟩ := by
    rw [pattern, hparameters]
    rfl
  have houtcome : v.outcome [] = v.respond ∅ := by
    rw [outcome_eq_respond (by simp [hparameters]), hparameters]
    rfl
  rw [← substituted_eq_turn escaper (by simp [hparameters]) hpattern,
    TokenPattern.pieces_own hmark hname, substituted, houtcome]
  cases v.respond ∅ with
  | error messages => rfl
  | ok value => simp [substituted]

/-- Without a mark the value is escaped, if anything is. -/
theorem insertedText_unmarked (escaper : Option Escaper) {name : List Char}
    (hhead : name.head? ≠ some '!') (arguments : List (Option (List Char))) (value : String) :
    insertedText escaper ⟨false, name, arguments⟩ value = escaped escaper value := by
  have hescapes : Token.escapes ⟨false, name, arguments⟩ = true := by simp [Token.escapes, hhead]
  cases escaper <;> simp [insertedText, escaped, hescapes]

/-! ## Custom variables -/

@[simp] theorem parameters_customVariable (name : String) (value : Option String) :
    (customVariable name value).parameters = [] := rfl

theorem regular_customVariable (name : String) (value : Option String) :
    (customVariable name value).Regular :=
  ⟨wellFormed_nil, List.nodup_nil, fun _ _ _ => rfl⟩

theorem CustomSet.regular_of_mem_toVariables {s : CustomSet} {v : Variable}
    (hv : v ∈ s.toVariables) : v.Regular := by
  obtain ⟨e, -, rfl⟩ := List.mem_map.1 hv
  exact regular_customVariable e.1 e.2

def missing (name : String) : List String :=
  (Failure.about name "custom variable has no value").messages

/-- A custom variable answers with its value, or says that it has none. -/
theorem respond_customVariable (name : String) (value : Option String) (a : Arguments) :
    (customVariable name value).respond a = match value with
      | some value => .ok value
      | none => .error (missing (customName name)) := by
  cases value <;> rfl

/-- Its own token as a whole is replaced by the value. -/
theorem turn_marked_customVariable (escaper : Option Escaper) {name : String}
    {spelled : List Char} (h : Text.sameFolded (customName name).toList spelled)
    (value : Option String) (marked : Bool) :
    (customVariable name value).turn escaper (Token.text ⟨marked, spelled, []⟩) =
      match value with
      | some value => .ok (insertedText escaper ⟨marked, spelled, []⟩ value, 1)
      | none => .error (missing (customName name)) := by
  have hmark : (customVariable name value).name.toList.head? ≠ some '!' := by
    rw [name_customVariable, head?_customName]
    decide
  rw [Variable.turn_own_token escaper (parameters_customVariable name value) hmark
    (by rwa [name_customVariable]), respond_customVariable]
  cases value <;> rfl

/-- What a custom variable makes of its own token. -/
theorem turn_customVariable (escaper : Option Escaper) {name spelled : String}
    (h : sameName (customName name) spelled) (value : Option String) :
    (customVariable name value).turn escaper (tokenOf spelled).toList =
      match value with
      | some value => .ok (escaped escaper value, 1)
      | none => .error (missing (customName name)) := by
  have hhead : spelled.toList.head? ≠ some '!' :=
    Text.head_ne_mark_of_sameFolded (by decide) h (by rw [head?_customName]; decide)
  rw [toList_tokenOf, turn_marked_customVariable escaper h]
  simp only [insertedText_unmarked escaper hhead]

/-! ## The first spelling -/

namespace Sources

variable {s : Sources} {name spelled : String}

def behind (s : Sources) (name : String) : List Variable :=
  s.set.toVariables.filter fun v => decide (name < v.name)

structure FirstSpelled (s : Sources) (name spelled : String) : Prop where
  mentioned : name ∈ s.mentioned
  spells : sameName name spelled
  first : ∀ other ∈ s.mentioned, sameName other spelled → name ≤ other

theorem mentioned_of_mem_entries {e : String × Option String} (h : e ∈ s.set.values.entries) :
    e.1 ∈ s.mentioned := by
  have hget := (Dict.mem_entries_iff _ e.1 e.2).1 h
  rw [values_set] at hget
  by_contra hnot
  rw [if_neg hnot] at hget
  cases hget

theorem name_variable (h : name ∈ s.mentioned) (value : Option String) :
    (customVariable name value).name = name := by
  rw [name_customVariable, customName_of_mem_mentioned h]

theorem name_mem_mentioned {v : Variable} (hv : v ∈ s.set.toVariables) : v.name ∈ s.mentioned := by
  obtain ⟨e, he, rfl⟩ := List.mem_map.1 hv
  have hmem := mentioned_of_mem_entries he
  rwa [name_variable hmem]

/-- Every mentioned name is a variable with the value that counts most. -/
theorem mem_toVariables_set (h : name ∈ s.mentioned) :
    customVariable name (s.value? (· == name)) ∈ s.set.toVariables := by
  have hget : s.set.values.get? name = some (s.value? (· == name)) := by rw [values_set, if_pos h]
  exact List.mem_map.2 ⟨_, (Dict.mem_entries_iff ..).2 hget, rfl⟩

theorem ascending_toVariables_set :
    s.set.toVariables.Pairwise fun v w => v.name < w.name := by
  rw [CustomSet.toVariables, List.pairwise_map]
  refine List.Pairwise.imp_of_mem (fun hd he hlt => ?_) s.set.values.ascending
  rwa [name_variable (mentioned_of_mem_entries hd), name_variable (mentioned_of_mem_entries he)]

/-- Variables take their turns in the order of their names. -/
theorem lt_around {v : Variable} {before after : List Variable}
    (hsplit : s.set.toVariables = before ++ v :: after) :
    (∀ u ∈ before, u.name < v.name) ∧ ∀ u ∈ after, v.name < u.name := by
  have hascending := ascending_toVariables_set (s := s)
  rw [hsplit, List.pairwise_append, List.pairwise_cons] at hascending
  obtain ⟨-, ⟨hafter, -⟩, hbefore⟩ := hascending
  exact ⟨fun u hu => hbefore u hu v (List.mem_cons_self ..), hafter⟩

/-- The variables are those before a name, that of the name, and those behind it. -/
theorem exists_toVariables_set (h : name ∈ s.mentioned) :
    ∃ before, (∀ v ∈ before, v.name < name) ∧ s.set.toVariables =
      before ++ customVariable name (s.value? (· == name)) :: s.behind name := by
  obtain ⟨before, after, hsplit⟩ := List.append_of_mem (mem_toVariables_set h)
  obtain ⟨hbefore, hafter⟩ := lt_around hsplit
  simp only [name_variable h] at hbefore hafter
  have hbehind : s.behind name = after := by
    have hnone : before.filter (fun v => decide (name < v.name)) = [] := by
      refine List.filter_eq_nil_iff.2 fun v hv => ?_
      simpa using String.lt_asymm (hbefore v hv)
    have hall : after.filter (fun v => decide (name < v.name)) = after :=
      List.filter_eq_self.2 fun v hv => by simpa using hafter v hv
    rw [behind, hsplit, List.filter_append, hnone, List.nil_append, List.filter_cons_of_neg, hall]
    rw [name_variable h]
    simp
  exact ⟨before, hbefore, by rw [hsplit, hbehind]⟩

/-- One of the spellings is the first. -/
theorem exists_firstSpelled (h : name ∈ s.mentioned) (hspelled : sameName name spelled) :
    ∃ first, s.FirstSpelled first spelled := by
  have hsome : (s.set.toVariables.find? fun v => sameName v.name spelled).isSome := by
    refine List.find?_isSome.2 ⟨_, mem_toVariables_set h, ?_⟩
    rwa [name_variable h]
  obtain ⟨first, hfirst⟩ := Option.isSome_iff_exists.1 hsome
  have hmem : first ∈ s.set.toVariables := List.mem_of_find?_eq_some hfirst
  have hspells : sameName first.name spelled :=
    List.find?_some (p := fun v : Variable => sameName v.name spelled) hfirst
  refine ⟨first.name, name_mem_mentioned hmem, hspells, fun other hother hsame => ?_⟩
  have hname := name_variable hother (s.value? (· == other))
  rcases eq_or_rel_of_find? ascending_toVariables_set hfirst (mem_toVariables_set hother)
    (by rw [hname]; exact hsame) with heq | hlt
  · rewrite [← heq, hname]
    exact String.le_refl _
  · rw [hname] at hlt
    exact String.not_lt.1 (String.lt_asymm hlt)

/-- The first spelling takes the token, with its own value; the others see what it has put in. -/
theorem turns_set (escaper : Option Escaper) (h : s.FirstSpelled name spelled)
    (hothers : ∀ v ∈ s.set.toVariables, sameName v.name spelled = false →
      v.found (tokenOf spelled).toList = []) :
    turns escaper s.set.toVariables (tokenOf spelled).toList =
      match s.value? (· == name) with
      | some value =>
        (turns escaper (s.behind name) (escaped escaper value)).map fun (t, n) => (t, 1 + n)
      | none => .error (missing name) := by
  obtain ⟨before, hbefore, hsplit⟩ := exists_toVariables_set h.mentioned
  have hfound : ∀ v ∈ before, v.found (tokenOf spelled).toList = [] := by
    intro v hv
    have hmem : v ∈ s.set.toVariables := hsplit ▸ List.mem_append_left _ hv
    refine hothers v hmem ?_
    by_contra hsame
    have hle := h.first v.name (name_mem_mentioned hmem) (by simpa using hsame)
    exact absurd (hbefore v hv) (String.not_lt.2 hle)
  rw [hsplit, turns_append_of_found_eq_nil hfound, turns]
  have hname := customName_of_mem_mentioned h.mentioned
  rw [turn_customVariable escaper (by rw [hname]; exact h.spells), hname]
  cases s.value? (· == name) <;> rfl

/-- What becomes of a command that is the token of `spelled`, of which `name` is the first spelling
that the sources have. -/
structure TokenTaken (s : Sources) (escaper : Option Escaper) (name spelled : String)
    (result : Resolution) : Prop where
  /-- Without a value of this very spelling there is none. -/
  no_value : s.value? (· == name) = none → result = .failure (tokenOf spelled) (missing name)
  /-- With one it is put in, escaped, for the variables behind to find their tokens in, -/
  value : ∀ value, s.value? (· == name) = some value → result = .ofOutcome (tokenOf spelled)
    ((turns escaper (s.behind name) (escaped escaper value)).map fun (t, n) => (t, 1 + n))
  /-- and that is all where no token begins in it. -/
  value_eq : ∀ value, s.value? (· == name) = some value → Unopened value.toList →
    result = .success (tokenOf spelled) (String.ofList (escaped escaper value)) 1
  /-- If it is the only spelling no source is left out: the value is the one that counts most among
  those of the name in any spelling. -/
  one_spelling : (∀ other ∈ s.mentioned, sameName other spelled → other = name) →
    s.value? (· == name) = s.value? fun other => sameName other spelled

/-- The first spelling takes the token, and those behind it find nothing left of it. -/
theorem FirstSpelled.tokenTaken (h : s.FirstSpelled name spelled) {escaper : Option Escaper}
    (hescaper : JoinsNoBraces escaper)
    (hothers : ∀ v ∈ s.set.toVariables, sameName v.name spelled = false →
      v.found (tokenOf spelled).toList = []) :
    s.TokenTaken escaper name spelled (.ofOutcome (tokenOf spelled)
      (turns escaper s.set.toVariables (tokenOf spelled).toList)) := by
  have hturns := turns_set escaper h hothers
  constructor
  case no_value =>
    intro hnone
    rw [hturns, hnone]
    rfl
  case value =>
    intro value hvalue
    rw [hturns, hvalue]
  case value_eq =>
    intro value hvalue hunopened
    have hescaped : Unopened (escaped escaper value) := by
      cases escaper with
      | none => exact hunopened
      | some encode => exact hescaper encode rfl _ hunopened
    rw [hturns, hvalue]
    dsimp only
    rw [turns_of_unopened escaper _ hescaped]
    rfl
  case one_spelling =>
    intro hone
    refine value?_congr fun other hother => ?_
    rw [Bool.eq_iff_iff, beq_iff_eq]
    exact ⟨fun heq => heq ▸ h.spells, hone other hother⟩

end Sources

/-! ## A request -/

/-- No variable of the program is spelled like a custom one. -/
theorem Builtin.sameName_eq_false {h : Host} {v : Variable} (hv : v ∈ all h) {name spelled : String}
    (hspelled : sameName name spelled) (hname : customName name = name) :
    sameName v.name spelled = false := by
  obtain ⟨c, hc, hne⟩ := fold_head_ne hv
  rw [← Bool.not_eq_true]
  intro hsame
  simp only [sameName, Text.sameFolded, beq_iff_eq] at hsame hspelled
  have hhead := congrArg List.head? (hsame.trans hspelled.symm)
  rw [List.head?_map, List.head?_map, Option.mem_def.1 hc, ← hname, head?_customName] at hhead
  exact hne (by simpa using hhead)

namespace ResolveRequest

variable {r : ResolveRequest} {settings : Settings} {w : Surroundings} {shell : Shell}
  {exhausted : Option String} {replies : List String} {answers : List (String × String)}

theorem get?_of_takes_builtins {run : Run}
    (hfirst : (r.opened settings shell).Takes (r.builtins w shell) run)
    (hbuiltins : ∀ v ∈ r.builtins w shell, v.found r.command.toList = []) :
    run.results.get? commandKey = some (.success r.command r.command 0) := by
  obtain ⟨next, ⟨used, left, hused, hres⟩, hget⟩ :=
    hfirst.yields commandKey r.command (List.mem_cons_self ..)
  rw [Instance.map_base_of] at hused
  have hbase : ∀ v ∈ used, v.base ∈ r.builtins w shell :=
    fun v hv => hused ▸ List.mem_map_of_mem hv
  have hinput : (r.opened settings shell).inputFor commandKey r.command = r.command := rfl
  rw [hinput, resolveContent_of_found_eq_nil _
    (fun v hv => Builtin.wellFormed_of_mem_all (hbase v hv))
    fun v hv => hbuiltins v.base (hbase v hv)] at hres
  obtain ⟨-, rfl⟩ := Prod.mk.inj (Except.ok.inj hres)
  exact hget

theorem not_hasFailed_of_takes_builtins {run : Run}
    (hfirst : (r.opened settings shell).Takes (r.builtins w shell) run)
    (hcommand : run.results.get? commandKey = some (.success r.command r.command 0))
    (hshown : r.shown.isSome → r.PassesBuiltins settings w shell) : run.hasFailed = false := by
  cases hshown' : r.shown with
  | some text =>
    obtain ⟨opened, run', hstart, hphase, -⟩ := hshown (by simp [hshown'])
    obtain rfl := Except.ok.inj ((r.start_eq settings shell).symm.trans hstart)
    have hsame := (hfirst.phase_eq .builtinVariables).symm.trans hphase
    simpa using (Prod.mk.inj (Except.ok.inj hsame)).2
  | none =>
    rw [← Bool.not_eq_true, Run.hasFailed_iff]
    rintro ⟨key, result, hget, hfailed⟩
    have hkey := hfirst.coherent.mem_keys hget
    rw [hfirst.contents_eq, opened, keys_contents, hshown'] at hkey
    obtain rfl : key = commandKey := by simpa using hkey
    rw [hcommand, Option.some.injEq] at hget
    simp [← hget] at hfailed

/-- The second phase resolves what the first has left, with the custom variables alone. -/
theorem get?_of_takes_custom {run last : Run} {custom : CustomSet}
    (hfirst : (r.opened settings shell).Takes (r.builtins w shell) run)
    (hcommand : run.results.get? commandKey = some (.success r.command r.command 0))
    (hsecond : run.Takes custom.toVariables last) :
    last.results.get? commandKey = some (.ofOutcome r.command
      (turns (shell.escaperOf settings.exempt commandKey) custom.toVariables
        r.command.toList)) := by
  have hmem : (commandKey, r.command) ∈ run.contents := by
    rw [hfirst.contents_eq]
    exact List.mem_cons_self ..
  obtain ⟨next, ⟨used, left, hused, hres⟩, hget⟩ := hsecond.yields commandKey r.command hmem
  rw [Instance.map_base_of] at hused
  have hregular : ∀ v ∈ custom.toVariables, v.Regular :=
    fun v hv => CustomSet.regular_of_mem_toVariables hv
  have hescaper : run.escaperFor commandKey = shell.escaperOf settings.exempt commandKey := by
    rw [Run.escaperFor, hfirst.exempt_eq, hfirst.shell_eq]
    rfl
  have hinput : run.inputFor commandKey r.command = r.command := by
    rw [Run.inputFor, hcommand]
    rfl
  have hdetermined : ∀ v ∈ used, v.base.Determined :=
    Instance.determined_of_map_base_eq hused fun v hv => (hregular v hv).determined
  have hnext := resolveContent_eq_resolution (run.escaperFor commandKey) hdetermined
    (run.inputFor commandKey r.command)
  rw [hres, hused, hescaper, hinput, resolution_eq_turns _ hregular] at hnext
  obtain rfl := Except.ok.inj hnext
  rw [hget, Run.resultAfter, hcommand]
  cases turns (shell.escaperOf settings.exempt commandKey) custom.toVariables r.command.toList <;>
    simp [Resolution.merge, Resolution.success, Resolution.failure, Resolution.ofOutcome]

/-- A command that the built-in variables find nothing in gets to the custom ones as it is. -/
theorem exists_result (hshell : Shell.identify (r.identifier settings) = .ok shell)
    (hanswers : r.answers settings (r.host w shell) exhausted replies = .ok answers)
    (hbuiltins : ∀ v ∈ r.builtins w shell, v.found r.command.toList = [])
    (hshown : r.shown.isSome → r.PassesBuiltins settings w shell) :
    ∃ o, (r.resolve settings w).run exhausted replies = .ok o ∧ o.get? commandKey =
      some (.ofOutcome r.command (turns (shell.escaperOf settings.exempt commandKey)
        (r.sources settings answers).set.toVariables r.command.toList)) := by
  have hends := r.ends_resolve settings w exhausted replies
  have hcustom := r.run_customSet settings (r.host w shell) exhausted replies
  rw [hanswers] at hcustom
  generalize (r.resolve settings w).run exhausted replies = result at hends ⊢
  cases hends with
  | unrecognized hshell' =>
    rw [hshell] at hshell'
    cases hshell'
  | @stopped shell' run hshell' hfirst hfailed =>
    obtain rfl : shell = shell' := Except.ok.inj (hshell.symm.trans hshell')
    have hcommand := get?_of_takes_builtins hfirst hbuiltins
    simp [not_hasFailed_of_takes_builtins hfirst hcommand hshown] at hfailed
  | @unanswered shell' run e hshell' hfirst hfailed hcustom' =>
    obtain rfl : shell = shell' := Except.ok.inj (hshell.symm.trans hshell')
    rw [hcustom] at hcustom'
    cases hcustom'
  | @finished shell' run last custom hshell' hfirst hfailed hcustom' hsecond =>
    obtain rfl : shell = shell' := Except.ok.inj (hshell.symm.trans hshell')
    rw [hcustom] at hcustom'
    obtain rfl := Except.ok.inj hcustom'
    have hget := get?_of_takes_custom hfirst (get?_of_takes_builtins hfirst hbuiltins) hsecond
    have hconsistent := hsecond.coherent.consistent_outcome hsecond.covers
      (hsecond.contents_eq.trans hfirst.contents_eq)
    refine ⟨_, rfl, (hconsistent.get?_eq_some_iff ..).2 ?_⟩
    exact Run.mem_resultList.2 ⟨hsecond.coherent.mem_keys hget, hget⟩

/-- In a token of a name without braces no variable of another name finds anything. -/
theorem found_eq_nil_of_braceless {name spelled : String} (hname : customName name = name)
    (hspelled : sameName name spelled) (hbraces : Braceless spelled.toList) {custom : CustomSet} :
    ∀ v ∈ r.builtins w shell ++ custom.toVariables, sameName v.name spelled = false →
      v.found (tokenOf spelled).toList = [] := by
  have hbang : spelled.toList.head? ≠ some '!' := by
    refine Text.head_ne_mark_of_sameFolded (by decide) hspelled ?_
    rw [← hname, head?_customName]
    decide
  intro v hv hne
  rw [toList_tokenOf]
  rcases List.mem_append.1 hv with hv | hv
  · obtain ⟨c, hc, hfold⟩ := Builtin.fold_head_ne hv
    obtain ⟨slots, hp, -⟩ :=
      TokenPattern.ofSchema_eq_ok v.name (Builtin.wellFormed_of_mem_all hv)
    have hunderscore := congrArg List.head? (beq_iff_eq.1 hspelled)
    rw [List.head?_map, List.head?_map, ← hname, head?_customName] at hunderscore
    obtain ⟨d, hd, hdfold⟩ := Option.map_eq_some_iff.1 hunderscore.symm
    exact v.found_token_of_match? hp hbraces
      (TokenPattern.match?_bare_eq_none_of_head hbang hc hd (by rwa [hdfold]))
  · have hp : v.pattern = .ok ⟨v.name.toList, []⟩ := by
      obtain ⟨e, -, rfl⟩ := List.mem_map.1 hv
      rw [Variable.pattern, parameters_customVariable]
      rfl
    rw [sameName] at hne
    exact v.found_token_of_match? hp hbraces
      (TokenPattern.match?_bare_eq_none hbraces hbang rfl (by simp [hne]))

/-- The value of a token is that of the first spelling of its name that the sources have, and of the
values of this spelling the one that counts most. How the token is spelled makes no difference. -/
theorem first_spelling_takes_token {n spelled : String}
    (hshell : Shell.identify (r.identifier settings) = .ok shell)
    (hanswers : r.answers settings (r.host w shell) exhausted replies = .ok answers)
    (hn : n ∈ (r.sources settings answers).mentioned) (hspelled : sameName n spelled)
    (hcommand : r.command = tokenOf spelled)
    (hothers : ∀ v ∈ r.builtins w shell ++ (r.sources settings answers).set.toVariables,
      sameName v.name spelled = false → v.found r.command.toList = [])
    (hshown : r.shown.isSome → r.PassesBuiltins settings w shell) :
    ∃ name o result, (r.sources settings answers).FirstSpelled name spelled ∧
      (r.resolve settings w).run exhausted replies = .ok o ∧ o.get? commandKey = some result ∧
      (r.sources settings answers).TokenTaken (shell.escaperOf settings.exempt commandKey) name
        spelled result := by
  have hbuiltins : ∀ v ∈ r.builtins w shell, v.found r.command.toList = [] := fun v hv =>
    hothers v (List.mem_append_left _ hv)
      (Builtin.sameName_eq_false hv hspelled (Sources.customName_of_mem_mentioned hn))
  obtain ⟨name, hname⟩ := Sources.exists_firstSpelled hn hspelled
  obtain ⟨o, hrun, hget⟩ := exists_result hshell hanswers hbuiltins hshown
  rw [hcommand] at hget hothers
  exact ⟨name, o, _, hname, hrun, hget,
    hname.tokenTaken (shell.joinsNoBraces_escaperOf _ _) fun v hv =>
      hothers v (List.mem_append_right _ hv)⟩

def tokenRequest (spelled : String) (assignments : List (String × String)) (prompt : Bool) :
    ResolveRequest where
  command := tokenOf spelled
  shown := none
  shell := none
  file := none
  event := none
  clipboard := none
  assignments := assignments
  prompt := prompt

/-- The name is configured, declared, assigned and answered, always in one spelling. -/
def branchSettings : Settings := { (∅ : Settings) with
  customValues := .ofList [("_branch", "main")]
  prompt := [⟨"branch", none, none⟩] }

def branchRequest : ResolveRequest := tokenRequest "_BRANCH" [(" branch", "dev")] true

theorem first_spelling_takes_token_branch :
    ∃ o, (branchRequest.resolve branchSettings bareSurroundings).run none ["it's new"] = .ok o ∧
      o.get? "command" = some (.success "\x7b\x7b_BRANCH\x7d\x7d" "'it'\\''s new'" 1) := by
  let s : Sources := branchRequest.sources branchSettings [("branch", "it's new")]
  have hshell : Shell.identify (branchRequest.identifier branchSettings) = .ok .bash := by
    decide +kernel
  have hanswers : branchRequest.answers branchSettings (branchRequest.host bareSurroundings .bash)
      none ["it's new"] = .ok [("branch", "it's new")] := by decide +kernel
  have hmentioned : "_branch" ∈ s.mentioned := by decide +kernel
  have hspelled : sameName "_branch" "_BRANCH" := by decide +kernel
  have hbraces : Braceless "_BRANCH".toList := ⟨by decide +kernel, by decide +kernel⟩
  obtain ⟨name, o, result, hname, hrun, hget, htaken⟩ :=
    first_spelling_takes_token hshell hanswers hmentioned hspelled rfl
      (found_eq_nil_of_braceless (Sources.customName_of_mem_mentioned hmentioned) hspelled hbraces)
      (by simp [branchRequest, tokenRequest])
  have honly : ∀ other ∈ s.mentioned, other = "_branch" := by decide +kernel
  obtain rfl : name = "_branch" := honly name hname.mentioned
  have hvalue : s.value? (· == "_branch") = some "it's new" := by decide +kernel
  refine ⟨o, hrun, hget.trans (congrArg some ?_)⟩
  rw [htaken.value_eq "it's new" hvalue (by decide +kernel)]
  decide +kernel

def assignedRequest : ResolveRequest := tokenRequest "_name" [("_name", "assigned")] false

def capitalSettings : Settings := { (∅ : Settings) with
  customValues := .ofList [("_Name", "configured")] }

def capitalQuestion : Settings := { (∅ : Settings) with
  customValues := .ofList [("_name", "configured")]
  prompt := [⟨"_Name", none, none⟩] }

/-- An assignment is hidden by the settings, and a configured value by a question that is not asked,
because other spellings come first. -/
theorem other_spelling_hides_value :
    ((assignedRequest.sources capitalSettings []).value? (sameName · "_name") = some "assigned" ∧
      (assignedRequest.resolve capitalSettings bareSurroundings).run none [] =
        .ok ⟨.bash, true,
          [("command", .success "\x7b\x7b_name\x7d\x7d" "configured" 1)]⟩) ∧
    (((tokenRequest "_name" [] false).sources capitalQuestion []).value? (sameName · "_name") =
        some "configured" ∧
      ((tokenRequest "_name" [] false).resolve capitalQuestion bareSurroundings).run none [] =
        .ok ⟨.bash, false, [("command", .failure "\x7b\x7b_name\x7d\x7d"
          ["\x7b\x7b_Name\x7d\x7d: custom variable has no value"])]⟩) := by
  decide +kernel

end ResolveRequest
end CommandTemplate
