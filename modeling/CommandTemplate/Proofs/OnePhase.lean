import CommandTemplate.Proofs.Cuts

/-!
# Two ways through one phase

A command is resolved with one set by a run that looks at all schemas before it touches the text, or
without a run, where each schema is looked at when the turn of its variable comes. The two give the
same answer unless a variable fails before the turn of a malformed one: then only the run reports
the schema.
-/
namespace CommandTemplate

/-- Resolves a content with one set in new instances, and no run around it. -/
def resolveOnce (escaper : Option Escaper) (vs : List Variable) (content : String) :
    Except TemplateError Resolution :=
  (resolveContent escaper (vs.map .of) content).map (·.2)

/-- The variables before the first malformed one fail on the content, with these messages. -/
def FaultHidden (escaper : Option Escaper) (vs : List Variable) (content : String)
    (messages : List String) : Prop :=
  ∃ sound v more, vs = sound ++ v :: more ∧ (∀ w ∈ sound, WellFormed w.parameters) ∧
    ¬WellFormed v.parameters ∧ resolveOnce escaper sound content = .ok (.failure content messages)

/-! ## A malformed schema behind other variables -/

section

variable {escaper : Option Escaper} {sound : List Variable} {content : String} {r : Resolution}

theorem exists_resolveContent_of_resolveOnce (h : resolveOnce escaper sound content = .ok r) :
    ∃ left, resolveContent escaper (sound.map .of) content = .ok (left, r) := by
  obtain ⟨⟨left, r'⟩, hres, rfl⟩ := map_eq_ok_iff.1 h
  exact ⟨left, hres⟩

/-- With well-formed schemas there is an answer, be it a failure. -/
theorem exists_resolveOnce (escaper : Option Escaper)
    (hsound : ∀ w ∈ sound, WellFormed w.parameters) (content : String) :
    ∃ r, resolveOnce escaper sound content = .ok r := by
  have hfresh : ∀ w ∈ sound.map Instance.of, WellFormed w.base.parameters :=
    List.forall_mem_map.2 hsound
  obtain ⟨left, r, hres⟩ := exists_resolveContent escaper hfresh content
  exact ⟨r, by rw [resolveOnce, hres]; rfl⟩

theorem resolveOnce_cases (h : resolveOnce escaper sound content = .ok r) :
    (∃ text n, r = .success content text n) ∨ ∃ messages, r = .failure content messages := by
  obtain ⟨left, hres⟩ := exists_resolveContent_of_resolveOnce h
  rcases resolveContent_cases hres with ⟨s, n, -, rfl⟩ | ⟨messages, -, rfl⟩
  · exact .inl ⟨_, n, rfl⟩
  · exact .inr ⟨messages, rfl⟩

/-- A failure is all there is, whatever the schemas of more variables are. -/
theorem resolveOnce_append_of_failed (h : resolveOnce escaper sound content = .ok r)
    (hfailed : r.succeeded = false) (more : List Variable) :
    resolveOnce escaper (sound ++ more) content = .ok r := by
  obtain ⟨left, hres⟩ := exists_resolveContent_of_resolveOnce h
  rw [resolveOnce, List.map_append, resolveContent_append_of_failed hres hfailed]
  rfl

/-- The turn of a malformed variable comes when all before it have had theirs. -/
theorem resolveOnce_append_of_malformed (h : resolveOnce escaper sound content = .ok r)
    (hsucceeded : r.succeeded = true) {v : Variable} {e : TemplateError}
    (hv : v.pattern = .error e) (more : List Variable) :
    resolveOnce escaper (sound ++ v :: more) content = .error e := by
  obtain ⟨left, hres⟩ := exists_resolveContent_of_resolveOnce h
  rcases resolveContent_cases hres with ⟨s, n, htext, -⟩ | ⟨messages, -, rfl⟩
  · have hmalformed : resolveText escaper (.of v :: more.map .of) s = .error e := by
      rw [resolveText, Instance.of, hv]
    rw [resolveOnce, resolveContent, List.map_append, List.map_cons, resolveText_append htext,
      hmalformed]
    rfl
  · cases hsucceeded

end

/-! ## Commands -/

/-- A set is refused just when a schema of it is malformed. -/
theorem exists_refused_iff (vs : List Variable) :
    (∃ e, RefusedWith vs e) ↔ ∃ v ∈ vs, ¬WellFormed v.parameters := by
  have hcheck := Run.checkSchemas_eq_ok_iff (vs.map .of)
  have hrefused := Run.checkSchemas_eq_error_iff (vs.map .of)
  rw [Instance.map_base_of] at hrefused
  simp only [← hrefused]
  cases hres : Run.checkSchemas (vs.map .of) with
  | error e =>
    have hnot : ¬∀ v ∈ vs.map Instance.of, WellFormed v.base.parameters := by
      rw [← hcheck, hres]
      simp
    simpa using hnot
  | ok u => simpa using hcheck.1 hres

/-- The first phase of a run with one content resolves this content in new instances. -/
theorem Run.advance_only {shell : Shell} {key content : String} {exempt : List String}
    {vs : List Variable} {r : Resolution} (hvs : ∀ v ∈ vs, WellFormed v.parameters)
    (hr : resolveOnce (if exempt.contains key then none else some shell.quoting.encode) vs content =
      .ok r) :
    Run.advance ⟨shell, [(key, content)], ∅, exempt, [vs.map .of], 0⟩ =
      (⟨shell, [(key, content)], (∅ : Dict Resolution).insert key r, exempt, [], 1⟩,
        .ok r.succeeded) := by
  let run : Run := ⟨shell, [(key, content)], ∅, exempt, [vs.map .of], 0⟩
  have hfailed : run.hasFailed = false := rfl
  have hcheck : checkSchemas (vs.map .of) = .ok () :=
    (checkSchemas_eq_ok_iff _).2 (List.forall_mem_map.2 hvs)
  obtain ⟨left, hres⟩ := exists_resolveContent_of_resolveOnce hr
  have hphase : run.resolveContents (vs.map .of) run.contents =
      .ok ((∅ : Dict Resolution).insert key r, r.succeeded) := by
    have hhere : resolveContent (run.escaperFor key) (vs.map .of) (run.inputFor key content) =
        .ok (left, r) := hres
    rw [Run.resolveContents, hhere]
    simp [Run.resolveContents, Run.resultAfter, run]
  rw [Run.advance, show hasFailed _ = false from hfailed]
  simp [run, hcheck, hphase]

/-- A run of one command and one set looks at the schemas and then resolves the command. -/
theorem resolveCommand_eq {identifier : String} {shell : Shell}
    (hshell : Shell.identify identifier = .ok shell) (vs : List Variable) (command : String) :
    resolveCommand command identifier vs = match Run.checkSchemas (vs.map .of) with
      | .error e => .error e
      | .ok () => resolveOnce (some shell.quoting.encode) vs command := by
  let run : Run := ⟨shell, [("command", command)], ∅, [], [vs.map .of], 0⟩
  have hcommand : resolveCommand command identifier vs =
      run.advance.2.bind fun _ =>
        .ok ((run.advance.1.results.get? "command").getD (.success command command 0)) := by
    have hstart : (Run.start shell).addContent "command" command =
        .ok ⟨shell, [("command", command)], ∅, [], [], 0⟩ := rfl
    have hpush : Run.push ⟨shell, [("command", command)], ∅, [], [], 0⟩ vs = run := rfl
    simp only [resolveCommand, hshell, hstart, hpush, ok_bind]
    cases run.advance.1.results.get? "command" <;> rfl
  rw [hcommand]
  cases hcheck : Run.checkSchemas (vs.map .of) with
  | error e =>
    have hrefused := (Run.checkSchemas_eq_error_iff (vs.map .of) e).1 hcheck
    have hfailed : run.hasFailed = false := rfl
    rw [Run.advance_of_refused hfailed rfl hrefused]
    rfl
  | ok u =>
    have hvs : ∀ v ∈ vs, WellFormed v.parameters := by
      simpa using (Run.checkSchemas_eq_ok_iff _).1 hcheck
    obtain ⟨r, hr⟩ := exists_resolveOnce (some shell.quoting.encode) hvs command
    have hadvance : run.advance =
        (⟨shell, run.contents, (∅ : Dict Resolution).insert "command" r, [], [], 1⟩,
          .ok r.succeeded) := Run.advance_only hvs hr
    rw [hadvance, hr]
    simp

structure AnswersCompared (identifier : String) (shell : Shell) (vs : List Variable)
    (command : String) : Prop where
  /-- The run refuses malformed schemas, whatever the command is and whatever else fails. -/
  refused_iff : ∀ e, resolveCommand command identifier vs = .error e ↔ RefusedWith vs e
  malformed_iff : (∃ e, resolveCommand command identifier vs = .error e) ↔
    ∃ v ∈ vs, ¬WellFormed v.parameters
  /-- The answers are the same unless a failure hides the first malformed schema, -/
  agree_iff :
    resolveCommand command identifier vs = resolveOnce (some shell.quoting.encode) vs command ↔
      ∀ messages, ¬FaultHidden (some shell.quoting.encode) vs command messages
  /-- and then this failure is what there is without a run. -/
  hidden : ∀ messages, FaultHidden (some shell.quoting.encode) vs command messages →
    resolveOnce (some shell.quoting.encode) vs command = .ok (.failure command messages)

/-- A run of one command and the resolution without it answer alike, except where the latter fails
before it comes to a malformed schema. -/
theorem resolveCommand_compared {identifier : String} {shell : Shell}
    (hshell : Shell.identify identifier = .ok shell) (vs : List Variable) (command : String) :
    AnswersCompared identifier shell vs command := by
  have hcommand := resolveCommand_eq hshell vs command
  have hrefused := Run.checkSchemas_eq_error_iff (vs.map .of)
  rw [Instance.map_base_of] at hrefused
  have hiff : ∀ e, resolveCommand command identifier vs = .error e ↔ RefusedWith vs e := by
    intro e
    rw [hcommand, ← hrefused]
    cases hcheck : Run.checkSchemas (vs.map .of) with
    | error e' => simp
    | ok u =>
      have hvs : ∀ w ∈ vs, WellFormed w.parameters := by
        simpa using (Run.checkSchemas_eq_ok_iff _).1 hcheck
      obtain ⟨r, hr⟩ := exists_resolveOnce (some shell.quoting.encode) hvs command
      simp [hr]
  have hhidden : ∀ messages, FaultHidden (some shell.quoting.encode) vs command messages →
      resolveOnce (some shell.quoting.encode) vs command = .ok (.failure command messages) := by
    rintro messages ⟨sound, v, more, rfl, -, -, hfails⟩
    exact resolveOnce_append_of_failed hfails rfl (v :: more)
  refine ⟨hiff, by simp only [hiff, exists_refused_iff], ?_, hhidden⟩
  constructor
  · intro heq messages hfault
    have hfailure := hhidden messages hfault
    obtain ⟨sound, v, more, hsplit, -, hv, -⟩ := hfault
    obtain ⟨e, he⟩ := (exists_refused_iff vs).2 ⟨v, by simp [hsplit], hv⟩
    rw [(hiff e).2 he, hfailure] at heq
    cases heq
  · intro hnone
    cases hcheck : Run.checkSchemas (vs.map .of) with
    | ok u => rw [hcommand, hcheck]
    | error e =>
      obtain ⟨sound, v, more, p, fault, rfl, hsound, hfirst, rfl⟩ := (hrefused e).1 hcheck
      have hpattern := (v.pattern_eq_error_iff _).2 ⟨p, fault, hfirst, rfl⟩
      obtain ⟨r, hr⟩ := exists_resolveOnce (some shell.quoting.encode) hsound command
      obtain ⟨left, hres⟩ := exists_resolveContent_of_resolveOnce hr
      rcases resolveContent_cases hres with ⟨s, n, -, rfl⟩ | ⟨messages, -, rfl⟩
      · rw [(hiff _).2 ((hrefused _).1 hcheck), resolveOnce_append_of_malformed hr rfl hpattern]
      · have hv : ¬WellFormed v.parameters := by
          rw [← v.exists_pattern_iff, hpattern]
          simp
        exact absurd ⟨sound, v, more, rfl, hsound, hv, hr⟩ (hnone messages)

def untypedNewline : Variable :=
  { Builtin.newline with parameters := [⟨"count", none, none, false⟩] }

def untypedCount : TemplateError :=
  .invalidParameter "newline" "count" .neitherTypeNorOptions

def manyNewlines : String := "\x7b\x7bnewline:1001\x7d\x7d"

/-- The variable that would fail stands behind the malformed one. -/
theorem resolveCommand_compared_malformed_first :
    Shell.identify "/bin/bash" = .ok .bash ∧
      resolveCommand manyNewlines "/bin/bash" [untypedNewline, Builtin.newline] =
        .error untypedCount ∧
      resolveOnce (some Posix.encode) [untypedNewline, Builtin.newline] manyNewlines =
        .error untypedCount := by
  have hshell : Shell.identify "/bin/bash" = .ok .bash := by decide +kernel
  have hcompared :=
    resolveCommand_compared hshell [untypedNewline, Builtin.newline] manyNewlines
  have hfault : RefusedWith [untypedNewline, Builtin.newline] untypedCount :=
    ⟨[], untypedNewline, [Builtin.newline], ⟨"count", none, none, false⟩, .neitherTypeNorOptions,
      rfl, by simp, ⟨[], [], rfl, wellFormed_nil, .neitherTypeNorOptions rfl rfl⟩, rfl⟩
  have hrefused := (hcompared.refused_iff untypedCount).2 hfault
  refine ⟨hshell, hrefused, ?_⟩
  rw [← hrefused]
  refine (hcompared.agree_iff.2 ?_).symm
  rintro messages ⟨sound, v, more, hsplit, hsound, -, hfails⟩
  cases sound with
  | nil => cases hfails
  | cons w sound =>
    obtain ⟨rfl, -⟩ := List.cons.inj hsplit
    obtain ⟨shape, hshape⟩ :=
      hsound untypedNewline (List.mem_cons_self ..) _ (List.mem_cons_self ..)
    cases hshape

/-- Before the malformed one it hides it. -/
theorem resolveCommand_ne_resolveOnce :
    Shell.identify "bash" = .ok .bash ∧
      resolveCommand manyNewlines "bash" [Builtin.newline, untypedNewline] = .error untypedCount ∧
      resolveOnce (some Posix.encode) [Builtin.newline, untypedNewline] manyNewlines =
        .ok (.failure manyNewlines
          ["\x7b\x7bnewline\x7d\x7d: count 1001 exceeds the maximum of 1000"]) := by
  decide +kernel

end CommandTemplate
