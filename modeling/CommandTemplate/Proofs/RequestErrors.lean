import CommandTemplate.Proofs.Answers
import CommandTemplate.Proofs.Requests

/-!
# The errors of a request

The engine is set up by the program and not by the user, so that only the identifier of the shell
can give an error of the engine. With a shell the user can do no more than leave the fields of the
prompt without answers.
-/
namespace CommandTemplate

/-! ## Identifiers -/

namespace Shell

/-- The identifier comes down to the name of a shell. -/
def Recognized (id : String) : Prop := ∃ shell : Shell, shell.name.toList = programName id

/-- An identifier is refused just when it names no shell. -/
theorem identify_eq_error_iff {id : String} {e : TemplateError} :
    identify id = .error e ↔ ¬Recognized id ∧ e = .unrecognizedShell id := by
  have hnone : (all.find? fun s => s.name.toList == programName id) = none ↔ ¬Recognized id := by
    simp [Recognized, mem_all]
  rw [identify]
  cases hfind : all.find? fun s => s.name.toList == programName id with
  | none => simp [hnone.1 hfind, eq_comm]
  | some shell =>
    have hrecognized : Recognized id := ⟨shell, by simpa using List.find?_some hfind⟩
    simp [hrecognized]

theorem Recognized.of_identify {id : String} {shell : Shell} (h : identify id = .ok shell) :
    Recognized id := by
  by_contra hnot
  rw [identify_eq_error_iff.2 ⟨hnot, rfl⟩] at h
  cases h

end Shell

/-- The exit code is two for the errors of the engine and for no others. -/
theorem ProgramError.exitCode_eq_two_iff (e : ProgramError) :
    e.exitCode = 2 ↔ e.engine?.isSome := by
  rw [exitCode]
  split <;> simp [*]

theorem ProgramError.exitCode_of_engine?_eq_none {e : ProgramError} (h : e.engine? = none) :
    e.exitCode = 1 := by
  rw [exitCode, h]
  rfl

/-! ## Stages -/

namespace ResolveRequest

variable {r : ResolveRequest} {settings : Settings} {w : Surroundings} {exhausted : Option String}
  {replies : List String}

/-- The custom variables are known unless a field of the prompt gets no answer. -/
theorem customSet_eq_error {h : Host} {e : ProgramError}
    (herror : (r.customSet settings h).run exhausted replies = .error e) :
    r.asks settings = true ∧
      ∃ field ∈ settings.prompt, ∃ cause,
        Prompt.FieldFault field cause ∧ e = .during .prompt cause := by
  rw [customSet] at herror
  split at herror
  · rename_i hasks
    rw [Dialogue.run_map, Prompt.run_ask] at herror
    cases hanswers : Prompt.answers Builtin.all h exhausted replies settings.prompt with
    | ok given => simp [hanswers] at herror
    | error cause =>
      simp only [hanswers, map_error, Except.error.injEq] at herror
      obtain ⟨field, hmem, hfault⟩ := Prompt.exists_fieldFault
        (fun _ _ hv => Builtin.wellFormed_of_mem_all hv) hanswers
      exact ⟨hasks, field, hmem, cause, hfault, herror.symm⟩
  · cases herror

/-- The first phase has gone through for the texts of the request. -/
def PassesBuiltins (r : ResolveRequest) (settings : Settings) (w : Surroundings) (shell : Shell) :
    Prop :=
  ∃ opened run, r.start settings shell = .ok opened ∧
    opened.phase .builtinVariables (Builtin.all ((r.host w shell).fork 0)) = .ok (run, true) ∧
    ∀ e ∈ r.contents, ∃ result, run.results.get? e.1 = some result ∧ result.succeeded = true

theorem passesBuiltins_of_takes {shell : Shell} {run : Run}
    (hfirst : (r.opened settings shell).Takes (r.builtins w shell) run)
    (hfailed : run.hasFailed = false) : r.PassesBuiltins settings w shell := by
  refine ⟨_, run, r.start_eq settings shell, ?_, fun e he => ?_⟩
  · rw [← Bool.not_false, ← hfailed]
    exact hfirst.phase_eq .builtinVariables
  · obtain ⟨next, -, hget⟩ := hfirst.yields e.1 e.2 he
    exact ⟨_, hget, Run.succeeded_of_hasFailed_eq_false hfailed hget⟩

structure ErrorsClassified (r : ResolveRequest) (settings : Settings) (w : Surroundings)
    (result : Except ProgramError ResolveOutcome) : Prop where
  /-- There is an error of the engine exactly when the identifier names no shell, -/
  engine_iff : (∃ e, result = .error e ∧ e.engine?.isSome) ↔
    ¬Shell.Recognized (r.identifier settings)
  /-- with an exit code of its own, -/
  exitCode_iff : (∃ e, result = .error e ∧ e.exitCode = 2) ↔
    ¬Shell.Recognized (r.identifier settings)
  /-- and it says which identifier that was. -/
  engine_eq : ∀ e cause, result = .error e → e.engine? = some cause →
    cause = .unrecognizedShell (r.identifier settings) ∧ e = .engine cause
  /-- With a shell there are only fields that get no answer, -/
  prompt_error : ∀ shell, Shell.identify (r.identifier settings) = .ok shell →
    ∀ e, result = .error e → e.exitCode = 1 ∧
      ∃ field ∈ settings.prompt, ∃ cause, Prompt.FieldFault field cause ∧ e = .during .prompt cause
  /-- where the request wants the user to be asked, and nothing has failed before. -/
  prompt_reached : ∀ shell, Shell.identify (r.identifier settings) = .ok shell →
    ∀ e, result = .error e →
      r.prompt = true ∧ settings.prompt ≠ [] ∧ r.PassesBuiltins settings w shell

/-- With a shell the fields of the prompt are the only source of errors. -/
theorem errorsClassified_of_identify {shell : Shell}
    (hshell : Shell.identify (r.identifier settings) = .ok shell)
    {result : Except ProgramError ResolveOutcome}
    (herror : ∀ e, result = .error e →
      (∃ field ∈ settings.prompt, ∃ cause,
        Prompt.FieldFault field cause ∧ e = .during .prompt cause) ∧
      r.asks settings = true ∧ r.PassesBuiltins settings w shell) :
    r.ErrorsClassified settings w result := by
  have hrecognized := Shell.Recognized.of_identify hshell
  have hnone : ∀ e, result = .error e → e.engine? = none := by
    intro e he
    obtain ⟨⟨field, -, cause, hfault, rfl⟩, -⟩ := herror e he
    exact hfault.engine?_eq_none
  constructor
  case engine_iff =>
    refine iff_of_false ?_ (not_not_intro hrecognized)
    rintro ⟨e, he, hsome⟩
    simp [hnone e he] at hsome
  case exitCode_iff =>
    refine iff_of_false ?_ (not_not_intro hrecognized)
    rintro ⟨e, he, hcode⟩
    simp [e.exitCode_eq_two_iff, hnone e he] at hcode
  case engine_eq =>
    intro e cause he hcause
    simp [hnone e he] at hcause
  case prompt_error =>
    intro shell _ e he
    exact ⟨ProgramError.exitCode_of_engine?_eq_none (hnone e he), (herror e he).1⟩
  case prompt_reached =>
    intro other hother e he
    obtain rfl : shell = other := Except.ok.inj (hshell.symm.trans hother)
    obtain ⟨-, hasks, hpasses⟩ := herror e he
    rw [asks, Bool.and_eq_true] at hasks
    exact ⟨hasks.1, by simpa using hasks.2, hpasses⟩

/-- Whatever the request, the settings, the surroundings and the replies are, an error is one of
those that are known. -/
theorem errors_classified (r : ResolveRequest) (settings : Settings) (w : Surroundings)
    (exhausted : Option String) (replies : List String) :
    r.ErrorsClassified settings w ((r.resolve settings w).run exhausted replies) := by
  have hends := r.ends_resolve settings w exhausted replies
  generalize (r.resolve settings w).run exhausted replies = result at hends ⊢
  cases hends with
  | @unrecognized e hshell =>
    obtain ⟨hnot, rfl⟩ := Shell.identify_eq_error_iff.1 hshell
    have hshell' : ∀ shell, Shell.identify (r.identifier settings) ≠ .ok shell :=
      fun shell hok => hnot (.of_identify hok)
    constructor
    case engine_iff => exact ⟨fun _ => hnot, fun _ => ⟨_, rfl, rfl⟩⟩
    case exitCode_iff => exact ⟨fun _ => hnot, fun _ => ⟨_, rfl, rfl⟩⟩
    case engine_eq =>
      rintro e cause ⟨⟩ ⟨⟩
      exact ⟨rfl, rfl⟩
    case prompt_error => exact fun shell hok => absurd hok (hshell' shell)
    case prompt_reached => exact fun shell hok => absurd hok (hshell' shell)
  | stopped hshell _ _ => exact errorsClassified_of_identify hshell (by simp)
  | @unanswered shell run e hshell hfirst hfailed hcustom =>
    refine errorsClassified_of_identify hshell fun e' he => ?_
    obtain rfl : e = e' := Except.error.inj he
    obtain ⟨hasks, hfield⟩ := customSet_eq_error hcustom
    exact ⟨hfield, hasks, passesBuiltins_of_takes hfirst hfailed⟩
  | finished hshell _ _ _ _ => exact errorsClassified_of_identify hshell (by simp)

/-- The default of the second field asks for more newlines than there are. -/
example :
    let r : ResolveRequest := ⟨"ls", none, some "zsh.exe", none, none, none, [], true⟩
    let settings : Settings := { (∅ : Settings) with
      prompt := [⟨"a", none, none⟩, ⟨"b", none, some "\x7b\x7bnewline:1001\x7d\x7d"⟩] }
    (r.resolve settings bareSurroundings).run none ["x", "y"] =
      .error (.during .prompt (.unresolvedDefault "b"
        ["\x7b\x7bnewline\x7d\x7d: count 1001 exceeds the maximum of 1000"])) := by decide +kernel

end ResolveRequest
end CommandTemplate
