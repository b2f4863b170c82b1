import CommandTemplate.CommandLine.Resolve
import CommandTemplate.Proofs.IdleRuns

/-!
# How a request ends

A request goes through stages: the shell is identified, the texts take a phase with the built-in
variables, the user may be asked, and the texts take a phase with the custom variables. Each stage
can be the last one. What a stage can come to is said here once, and what is true of all requests
is then a matter of their four ends.
-/
namespace CommandTemplate

theorem CustomSet.wellFormed_of_mem_toVariables {s : CustomSet} {v : Variable}
    (hv : v ∈ s.toVariables) : WellFormed v.parameters := by
  obtain ⟨e, -, rfl⟩ := List.mem_map.1 hv
  exact wellFormed_nil

/-- A phase of the request is a phase of its run. -/
theorem Run.Takes.phase_eq {r r' : Run} {vs : List Variable} (h : r.Takes vs r') (step : Step) :
    r.phase step vs = .ok (r', !r'.hasFailed) := by
  rw [phase, h.advance_eq]

/-! ## The stages of a request -/

namespace ResolveRequest

variable (r : ResolveRequest) (settings : Settings) (w : Surroundings)

def identifier : String := r.shell.getD settings.shellIdentifier

def host (shell : Shell) : Host := w.host shell r.file r.clipboard r.event

def builtins (shell : Shell) : List Variable := Builtin.all ((r.host w shell).fork 0)

def asks : Bool := r.prompt && !settings.prompt.isEmpty

/-- The run before its first phase: the texts are in it, and nothing else. -/
def opened (shell : Shell) : Run := ⟨shell, r.contents, ∅, settings.exempt, [], 0⟩

theorem keys_contents :
    r.contents.map (·.1) = commandKey :: (r.shown.map fun _ => shownKey).toList := by
  rw [contents]
  cases r.shown <;> rfl

/-- The two texts of a request have different keys. -/
theorem nodup_keys_contents : (r.contents.map (·.1)).Nodup := by
  rw [keys_contents]
  cases r.shown
  · decide
  · simp [commandKey, shownKey]

/-- The keys of a request are distinct, so that all its texts get into the run. -/
theorem start_eq (shell : Shell) : r.start settings shell = .ok (r.opened settings shell) := by
  have hprepare : r.start settings shell = Run.prepare shell r.contents settings.exempt := by
    rw [start, Run.prepare]
    cases r.contents.foldlM (fun run e => run.addContent e.1 e.2) (Run.start shell) <;> rfl
  rw [hprepare, Run.prepare_eq_ok shell settings.exempt r.nodup_keys_contents]
  rfl

theorem idle_opened (shell : Shell) : (r.opened settings shell).Idle :=
  Run.idle_of_nodup shell r.nodup_keys_contents settings.exempt

/-- How a request ends when the user replies so. -/
inductive Ends (exhausted : Option String) (replies : List String) :
    Except ProgramError ResolveOutcome → Prop where
  | unrecognized {e : TemplateError} (hshell : Shell.identify (r.identifier settings) = .error e) :
    Ends exhausted replies (.error (.engine e))
  /-- A text fails with the built-in variables. -/
  | stopped {shell : Shell} {run : Run}
    (hshell : Shell.identify (r.identifier settings) = .ok shell)
    (hfirst : (r.opened settings shell).Takes (r.builtins w shell) run)
    (hfailed : run.hasFailed = true) :
    Ends exhausted replies (.ok (run.outcome false))
  /-- The user gives no answer, or cannot be asked. -/
  | unanswered {shell : Shell} {run : Run} {e : ProgramError}
    (hshell : Shell.identify (r.identifier settings) = .ok shell)
    (hfirst : (r.opened settings shell).Takes (r.builtins w shell) run)
    (hfailed : run.hasFailed = false)
    (hcustom : (r.customSet settings (r.host w shell)).run exhausted replies = .error e) :
    Ends exhausted replies (.error e)
  | finished {shell : Shell} {run last : Run} {custom : CustomSet}
    (hshell : Shell.identify (r.identifier settings) = .ok shell)
    (hfirst : (r.opened settings shell).Takes (r.builtins w shell) run)
    (hfailed : run.hasFailed = false)
    (hcustom : (r.customSet settings (r.host w shell)).run exhausted replies = .ok custom)
    (hsecond : run.Takes custom.toVariables last) :
    Ends exhausted replies (.ok (last.outcome !last.hasFailed))

/-- Resolving a request ends in one of these ways, for all replies. -/
theorem ends_resolve (exhausted : Option String) (replies : List String) :
    r.Ends settings w exhausted replies ((r.resolve settings w).run exhausted replies) := by
  unfold resolve
  cases hshell : Shell.identify (r.shell.getD settings.shellIdentifier) with
  | error e => exact .unrecognized hshell
  | ok shell =>
    obtain ⟨run, hfirst⟩ := (r.idle_opened settings shell).exists_takes
      (r.builtins w shell) fun v hv => Builtin.wellFormed_of_mem_all hv
    have hphase := hfirst.phase_eq .builtinVariables
    rw [builtins, host] at hphase
    simp only [start_eq, hphase]
    cases hfailed : run.hasFailed with
    | true => exact .stopped hshell hfirst hfailed
    | false =>
      simp only [Bool.not_false, Dialogue.run_map]
      cases hcustom : (r.customSet settings (r.host w shell)).run exhausted replies with
      | error e =>
        rw [host] at hcustom
        simp only [hcustom]
        exact .unanswered hshell hfirst hfailed hcustom
      | ok custom =>
        obtain ⟨last, hsecond⟩ := (hfirst.idle hfailed).exists_takes
          custom.toVariables fun v hv => CustomSet.wellFormed_of_mem_toVariables hv
        have hlast : run.customPhase custom = .ok (last.outcome !last.hasFailed) := by
          rw [Run.customPhase, hsecond.phase_eq]
          rfl
        have hfinished := Ends.finished hshell hfirst hfailed hcustom hsecond
        rw [host] at hcustom
        simpa only [hcustom, ok_bind, hlast] using hfinished

end ResolveRequest

def bareSurroundings : Surroundings where
  directory := .ofText "/work"
  environment := ∅
  files := .ofList []
  now := ⟨⟨1970, 1, 1⟩, 0, 0, 0, 0, 0⟩
  seed := ⟨0⟩

end CommandTemplate
