import CommandTemplate.Resolution

/-!
# Runs

A run resolves several contents, each under a key, in phases. Every phase takes the next set of
variables from the queue and resolves with it what the phase before left of each content. A failed
run stays as it is.
-/
namespace CommandTemplate

structure Run where
  shell : Shell
  contents : List (String × String)
  results : Dict Resolution
  /-- Keys of contents that no shell reads, so that nothing is escaped in them. -/
  exempt : List String
  queue : List (List Instance)
  completed : Nat

inductive RunState where
  | pending
  | succeeded
  | failed
  deriving DecidableEq, Repr

namespace Run

def start (shell : Shell) : Run := ⟨shell, [], ∅, [], [], 0⟩

@[simp] theorem start_shell (shell : Shell) : (start shell).shell = shell := rfl

@[simp] theorem start_contents (shell : Shell) : (start shell).contents = [] := rfl

@[simp] theorem start_results (shell : Shell) : (start shell).results = ∅ := rfl

@[simp] theorem start_exempt (shell : Shell) : (start shell).exempt = [] := rfl

@[simp] theorem start_queue (shell : Shell) : (start shell).queue = [] := rfl

@[simp] theorem start_completed (shell : Shell) : (start shell).completed = 0 := rfl

def addContent (r : Run) (key content : String) : Except TemplateError Run :=
  if r.contents.any (·.1 == key) then .error (.duplicateKey key)
  else .ok { r with contents := r.contents ++ [(key, content)] }

def skipEscaping (r : Run) (key : String) : Run := { r with exempt := r.exempt ++ [key] }

def push (r : Run) (vs : List Variable) : Run := { r with queue := r.queue ++ [vs.map .of] }

@[simp] theorem push_shell (r : Run) (vs : List Variable) : (r.push vs).shell = r.shell := rfl

@[simp] theorem push_contents (r : Run) (vs : List Variable) :
    (r.push vs).contents = r.contents := rfl

@[simp] theorem push_results (r : Run) (vs : List Variable) : (r.push vs).results = r.results := rfl

@[simp] theorem push_exempt (r : Run) (vs : List Variable) : (r.push vs).exempt = r.exempt := rfl

@[simp] theorem push_queue (r : Run) (vs : List Variable) :
    (r.push vs).queue = r.queue ++ [vs.map .of] := rfl

@[simp] theorem push_completed (r : Run) (vs : List Variable) :
    (r.push vs).completed = r.completed := rfl

def remaining (r : Run) : Nat := r.queue.length

/-- The results so far, in the order in which the contents were added. -/
def resultList (r : Run) : List (String × Resolution) :=
  r.contents.filterMap fun (key, _) => (r.results.get? key).map fun result => (key, result)

def hasFailed (r : Run) : Bool := r.results.entries.any fun (_, result) => !result.succeeded

def state (r : Run) : RunState :=
  if r.hasFailed then .failed else if r.queue.isEmpty then .succeeded else .pending

def messages (r : Run) : List String := r.resultList.flatMap fun (_, result) => result.messages

def escaperFor (r : Run) (key : String) : Option Escaper :=
  if r.exempt.contains key then none else some r.shell.quoting.encode

/-- What is left of a content to resolve: what the last phase made of it, at first the content. -/
def inputFor (r : Run) (key content : String) : String :=
  ((r.results.get? key).bind (·.resolved)).getD content

/-- The result of a content after one more resolution. -/
def resultAfter (r : Run) (key : String) (next : Resolution) : Resolution :=
  match r.results.get? key with
  | some result => result.merge next
  | none => next

/-- Resolves the contents with one set, all with the same instances; says whether all succeeded. -/
def resolveContents (r : Run) (vs : List Instance) :
    List (String × String) → Except TemplateError (Dict Resolution × Bool)
  | [] => .ok (r.results, true)
  | (key, content) :: contents =>
    match resolveContent (r.escaperFor key) vs (r.inputFor key content) with
    | .error e => .error e
    | .ok (vs, next) =>
      let r' := { r with results := r.results.insert key (r.resultAfter key next) }
      (r'.resolveContents vs contents).map fun (results, ok) => (results, next.succeeded && ok)

/-- All schemas of a set are well-formed, or the first fault among them. -/
def checkSchemas (vs : List Instance) : Except TemplateError Unit :=
  vs.forM fun v => v.base.pattern.map fun _ => ()

/-- Runs the next phase and says whether it succeeded for every content. An error changes
nothing. -/
def advance (r : Run) : Run × Except TemplateError Bool :=
  if r.hasFailed then (r, .ok false)
  else
    match r.queue with
    | [] => (r, .error .noPhasesRemaining)
    | vs :: queue =>
      let phase := do
        checkSchemas vs
        r.resolveContents vs r.contents
      match phase with
      | .error e => (r, .error e)
      | .ok (results, ok) =>
        ({ r with results := results, queue := queue, completed := r.completed + 1 }, .ok ok)

/-- Runs up to `n` phases, until one of them fails. -/
def advanceUpTo : Nat → Run → Run × Except TemplateError Bool
  | 0, r => (r, .ok true)
  | n + 1, r =>
    match r.advance with
    | (r, .ok true) => advanceUpTo n r
    | (r, other) => (r, other)

/-- Runs all phases that are queued, until one of them fails. -/
def advanceAll (r : Run) : Run × Except TemplateError Bool :=
  if r.hasFailed then (r, .ok false) else advanceUpTo r.queue.length r

end Run

/-- Resolves one command for the shell that an identifier names. -/
def resolveCommand (command identifier : String) (vs : List Variable) :
    Except TemplateError Resolution := do
  let shell ← Shell.identify identifier
  let run ← (Run.start shell).addContent "command" command
  let (run, outcome) := (run.push vs).advance
  let _ ← outcome
  match run.results.get? "command" with
  | some result => pure result
  | none => pure (.success command command 0)

end CommandTemplate
