import CommandTemplate.Host.Basic
import CommandTemplate.ProgramError
import CommandTemplate.Prompt.Dialogue
import CommandTemplate.Prompt.Field
import CommandTemplate.Run
import CommandTemplate.Variable.Custom

/-!
# Prompts

Asks for the fields in order and gathers the answers as values of custom variables. A default can
hold tokens; they are resolved before the question is asked, and not escaped, since the user reads
them.
-/
namespace CommandTemplate.Prompt

/-- The default of a field with its tokens resolved. -/
def resolveDefault (shell : Shell) (vs : List Variable) (field : PromptField) (content : String) :
    Except ProgramError String :=
  match (Run.start shell).addContent "default" content with
  | .error e => .error (.engine e)
  | .ok run =>
    match ((run.skipEscaping "default").push vs).advance with
    | (_, .error e) => .error (.engine e)
    | (run, .ok ok) =>
      match ok, (run.results.get? "default").bind (·.resolved) with
      | true, some text => .ok text
      | _, _ => .error (.unresolvedDefault field.variableName run.messages)

/-- The question for a field. -/
def question (shell : Shell) (vs : List Variable) (field : PromptField) :
    Except ProgramError Question :=
  match field.default with
  | none => .ok ⟨field.message, none⟩
  | some content =>
    (resolveDefault shell vs field content).map fun text => ⟨field.message, some text⟩

/-- Asks for the fields from the `n`-th on, and adds the answers to those given so far. Every
default sees fresh instances of the variables that `provide` offers. -/
def askFrom (provide : Host → List Variable) (h : Host) :
    Nat → CustomSet → List PromptField → Dialogue (Except ProgramError CustomSet)
  | _, answers, [] => .done (.ok answers)
  | n, answers, field :: fields =>
    match question h.shell (provide (h.fork n)) field with
    | .error e => .done (.error e)
    | .ok q =>
      .ask q fun reply =>
        match q.value? reply with
        | none => .done (.error (.unanswered q.message))
        | some answer => askFrom provide h (n + 1) (answers.set field.variableName answer) fields

def ask (provide : Host → List Variable) (h : Host) (fields : List PromptField) :
    Dialogue (Except ProgramError CustomSet) :=
  askFrom provide h 1 ∅ fields

end CommandTemplate.Prompt
