import CommandTemplate.Settings.Basic
import CommandTemplate.Document.Basic

/-!
# Settings from a document

Fields that are missing are not set, and fields that no setting has are passed over. A field of the
wrong kind makes the whole document invalid.
-/
namespace CommandTemplate

namespace Document

/-- The field of a table; a missing one is null. -/
def field (entries : List (String × Document)) (name : String) : Document :=
  (entries.lookup name).getD .null

def text? : Document → Option String
  | .text s => some s
  | _ => none

/-- The value that `f` reads, or nothing where the document is null. -/
def nullable? (f : Document → Option α) : Document → Option (Option α)
  | .null => some none
  | d => (f d).map some

def list? (f : Document → Option α) : Document → Option (List α)
  | .list elements => elements.mapM f
  | _ => none

/-- The value that `f` reads in a field, or `a` where the field is missing. -/
def fieldOr (a : α) (f : Document → Option α) (entries : List (String × Document))
    (name : String) : Option α :=
  match entries.lookup name with
  | some d => f d
  | none => some a

def textTable? : Document → Option (Dict String)
  | .table entries =>
    (entries.mapM fun (e : String × Document) => e.2.text?.map fun s => (e.1, s)).map Dict.ofList
  | _ => none

/-- A prompt field is a table of its parts, or the list of them in order. -/
def promptField? : Document → Option PromptField
  | .table entries => do
    let variableName ← (field entries "variable").text?
    let label ← (field entries "label").nullable? text?
    let default ← (field entries "default").nullable? text?
    return ⟨variableName, label, default⟩
  | .list (name :: parts) => do
    if 2 < parts.length then none
    let variableName ← name.text?
    let label ← nullable? text? (parts[0]?.getD .null)
    let default ← nullable? text? (parts[1]?.getD .null)
    return ⟨variableName, label, default⟩
  | _ => none

def settings? : Document → Option Settings
  | .table entries => do
    let shell ← (field entries "shell").nullable? text?
    let logLevel ← (field entries "log_level").nullable? text?
    let exemptKeys ← (field entries "no_escape_keys").nullable? (list? text?)
    let customValues ← fieldOr ∅ textTable? entries "custom_variables"
    let prompt ← fieldOr [] (list? promptField?) entries "prompt"
    return ⟨shell, logLevel, exemptKeys, customValues, prompt⟩
  | _ => none

end Document
end CommandTemplate
