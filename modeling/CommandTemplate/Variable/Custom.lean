import CommandTemplate.Text.Blank
import CommandTemplate.Variable.Basic

/-!
# Custom variables

Variables that a user names and gives values. Their names begin with an underscore, which need not
be written. A name can be declared without a value; that never takes a value away.
-/
namespace CommandTemplate

/-- The name of the custom variable that a text means. -/
def customName (name : String) : String :=
  let name := Text.trimmed name
  if name.toList.head? = some '_' then name else "_" ++ name

/-- Values under the names of custom variables. -/
structure CustomSet where
  values : Dict (Option String)
  deriving DecidableEq, Repr

namespace CustomSet

def empty : CustomSet := ⟨∅⟩

instance : EmptyCollection CustomSet := ⟨empty⟩

def isEmpty (s : CustomSet) : Bool := s.values.isEmpty

def names (s : CustomSet) : List String := s.values.keys

/-- Adds a name without a value, unless it is there. -/
def declare (s : CustomSet) (name : String) : CustomSet :=
  ⟨s.values.insertNew (customName name) none⟩

def set (s : CustomSet) (name value : String) : CustomSet :=
  ⟨s.values.insert (customName name) (some value)⟩

/-- The value under a name. -/
def get? (s : CustomSet) (name : String) : Option String :=
  (s.values.get? (customName name)).join

/-- Takes over one entry: a value replaces what is there, a mere declaration does not. -/
def add (d : Dict (Option String)) : String × Option String → Dict (Option String)
  | (name, some value) => d.insert name (some value)
  | (name, none) => d.insertNew name none

/-- Takes over all entries of `other`. -/
def extend (s other : CustomSet) : CustomSet := ⟨other.values.entries.foldl add s.values⟩

def ofList (entries : List (String × String)) : CustomSet :=
  entries.foldl (fun s e => s.set e.1 e.2) ∅

/-- The name and value of an assignment `name=value`; the value is what stands behind the first
`=`, as it is. -/
def parseAssignment (text : String) : Option (String × String) :=
  let name := text.toList.takeWhile (· != '=')
  match text.toList.drop name.length with
  | [] => none
  | _ :: value =>
    let name := Text.trimmed (String.ofList name)
    if name = "" ∨ name = "_" then none else some (customName name, String.ofList value)

end CustomSet

/-- The variable of a custom name. -/
def customVariable (name : String) (value : Option String) : Variable where
  name := customName name
  parameters := []
  help := "Custom variable"
  generate _ _ :=
    match value with
    | some value => .ok value
    | none => .error (.about (customName name) "custom variable has no value")

/-- The variables of a set, in the order of their names. -/
def CustomSet.toVariables (s : CustomSet) : List Variable :=
  s.values.entries.map fun (name, value) => customVariable name value

end CommandTemplate
