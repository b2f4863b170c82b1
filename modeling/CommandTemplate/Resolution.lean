import CommandTemplate.Shell.Basic
import CommandTemplate.Variable.Basic

/-!
# Resolving a text

The variables of a set take their turns in order, each on the whole text that those before it left.
A value is spliced in as it stands, so a later variable can find a token in it. The first failure
ends the resolution, and nothing of it remains but its messages.
-/
namespace CommandTemplate

/-- The outcome for one content, over all the sets that it has been resolved with. -/
structure Resolution where
  /-- The content as it was given. -/
  content : String
  resolved : Option String
  succeeded : Bool
  messages : List String
  count : Nat
  deriving DecidableEq, Repr

namespace Resolution

def success (content resolved : String) (count : Nat) : Resolution :=
  ⟨content, some resolved, true, [], count⟩

@[simp] theorem success_content (content resolved : String) (count : Nat) :
    (success content resolved count).content = content := rfl

@[simp] theorem success_resolved (content resolved : String) (count : Nat) :
    (success content resolved count).resolved = some resolved := rfl

@[simp] theorem success_succeeded (content resolved : String) (count : Nat) :
    (success content resolved count).succeeded = true := rfl

@[simp] theorem success_messages (content resolved : String) (count : Nat) :
    (success content resolved count).messages = [] := rfl

@[simp] theorem success_count (content resolved : String) (count : Nat) :
    (success content resolved count).count = count := rfl

def failure (content : String) (messages : List String) : Resolution :=
  ⟨content, none, false, messages, 0⟩

@[simp] theorem failure_content (content : String) (messages : List String) :
    (failure content messages).content = content := rfl

@[simp] theorem failure_resolved (content : String) (messages : List String) :
    (failure content messages).resolved = none := rfl

@[simp] theorem failure_succeeded (content : String) (messages : List String) :
    (failure content messages).succeeded = false := rfl

@[simp] theorem failure_messages (content : String) (messages : List String) :
    (failure content messages).messages = messages := rfl

@[simp] theorem failure_count (content : String) (messages : List String) :
    (failure content messages).count = 0 := rfl

/-- The outcome of resolving further what `r` left. -/
def merge (r next : Resolution) : Resolution :=
  ⟨r.content, next.resolved, r.succeeded && next.succeeded, r.messages ++ next.messages,
    r.count + next.count⟩

@[simp] theorem merge_content (r next : Resolution) : (r.merge next).content = r.content := rfl

@[simp] theorem merge_resolved (r next : Resolution) :
    (r.merge next).resolved = next.resolved := rfl

@[simp] theorem merge_succeeded (r next : Resolution) :
    (r.merge next).succeeded = (r.succeeded && next.succeeded) := rfl

@[simp] theorem merge_messages (r next : Resolution) :
    (r.merge next).messages = r.messages ++ next.messages := rfl

@[simp] theorem merge_count (r next : Resolution) :
    (r.merge next).count = r.count + next.count := rfl

end Resolution

/-- Keeps the first of equal elements. -/
def distinct [BEq α] (xs : List α) : List α :=
  xs.foldl (fun seen x => if seen.contains x then seen else seen ++ [x]) []

def Resolution.distinctMessages (r : Resolution) : List String := distinct r.messages

/-- The text that takes the place of a token. -/
def insertedText (escaper : Option Escaper) (t : Token) (value : String) : List Char :=
  match escaper with
  | some encode => if t.escapes then encode value.toList else value.toList
  | none => value.toList

/-- A text and the number of tokens replaced in it, or the messages of the failure. -/
abbrev Outcome := Except (List String) (List Char × Nat)

/-- Puts values for the tokens among the pieces, from left to right. -/
def Instance.substitute (escaper : Option Escaper) (v : Instance) :
    List Piece → Instance × Outcome
  | [] => (v, .ok ([], 0))
  | .char c :: ps =>
    match v.substitute escaper ps with
    | (v, .ok (s, n)) => (v, .ok (c :: s, n))
    | (v, .error messages) => (v, .error messages)
  | .token t :: ps =>
    match v.answer t with
    | (v, .error messages) => (v, .error messages)
    | (v, .ok value) =>
      match v.substitute escaper ps with
      | (v, .ok (s, n)) => (v, .ok (insertedText escaper t value ++ s, n + 1))
      | (v, .error messages) => (v, .error messages)

/-- Resolves a text with each variable in turn. A schema is looked at when its turn comes. -/
def resolveText (escaper : Option Escaper) :
    List Instance → List Char → Except TemplateError (List Instance × Outcome)
  | [], s => .ok ([], .ok (s, 0))
  | v :: vs, s =>
    match v.base.pattern with
    | .error e => .error e
    | .ok p =>
      match v.substitute escaper (p.pieces s) with
      | (v, .error messages) => .ok (v :: vs, .error messages)
      | (v, .ok (s, n)) =>
        match resolveText escaper vs s with
        | .error e => .error e
        | .ok (vs, .ok (s, m)) => .ok (v :: vs, .ok (s, n + m))
        | .ok (vs, .error messages) => .ok (v :: vs, .error messages)

/-- Resolves one content; the instances are handed back as they were left. -/
def resolveContent (escaper : Option Escaper) (vs : List Instance) (content : String) :
    Except TemplateError (List Instance × Resolution) :=
  match resolveText escaper vs content.toList with
  | .error e => .error e
  | .ok (vs, .ok (s, n)) => .ok (vs, .success content (String.ofList s) n)
  | .ok (vs, .error messages) => .ok (vs, .failure content messages)

end CommandTemplate
