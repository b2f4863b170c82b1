import CommandTemplate.Prompt.Basic
import CommandTemplate.Proofs.OnePhase

/-!
# What the user answers

Asking for fields comes down to a list of answers, one for each field and in their order, or to the
error of the first field that gets none. Such an error is never one of the engine: a default is
resolved by a run of its own, which is set up right whatever the default says.
-/
namespace CommandTemplate

theorem Question.value?_eq_none_iff (q : Question) (reply : Option String) :
    q.value? reply = none ↔ q.default = none ∧ reply = none := by
  cases reply with
  | none => simp [value?]
  | some text =>
    rw [value?]
    split <;> simp

namespace Prompt

/-- The answers to the fields from the `n`-th on, each under the name of its variable, or the error
of the first field that has none. -/
def answersFrom (provide : Host → List Variable) (h : Host) (exhausted : Option String) :
    Nat → List String → List PromptField → Except ProgramError (List (String × String))
  | _, _, [] => .ok []
  | n, replies, field :: fields =>
    match question h.shell (provide (h.fork n)) field with
    | .error e => .error e
    | .ok q =>
      match q.value? (replies.head?.or exhausted) with
      | none => .error (.unanswered q.message)
      | some answer =>
        (answersFrom provide h exhausted (n + 1) replies.tail fields).map
          ((field.variableName, answer) :: ·)

def answers (provide : Host → List Variable) (h : Host) (exhausted : Option String)
    (replies : List String) (fields : List PromptField) :
    Except ProgramError (List (String × String)) :=
  answersFrom provide h exhausted 1 replies fields

/-- Why a field gets no answer. -/
inductive FieldFault (field : PromptField) : ProgramError → Prop where
  | unanswered (hdefault : field.default = none) : FieldFault field (.unanswered field.message)
  | unresolved {content : String} {messages : List String}
    (hdefault : field.default = some content) (hmessages : messages ≠ []) :
    FieldFault field (.unresolvedDefault field.variableName messages)

theorem FieldFault.engine?_eq_none {field : PromptField} {e : ProgramError}
    (h : FieldFault field e) : e.engine? = none := by
  cases h <;> rfl

section

variable {provide : Host → List Variable} {h : Host} {exhausted : Option String}

/-- The answers are collected field by field, and put into the set only when there is no error. -/
theorem run_askFrom (n : Nat) (given : CustomSet) (replies : List String)
    (fields : List PromptField) :
    (askFrom provide h n given fields).run exhausted replies =
      (answersFrom provide h exhausted n replies fields).map fun answers =>
        answers.foldl (fun s e => s.set e.1 e.2) given := by
  induction fields generalizing n given replies with
  | nil => rfl
  | cons field fields ih =>
    rw [askFrom, answersFrom]
    cases question h.shell (provide (h.fork n)) field with
    | error e => rfl
    | ok q =>
      dsimp only
      rw [Dialogue.run]
      cases q.value? (replies.head?.or exhausted) with
      | none => rfl
      | some answer =>
        dsimp only
        rw [ih]
        cases answersFrom provide h exhausted (n + 1) replies.tail fields <;> rfl

/-- Of several answers for one variable the last one counts. -/
theorem run_ask (replies : List String) (fields : List PromptField) :
    (ask provide h fields).run exhausted replies =
      (answers provide h exhausted replies fields).map CustomSet.ofList :=
  run_askFrom 1 ∅ replies fields

end

/-! ## Defaults -/

/-- The default of a field is what its content resolves to where nothing is escaped. -/
theorem resolveDefault_eq (shell : Shell) {vs : List Variable}
    (hvs : ∀ v ∈ vs, WellFormed v.parameters) (field : PromptField) {content : String}
    {r : Resolution} (hr : resolveOnce none vs content = .ok r) :
    resolveDefault shell vs field content =
      r.resolved.elim (.error (.unresolvedDefault field.variableName r.messages)) .ok := by
  have hopened : (Run.start shell).addContent "default" content =
      .ok ⟨shell, [("default", content)], ∅, [], [], 0⟩ := rfl
  have hready :
      (Run.skipEscaping ⟨shell, [("default", content)], ∅, [], [], 0⟩ "default").push vs =
        ⟨shell, [("default", content)], ∅, ["default"], [vs.map .of], 0⟩ := rfl
  have hadvance : Run.advance ⟨shell, [("default", content)], ∅, ["default"], [vs.map .of], 0⟩ =
      (⟨shell, [("default", content)], (∅ : Dict Resolution).insert "default" r, ["default"], [],
        1⟩, .ok r.succeeded) := Run.advance_only hvs hr
  rw [resolveDefault, hopened]
  simp only [hready, hadvance]
  rcases resolveOnce_cases hr with ⟨text, n, rfl⟩ | ⟨messages, rfl⟩
  · simp
  · simp [Run.messages, Run.resultList]

/-! ## Errors -/

/-- A field cannot be asked for only if its default does not resolve. -/
theorem question_eq_error {shell : Shell} {vs : List Variable}
    (hvs : ∀ v ∈ vs, WellFormed v.parameters) {field : PromptField} {e : ProgramError}
    (h : question shell vs field = .error e) : FieldFault field e := by
  rw [question] at h
  split at h
  · cases h
  · rename_i content hdefault
    obtain ⟨r, hr⟩ := exists_resolveOnce none hvs content
    obtain ⟨left, hres⟩ := exists_resolveContent_of_resolveOnce hr
    rw [resolveDefault_eq shell hvs field hr] at h
    rcases resolveOnce_cases hr with ⟨text, n, rfl⟩ | ⟨messages, rfl⟩
    · cases h
    · obtain rfl := Except.error.inj h
      exact .unresolved hdefault ((decided_resolveContent hres).1.messages_ne_nil_iff.2 rfl)

theorem question_eq_ok {shell : Shell} {vs : List Variable} {field : PromptField} {q : Question}
    (h : question shell vs field = .ok q) :
    q.message = field.message ∧ (q.default = none ↔ field.default = none) := by
  rw [question] at h
  split at h
  · rename_i hdefault
    cases h
    simp [hdefault]
  · rename_i content hdefault
    obtain ⟨text, -, rfl⟩ := map_eq_ok_iff.1 h
    simp [hdefault]

/-- The fields are all that can keep the user from being asked. -/
theorem exists_fieldFault {provide : Host → List Variable}
    (hprovide : ∀ h, ∀ v ∈ provide h, WellFormed v.parameters) {h : Host}
    {exhausted : Option String} {n : Nat} {replies : List String} {fields : List PromptField}
    {e : ProgramError} (herror : answersFrom provide h exhausted n replies fields = .error e) :
    ∃ field ∈ fields, FieldFault field e := by
  induction fields generalizing n replies with
  | nil => cases herror
  | cons field fields ih =>
    rw [answersFrom] at herror
    split at herror
    · rename_i hquestion
      cases herror
      exact ⟨field, List.mem_cons_self .., question_eq_error (hprovide _) hquestion⟩
    · rename_i q hquestion
      obtain ⟨hmessage, hdefault⟩ := question_eq_ok hquestion
      split at herror
      · rename_i hnone
        cases herror
        have hnodefault := hdefault.1 ((q.value?_eq_none_iff _).1 hnone).1
        exact ⟨field, List.mem_cons_self .., hmessage ▸ .unanswered hnodefault⟩
      · cases hrest : answersFrom provide h exhausted (n + 1) replies.tail fields with
        | ok given => simp [hrest] at herror
        | error e' =>
          simp only [hrest, map_error, Except.error.injEq] at herror
          subst herror
          obtain ⟨other, hmem, hfault⟩ := ih hrest
          exact ⟨other, List.mem_cons_of_mem _ hmem, hfault⟩

end Prompt
end CommandTemplate
