import CommandTemplate.Proofs.Answers
import CommandTemplate.Proofs.CustomSets
import CommandTemplate.Proofs.Requests

/-!
# Replies and fields

With replies that are known before, a prompt takes one for each field. Whether a field has an
answer, and which, depends on its own default and its own reply and on nothing that was asked
before; the prompt fails with the first field that has none.
-/
namespace CommandTemplate

/-! ## Replies that are left -/

def Dialogue.left {α : Type} (exhausted : Option String) : List String → Dialogue α → List String
  | replies, done _ => replies
  | replies, ask _ next => (next (replies.head?.or exhausted)).left exhausted replies.tail

/-- Each question takes one. -/
theorem Dialogue.left_eq_drop {α : Type} (exhausted : Option String) (replies : List String)
    (d : Dialogue α) :
    d.left exhausted replies = replies.drop (d.questions exhausted replies).length := by
  induction d generalizing replies with
  | done a => rfl
  | ask q next ih =>
    rw [left, ih, questions, List.length_cons, ← List.drop_one, List.drop_drop, Nat.add_comm]

namespace Prompt

/-! ## One field -/

/-- The text that a default is shown as. Its tokens are resolved, and nothing in it is escaped. -/
def DefaultShows (vs : List Variable) (content text : String) : Prop :=
  ∃ n, resolveOnce none vs content = .ok (.success content text n)

/-- The answer of a field to the reply that it gets, if it gets one. -/
inductive FieldAnswer (vs : List Variable) (field : PromptField) :
    Option String → String → Prop where
  | reply {text : String} (hcounts : text ≠ "" ∨ field.default = none) :
    FieldAnswer vs field (some text) text
  | default {reply : Option String} {content text : String}
    (hreply : reply = none ∨ reply = some "") (hdefault : field.default = some content)
    (hshows : DefaultShows vs content text) : FieldAnswer vs field reply text

structure Answerable (vs : List Variable) (field : PromptField) (reply : Option String) : Prop where
  resolves : ∀ content, field.default = some content → ∃ text, DefaultShows vs content text
  replied : reply = none → field.default ≠ none

/-- Why a field has no answer. -/
inductive FieldError (vs : List Variable) (field : PromptField) :
    Option String → ProgramError → Prop where
  | unresolved {reply : Option String} {content : String} {messages : List String}
    (hdefault : field.default = some content)
    (hfails : resolveOnce none vs content = .ok (.failure content messages)) :
    FieldError vs field reply (.unresolvedDefault field.variableName messages)
  | unanswered (hdefault : field.default = none) :
    FieldError vs field none (.unanswered field.message)

def answer (shell : Shell) (vs : List Variable) (field : PromptField) (reply : Option String) :
    Except ProgramError String :=
  match question shell vs field with
  | .error e => .error e
  | .ok q =>
    match q.value? reply with
    | none => .error (.unanswered q.message)
    | some text => .ok text

section

variable {vs : List Variable} (hvs : ∀ v ∈ vs, WellFormed v.parameters) {field : PromptField}

/-- Without a default every reply is an answer, also an empty one. -/
theorem answer_of_no_default (shell : Shell) (hdefault : field.default = none) :
    ∀ reply, answer shell vs field reply = reply.elim (.error (.unanswered field.message)) .ok
  | none => by simp [answer, question, hdefault, Question.value?]
  | some text => by
    rw [answer, question, hdefault]
    by_cases h : text = "" <;> simp [Question.value?, h]

include hvs

/-- With a default an empty reply stands for it. -/
theorem answer_of_shows (shell : Shell) {content text : String}
    (hdefault : field.default = some content) (hshows : DefaultShows vs content text)
    (reply : Option String) :
    answer shell vs field reply = .ok ((reply.filter (· ≠ "")).getD text) := by
  obtain ⟨n, hn⟩ := hshows
  have hquestion : question shell vs field = .ok ⟨field.message, some text⟩ := by
    rw [question, hdefault]
    dsimp only
    rw [resolveDefault_eq shell hvs field hn]
    rfl
  rw [answer, hquestion]
  cases reply with
  | none => rfl
  | some reply => by_cases h : reply = "" <;> simp [Question.value?, Option.filter, h]

theorem answer_of_fails (shell : Shell) {content : String} {messages : List String}
    (hdefault : field.default = some content)
    (hfails : resolveOnce none vs content = .ok (.failure content messages))
    (reply : Option String) :
    answer shell vs field reply = .error (.unresolvedDefault field.variableName messages) := by
  rw [answer, question, hdefault]
  dsimp only
  rw [resolveDefault_eq shell hvs field hfails]
  rfl

/-- A default resolves or fails. -/
theorem default_cases (content : String) :
    (∃ text, DefaultShows vs content text) ∨
      ∃ messages, resolveOnce none vs content = .ok (.failure content messages) := by
  obtain ⟨r, hr⟩ := exists_resolveOnce none hvs content
  rcases resolveOnce_cases hr with ⟨text, n, rfl⟩ | ⟨messages, rfl⟩
  · exact .inl ⟨text, n, hr⟩
  · exact .inr ⟨messages, hr⟩

/-- Either there is an answer or something is wrong with the field, and never both. -/
theorem answer_cases (shell : Shell) (field : PromptField) (reply : Option String) :
    (Answerable vs field reply ∧
        ∃ text, answer shell vs field reply = .ok text ∧ FieldAnswer vs field reply text) ∨
      ¬Answerable vs field reply ∧
        ∃ e, answer shell vs field reply = .error e ∧ FieldError vs field reply e := by
  cases hdefault : field.default with
  | none =>
    have hanswer : answer shell vs field reply = _ := answer_of_no_default shell hdefault reply
    cases reply with
    | none => exact .inr ⟨fun h => h.replied rfl hdefault, _, hanswer, .unanswered hdefault⟩
    | some text =>
      exact .inl ⟨⟨by simp [hdefault], by simp⟩, text, hanswer, .reply (.inr hdefault)⟩
  | some content =>
    rcases default_cases hvs content with ⟨shown, hshows⟩ | ⟨messages, hfails⟩
    · have hanswer := answer_of_shows hvs shell hdefault hshows reply
      have hanswerable : Answerable vs field reply := by
        refine ⟨fun content' hcontent => ⟨shown, ?_⟩, by simp [hdefault]⟩
        obtain rfl : content = content' := Option.some.inj (hdefault.symm.trans hcontent)
        exact hshows
      refine .inl ⟨hanswerable, _, hanswer, ?_⟩
      cases reply with
      | none => exact .default (.inl rfl) hdefault hshows
      | some text =>
        by_cases hempty : text = ""
        · rw [hempty]
          exact .default (.inr rfl) hdefault hshows
        · have hfilter : (some text).filter (· ≠ "") = some text := by simp [Option.filter, hempty]
          rw [hfilter]
          exact .reply (.inl hempty)
    · have hanswer := answer_of_fails hvs shell hdefault hfails reply
      refine .inr ⟨fun h => ?_, _, hanswer, .unresolved hdefault hfails⟩
      obtain ⟨text, n, hshows⟩ := h.resolves content hdefault
      rw [hfails] at hshows
      cases hshows

/-- A field has an answer just when its default resolves, or it has none and there is a reply. -/
theorem exists_answer_iff (shell : Shell) (field : PromptField) (reply : Option String) :
    (∃ text, answer shell vs field reply = .ok text) ↔ Answerable vs field reply := by
  rcases answer_cases hvs shell field reply with ⟨hyes, text, htext, -⟩ | ⟨hno, e, he, -⟩
  · simp [hyes, htext]
  · simp [hno, he]

theorem fieldAnswer_of_eq_ok {shell : Shell} {reply : Option String} {text : String}
    (h : answer shell vs field reply = .ok text) : FieldAnswer vs field reply text := by
  rcases answer_cases hvs shell field reply with ⟨-, text', htext, hanswer⟩ | ⟨-, e, he, -⟩
  · rwa [← Except.ok.inj (htext.symm.trans h)]
  · cases he.symm.trans h

/-- There are two reasons for which a field has no answer. -/
theorem answer_eq_error_iff {shell : Shell} {reply : Option String} {e : ProgramError} :
    answer shell vs field reply = .error e ↔ FieldError vs field reply e := by
  constructor
  · intro h
    rcases answer_cases hvs shell field reply with ⟨-, text, htext, -⟩ | ⟨-, e', he, herror⟩
    · cases htext.symm.trans h
    · rwa [← Except.error.inj (he.symm.trans h)]
  · rintro (⟨hdefault, hfails⟩ | hdefault)
    · exact answer_of_fails hvs shell hdefault hfails reply
    · exact answer_of_no_default shell hdefault none

end

/-! ## All fields -/

section

variable {provide : Host → List Variable} {h : Host} {n : Nat} {replies : List String}
  {fields : List PromptField}

/-- What becomes of the fields from the `n`-th on, each with the reply at its place. -/
def outcomesFrom (provide : Host → List Variable) (h : Host) (n : Nat) (replies : List String)
    (fields : List PromptField) : List (Except ProgramError (String × String)) :=
  fields.mapIdx fun i field =>
    (answer h.shell (provide (h.fork (i + n))) field replies[i]?).map fun text =>
      (field.variableName, text)

theorem outcomesFrom_cons (field : PromptField) :
    outcomesFrom provide h n replies (field :: fields) =
      (answer h.shell (provide (h.fork n)) field replies.head?).map
          (fun text => (field.variableName, text)) ::
        outcomesFrom provide h (n + 1) replies.tail fields := by
  have hplaces : ∀ i, (answer h.shell (provide (h.fork (i + 1 + n))) · replies[i + 1]?) =
      (answer h.shell (provide (h.fork (i + (n + 1)))) · replies.tail[i]?) := by
    intro i
    rw [List.getElem?_tail, Nat.add_assoc, Nat.add_comm 1 n]
  rw [outcomesFrom, List.mapIdx_cons, outcomesFrom, Nat.zero_add, List.head?_eq_getElem?]
  simp only [congrFun (hplaces _)]

/-- The fields are asked in turn, and each takes the next reply. -/
theorem answersFrom_eq_mapM :
    answersFrom provide h none n replies fields =
      (outcomesFrom provide h n replies fields).mapM id := by
  induction fields generalizing n replies with
  | nil => rfl
  | cons field fields ih =>
    rw [answersFrom, outcomesFrom_cons, List.mapM_cons, ← ih, Option.or_none, answer]
    cases question h.shell (provide (h.fork n)) field with
    | error e => rfl
    | ok q =>
      dsimp only
      cases q.value? replies.head? with
      | none => rfl
      | some text =>
        cases answersFrom provide h none (n + 1) replies.tail fields <;> rfl

/-- The fields are asked for in their order, each by its message. -/
theorem messages_questions {given : CustomSet} {answers : List (String × String)}
    (hok : answersFrom provide h none n replies fields = .ok answers) :
    ((askFrom provide h n given fields).questions none replies).map (·.message) =
      fields.map (·.message) := by
  induction fields generalizing n given replies answers with
  | nil => rfl
  | cons field fields ih =>
    rw [answersFrom] at hok
    rw [askFrom]
    cases hquestion : question h.shell (provide (h.fork n)) field with
    | error e => simp [hquestion] at hok
    | ok q =>
      obtain ⟨hmessage, -⟩ := question_eq_ok hquestion
      rw [hquestion] at hok
      dsimp only at hok ⊢
      rw [Dialogue.questions, List.map_cons, List.map_cons, hmessage]
      cases hvalue : q.value? (replies.head?.or none) with
      | none =>
        rw [hvalue] at hok
        cases hok
      | some text =>
        rw [hvalue] at hok
        obtain ⟨rest, hrest, -⟩ := map_eq_ok_iff.1 hok
        rw [ih hrest]

/-- The reply at a place is that to the field at this place. -/
theorem getElem?_outcomesFrom_iff {i : Nat} {x : Except ProgramError (String × String)} :
    (outcomesFrom provide h n replies fields)[i]? = some x ↔ ∃ field, fields[i]? = some field ∧
      (answer h.shell (provide (h.fork (i + n))) field replies[i]?).map
        (fun text => (field.variableName, text)) = x := by
  rw [outcomesFrom, List.getElem?_mapIdx, Option.map_eq_some_iff]

/-- There are answers just when every field has one. -/
theorem answers_eq_ok_iff {given : List (String × String)} :
    answers provide h none replies fields = .ok given ↔
      outcomesFrom provide h 1 replies fields = given.map .ok := by
  rw [answers, answersFrom_eq_mapM, mapM_id_eq_ok_iff]

theorem length_of_answers {given : List (String × String)}
    (hok : answers provide h none replies fields = .ok given) : given.length = fields.length := by
  have hlength := congrArg List.length (answers_eq_ok_iff.1 hok)
  rw [outcomesFrom, List.length_mapIdx, List.length_map] at hlength
  exact hlength.symm

theorem getElem?_of_answers {given : List (String × String)}
    (hok : answers provide h none replies fields = .ok given) {i : Nat} {field : PromptField}
    (hfield : fields[i]? = some field) :
    ∃ text, given[i]? = some (field.variableName, text) ∧
      answer h.shell (provide (h.fork (i + 1))) field replies[i]? = .ok text := by
  have hplace : (outcomesFrom provide h 1 replies fields)[i]? =
      some ((answer h.shell (provide (h.fork (i + 1))) field replies[i]?).map fun text =>
        (field.variableName, text)) := getElem?_outcomesFrom_iff.2 ⟨field, hfield, rfl⟩
  rw [answers_eq_ok_iff.1 hok, List.getElem?_map, Option.map_eq_some_iff] at hplace
  obtain ⟨e, he, hanswer⟩ := hplace
  obtain ⟨text, htext, rfl⟩ := map_eq_ok_iff.1 hanswer.symm
  exact ⟨text, he, htext⟩

theorem names_of_answers {given : List (String × String)}
    (hok : answers provide h none replies fields = .ok given) :
    given.map (·.1) = fields.map (·.variableName) := by
  refine List.ext_getElem? fun i => ?_
  rw [List.getElem?_map, List.getElem?_map]
  cases hfield : fields[i]? with
  | none =>
    have hbeyond : given[i]? = none := by
      rw [List.getElem?_eq_none_iff, length_of_answers hok]
      exact List.getElem?_eq_none_iff.1 hfield
    rw [hbeyond]
    rfl
  | some field =>
    obtain ⟨text, hgiven, -⟩ := getElem?_of_answers hok hfield
    rw [hgiven]
    rfl

end

structure LinedUp (provide : Host → List Variable) (h : Host) (fields : List PromptField)
    (replies : List String) (s : CustomSet) (answers : List String) : Prop where
  length : answers.length = fields.length
  /-- Each answer belongs to its field and to the reply at the same place. -/
  answer : ∀ (i : Nat) (field : PromptField) (text : String),
    fields[i]? = some field → answers[i]? = some text →
    FieldAnswer (provide (h.fork (i + 1))) field replies[i]? text
  /-- Of several fields for one variable the last one counts, -/
  last : ∀ (i : Nat) (field : PromptField) (text : String),
    fields[i]? = some field → answers[i]? = some text →
    (∀ (j : Nat) (later : PromptField), i < j → fields[j]? = some later →
      customName later.variableName ≠ customName field.variableName) →
    s.get? field.variableName = some text
  /-- and there are no other variables. -/
  names : ∀ name, name ∈ s.names ↔ ∃ field ∈ fields, customName field.variableName = name
  /-- Each field is asked for once and takes one reply. -/
  asked : ((ask provide h fields).questions none replies).map (·.message) = fields.map (·.message)
  left : (ask provide h fields).left none replies = replies.drop fields.length

/-- What comes of a prompt whose replies are known before. Every default is resolved with variables
of its own. -/
structure Answered (provide : Host → List Variable) (h : Host) (fields : List PromptField)
    (replies : List String) : Prop where
  succeeds_iff : (∃ s, (ask provide h fields).run none replies = .ok s) ↔
    ∀ (i : Nat) (field : PromptField), fields[i]? = some field →
      Answerable (provide (h.fork (i + 1))) field replies[i]?
  succeeds : ∀ s, (ask provide h fields).run none replies = .ok s →
    ∃ answers, LinedUp provide h fields replies s answers
  /-- The error is that of the first field without an answer. -/
  fails_iff : ∀ e, (ask provide h fields).run none replies = .error e ↔
    ∃ (i : Nat) (field : PromptField), fields[i]? = some field ∧
      FieldError (provide (h.fork (i + 1))) field replies[i]? e ∧
      ∀ j < i, ∀ earlier : PromptField, fields[j]? = some earlier →
        Answerable (provide (h.fork (j + 1))) earlier replies[j]?

section

variable {provide : Host → List Variable} {h : Host} {replies : List String}
  {fields : List PromptField}

/-- Answers stand at the places of their fields. -/
theorem linedUp_of_answers (hprovide : ∀ n, ∀ v ∈ provide (h.fork n), WellFormed v.parameters)
    {given : List (String × String)} (hok : answers provide h none replies fields = .ok given) :
    LinedUp provide h fields replies (.ofList given) (given.map (·.2)) := by
  have hasked : ((ask provide h fields).questions none replies).map (·.message) =
      fields.map (·.message) := messages_questions hok
  have hcount := congrArg List.length hasked
  rw [List.length_map, List.length_map] at hcount
  -- the answer at a place is that of the field there
  have hplace : ∀ (i : Nat) (field : PromptField) (text : String), fields[i]? = some field →
      (given.map (·.2))[i]? = some text → given[i]? = some (field.variableName, text) ∧
        answer h.shell (provide (h.fork (i + 1))) field replies[i]? = .ok text := by
    intro i field text hfield htext
    obtain ⟨text', hgiven, hanswer⟩ := getElem?_of_answers hok hfield
    rw [List.getElem?_map, hgiven] at htext
    obtain rfl : text' = text := by simpa using htext
    exact ⟨hgiven, hanswer⟩
  constructor
  case length => rw [List.length_map, length_of_answers hok]
  case answer =>
    intro i field text hfield htext
    exact fieldAnswer_of_eq_ok (hprovide _) (hplace i field text hfield htext).2
  case last =>
    intro i field text hfield htext hlast
    have hvalue : lastValue? (fun key => customName key == customName field.variableName) given =
        some text := by
      refine lastValue?_of_last (hplace i field text hfield htext).1 (by simp) ?_
      intro j hj later hlater
      have hname : (fields.map (·.variableName))[j]? = some later.1 := by
        rw [← names_of_answers hok, List.getElem?_map, hlater]
        rfl
      rw [List.getElem?_map, Option.map_eq_some_iff] at hname
      obtain ⟨other, hother, hsame⟩ := hname
      rw [← hsame, beq_eq_false_iff_ne]
      exact hlast j other hj hother
    rw [CustomSet.get?, CustomSet.values_ofList, hvalue]
    rfl
  case names =>
    intro name
    rw [CustomSet.mem_names_ofList_iff, names_of_answers hok]
    simp
  case asked => exact hasked
  case left => rw [Dialogue.left_eq_drop, hcount]

/-- The replies line up with the fields: a prompt succeeds when every field has an answer, and
otherwise it fails with the first that has none. -/
theorem ask_answered (provide : Host → List Variable) (h : Host)
    (hprovide : ∀ n, ∀ v ∈ provide (h.fork n), WellFormed v.parameters)
    (fields : List PromptField) (replies : List String) : Answered provide h fields replies := by
  have hrun : (ask provide h fields).run none replies =
      (answers provide h none replies fields).map CustomSet.ofList := run_ask replies fields
  constructor
  case succeeds_iff =>
    rw [hrun, exists_map_eq_ok_iff, answers, answersFrom_eq_mapM, exists_mapM_eq_ok_iff]
    constructor
    · intro hall i field hfield
      have hanswer := hall _
        (List.mem_of_getElem? (getElem?_outcomesFrom_iff.2 ⟨field, hfield, rfl⟩))
      exact (exists_answer_iff (hprovide _) _ _ _).1 (exists_map_eq_ok_iff.1 hanswer)
    · intro hall x hx
      obtain ⟨i, hi⟩ := List.mem_iff_getElem?.1 hx
      obtain ⟨field, hfield, rfl⟩ := getElem?_outcomesFrom_iff.1 hi
      exact exists_map_eq_ok_iff.2 ((exists_answer_iff (hprovide _) _ _ _).2 (hall i field hfield))
  case succeeds =>
    intro s hs
    rw [hrun] at hs
    obtain ⟨given, hok, rfl⟩ := map_eq_ok_iff.1 hs
    exact ⟨_, linedUp_of_answers hprovide hok⟩
  case fails_iff =>
    intro e
    rw [hrun, map_eq_error_iff, answers, answersFrom_eq_mapM, mapM_eq_error_iff_getElem?]
    constructor
    · rintro ⟨i, x, hx, herror, hbefore⟩
      obtain ⟨field, hfield, rfl⟩ := getElem?_outcomesFrom_iff.1 hx
      refine ⟨i, field, hfield,
        (answer_eq_error_iff (hprovide _)).1 (map_eq_error_iff.1 herror), ?_⟩
      intro j hj earlier hearlier
      exact (exists_answer_iff (hprovide _) _ _ _).1 (exists_map_eq_ok_iff.1
        (hbefore j hj _ (getElem?_outcomesFrom_iff.2 ⟨earlier, hearlier, rfl⟩)))
    · rintro ⟨i, field, hfield, herror, hbefore⟩
      refine ⟨i, _, getElem?_outcomesFrom_iff.2 ⟨field, hfield, rfl⟩,
        map_eq_error_iff.2 ((answer_eq_error_iff (hprovide _)).2 herror), ?_⟩
      intro j hj y hy
      obtain ⟨earlier, hearlier, rfl⟩ := getElem?_outcomesFrom_iff.1 hy
      exact exists_map_eq_ok_iff.2
        ((exists_answer_iff (hprovide _) _ _ _).2 (hbefore j hj earlier hearlier))

end

/-- A question whose default has a token, one that must be answered, and the first again. -/
def branchFields : List PromptField :=
  [⟨"branch", none, some "it's \x7b\x7bpassthrough:a b\x7d\x7d"⟩, ⟨"_name", some "Name", none⟩,
    ⟨" _branch", some "Branch", some "main"⟩]

def branchHost : Host := bareSurroundings.host .bash none none none

def branchAnswers : CustomSet := .ofList [("branch", "main"), ("name", "ada")]

/-- An empty reply and a missing one take the defaults, and the later field for `_branch` counts. -/
theorem ask_answered_branch :
    (∀ n, ∀ v ∈ Builtin.all (branchHost.fork n), WellFormed v.parameters) ∧
      (ask Builtin.all branchHost branchFields).run none ["", "ada"] = .ok branchAnswers ∧
      ∃ answers, LinedUp Builtin.all branchHost branchFields ["", "ada"] branchAnswers answers := by
  have hprovide : ∀ n, ∀ v ∈ Builtin.all (branchHost.fork n), WellFormed v.parameters :=
    fun n v hv => Builtin.wellFormed_of_mem_all hv
  have hrun : (ask Builtin.all branchHost branchFields).run none ["", "ada"] =
      .ok branchAnswers := by decide +kernel
  have hanswered := ask_answered Builtin.all branchHost hprovide branchFields ["", "ada"]
  exact ⟨hprovide, hrun, hanswered.succeeds branchAnswers hrun⟩

/-- A default that fails is an error although there is a reply. -/
example :
    (ask (fun h => [Builtin.environment h]) branchHost
        [⟨"b", none, some "\x7b\x7benvironment:NO\x7d\x7d"⟩]).run none ["x"] =
      .error (.unresolvedDefault "b"
        ["\x7b\x7benvironment\x7d\x7d: environment variable 'NO' is not set"]) := by
  decide +kernel

end Prompt
end CommandTemplate
