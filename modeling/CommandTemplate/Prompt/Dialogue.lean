/-!
# Dialogues

A computation that may ask questions on its way. It can be run with answers that are known before,
and what it asks does not depend on how the answers are obtained.
-/
namespace CommandTemplate

structure Question where
  message : String
  default : Option String
  deriving DecidableEq, Repr

/-- The question as it is shown. -/
def Question.shown (q : Question) : String :=
  match q.default with
  | some d => q.message ++ " [" ++ d ++ "]: "
  | none => q.message ++ ": "

/-- The value that a reply gives: an empty reply or none at all takes the default. -/
def Question.value? (q : Question) : Option String → Option String
  | some reply => if reply = "" then q.default.or (some reply) else some reply
  | none => q.default

/-- The reply on a line that was typed, which may end in newline characters. -/
def replyOnLine (line : String) : String :=
  String.ofList (line.toList.reverse.dropWhile fun c => c == '\r' || c == '\n').reverse

inductive Dialogue (α : Type) where
  | done (a : α)
  /-- Asks, and goes on with the reply; there may be none. -/
  | ask (question : Question) (next : Option String → Dialogue α)

namespace Dialogue

def map (f : α → β) : Dialogue α → Dialogue β
  | done a => done (f a)
  | ask q next => ask q fun reply => (next reply).map f

/-- Each question takes the next of the replies. When they are used up, all further replies are
`exhausted`. -/
def run (exhausted : Option String) : List String → Dialogue α → α
  | _, done a => a
  | replies, ask _ next => (next (replies.head?.or exhausted)).run exhausted replies.tail

/-- The questions that are asked when it is run so. -/
def questions (exhausted : Option String) : List String → Dialogue α → List Question
  | _, done _ => []
  | replies, ask q next =>
    q :: (next (replies.head?.or exhausted)).questions exhausted replies.tail

theorem run_map (f : α → β) (exhausted : Option String) (replies : List String)
    (d : Dialogue α) : (d.map f).run exhausted replies = f (d.run exhausted replies) := by
  induction d generalizing replies with
  | done a => rfl
  | ask q next ih => exact ih _ _

end Dialogue
end CommandTemplate
