import CommandTemplate.Proofs.Isolation
import CommandTemplate.Proofs.Layout
import CommandTemplate.Proofs.Words
import Mathlib.Data.List.Induction

/-!
# Quoted values in a command

A command of tokens with spaces between them is to become a line with one word for each token. A
variable reads what those before it have put in, quotes and all, so a value can be replaced again in
its quotes, and then the words are others. The count of replaced tokens tells: there are never fewer
than the command has, and where there are no more the words are the values.
-/
namespace CommandTemplate

/-! ## Values bring no braces together -/

namespace Posix

/-- Quoting a character brings no opening braces together. -/
theorem unopened_flatMap_quotedChar {value : List Char} (h : Unopened value) :
    Unopened (value.flatMap quotedChar) := by
  refine h.flatMap fun c => ?_
  rw [quotedChar]
  split
  · exact .inr (by decide)
  · exact .inl rfl

/-- A quoted value has two opening braces in a row only where the value has them. -/
theorem shut_encode {value : List Char} (h : Unopened value) : Shut (encode value) := by
  rw [encode]
  split
  · rename_i hplain
    rw [Bool.and_eq_true, List.all_eq_true] at hplain
    have hbrace : ∀ c ∈ value, c ≠ '{' := by
      rintro c hc rfl
      exact absurd (hplain.2 _ hc) (by decide)
    refine ⟨h, by simpa using hplain.1, fun hhead => ?_, fun hlast => ?_⟩
    · exact hbrace _ (List.mem_of_head? hhead) rfl
    · exact hbrace _ (List.mem_of_getLast? hlast) rfl
  · have hopen : Unopened (value.flatMap quotedChar ++ ['\'']) :=
      (unopened_flatMap_quotedChar h).append (by decide) (.inr (by decide))
    have hquoted : Unopened (['\''] ++ (value.flatMap quotedChar ++ ['\''])) :=
      Unopened.append (by decide) hopen (.inl (by decide))
    refine ⟨hquoted, List.cons_ne_nil _ _, by simp, ?_⟩
    rw [← List.cons_append, List.getLast?_concat]
    decide

end Posix

/-! ## Commands -/

def commandOf (tokens : List Variable) : String :=
  " ".intercalate (tokens.map fun v => tokenOf v.name)

def Layout.ofTokens : List Variable → Layout
  | [] => .done []
  | [v] => .token [] v (.done [])
  | v :: w :: tokens => .token [] v ((ofTokens (w :: tokens)).behind [' '])

namespace Layout

theorem pending_ofTokens (tokens : List Variable) : (ofTokens tokens).pending = tokens := by
  induction tokens using ofTokens.induct with
  | case1 => rfl
  | case2 v => rfl
  | case3 v w tokens ih => rw [ofTokens, pending, pending_behind, ih]

theorem clear_ofTokens (tokens : List Variable) : (ofTokens tokens).Clear := by
  induction tokens using ofTokens.induct with
  | case1 => exact .nil
  | case2 v => exact ⟨.nil, .nil⟩
  | case3 v w tokens ih => exact ⟨.nil, clear_behind (by decide) (by decide) ih⟩

theorem text_ofTokens (tokens : List Variable) :
    (ofTokens tokens).text = (commandOf tokens).toList := by
  have htoken : ∀ v : Variable,
      (tokenOf v.name).toList = Token.text ⟨false, v.name.toList, []⟩ := by
    intro v
    simp [tokenOf, Token.text]
  rw [commandOf, String.toList_intercalate, List.map_map]
  induction tokens using ofTokens.induct with
  | case1 => rfl
  | case2 v => simp [ofTokens, text, htoken]
  | case3 v w tokens ih =>
    rw [ofTokens, text, text_behind, ih]
    simp [List.intercalate, htoken]

/-- When all tokens have been replaced, the encoded values stand with spaces between them. -/
theorem meaning_ofTokens (q : Quoting) (value : Variable → String) (tokens : List Variable) :
    (ofTokens tokens).meaning q value =
      [' '].intercalate (tokens.map fun v => q.encode (value v).toList) := by
  induction tokens using ofTokens.induct with
  | case1 => rfl
  | case2 v => simp [ofTokens, meaning]
  | case3 v w tokens ih =>
    rw [ofTokens, meaning, meaning_behind, ih]
    simp [List.intercalate]

end Layout

/-! ## Runs -/

section

variable {value : Variable → String}

theorem Fixed.sound {vs : List Variable} (h : ∀ v ∈ vs, Fixed value v) : Sound vs := by
  intro v hv
  refine ⟨?_, fun a m n => ?_⟩
  · rw [(h v hv).parameters]
    exact fun p hp => absurd hp List.not_mem_nil
  · rw [(h v hv).generate, (h v hv).generate]

/-- The sets of a run resolve a content as all their variables do in one go. -/
theorem foldSets_fixed (escaper : Option Escaper) (content : String) {sets : List (List Variable)}
    (hsets : ∀ vs ∈ sets, ∀ v ∈ vs, Fixed value v) :
    ∃ s n last, resolved escaper sets.flatten content.toList = .ok (.ok (s, n)) ∧
      foldSets escaper content sets = .ok last ∧
      (last = none ∧ s = content.toList ∧ n = 0 ∨
        last = some (.success content (String.ofList s) n)) := by
  induction sets using List.reverseRecOn with
  | nil => exact ⟨content.toList, 0, none, rfl, rfl, .inl ⟨rfl, rfl, rfl⟩⟩
  | append_singleton sets vs ih =>
    have hvs : ∀ v ∈ vs, Fixed value v := hsets vs (by simp)
    obtain ⟨s, n, last, hresolved, hfold, hlast⟩ := ih fun ws hws => hsets ws (by simp [hws])
    obtain ⟨t, m, hnext⟩ := exists_resolved escaper hvs s
    have hinput : (last.bind (·.resolved)).getD content = String.ofList s := by
      rcases hlast with ⟨rfl, rfl, -⟩ | rfl
      · exact String.ofList_toList.symm
      · rfl
    have hresolution : resolution escaper vs ((last.bind (·.resolved)).getD content) =
        .ok (.success (String.ofList s) (String.ofList t) m) := by
      rw [hinput, resolution, String.toList_ofList, hnext]
      rfl
    refine ⟨t, n + m, _, ?_, ?_, .inr rfl⟩
    · rw [List.flatten_append, List.flatten_singleton]
      exact resolved_append hresolved hnext
    · rw [foldSets_append_singleton, hfold]
      simp only [bind_ok]
      rw [further_eq (Fixed.sound hvs) last hresolution]
      rcases hlast with ⟨rfl, rfl, rfl⟩ | rfl
      · rw [String.ofList_toList, Nat.zero_add, Resolution.after]
      · rfl

/-- Variables that always have a value fail nowhere. -/
theorem not_failsAt (shell : Shell) (contents : List (String × String)) (exempt : List String)
    {sets : List (List Variable)} (hsets : ∀ vs ∈ sets, ∀ v ∈ vs, Fixed value v) (n : Nat) :
    ¬ FailsAt shell contents exempt sets n := by
  rintro ⟨key, content, result, -, hfold, hfailed⟩
  obtain ⟨s, m, last, -, hfold', hlast⟩ := foldSets_fixed (shell.escaperOf exempt key) content
    fun vs hvs => hsets vs (List.mem_of_mem_take hvs)
  rw [hfold, Except.ok.injEq] at hfold'
  subst hfold'
  rcases hlast with ⟨hnone, -⟩ | hsome
  · cases hnone
  · rw [Option.some.injEq] at hsome
    subst hsome
    cases hfailed

end

def Run.countFor (r : Run) (key : String) : Nat := ((r.results.get? key).map (·.count)).getD 0

open Run in
/-- A run with variables of one value each goes through, and leaves of every content what all the
variables resolve it to. -/
theorem exists_final_of_fixed (shell : Shell) {contents : List (String × String)}
    (hkeys : (contents.map (·.1)).Nodup) (exempt : List String) {moves : List Run.Move}
    {value : Variable → String} (hfixed : ∀ vs ∈ pushed moves, ∀ v ∈ vs, Fixed value v) :
    ∃ start final, prepare shell contents exempt = .ok start ∧
      (start.follow moves).advanceAll = (final, .ok true) ∧
      final.completed = (pushed moves).length ∧
      ∀ key content, (key, content) ∈ contents →
        ∃ s n, resolved (shell.escaperOf exempt key) (pushed moves).flatten content.toList =
            .ok (.ok (s, n)) ∧
          (final.inputFor key content).toList = s ∧ final.countFor key = n := by
  have hsound : ∀ vs ∈ pushed moves, Sound vs := fun vs hvs => Fixed.sound (hfixed vs hvs)
  have htracks := tracks_follow shell hkeys exempt rfl hsound
  obtain ⟨final, ok, hadvance, hfinal, -, hdone, hok⟩ := htracks.exists_advanceAll hkeys hsound
  obtain rfl := hok.2 fun m _ => not_failsAt shell contents exempt hfixed m
  have hcompleted := hdone rfl
  refine ⟨_, final, prepare_eq_ok shell exempt hkeys, hadvance, hcompleted, ?_⟩
  intro key content hmem
  obtain ⟨s, n, last, hresolved, hfold, hlast⟩ :=
    foldSets_fixed (shell.escaperOf exempt key) content hfixed
  have hfolded := hfinal.folded key content hmem
  rw [hcompleted, List.take_length, hfold, Except.ok.injEq] at hfolded
  refine ⟨s, n, hresolved, ?_⟩
  rw [inputFor, countFor, ← hfolded]
  rcases hlast with ⟨rfl, rfl, rfl⟩ | rfl
  · exact ⟨rfl, rfl⟩
  · exact ⟨String.toList_ofList, rfl⟩

open Run in
/-- A run with variables of one value each goes through, and replaces at least the tokens of a
command. If it replaces no more, which is so where no value has two opening braces in a row, then
the words of the line that the shell reads are the values of the tokens. -/
theorem words_of_command {shell : Shell} (hshell : shell.quoting = .posix)
    {contents : List (String × String)} (hkeys : (contents.map (·.1)).Nodup) {exempt : List String}
    {key : String} (hexempt : exempt.contains key = false) {moves : List Run.Move}
    {value : Variable → String} (hfixed : ∀ vs ∈ pushed moves, ∀ v ∈ vs, Fixed value v)
    (hnames : ∀ vs ∈ pushed moves, ∀ v ∈ vs,
      Braceless v.name.toList ∧ v.name.toList.head? ≠ some '!')
    (hdistinct : (pushed moves).flatten.Pairwise fun v w =>
      ¬Text.sameFolded v.name.toList w.name.toList)
    {tokens : List Variable} (htokens : ∀ v ∈ tokens, v ∈ (pushed moves).flatten)
    (hcommand : (key, commandOf tokens) ∈ contents) :
    ∃ start final, prepare shell contents exempt = .ok start ∧
      (start.follow moves).advanceAll = (final, .ok true) ∧
      final.completed = (pushed moves).length ∧
      tokens.length ≤ final.countFor key ∧
      (final.countFor key = tokens.length →
        Posix.splitWords (final.inputFor key (commandOf tokens)).toList =
          some (tokens.map fun v => (value v).toList)) ∧
      ((∀ v ∈ tokens, Unopened (value v).toList) → final.countFor key = tokens.length) := by
  obtain ⟨start, final, hstart, hadvance, hcompleted, hresults⟩ :=
    exists_final_of_fixed shell hkeys exempt hfixed
  obtain ⟨s, n, hresolved, htext, hcount⟩ := hresults key _ hcommand
  have hescaper : shell.escaperOf exempt key = some Quoting.posix.encode := by
    rw [Shell.escaperOf, hexempt, hshell]
    rfl
  rw [hescaper] at hresolved
  refine ⟨start, final, hstart, hadvance, hcompleted, ?_⟩
  have hflat : ∀ v ∈ (pushed moves).flatten, Fixed value v ∧ v.bare.Plain := by
    intro v hv
    obtain ⟨vs, hvs, hmem⟩ := List.mem_flatten.1 hv
    obtain ⟨hbraceless, hhead⟩ := hnames vs hvs v hmem
    exact ⟨hfixed vs hvs v hmem, hbraceless, hhead, rfl⟩
  have hpairwise : (pushed moves).flatten.Pairwise fun v w => v.isNamed w = false :=
    hdistinct.imp fun hne => by simpa [Variable.isNamed] using hne
  obtain ⟨s', n', hresolved', henough, hfaithful, hundisturbed⟩ :=
    resolved_layout .posix (fun v hv => (hflat v hv).1) (fun v hv => (hflat v hv).2) hpairwise
      (l := Layout.ofTokens tokens) (by rwa [Layout.pending_ofTokens])
  rw [Layout.text_ofTokens, hresolved, Except.ok.injEq, Except.ok.injEq, Prod.mk.injEq]
    at hresolved'
  obtain ⟨rfl, rfl⟩ := hresolved'
  rw [Layout.pending_ofTokens] at henough hfaithful hundisturbed
  rw [htext, hcount]
  refine ⟨henough, fun hequal => ?_, fun hvalues =>
    hundisturbed (Layout.clear_ofTokens tokens) fun v hv => Posix.shut_encode (hvalues v hv)⟩
  rw [hfaithful hequal, Layout.meaning_ofTokens]
  have hwords := Posix.splitWords_intercalate (tokens.map fun v => (value v).toList)
  rw [List.map_map] at hwords
  exact hwords

def constant (name value : String) : Variable := ⟨name, [], "", fun _ _ => .ok value⟩

/-- A value with a quote and one with a space, each in a set of its own. -/
def quoteThenPair : List Run.Move :=
  [.push [constant "quote" "it's"], .advance, .push [constant "pair" "a b"]]

def pairThenQuote : List Variable := [constant "pair" "a b", constant "quote" "it's"]

theorem words_of_command_quote_pair :
    ∃ start final,
      Run.prepare .bash [("command", commandOf pairThenQuote)] ["alias"] = .ok start ∧
      (start.follow quoteThenPair).advanceAll = (final, .ok true) ∧
      Posix.splitWords (final.inputFor "command" (commandOf pairThenQuote)).toList =
        some ["a b".toList, "it's".toList] := by
  have hsets : Run.pushed quoteThenPair =
      [[constant "quote" "it's"], [constant "pair" "a b"]] := rfl
  have hshell : Shell.bash.quoting = .posix := rfl
  have hkeys : ([("command", commandOf pairThenQuote)].map (·.1)).Nodup := by simp
  have hexempt : ["alias"].contains "command" = false := by decide +kernel
  have hfixed : ∀ vs ∈ Run.pushed quoteThenPair, ∀ v ∈ vs,
      Fixed (fun v => if v.name = "quote" then "it's" else "a b") v := by
    simp only [hsets, List.forall_mem_cons, List.not_mem_nil, false_imp_iff, implies_true, and_true]
    exact ⟨⟨rfl, fun _ _ => rfl⟩, ⟨rfl, fun _ _ => rfl⟩⟩
  have hnames : ∀ vs ∈ Run.pushed quoteThenPair, ∀ v ∈ vs,
      Braceless v.name.toList ∧ v.name.toList.head? ≠ some '!' := by
    simp only [hsets, List.forall_mem_cons, List.not_mem_nil, false_imp_iff, implies_true, and_true]
    exact ⟨by decide +kernel, by decide +kernel⟩
  have hdistinct : (Run.pushed quoteThenPair).flatten.Pairwise fun v w =>
      ¬Text.sameFolded v.name.toList w.name.toList := by
    refine .cons ?_ (.cons (by simp) .nil)
    intro w hw
    obtain rfl := List.mem_singleton.1 hw
    decide +kernel
  have htokens : ∀ v ∈ pairThenQuote, v ∈ (Run.pushed quoteThenPair).flatten := by
    simp [hsets, pairThenQuote]
  have hcommand : ("command", commandOf pairThenQuote) ∈
      [("command", commandOf pairThenQuote)] := List.mem_singleton.2 rfl
  obtain ⟨start, final, hstart, hadvance, -, -, hwords, hcount⟩ :=
    words_of_command hshell hkeys hexempt hfixed hnames hdistinct htokens hcommand
  refine ⟨start, final, hstart, hadvance, hwords (hcount ?_)⟩
  simp only [pairThenQuote, List.forall_mem_cons, List.not_mem_nil, false_imp_iff, implies_true,
    and_true]
  exact ⟨by decide +kernel, by decide +kernel⟩

/-! ## Commands whose words are not the values -/

def commandRun (vs tokens : List Variable) : Run × Except TemplateError Bool :=
  (Run.follow ⟨.bash, [("command", commandOf tokens)], ∅, [], [], 0⟩ [.push vs]).advanceAll

def commandWords (vs tokens : List Variable) : Option (List (List Char)) :=
  Posix.splitWords ((commandRun vs tokens).1.inputFor "command" (commandOf tokens)).toList

/-- With two variables of different names a command of one token goes through, but its line is not
the one word that is the value. -/
structure Misread (first second token : Variable) (value : String) : Prop where
  distinct : ¬Text.sameFolded first.name.toList second.name.toList
  succeeds : (commandRun [first, second] [token]).2 = .ok true
  words : commandWords [first, second] [token] ≠ some [value.toList]

/-- A value that looks like a later token is replaced in its quotes, which the count shows. With a
brace in a name or a mark in front of it, the token of another variable is found in the command
itself, and the count shows nothing. -/
theorem words_of_command_fail :
    (Misread (constant "A" "\x7b\x7bB\x7d\x7d") (constant "B" "a b")
        (constant "A" "\x7b\x7bB\x7d\x7d") "\x7b\x7bB\x7d\x7d" ∧
      commandWords [constant "A" "\x7b\x7bB\x7d\x7d", constant "B" "a b"]
        [constant "A" "\x7b\x7bB\x7d\x7d"] = some ["a".toList, "b".toList]) ∧
    (Misread (constant "x" "one two") (constant "x\x7d" "three") (constant "x\x7d" "three")
        "three" ∧
      (commandRun [constant "x" "one two", constant "x\x7d" "three"]
        [constant "x\x7d" "three"]).1.countFor "command" = 1) ∧
    (Misread (constant "x" "one two") (constant "\x7bx" "three") (constant "\x7bx" "three")
        "three" ∧
      (commandRun [constant "x" "one two", constant "\x7bx" "three"]
        [constant "\x7bx" "three"]).1.countFor "command" = 1) ∧
    Misread (constant "x" "one two") (constant "!x" "three") (constant "!x" "three") "three" ∧
      (commandRun [constant "x" "one two", constant "!x" "three"]
        [constant "!x" "three"]).1.countFor "command" = 1 := by
  refine ⟨⟨⟨?_, rfl, ?_⟩, ?_⟩, ⟨⟨?_, rfl, ?_⟩, ?_⟩, ⟨⟨?_, rfl, ?_⟩, ?_⟩, ⟨?_, rfl, ?_⟩, ?_⟩
  all_goals decide +kernel

end CommandTemplate
