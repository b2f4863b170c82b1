import CommandTemplate.Proofs.CustomTokens
import CommandTemplate.Proofs.OnePhase

/-!
# From an assignment to its token

A text `name=value` is divided at its first `=`. The name in front, in its one form, has a token
like any other, and in the token's place stands the value as it was written behind the `=`, escaped
for the shell or not: on the way there no character of either means anything.
-/
namespace CommandTemplate
namespace CustomSet

/-! ## Reading an assignment -/

/-- A value behind the first `=` of a text, and something of a name in front of it. -/
structure Assignment where
  before : String
  value : String
  first : '=' ∉ before.toList
  named : Text.trimmed before ≠ "" ∧ Text.trimmed before ≠ "_"

namespace Assignment

def text (a : Assignment) : String := a.before ++ "=" ++ a.value

def name (a : Assignment) : String := customName a.before

end Assignment

theorem parseAssignment_eq_none {text : String} (h : '=' ∉ text.toList) :
    parseAssignment text = none := by
  have hall : text.toList.takeWhile (· != '=') = text.toList :=
    List.takeWhile_eq_self_iff.2 fun c hc => by simpa using ne_of_mem_of_not_mem hc h
  rw [parseAssignment]
  simp [hall]

/-- Blanks around a name do not count. -/
theorem customName_trimmed (name : String) : customName (Text.trimmed name) = customName name := by
  have htrim : Text.trimmed (Text.trimmed name) = Text.trimmed name := by
    simp only [Text.trimmed, String.toList_ofList, Text.trim_eq_self (Text.trimmed_trim _)]
  simp only [customName, htrim]

/-- The first `=` divides the text; further ones belong to the value. -/
theorem parseAssignment_divided {before : String} (h : '=' ∉ before.toList) (value : String) :
    parseAssignment (before ++ "=" ++ value) =
      if Text.trimmed before = "" ∨ Text.trimmed before = "_" then none
      else some (customName before, value) := by
  have htext : (before ++ "=" ++ value).toList = before.toList ++ '=' :: value.toList := by simp
  have hbefore : (before.toList ++ '=' :: value.toList).takeWhile (· != '=') = before.toList := by
    rw [List.takeWhile_append_of_pos fun c hc => by simpa using ne_of_mem_of_not_mem hc h,
      List.takeWhile_cons_of_neg (by simp), List.append_nil]
  rw [parseAssignment, htext]
  dsimp only
  rw [hbefore, List.drop_left]
  simp only [String.ofList_toList, customName_trimmed]

/-- An assignment is read as just the one name and value that it is written with. -/
theorem parseAssignment_eq_some_iff {text : String} {e : String × String} :
    parseAssignment text = some e ↔ ∃ a : Assignment, a.text = text ∧ (a.name, a.value) = e := by
  constructor
  · intro h
    by_cases hequals : '=' ∈ text.toList
    · obtain ⟨before, value, htext, hfirst⟩ := List.eq_append_cons_of_mem hequals
      have hdivided : text = String.ofList before ++ "=" ++ String.ofList value := by
        rw [← String.toList_inj, htext]
        simp
      rw [hdivided, parseAssignment_divided (by simpa using hfirst)] at h
      split at h
      · cases h
      · rename_i hnamed
        exact ⟨⟨_, _, by simpa using hfirst, not_or.1 hnamed⟩, hdivided.symm, Option.some.inj h⟩
    · rw [parseAssignment_eq_none hequals] at h
      cases h
  · rintro ⟨a, rfl, rfl⟩
    rw [Assignment.text, parseAssignment_divided a.first, if_neg (not_or.2 a.named)]
    rfl

theorem two_le_length_customName {name : String}
    (h : Text.trimmed name ≠ "" ∧ Text.trimmed name ≠ "_") :
    2 ≤ (customName name).length := by
  rw [customName, ← String.length_toList]
  split
  · rename_i hhead
    obtain ⟨rest, hrest⟩ := List.head?_eq_some_iff.1 hhead
    have hne : rest ≠ [] := by
      rintro rfl
      exact h.2 (String.toList_inj.1 hrest)
    have hlength := List.length_pos_iff.2 hne
    rw [hrest, List.length_cons]
    omega
  · have hne : (Text.trimmed name).toList ≠ [] := fun hnil => h.1 (String.toList_inj.1 hnil)
    have hlength := List.length_pos_iff.2 hne
    have hunderscore : "_".toList.length = 1 := rfl
    rw [String.toList_append, List.length_append]
    omega

/-! ## The token of the name -/

/-- The one variable of a set of one entry. -/
theorem toVariables_ofList_singleton (name value : String) :
    (ofList [(name, value)]).toVariables = [customVariable (customName name) (some value)] := rfl

/-- A command that is the token of the only variable comes to the value and nothing else. -/
theorem resolveCommand_ownToken {identifier : String} {shell : Shell}
    (hshell : Shell.identify identifier = .ok shell) {name : String}
    (hname : customName name = name) (value : String) (marked : Bool) :
    resolveCommand (String.ofList (Token.text ⟨marked, name.toList, []⟩)) identifier
        (ofList [(name, value)]).toVariables =
      .ok (.success (String.ofList (Token.text ⟨marked, name.toList, []⟩))
        (String.ofList
          (insertedText (some shell.quoting.encode) ⟨marked, name.toList, []⟩ value)) 1) := by
  let v := customVariable name (some value)
  have hv : ∀ w ∈ [v].map Instance.of, w.base.Regular := by
    simpa [v] using regular_customVariable name (some value)
  have hcheck : Run.checkSchemas ([v].map .of) = .ok () :=
    (Run.checkSchemas_eq_ok_iff _).2 fun w hw => (hv w hw).schema
  have hspelled : Text.sameFolded (customName name).toList name.toList := by
    rw [hname]
    exact Text.sameFolded_refl _
  have hturn := turn_marked_customVariable (some shell.quoting.encode) hspelled (some value) marked
  obtain ⟨left, hres⟩ := exists_resolveContent_eq_turns (some shell.quoting.encode) hv
    (String.ofList (Token.text ⟨marked, name.toList, []⟩))
  rw [toVariables_ofList_singleton, hname, resolveCommand_eq hshell, hcheck]
  dsimp only
  rw [resolveOnce, hres, Instance.map_base_of, String.toList_ofList, turns_singleton, hturn]
  rfl

theorem tokenOf_eq (name : String) :
    tokenOf name = String.ofList (Token.text ⟨false, name.toList, []⟩) := by
  rw [← toList_tokenOf, String.ofList_toList]

theorem tokenOf_marked_eq (name : String) :
    tokenOf ("!" ++ name) = String.ofList (Token.text ⟨true, name.toList, []⟩) := by
  rw [tokenOf_eq]
  simp [Token.text]

/-! ## All the way -/

structure Arrives (name value : String) : Prop where
  /-- The name has the one form that names have, and is more than the underscore. -/
  normal : customName name = name
  head : name.toList.head? = some '_'
  length : 2 ≤ name.length
  /-- A set of them alone has the variable of this name and no other. -/
  alone : (ofList [(name, value)]).toVariables = [customVariable name (some value)]
  /-- In every shell the token of the name becomes the value, escaped, -/
  escaped : ∀ identifier shell, Shell.identify identifier = .ok shell →
    resolveCommand (tokenOf name) identifier (ofList [(name, value)]).toVariables =
      .ok (.success (tokenOf name) (shell.escape value) 1)
  /-- and with the mark against escaping the value itself. -/
  verbatim : ∀ identifier shell, Shell.identify identifier = .ok shell →
    resolveCommand (tokenOf ("!" ++ name)) identifier (ofList [(name, value)]).toVariables =
      .ok (.success (tokenOf ("!" ++ name)) value 1)

theorem Assignment.customName_name (a : Assignment) : customName a.name = a.name :=
  customName_customName a.before

theorem Assignment.arrives (a : Assignment) : Arrives a.name a.value where
  normal := a.customName_name
  head := head?_customName a.before
  length := two_le_length_customName a.named
  alone := by rw [toVariables_ofList_singleton, a.customName_name]
  escaped identifier shell hshell := by
    have hhead : a.name.toList.head? ≠ some '!' := by
      rw [name, head?_customName]
      decide
    rw [tokenOf_eq, resolveCommand_ownToken hshell a.customName_name,
      insertedText_unmarked _ hhead]
    rfl
  verbatim identifier shell hshell := by
    have hinserted : insertedText (some shell.quoting.encode) ⟨true, a.name.toList, []⟩ a.value =
        a.value.toList := rfl
    rw [tokenOf_marked_eq, resolveCommand_ownToken hshell a.customName_name,
      hinserted, String.ofList_toList]

structure AssignmentReaches (text : String) : Prop where
  /-- What is read is the name in front of the first `=` and all that is behind it. -/
  read_iff : ∀ e, parseAssignment text = some e ↔
    ∃ a : Assignment, a.text = text ∧ (a.name, a.value) = e
  reaches : ∀ name value, parseAssignment text = some (name, value) → Arrives name value

/-- An assignment reaches the token of its name as it was written, whatever it is made of. -/
theorem assignment_reaches_token (text : String) : AssignmentReaches text where
  read_iff _ := parseAssignment_eq_some_iff
  reaches name value h := by
    obtain ⟨a, -, he⟩ := parseAssignment_eq_some_iff.1 h
    obtain ⟨rfl, rfl⟩ := Prod.mk.inj he
    exact a.arrives

/-- The value looks like the token that it stands for, and the name like the end of one. -/
example : parseAssignment " a.*\x7d\x7d:\n\t=\x7b\x7b_a.*\x7d\x7d:\x7d\x7d = 'b'" =
      some ("_a.*\x7d\x7d:", "\x7b\x7b_a.*\x7d\x7d:\x7d\x7d = 'b'") ∧
    resolveCommand "\x7b\x7b!_a.*\x7d\x7d:\x7d\x7d" "sh" (ofList [("_a.*\x7d\x7d:",
        "\x7b\x7b_a.*\x7d\x7d:\x7d\x7d = 'b'")]).toVariables =
      .ok (.success "\x7b\x7b!_a.*\x7d\x7d:\x7d\x7d"
        "\x7b\x7b_a.*\x7d\x7d:\x7d\x7d = 'b'" 1) := by decide +kernel

end CustomSet
end CommandTemplate
