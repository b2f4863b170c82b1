import CommandTemplate.Proofs.AsciiCase
import CommandTemplate.Proofs.Encounters
import CommandTemplate.Proofs.Paths
import CommandTemplate.Proofs.Requests
import CommandTemplate.Proofs.Template

/-!
# Options of the variables of the active file

A pattern admits an option in every spelling that folds to it; the variables read it back by lower
case or by the case of ASCII letters. The readings agree with the pattern on all spellings but one
kind: `ſ` folds to the `s` of `absolute` and is no `s` in lower case.
-/
namespace CommandTemplate

structure Host.HasFile (h : Host) (file folder : Path) : Prop where
  active : h.file = some file
  parent : Path.parent? file = some folder
  nonempty : folder ≠ []

def Variable.declaredOptions (v : Variable) : List String :=
  v.parameters.flatMap fun p => p.options.getD []

namespace Builtin

/-- The variables that are told by an option how to show the active file. -/
def optioned (h : Host) : List Variable := [filePath h, fileExtension h, folderPath h]

/-- What an option asks of a variable: the value for it. -/
inductive Asks (h : Host) (file folder : Path) : Variable → String → List Char → Prop where
  | filePath (mode : Path.Mode) :
    Asks h file folder (filePath h) mode.name (Path.display file mode h.directory)
  | folderPath (mode : Path.Mode) :
    Asks h file folder (folderPath h) mode.name (Path.display folder mode h.directory)
  | withDot : Asks h file folder (fileExtension h) "with-dot" (extensionText file true)
  | noDot : Asks h file folder (fileExtension h) "no-dot" (extensionText file false)

/-- The message for a spelling that lower case does not bring back to an option. -/
def unknownMode (name : String) (spelled : List Char) : String :=
  tokenOf name ++ ": " ++ ("unknown path mode '" ++ Text.lowercased (String.ofList spelled) ++ "'")

/-- The occurrence is read as the one option that admitted it; only a long s in `absolute` is not
seen through. -/
structure ReadsOption (h : Host) (file folder : Path) (v : Variable) (o : Occurrence)
    (option : String) (spelled value : List Char) : Prop where
  captured : o.token.arguments = [some spelled]
  declared : option ∈ v.declaredOptions
  spells : Text.sameFolded option.toList spelled
  unique : ∀ other ∈ v.declaredOptions, Text.sameFolded other.toList spelled → other = option
  asks : Asks h file folder v option value
  understood : 'ſ' ∉ spelled → v.answerAt o = .ok (String.ofList value)
  confused : 'ſ' ∈ spelled →
    option = "absolute" ∧ v.answerAt o = .error [unknownMode v.name spelled]

/-! ## Reading a spelling -/

/-- A token of a variable with one choice to make spells one of the options. -/
theorem exists_spelled {v : Variable} {parameter : String} {options : List String}
    (hv : v.parameters = [.choice parameter options]) {s : List Char} {o : Occurrence}
    (ho : o ∈ v.found s) : ∃ spelled, o.token.arguments = [some spelled] ∧
      ∃ option ∈ v.declaredOptions, Text.sameFolded option.toList spelled := by
  obtain ⟨a, harguments, ha⟩ := Variable.exists_argument_of_mem_found hv ho
  have hdeclared : v.declaredOptions = options := by
    rw [Variable.declaredOptions, hv]
    exact List.append_nil options
  rw [harguments, hdeclared]
  cases a with
  | none => cases ha
  | some spelled =>
    obtain ⟨shape, hshape, hadmits⟩ := ha
    cases options with
    | nil => cases hshape
    | cons option options =>
      obtain rfl := Except.ok.inj hshape
      obtain ⟨word, hword, hspelled⟩ := hadmits
      obtain ⟨option', hoption', rfl⟩ := List.mem_map.1 hword
      exact ⟨spelled, rfl, option', hoption', hspelled⟩

theorem text?_captured (parameter : String) (options : List String) (spelled : List Char) :
    Arguments.text? (.ofList (captured [.choice parameter options] [some spelled])) parameter =
      some (String.ofList spelled) := by
  have hcaptured : captured [.choice parameter options] [some spelled] =
      [(parameter, .text (String.ofList spelled))] := rfl
  rw [hcaptured, Arguments.text?, Dict.ofList, List.foldl_cons, List.foldl_nil,
    Dict.get?_insert_self]
  rfl

theorem isAscii_modeName (mode : Path.Mode) : Text.IsAscii mode.name.toList := by
  cases mode <;> decide

/-- Lower case brings a spelling back to its mode if and only if there is no long s in it. -/
theorem ofText?_of_sameFolded {mode : Path.Mode} {spelled : List Char}
    (h : Text.sameFolded mode.name.toList spelled) :
    Path.Mode.ofText? (String.ofList spelled) = if 'ſ' ∈ spelled then none else some mode := by
  rw [Path.Mode.ofText?, String.toList_ofList]
  split
  · rename_i hlong
    have hlower := Text.longS_mem_lower hlong
    rw [List.find?_eq_none]
    intro m _ hm
    rw [beq_iff_eq] at hm
    rw [← hm] at hlower
    exact absurd (isAscii_modeName m _ hlower) (by decide)
  · rename_i hlong
    have hword := isAscii_modeName mode
    have hkelvin : '\u212A' ∉ spelled :=
      Text.kelvin_not_mem hword h (by cases mode <;> decide)
    have hascii := Text.isAscii_of_sameFolded hword h hlong hkelvin
    rw [Text.lower_of_ascii hascii, Text.map_toLower_of_sameFolded hword hascii h]
    cases mode <;> decide

/-- A mode is understood in every spelling without a long s. -/
theorem requireMode_captured {mode : Path.Mode} {spelled : List Char}
    (h : Text.sameFolded mode.name.toList spelled) (name : String) :
    requireMode (.ofList (captured [pathMode] [some spelled])) "mode" name =
      if 'ſ' ∈ spelled then .error ⟨[unknownMode name spelled]⟩ else .ok mode := by
  have hmode := ofText?_of_sameFolded h
  rw [requireMode, pathMode, text?_captured]
  by_cases hlong : 'ſ' ∈ spelled
  · rw [if_pos hlong] at hmode ⊢
    dsimp only
    rw [hmode]
    rfl
  · rw [if_neg hlong] at hmode ⊢
    dsimp only
    rw [hmode]

theorem isAscii_of_spells_dot {option : String} (hoption : option ∈ ["with-dot", "no-dot"])
    {spelled : List Char} (h : Text.sameFolded option.toList spelled) : Text.IsAscii spelled := by
  have hoptions : ∀ option ∈ ["with-dot", "no-dot"], Text.IsAscii option.toList ∧
      's' ∉ option.toList.map Char.toLower ∧ 'k' ∉ option.toList.map Char.toLower := by decide
  obtain ⟨hword, hs, hk⟩ := hoptions option hoption
  exact Text.isAscii_of_sameFolded hword h (Text.longS_not_mem hword h hs)
    (Text.kelvin_not_mem hword h hk)

/-- The two options for a dot are told apart by ASCII case in all their spellings. -/
theorem sameAsciiCase_withDot {option : String} (hoption : option ∈ ["with-dot", "no-dot"])
    {spelled : List Char} (h : Text.sameFolded option.toList spelled) :
    Text.sameAsciiCase "with-dot" (String.ofList spelled) = (option == "with-dot") := by
  have hword : ∀ option ∈ ["with-dot", "no-dot"], Text.IsAscii option.toList := by decide
  have hoptions : ∀ option ∈ ["with-dot", "no-dot"], Text.sameAsciiCase "with-dot" option =
      (option == "with-dot") := by decide
  have hlower := Text.map_toLower_of_sameFolded (hword option hoption)
    (isAscii_of_spells_dot hoption h) h
  rw [← hoptions option hoption, Text.sameAsciiCase, Text.sameAsciiCase, ← hlower]
  simp

/-! ## The answers -/

variable {h : Host} {file folder : Path}

section
variable (hfile : h.HasFile file folder)
include hfile

theorem requireFile_eq (name : String) : requireFile h name = .ok file := by
  rw [requireFile, hfile.active]

theorem requireFolder_eq (name : String) : requireFolder file name = .ok folder := by
  obtain ⟨c, cs, rfl⟩ := List.exists_cons_of_ne_nil hfile.nonempty
  rw [requireFolder, hfile.parent]

/-- Neither option of the extension has an s or a k, so every spelling of them is understood. -/
theorem respond_fileExtension {option : String} (hoption : option ∈ ["with-dot", "no-dot"])
    {spelled : List Char} (hspelled : Text.sameFolded option.toList spelled) :
    (fileExtension h).respond (.ofList (captured (fileExtension h).parameters [some spelled])) =
      .ok (String.ofList (extensionText file (option == "with-dot"))) := by
  have htext := text?_captured "dot" ["with-dot", "no-dot"] spelled
  rw [Variable.respond]
  simp only [fileExtension, requireFile_eq hfile, htext, Option.map_some, Option.getD_some,
    sameAsciiCase_withDot hoption hspelled]
  rfl

end

/-- ASCII options that differ by more than case. -/
def Unlike (options : List String) : Prop :=
  ∀ option ∈ options, Text.IsAscii option.toList ∧ ∀ other ∈ options,
    other.toList.map Char.toLower = option.toList.map Char.toLower → other = option

instance (options : List String) : Decidable (Unlike options) :=
  inferInstanceAs (Decidable (∀ option ∈ options, _ ∧ _))

/-- No text spells two of them. -/
theorem Unlike.unique {options : List String} (h : Unlike options) {option : String}
    (hoption : option ∈ options) {spelled : List Char}
    (hspelled : Text.sameFolded option.toList spelled) :
    ∀ other ∈ options, Text.sameFolded other.toList spelled → other = option := by
  intro other hother hsame
  simp only [Text.sameFolded, beq_iff_eq] at hspelled hsame
  obtain ⟨hascii, hunlike⟩ := h option hoption
  refine hunlike other hother ?_
  rw [← Text.map_fold_of_ascii (h other hother).1, ← Text.map_fold_of_ascii hascii, hsame, hspelled]

/-- A variable that fails for the mode only is asked for what it shows in the mode. -/
theorem readsOption_of_mode {v : Variable} (hv : v.parameters = [pathMode])
    {shown : Path.Mode → List Char} (hasks : ∀ mode, Asks h file folder v mode.name (shown mode))
    (hgenerate : ∀ a n, v.generate a n =
      (requireMode a "mode" v.name).map fun mode => String.ofList (shown mode))
    {s : List Char} {o : Occurrence} (ho : o ∈ v.found s) :
    ∃ option spelled value, ReadsOption h file folder v o option spelled value := by
  obtain ⟨spelled, hcaptured, option, hoption, hspelled⟩ := exists_spelled hv ho
  have hdeclared : v.declaredOptions = ["absolute", "relative"] := by
    rw [Variable.declaredOptions, hv]
    rfl
  have hunlike : Unlike v.declaredOptions := by
    rw [hdeclared]
    decide
  obtain ⟨mode, rfl⟩ : ∃ mode : Path.Mode, mode.name = option := by
    rw [hdeclared] at hoption
    rcases List.mem_pair.1 hoption with rfl | rfl
    · exact ⟨.absolute, rfl⟩
    · exact ⟨.relative, rfl⟩
  have hmode := requireMode_captured hspelled v.name
  refine ⟨mode.name, spelled, shown mode, hcaptured, hoption, hspelled,
    hunlike.unique hoption hspelled, hasks mode, fun hlong => ?_, fun hlong => ⟨?_, ?_⟩⟩
  · rw [if_neg hlong] at hmode
    rw [Variable.answerAt, Variable.respond, hcaptured, hv, hgenerate, hmode]
    rfl
  · cases mode with
    | absolute => rfl
    | relative =>
      -- there is no s in this word that a long s could stand for
      exact absurd hlong (Text.longS_not_mem (isAscii_modeName .relative) hspelled (by decide))
  · rw [if_pos hlong] at hmode
    rw [Variable.answerAt, Variable.respond, hcaptured, hv, hgenerate, hmode]
    rfl

section
variable (hfile : h.HasFile file folder)
include hfile

theorem readsOption_of_dot {s : List Char} {o : Occurrence} (ho : o ∈ (fileExtension h).found s) :
    ∃ option spelled value, ReadsOption h file folder (fileExtension h) o option spelled value := by
  obtain ⟨spelled, hcaptured, option, hoption, hspelled⟩ := exists_spelled rfl ho
  have hpair : option ∈ ["with-dot", "no-dot"] := hoption
  have hunlike : Unlike (fileExtension h).declaredOptions :=
    show Unlike ["with-dot", "no-dot"] by decide
  have hlong : 'ſ' ∉ spelled := fun hmem =>
    absurd (isAscii_of_spells_dot hpair hspelled _ hmem) (by decide)
  have hasks : Asks h file folder (fileExtension h) option
      (extensionText file (option == "with-dot")) := by
    rcases List.mem_pair.1 hpair with rfl | rfl
    · exact .withDot
    · exact .noDot
  refine ⟨option, spelled, _, hcaptured, hoption, hspelled, hunlike.unique hoption hspelled, hasks,
    fun _ => ?_, fun hmem => absurd hmem hlong⟩
  rw [Variable.answerAt, hcaptured]
  exact respond_fileExtension hfile hpair hspelled

theorem generate_filePath (a : Arguments) (n : Nat) : (filePath h).generate a n =
    (requireMode a "mode" "file_path").map fun mode =>
      String.ofList (Path.display file mode h.directory) := by
  simp only [filePath, requireFile_eq hfile]
  cases requireMode a "mode" "file_path" <;> rfl

theorem generate_folderPath (a : Arguments) (n : Nat) : (folderPath h).generate a n =
    (requireMode a "mode" "folder_path").map fun mode =>
      String.ofList (Path.display folder mode h.directory) := by
  simp only [folderPath, requireFile_eq hfile, ok_bind, requireFolder_eq hfile]
  cases requireMode a "mode" "folder_path" <;> rfl

theorem readsOption {v : Variable} (hv : v ∈ optioned h) {s : List Char} {o : Occurrence}
    (ho : o ∈ v.found s) :
    ∃ option spelled value, ReadsOption h file folder v o option spelled value := by
  simp only [optioned, List.mem_cons, List.not_mem_nil, or_false] at hv
  rcases hv with rfl | rfl | rfl
  · exact readsOption_of_mode rfl .filePath (generate_filePath hfile) ho
  · exact readsOption_of_dot hfile ho
  · exact readsOption_of_mode rfl .folderPath (generate_folderPath hfile) ho

end

/-! ## Contents with no other tokens -/

theorem regular_of_mem_optioned {v : Variable} (hv : v ∈ optioned h) : v.Regular := by
  simp only [optioned, List.mem_cons, List.not_mem_nil, or_false] at hv
  rcases hv with rfl | rfl | rfl
  all_goals exact ⟨wellFormed_singleton rfl, List.nodup_singleton _, fun _ _ _ => rfl⟩

theorem mem_of_mem_extensionText {c : Char} (hslash : c ≠ '/') (hdot : c ≠ '.') {withDot : Bool}
    (h : c ∈ extensionText file withDot) : c ∈ Text.lossy file := by
  have hextension : c ∈ Text.lossy (((Path.fileName? file).bind Path.extension?).getD []) := by
    rw [extensionText] at h
    split at h
    · exact (List.mem_cons.1 h).resolve_left hdot
    · exact h
  cases hname : (Path.fileName? file).bind Path.extension? with
  | none => simp [hname] at hextension
  | some extension =>
    obtain ⟨name, hfile, hbehind⟩ := Option.bind_eq_some_iff.1 hname
    rw [hname, Option.getD_some] at hextension
    exact Path.mem_lossy_of_mem_fileName? hslash hfile
      (Path.mem_lossy_of_mem_extension? hbehind hextension)

/-- What is shown of a file is written with the characters that are read of its path and of the
folder that it is seen from, with separators and with dots. -/
theorem Asks.mem_of_mem_value {v : Variable} {option : String} {value : List Char}
    (hasks : Asks h file folder v option value) (hfile : h.HasFile file folder) {c : Char}
    (hslash : c ≠ '/') (hdot : c ≠ '.') (hc : c ∈ value) :
    c ∈ Text.lossy file ∨ c ∈ Text.lossy h.directory := by
  cases hasks with
  | filePath mode => exact Path.mem_of_mem_display hslash hdot hc
  | folderPath mode =>
    exact (Path.mem_of_mem_display hslash hdot hc).imp_left
      (Path.mem_lossy_of_mem_parent? hslash hdot hfile.parent)
  | withDot => exact .inl (mem_of_mem_extensionText hslash hdot hc)
  | noDot => exact .inl (mem_of_mem_extensionText hslash hdot hc)

end Builtin

structure OptionsResolved (h : Host) (file : Path) (escaper : Option Escaper)
    (vs : List Instance) (content : String) : Prop where
  /-- It resolves turn by turn, whatever the other variables are, -/
  outcome : ∃ left, resolveContent escaper vs content =
    .ok (left, .ofOutcome content (turns escaper (vs.map (·.base)) content.toList))
  /-- and that without a failure unless the argument of some token has a long s. -/
  succeeds_iff : (∃ t n, turns escaper (vs.map (·.base)) content.toList = .ok (t, n)) ↔
    ∀ v o spelled, Meets escaper (vs.map (·.base)) content.toList v o →
      some spelled ∈ o.token.arguments → 'ſ' ∉ spelled
  fails : ∀ messages, turns escaper (vs.map (·.base)) content.toList = .error messages →
    ∃ v o spelled, Meets escaper (vs.map (·.base)) content.toList v o ∧
      some spelled ∈ o.token.arguments ∧ 'ſ' ∈ spelled ∧
      messages = [Builtin.unknownMode v.name spelled]
  /-- No value brings a long s into the text that is not in a path, and no quotes do. -/
  plain : ∀ quoting : Option Quoting, escaper = quoting.map Quoting.encode →
    'ſ' ∉ content.toList → 'ſ' ∉ Text.lossy file → 'ſ' ∉ Text.lossy h.directory →
    ∃ t n, turns escaper (vs.map (·.base)) content.toList = .ok (t, n)

structure OptionsUnderstood (h : Host) (file folder : Path) : Prop where
  reads : ∀ v ∈ Builtin.optioned h, ∀ s, ∀ o ∈ v.found s, ∃ option spelled value,
    Builtin.ReadsOption h file folder v o option spelled value
  resolves : ∀ escaper (vs : List Instance) content,
    (∀ v ∈ vs, WellFormed v.base.parameters) →
    (∀ v o, Meets escaper (vs.map (·.base)) content.toList v o → v ∈ Builtin.optioned h) →
    OptionsResolved h file escaper vs content

/-- There is an answer just when no long s is among the letters. -/
theorem Builtin.ReadsOption.exists_answer_iff {h : Host} {file folder : Path} {v : Variable}
    {o : Occurrence} {option : String} {spelled value : List Char}
    (hreads : ReadsOption h file folder v o option spelled value) :
    (∃ answer, v.answerAt o = .ok answer) ↔ 'ſ' ∉ spelled := by
  constructor
  · rintro ⟨answer, hanswer⟩ hlong
    rw [(hreads.confused hlong).2] at hanswer
    cases hanswer
  · exact fun hlong => ⟨_, hreads.understood hlong⟩

section
variable {h : Host} {file folder : Path} {escaper : Option Escaper} {vs : List Variable}
  {s : List Char} (hreads : ∀ v o, Meets escaper vs s v o → ∃ option spelled value,
    Builtin.ReadsOption h file folder v o option spelled value)
include hreads

/-- The turns succeed just when no option that is met has a long s. -/
theorem exists_turns_iff_of_reads : (∃ t n, turns escaper vs s = .ok (t, n)) ↔
    ∀ v o spelled, Meets escaper vs s v o → some spelled ∈ o.token.arguments → 'ſ' ∉ spelled := by
  rw [exists_turns_eq_ok_iff]
  constructor
  · intro hanswers v o spelled hmeets hspelled
    obtain ⟨option, spelled', value, hread⟩ := hreads v o hmeets
    obtain rfl : spelled = spelled' := by simpa [hread.captured] using hspelled
    exact hread.exists_answer_iff.1 (hanswers v o hmeets)
  · intro hshort v o hmeets
    obtain ⟨option, spelled, value, hread⟩ := hreads v o hmeets
    exact hread.exists_answer_iff.2 (hshort v o spelled hmeets (by simp [hread.captured]))

/-- What fails is an option with a long s, and the message shows it. -/
theorem fails_of_reads {messages : List String} (herror : turns escaper vs s = .error messages) :
    ∃ v o spelled, Meets escaper vs s v o ∧ some spelled ∈ o.token.arguments ∧ 'ſ' ∈ spelled ∧
      messages = [Builtin.unknownMode v.name spelled] := by
  obtain ⟨done, v, more, t, n, hsplit, hdone, before, o, after, hfound, -, hanswer⟩ :=
    (turns_eq_error_iff ..).1 herror
  have hmeets : Meets escaper vs s v o := ⟨done, more, t, n, hsplit, hdone, by simp [hfound]⟩
  obtain ⟨option, spelled, value, hread⟩ := hreads v o hmeets
  have hlong : 'ſ' ∈ spelled := by
    by_contra hshort
    rw [hread.understood hshort] at hanswer
    cases hanswer
  rw [(hread.confused hlong).2] at hanswer
  exact ⟨v, o, spelled, hmeets, by simp [hread.captured], hlong, (Except.error.inj hanswer).symm⟩

/-- A long s that was nowhere before does not come in with the values. -/
theorem exists_turns_of_reads (hfile : h.HasFile file folder) {quoting : Option Quoting}
    (hescaper : escaper = quoting.map Quoting.encode) (hs : 'ſ' ∉ s)
    (hpath : 'ſ' ∉ Text.lossy file) (hdirectory : 'ſ' ∉ Text.lossy h.directory) :
    ∃ t n, turns escaper vs s = .ok (t, n) := by
  refine (exists_turns_iff_of_reads hreads).2 fun v o spelled hmeets hspelled hlong => ?_
  refine hmeets.not_mem hs (fun v' o' answer hmeets' hanswer => ?_)
    (Token.mem_text_of_mem_argument hspelled hlong)
  obtain ⟨option, spelled', value, hread⟩ := hreads v' o' hmeets'
  have hshort := hread.exists_answer_iff.1 ⟨answer, hanswer⟩
  obtain rfl : answer = String.ofList value :=
    Except.ok.inj (hanswer.symm.trans (hread.understood hshort))
  -- a value is written with the characters of the paths, and escaping adds none but quotes
  have hvalue : 'ſ' ∉ value := fun hmem =>
    (hread.asks.mem_of_mem_value hfile (by decide) (by decide) hmem).elim hpath hdirectory
  exact hescaper ▸ not_mem_insertedText (by decide) (by decide) quoting o'.token hvalue

end

theorem options_resolved {h : Host} {file folder : Path} (hfile : h.HasFile file folder)
    {escaper : Option Escaper} {vs : List Instance} {content : String}
    (hvs : ∀ v ∈ vs, WellFormed v.base.parameters)
    (hmet : ∀ v o, Meets escaper (vs.map (·.base)) content.toList v o →
      v ∈ Builtin.optioned h) : OptionsResolved h file escaper vs content := by
  have hreads : ∀ v o, Meets escaper (vs.map (·.base)) content.toList v o →
      ∃ option spelled value, Builtin.ReadsOption h file folder v o option spelled value := by
    intro v o hmeets
    obtain ⟨s, ho⟩ := hmeets.exists_found
    exact Builtin.readsOption hfile (hmet v o hmeets) ho
  constructor
  case outcome =>
    exact exists_resolveContent_of_met escaper hvs fun v o hmeets =>
      Builtin.regular_of_mem_optioned (hmet v o hmeets)
  case succeeds_iff => exact exists_turns_iff_of_reads hreads
  case fails => exact fun messages => fails_of_reads hreads
  case plain => exact fun quoting hescaper => exists_turns_of_reads hreads hfile hescaper

/-- An option is read as what its pattern took it for, in every spelling but those of `absolute`
with a long s. -/
theorem options_understood (h : Host) (file folder : Path) (hfile : h.HasFile file folder) :
    OptionsUnderstood h file folder where
  reads _ hv _ _ ho := Builtin.readsOption hfile hv ho
  resolves _ _ _ hvs hmet := options_resolved hfile hvs hmet

def notesHost : Host := bareSurroundings.host .sh (some (.ofText "notes/today.md")) none none

theorem hasFile_notesHost :
    notesHost.HasFile (.ofText "/work/notes/today.md") (.ofText "/work/notes") := by
  constructor <;> decide +kernel

/-- The variables of the active file, and one of which nobody can foretell what it gives. -/
def notesVariables : List Variable := Builtin.optioned notesHost ++ [Builtin.uuid notesHost]

def notesContent : String :=
  "\x7b\x7bFILE_PATH:Relative\x7d\x7d \x7b\x7bfile_extenſion:With-Dot\x7d\x7d"

theorem wellFormed_notesVariables :
    ∀ v ∈ notesVariables.map Instance.of, WellFormed v.base.parameters := by
  intro v hv
  obtain ⟨w, hw, rfl⟩ := List.mem_map.1 hv
  refine Builtin.wellFormed_of_mem_all (h := notesHost) ?_
  simp only [notesVariables, Builtin.optioned, List.cons_append, List.nil_append, List.mem_cons,
    List.not_mem_nil, or_false] at hw
  simp only [Builtin.all, List.mem_cons]
  rcases hw with rfl | rfl | rfl | rfl <;> simp

/-- A long s in a name does no harm. -/
theorem turns_notes : turns none (Builtin.optioned notesHost) notesContent.toList =
    .ok ("notes/today.md .md".toList, 2) := by decide +kernel

theorem met_notes {v : Variable} {o : Occurrence}
    (h : Meets none notesVariables notesContent.toList v o) : v ∈ Builtin.optioned notesHost := by
  rcases meets_concat_iff.1 h with h | ⟨-, t, n, hturns, ho⟩
  · exact h.mem
  · rw [turns_notes] at hturns
    obtain ⟨rfl, -⟩ := Prod.mk.inj (Except.ok.inj hturns)
    rw [Variable.found_of_unopened _ (by decide)] at ho
    cases ho

theorem options_understood_notes :
    notesHost.HasFile (.ofText "/work/notes/today.md") (.ofText "/work/notes") ∧
      ∃ left, resolveContent none (notesVariables.map Instance.of) notesContent =
        .ok (left, .success notesContent "notes/today.md .md" 2) := by
  have hunderstood := options_understood notesHost _ _ hasFile_notesHost
  have hresolved := hunderstood.resolves none (notesVariables.map Instance.of) notesContent
    wellFormed_notesVariables (by
      rw [Instance.map_base_of]
      exact fun v o => met_notes)
  refine ⟨hasFile_notesHost, ?_⟩
  obtain ⟨left, hleft⟩ := hresolved.outcome
  rw [Instance.map_base_of, notesVariables, turns_append turns_notes,
    turns_of_unopened none _ (by decide)] at hleft
  exact ⟨left, hleft⟩

def longContent : String := "\x7b\x7bfile_path:abſolute\x7d\x7d"

/-- To the pattern a long s is an s in another case, but not to the option. -/
theorem longS_not_understood :
    notesHost.HasFile (.ofText "/work/notes/today.md") (.ofText "/work/notes") ∧
      (Builtin.filePath notesHost).found longContent.toList =
        [⟨0, 23, ⟨false, "file_path".toList, [some "abſolute".toList]⟩⟩] ∧
      Text.sameFolded "absolute".toList "abſolute".toList ∧
      ∃ left, resolveContent none [.of (Builtin.filePath notesHost)] longContent =
        .ok (left, .failure longContent
          ["\x7b\x7bfile_path\x7d\x7d: unknown path mode 'abſolute'"]) := by
  have hturns : turns none [Builtin.filePath notesHost] longContent.toList =
      .error ["\x7b\x7bfile_path\x7d\x7d: unknown path mode 'abſolute'"] := by decide +kernel
  have hregular : ∀ v ∈ [Instance.of (Builtin.filePath notesHost)], v.base.Regular := by
    intro v hv
    rw [List.mem_singleton.1 hv]
    exact Builtin.regular_of_mem_optioned (List.mem_cons_self ..)
  obtain ⟨left, hleft⟩ := exists_resolveContent_eq_turns none hregular longContent
  rw [List.map_singleton, Instance.of, hturns] at hleft
  exact ⟨hasFile_notesHost, by decide +kernel, by decide +kernel, left, hleft⟩

end CommandTemplate
