import CommandTemplate.Proofs.AsciiCase
import CommandTemplate.Proofs.RequestErrors
import CommandTemplate.Proofs.Trimming

/-!
# Identifiers of shells

A shell is named by the word at the end of an identifier. The directory in front of it, the blanks
around it and its case do not matter, and one `.exe` may follow the name. No identifier names two
shells, and one that names none is reported as it was given, before anything is escaped or resolved.
-/
namespace CommandTemplate

/-! ## Blanks in lower case -/

namespace Text

set_option maxRecDepth 4000 in
theorem lowerShifts_avoid_blank : ∀ s ∈ lowerShifts, ∀ r ∈ blank, s.last < r.1 ∨ r.2 < s.first := by
  decide

/-- Blanks have no lower case, so lowering neither makes nor removes one. -/
theorem shiftChar_lowerShifts_of_blank {c : Char} (h : isBlank c) :
    shiftChar lowerShifts c = c := by
  obtain ⟨r, hr, hrange⟩ := List.any_eq_true.1 h
  simp only [Bool.and_eq_true, decide_eq_true_eq] at hrange
  rcases shiftChar_cases lowerShifts c with hkept | ⟨s, hs, hsource, -⟩
  · exact hkept
  · have havoid := lowerShifts_avoid_blank s hs r hr
    omega

/-- Lower case leaves blanks where they are. -/
theorem blank_mem_lower {s : List Char} {c : Char} (hc : isBlank c) (h : c ∈ s) : c ∈ lower s := by
  have hsigma : c ≠ 'Σ' := by
    rintro rfl
    exact absurd hc (by decide)
  have hdotted : c ≠ 'İ' := by
    rintro rfl
    exact absurd hc (by decide)
  exact mem_lowerAfter hsigma hdotted (shiftChar_lowerShifts_of_blank hc) [] h

end Text

namespace Shell

/-! ## The parts of an identifier -/

/-- A directory up to its last separator, if there is one, and behind it a word among blanks. -/
structure Identifier where
  directory : List Char
  before : List Char
  word : List Char
  after : List Char
  directory_ends : ∀ c ∈ directory.getLast?, isSeparator c
  before_blank : ∀ c ∈ before, Text.isBlank c
  word_plain : ∀ c ∈ word, isSeparator c = false
  after_blank : ∀ c ∈ after, Text.isBlank c

def Identifier.text (i : Identifier) : String :=
  String.ofList (i.directory ++ (i.before ++ (i.word ++ i.after)))

def exe : List Char := ['.', 'e', 'x', 'e']

/-- In lower case the word is the name of the shell, with one `.exe` behind it or without. -/
def Spells (s : Shell) (word : List Char) : Prop :=
  Text.lower word = s.name.toList ∨ Text.lower word = s.name.toList ++ exe

/-- The identifier can be written as one whose word spells the shell. -/
def Denotes (id : String) (s : Shell) : Prop := ∃ i : Identifier, i.text = id ∧ s.Spells i.word

theorem isSeparator_of_blank {c : Char} (h : Text.isBlank c) : isSeparator c = false := by
  have hslash : c ≠ '/' := by
    rintro rfl
    exact absurd h (by decide)
  have hbackslash : c ≠ '\\' := by
    rintro rfl
    exact absurd h (by decide)
  simp [isSeparator, hslash, hbackslash]

theorem baseName_append {directory rest : List Char}
    (hdirectory : ∀ c ∈ directory.getLast?, isSeparator c)
    (hrest : ∀ c ∈ rest, isSeparator c = false) : baseName (directory ++ rest) = rest := by
  have hstop : directory.reverse.takeWhile (fun c => !isSeparator c) = [] := by
    cases hreverse : directory.reverse with
    | nil => rfl
    | cons c cs =>
      have hlast : directory.getLast? = some c := by
        rw [← List.head?_reverse, hreverse, List.head?_cons]
      exact List.takeWhile_cons_of_neg (by simp [hdirectory c hlast])
  have hgo : ∀ c ∈ rest.reverse, (!isSeparator c) = true := by simpa using hrest
  rw [baseName, List.reverse_append, List.takeWhile_append_of_pos hgo, hstop, List.append_nil,
    List.reverse_reverse]

/-- Every identifier is a directory and a name without separators behind it. -/
theorem exists_directory (id : List Char) : ∃ directory, id = directory ++ baseName id ∧
    (∀ c ∈ directory.getLast?, isSeparator c) ∧ ∀ c ∈ baseName id, isSeparator c = false := by
  refine ⟨(id.reverse.dropWhile fun c => !isSeparator c).reverse, ?_, ?_, ?_⟩
  · rw [baseName, ← List.reverse_append, List.takeWhile_append_dropWhile, List.reverse_reverse]
  · intro c hc
    rw [List.getLast?_reverse] at hc
    have hstop := List.head?_dropWhile_not (fun c => !isSeparator c) id.reverse
    rw [Option.mem_def.1 hc] at hstop
    simpa using hstop
  · intro c hc
    simpa using List.mem_takeWhile_imp (List.mem_reverse.1 hc)

/-- Every identifier has a directory, maybe an empty one, and a word without blanks at its ends. -/
theorem exists_identifier (id : String) : ∃ i : Identifier, i.text = id ∧ Text.Trimmed i.word := by
  obtain ⟨directory, hid, hends, hplain⟩ := exists_directory id.toList
  obtain ⟨before, after, hbefore, hafter, hbase⟩ := Text.exists_trim (baseName id.toList)
  have hword : ∀ c ∈ Text.trim (baseName id.toList), isSeparator c = false := by
    intro c hc
    refine hplain c ?_
    rw [hbase]
    exact List.mem_append_right _ (List.mem_append_left _ hc)
  refine ⟨⟨directory, before, _, after, hends, hbefore, hword, hafter⟩, ?_, Text.trimmed_trim _⟩
  rw [Identifier.text]
  dsimp only
  rw [← hbase, ← hid, String.ofList_toList]

theorem programName_text {i : Identifier} (h : Text.Trimmed i.word) :
    programName i.text = stripExe (Text.lower i.word) := by
  have hrest : ∀ c ∈ i.before ++ (i.word ++ i.after), isSeparator c = false := by
    intro c hc
    rcases List.mem_append.1 hc with hc | hc
    · exact isSeparator_of_blank (i.before_blank c hc)
    · rcases List.mem_append.1 hc with hc | hc
      · exact i.word_plain c hc
      · exact isSeparator_of_blank (i.after_blank c hc)
  rw [programName, Identifier.text, String.toList_ofList, baseName_append i.directory_ends hrest,
    Text.trim_between i.before_blank h i.after_blank]

/-! ## Names -/

theorem eq_of_name_eq {s t : Shell} (h : s.name.toList = t.name.toList) : s = t := by
  cases s <;> cases t <;> first | rfl | exact absurd h (by decide)

theorem not_exe_suffix_name (s : Shell) : ¬exe <:+ s.name.toList := by
  cases s <;> decide

theorem not_blank_of_mem_name (s : Shell) : ∀ c ∈ s.name.toList ++ exe, Text.isBlank c = false := by
  rw [← List.forall_iff_forall_mem]
  cases s <;> decide

theorem stripExe_append (stem : List Char) : stripExe (stem ++ exe) = stem := by
  have hsuffix : exe.isSuffixOf (stem ++ exe) = true :=
    List.isSuffixOf_iff_suffix.2 (List.suffix_append _ _)
  rw [stripExe, ← exe, if_pos hsuffix]
  simp [exe]

/-- One `.exe` is taken off, and what is left is the whole name. -/
theorem stripExe_eq_name_iff {s : Shell} {word : List Char} :
    stripExe word = s.name.toList ↔ word = s.name.toList ∨ word = s.name.toList ++ exe := by
  by_cases hsuffix : exe <:+ word
  · obtain ⟨stem, rfl⟩ := hsuffix
    have hname : stem ++ exe ≠ s.name.toList := fun heq =>
      s.not_exe_suffix_name (heq ▸ List.suffix_append _ _)
    rw [stripExe_append, List.append_left_inj, or_iff_right hname]
  · have hname : word ≠ s.name.toList ++ exe := by
      rintro rfl
      exact hsuffix (List.suffix_append _ _)
    have hstrip : stripExe word = word :=
      if_neg fun h => hsuffix (List.isSuffixOf_iff_suffix.1 h)
    rw [hstrip, or_iff_left hname]

/-- A word that spells a name has no blanks at all. -/
theorem Spells.trimmed {s : Shell} {word : List Char} (h : s.Spells word) : Text.Trimmed word := by
  refine Text.trimmed_of_not_blank fun c hc => ?_
  by_contra hblank
  rw [Bool.not_eq_false] at hblank
  have hmem : c ∈ s.name.toList ++ exe := by
    have hlower := Text.blank_mem_lower hblank hc
    rcases h with h | h
    · exact List.mem_append_left _ (h ▸ hlower)
    · exact h ▸ hlower
  rw [s.not_blank_of_mem_name c hmem] at hblank
  cases hblank

/-- A shell is identified by the program name alone. -/
theorem identify_eq_ok_iff {id : String} {s : Shell} :
    identify id = .ok s ↔ s.name.toList = programName id := by
  rw [identify]
  constructor
  · intro h
    split at h
    · rename_i t ht
      obtain rfl := Except.ok.inj h
      simpa using List.find?_some ht
    · cases h
  · intro h
    have hsome : (all.find? fun t => t.name.toList == programName id).isSome :=
      List.find?_isSome.2 ⟨s, s.mem_all, by simpa using h⟩
    obtain ⟨t, ht⟩ := Option.isSome_iff_exists.1 hsome
    have hname : t.name.toList = programName id := by simpa using List.find?_some ht
    rw [ht, eq_of_name_eq (hname.trans h.symm)]

/-- The word of an identifier decides which shell it names. -/
theorem identify_text_eq_ok_iff {i : Identifier} (h : Text.Trimmed i.word) (s : Shell) :
    identify i.text = .ok s ↔ s.Spells i.word := by
  rw [identify_eq_ok_iff, programName_text h, eq_comm, stripExe_eq_name_iff, Spells]

theorem identify_eq_ok_iff_denotes {id : String} {s : Shell} :
    identify id = .ok s ↔ Denotes id s := by
  constructor
  · intro h
    obtain ⟨i, rfl, htrimmed⟩ := exists_identifier id
    exact ⟨i, rfl, (identify_text_eq_ok_iff htrimmed s).1 h⟩
  · rintro ⟨i, rfl, hspells⟩
    exact (identify_text_eq_ok_iff hspells.trimmed s).2 hspells

/-- Behind a trailing separator there is no word left to name a shell. -/
theorem not_denotes_of_trailing {id : String} (h : ∃ c ∈ id.toList.getLast?, isSeparator c)
    (s : Shell) : ¬Denotes id s := by
  obtain ⟨c, hc, hseparator⟩ := h
  have hends : ∀ d ∈ id.toList.getLast?, isSeparator d := by
    intro d hd
    obtain rfl : c = d := Option.some.inj (hc.symm.trans hd)
    exact hseparator
  have hempty : programName id = [] := by
    have hbase : baseName (id.toList ++ []) = [] := baseName_append hends (by simp)
    rw [List.append_nil] at hbase
    rw [programName, hbase]
    rfl
  rw [← identify_eq_ok_iff_denotes, identify_eq_ok_iff, hempty]
  cases s <;> decide

/-! ## What an identifier comes to -/

structure Refused (id : String) : Prop where
  identified : identify id = .error (.unrecognizedShell id)
  escaped : ∀ settings value,
    escapeValue settings (some id) value = .error (.engine (.unrecognizedShell id))
  configured : ∀ settings : Settings, settings.shellIdentifier = id →
    (∀ value, escapeValue settings none value = .error (.engine (.unrecognizedShell id))) ∧
      ∀ w, catalogFor settings w = .error (.engine (.unrecognizedShell id))
  resolved : ∀ command vs, resolveCommand command id vs = .error (.unrecognizedShell id)

/-- An identifier that is not recognized is refused everywhere, with the same error. -/
theorem refused_of_identify {id : String} (h : identify id = .error (.unrecognizedShell id)) :
    Refused id where
  identified := h
  escaped settings value := by
    rw [escapeValue, Option.getD_some, h]
  configured settings hsettings := by
    refine ⟨fun value => ?_, fun w => ?_⟩
    · rw [escapeValue, Option.getD_none, hsettings, h]
    · rw [catalogFor, Settings.resolveShell, hsettings, h]
  resolved command vs := by
    rw [resolveCommand, h]
    rfl

structure IdentifierRead (id : String) : Prop where
  /-- An identifier is read as the shell that it denotes, -/
  ok_iff : ∀ s, identify id = .ok s ↔ Denotes id s
  /-- of which there is one at most. -/
  unique : ∀ s t, Denotes id s → Denotes id t → s = t
  /-- It has a directory and a word among blanks, -/
  exists_parts : ∃ i : Identifier, i.text = id ∧ Text.Trimmed i.word
  /-- of which only the word counts, in lower case and with one `.exe` put aside, -/
  word_decides : ∀ i : Identifier, i.text = id → Text.Trimmed i.word →
    ∀ s, identify id = .ok s ↔ s.Spells i.word
  /-- so that nothing is denoted where no word follows the last separator. -/
  trailing : (∃ c ∈ id.toList.getLast?, isSeparator c) → ∀ s, ¬Denotes id s
  /-- What denotes no shell is reported, and nothing is escaped or resolved. -/
  refused : (∀ s, ¬Denotes id s) → Refused id

/-- An identifier names the shell that it spells, whatever stands around the name. -/
theorem identifier_read (id : String) : IdentifierRead id where
  ok_iff _ := identify_eq_ok_iff_denotes
  unique s t hs ht := by
    rw [← identify_eq_ok_iff_denotes] at hs ht
    exact Except.ok.inj (hs.symm.trans ht)
  exists_parts := exists_identifier id
  word_decides := by
    rintro i rfl htrimmed
    exact identify_text_eq_ok_iff htrimmed
  trailing := not_denotes_of_trailing
  refused hnone := by
    refine refused_of_identify (identify_eq_error_iff.2 ⟨?_, rfl⟩)
    rintro ⟨s, hs⟩
    exact hnone s (identify_eq_ok_iff_denotes.1 (identify_eq_ok_iff.2 hs))

/-- The Kelvin sign is a capital `k`; a second `.exe` and a blank in front of one are no part of a
name. -/
example : identify "C:\\bin/ \u212AsH.Exe\n" = .ok .ksh ∧
    identify "bash.exe.exe" = .error (.unrecognizedShell "bash.exe.exe") ∧
    identify "bash .exe" = .error (.unrecognizedShell "bash .exe") := by decide +kernel

end Shell
end CommandTemplate
