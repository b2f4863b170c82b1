import CommandTemplate.Shell.Basic

/-!
# Verbatim strings

The rules by which a verbatim string is read, and that an escaped value is read by them as the value
and no further, whichever of the five quotes it has and wherever they stand.
-/
namespace CommandTemplate.PowerShell

def quotes : List Char := ['\'', '\u2018', '\u2019', '\u201A', '\u201B']

/-- A text from behind an opening quote on, what the string contributes, and what is behind it. -/
inductive Body : List Char → List Char → List Char → Prop
  | close {q : Char} {rest : List Char} :
    q ∈ quotes → (∀ c ∈ rest.head?, c ∉ quotes) → Body (q :: rest) [] rest
  | pair {q c : Char} {s value rest : List Char} :
    q ∈ quotes → c ∈ quotes → Body s value rest → Body (q :: c :: s) (c :: value) rest
  | other {c : Char} {s value rest : List Char} :
    c ∉ quotes → Body s value rest → Body (c :: s) (c :: value) rest

/-- A text that begins with a verbatim string. -/
inductive Verbatim : List Char → List Char → List Char → Prop
  | opened {q : Char} {s value rest : List Char} :
    q ∈ quotes → Body s value rest → Verbatim (q :: s) value rest

theorem isQuote_iff (c : Char) : isQuote c ↔ c ∈ quotes := by
  simp [isQuote, quotes, or_assoc]

/-! ## The reader -/

/-- What is read is by the rules, -/
theorem body_of_readBody {s value rest : List Char} (h : readBody s = some (value, rest)) :
    Body s value rest := by
  fun_induction readBody s generalizing value with
  | case1 => cases h
  | case2 c hc =>
    cases h
    exact .close ((isQuote_iff c).1 hc) (by simp)
  | case3 c hc => cases h
  | case4 c d s hc hd ih =>
    obtain ⟨⟨body, rest'⟩, hbody, heq⟩ := Option.map_eq_some_iff.1 h
    cases heq
    exact .pair ((isQuote_iff c).1 hc) ((isQuote_iff d).1 hd) (ih hbody)
  | case5 c d s hc hd =>
    cases h
    exact .close ((isQuote_iff c).1 hc) (by simpa [← isQuote_iff] using hd)
  | case6 c d s hc ih =>
    obtain ⟨⟨body, rest'⟩, hbody, heq⟩ := Option.map_eq_some_iff.1 h
    cases heq
    exact .other (by simpa [← isQuote_iff] using hc) (ih hbody)

/-- and what is by the rules is read. -/
theorem Body.readBody_eq {s value rest : List Char} (h : Body s value rest) :
    readBody s = some (value, rest) := by
  induction h with
  | @close q rest hq hrest =>
    have hquote := (isQuote_iff q).2 hq
    cases rest with
    | nil => simp [readBody, hquote]
    | cons c rest =>
      have hc : ¬isQuote c := by rw [isQuote_iff]; exact hrest c rfl
      simp [readBody, hquote, hc]
  | @pair q c s value rest hq hc _ ih =>
    simp [readBody, (isQuote_iff q).2 hq, (isQuote_iff c).2 hc, ih]
  | @other c s value rest hc h ih =>
    have hquote : ¬isQuote c := by rwa [isQuote_iff]
    cases s with
    | nil => cases h
    | cons d s => simp [readBody, hquote, ih]

/-- The reader gives exactly what the rules say. -/
theorem readVerbatim_eq_some_iff {s value rest : List Char} :
    readVerbatim s = some (value, rest) ↔ Verbatim s value rest := by
  constructor
  · intro h
    cases s with
    | nil => cases h
    | cons q s =>
      rw [readVerbatim] at h
      split at h
      · exact .opened ((isQuote_iff q).1 ‹_›) (body_of_readBody h)
      · cases h
  · rintro ⟨hq, hbody⟩
    rw [readVerbatim, if_pos ((isQuote_iff _).2 hq), hbody.readBody_eq]

/-- The rules leave no choice. -/
theorem Verbatim.unique {s value value' rest rest' : List Char} (h : Verbatim s value rest)
    (h' : Verbatim s value' rest') : value = value' ∧ rest = rest' := by
  have heq := (readVerbatim_eq_some_iff.2 h).symm.trans (readVerbatim_eq_some_iff.2 h')
  simpa using heq

/-! ## Escaped values -/

theorem body_doubled (value : List Char) {rest : List Char} (h : ∀ c ∈ rest.head?, c ∉ quotes) :
    Body (value.flatMap doubled ++ '\'' :: rest) value rest := by
  induction value with
  | nil => exact .close (by decide) h
  | cons c value ih =>
    rw [List.flatMap_cons, List.append_assoc, doubled]
    split
    · rename_i hc
      have hquote := (isQuote_iff c).1 hc
      exact .pair hquote hquote ih
    · rename_i hc
      exact .other (by rwa [← isQuote_iff]) ih

/-- Behind a quoted value the string is at its end, unless another quote follows. -/
theorem verbatim_quoted (value : List Char) {rest : List Char}
    (h : ∀ c ∈ rest.head?, c ∉ quotes) :
    Verbatim ('\'' :: (value.flatMap doubled ++ ['\'']) ++ rest) value rest := by
  rw [List.cons_append, List.append_assoc]
  exact .opened (by decide) (body_doubled value h)

/-- A plain word is left alone; any other value becomes a string that is read as the value, and
that ends where the escaped text ends. -/
theorem escape_verbatim {shell : Shell} (hshell : shell.quoting = .powerShell) (value : String) :
    (value ≠ "" ∧ (∀ c ∈ value.toList, c.isAlphanum ∨ c = '_') → shell.escape value = value) ∧
    (¬(value ≠ "" ∧ ∀ c ∈ value.toList, c.isAlphanum ∨ c = '_') →
      ∀ suffix : List Char, (∀ c ∈ suffix.head?, c ∉ quotes) → ∀ text rest,
        Verbatim ((shell.escape value).toList ++ suffix) text rest ↔
          text = value.toList ∧ rest = suffix) := by
  have hescape : shell.escape value = String.ofList (encode value.toList) := by
    rw [Shell.escape, hshell, Quoting.encode]
  have hplain : (!value.toList.isEmpty && value.toList.all isPlain) = true ↔
      value ≠ "" ∧ ∀ c ∈ value.toList, c.isAlphanum ∨ c = '_' := by
    simp [isPlain]
  rw [hescape, encode]
  constructor
  · intro h
    rw [if_pos (hplain.2 h), String.ofList_toList]
  · intro h suffix hsuffix text rest
    rw [if_neg (fun hp => h (hplain.1 hp)), String.toList_ofList]
    have hverbatim := verbatim_quoted value.toList hsuffix
    constructor
    · exact fun htext => htext.unique hverbatim
    · rintro ⟨rfl, rfl⟩
      exact hverbatim

def mixedQuotes : String := "it\u2019s '\u201B"

/-- None of its quotes runs into the closing one. -/
theorem escape_verbatim_mixedQuotes :
    Shell.pwsh.quoting = .powerShell ∧
      Shell.pwsh.escape mixedQuotes = "'it\u2019\u2019s ''\u201B\u201B'" ∧
      Verbatim ("'it\u2019\u2019s ''\u201B\u201B'".toList ++ "; x".toList) mixedQuotes.toList
        "; x".toList := by
  have hescape : Shell.pwsh.escape mixedQuotes = "'it\u2019\u2019s ''\u201B\u201B'" := by
    decide +kernel
  have hquoted : ¬(mixedQuotes ≠ "" ∧ ∀ c ∈ mixedQuotes.toList, c.isAlphanum ∨ c = '_') := by
    rintro ⟨-, hplain⟩
    exact absurd (hplain ' ' (by decide +kernel)) (by decide)
  have hsuffix : ∀ c ∈ "; x".toList.head?, c ∉ quotes := by
    rintro c hc
    obtain rfl := Option.some.inj hc
    decide
  refine ⟨rfl, hescape, ?_⟩
  rw [← hescape]
  exact ((escape_verbatim rfl mixedQuotes).2 hquoted _ hsuffix _ _).2 ⟨rfl, rfl⟩

end CommandTemplate.PowerShell
