import CommandTemplate.Text.Lowercase
import Mathlib.Data.List.TakeWhile

/-!
# Lower case of a text that goes on

Lower case looks at one character at a time, but for the capital sigma: at the end of a word it is
written `ς`. So the lower case of a text goes on as the text does, unless the text ends in such a
sigma and what follows is more of the word.
-/
namespace CommandTemplate.Text

/-! ## One character -/

/-- What is written for `c` behind the reversed text `before` and ahead of `s`. -/
def lowerAt (before : List Char) (c : Char) (s : List Char) : List Char :=
  if c = 'Σ' then [if meetsCased before && !meetsCased s then 'ς' else 'σ']
  else if c = 'İ' then ['i', '\u0307']
  else [shiftChar lowerShifts c]

theorem lowerAfter_cons (before : List Char) (c : Char) (s : List Char) :
    lowerAfter before (c :: s) = lowerAt before c s ++ lowerAfter (c :: before) s := rfl

/-- Only the dotted capital I becomes two characters. -/
theorem length_lowerAt (before : List Char) (c : Char) (s : List Char) :
    (lowerAt before c s).length = if c = 'İ' then 2 else 1 := by
  rw [lowerAt]
  split
  · rename_i hsigma
    subst hsigma
    rfl
  · split <;> rfl

theorem length_lowerAfter_le (before s more : List Char) :
    (lowerAfter before s).length ≤ (lowerAfter before (s ++ more)).length := by
  induction s generalizing before with
  | nil => exact Nat.zero_le _
  | cons c s ih =>
    rw [List.cons_append, lowerAfter_cons, lowerAfter_cons, List.length_append,
      List.length_append, length_lowerAt, length_lowerAt]
    exact Nat.add_le_add_left (ih (c :: before)) _

/-! ## Looking ahead -/

theorem meetsCased_of_ignorable {s : List Char} (h : ∀ c ∈ s, CaseData.caseIgnorable.has c) :
    meetsCased s = false := by
  have hdropped : s.dropWhile CaseData.caseIgnorable.has = [] := List.dropWhile_eq_nil_iff.2 h
  rw [meetsCased, hdropped]
  rfl

theorem meetsCased_append_of_ignorable {s : List Char}
    (h : ∀ c ∈ s, CaseData.caseIgnorable.has c) (more : List Char) :
    meetsCased (s ++ more) = meetsCased more := by
  rw [meetsCased, List.dropWhile_append_of_pos h, meetsCased]

/-- The first character that counts decides, whatever stands behind it. -/
theorem meetsCased_append_of_not_ignorable {s : List Char}
    (h : ¬∀ c ∈ s, CaseData.caseIgnorable.has c) (more : List Char) :
    meetsCased (s ++ more) = meetsCased s := by
  have hleft : s.dropWhile CaseData.caseIgnorable.has ≠ [] := mt List.dropWhile_eq_nil_iff.1 h
  obtain ⟨c, rest, hfirst⟩ := List.exists_cons_of_ne_nil hleft
  rw [meetsCased, meetsCased, List.dropWhile_append, hfirst]
  rfl

/-! ## Sigma at the end -/

/-- Behind the reversed text `before`, the text ends in a sigma that closes a word: a cased letter
stands ahead of it and only ignorable characters behind it. -/
def ClosesInSigmaAfter (before s : List Char) : Prop :=
  ∃ word ignored, s = word ++ 'Σ' :: ignored ∧ meetsCased (word.reverse ++ before) ∧
    ∀ c ∈ ignored, CaseData.caseIgnorable.has c

/-- The text ends in a sigma that closes a word, so that it is written `ς`. -/
def ClosesInSigma (s : List Char) : Prop :=
  ∃ word ignored, s = word ++ 'Σ' :: ignored ∧ meetsCased word.reverse ∧
    ∀ c ∈ ignored, CaseData.caseIgnorable.has c

/-- When the text goes on like this, the sigma that has closed a word is inside one. -/
def SigmaTurns (s more : List Char) : Prop := ClosesInSigma s ∧ meetsCased more

theorem closesInSigmaAfter_nil {s : List Char} : ClosesInSigmaAfter [] s ↔ ClosesInSigma s := by
  simp only [ClosesInSigmaAfter, ClosesInSigma, List.append_nil]

theorem not_closesInSigmaAfter (before : List Char) : ¬ClosesInSigmaAfter before [] := by
  rintro ⟨word, ignored, hs, -, -⟩
  cases word <;> cases hs

/-- The sigma that closes the text is its first character or stands behind it. -/
theorem closesInSigmaAfter_cons {before s : List Char} {c : Char} :
    ClosesInSigmaAfter before (c :: s) ↔
      (c = 'Σ' ∧ meetsCased before ∧ ∀ d ∈ s, CaseData.caseIgnorable.has d) ∨
        ClosesInSigmaAfter (c :: before) s := by
  constructor
  · rintro ⟨word, ignored, hs, hcased, hignored⟩
    cases word with
    | nil =>
      obtain ⟨rfl, rfl⟩ := List.cons.inj hs
      exact .inl ⟨rfl, hcased, hignored⟩
    | cons d word =>
      obtain ⟨rfl, rfl⟩ := List.cons.inj hs
      exact .inr ⟨word, ignored, rfl, by simpa using hcased, hignored⟩
  · rintro (⟨rfl, hcased, hignored⟩ | ⟨word, ignored, rfl, hcased, hignored⟩)
    · exact ⟨[], s, rfl, hcased, hignored⟩
    · exact ⟨c :: word, ignored, rfl, by simpa using hcased, hignored⟩

/-- What is written for a character is changed by more text only if it is a sigma that turns. -/
theorem lowerAt_append_iff {before s more : List Char} {c : Char} :
    lowerAt before c s = lowerAt before c (s ++ more) ↔
      ¬((c = 'Σ' ∧ meetsCased before ∧ ∀ d ∈ s, CaseData.caseIgnorable.has d) ∧
        meetsCased more) := by
  by_cases hsigma : c = 'Σ'
  · rw [lowerAt, lowerAt, if_pos hsigma, if_pos hsigma]
    by_cases hs : ∀ d ∈ s, CaseData.caseIgnorable.has d
    · rw [meetsCased_of_ignorable hs, meetsCased_append_of_ignorable hs]
      cases meetsCased before <;> cases meetsCased more <;> simp [hsigma, eq_true hs]
    · rw [meetsCased_append_of_not_ignorable hs]
      simp [hs]
  · simp [lowerAt, hsigma]

/-! ## Prefixes -/

theorem append_prefix_append_iff {α : Type} {front front' rest rest' : List α}
    (h : front.length = front'.length) :
    front ++ rest <+: front' ++ rest' ↔ front = front' ∧ rest <+: rest' := by
  constructor
  · rintro ⟨behind, heq⟩
    rw [List.append_assoc] at heq
    obtain ⟨rfl, rfl⟩ := List.append_inj heq h
    exact ⟨rfl, List.prefix_append rest behind⟩
  · rintro ⟨rfl, hrest⟩
    exact (List.prefix_append_right_inj front).2 hrest

/-- Lowered, a text still begins the longer one, unless a sigma at its end turns. -/
theorem lowerAfter_prefix_iff {before s more : List Char} :
    lowerAfter before s <+: lowerAfter before (s ++ more) ↔
      ¬(ClosesInSigmaAfter before s ∧ meetsCased more) := by
  induction s generalizing before with
  | nil => exact iff_of_true List.nil_prefix fun h => not_closesInSigmaAfter before h.1
  | cons c s ih =>
    have hlength : (lowerAt before c s).length = (lowerAt before c (s ++ more)).length := by
      rw [length_lowerAt, length_lowerAt]
    rw [List.cons_append, lowerAfter_cons, lowerAfter_cons, append_prefix_append_iff hlength, ih,
      lowerAt_append_iff, closesInSigmaAfter_cons, or_and_right, not_or]

/-- Lower case respects a prefix exactly if no sigma turns behind it. -/
theorem lower_prefix_iff {s more : List Char} :
    lower s <+: lower (s ++ more) ↔ ¬SigmaTurns s more := by
  rw [lower, lower, lowerAfter_prefix_iff, closesInSigmaAfter_nil, SigmaTurns]

/-- What begins with the longer text in lower case begins with the shorter one on the same terms. -/
theorem lower_prefix_iff_of_longer {s more text : List Char} (h : lower (s ++ more) <+: text) :
    lower s <+: text ↔ ¬SigmaTurns s more := by
  rw [← lower_prefix_iff]
  exact ⟨fun hs => List.prefix_of_prefix_length_le hs h (length_lowerAfter_le [] s more),
    fun hs => hs.trans h⟩

/-- Without a capital sigma nothing turns. -/
theorem not_sigmaTurns_of_not_mem {s : List Char} (h : 'Σ' ∉ s) (more : List Char) :
    ¬SigmaTurns s more := by
  rintro ⟨⟨word, ignored, rfl, -, -⟩, -⟩
  exact h (List.mem_append_right word (List.mem_cons_self ..))

end CommandTemplate.Text
