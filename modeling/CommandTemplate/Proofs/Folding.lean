import CommandTemplate.Text.Folding

/-!
# Folding and the marks of a token

The characters that give a token its shape are letters of no script: nothing but the mark itself
folds to a mark. So texts that are equal up to folding have the same marks in the same places.
-/
namespace CommandTemplate.Text

/-- The characters that a token is punctuated with. -/
def marks : List Char := ['{', '}', ':', '!']

theorem Shift.image?_eq_some {s : Shift} {n m : Nat} (h : s.image? n = some m) :
    (s.first ≤ n ∧ n ≤ s.last) ∧ m = s.target + (n - s.first) := by
  rw [Shift.image?] at h
  split at h
  · rename_i hn
    exact ⟨⟨hn.1, hn.2.1⟩, (Option.some.inj h).symm⟩
  · simp at h

/-- A character stays where it is or moves along with a range that it lies in. -/
theorem shiftChar_cases (shifts : List Shift) (c : Char) :
    shiftChar shifts c = c ∨ ∃ s ∈ shifts, (s.first ≤ c.toNat ∧ c.toNat ≤ s.last) ∧
      shiftChar shifts c = Char.ofNat (s.target + (c.toNat - s.first)) := by
  rw [shiftChar]
  split
  · rename_i m hm
    obtain ⟨s, hs, him⟩ := List.exists_of_findSome?_eq_some hm
    obtain ⟨hsource, rfl⟩ := Shift.image?_eq_some him
    exact .inr ⟨s, hs, hsource, rfl⟩
  · exact .inl rfl

theorem toNat_ofNat_of_valid {n : Nat} (hn : n.isValidChar) : (Char.ofNat n).toNat = n := by
  rw [Char.ofNat, dif_pos hn]
  rfl

theorem toNat_of_ofNat {n : Nat} {c : Char} (hc : c.toNat ≠ 0) (h : Char.ofNat n = c) :
    n = c.toNat := by
  by_cases hn : n.isValidChar
  · rw [← h, toNat_ofNat_of_valid hn]
  · have hzero : (Char.ofNat n).toNat = 0 := by
      rw [Char.ofNat, dif_neg hn]
      rfl
    exact absurd (h ▸ hzero) hc

/-- What holds of each mark holds of all. -/
theorem forall_marks {P : Char → Prop} (hopen : P '{') (hclose : P '}') (hcolon : P ':')
    (hbang : P '!') : ∀ d ∈ marks, P d := by
  simp only [marks, List.forall_mem_cons, List.not_mem_nil, false_imp_iff, implies_true, and_true]
  exact ⟨hopen, hclose, hcolon, hbang⟩

theorem toNat_mark : ∀ d ∈ marks, d.toNat ≠ 0 := by
  apply forall_marks <;> decide

set_option maxRecDepth 4000 in
/-- No letter is moved onto a mark. -/
theorem foldShifts_avoid_marks : ∀ d ∈ marks, ∀ s ∈ foldShifts,
    ¬(s.target ≤ d.toNat ∧ d.toNat ≤ s.target + (s.last - s.first)) := by
  apply forall_marks <;> decide

set_option maxRecDepth 4000 in
/-- Marks fold to themselves. -/
theorem fold_mark : ∀ d ∈ marks, fold d = d := by
  apply forall_marks <;> decide

/-- Nothing else folds to a mark. -/
theorem eq_of_fold_eq_mark {c d : Char} (hd : d ∈ marks) (h : fold c = d) : c = d := by
  rw [fold] at h
  rcases shiftChar_cases foldShifts c with hkept | ⟨s, hs, hsource, hmoved⟩
  · exact hkept.symm.trans h
  · have himage := toNat_of_ofNat (toNat_mark d hd) (hmoved.symm.trans h)
    have hrange : s.target ≤ d.toNat ∧ d.toNat ≤ s.target + (s.last - s.first) := by omega
    exact absurd hrange (foldShifts_avoid_marks d hd s hs)

theorem eq_of_fold_eq_fold_mark {c d : Char} (hd : d ∈ marks) (h : fold c = fold d) : c = d :=
  eq_of_fold_eq_mark hd (h.trans (fold_mark d hd))

@[simp] theorem sameFolded_refl (s : List Char) : sameFolded s s := by simp [sameFolded]

theorem sameFolded_symm {s t : List Char} (h : sameFolded s t) : sameFolded t s := by
  simp only [sameFolded, beq_iff_eq] at h ⊢
  exact h.symm

theorem sameFolded_trans {s t u : List Char} (hst : sameFolded s t) (htu : sameFolded t u) :
    sameFolded s u := by
  simp only [sameFolded, beq_iff_eq] at hst htu ⊢
  exact hst.trans htu

/-- Folding keeps the number of characters. -/
theorem length_eq_of_sameFolded {s t : List Char} (h : sameFolded s t) : s.length = t.length := by
  simpa using congrArg List.length (beq_iff_eq.1 h)

@[simp] theorem sameFolded_nil_left {s : List Char} : sameFolded [] s ↔ s = [] := by
  simp [sameFolded]

@[simp] theorem sameFolded_nil_right {s : List Char} : sameFolded s [] ↔ s = [] := by
  simp [sameFolded]

theorem sameFolded_cons {c d : Char} {s t : List Char} :
    sameFolded (c :: s) (d :: t) ↔ fold c = fold d ∧ sameFolded s t := by
  simp [sameFolded]

/-- Spellings of one text have the same marks. -/
theorem mark_mem_of_sameFolded {s t : List Char} {d : Char} (hd : d ∈ marks) (h : sameFolded s t)
    (hs : d ∈ s) : d ∈ t := by
  simp only [sameFolded, beq_iff_eq] at h
  have hmem : fold d ∈ t.map fold := h ▸ List.mem_map_of_mem hs
  obtain ⟨c, hc, hf⟩ := List.mem_map.1 hmem
  rwa [← eq_of_fold_eq_fold_mark hd hf]

/-- Spellings of one text begin with the same mark, if with any. -/
theorem head_ne_mark_of_sameFolded {s t : List Char} {d : Char} (hd : d ∈ marks)
    (h : sameFolded s t) (hs : s.head? ≠ some d) : t.head? ≠ some d := by
  cases s with
  | nil =>
    cases t with
    | nil => simp
    | cons c t => simp at h
  | cons b s =>
    cases t with
    | nil => simp
    | cons c t =>
      intro ht
      simp only [List.head?_cons, Option.some.injEq] at ht
      subst ht
      have hb := eq_of_fold_eq_fold_mark hd (sameFolded_cons.1 h).1
      exact hs (by simp [hb])

/-- Every spelling of a word is taken off the front of a text. -/
theorem stripFolded_append {word spelled : List Char} (h : sameFolded word spelled)
    (rest : List Char) : stripFolded word (spelled ++ rest) = some (spelled, rest) := by
  induction word generalizing spelled with
  | nil =>
    cases spelled with
    | nil => rfl
    | cons c spelled => simp at h
  | cons w word ih =>
    cases spelled with
    | nil => simp at h
    | cons c spelled =>
      obtain ⟨hc, hs⟩ := sameFolded_cons.1 h
      simp [stripFolded, hc, ih hs]

end CommandTemplate.Text
