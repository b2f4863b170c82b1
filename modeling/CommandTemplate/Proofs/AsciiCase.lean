import CommandTemplate.Proofs.Folding
import CommandTemplate.Text.Lowercase

/-!
# The case of ASCII letters

On ASCII text folding, lower case and ASCII case are one. They part on two letters that only look
out of place: `ſ` folds to `s` and the Kelvin sign to `k`, so either can stand in a spelling of an
ASCII word. Lower case makes a `k` of the Kelvin sign but leaves `ſ` as it is.
-/
namespace CommandTemplate.Text

def IsAscii (s : List Char) : Prop := ∀ c ∈ s, c.toNat < 128

instance (s : List Char) : Decidable (IsAscii s) := List.decidableBAll _ s

/-! ## One character -/

/-- What holds of the first 128 code points holds of every ASCII character. -/
theorem forall_ascii {P : Char → Prop} (h : ∀ n < 128, P (Char.ofNat n)) {c : Char}
    (hc : c.toNat < 128) : P c := by
  have hn := h c.toNat hc
  rwa [Char.ofNat_toNat] at hn

/-- The first shift of both maps is that of the ASCII capitals, and no other moves ASCII. -/
theorem shiftChar_of_ascii (table : List Shift) (htable : ∀ s ∈ table, 128 ≤ s.first) {c : Char}
    (hc : c.toNat < 128) : shiftChar (⟨0x41, 0x5A, 1, 0x61⟩ :: table) c = c.toLower := by
  have hrest : table.findSome? (·.image? c.toNat) = none := by
    rw [List.findSome?_eq_none_iff]
    intro s hs
    have hfirst := htable s hs
    exact if_neg (by omega)
  have hcapital : shiftChar [⟨0x41, 0x5A, 1, 0x61⟩] c = c.toLower :=
    forall_ascii (P := fun c => shiftChar [⟨0x41, 0x5A, 1, 0x61⟩] c = c.toLower)
      (by decide +kernel) hc
  rw [← hcapital, shiftChar, shiftChar, List.findSome?_cons, List.findSome?_cons, hrest]
  rfl

set_option maxRecDepth 4000 in
/-- On ASCII folding lowers the letters. -/
theorem fold_of_ascii {c : Char} (hc : c.toNat < 128) : fold c = c.toLower :=
  shiftChar_of_ascii foldShifts.tail (by decide) hc

set_option maxRecDepth 4000 in
theorem shiftChar_lowerShifts_of_ascii {c : Char} (hc : c.toNat < 128) :
    shiftChar lowerShifts c = c.toLower :=
  shiftChar_of_ascii lowerShifts.tail (by decide) hc

theorem toNat_toLower_of_ascii {c : Char} (hc : c.toNat < 128) : c.toLower.toNat < 128 :=
  forall_ascii (P := fun c => c.toLower.toNat < 128) (by decide +kernel) hc

/-- Lowering the case of ASCII letters leaves all other characters alone. -/
theorem toLower_of_not_ascii {c : Char} (hc : ¬c.toNat < 128) : c.toLower = c := by
  have hcapital : ¬(c.val ≥ 'A'.val ∧ c.val ≤ 'Z'.val) := by
    rintro ⟨-, hle⟩
    have hz : c.toNat ≤ 90 := UInt32.le_iff_toNat_le.1 hle
    omega
  exact dif_neg hcapital

/-- Folding does not tell the cases of ASCII letters apart. -/
theorem fold_toLower (c : Char) : fold c.toLower = fold c := by
  by_cases hc : c.toNat < 128
  · rw [fold_of_ascii (toNat_toLower_of_ascii hc), fold_of_ascii hc]
    exact forall_ascii (P := fun c => c.toLower.toLower = c.toLower) (by decide +kernel) hc
  · rw [toLower_of_not_ascii hc]

set_option maxRecDepth 4000 in
theorem foldShifts_valid : ∀ s ∈ foldShifts, s.target + (s.last - s.first) < 0xD800 ∨
    0xDFFF < s.target ∧ s.target + (s.last - s.first) < 0x110000 := by decide

set_option maxRecDepth 4000 in
/-- From further up only two characters are moved among the first 128. -/
theorem foldShifts_onto_ascii : ∀ s ∈ foldShifts, s.target < 128 → s.last < 128 ∨
    s.first = s.last ∧ (s.first = 'ſ'.toNat ∨ s.first = '\u212A'.toNat) := by decide

set_option maxRecDepth 4000 in
theorem fold_longS : fold 'ſ' = 's' := by decide

set_option maxRecDepth 4000 in
theorem fold_kelvin : fold '\u212A' = 'k' := by decide

/-- Two characters beside ASCII fold into it: the long s and the Kelvin sign. -/
theorem ascii_or_of_fold {c : Char} (h : (fold c).toNat < 128) :
    c.toNat < 128 ∨ c = 'ſ' ∨ c = '\u212A' := by
  rw [fold] at h
  rcases shiftChar_cases foldShifts c with hkept | ⟨s, hs, hsource, hmoved⟩
  · exact .inl (hkept ▸ h)
  · have hvalid : (s.target + (c.toNat - s.first)).isValidChar := by
      have := foldShifts_valid s hs
      rw [Nat.isValidChar]
      omega
    rw [hmoved, toNat_ofNat_of_valid hvalid] at h
    rw [← Char.toNat_inj, ← Char.toNat_inj]
    have := foldShifts_onto_ascii s hs (by omega)
    omega

/-! ## Texts -/

theorem lowerAfter_of_ascii (before : List Char) {s : List Char} (hs : IsAscii s) :
    lowerAfter before s = s.map Char.toLower := by
  induction s generalizing before with
  | nil => rfl
  | cons c s ih =>
    obtain ⟨hc, hs⟩ := List.forall_mem_cons.1 hs
    have hsigma : c ≠ 'Σ' := by
      rintro rfl
      exact absurd hc (by decide)
    have hdotted : c ≠ 'İ' := by
      rintro rfl
      exact absurd hc (by decide)
    rw [lowerAfter, if_neg hsigma, if_neg hdotted, shiftChar_lowerShifts_of_ascii hc, ih _ hs]
    rfl

/-- In an ASCII text there is no sigma to turn, so the letters are lowered one by one. -/
theorem lower_of_ascii {s : List Char} (hs : IsAscii s) : lower s = s.map Char.toLower :=
  lowerAfter_of_ascii [] hs

/-- A character that has no lower case of its own stays in the text. -/
theorem mem_lowerAfter {c : Char} (hsigma : c ≠ 'Σ') (hdotted : c ≠ 'İ')
    (hkept : shiftChar lowerShifts c = c) (before : List Char) {s : List Char} (h : c ∈ s) :
    c ∈ lowerAfter before s := by
  induction s generalizing before with
  | nil => cases h
  | cons d s ih =>
    rw [lowerAfter]
    rcases List.mem_cons.1 h with rfl | h
    · simp [hsigma, hdotted, hkept]
    · exact List.mem_append_right _ (ih _ h)

set_option maxRecDepth 4000 in
/-- Lower case leaves the long s where it is. -/
theorem longS_mem_lower {s : List Char} (h : 'ſ' ∈ s) : 'ſ' ∈ lower s :=
  mem_lowerAfter (by decide) (by decide) (by decide) [] h

theorem map_fold_of_ascii {s : List Char} (hs : IsAscii s) : s.map fold = s.map Char.toLower :=
  List.map_congr_left fun c hc => fold_of_ascii (hs c hc)

/-- A letter that folds to none of a word stands in no spelling of it. -/
theorem not_mem_of_fold_not_mem {word spelled : List Char} (hword : IsAscii word)
    (h : sameFolded word spelled) {c : Char} (hc : fold c ∉ word.map Char.toLower) :
    c ∉ spelled := by
  simp only [sameFolded, beq_iff_eq] at h
  rw [← map_fold_of_ascii hword, h] at hc
  exact fun hmem => hc (List.mem_map_of_mem hmem)

/-- A long s can only stand for an s of the word. -/
theorem longS_not_mem {word spelled : List Char} (hword : IsAscii word)
    (h : sameFolded word spelled) (hs : 's' ∉ word.map Char.toLower) : 'ſ' ∉ spelled :=
  not_mem_of_fold_not_mem hword h (fold_longS ▸ hs)

theorem kelvin_not_mem {word spelled : List Char} (hword : IsAscii word)
    (h : sameFolded word spelled) (hk : 'k' ∉ word.map Char.toLower) : '\u212A' ∉ spelled :=
  not_mem_of_fold_not_mem hword h (fold_kelvin ▸ hk)

/-- A spelling of an ASCII word is ASCII too, unless one of the two letters stands in it. -/
theorem isAscii_of_sameFolded {word spelled : List Char} (hword : IsAscii word)
    (h : sameFolded word spelled) (hs : 'ſ' ∉ spelled) (hk : '\u212A' ∉ spelled) :
    IsAscii spelled := by
  intro c hc
  simp only [sameFolded, beq_iff_eq] at h
  have hmem : fold c ∈ word.map fold := h ▸ List.mem_map_of_mem hc
  obtain ⟨w, hw, hf⟩ := List.mem_map.1 hmem
  have hascii : (fold c).toNat < 128 := by
    rw [← hf, fold_of_ascii (hword w hw)]
    exact toNat_toLower_of_ascii (hword w hw)
  rcases ascii_or_of_fold hascii with hlow | rfl | rfl
  · exact hlow
  · exact absurd hc hs
  · exact absurd hc hk

/-- Then it differs from the word by the case of ASCII letters alone. -/
theorem map_toLower_of_sameFolded {word spelled : List Char} (hword : IsAscii word)
    (hspelled : IsAscii spelled) (h : sameFolded word spelled) :
    spelled.map Char.toLower = word.map Char.toLower := by
  simp only [sameFolded, beq_iff_eq] at h
  rw [← map_fold_of_ascii hspelled, ← map_fold_of_ascii hword, h]

/-! ## Equality up to the case of ASCII letters -/

theorem sameAsciiCase_iff {s t : String} :
    sameAsciiCase s t ↔ s.toList.map Char.toLower = t.toList.map Char.toLower := by
  rw [sameAsciiCase, beq_iff_eq]

@[simp] theorem sameAsciiCase_refl (s : String) : sameAsciiCase s s := sameAsciiCase_iff.2 rfl

theorem sameAsciiCase_symm {s t : String} (h : sameAsciiCase s t) : sameAsciiCase t s :=
  sameAsciiCase_iff.2 (sameAsciiCase_iff.1 h).symm

theorem sameAsciiCase_trans {s t u : String} (hst : sameAsciiCase s t) (htu : sameAsciiCase t u) :
    sameAsciiCase s u :=
  sameAsciiCase_iff.2 ((sameAsciiCase_iff.1 hst).trans (sameAsciiCase_iff.1 htu))

/-- Texts that differ by the case of ASCII letters differ by case. -/
theorem sameFolded_of_sameAsciiCase {s t : String} (h : sameAsciiCase s t) :
    sameFolded s.toList t.toList := by
  have hfold : ∀ s : List Char, (s.map Char.toLower).map fold = s.map fold := by
    intro s
    rw [List.map_map]
    exact List.map_congr_left fun c _ => fold_toLower c
  rw [sameFolded, beq_iff_eq, ← hfold, sameAsciiCase_iff.1 h, hfold]

/-- Of ASCII texts the two comparisons say the same. -/
theorem sameAsciiCase_of_sameFolded {s t : String} (hs : IsAscii s.toList) (ht : IsAscii t.toList)
    (h : sameFolded s.toList t.toList) : sameAsciiCase s t :=
  sameAsciiCase_iff.2 (map_toLower_of_sameFolded hs ht h).symm

end CommandTemplate.Text
