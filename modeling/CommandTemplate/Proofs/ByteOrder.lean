import CommandTemplate.Dict
import CommandTemplate.Text.Utf8
import Mathlib.Data.List.Lex

/-!
# The order of texts and of their bytes

Texts are ordered by their characters. That is the order of their bytes in UTF-8, since of two
characters the greater one has the greater byte where their bytes first differ.
-/
namespace CommandTemplate

def utf8Bytes (s : String) : List UInt8 := s.toUTF8.data.toList

theorem utf8Bytes_eq (s : String) : utf8Bytes s = Text.utf8 s.toList := by
  rw [utf8Bytes, String.toUTF8, ← String.utf8Encode_toList, List.utf8Encode,
    List.data_toByteArray, Text.utf8]

/-- The digits of a number to the base 64 are compared one by one. -/
theorem digits_lt {v w : Nat} (hlt : v < w) :
    v / 262144 < w / 262144 ∨ v / 262144 = w / 262144 ∧
      (v / 4096 % 64 < w / 4096 % 64 ∨ v / 4096 % 64 = w / 4096 % 64 ∧
        (v / 64 % 64 < w / 64 % 64 ∨ v / 64 % 64 = w / 64 % 64 ∧ v % 64 < w % 64)) := by
  have hdigits : ∀ n,
      n = n / 262144 * 262144 + n / 4096 % 64 * 4096 + n / 64 % 64 * 64 + n % 64 := by
    omega
  have hv := hdigits v
  have hw := hdigits w
  omega

/-- The bytes of two characters decide, whatever stands behind them. -/
theorem utf8EncodeChar_append_lt {c d : Char} (h : c < d) (s t : List UInt8) :
    String.utf8EncodeChar c ++ s < String.utf8EncodeChar d ++ t := by
  have hlt : c.val.toNat < d.val.toNat := h
  have hmax : d.val.toNat < 0x110000 := by
    have hvalid := d.valid
    simp only [UInt32.isValidChar, Nat.isValidChar] at hvalid
    omega
  simp only [String.utf8EncodeChar]
  generalize c.val.toNat = v at hlt
  generalize d.val.toNat = w at hlt hmax
  have hdigits := digits_lt hlt
  -- one case for each pair of lengths; a shorter one has the smaller first byte
  split_ifs
  all_goals
    simp only [List.cons_append, List.nil_append, List.cons_lt_cons_iff, UInt8.lt_iff_toNat_lt,
      ← UInt8.toNat_inj, UInt8.toNat_ofNat']
    simp (disch := omega) only [Nat.mod_eq_of_lt]
    omega

theorem utf8_lt_utf8 {s t : List Char} (h : s < t) : Text.utf8 s < Text.utf8 t := by
  induction h with
  | @nil c t =>
    obtain ⟨b, bs, hbs⟩ := List.exists_cons_of_ne_nil (String.utf8EncodeChar_ne_nil (c := c))
    rw [Text.utf8, Text.utf8, List.flatMap_cons, hbs]
    exact .nil
  | @rel c d s t hlt => exact utf8EncodeChar_append_lt hlt _ _
  | @cons c s t _ ih => exact List.append_left_lt ih

/-- Texts are in the order of their bytes. -/
theorem utf8Bytes_lt_iff (s t : String) : utf8Bytes s < utf8Bytes t ↔ s < t := by
  have hmono : ∀ s t : String, s < t → utf8Bytes s < utf8Bytes t := by
    intro s t h
    rw [utf8Bytes_eq, utf8Bytes_eq]
    exact utf8_lt_utf8 h
  constructor
  · intro h
    by_contra hlt
    by_cases heq : s = t
    · exact List.lt_irrefl _ (heq ▸ h)
    · exact List.lt_asymm h (hmono t s (lt_of_not_lt_of_ne hlt heq))
  · exact hmono s t

theorem utf8Bytes_le_iff (s t : String) : utf8Bytes s ≤ utf8Bytes t ↔ s ≤ t := by
  rw [← List.not_lt, utf8Bytes_lt_iff, String.not_lt]

end CommandTemplate
