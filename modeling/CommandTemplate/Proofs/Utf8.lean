import CommandTemplate.Text.Utf8
import Mathlib.Data.List.Basic
import Mathlib.Data.List.Infix

/-!
# Bytes read as text

The bytes of a text are read as this text, and where nothing had to be replaced the bytes are those
of what was read. An ASCII byte is a character by itself wherever it stands, so a text divided by
such bytes can be read part by part.
-/
namespace CommandTemplate.Text

/-- A character leads if its bytes do. -/
theorem leading?_eq_some_iff {bytes : List UInt8} {c : Char} :
    leading? bytes = some c ↔ String.utf8EncodeChar c <+: bytes := by
  constructor
  · intro h
    have hbytes := congrArg (·.data.toList) (ByteArray.eq_of_utf8DecodeChar?_eq_some h)
    simp only [List.data_toByteArray, ByteArray.data_append, Array.toList_append] at hbytes
    exact ⟨_, hbytes.symm⟩
  · rintro ⟨rest, rfl⟩
    have hchar := List.utf8DecodeChar?_utf8Encode_singleton (c := c)
    rw [List.utf8Encode, List.flatMap_singleton] at hchar
    rw [leading?, List.toByteArray_append]
    exact ByteArray.utf8DecodeChar?_append_eq_some hchar _

theorem exists_tail_of_leading? {a : UInt8} {rest : List UInt8} {c : Char}
    (h : leading? (a :: rest) = some c) : ∃ tail, String.utf8EncodeChar c = a :: tail ∧
      rest = tail ++ rest.drop (c.utf8Size - 1) := by
  obtain ⟨more, hmore⟩ := leading?_eq_some_iff.1 h
  obtain ⟨a', tail, hchar⟩ := List.exists_cons_of_ne_nil (String.utf8EncodeChar_ne_nil (c := c))
  rw [hchar, List.cons_append] at hmore
  obtain ⟨rfl, rfl⟩ := List.cons.inj hmore
  have hlength := String.length_utf8EncodeChar c
  rw [hchar, List.length_cons] at hlength
  refine ⟨tail, hchar, ?_⟩
  rw [← hlength, Nat.add_sub_cancel, List.drop_left]

/-! ## Bytes of characters -/

/-- Among the bytes of a character that has several there is no ASCII byte. -/
theorem not_mem_utf8EncodeChar {c : Char} (h : 1 < (String.utf8EncodeChar c).length) {b : UInt8}
    (hb : b < 0x80) : b ∉ String.utf8EncodeChar c := by
  have hsmall : b.toNat < 128 := UInt8.lt_iff_toNat_lt.1 hb
  rw [String.utf8EncodeChar] at h ⊢
  split_ifs at h ⊢
  · simp at h
  all_goals
    simp only [List.mem_cons, List.not_mem_nil, or_false, ← UInt8.toNat_inj, UInt8.toNat_ofNat']
    omega

/-- A character that begins before an ASCII byte ends before it. -/
theorem utf8EncodeChar_prefix_of_append {front rest : List UInt8} (hfront : front ≠ []) {b : UInt8}
    (hb : b < 0x80) {c : Char} (h : String.utf8EncodeChar c <+: front ++ b :: rest) :
    String.utf8EncodeChar c <+: front := by
  rcases List.prefix_or_prefix_of_prefix h (List.prefix_append front (b :: rest))
    with hshort | ⟨more, hmore⟩
  · exact hshort
  · cases more with
    | nil => rw [← hmore, List.append_nil]
    | cons d more =>
      rw [← hmore, List.prefix_append_right_inj, List.cons_prefix_cons] at h
      obtain ⟨rfl, -⟩ := h
      have hmem : d ∈ String.utf8EncodeChar c :=
        hmore ▸ List.mem_append_right _ (List.mem_cons_self ..)
      have hlong : 1 < (String.utf8EncodeChar c).length := by
        have := List.length_pos_of_ne_nil hfront
        rw [← hmore, List.length_append, List.length_cons]
        omega
      exact absurd hmem (not_mem_utf8EncodeChar hlong hb)

theorem utf8EncodeChar_ofUInt8 {b : UInt8} (hb : b < 0x80) :
    String.utf8EncodeChar (Char.ofUInt8 b) = [b] := by
  have hsmall : b.toNat < 128 := UInt8.lt_iff_toNat_lt.1 hb
  have hvalue : (Char.ofUInt8 b).val.toNat = b.toNat := UInt8.toNat_toUInt32 b
  rw [String.utf8EncodeChar, hvalue, if_pos (by omega), UInt8.ofNat_toNat]

/-! ## Bytes of no character -/

theorem opens_of_ascii (a : UInt8) {b : UInt8} (hb : b < 0x80) : opens a b = false := by
  have hsmall : ∀ n : UInt8, 0x80 ≤ n → decide (n ≤ b) = false := fun n hn =>
    decide_eq_false (UInt8.not_le.2 (UInt8.lt_of_lt_of_le hb hn))
  rw [opens, isTail]
  split_ifs <;> simp [hsmall]

theorem isTail_of_ascii {b : UInt8} (hb : b < 0x80) : isTail b = false := by
  rw [isTail, decide_eq_false (UInt8.not_le.2 hb), Bool.false_and]

theorem torn_le (a : UInt8) (rest : List UInt8) : torn a rest ≤ rest.length := by
  rcases rest with _ | ⟨b, _ | ⟨c, rest⟩⟩
  · exact Nat.le_refl 0
  · rw [torn]
    split_ifs <;> simp
  · simp only [torn]
    split_ifs <;> simp

theorem torn_append_cons (a : UInt8) (rest : List UInt8) {b : UInt8} (hb : b < 0x80)
    (more : List UInt8) : torn a (rest ++ b :: more) = torn a rest := by
  rcases rest with _ | ⟨c, _ | ⟨d, rest⟩⟩
  · simp [torn, opens_of_ascii a hb]
  · simp [torn, isTail_of_ascii hb]
  · rfl

/-! ## Reading -/

@[simp] theorem lossy_nil : lossy [] = [] := by rw [lossy]

theorem lossy_utf8EncodeChar_append (c : Char) (rest : List UInt8) :
    lossy (String.utf8EncodeChar c ++ rest) = c :: lossy rest := by
  have hlead := leading?_eq_some_iff.2 (List.prefix_append (String.utf8EncodeChar c) rest)
  obtain ⟨a, tail, hchar⟩ := List.exists_cons_of_ne_nil (String.utf8EncodeChar_ne_nil (c := c))
  rw [hchar, List.cons_append] at hlead ⊢
  obtain ⟨tail', hchar', hrest⟩ := exists_tail_of_leading? hlead
  obtain rfl : tail = tail' := (List.cons.inj (hchar.symm.trans hchar')).2
  rw [lossy, hlead]
  dsimp only
  rw [← List.append_cancel_left hrest]

/-- The bytes of a text are read as this text. -/
@[simp] theorem lossy_utf8 (s : List Char) : lossy (utf8 s) = s := by
  induction s with
  | nil => exact lossy_nil
  | cons c s ih =>
    rw [utf8, List.flatMap_cons, lossy_utf8EncodeChar_append]
    exact congrArg (c :: ·) ih

/-- What is read without a replacement was the bytes of a text. -/
theorem utf8_lossy {bytes : List UInt8} (h : replacement ∉ lossy bytes) :
    utf8 (lossy bytes) = bytes := by
  fun_induction lossy bytes with
  | case1 => rfl
  | case2 a rest c hlead ih =>
    obtain ⟨tail, hchar, hrest⟩ := exists_tail_of_leading? hlead
    rw [utf8, List.flatMap_cons, hchar, List.cons_append]
    refine congrArg (a :: ·) (Eq.trans ?_ hrest.symm)
    exact congrArg (tail ++ ·) (ih fun hmem => h (List.mem_cons_of_mem _ hmem))
  | case3 a rest hlead ih => exact absurd (List.mem_cons_self ..) h

/-- An ASCII byte ends whatever stands before it. -/
theorem lossy_append_cons (front : List UInt8) {b : UInt8} (hb : b < 0x80) (rest : List UInt8) :
    lossy (front ++ b :: rest) = lossy front ++ Char.ofUInt8 b :: lossy rest := by
  fun_induction lossy front with
  | case1 =>
    rw [List.nil_append, List.nil_append, ← lossy_utf8EncodeChar_append, utf8EncodeChar_ofUInt8 hb]
    rfl
  | case2 a front c hlead ih =>
    obtain ⟨tail, hchar, hfront⟩ := exists_tail_of_leading? hlead
    rw [List.cons_append, List.cons_append, ← ih, ← lossy_utf8EncodeChar_append, hchar,
      List.cons_append, ← List.append_assoc, ← hfront]
  | case3 a front hlead ih =>
    have hnone : leading? (a :: (front ++ b :: rest)) = none := by
      rw [Option.eq_none_iff_forall_ne_some]
      intro c hc
      have hwhole := utf8EncodeChar_prefix_of_append (List.cons_ne_nil a front) hb
        (leading?_eq_some_iff.1 hc)
      rw [leading?_eq_some_iff.2 hwhole] at hlead
      cases hlead
    rw [List.cons_append, lossy, hnone]
    dsimp only
    rw [torn_append_cons a front hb, List.drop_append_of_le_length (torn_le a front), ih]
    rfl

example : lossy [0xE2, 0x82, 0x41, 0xFF, 0x41] = ['\uFFFD', 'A', '\uFFFD', 'A'] := by decide +kernel

/-! ## Writing again what was read -/

def respelled (bytes : List UInt8) : List UInt8 := utf8 (lossy bytes)

@[simp] theorem respelled_nil : respelled [] = [] := by simp [respelled, utf8]

/-- The bytes of a text are those that come back when they are read and written again. -/
theorem isUtf8_iff {bytes : List UInt8} : IsUtf8 bytes ↔ respelled bytes = bytes := by
  constructor
  · rintro ⟨s, rfl⟩
    rw [respelled, lossy_utf8]
  · exact fun h => ⟨_, h⟩

instance (bytes : List UInt8) : Decidable (IsUtf8 bytes) := decidable_of_iff' _ isUtf8_iff

example : IsUtf8 [0xE2, 0x82, 0xAC] ∧ ¬IsUtf8 [0xE2, 0x82] := by decide +kernel

theorem respelled_append_cons (front : List UInt8) {b : UInt8} (hb : b < 0x80)
    (rest : List UInt8) :
    respelled (front ++ b :: rest) = respelled front ++ b :: respelled rest := by
  rw [respelled, lossy_append_cons front hb, utf8, List.flatMap_append, List.flatMap_cons,
    utf8EncodeChar_ofUInt8 hb]
  rfl

/-- A text without replacements is only read of its own bytes. -/
theorem respelled_eq_utf8_iff {bytes : List UInt8} {s : List Char} (hs : replacement ∉ s) :
    respelled bytes = utf8 s ↔ bytes = utf8 s := by
  constructor
  · intro h
    have hread : lossy bytes = s := by
      rw [← lossy_utf8 (lossy bytes), ← lossy_utf8 s]
      exact congrArg lossy h
    rw [← hread, utf8_lossy (hread ▸ hs)]
  · rintro rfl
    exact isUtf8_iff.1 ⟨s, rfl⟩

theorem mem_of_mem_respelled {b : UInt8} (hb : b < 0x80) {bytes : List UInt8}
    (h : b ∈ respelled bytes) : b ∈ bytes := by
  rw [respelled] at h
  fun_induction lossy bytes with
  | case1 => exact h
  | case2 a rest c hlead ih =>
    obtain ⟨tail, hchar, hrest⟩ := exists_tail_of_leading? hlead
    rw [utf8, List.flatMap_cons, hchar] at h
    rw [hrest]
    exact (List.mem_append.1 h).elim (List.mem_append_left _)
      fun h => List.mem_append_right (a :: tail) (ih h)
  | case3 a rest hlead ih =>
    rw [utf8, List.flatMap_cons] at h
    rcases List.mem_append.1 h with h | h
    · exact absurd h (not_mem_utf8EncodeChar (by decide) hb)
    · exact List.mem_cons_of_mem _ (List.mem_of_mem_drop (ih h))

/-- Whether an ASCII byte comes first does not change. -/
theorem head?_respelled {b : UInt8} (hb : b < 0x80) (bytes : List UInt8) :
    (respelled bytes).head? = some b ↔ bytes.head? = some b := by
  constructor
  · intro h
    cases bytes with
    | nil => rwa [respelled_nil] at h
    | cons a rest =>
      rw [respelled, lossy] at h
      split at h
      · rename_i c hlead
        obtain ⟨tail, hchar, -⟩ := exists_tail_of_leading? hlead
        rwa [utf8, List.flatMap_cons, hchar] at h
      · have hmem : b ∈ String.utf8EncodeChar replacement :=
          List.mem_of_mem_head? (by simpa [utf8, List.flatMap_cons, List.head?_append] using h)
        exact absurd hmem (not_mem_utf8EncodeChar (by decide) hb)
  · intro h
    obtain ⟨rest, rfl⟩ := List.head?_eq_some_iff.1 h
    have hcons := respelled_append_cons [] hb rest
    rw [List.nil_append, respelled_nil, List.nil_append] at hcons
    rw [hcons, List.head?_cons]

end CommandTemplate.Text
