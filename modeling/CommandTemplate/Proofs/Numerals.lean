import CommandTemplate.Proofs.AsciiCase
import CommandTemplate.Proofs.Encounters
import Mathlib.Data.Nat.Digits.Defs

/-!
# Numbers in tokens

The digits that a pattern takes may be those of any script. The value of a run of ASCII digits is
kept, whatever zeros it begins with, as far as 64 bits reach. Other digits are kept as text, and a
variable that asks for a number takes them for one that is out of range.
-/
namespace CommandTemplate

namespace Text

/-- The number that decimal digits write, in whatever script. -/
def numeral (s : List Char) : Nat :=
  Nat.ofDigits 10 (s.reverse.map fun c => (digitValue? c).getD 0)

/-! ## Digits -/

theorem isDigit_iff (c : Char) : c.isDigit ↔ 0x30 ≤ c.toNat ∧ c.toNat ≤ 0x30 + 9 := by
  simp only [Char.isDigit, Bool.and_eq_true, decide_eq_true_eq, UInt32.le_iff_toNat_le]
  exact Iff.rfl

theorem toNat_of_isDigit {c : Char} (h : c.isDigit) : c.toNat < 128 := by
  have := (isDigit_iff c).1 h
  omega

/-- ASCII has one run of digits, and it is the first. -/
theorem digitZeros_tail : ∀ z ∈ digitZeros.tail, 128 ≤ z := by decide

/-- Of the ASCII characters the ten digits have a value. -/
theorem digitValue?_of_ascii {c : Char} (hc : c.toNat < 128) :
    digitValue? c = if c.isDigit then some (c.toNat - '0'.toNat) else none := by
  have hrest : digitZeros.tail.findSome? (fun z =>
      if z ≤ c.toNat ∧ c.toNat ≤ z + 9 then some (c.toNat - z) else none) = none := by
    rw [List.findSome?_eq_none_iff]
    intro z hz
    have hfirst := digitZeros_tail z hz
    exact if_neg (by omega)
  have hzeros : digitZeros = 0x30 :: digitZeros.tail := rfl
  rw [digitValue?, hzeros, List.findSome?_cons, if_congr (isDigit_iff c).symm rfl rfl, hrest]
  split
  · rename_i hsome
    exact hsome.symm
  · rename_i hnone
    exact hnone.symm

theorem isDigit_iff_of_isDecimalDigit {c : Char} (h : isDecimalDigit c) :
    c.isDigit ↔ c.toNat < 128 := by
  constructor
  · exact toNat_of_isDigit
  · intro hascii
    rw [isDecimalDigit, digitValue?_of_ascii hascii] at h
    by_contra hdigit
    simp [hdigit] at h

theorem digitValue?_of_isDigit {c : Char} (h : c.isDigit) :
    digitValue? c = some (c.toNat - '0'.toNat) := by
  rw [digitValue?_of_ascii (toNat_of_isDigit h), if_pos h]

/-- Reading ASCII digits from left to right comes to their number. -/
theorem decimalValue_eq_numeral {s : List Char} (hs : ∀ c ∈ s, c.isDigit) :
    decimalValue s = numeral s := by
  have hfold : ∀ n, s.foldl (fun n c => 10 * n + (c.toNat - '0'.toNat)) n =
      s.foldl (fun n c => (digitValue? c).getD 0 + 10 * n) n := by
    induction s with
    | nil => exact fun n => rfl
    | cons c s ih =>
      obtain ⟨hc, hs⟩ := List.forall_mem_cons.1 hs
      intro n
      rw [List.foldl_cons, ih hs, List.foldl_cons, digitValue?_of_isDigit hc, Option.getD_some,
        Nat.add_comm]
  rw [numeral, Nat.ofDigits_eq_foldr, List.foldr_map, List.foldr_reverse]
  exact hfold 0

/-! ## Reading -/

variable {s : List Char}

/-- Captured digits are `0` to `9` just when they are ASCII. -/
theorem all_isDigit_iff (hs : Admission.digits.Admits s) : s.all Char.isDigit ↔ IsAscii s := by
  rw [List.all_eq_true]
  exact forall₂_congr fun c hc => isDigit_iff_of_isDecimalDigit (hs.2 c hc)

/-- Digits of another script are captured, but no number is read from them. -/
theorem readNat_of_digits (hs : Admission.digits.Admits s) :
    readNat s = if IsAscii s then some (numeral s) else none := by
  have hall := all_isDigit_iff hs
  rw [readNat]
  by_cases hascii : IsAscii s
  · have hdigits : ∀ c ∈ s, c.isDigit := List.all_eq_true.1 (hall.2 hascii)
    simp [hall.2 hascii, hs.1, hascii, decimalValue_eq_numeral hdigits]
  · simp [hascii, hall]

/-- No digit is a sign. -/
theorem readSigned_of_digits (hs : Admission.digits.Admits s) :
    readSigned s = if IsAscii s then some (numeral s : Int) else none := by
  have hsign : readSigned s = (readNat s).map fun n => (n : Int) := by
    cases s with
    | nil => rfl
    | cons c s =>
      have hc := hs.2 c (List.mem_cons_self ..)
      have hminus : c ≠ '-' := by
        rintro rfl
        exact absurd hc (by decide)
      have hplus : c ≠ '+' := by
        rintro rfl
        exact absurd hc (by decide)
      rw [readSigned.eq_def]
      simp [hminus, hplus]
  rw [hsign, readNat_of_digits hs]
  split <;> rfl

/-- An integer of 64 bits is read from digits if they are ASCII and it reaches. -/
theorem readInt64_of_digits (hs : Admission.digits.Admits s) :
    readInt64 s = if IsAscii s ∧ numeral s ≤ maxInt64 then some (numeral s : Int) else none := by
  rw [readInt64, readSigned_of_digits hs]
  by_cases hascii : IsAscii s
  · have hmin : minInt64 ≤ numeral s := by
      have := Int.natCast_nonneg (numeral s)
      simp only [minInt64]
      omega
    simp [hascii, hmin]
  · simp [hascii]

end Text

/-! ## Captured digits -/

structure Argument.Keeps (a : Argument) (digits : List Char) : Prop where
  integer_iff : ∀ n, a = .integer n ↔ n = Text.numeral digits ∧ Text.IsAscii digits ∧
    Text.numeral digits ≤ Text.maxInt64
  text_iff : ∀ s, a = .text s ↔ s = String.ofList digits ∧
    (¬Text.IsAscii digits ∨ Text.maxInt64 < Text.numeral digits)

structure Variable.KeepsNumbers (v : Variable) (o : Occurrence) (p : Parameter)
    (digits : List Char) : Prop where
  admitted : Admission.digits.Admits digits
  /-- An instance stores what is to be kept of them, -/
  stored : ∀ w : Instance, w.base = v → ∃ a, a.Keeps digits ∧
    (w.setArgument p.name (String.ofList digits)).arguments.get? p.name = some a
  /-- and unless two parameters have one name it is there when the value is made. -/
  handed : (v.parameters.map (·.name)).Nodup → ∃ a, a.Keeps digits ∧
    (v.argumentsOf o.token.arguments).get? p.name = some a

theorem Parameter.keeps_read {p : Parameter} (hp : p.isInteger) {digits : List Char}
    (hdigits : Admission.digits.Admits digits) : (p.read digits).Keeps digits := by
  rw [read, if_pos hp, Text.readInt64_of_digits hdigits]
  by_cases hfits : Text.IsAscii digits ∧ Text.numeral digits ≤ Text.maxInt64
  · rw [if_pos hfits]
    constructor
    · intro n
      simp [hfits, eq_comm]
    · intro s
      simp [hfits]
  · rw [if_neg hfits]
    constructor
    · intro n
      simp [hfits]
    · intro s
      have hnot : ¬Text.IsAscii digits ∨ Text.maxInt64 < Text.numeral digits := by
        rw [← Int.not_le]
        exact Classical.not_and_iff_not_or_not.1 hfits
      simp [hnot, eq_comm]

/-- An integer parameter reads its digits even where another one has the same name. -/
theorem Variable.argument_eq_read_of_isInteger {v : Variable} {p : Parameter}
    (hmem : p ∈ v.parameters) (hp : p.isInteger) (raw : List Char) :
    v.argument p.name (String.ofList raw) = p.read raw := by
  have htakes : v.takesInteger p.name := List.any_eq_true.2 ⟨p, hmem, by simp [hp]⟩
  rw [argument, if_pos htakes, String.toList_ofList]
  exact (if_pos hp).symm

theorem Parameter.shape_of_isInteger {p : Parameter} (hp : p.isInteger) :
    p.shape = .ok .integer := by
  obtain ⟨name, type, options, required⟩ := p
  obtain ⟨htype, hoptions⟩ : type = some .integer ∧ options = none := by simpa [isInteger] using hp
  subst htype hoptions
  rfl

theorem Variable.keepsNumbers {v : Variable} {s : List Char} {o : Occurrence} (ho : o ∈ v.found s)
    {p : Parameter} {digits : List Char}
    (hcaptured : (p, some digits) ∈ v.parameters.zip o.token.arguments) (hp : p.isInteger) :
    v.KeepsNumbers o p digits := by
  have htakes := (List.forall₂_iff_zip.1 (isTokenOf_of_mem_found ho).arguments).2 hcaptured
  obtain ⟨shape, hshape, hdigits⟩ := htakes
  obtain rfl := Except.ok.inj (hshape.symm.trans (Parameter.shape_of_isInteger hp))
  have hmem : p ∈ v.parameters := (List.of_mem_zip hcaptured).1
  refine ⟨hdigits, fun w hw => ?_, fun hnames => ?_⟩
  · subst hw
    refine ⟨p.read digits, Parameter.keeps_read hp hdigits, ?_⟩
    rw [Instance.setArgument, Dict.get?_insert_self, argument_eq_read_of_isInteger hmem hp]
  · refine ⟨p.read digits, Parameter.keeps_read hp hdigits, ?_⟩
    rw [argumentsOf_eq_ofList hnames]
    exact (capturesExactly_ofList hnames _ _ _).2 ⟨p, digits, hcaptured, rfl, rfl⟩

/-! ## Newlines -/

def Token.HasAsciiArguments (t : Token) : Prop := ∀ a, some a ∈ t.arguments → Text.IsAscii a

namespace Builtin

/-- The number of newlines that a token asks for, one if it does not say. -/
def newlineCount (t : Token) : Nat :=
  match t.arguments with
  | [some digits] => Text.numeral digits
  | _ => 1

def newlines (n : Nat) : String := String.ofList (List.replicate n '\n')

def tooMany (n : Nat) : String :=
  tokenOf "newline" ++ ": " ++
    ("count " ++ toString n ++ " exceeds the maximum of " ++ toString maxNewlines)

def outOfRange (digits : List Char) : String :=
  tokenOf "newline" ++ ": " ++ ("count '" ++ String.ofList digits ++ "' is out of range")

/-- How a token of `newline` is answered. The last of the four cases takes in digits that are not
ASCII, of whatever number. -/
structure AnswersCount (t : Token) (answer : Except (List String) String) : Prop where
  counted : t.arguments = [none] ∨
    ∃ digits, t.arguments = [some digits] ∧ Admission.digits.Admits digits
  few : t.HasAsciiArguments → newlineCount t ≤ 1000 → answer = .ok (newlines (newlineCount t))
  many : t.HasAsciiArguments → 1000 < newlineCount t → newlineCount t ≤ Text.maxInt64 →
    answer = .error [tooMany (newlineCount t)]
  unread : ∀ digits, some digits ∈ t.arguments →
    ¬Text.IsAscii digits ∨ Text.maxInt64 < newlineCount t → answer = .error [outOfRange digits]

/-- A token of `newline` has at most one argument, of digits. -/
theorem counted_newline {s : List Char} {o : Occurrence} (ho : o ∈ newline.found s) :
    o.token.arguments = [none] ∨
      ∃ digits, o.token.arguments = [some digits] ∧ Admission.digits.Admits digits := by
  obtain ⟨a, harguments, ha⟩ := Variable.exists_argument_of_mem_found rfl ho
  rw [harguments]
  cases a with
  | none => exact .inl rfl
  | some digits =>
    obtain ⟨shape, hshape, hdigits⟩ := ha
    obtain rfl := Except.ok.inj hshape
    exact .inr ⟨digits, rfl, hdigits⟩

theorem generate_newline (a : Arguments) (m : Nat) :
    newline.generate a m =
      match a.integer? "count" with
      | none => .ok "\n"
      | some (.ok n) =>
        if 0 ≤ n ∧ n ≤ maxNewlines then .ok (newlines n.toNat)
        else
          .error (.about "newline"
            ("count " ++ toString n ++ " exceeds the maximum of " ++ toString maxNewlines))
      | some (.error raw) =>
        .error (.about "newline" ("count '" ++ raw ++ "' is out of range")) := rfl

theorem outcome_newline_bare : newline.outcome [none] = .ok (newlines 1) := by
  have hnone : (newline.argumentsOf [none]).integer? "count" = none := rfl
  rw [Variable.outcome, generate_newline, hnone]
  rfl

section
variable {given : List (Option (List Char))}

/-- A number within the bound gives so many newlines, and a greater one is refused. -/
theorem outcome_newline_of_integer {n : Nat}
    (h : (newline.argumentsOf given).get? "count" = some (.integer n)) :
    newline.outcome given = if n ≤ 1000 then .ok (newlines n) else .error [tooMany n] := by
  have hinteger : (newline.argumentsOf given).integer? "count" = some (.ok (n : Int)) := by
    rw [Arguments.integer?, h]
    rfl
  have hbound : (0 ≤ (n : Int) ∧ (n : Int) ≤ maxNewlines) ↔ n ≤ 1000 := by
    simp only [maxNewlines]
    omega
  rw [Variable.outcome, generate_newline, hinteger]
  dsimp only
  by_cases hn : n ≤ 1000
  · rw [if_pos (hbound.2 hn), if_pos hn]
    rfl
  · rw [if_neg (mt hbound.1 hn), if_neg hn]
    rfl

theorem outcome_newline_of_text {digits : List Char}
    (h : (newline.argumentsOf given).get? "count" = some (.text (String.ofList digits))) :
    newline.outcome given = .error [outOfRange digits] := by
  have hraw : (newline.argumentsOf given).integer? "count" = some (.error (.ofList digits)) := by
    rw [Arguments.integer?, h]
    rfl
  rw [Variable.outcome, generate_newline, hraw]
  rfl

end

theorem answersCount_bare {t : Token} (h : t.arguments = [none]) :
    AnswersCount t (newline.outcome t.arguments) := by
  have hcount : newlineCount t = 1 := by rw [newlineCount, h]
  constructor
  case counted => exact .inl h
  case few =>
    intro _ _
    rw [h, hcount, outcome_newline_bare]
  case many =>
    intro _ hmany
    omega
  case unread =>
    intro digits hmem
    simp [h] at hmem

/-- A count that was kept as a number is compared with the bound, one that was not is refused. -/
theorem answersCount_of_keeps {t : Token} {digits : List Char} {a : Argument}
    (h : t.arguments = [some digits]) (hadmits : Admission.digits.Admits digits)
    (ha : a.Keeps digits) (hget : (newline.argumentsOf t.arguments).get? "count" = some a) :
    AnswersCount t (newline.outcome t.arguments) := by
  have hcount : newlineCount t = Text.numeral digits := by rw [newlineCount, h]
  have hplain : t.HasAsciiArguments ↔ Text.IsAscii digits := by
    simp [Token.HasAsciiArguments, h]
  have hsame : ∀ other, some other ∈ t.arguments → other = digits := by simp [h]
  cases a with
  | integer n =>
    obtain ⟨rfl, hascii, hfits⟩ := (ha.integer_iff n).1 rfl
    rw [outcome_newline_of_integer hget, ← hcount]
    constructor
    case counted => exact .inr ⟨digits, h, hadmits⟩
    case few =>
      intro _ hfew
      rw [if_pos hfew]
    case many =>
      intro _ hmany _
      rw [if_neg (Nat.not_le.2 hmany)]
    case unread =>
      intro other hother hunread
      obtain rfl := hsame other hother
      rw [hcount] at hunread
      exact absurd hunread (by simp [hascii, hfits])
  | text raw =>
    obtain ⟨rfl, hunread⟩ := (ha.text_iff raw).1 rfl
    have hbeyond : t.HasAsciiArguments → Text.maxInt64 < newlineCount t := by
      intro hascii
      rw [hcount]
      exact hunread.resolve_left (not_not.2 (hplain.1 hascii))
    rw [outcome_newline_of_text hget]
    constructor
    case counted => exact .inr ⟨digits, h, hadmits⟩
    case few =>
      intro hascii hfew
      have := hbeyond hascii
      simp only [Text.maxInt64] at this
      omega
    case many =>
      intro hascii _ hfits
      have := hbeyond hascii
      omega
    case unread =>
      intro other hother _
      rw [hsame other hother]

theorem answersCount {s : List Char} {o : Occurrence} (ho : o ∈ newline.found s) :
    AnswersCount o.token (newline.outcome o.token.arguments) := by
  rcases counted_newline ho with hnone | ⟨digits, hdigits, hadmits⟩
  · exact answersCount_bare hnone
  · have hkept : newline.KeepsNumbers o (.optional (.integer "count")) digits :=
      Variable.keepsNumbers ho (by simp [hdigits, newline]) rfl
    obtain ⟨a, ha, hget⟩ := hkept.handed (List.nodup_singleton _)
    exact answersCount_of_keeps hdigits hadmits ha hget

/-! ## Contents -/

theorem regular_newline : newline.Regular :=
  ⟨wellFormed_newline, List.nodup_singleton _, determined_newline⟩

/-- Every token asks for a number that is read and within the bound. -/
def Countable (s : List Char) : Prop :=
  ∀ o ∈ newline.found s, o.token.HasAsciiArguments ∧ newlineCount o.token ≤ 1000

/-- The newlines asked for, in the places of the tokens. -/
def withNewlines (escaper : Option Escaper) (s : List Char) : List Char :=
  splice 0 ((newline.found s).map fun o =>
    (o, insertedText escaper o.token (newlines (newlineCount o.token)))) s

theorem answerAt_newline (o : Occurrence) :
    newline.answerAt o = newline.outcome o.token.arguments :=
  (Variable.outcome_eq_respond regular_newline.names o.token.arguments).symm

theorem AnswersCount.of_ok {t : Token} {value : String} (h : AnswersCount t (.ok value)) :
    t.HasAsciiArguments ∧ newlineCount t ≤ 1000 := by
  rcases h.counted with hnone | ⟨digits, hdigits, -⟩
  · simp [Token.HasAsciiArguments, newlineCount, hnone]
  · have hread : Text.IsAscii digits ∧ newlineCount t ≤ Text.maxInt64 := by
      by_contra hunread
      rw [Classical.not_and_iff_not_or_not, Int.not_le] at hunread
      cases h.unread digits (by simp [hdigits]) hunread
    have hascii : t.HasAsciiArguments := by simp [Token.HasAsciiArguments, hdigits, hread.1]
    refine ⟨hascii, ?_⟩
    by_contra hmany
    cases h.many hascii (by omega) hread.2

theorem exists_answerAt_iff {s : List Char} {o : Occurrence} (ho : o ∈ newline.found s) :
    (∃ value, newline.answerAt o = .ok value) ↔
      o.token.HasAsciiArguments ∧ newlineCount o.token ≤ 1000 := by
  have hanswers := answersCount ho
  rw [answerAt_newline]
  constructor
  · rintro ⟨value, hvalue⟩
    exact (hvalue ▸ hanswers).of_ok
  · rintro ⟨hascii, hfew⟩
    exact ⟨_, hanswers.few hascii hfew⟩

/-- The newlines of a text can be put in just when every number is read and within the bound. -/
theorem exists_turn_newline_iff {escaper : Option Escaper} {s : List Char} :
    (∃ t n, newline.turn escaper s = .ok (t, n)) ↔ Countable s := by
  rw [Variable.exists_turn_eq_ok_iff]
  exact forall₂_congr fun o ho => exists_answerAt_iff ho

theorem turn_newline {s : List Char} (h : Countable s) (escaper : Option Escaper) :
    newline.turn escaper s = .ok (withNewlines escaper s, (newline.found s).length) := by
  have hreplaced : ∀ o ∈ newline.found s, newline.replacement escaper o =
      .ok (o, insertedText escaper o.token (newlines (newlineCount o.token))) := by
    intro o ho
    obtain ⟨hascii, hfew⟩ := h o ho
    rw [Variable.replacement, answerAt_newline, (answersCount ho).few hascii hfew]
    rfl
  rw [Variable.turn, mapM_eq_ok_map hreplaced]
  simp [withNewlines]

end Builtin

structure NumbersKept (content : String) : Prop where
  /-- Whatever variable finds the occurrence, its digits are stored as the number that they write
  if they are ASCII and it reaches. -/
  captured : ∀ v : Variable, ∀ o ∈ v.found content.toList, ∀ p digits,
    (p, some digits) ∈ v.parameters.zip o.token.arguments → p.isInteger →
    v.KeepsNumbers o p digits
  /-- So a token of `newline` is answered by its number, also by an instance used before, -/
  answered : ∀ o ∈ Builtin.newline.found content.toList, ∀ w : Instance,
    w.base = Builtin.newline → Builtin.AnswersCount o.token (w.answer o.token).2
  /-- the content has as many newlines for each token as it asks for, -/
  resolved : ∀ escaper, ∀ w : Instance, w.base = Builtin.newline →
    Builtin.Countable content.toList →
    ∃ left, resolveContent escaper [w] content =
      .ok (left, .success content (String.ofList (Builtin.withNewlines escaper content.toList))
        (Builtin.newline.found content.toList).length)
  /-- and it fails if one of its tokens cannot be answered. -/
  failed : ∀ escaper, ∀ w : Instance, w.base = Builtin.newline →
    ¬Builtin.Countable content.toList →
    ∃ left messages, resolveContent escaper [w] content = .ok (left, .failure content messages)

theorem resolveContent_newline (escaper : Option Escaper) {w : Instance}
    (hw : w.base = Builtin.newline) (content : String) :
    ∃ left, resolveContent escaper [w] content =
      .ok (left, .ofOutcome content (Builtin.newline.turn escaper content.toList)) := by
  have hregular : ∀ v ∈ [w], v.base.Regular := by
    intro v hv
    rw [List.mem_singleton.1 hv, hw]
    exact Builtin.regular_newline
  obtain ⟨left, hleft⟩ := exists_resolveContent_eq_turns escaper hregular content
  rw [List.map_singleton, hw, turns_singleton] at hleft
  exact ⟨left, hleft⟩

/-- In every content, digits are kept as their number where they are ASCII and it fits, and as their
text everywhere else. -/
theorem numbers_kept (content : String) : NumbersKept content where
  captured _ _ ho _ _ hcaptured hp := Variable.keepsNumbers ho hcaptured hp
  answered o ho w hw := by
    have hdetermined : w.base.Determined := hw ▸ Builtin.determined_newline
    rw [Instance.answer_eq_outcome hdetermined, hw]
    exact Builtin.answersCount ho
  resolved escaper w hw hcountable := by
    have hturn := Builtin.turn_newline hcountable escaper
    obtain ⟨left, hleft⟩ := resolveContent_newline escaper hw content
    rw [hturn] at hleft
    exact ⟨left, hleft⟩
  failed escaper w hw hcountable := by
    obtain ⟨left, hleft⟩ := resolveContent_newline escaper hw content
    cases hturn : Builtin.newline.turn escaper content.toList with
    | ok out => exact absurd (Builtin.exists_turn_newline_iff.1 ⟨out.1, out.2, hturn⟩) hcountable
    | error messages =>
      rw [hturn] at hleft
      exact ⟨left, messages, hleft⟩

example : Builtin.newline.turn none "a\x7b\x7bnewline:0003\x7d\x7db".toList =
    .ok ("a\n\n\nb".toList, 1) := by decide +kernel

def threeLines : String := "\x7b\x7bnewline:٣\x7d\x7d"

/-- A three of another script is found, kept as text and said to be out of range. -/
theorem three_out_of_range :
    Builtin.newline.found threeLines.toList =
        [⟨0, 14, ⟨false, "newline".toList, [some ['٣']]⟩⟩] ∧
      Text.numeral ['٣'] = 3 ∧
      Builtin.newline.argument "count" "٣" = .text "٣" ∧
      ∃ left, resolveContent none [.of Builtin.newline] threeLines =
        .ok (left, .failure threeLines
          ["\x7b\x7bnewline\x7d\x7d: count '٣' is out of range"]) := by
  have hturn : Builtin.newline.turn none threeLines.toList =
      .error ["\x7b\x7bnewline\x7d\x7d: count '٣' is out of range"] := by decide +kernel
  obtain ⟨left, hleft⟩ :=
    resolveContent_newline none (w := .of Builtin.newline) rfl threeLines
  rw [hturn] at hleft
  exact ⟨by decide +kernel, by decide +kernel, by decide +kernel, left, hleft⟩

end CommandTemplate
