import CommandTemplate.Text.Blank
import Mathlib.Data.List.TakeWhile

/-!
# Trimming

What trimming leaves has no blank at either end, and it is all that there is between blanks.
-/
namespace CommandTemplate.Text

structure Trimmed (s : List Char) : Prop where
  head : ∀ c ∈ s.head?, isBlank c = false
  last : ∀ c ∈ s.getLast?, isBlank c = false

theorem trimStart_eq_self {s : List Char} (h : ∀ c ∈ s.head?, isBlank c = false) :
    trimStart s = s := by
  cases s with
  | nil => rfl
  | cons c s => exact List.dropWhile_cons_of_neg (by simp [h c rfl])

theorem head_trimStart (s : List Char) : ∀ c ∈ (trimStart s).head?, isBlank c = false := by
  induction s with
  | nil => simp [trimStart]
  | cons c s ih =>
    rw [trimStart, List.dropWhile_cons]
    split
    · exact ih
    · rename_i hc
      intro d hd
      rw [List.head?_cons, Option.mem_some_iff] at hd
      simpa [← hd] using hc

theorem trimEnd_eq_reverse (s : List Char) : trimEnd s = (trimStart s.reverse).reverse := rfl

theorem trim_eq_self {s : List Char} (h : Trimmed s) : trim s = s := by
  have hlast : trimStart s.reverse = s.reverse := trimStart_eq_self (by simpa using h.last)
  rw [trim, trimStart_eq_self h.head, trimEnd_eq_reverse, hlast, List.reverse_reverse]

/-- Trimming leaves no blank at either end. -/
theorem trimmed_trim (s : List Char) : Trimmed (trim s) := by
  rw [trim, trimEnd_eq_reverse]
  have hhead := head_trimStart s
  generalize trimStart s = t at hhead
  have hprefix : (trimStart t.reverse).reverse <+: t := by
    simpa [trimStart] using List.reverse_prefix.2 (List.dropWhile_suffix (l := t.reverse) isBlank)
  constructor
  · intro c hc
    obtain ⟨rest, hrest⟩ := hprefix
    refine hhead c ?_
    rw [← hrest, List.head?_append, Option.mem_def.1 hc]
    rfl
  · rw [List.getLast?_reverse]
    exact head_trimStart t.reverse

theorem trimmed_of_not_blank {s : List Char} (h : ∀ c ∈ s, isBlank c = false) : Trimmed s :=
  ⟨fun c hc => h c (List.mem_of_mem_head? hc), fun c hc => h c (List.mem_of_mem_getLast? hc)⟩

/-! ## Between blanks -/

theorem trimStart_append {before : List Char} (h : ∀ c ∈ before, isBlank c) (s : List Char) :
    trimStart (before ++ s) = trimStart s :=
  List.dropWhile_append_of_pos h

theorem trimEnd_append {after : List Char} (h : ∀ c ∈ after, isBlank c) (s : List Char) :
    trimEnd (s ++ after) = trimEnd s := by
  have hreverse : ∀ c ∈ after.reverse, isBlank c := by simpa using h
  rw [trimEnd_eq_reverse, List.reverse_append, trimStart_append hreverse, ← trimEnd_eq_reverse]

/-- Blanks around a trimmed word are all that is taken off. -/
theorem trim_between {before word after : List Char} (hbefore : ∀ c ∈ before, isBlank c)
    (hword : Trimmed word) (hafter : ∀ c ∈ after, isBlank c) :
    trim (before ++ (word ++ after)) = word := by
  rw [trim, trimStart_append hbefore]
  cases word with
  | nil =>
    have hstart : trimStart after = [] := List.dropWhile_eq_nil_iff.2 hafter
    rw [List.nil_append, hstart]
    rfl
  | cons c word =>
    have hstart : trimStart (c :: word ++ after) = c :: word ++ after :=
      trimStart_eq_self fun d hd => hword.head d (by simpa using hd)
    have htrim : trimEnd (c :: word) = trim (c :: word) := by
      rw [trim, trimStart_eq_self hword.head]
    rw [hstart, trimEnd_append hafter, htrim, trim_eq_self hword]

/-- What is taken off the ends is blank. -/
theorem exists_trim (s : List Char) : ∃ before after, (∀ c ∈ before, isBlank c) ∧
    (∀ c ∈ after, isBlank c) ∧ s = before ++ (trim s ++ after) := by
  have hend : ∀ t : List Char, t = trimEnd t ++ (t.reverse.takeWhile isBlank).reverse := by
    intro t
    rw [trimEnd, ← List.reverse_append, List.takeWhile_append_dropWhile, List.reverse_reverse]
  refine ⟨s.takeWhile isBlank, ((trimStart s).reverse.takeWhile isBlank).reverse, ?_, ?_, ?_⟩
  · exact fun c hc => List.mem_takeWhile_imp hc
  · exact fun c hc => List.mem_takeWhile_imp (List.mem_reverse.1 hc)
  · rw [trim, ← hend, trimStart, List.takeWhile_append_dropWhile]

end CommandTemplate.Text
