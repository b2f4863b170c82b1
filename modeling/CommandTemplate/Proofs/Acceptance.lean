import CommandTemplate.Proofs.Folding
import CommandTemplate.Token.Grammar

/-!
# What the matcher accepts

The matcher prefers some readings to others, but it never gives up a text that has one: a token of
a pattern is found at the start of a text if and only if one stands there.
-/
namespace CommandTemplate

section
variable {α : Type} {ok : Char → Bool} {next : List Char → Option α}

theorem isSome_shortestRun {run rest : List Char} (hne : run ≠ []) (hok : ∀ c ∈ run, ok c)
    (hn : (next rest).isSome) : (shortestRun ok next (run ++ rest)).isSome := by
  induction run with
  | nil => exact absurd rfl hne
  | cons c run ih =>
    obtain ⟨hc, hrun⟩ := List.forall_mem_cons.1 hok
    rw [List.cons_append, shortestRun, if_pos hc]
    cases hnext : next (run ++ rest) with
    | some a => rfl
    | none =>
      cases run with
      | nil => exact absurd hn (by simp_all)
      | cons d run => simpa using ih (by simp) hrun

theorem isSome_longestRun {run rest : List Char} (hne : run ≠ []) (hok : ∀ c ∈ run, ok c)
    (hn : (next rest).isSome) : (longestRun ok next (run ++ rest)).isSome := by
  induction run with
  | nil => exact absurd rfl hne
  | cons c run ih =>
    obtain ⟨hc, hrun⟩ := List.forall_mem_cons.1 hok
    rw [List.cons_append, longestRun, if_pos hc]
    cases hlong : longestRun ok next (run ++ rest) with
    | some r => rfl
    | none =>
      cases run with
      | nil => simpa using hn
      | cons d run =>
        have hsome := ih (by simp) hrun
        rw [hlong] at hsome
        simp at hsome

theorem isSome_firstOption {options : List (List Char)} {option spelled rest : List Char}
    (hmem : option ∈ options) (hs : Text.sameFolded option spelled) (hn : (next rest).isSome) :
    (firstOption next options (spelled ++ rest)).isSome := by
  rw [firstOption, List.findSome?_isSome_iff]
  exact ⟨option, hmem, by simpa [Text.stripFolded_append hs] using hn⟩

/-- In front of a text that can be read on, an argument lets one be read, though perhaps not
itself. -/
theorem Admission.isSome_match? {admission : Admission} {argument rest : List Char}
    (ha : admission.Admits argument) (hn : (next rest).isSome) :
    (admission.match? next (argument ++ rest)).isSome := by
  cases admission with
  | text =>
    obtain ⟨hne, hok⟩ := ha
    exact isSome_shortestRun hne (by simpa using hok) hn
  | digits => exact isSome_longestRun ha.1 ha.2 hn
  | oneOf options =>
    obtain ⟨option, hmem, hs⟩ := ha
    exact isSome_firstOption hmem hs hn
end

theorem Fills.eq_nil {arguments : List (Option (List Char))} (h : Fills [] arguments) :
    arguments = [] := by
  cases h
  rfl

theorem matchSlots_colon (slot : Slot) (slots : List Slot) (s : List Char) :
    matchSlots (slot :: slots) (':' :: s) =
      match slot.admits.match? (matchSlots slots) s with
      | some (a, arguments, rest) => some (some a :: arguments, rest)
      | none =>
        if slot.required then none
        else (matchSlots slots (':' :: s)).map fun (arguments, rest) =>
          (none :: arguments, rest) := by
  rw [matchSlots.eq_def]
  rfl

/-- Arguments that fill the slots are never refused. -/
theorem isSome_matchSlots {slots : List Slot} {arguments : List (Option (List Char))}
    (h : Fills slots arguments) (rest : List Char) :
    (matchSlots slots (Token.tailText arguments ++ rest)).isSome := by
  induction h with
  | nil => rfl
  | @given slot slots a arguments ha _ ih =>
    have hgiven : (slot.admits.match? (matchSlots slots)
        (a ++ (Token.tailText arguments ++ rest))).isSome := Admission.isSome_match? ha ih
    obtain ⟨⟨b, r⟩, hb⟩ := Option.isSome_iff_exists.1 hgiven
    have htext : Token.tailText (some a :: arguments) ++ rest =
        ':' :: (a ++ (Token.tailText arguments ++ rest)) := by
      simp
    rw [htext, matchSlots_colon, hb]
    rfl
  | @omitted slot slots arguments hr _ ih =>
    have htext : Token.tailText (none :: arguments) = Token.tailText arguments := by
      simp
    rw [matchSlots.eq_def, htext]
    dsimp only
    split
    · rfl
    · simpa [hr] using ih

namespace TokenPattern

theorem isSome_matchBody {p : TokenPattern} {t : Token} (h : p.Derives t) (marked : Bool)
    (rest : List Char) :
    (p.matchBody marked (t.name ++ (Token.tailText t.arguments ++ rest))).isSome := by
  rw [matchBody, Text.stripFolded_append h.name]
  simpa using isSome_matchSlots h.arguments rest

/-- A token of the pattern in front of a text makes the pattern match there. -/
theorem isSome_match? {p : TokenPattern} {t : Token} (h : p.Derives t) (rest : List Char) :
    (p.match? (t.text ++ rest)).isSome := by
  cases hm : t.marked with
  | true =>
    have := isSome_matchBody h true rest
    rw [Token.text_append_of_marked hm, match?]
    simp [this]
  | false =>
    have := isSome_matchBody h false rest
    rw [Token.text_append_of_unmarked hm, match?.eq_def]
    simp [this]

/-- A token is found at the start of a text just when the text begins with one. -/
theorem isSome_match?_iff (p : TokenPattern) (s : List Char) :
    (p.match? s).isSome ↔ ∃ t rest, p.Derives t ∧ s = t.text ++ rest := by
  constructor
  · intro h
    obtain ⟨t, ht⟩ := Option.isSome_iff_exists.1 h
    obtain ⟨hd, rest, hs⟩ := match?_eq_some ht
    exact ⟨t, rest, hd, hs⟩
  · rintro ⟨t, rest, hd, rfl⟩
    exact isSome_match? hd rest

end TokenPattern
end CommandTemplate
