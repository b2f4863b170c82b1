import CommandTemplate.CommandLine.Resolve
import CommandTemplate.Proofs.Distinct

/-!
# Messages, each once

The messages of a key are shown once each, and then those of all keys are. This is the same as
going over all messages together, and for the messages of a key it is the same in how many phases,
and merged in what order, they have come together.
-/
namespace CommandTemplate

/-! ## Keys -/

/-- The two loops: over the keys, and over what each of them shows once. -/
theorem ResolveOutcome.messages_eq_foldl (o : ResolveOutcome) : o.messages =
    o.results.foldl (fun seen e => e.2.distinctMessages.foldl keepNew seen) [] :=
  List.foldl_flatMap

/-- The messages of an outcome are those of all results in turn, each once. -/
theorem ResolveOutcome.messages_eq_distinct (o : ResolveOutcome) :
    o.messages = distinct (o.results.flatMap fun e => e.2.messages) := by
  simp only [messages_eq_foldl, Resolution.distinctMessages, foldl_keepNew_distinct]
  exact List.foldl_flatMap.symm

/-! ## Merges -/

namespace Resolution

theorem merge_assoc (a b c : Resolution) : (a.merge b).merge c = a.merge (b.merge c) := by
  simp [merge, Bool.and_assoc, Nat.add_assoc]

instance : Std.Associative merge := ⟨merge_assoc⟩

/-- Merging puts messages in a row, in the order of the resolutions. -/
theorem messages_foldl_merge (first : Resolution) (later : List Resolution) :
    (later.foldl merge first).messages = (first :: later).flatMap fun r => r.messages := by
  induction later generalizing first with
  | nil => simp
  | cons next later ih =>
    rw [List.foldl_cons, ih, List.flatMap_cons, List.flatMap_cons, List.flatMap_cons,
      ← List.append_assoc]
    rfl

end Resolution

/-- Resolutions that are merged, with the grouping. -/
inductive Grouping where
  | one (r : Resolution)
  | both (earlier later : Grouping)

namespace Grouping

def members : Grouping → List Resolution
  | one r => [r]
  | both g h => g.members ++ h.members

def merged : Grouping → Resolution
  | one r => r
  | both g h => g.merged.merge h.merged

/-- A grouping comes to the same as merging one after the other. -/
theorem exists_members (g : Grouping) : ∃ first later,
    g.members = first :: later ∧ g.merged = later.foldl Resolution.merge first := by
  induction g with
  | one r => exact ⟨r, [], rfl, rfl⟩
  | both g h ihg ihh =>
    obtain ⟨first, later, hmembers, hmerged⟩ := ihg
    obtain ⟨next, last, hnext, hlast⟩ := ihh
    refine ⟨first, later ++ next :: last, ?_, ?_⟩
    · rw [members, hmembers, hnext, List.cons_append]
    · rw [merged, hmerged, hlast, List.foldl_append, List.foldl_cons, List.foldl_assoc]

/-- However resolutions are grouped, merging them comes to merging them one by one. -/
theorem merged_eq_foldl {g : Grouping} {first : Resolution} {later : List Resolution}
    (h : g.members = first :: later) : g.merged = later.foldl Resolution.merge first := by
  obtain ⟨first', later', hmembers, hmerged⟩ := g.exists_members
  obtain ⟨rfl, rfl⟩ := List.cons.inj (h.symm.trans hmembers)
  exact hmerged

end Grouping

/-- That each message is shown once can be left to the end: over the keys of an outcome, one pass
over all messages does what the loops do, and over resolutions that are merged the grouping does not
matter. -/
theorem messages_composed (o : ResolveOutcome) (first : Resolution) (later : List Resolution) :
    (o.messages = o.results.foldl (fun seen e => e.2.distinctMessages.foldl keepNew seen) [] ∧
      o.messages = distinct (o.results.flatMap fun e => e.2.messages) ∧
      ∀ ms, FirstOnly (o.results.flatMap fun e => e.2.messages) ms ↔ ms = o.messages) ∧
    ((later.foldl Resolution.merge first).distinctMessages =
        distinct ((first :: later).flatMap fun r => r.messages) ∧
      ∀ g : Grouping, g.members = first :: later →
        g.merged = later.foldl Resolution.merge first) := by
  refine ⟨⟨o.messages_eq_foldl, o.messages_eq_distinct, ?_⟩, ?_, ?_⟩
  · intro ms
    rw [o.messages_eq_distinct]
    exact firstOnly_iff
  · rw [Resolution.distinctMessages, Resolution.messages_foldl_merge]
  · exact fun g hmembers => Grouping.merged_eq_foldl hmembers

end CommandTemplate
