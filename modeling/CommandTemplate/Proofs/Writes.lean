import CommandTemplate.Proofs.ByteOrder
import CommandTemplate.Proofs.CustomSets

/-!
# Sets of custom variables as histories of writes

A set is made by giving values to names and by declaring names. Of such a history it shows the
names that occur and the last value of each, and taking over a set comes to writing its history
behind one's own.
-/
namespace CommandTemplate

/-- One write to a set of custom variables. -/
inductive CustomWrite where
  | set (name value : String)
  | declare (name : String)
  deriving DecidableEq, Repr

namespace CustomWrite

def name : CustomWrite → String
  | .set name _ => name
  | .declare name => name

def given : CustomWrite → Option String
  | .set _ value => some value
  | .declare _ => none

/-- The value that the write puts under a normalized name. -/
def value? (name : String) (w : CustomWrite) : Option String :=
  if customName w.name = name then w.given else none

def entry (w : CustomWrite) : String × Option String := (customName w.name, w.given)

end CustomWrite

namespace CustomSet

def write (s : CustomSet) : CustomWrite → CustomSet
  | .set name value => s.set name value
  | .declare name => s.declare name

def ofWrites (ws : List CustomWrite) : CustomSet := ws.foldl write ∅

/-- The last write that puts a value under the normalized name puts this one there. -/
def LastWrite (ws : List CustomWrite) (name value : String) : Prop :=
  ∃ before key after, ws = before ++ .set key value :: after ∧ customName key = name ∧
    ∀ w ∈ after, w.value? name = none

structure ShowsWrites (ws : List CustomWrite) (s : CustomSet) : Prop where
  /-- A name has the last value that was written under it, however it was spelled, -/
  get?_iff : ∀ name value, s.get? name = some value ↔ LastWrite ws (customName name) value
  /-- and no value where none was; declarations make no difference. -/
  get?_eq_none_iff : ∀ name, s.get? name = none ↔ ∀ w ∈ ws, w.value? (customName name) = none
  mem_names_iff : ∀ name, name ∈ s.names ↔ ∃ w ∈ ws, customName w.name = name
  /-- Each name is there once, in the order of bytes, -/
  ascending : s.names.Pairwise fun a b => utf8Bytes a < utf8Bytes b
  /-- and it is the name that it is normalized to. -/
  normal : ∀ name ∈ s.names, name.toList.head? = some '_' ∧ customName name = name
  /-- There is one variable for each name, in this order, with the value of the name. -/
  yields : s.toVariables = s.names.map fun name => customVariable name (s.get? name)
  yields_names : s.toVariables.map (·.name) = s.names

/-! ## Entries -/

theorem written_append (name : String) (es fs : List (String × Option String)) :
    written name (es ++ fs) = atop (written name fs) (written name es) := by
  induction es with
  | nil => exact (atop_none _).symm
  | cons e es ih => rw [List.cons_append, written, ih, atop_assoc, written]

theorem isSome_atop (later earlier : Option (Option String)) :
    (atop later earlier).isSome = (later.isSome || earlier.isSome) := by
  rcases later with - | - | value <;> simp [atop]

/-- A name is held if something was written under it. -/
theorem isSome_written_iff {name : String} {es : List (String × Option String)} :
    (written name es).isSome ↔ ∃ e ∈ es, e.1 = name := by
  induction es with
  | nil => simp [written]
  | cons e es ih =>
    rw [written, isSome_atop, Bool.or_eq_true, ih, List.exists_mem_cons_iff]
    by_cases hname : name = e.1
    · simp [hname]
    · simp [hname, Ne.symm hname]

theorem values_write (s : CustomSet) (w : CustomWrite) :
    (s.write w).values = add s.values w.entry := by
  cases w with
  | set name value => rfl
  | declare name => rfl

theorem values_ofWrites (ws : List CustomWrite) (name : String) :
    (ofWrites ws).values.get? name = written name (ws.map CustomWrite.entry) := by
  have hvalues : ∀ s : CustomSet, (ws.foldl write s).values =
      (ws.map CustomWrite.entry).foldl add s.values := by
    induction ws with
    | nil => exact fun s => rfl
    | cons w ws ih =>
      intro s
      rw [List.foldl_cons, ih, values_write, List.map_cons, List.foldl_cons]
  rw [ofWrites, hvalues, get?_foldl_add]
  exact atop_none _

/-- The value of a name is the one that is found first from the end of the history. -/
theorem join_written_entries (name : String) (ws : List CustomWrite) :
    (written name (ws.map CustomWrite.entry)).join = ws.reverse.findSome? (·.value? name) := by
  induction ws with
  | nil => rfl
  | cons w ws ih =>
    have hhere : (if name = w.entry.1 then some w.entry.2 else none : Option (Option String)).join =
        w.value? name := by
      by_cases hname : customName w.name = name
      · simp [CustomWrite.entry, CustomWrite.value?, hname]
      · simp [CustomWrite.entry, CustomWrite.value?, hname, Ne.symm hname]
    rw [List.map_cons, written, join_atop, ih, hhere, List.reverse_cons, List.findSome?_append,
      List.findSome?_singleton]

/-! ## What a set shows -/

theorem get?_ofWrites (ws : List CustomWrite) (name : String) :
    (ofWrites ws).get? name = ws.reverse.findSome? (·.value? (customName name)) := by
  rw [get?, values_ofWrites, join_written_entries]

/-- The last write of a value is the first from the end. -/
theorem lastWrite_iff {ws : List CustomWrite} {name value : String} :
    LastWrite ws name value ↔ ws.reverse.findSome? (·.value? name) = some value := by
  rw [List.findSome?_eq_some_iff]
  constructor
  · rintro ⟨before, key, after, rfl, hkey, hafter⟩
    refine ⟨after.reverse, .set key value, before.reverse, by simp, if_pos hkey, ?_⟩
    simpa using hafter
  · rintro ⟨after, w, before, hreverse, hvalue, hafter⟩
    have hws : ws = before.reverse ++ w :: after.reverse := by
      rw [← ws.reverse_reverse, hreverse]
      simp
    rw [CustomWrite.value?] at hvalue
    split at hvalue
    · rename_i hkey
      cases w with
      | declare key => cases hvalue
      | set key written =>
        obtain rfl := Option.some.inj hvalue
        exact ⟨before.reverse, key, after.reverse, hws, hkey, by simpa using hafter⟩
    · cases hvalue

theorem mem_names_ofWrites_iff {ws : List CustomWrite} {name : String} :
    name ∈ (ofWrites ws).names ↔ ∃ w ∈ ws, customName w.name = name := by
  rw [names, Dict.mem_keys_iff, values_ofWrites, isSome_written_iff]
  simp [CustomWrite.entry]

/-- The variables of a set are those of its names, if these are normalized. -/
theorem toVariables_eq_map_names {s : CustomSet} (h : ∀ name ∈ s.names, customName name = name) :
    s.toVariables = s.names.map fun name => customVariable name (s.get? name) := by
  rw [toVariables, names, Dict.keys, List.map_map]
  refine List.map_congr_left fun e he => ?_
  have hname : customName e.1 = e.1 := h e.1 (List.mem_map_of_mem he)
  have hvalue : s.values.get? e.1 = some e.2 := (Dict.mem_entries_iff _ e.1 e.2).1 he
  simp [get?, hname, hvalue]

theorem showsWrites (ws : List CustomWrite) : ShowsWrites ws (ofWrites ws) := by
  have hnormal : ∀ name ∈ (ofWrites ws).names, customName name = name := by
    intro name hname
    obtain ⟨w, -, rfl⟩ := mem_names_ofWrites_iff.1 hname
    exact customName_customName w.name
  have hyields := toVariables_eq_map_names hnormal
  constructor
  case get?_iff =>
    intro name value
    rw [get?_ofWrites, lastWrite_iff]
  case get?_eq_none_iff =>
    intro name
    rw [get?_ofWrites, List.findSome?_eq_none_iff]
    simp
  case mem_names_iff => exact fun name => mem_names_ofWrites_iff
  case ascending => exact (Dict.keys_ascending _).imp fun h => (utf8Bytes_lt_iff ..).2 h
  case normal =>
    intro name hname
    refine ⟨?_, hnormal name hname⟩
    rw [← hnormal name hname]
    exact head?_customName name
  case yields => exact hyields
  case yields_names =>
    rw [hyields, List.map_map]
    refine (List.map_congr_left fun name hname => ?_).trans (List.map_id _)
    rw [Function.comp_apply, name_customVariable, hnormal name hname, id]

/-! ## Taking over -/

/-- Taking over a set is writing again what made it. -/
theorem extend_ofWrites (ws ws' : List CustomWrite) :
    (ofWrites ws).extend (ofWrites ws') = ofWrites (ws ++ ws') := by
  refine ext_values fun name => ?_
  rw [values_extend, values_ofWrites, values_ofWrites, values_ofWrites, List.map_append,
    written_append]

/-- Sets can be taken over in any grouping. -/
theorem extend_assoc (s t u : CustomSet) : (s.extend t).extend u = s.extend (t.extend u) := by
  refine ext_values fun name => ?_
  rw [values_extend, values_extend, values_extend, values_extend, atop_assoc]

theorem extend_empty (s : CustomSet) : s.extend ∅ = s := rfl

theorem empty_extend (s : CustomSet) : (∅ : CustomSet).extend s = s := by
  refine ext_values fun name => ?_
  rw [values_extend]
  exact atop_none _

/-- A set shows the last writes of its history and nothing else, and taking over a set is writing
its history. -/
theorem histories_replayed :
    (∀ ws, ShowsWrites ws (ofWrites ws)) ∧
      (∀ ws ws', (ofWrites ws).extend (ofWrites ws') = ofWrites (ws ++ ws')) ∧
      (∀ s t u : CustomSet, (s.extend t).extend u = s.extend (t.extend u)) ∧
      ∀ s : CustomSet, s.extend ∅ = s ∧ (∅ : CustomSet).extend s = s :=
  ⟨showsWrites, extend_ofWrites, extend_assoc, fun s => ⟨extend_empty s, empty_extend s⟩⟩

end CustomSet
end CommandTemplate
