import CommandTemplate.Proofs.Trimming
import CommandTemplate.Variable.Custom

/-!
# Names and values of custom variables

A name comes to one form however often it is normalized. What a name holds in a set is a matter of
the entries that were written under it, in their order, and of nothing else: the last value counts,
and a declaration only where there is no value. Taking over a set is writing its entries.
-/
namespace CommandTemplate

/-! ## The last entry -/

/-- The last value that the entries have under one of these names. -/
def lastValue? {α : Type} (names : String → Bool) (es : List (String × α)) : Option α :=
  (es.reverse.find? fun e => names e.1).map (·.2)

section

variable {α β : Type} {names : String → Bool}

@[simp] theorem lastValue?_nil : lastValue? names ([] : List (String × α)) = none := rfl

theorem lastValue?_cons (e : String × α) (es : List (String × α)) :
    lastValue? names (e :: es) =
      (lastValue? names es).or (if names e.1 then some e.2 else none) := by
  rw [lastValue?, List.reverse_cons, List.find?_append, lastValue?, List.find?_singleton]
  cases es.reverse.find? fun e => names e.1 with
  | some found => rfl
  | none => by_cases he : names e.1 <;> simp [he]

/-- Only the names that occur matter. -/
theorem lastValue?_congr (names names' : String → Bool) {es : List (String × α)}
    (h : ∀ e ∈ es, names e.1 = names' e.1) : lastValue? names es = lastValue? names' es := by
  induction es with
  | nil => rfl
  | cons e es ih =>
    obtain ⟨he, hes⟩ := List.forall_mem_cons.1 h
    rw [lastValue?_cons, ih hes, he, lastValue?_cons]

/-- Renaming the entries is renaming what is asked for. -/
theorem lastValue?_map (f : String → String) (g : α → β) (es : List (String × α)) :
    lastValue? names (es.map fun e => (f e.1, g e.2)) =
      (lastValue? (fun name => names (f name)) es).map g := by
  induction es with
  | nil => rfl
  | cons e es ih =>
    rw [List.map_cons, lastValue?_cons, ih, lastValue?_cons, Option.map_or]
    split <;> rfl

theorem isSome_lastValue?_iff {es : List (String × α)} :
    (lastValue? names es).isSome ↔ ∃ e ∈ es, names e.1 = true := by
  simp [lastValue?]

/-- The last entry under one of the names is the value. -/
theorem lastValue?_of_last {es : List (String × α)} {i : Nat} {e : String × α}
    (he : es[i]? = some e) (hname : names e.1 = true)
    (hlast : ∀ j > i, ∀ later, es[j]? = some later → names later.1 = false) :
    lastValue? names es = some e.2 := by
  induction es generalizing i with
  | nil => cases he
  | cons first es ih =>
    rw [lastValue?_cons]
    cases i with
    | zero =>
      obtain rfl : first = e := by simpa using he
      have hrest : lastValue? names es = none := by
        by_contra hsome
        obtain ⟨later, hmem, hlater⟩ :=
          isSome_lastValue?_iff.1 (Option.isSome_iff_ne_none.2 hsome)
        obtain ⟨j, hj⟩ := List.mem_iff_getElem?.1 hmem
        rw [hlast (j + 1) (Nat.succ_pos j) later (by simpa using hj)] at hlater
        cases hlater
      rw [hrest, Option.none_or, if_pos hname]
    | succ i =>
      have hrest := ih (by simpa using he) fun j hj later hlater =>
        hlast (j + 1) (Nat.succ_lt_succ hj) later (by simpa using hlater)
      rw [hrest, Option.some_or]

/-- With distinct names the last value is the only one. -/
theorem lastValue?_of_ascending {es : List (String × α)} (h : Ascending es) (name : String) :
    lastValue? (· == name) es = es.lookup name := by
  induction es with
  | nil => rfl
  | cons e es ih =>
    obtain ⟨he, hes⟩ := List.pairwise_cons.1 h
    rw [lastValue?_cons, ih hes, Dict.lookup_cons_ite]
    by_cases hname : name = e.1
    · rw [Dict.lookup_eq_none_of_lt (hname ▸ he)]
      simp [hname]
    · simp [hname, Ne.symm hname]

/-- Of an ordered list the first element that is found stands before the others. -/
theorem eq_or_rel_of_find? {order : α → α → Prop} {xs : List α} (h : xs.Pairwise order)
    {p : α → Bool} {first x : α} (hfirst : xs.find? p = some first) (hx : x ∈ xs)
    (hp : p x = true) : x = first ∨ order first x := by
  obtain ⟨-, before, after, hsplit, hbefore⟩ := List.find?_eq_some_iff_append.1 hfirst
  rw [hsplit, List.pairwise_append, List.pairwise_cons] at h
  rw [hsplit, List.mem_append, List.mem_cons] at hx
  rcases hx with hx | rfl | hx
  · exact absurd hp (by simpa using hbefore x hx)
  · exact .inl rfl
  · exact .inr (h.2.1.1 x hx)

/-- The last entry in ascending order has the greatest name. -/
theorem le_of_find?_reverse {es : List (String × α)} (h : Ascending es) {last : String × α}
    (hlast : (es.reverse.find? fun e => names e.1) = some last) {e : String × α} (he : e ∈ es)
    (hname : names e.1 = true) : e.1 ≤ last.1 := by
  have hdown : es.reverse.Pairwise fun d e => e.1 < d.1 := List.pairwise_reverse.2 h
  rcases eq_or_rel_of_find? hdown hlast (List.mem_reverse.2 he) hname with rfl | hlt
  · exact String.le_refl _
  · exact String.not_lt.1 (String.lt_asymm hlt)

/-- In ascending order the last entry is the one with the greatest name. -/
theorem lastValue?_eq_some_iff {es : List (String × α)} (h : Ascending es) {a : α} :
    lastValue? names es = some a ↔ ∃ name, (name, a) ∈ es ∧ names name = true ∧
      ∀ e ∈ es, names e.1 = true → e.1 ≤ name := by
  rw [lastValue?, Option.map_eq_some_iff]
  constructor
  · rintro ⟨last, hlast, rfl⟩
    exact ⟨last.1, List.mem_reverse.1 (List.mem_of_find?_eq_some hlast),
      List.find?_some (p := fun e : String × α => names e.1) hlast,
      fun e he hname => le_of_find?_reverse h hlast he hname⟩
  · rintro ⟨name, hmem, hname, hgreatest⟩
    have hsome : (es.reverse.find? fun e => names e.1).isSome :=
      List.find?_isSome.2 ⟨(name, a), List.mem_reverse.2 hmem, hname⟩
    obtain ⟨last, hlast⟩ := Option.isSome_iff_exists.1 hsome
    have hlastmem : last ∈ es := List.mem_reverse.1 (List.mem_of_find?_eq_some hlast)
    have hlastname : names last.1 = true :=
      List.find?_some (p := fun e : String × α => names e.1) hlast
    have heq : last.1 = name := String.le_antisymm (hgreatest last hlastmem hlastname)
      (le_of_find?_reverse h hlast hmem hname)
    have hlookup : es.lookup last.1 = some last.2 := (Dict.mem_iff_lookup_eq_some h).1 hlastmem
    rw [heq, (Dict.mem_iff_lookup_eq_some h).1 hmem] at hlookup
    exact ⟨last, hlast, (Option.some.inj hlookup).symm⟩

namespace Dict

/-- Entries written into a dictionary one by one replace what was there. -/
theorem get?_foldl_insert_eq (es : List (String × α)) (d : Dict α) (name : String) :
    (es.foldl (fun d e => d.insert e.1 e.2) d).get? name =
      (lastValue? (· == name) es).or (d.get? name) := by
  induction es generalizing d with
  | nil => rfl
  | cons e es ih =>
    rw [List.foldl_cons, ih, get?_insert, lastValue?_cons, Option.or_assoc]
    by_cases hname : name = e.1
    · simp [hname]
    · simp [hname, Ne.symm hname]

theorem get?_ofList (es : List (String × α)) (name : String) :
    (ofList es).get? name = lastValue? (· == name) es := by
  rw [ofList, get?_foldl_insert_eq]
  simp

/-- The entries of one dictionary written into another. -/
theorem get?_foldl_insert_entries (d e : Dict α) (name : String) :
    (e.entries.foldl (fun d e => d.insert e.1 e.2) d).get? name =
      (e.get? name).or (d.get? name) := by
  rw [get?_foldl_insert_eq, lastValue?_of_ascending e.ascending]
  rfl

end Dict

end

/-! ## Names -/

theorem head?_customName (name : String) : (customName name).toList.head? = some '_' := by
  rw [customName]
  split
  · assumption
  · simp

theorem trimmed_customName (name : String) : Text.Trimmed (customName name).toList := by
  have htrimmed : Text.Trimmed (Text.trimmed name).toList := by
    rw [Text.trimmed, String.toList_ofList]
    exact Text.trimmed_trim _
  rw [customName]
  split
  · exact htrimmed
  · refine ⟨by simp; decide, ?_⟩
    intro c hc
    rw [String.toList_append] at hc
    cases hlast : (Text.trimmed name).toList.getLast? with
    | some d =>
      rw [List.getLast?_append, hlast, Option.some_or, Option.mem_some_iff] at hc
      exact hc ▸ htrimmed.last d hlast
    | none =>
      rw [List.getLast?_append, hlast, Option.none_or] at hc
      have hunderscore : '_' = c := by simpa using hc
      rw [← hunderscore]
      decide

/-- A name that begins with an underscore and is trimmed is normalized already. -/
theorem customName_eq_self {name : String} (h : Text.Trimmed name.toList)
    (hhead : name.toList.head? = some '_') : customName name = name := by
  have htrim : Text.trimmed name = name := by
    rw [Text.trimmed, Text.trim_eq_self h, String.ofList_toList]
  rw [customName, htrim, if_pos hhead]

/-- A normalized name is left as it is. -/
@[simp] theorem customName_customName (name : String) :
    customName (customName name) = customName name :=
  customName_eq_self (trimmed_customName name) (head?_customName name)

@[simp] theorem name_customVariable (name : String) (value : Option String) :
    (customVariable name value).name = customName name := by
  simp only [customVariable]

/-! ## Sets -/

namespace CustomSet

/-- What a name holds when the later of two holdings is taken over: no entry, a declaration, or a
value. -/
def atop : Option (Option String) → Option (Option String) → Option (Option String)
  | none, earlier => earlier
  | some none, earlier => some earlier.join
  | some (some value), _ => some (some value)

@[simp] theorem none_atop (earlier : Option (Option String)) : atop none earlier = earlier := rfl

@[simp] theorem atop_none (later : Option (Option String)) : atop later none = later := by
  rcases later with - | - | value <;> rfl

/-- What a name holds depends on the order of what was taken over, not on the grouping. -/
theorem atop_assoc (a b c : Option (Option String)) : atop (atop a b) c = atop a (atop b c) := by
  rcases a with - | - | value
  · rfl
  · rcases b with - | - | value <;> rfl
  · rfl

theorem join_atop (later earlier : Option (Option String)) :
    (atop later earlier).join = later.join.or earlier.join := by
  rcases later with - | - | value <;> rfl

theorem atop_map_some (later earlier : Option String) :
    atop (later.map some) (earlier.map some) = (later.or earlier).map some := by
  cases later <;> rfl

/-- What a name holds when entries have been written one by one. -/
def written (name : String) : List (String × Option String) → Option (Option String)
  | [] => none
  | e :: es => atop (written name es) (if name = e.1 then some e.2 else none)

theorem get?_add (d : Dict (Option String)) (e : String × Option String) (name : String) :
    (add d e).get? name = atop (if name = e.1 then some e.2 else none) (d.get? name) := by
  obtain ⟨key, value⟩ := e
  cases value with
  | some value =>
    rw [add, Dict.get?_insert]
    split <;> rfl
  | none =>
    rw [add, Dict.get?_insertNew]
    split
    · rename_i hname
      subst hname
      rcases d.get? name with - | - | value <;> rfl
    · rfl

/-- Adding entries to a set puts what they write atop of what was there. -/
theorem get?_foldl_add (es : List (String × Option String)) (d : Dict (Option String))
    (name : String) : (es.foldl add d).get? name = atop (written name es) (d.get? name) := by
  induction es generalizing d with
  | nil => rfl
  | cons e es ih => rw [List.foldl_cons, ih, get?_add, written, atop_assoc]

theorem written_of_ascending {es : List (String × Option String)} (h : Ascending es)
    (name : String) : written name es = es.lookup name := by
  induction es with
  | nil => rfl
  | cons e es ih =>
    obtain ⟨he, hes⟩ := List.pairwise_cons.1 h
    rw [written, ih hes, Dict.lookup_cons_ite]
    by_cases hname : name = e.1
    · rw [Dict.lookup_eq_none_of_lt (hname ▸ he)]
      simp [hname]
    · simp [hname]

theorem written_values (name : String) (es : List (String × String)) :
    written name (es.map fun e => (customName e.1, some e.2)) =
      (lastValue? (fun key => customName key == name) es).map some := by
  induction es with
  | nil => rfl
  | cons e es ih =>
    have hhere : (if name = customName e.1 then some (some e.2) else none) =
        (if customName e.1 == name then some e.2 else none).map some := by
      by_cases hname : name = customName e.1
      · simp [hname]
      · simp [hname, Ne.symm hname]
    rw [List.map_cons, written, ih, lastValue?_cons, hhere, atop_map_some]

/-- A declaration alone gives a name no value. -/
theorem written_declarations (name : String) (names : List String) :
    written name (names.map fun key => (customName key, none)) =
      if name ∈ names.map customName then some none else none := by
  induction names with
  | nil => rfl
  | cons key names ih =>
    rw [List.map_cons, written, ih, List.map_cons]
    simp only [List.mem_cons]
    by_cases hmem : name ∈ names.map customName
    · rw [if_pos hmem, if_pos (Or.inr hmem)]
      split <;> rfl
    · rw [if_neg hmem, none_atop]
      simp only [hmem, or_false]

/-- Taking over a set is writing its entries. -/
theorem values_extend (s t : CustomSet) (name : String) :
    (s.extend t).values.get? name = atop (t.values.get? name) (s.values.get? name) := by
  rw [extend, get?_foldl_add, written_of_ascending t.values.ascending]
  rfl

theorem values_ofList (es : List (String × String)) (name : String) :
    (ofList es).values.get? name =
      (lastValue? (fun key => customName key == name) es).map some := by
  have hvalues : ∀ s : CustomSet, (es.foldl (fun s e => s.set e.1 e.2) s).values =
      (es.map fun e => (customName e.1, some e.2)).foldl add s.values := by
    intro s
    induction es generalizing s with
    | nil => rfl
    | cons e es ih => exact ih (s.set e.1 e.2)
  rw [ofList, hvalues, get?_foldl_add, written_values]
  exact atop_none _

theorem mem_names_ofList_iff {given : List (String × String)} {name : String} :
    name ∈ (ofList given).names ↔ ∃ key ∈ given.map (·.1), customName key = name := by
  rw [names, Dict.mem_keys_iff, values_ofList, Option.isSome_map,
    isSome_lastValue?_iff]
  simp

theorem values_foldl_declare (s : CustomSet) (names : List String) (name : String) :
    (names.foldl declare s).values.get? name =
      atop (if name ∈ names.map customName then some none else none) (s.values.get? name) := by
  have hvalues : (names.foldl declare s).values =
      (names.map fun key => (customName key, none)).foldl add s.values := by
    induction names generalizing s with
    | nil => rfl
    | cons key names ih => exact ih (s.declare key)
  rw [hvalues, get?_foldl_add, written_declarations]

/-- A set is determined by what its names hold. -/
theorem ext_values {s t : CustomSet} (h : ∀ name, s.values.get? name = t.values.get? name) :
    s = t := by
  cases s
  cases t
  exact congrArg CustomSet.mk (Dict.ext_get? h)

end CustomSet
end CommandTemplate
