/-!
# Dictionaries

Values under names, kept in ascending order of the names (by code point, which is also the order of
their UTF-8 bytes). Two dictionaries with the same look-ups are equal.
-/
namespace CommandTemplate

/-- Inserts into a list in ascending order of names, in place of an entry of the same name. -/
def insertSorted (name : String) (a : α) : List (String × α) → List (String × α)
  | [] => [(name, a)]
  | e :: es =>
    if name < e.1 then (name, a) :: e :: es
    else if name = e.1 then (name, a) :: es
    else e :: insertSorted name a es

def Ascending (es : List (String × α)) : Prop := es.Pairwise fun a b => a.1 < b.1

theorem mem_insertSorted {name : String} {a : α} {e : String × α} {es : List (String × α)}
    (h : e ∈ insertSorted name a es) : e = (name, a) ∨ e ∈ es := by
  induction es with
  | nil => simpa [insertSorted] using h
  | cons f es ih =>
    rw [insertSorted] at h
    split at h
    · simpa using h
    · split at h <;> grind

theorem lt_of_not_lt_of_ne {a b : String} (h : ¬a < b) (hne : a ≠ b) : b < a := by
  by_cases hba : b < a
  · exact hba
  · exact absurd (String.le_antisymm (String.not_lt.1 hba) (String.not_lt.1 h)) hne

theorem ascending_insertSorted (name : String) (a : α) {es : List (String × α)}
    (h : Ascending es) : Ascending (insertSorted name a es) := by
  induction es with
  | nil => simp [insertSorted, Ascending]
  | cons e es ih =>
    obtain ⟨he, hes⟩ := List.pairwise_cons.1 h
    rw [insertSorted]
    split
    · refine List.pairwise_cons.2 ⟨?_, h⟩
      intro b hb
      rcases List.mem_cons.1 hb with rfl | hb
      · assumption
      · exact String.lt_trans ‹_› (he b hb)
    · split
      · rename_i hn
        subst hn
        exact List.pairwise_cons.2 ⟨he, hes⟩
      · refine List.pairwise_cons.2 ⟨?_, ih hes⟩
        intro b hb
        rcases mem_insertSorted hb with rfl | hb
        · exact lt_of_not_lt_of_ne ‹_› ‹_›
        · exact he b hb

structure Dict (α : Type) where
  entries : List (String × α)
  ascending : Ascending entries
  deriving DecidableEq

namespace Dict

variable {α β : Type}

instance [Repr α] : Repr (Dict α) := ⟨fun d n => reprPrec d.entries n⟩

def empty : Dict α := ⟨[], List.Pairwise.nil⟩

instance : EmptyCollection (Dict α) := ⟨empty⟩
instance : Inhabited (Dict α) := ⟨empty⟩

def isEmpty (d : Dict α) : Bool := d.entries.isEmpty

def keys (d : Dict α) : List String := d.entries.map (·.1)

def get? (d : Dict α) (name : String) : Option α := d.entries.lookup name

def contains (d : Dict α) (name : String) : Bool := (d.get? name).isSome

/-- Puts `a` under `name`, in place of what was there. -/
def insert (d : Dict α) (name : String) (a : α) : Dict α :=
  ⟨insertSorted name a d.entries, ascending_insertSorted name a d.ascending⟩

/-- Puts `a` under `name` unless something is there. -/
def insertNew (d : Dict α) (name : String) (a : α) : Dict α :=
  if d.contains name then d else d.insert name a

/-- The later of two entries with one name counts. -/
def ofList (es : List (String × α)) : Dict α := es.foldl (fun d e => d.insert e.1 e.2) ∅

theorem lookup_cons_ite (name : String) (e : String × α) (es : List (String × α)) :
    (e :: es).lookup name = if name = e.1 then some e.2 else es.lookup name := by
  obtain ⟨k, a⟩ := e
  by_cases h : name = k
  · simp [h]
  · rw [List.lookup_cons, beq_eq_false_iff_ne.2 h, if_neg h]

theorem lookup_insertSorted (name other : String) (a : α) (es : List (String × α)) :
    (insertSorted name a es).lookup other =
      if other = name then some a else es.lookup other := by
  induction es with
  | nil => simp [insertSorted, lookup_cons_ite]
  | cons e es ih =>
    rw [insertSorted]
    split
    · rw [lookup_cons_ite]
    · split
      · rename_i h
        simp only [lookup_cons_ite, h]
        split <;> rfl
      · rename_i h
        simp only [lookup_cons_ite, ih]
        by_cases ho : other = e.1
        · simp [ho, Ne.symm h]
        · simp [ho]

@[simp] theorem get?_empty (name : String) : (∅ : Dict α).get? name = none := rfl

theorem get?_insert (d : Dict α) (name other : String) (a : α) :
    (d.insert name a).get? other = if other = name then some a else d.get? other :=
  lookup_insertSorted name other a d.entries

@[simp] theorem get?_insert_self (d : Dict α) (name : String) (a : α) :
    (d.insert name a).get? name = some a := by simp [get?_insert]

theorem get?_insertNew (d : Dict α) (name other : String) (a : α) :
    (d.insertNew name a).get? other =
      if other = name then some ((d.get? name).getD a) else d.get? other := by
  rw [insertNew, contains]
  cases h : d.get? name with
  | some b => by_cases ho : other = name <;> simp_all
  | none => simp [get?_insert]

theorem lookup_eq_none_of_lt {name : String} {es : List (String × α)}
    (h : ∀ e ∈ es, name < e.1) : es.lookup name = none := by
  induction es with
  | nil => rfl
  | cons e es ih =>
    have hne : name ≠ e.1 := fun he =>
      String.lt_irrefl e.1 (he ▸ h e (List.mem_cons_self ..) : e.1 < e.1)
    rw [lookup_cons_ite, if_neg hne, ih fun b hb => h b (List.mem_cons_of_mem _ hb)]

theorem lookup_head_eq_none_of_lt {name : String} {e : String × α} {es : List (String × α)}
    (h : Ascending (e :: es)) (hlt : name < e.1) : (e :: es).lookup name = none :=
  lookup_eq_none_of_lt fun b hb => by
    rcases List.mem_cons.1 hb with rfl | hb
    · exact hlt
    · exact String.lt_trans hlt ((List.pairwise_cons.1 h).1 b hb)

theorem entries_eq_of_lookup_eq {es fs : List (String × α)} (he : Ascending es) (hf : Ascending fs)
    (h : ∀ name, es.lookup name = fs.lookup name) : es = fs := by
  induction es generalizing fs with
  | nil =>
    cases fs with
    | nil => rfl
    | cons f fs => simpa [lookup_cons_ite] using h f.1
  | cons e es ih =>
    cases fs with
    | nil => simpa [lookup_cons_ite] using h e.1
    | cons f fs =>
      have hkey : e.1 = f.1 := by
        by_cases hlt : e.1 < f.1
        · have := h e.1
          rw [lookup_head_eq_none_of_lt hf hlt] at this
          simp [lookup_cons_ite] at this
        · by_cases hgt : f.1 < e.1
          · have := h f.1
            rw [lookup_head_eq_none_of_lt he hgt] at this
            simp [lookup_cons_ite] at this
          · exact String.le_antisymm (String.not_lt.1 hgt) (String.not_lt.1 hlt)
      have hval : e.2 = f.2 := by
        have := h f.1
        simpa [lookup_cons_ite, hkey] using this
      obtain ⟨hle, hes⟩ := List.pairwise_cons.1 he
      obtain ⟨hlf, hfs⟩ := List.pairwise_cons.1 hf
      have htail : es = fs := ih hes hfs fun name => by
        by_cases hn : name = e.1
        · subst hn
          rw [lookup_eq_none_of_lt hle, lookup_eq_none_of_lt (hkey ▸ hlf)]
        · have := h name
          rwa [lookup_cons_ite, lookup_cons_ite, if_neg hn, if_neg (hkey ▸ hn)] at this
      rw [htail, Prod.ext hkey hval]

theorem ext_get? {d e : Dict α} (h : ∀ name, d.get? name = e.get? name) : d = e := by
  cases d with
  | mk ds hd =>
    cases e with
    | mk es he =>
      have : ds = es := entries_eq_of_lookup_eq hd he h
      subst this
      rfl

theorem mem_keys_iff (d : Dict α) (name : String) : name ∈ d.keys ↔ (d.get? name).isSome := by
  rw [keys, get?]
  induction d.entries with
  | nil => simp
  | cons e es ih =>
    rw [lookup_cons_ite, List.map_cons, List.mem_cons, ih]
    by_cases h : name = e.1 <;> simp [h]

theorem mem_iff_lookup_eq_some {name : String} {a : α} {es : List (String × α)}
    (h : Ascending es) : (name, a) ∈ es ↔ es.lookup name = some a := by
  induction es with
  | nil => simp
  | cons e es ih =>
    obtain ⟨he, hes⟩ := List.pairwise_cons.1 h
    rw [lookup_cons_ite, List.mem_cons, ih hes]
    by_cases hn : name = e.1
    · have hnone : es.lookup name = none := lookup_eq_none_of_lt (hn ▸ he)
      rw [if_pos hn, hnone]
      constructor
      · rintro (rfl | h)
        · rfl
        · simp at h
      · intro ha
        exact .inl (Prod.ext hn (Option.some.inj ha).symm)
    · rw [if_neg hn]
      constructor
      · rintro (rfl | h)
        · exact absurd rfl hn
        · exact h
      · exact .inr

theorem mem_entries_iff (d : Dict α) (name : String) (a : α) :
    (name, a) ∈ d.entries ↔ d.get? name = some a := mem_iff_lookup_eq_some d.ascending

theorem keys_ascending (d : Dict α) : d.keys.Pairwise (· < ·) :=
  List.pairwise_map.2 d.ascending

theorem get?_foldl_insert {es : List (String × α)} (hes : (es.map (·.1)).Nodup) (d : Dict α)
    (name : String) (a : α) :
    (es.foldl (fun d e => d.insert e.1 e.2) d).get? name = some a ↔
      (name, a) ∈ es ∨ name ∉ es.map (·.1) ∧ d.get? name = some a := by
  induction es generalizing d with
  | nil => simp
  | cons e es ih =>
    obtain ⟨key, b⟩ := e
    obtain ⟨hkey, hes⟩ := List.nodup_cons.1 hes
    have hmem : (key, a) ∉ es := fun h => hkey (List.mem_map.2 ⟨(key, a), h, rfl⟩)
    rw [List.foldl_cons, ih hes, get?_insert, List.mem_cons, List.map_cons, List.mem_cons]
    by_cases hname : name = key
    · subst hname
      simp_all [eq_comm]
    · simp [hname]

/-- A dictionary made of entries with different names holds exactly these entries. -/
theorem get?_ofList_iff {es : List (String × α)} (hes : (es.map (·.1)).Nodup) (name : String)
    (a : α) : (ofList es).get? name = some a ↔ (name, a) ∈ es := by
  rw [ofList, get?_foldl_insert hes]
  simp

end Dict
end CommandTemplate
