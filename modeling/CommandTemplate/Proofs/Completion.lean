import CommandTemplate.Proofs.Catalogs
import CommandTemplate.Proofs.FinalSigma

/-!
# Completing a name while it is typed

Names and what is typed are compared in lower case as wholes. So a beginning of a name completes to
the name, with braces and a mark ahead of it or without, and each further character leaves fewer
entries; but for one letter. A sigma that ends what has been typed is written `ς`, and it is no
longer found in a name that has it inside a word.
-/
namespace CommandTemplate

/-! ## Providers -/

/-- Who offers variables: the program itself, or the user with a set of custom ones. -/
inductive Provider where
  | builtin
  | custom (s : CustomSet)

def Provider.variables (h : Host) : Provider → List Variable
  | builtin => Builtin.all h
  | custom s => s.toVariables

def Catalog.ofProviders (h : Host) (providers : List Provider) : Catalog :=
  ofVariables (providers.flatMap (·.variables h))

/-- No blank, brace or mark stands first, so that nothing is taken off when this is typed. -/
def Typeable (s : List Char) : Prop := ∀ c ∈ s.head?, Text.isBlank c = false ∧ c ≠ '{' ∧ c ≠ '!'

theorem typeable_of_underscore {s : List Char} (h : s.head? = some '_') : Typeable s := by
  intro c hc
  obtain rfl : '_' = c := by simpa [h] using hc
  decide

theorem Typeable.of_append {s more : List Char} (h : Typeable (s ++ more)) : Typeable s := by
  intro c hc
  refine h c ?_
  rw [List.head?_append, Option.mem_def.1 hc]
  rfl

theorem Provider.typeable_name {h : Host} {provider : Provider} {v : Variable}
    (hv : v ∈ provider.variables h) : Typeable v.name.toList := by
  cases provider with
  | builtin =>
    have hall : ∀ name ∈ (Builtin.all h).map (·.name),
        name.toList.head?.all fun c => !Text.isBlank c && c != '{' && c != '!' := by
      rw [Builtin.names_all]
      decide
    intro c hc
    have hname := hall v.name (List.mem_map_of_mem hv)
    rw [Option.mem_def.1 hc] at hname
    simpa [and_assoc] using hname
  | custom s => exact typeable_of_underscore (head?_name_of_mem_toVariables hv)

namespace Catalog

variable {c : Catalog} {e : CatalogEntry}

theorem typeable_name {h : Host} {providers : List Provider}
    (he : e ∈ (ofProviders h providers).entries) : Typeable e.name.toList := by
  rw [ofProviders, entries_ofVariables] at he
  obtain ⟨v, hv, rfl⟩ := List.mem_map.1 he
  obtain ⟨provider, -, hoffered⟩ := List.mem_flatMap.1 (mem_of_mem_firstOffers hv).1
  exact Provider.typeable_name hoffered

/-! ## What has been typed of a name -/

def openings : List String := ["", "\x7b\x7b", "\x7b\x7b!"]

theorem withoutFront_append (word s : List Char) : withoutFront word (word ++ s) = s := by
  have hfront : word.isPrefixOf (word ++ s) :=
    List.isPrefixOf_iff_prefix.2 (List.prefix_append word s)
  rw [withoutFront, if_pos hfront, List.drop_left]

theorem withoutFront_of_head_ne {d : Char} {s : List Char} (h : ∀ c ∈ s.head?, c ≠ d)
    (word : List Char) : withoutFront (d :: word) s = s := by
  rw [withoutFront, if_neg]
  rw [List.isPrefixOf_iff_prefix]
  rintro ⟨rest, rfl⟩
  exact h d rfl rfl

theorem trimStart_braces (s : List Char) :
    Text.trimStart (['{', '{'] ++ s) = ['{', '{'] ++ s := by
  refine Text.trimStart_eq_self fun c hc => ?_
  obtain rfl : '{' = c := by simpa using hc
  decide

/-- Opening braces and the mark may be typed ahead or not. -/
theorem typedName_append {opening typed : String} (hopening : opening ∈ openings)
    (htyped : Typeable typed.toList) : typedName (opening ++ typed) = Text.lower typed.toList := by
  have hblank : Text.trimStart typed.toList = typed.toList :=
    Text.trimStart_eq_self fun c hc => (htyped c hc).1
  have hbraces : withoutFront ['{', '{'] typed.toList = typed.toList :=
    withoutFront_of_head_ne (fun c hc => (htyped c hc).2.1) _
  have hmark : withoutFront ['!'] typed.toList = typed.toList :=
    withoutFront_of_head_ne (fun c hc => (htyped c hc).2.2) _
  simp only [openings, List.mem_cons, List.not_mem_nil, or_false] at hopening
  rcases hopening with rfl | rfl | rfl
  · rw [String.empty_append, typedName, hblank, hbraces, hmark]
  · have hinput : ("\x7b\x7b" ++ typed).toList = ['{', '{'] ++ typed.toList :=
      String.toList_append ..
    rw [typedName, hinput, trimStart_braces, withoutFront_append, hmark]
  · have hinput : ("\x7b\x7b!" ++ typed).toList = ['{', '{'] ++ (['!'] ++ typed.toList) :=
      String.toList_append ..
    rw [typedName, hinput, trimStart_braces, withoutFront_append, withoutFront_append]

/-! ## What is listed -/

/-- What is listed are the entries whose name in lower case begins with what was typed in lower
case. -/
theorem mem_autocomplete_iff {input : String} : e ∈ c.autocomplete input ↔
    e ∈ c.entries ∧ typedName input <+: Text.lower e.name.toList := by
  rw [autocomplete, List.mem_filter, List.isPrefixOf_iff_prefix]

theorem mem_autocomplete_append_iff {opening typed : String} (hopening : opening ∈ openings)
    (htyped : Typeable typed.toList) : e ∈ c.autocomplete (opening ++ typed) ↔
      e ∈ c.entries ∧ Text.lower typed.toList <+: Text.lower e.name.toList := by
  rw [mem_autocomplete_iff, typedName_append hopening htyped]

theorem mem_autocomplete_typed_iff {typed : String} (htyped : Typeable typed.toList) :
    e ∈ c.autocomplete typed ↔
      e ∈ c.entries ∧ Text.lower typed.toList <+: Text.lower e.name.toList := by
  have hlisted := mem_autocomplete_append_iff (c := c) (e := e) (List.mem_cons_self ..) htyped
  rwa [String.empty_append] at hlisted

structure CompletesNames (c : Catalog) : Prop where
  /-- What is listed stands in the order of the catalog. -/
  ordered : ∀ input, (c.autocomplete input).Sublist c.entries
  /-- A beginning of a name lists its entry, whatever is typed ahead of it, if and only if no sigma
  of it turns in the name. -/
  begun : ∀ e ∈ c.entries, ∀ typed rest : String, e.name = typed ++ rest →
    ∀ opening ∈ openings, (e ∈ c.autocomplete (opening ++ typed) ↔
      ¬Text.SigmaTurns typed.toList rest.toList)
  /-- Typing on from an underscore, or more than that, only ever takes entries away -/
  narrowed : ∀ typed more : String, typed.toList.head? = some '_' →
    ¬Text.SigmaTurns typed.toList more.toList →
      (c.autocomplete (typed ++ more)).Sublist (c.autocomplete typed)
  /-- unless a sigma turns, and then it lists nothing of what was listed. -/
  exchanged : ∀ typed more : String, typed.toList.head? = some '_' →
    Text.SigmaTurns typed.toList more.toList →
      (c.autocomplete (typed ++ more)).Disjoint (c.autocomplete typed)
  /-- No sigma turns in what is typed without one. -/
  settled : ∀ typed more : String, 'Σ' ∉ typed.toList →
    ¬Text.SigmaTurns typed.toList more.toList

/-- Entries are listed in the order of the catalog. -/
theorem autocomplete_sublist (c : Catalog) (input : String) :
    (c.autocomplete input).Sublist c.entries := List.filter_sublist

/-- A name that is being typed is listed, unless a sigma at the end of what has been typed will
turn. -/
theorem mem_autocomplete_begun_iff {opening typed rest : String} (he : e ∈ c.entries)
    (hname : e.name = typed ++ rest) (hopening : opening ∈ openings)
    (htypeable : Typeable e.name.toList) :
    e ∈ c.autocomplete (opening ++ typed) ↔ ¬Text.SigmaTurns typed.toList rest.toList := by
  rw [hname, String.toList_append] at htypeable
  rw [mem_autocomplete_append_iff hopening htypeable.of_append, hname, String.toList_append,
    Text.lower_prefix_iff, and_iff_right he]

/-- Of what the longer input lists, the shorter one lists all or nothing. -/
theorem mem_autocomplete_iff_of_longer {typed more : String}
    (htyped : typed.toList.head? = some '_') (he : e ∈ c.autocomplete (typed ++ more)) :
    e ∈ c.autocomplete typed ↔ ¬Text.SigmaTurns typed.toList more.toList := by
  have hlonger : (typed ++ more).toList.head? = some '_' := by
    rw [String.toList_append, List.head?_append, htyped, Option.some_or]
  obtain ⟨hmem, hprefix⟩ := (mem_autocomplete_typed_iff (typeable_of_underscore hlonger)).1 he
  rw [String.toList_append] at hprefix
  rw [mem_autocomplete_typed_iff (typeable_of_underscore htyped), and_iff_right hmem,
    Text.lower_prefix_iff_of_longer hprefix]

/-- What two inputs list is ordered alike, so that to be listed too is to be listed in order. -/
theorem autocomplete_sublist_of_subset {input input' : String}
    (h : c.autocomplete input ⊆ c.autocomplete input') :
    (c.autocomplete input).Sublist (c.autocomplete input') := by
  have hboth : c.autocomplete input = (c.autocomplete input).filter fun e =>
      (typedName input').isPrefixOf (Text.lower e.name.toList) := by
    refine (List.filter_eq_self.2 fun e he => ?_).symm
    exact (List.mem_filter.1 (h he)).2
  rw [hboth]
  exact (autocomplete_sublist c input).filter _

end Catalog

/-- Whatever the names of custom variables: what is typed of a name finds it, and typing on takes
entries away, except across a sigma that turns. -/
theorem completions_compared (providers : List Provider) (h : Host) :
    (Catalog.ofProviders h providers).CompletesNames where
  ordered := Catalog.autocomplete_sublist _
  begun _ he _ _ hname _ hopening :=
    Catalog.mem_autocomplete_begun_iff he hname hopening (Catalog.typeable_name he)
  narrowed _ _ htyped hturns := Catalog.autocomplete_sublist_of_subset fun _ he =>
    (Catalog.mem_autocomplete_iff_of_longer htyped he).2 hturns
  exchanged _ _ htyped hturns _ he hshorter :=
    (Catalog.mem_autocomplete_iff_of_longer htyped he).1 hshorter hturns
  settled _ more hsigma := Text.not_sigmaTurns_of_not_mem hsigma more.toList

def sigmaInside : Catalog := .ofVariables (CustomSet.ofList [("ΜΕΣΟ", "a")]).toVariables

/-- The name is found by what stands ahead of the sigma and as a whole, and not in between. -/
theorem sigma_not_completed :
    sigmaInside.entries.map (·.name) = ["_ΜΕΣΟ"] ∧
      (sigmaInside.autocomplete "_ΜΕ").map (·.name) = ["_ΜΕΣΟ"] ∧
      sigmaInside.autocomplete "_ΜΕΣ" = [] ∧
      sigmaInside.autocomplete "\x7b\x7b_ΜΕΣ" = [] ∧
      sigmaInside.autocomplete "\x7b\x7b!_ΜΕΣ" = [] ∧
      (sigmaInside.autocomplete "_ΜΕΣΟ").map (·.name) = ["_ΜΕΣΟ"] := by
  decide +kernel

end CommandTemplate
