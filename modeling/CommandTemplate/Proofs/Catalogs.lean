import CommandTemplate.CommandLine.Resolve
import CommandTemplate.Proofs.AsciiCase
import CommandTemplate.Proofs.Builtins
import CommandTemplate.Proofs.CustomSets
import CommandTemplate.Proofs.Untouched

/-!
# Catalogs and tokens

A catalog takes names for one that differ by the case of ASCII letters, a pattern all that fold to
one text. What the catalog merges is merged by the patterns too, so an entry that is found belongs
to the token. The other way round this holds only of names that the two comparisons tell apart
alike, and those of ASCII are such names.
-/
namespace CommandTemplate

/-! ## Tokens of a name -/

/-- The text as a whole is a token of the name, without arguments. -/
def carriesName (text : List Char) (name : String) : Bool :=
  (TokenPattern.match? ⟨name.toList, []⟩ text).any (·.text == text)

namespace TokenPattern

theorem length_bare (marked : Bool) (name : List Char) :
    (Token.text ⟨marked, name, []⟩).length = (if marked then 1 else 0) + name.length + 4 := by
  cases marked <;> simp [Token.text]
  omega

theorem match?_marked {name spelled : List Char} (h : Text.sameFolded name spelled) :
    match? ⟨name, []⟩ (Token.text ⟨true, spelled, []⟩) = some ⟨true, spelled, []⟩ := by
  simp [Token.text, match?, matchBody, Text.stripFolded_append h, matchSlots]

/-- A token without arguments is read to its end. Without a mark there is no room for one. -/
theorem text_of_match?_bare {name spelled : List Char} {marked : Bool} {t : Token}
    (h : Text.sameFolded name spelled)
    (ht : match? ⟨name, []⟩ (Token.text ⟨marked, spelled, []⟩) = some t) :
    t.text = Token.text ⟨marked, spelled, []⟩ := by
  cases marked with
  | true =>
    rw [match?_marked h] at ht
    exact congrArg Token.text (Option.some.inj ht).symm
  | false =>
    obtain ⟨hderives, rest, htext⟩ := match?_eq_some ht
    obtain ⟨tmarked, tname, targuments⟩ := t
    obtain rfl := hderives.arguments.eq_nil
    have hsame : tname.length = spelled.length :=
      (Text.length_eq_of_sameFolded hderives.name).symm.trans (Text.length_eq_of_sameFolded h)
    have hlength := congrArg List.length htext
    rw [List.length_append, length_bare, length_bare, hsame, if_neg Bool.false_ne_true] at hlength
    have hrest : rest = [] := List.length_eq_zero_iff.1 (by omega)
    rw [htext, hrest, List.append_nil]

end TokenPattern

/-- A text carries a name if it is a token of that name, marked or not, in some spelling. -/
theorem carriesName_iff {text : List Char} {name : String} :
    carriesName text name ↔ ∃ marked spelled,
      text = Token.text ⟨marked, spelled, []⟩ ∧ Text.sameFolded name.toList spelled := by
  rw [carriesName, Option.any_eq_true]
  constructor
  · rintro ⟨⟨marked, spelled, arguments⟩, hmatch, htext⟩
    have hderives := (TokenPattern.match?_eq_some hmatch).1
    obtain rfl := hderives.arguments.eq_nil
    exact ⟨marked, spelled, (beq_iff_eq.1 htext).symm, hderives.name⟩
  · rintro ⟨marked, spelled, rfl, hname⟩
    have hderives : TokenPattern.Derives ⟨name.toList, []⟩ ⟨marked, spelled, []⟩ := ⟨hname, .nil⟩
    have hsome := TokenPattern.isSome_match? hderives []
    rw [List.append_nil] at hsome
    obtain ⟨t, ht⟩ := Option.isSome_iff_exists.1 hsome
    exact ⟨t, ht, beq_iff_eq.2 (TokenPattern.text_of_match?_bare hname ht)⟩

/-- Names that are one to the catalog have the same tokens. -/
theorem carriesName_congr {u v : String} (h : Text.sameAsciiCase u v) (text : List Char) :
    carriesName text u ↔ carriesName text v := by
  have hfolded := Text.sameFolded_of_sameAsciiCase h
  rw [carriesName_iff, carriesName_iff]
  constructor
  · rintro ⟨marked, spelled, htext, hname⟩
    exact ⟨marked, spelled, htext, Text.sameFolded_trans (Text.sameFolded_symm hfolded) hname⟩
  · rintro ⟨marked, spelled, htext, hname⟩
    exact ⟨marked, spelled, htext, Text.sameFolded_trans hfolded hname⟩

theorem carriesName_tokenOf (name : String) : carriesName (tokenOf name).toList name :=
  carriesName_iff.2 ⟨false, name.toList, toList_tokenOf name, Text.sameFolded_refl _⟩

/-- Unless a name begins with the mark itself, names of one token are equal up to folding. -/
theorem sameFolded_of_carriesName {text : List Char} {u v : String}
    (hu : u.toList.head? ≠ some '!') (hv : v.toList.head? ≠ some '!')
    (htextu : carriesName text u) (htextv : carriesName text v) :
    Text.sameFolded u.toList v.toList := by
  have hmark : '!' ∈ Text.marks := by decide
  obtain ⟨marked, spelled, rfl, hname⟩ := carriesName_iff.1 htextu
  obtain ⟨marked', spelled', htext, hname'⟩ := carriesName_iff.1 htextv
  have hhead := Text.head_ne_mark_of_sameFolded hmark hname hu
  have hhead' := Text.head_ne_mark_of_sameFolded hmark hname' hv
  have hinside : Token.markText marked ++ spelled = Token.markText marked' ++ spelled' := by
    have hclosed : Token.markText marked ++ spelled ++ Token.tailText [] =
        Token.markText marked' ++ spelled' ++ Token.tailText [] :=
      (List.cons.inj (List.cons.inj htext).2).2
    exact List.append_cancel_right hclosed
  have hspelled : spelled = spelled' := by
    cases marked <;> cases marked'
    · exact hinside
    · exact absurd (congrArg List.head? hinside) hhead
    · exact absurd (congrArg List.head? hinside).symm hhead'
    · exact (List.cons.inj hinside).2
  subst hspelled
  exact Text.sameFolded_trans hname (Text.sameFolded_symm hname')

/-! ## Offers -/

/-- Those of the variables that no earlier one is the `same` as, be it offered `before` them. -/
def firstOffers (same : Variable → Variable → Bool) (before : List Variable) :
    List Variable → List Variable
  | [] => []
  | v :: vs =>
    if before.any (same · v) then firstOffers same (before ++ [v]) vs
    else v :: firstOffers same (before ++ [v]) vs

/-- The catalog takes the two for one. -/
def Variable.sameEntry (u v : Variable) : Bool := Text.sameAsciiCase u.name v.name

/-- The token that is written with the name of `v` is one of `u`. -/
def Variable.takesTokenOf (u v : Variable) : Bool := carriesName (tokenOf v.name).toList u.name

/-- Only how the variables at hand compare matters. -/
theorem firstOffers_congr {same same' : Variable → Variable → Bool} {before vs : List Variable}
    (h : ∀ u ∈ before ++ vs, ∀ v ∈ vs, same u v = same' u v) :
    firstOffers same before vs = firstOffers same' before vs := by
  induction vs generalizing before with
  | nil => rfl
  | cons v vs ih =>
    have hany : before.any (same · v) = before.any (same' · v) := by
      rw [Bool.eq_iff_iff, List.any_eq_true, List.any_eq_true]
      refine exists_congr fun u => and_congr_right fun hu => ?_
      rw [h u (List.mem_append_left _ hu) v (List.mem_cons_self ..)]
    have hrest : ∀ u ∈ before ++ [v] ++ vs, ∀ w ∈ vs, same u w = same' u w := by
      intro u hu w hw
      rw [List.append_assoc] at hu
      exact h u hu w (List.mem_cons_of_mem _ hw)
    rw [firstOffers, firstOffers, hany, ih hrest]

namespace Catalog

/-- What the catalog knows when the variables have been offered: of each name the first. -/
def Knows (c : Catalog) (offered : List Variable) : Prop :=
  ∀ name, c.get? name = (offered.find? fun v => Text.sameAsciiCase v.name name).map Variable.entry

theorem knows_nil : Knows ⟨[]⟩ [] := fun _ => rfl

variable {c : Catalog} {offered : List Variable}

theorem Knows.isSome_get? (h : c.Knows offered) (name : String) :
    (c.get? name).isSome = offered.any fun v => Text.sameAsciiCase v.name name := by
  rw [h name, Option.isSome_map, List.isSome_find?]

/-- A variable is added to the end unless the catalog takes one of the earlier ones for the same. -/
theorem offer_eq (h : c.Knows offered) (v : Variable) :
    c.offer v =
      if offered.any (Variable.sameEntry · v) then c else ⟨c.entries ++ [v.entry]⟩ := by
  rw [offer, h.isSome_get?]
  rfl

theorem Knows.offer (h : c.Knows offered) (v : Variable) : (c.offer v).Knows (offered ++ [v]) := by
  intro name
  rw [offer_eq h, List.find?_append, Option.map_or, ← h name]
  split
  · -- the name is taken, so whoever asks for it is given the earlier entry
    rename_i htaken
    obtain ⟨u, hu, hsame⟩ := List.any_eq_true.1 htaken
    by_cases hv : Text.sameAsciiCase v.name name
    · have hsome : (c.get? name).isSome := by
        rw [h.isSome_get?]
        exact List.any_eq_true.2 ⟨u, hu, Text.sameAsciiCase_trans hsame hv⟩
      rw [Option.or_of_isSome hsome]
    · simp [hv]
  · rw [get?, List.find?_append, get?]
    by_cases hv : Text.sameAsciiCase v.name name <;> simp [hv, Variable.entry]

/-- Offered one after the other, the variables add the first of each name. -/
theorem foldl_offer (h : c.Knows offered) (vs : List Variable) :
    (vs.foldl offer c).Knows (offered ++ vs) ∧
      (vs.foldl offer c).entries =
        c.entries ++ (firstOffers Variable.sameEntry offered vs).map Variable.entry := by
  induction vs generalizing c offered with
  | nil => simpa [firstOffers] using h
  | cons v vs ih =>
    obtain ⟨hknows, hentries⟩ := ih (h.offer v)
    rw [List.append_assoc, List.singleton_append] at hknows
    refine ⟨hknows, ?_⟩
    rw [List.foldl_cons, hentries, offer_eq h, firstOffers]
    split <;> simp

theorem knows_ofVariables (vs : List Variable) : (ofVariables vs).Knows vs :=
  (foldl_offer knows_nil vs).1

theorem entries_ofVariables (vs : List Variable) :
    (ofVariables vs).entries = (firstOffers Variable.sameEntry [] vs).map Variable.entry :=
  (foldl_offer knows_nil vs).2

theorem isSome_get?_ofVariables {vs : List Variable} {name : String} :
    ((ofVariables vs).get? name).isSome ↔ ∃ v ∈ vs, Text.sameAsciiCase v.name name := by
  rw [(knows_ofVariables vs).isSome_get?, List.any_eq_true]

/-! ## Entries with a token in common -/

/-- No two entries have a token in common. -/
def Apart (c : Catalog) : Prop :=
  c.entries.Pairwise fun d e => ∀ text, ¬(carriesName text d.name ∧ carriesName text e.name)

/-- Variables that have a token in common are one to the catalog. -/
def Settled (offered : List Variable) : Prop :=
  ∀ u ∈ offered, ∀ v ∈ offered, ∀ text, carriesName text u.name → carriesName text v.name →
    u.sameEntry v

theorem mem_of_mem_firstOffers {same : Variable → Variable → Bool} {before vs : List Variable}
    {v : Variable} (h : v ∈ firstOffers same before vs) :
    v ∈ vs ∧ ∀ u ∈ before, same u v = false := by
  induction vs generalizing before with
  | nil => cases h
  | cons w vs ih =>
    have hrest : v ∈ firstOffers same (before ++ [w]) vs →
        v ∈ w :: vs ∧ ∀ u ∈ before, same u v = false := by
      intro hv
      obtain ⟨hmem, hsame⟩ := ih hv
      exact ⟨List.mem_cons_of_mem _ hmem, fun u hu => hsame u (List.mem_append_left _ hu)⟩
    rw [firstOffers] at h
    split at h
    · exact hrest h
    · rename_i hnew
      rcases List.mem_cons.1 h with rfl | hv
      · refine ⟨List.mem_cons_self .., fun u hu => ?_⟩
        by_contra hsame
        exact hnew (List.any_eq_true.2 ⟨u, hu, by simpa using hsame⟩)
      · exact hrest hv

/-- Of the variables that are kept none is the same as another. -/
theorem pairwise_firstOffers (same : Variable → Variable → Bool) (before vs : List Variable) :
    (firstOffers same before vs).Pairwise fun u v => same u v = false := by
  induction vs generalizing before with
  | nil => exact .nil
  | cons v vs ih =>
    rw [firstOffers]
    split
    · exact ih _
    · refine List.pairwise_cons.2 ⟨fun u hu => ?_, ih _⟩
      exact (mem_of_mem_firstOffers hu).2 v (List.mem_append_right _ (List.mem_singleton_self v))

theorem apart_of_settled {offered : List Variable} (h : Settled offered) :
    (ofVariables offered).Apart := by
  rw [Apart, entries_ofVariables, List.pairwise_map]
  refine (pairwise_firstOffers Variable.sameEntry [] offered).imp_of_mem ?_
  rintro u v hu hv hsame text ⟨htextu, htextv⟩
  have hentry := h u (mem_of_mem_firstOffers hu).1 v (mem_of_mem_firstOffers hv).1 text htextu
    htextv
  rw [hsame] at hentry
  cases hentry

/-- Each offered name has the tokens of an entry. -/
theorem exists_entry_of_mem {offered : List Variable} {v : Variable} (hv : v ∈ offered) :
    ∃ e ∈ (ofVariables offered).entries, Text.sameAsciiCase e.name v.name := by
  have hsome : ((ofVariables offered).get? v.name).isSome :=
    isSome_get?_ofVariables.2 ⟨v, hv, Text.sameAsciiCase_refl _⟩
  obtain ⟨e, he⟩ := Option.isSome_iff_exists.1 hsome
  exact ⟨e, List.mem_of_find?_eq_some he,
    List.find?_some (p := fun e : CatalogEntry => Text.sameAsciiCase e.name v.name) he⟩

theorem settled_of_apart {offered : List Variable} (h : (ofVariables offered).Apart) :
    Settled offered := by
  intro u hu v hv text htextu htextv
  obtain ⟨d, hd, hdu⟩ := exists_entry_of_mem hu
  obtain ⟨e, he, hev⟩ := exists_entry_of_mem hv
  have : Std.Symm fun d e : CatalogEntry =>
      ∀ text, ¬(carriesName text d.name ∧ carriesName text e.name) :=
    ⟨fun d e hde text hboth => hde text hboth.symm⟩
  have hone : d = e := by
    by_contra hne
    exact h.forall hd he hne text
      ⟨(carriesName_congr hdu text).2 htextu, (carriesName_congr hev text).2 htextv⟩
  subst hone
  exact Text.sameAsciiCase_trans (Text.sameAsciiCase_symm hdu) hev

/-- No token belongs to two entries just when variables with a token in common are one to the
catalog. -/
theorem apart_ofVariables_iff {offered : List Variable} :
    (ofVariables offered).Apart ↔ Settled offered :=
  ⟨settled_of_apart, apart_of_settled⟩

/-! ## Agreement with the patterns -/

structure Agrees (offered : List Variable) (asked : String → Prop) : Prop where
  listed : (ofVariables offered).entries =
    (firstOffers Variable.takesTokenOf [] offered).map Variable.entry
  apart : (ofVariables offered).Apart
  found : ∀ name, asked name → (((ofVariables offered).get? name).isSome ↔
    ∃ v ∈ offered, carriesName (tokenOf name).toList v.name)

/-- The name is of ASCII and does not begin with the mark of a token. -/
def IsPlain (name : String) : Prop := Text.IsAscii name.toList ∧ name.toList.head? ≠ some '!'

instance (name : String) : Decidable (IsPlain name) := inferInstanceAs (Decidable (_ ∧ _))

theorem sameAsciiCase_of_plain {text : List Char} {u v : String} (hu : IsPlain u) (hv : IsPlain v)
    (htextu : carriesName text u) (htextv : carriesName text v) : Text.sameAsciiCase u v :=
  Text.sameAsciiCase_of_sameFolded hu.1 hv.1
    (sameFolded_of_carriesName hu.2 hv.2 htextu htextv)

theorem carriesName_of_sameAsciiCase {u v : String} (h : Text.sameAsciiCase u v) :
    carriesName (tokenOf v).toList u :=
  (carriesName_congr h _).2 (carriesName_tokenOf v)

theorem agrees_of_settled {offered : List Variable} (h : Settled offered) :
    Agrees offered fun name => ∀ v ∈ offered, carriesName (tokenOf name).toList v.name →
      Text.sameAsciiCase v.name name where
  listed := by
    rw [entries_ofVariables]
    refine congrArg (List.map Variable.entry) (firstOffers_congr fun u hu v hv => ?_)
    rw [List.nil_append] at hu
    rw [Bool.eq_iff_iff]
    exact ⟨carriesName_of_sameAsciiCase,
      fun htext => h u hu v hv _ htext (carriesName_tokenOf v.name)⟩
  apart := apart_of_settled h
  found name hname := by
    rw [isSome_get?_ofVariables]
    constructor
    · rintro ⟨v, hv, hsame⟩
      exact ⟨v, hv, carriesName_of_sameAsciiCase hsame⟩
    · rintro ⟨v, hv, htext⟩
      exact ⟨v, hv, hname v hv htext⟩

/-- For plain names the catalog and the patterns agree. -/
theorem agrees_of_plain {offered : List Variable} (h : ∀ v ∈ offered, IsPlain v.name) :
    Agrees offered IsPlain := by
  have hsettled : Settled offered := fun u hu v hv text htextu htextv =>
    sameAsciiCase_of_plain (h u hu) (h v hv) htextu htextv
  obtain ⟨hlisted, hapart, hfound⟩ := agrees_of_settled hsettled
  refine ⟨hlisted, hapart, fun name hname => hfound name fun v hv htext => ?_⟩
  exact sameAsciiCase_of_plain (h v hv) hname htext (carriesName_tokenOf name)

end Catalog

structure CatalogCompared (offered : List Variable) : Prop where
  /-- An entry is kept, in the order of the offers, for each variable that no earlier one equals
  up to the case of ASCII letters, -/
  listed : (Catalog.ofVariables offered).entries =
    (firstOffers Variable.sameEntry [] offered).map Variable.entry
  /-- and a name is looked up in the same way among all that were offered. -/
  got : ∀ name, (Catalog.ofVariables offered).get? name =
    (offered.find? fun v => Text.sameAsciiCase v.name name).map Variable.entry
  /-- What is merged is merged by the patterns, -/
  merged : ∀ u v : Variable, u.sameEntry v →
    u.takesTokenOf v ∧ ∀ text, carriesName text u.name ↔ carriesName text v.name
  /-- and what is found is carried by the token. -/
  carried : ∀ name, ((Catalog.ofVariables offered).get? name).isSome →
    ∃ v ∈ offered, carriesName (tokenOf name).toList v.name
  /-- Two entries have no token in common exactly if patterns merge no more than the catalog, -/
  apart_iff : (Catalog.ofVariables offered).Apart ↔ Catalog.Settled offered
  /-- and then there is agreement, as to names that the two comparisons find alike. -/
  agrees : Catalog.Settled offered →
    Catalog.Agrees offered fun name => ∀ v ∈ offered, carriesName (tokenOf name).toList v.name →
      Text.sameAsciiCase v.name name
  /-- So there is among plain names. -/
  plain : (∀ v ∈ offered, Catalog.IsPlain v.name) → Catalog.Agrees offered Catalog.IsPlain

theorem catalogCompared (offered : List Variable) : CatalogCompared offered where
  listed := Catalog.entries_ofVariables offered
  got := Catalog.knows_ofVariables offered
  merged _ _ h := ⟨Catalog.carriesName_of_sameAsciiCase h, carriesName_congr h⟩
  carried _ h := by
    obtain ⟨v, hv, hsame⟩ := Catalog.isSome_get?_ofVariables.1 h
    exact ⟨v, hv, Catalog.carriesName_of_sameAsciiCase hsame⟩
  apart_iff := Catalog.apart_ofVariables_iff
  agrees := Catalog.agrees_of_settled
  plain := Catalog.agrees_of_plain

/-! ## The catalog of a command -/

/-- Custom names that are one up to folding differ by the case of ASCII letters alone. -/
def CustomSet.Settled (s : CustomSet) : Prop :=
  ∀ u ∈ s.toVariables, ∀ v ∈ s.toVariables, Text.sameFolded u.name.toList v.name.toList →
    u.sameEntry v

theorem head?_name_of_mem_toVariables {s : CustomSet} {v : Variable} (hv : v ∈ s.toVariables) :
    v.name.toList.head? = some '_' := by
  obtain ⟨⟨name, value⟩, -, rfl⟩ := List.mem_map.1 hv
  rw [name_customVariable]
  exact head?_customName name

namespace Builtin

/-- The names of the program are plain, so only custom names can make a difference. -/
theorem isPlain_name_of_mem_all {h : Host} {v : Variable} (hv : v ∈ all h) :
    Catalog.IsPlain v.name := by
  have hall : ∀ name ∈ (all h).map (·.name), Catalog.IsPlain name := by
    rw [names_all]
    decide
  exact hall v.name (List.mem_map_of_mem hv)

/-- Custom names begin with an underscore, and no name of the program does. -/
theorem not_sameFolded_custom {h : Host} {s : CustomSet} {u v : Variable} (hu : u ∈ all h)
    (hv : v ∈ s.toVariables) : ¬Text.sameFolded u.name.toList v.name.toList := by
  intro hsame
  obtain ⟨c, hc, hne⟩ := fold_head_ne hu
  have hheads := congrArg List.head? (beq_iff_eq.1 hsame)
  rw [List.head?_map, List.head?_map, Option.mem_def.1 hc, head?_name_of_mem_toVariables hv]
    at hheads
  exact hne (Option.some.inj hheads)

end Builtin

theorem Catalog.settled_builtins_append_iff {h : Host} {s : CustomSet} :
    Settled (Builtin.all h ++ s.toVariables) ↔ s.Settled := by
  constructor
  · intro hsettled u hu v hv hsame
    have htext : carriesName (tokenOf v.name).toList u.name :=
      carriesName_iff.2 ⟨false, v.name.toList, toList_tokenOf v.name, hsame⟩
    exact hsettled u (List.mem_append_right _ hu) v (List.mem_append_right _ hv) _ htext
      (carriesName_tokenOf v.name)
  · intro hsettled u hu v hv text htextu htextv
    have hunmarked : ∀ w ∈ Builtin.all h ++ s.toVariables, w.name.toList.head? ≠ some '!' := by
      intro w hw
      rcases List.mem_append.1 hw with hw | hw
      · exact (Builtin.isPlain_name_of_mem_all hw).2
      · simp [head?_name_of_mem_toVariables hw]
    have hsame := sameFolded_of_carriesName (hunmarked u hu) (hunmarked v hv) htextu htextv
    rcases List.mem_append.1 hu with hu | hu
    · rcases List.mem_append.1 hv with hv | hv
      · exact sameAsciiCase_of_plain (Builtin.isPlain_name_of_mem_all hu)
          (Builtin.isPlain_name_of_mem_all hv) htextu htextv
      · exact absurd hsame (Builtin.not_sameFolded_custom hu hv)
    · rcases List.mem_append.1 hv with hv | hv
      · exact absurd (Text.sameFolded_symm hsame) (Builtin.not_sameFolded_custom hv hu)
      · exact hsettled u hu v hv hsame

/-- The catalog of the program is that of its variables and then the declared ones. -/
theorem catalogFor_eq_ok {settings : Settings} {w : Surroundings} {c : Catalog}
    (h : catalogFor settings w = .ok c) :
    ∃ host, c = .ofVariables (Builtin.all host ++ settings.declaredSet.toVariables) := by
  rw [catalogFor] at h
  split at h
  · rename_i shell hshell
    exact ⟨w.host shell none none none, (Except.ok.inj h).symm⟩
  · cases h

/-- Whoever offers the variables, the catalog merges nothing that the patterns keep apart. That it
merges all that they merge is in the catalog of a command up to the custom names. -/
theorem catalogs_compared (providers : List (Host → List Variable)) (h : Host)
    (settings : Settings) (w : Surroundings) :
    CatalogCompared (providers.flatMap fun provider => provider h) ∧
      ∀ c, catalogFor settings w = .ok c → (c.Apart ↔ settings.declaredSet.Settled) := by
  refine ⟨catalogCompared _, fun c hc => ?_⟩
  obtain ⟨host, rfl⟩ := catalogFor_eq_ok hc
  rw [Catalog.apart_ofVariables_iff, Catalog.settled_builtins_append_iff]

def accented : CustomSet := .ofList [("CAFÉ", "a"), ("café", "b")]

/-- Both have an entry, and one token is a token of both. -/
theorem accented_names_listed_twice :
    (Catalog.ofVariables accented.toVariables).entries.map (·.name) = ["_CAFÉ", "_café"] ∧
      carriesName "\x7b\x7b_café\x7d\x7d".toList "_CAFÉ" ∧
      carriesName "\x7b\x7b_café\x7d\x7d".toList "_café" ∧
      ¬(Catalog.ofVariables accented.toVariables).Apart := by
  have hnames : (Catalog.ofVariables accented.toVariables).entries.map (·.name) =
      ["_CAFÉ", "_café"] := by decide +kernel
  have hfirst : carriesName "\x7b\x7b_café\x7d\x7d".toList "_CAFÉ" := by decide +kernel
  have hsecond : carriesName "\x7b\x7b_café\x7d\x7d".toList "_café" := by decide +kernel
  refine ⟨hnames, hfirst, hsecond, fun hapart => ?_⟩
  have hpairs : ["_CAFÉ", "_café"].Pairwise fun d e =>
      ∀ text, ¬(carriesName text d ∧ carriesName text e) := by
    rw [← hnames, List.pairwise_map]
    exact hapart
  exact List.rel_of_pairwise_cons hpairs (List.mem_singleton_self _) _ ⟨hfirst, hsecond⟩

end CommandTemplate
