import CommandTemplate.Proofs.ByteOrder
import CommandTemplate.Proofs.CustomSets
import CommandTemplate.Proofs.Results
import CommandTemplate.Settings.Load
import Mathlib.Data.List.Induction

/-!
# Layers of settings

Overlaying is associative and does to the sets of custom variables what taking over does. So layers
can be grouped in any way, and each setting is that of the last layer that sets it; the environment
is laid over all of them.
-/
namespace CommandTemplate.Settings

def normal (s : Settings) : Settings := { s with customValues := normalized s.customValues }

def layered (layers : List Settings) : Settings := layers.foldl overlay ∅

def prompt? (s : Settings) : Option (List PromptField) :=
  if s.prompt.isEmpty then none else some s.prompt

/-- The value stands under that spelling of the name which has the greatest bytes. -/
def GreatestSpelling (values : Dict String) (name value : String) : Prop :=
  ∃ spelling, values.get? spelling = some value ∧ customName spelling = customName name ∧
    ∀ other, (values.get? other).isSome → customName other = customName name →
      utf8Bytes other ≤ utf8Bytes spelling

/-- Settings are the same if all their fields are. -/
theorem eq_of_fields {s t : Settings} (hshell : s.shell = t.shell)
    (hlevel : s.logLevel = t.logLevel) (hkeys : s.exemptKeys = t.exemptKeys)
    (hvalues : s.customValues = t.customValues) (hprompt : s.prompt = t.prompt) : s = t := by
  cases s
  cases t
  simp_all

/-! ## Normalized names -/

/-- Of the spellings of a name the last one in byte order counts. -/
theorem get?_normalized (values : Dict String) (name : String) :
    (normalized values).get? name =
      lastValue? (fun spelling => customName spelling == name) values.entries := by
  rw [normalized, Dict.get?_ofList]
  exact (lastValue?_map customName id values.entries).trans (Option.map_id_apply ..)

/-- A name that is in a normalized dictionary is normalized. -/
theorem customName_eq_of_get?_normalized {values : Dict String} {name value : String}
    (h : (normalized values).get? name = some value) : customName name = name := by
  rw [get?_normalized] at h
  obtain ⟨e, -, he⟩ := isSome_lastValue?_iff.1 (Option.isSome_of_eq_some h)
  rw [beq_iff_eq] at he
  rw [← he, customName_customName]

theorem normalized_eq_self {values : Dict String}
    (h : ∀ name value, values.get? name = some value → customName name = name) :
    normalized values = values := by
  refine Dict.ext_get? fun name => ?_
  rw [get?_normalized, lastValue?_congr _ (· == name)]
  · exact lastValue?_of_ascending values.ascending name
  · intro e he
    rw [h e.1 e.2 ((Dict.mem_entries_iff values e.1 e.2).1 he)]

/-- The upper layer has its say on each name by itself. -/
theorem get?_overlay (lower upper : Settings) (name : String) :
    (lower.overlay upper).customValues.get? name =
      ((normalized upper.customValues).get? name).or ((normalized lower.customValues).get? name) :=
  Dict.get?_foldl_insert_entries ..

/-- Overlaying leaves nothing to normalize. -/
theorem normalized_overlay (lower upper : Settings) :
    normalized (lower.overlay upper).customValues = (lower.overlay upper).customValues := by
  refine normalized_eq_self fun name value h => ?_
  rw [get?_overlay, Option.or_eq_some_iff] at h
  rcases h with h | ⟨-, h⟩ <;> exact customName_eq_of_get?_normalized h

/-! ## Custom variables -/

theorem values_customSet (s : Settings) (name : String) :
    s.customSet.values.get? name = ((normalized s.customValues).get? name).map some := by
  rw [customSet, CustomSet.values_ofList, get?_normalized]

theorem get?_customSet (s : Settings) (name : String) :
    s.customSet.get? name = (normalized s.customValues).get? (customName name) := by
  rw [CustomSet.get?, values_customSet]
  cases (normalized s.customValues).get? (customName name) <;> rfl

/-- Overlaying the settings is taking over the set. -/
theorem customSet_overlay (lower upper : Settings) :
    (lower.overlay upper).customSet = lower.customSet.extend upper.customSet := by
  refine CustomSet.ext_values fun name => ?_
  rw [CustomSet.values_extend, values_customSet, values_customSet, values_customSet,
    CustomSet.atop_map_some, normalized_overlay, get?_overlay]

theorem get?_customSet_overlay (lower upper : Settings) (name : String) :
    (lower.overlay upper).customSet.get? name =
      (upper.customSet.get? name).or (lower.customSet.get? name) := by
  rw [customSet_overlay, CustomSet.get?, CustomSet.values_extend, CustomSet.join_atop]
  rfl

/-- A custom variable has the value under the greatest spelling of its name. -/
theorem get?_customSet_eq_some_iff (s : Settings) (name value : String) :
    s.customSet.get? name = some value ↔ GreatestSpelling s.customValues name value := by
  rw [get?_customSet, get?_normalized, lastValue?_eq_some_iff s.customValues.ascending]
  simp only [beq_iff_eq, Dict.mem_entries_iff, GreatestSpelling, utf8Bytes_le_iff]
  refine exists_congr fun spelling => and_congr_right fun _ => and_congr_right fun _ => ?_
  constructor
  · intro h other hother hname
    obtain ⟨b, hb⟩ := Option.isSome_iff_exists.1 hother
    exact h (other, b) ((Dict.mem_entries_iff _ other b).2 hb) hname
  · intro h e he hname
    exact h e.1 (Option.isSome_of_eq_some ((Dict.mem_entries_iff _ e.1 e.2).1 he)) hname

/-! ## Laws of overlaying -/

/-- Fields to ask for are not merged: the upper list replaces the lower. -/
theorem prompt?_overlay (lower upper : Settings) :
    (lower.overlay upper).prompt? = upper.prompt?.or lower.prompt? := by
  rw [prompt?, prompt?, overlay]
  cases hupper : upper.prompt with
  | nil => simp [prompt?]
  | cons field fields => simp

theorem prompt_eq_getD (s : Settings) : s.prompt = s.prompt?.getD [] := by
  rw [prompt?]
  cases s.prompt <;> rfl

/-- Layers can be laid over one another in any grouping. -/
theorem overlay_assoc (a b c : Settings) : (a.overlay b).overlay c = a.overlay (b.overlay c) := by
  refine eq_of_fields ?_ ?_ ?_ ?_ ?_
  · exact Option.or_assoc.symm
  · exact Option.or_assoc.symm
  · exact Option.or_assoc.symm
  · refine Dict.ext_get? fun name => ?_
    rw [get?_overlay, get?_overlay, normalized_overlay, normalized_overlay, get?_overlay,
      get?_overlay, Option.or_assoc]
  · rw [prompt_eq_getD, prompt_eq_getD (a.overlay _), prompt?_overlay, prompt?_overlay,
      prompt?_overlay, prompt?_overlay, Option.or_assoc]

theorem overlay_empty (s : Settings) : s.overlay ∅ = s.normal :=
  eq_of_fields rfl rfl rfl rfl rfl

theorem empty_overlay (s : Settings) : (∅ : Settings).overlay s = s.normal := by
  refine eq_of_fields (Option.or_none ..) (Option.or_none ..) (Option.or_none ..) ?_ ?_
  · refine Dict.ext_get? fun name => ?_
    rw [get?_overlay]
    exact Option.or_none
  · rw [overlay, normal]
    cases s.prompt <;> rfl

/-- A normalized dictionary holds normalized names, each with the value of its greatest spelling. -/
theorem get?_normalized_eq_some_iff (s : Settings) (name value : String) :
    (normalized s.customValues).get? name = some value ↔
      customName name = name ∧ GreatestSpelling s.customValues name value := by
  rw [← get?_customSet_eq_some_iff, get?_customSet]
  constructor
  · intro h
    have hname := customName_eq_of_get?_normalized h
    exact ⟨hname, by rw [hname, h]⟩
  · rintro ⟨hname, h⟩
    rwa [hname] at h

structure OverlayLaws (a b c : Settings) : Prop where
  assoc : (a.overlay b).overlay c = a.overlay (b.overlay c)
  /-- A layer that sets nothing has the names normalized, on whichever side it is, -/
  above_nothing : (∅ : Settings).overlay a = a.normal
  below_nothing : a.overlay ∅ = a.normal
  /-- and of several spellings of a name the greatest counts -/
  normal_values : ∀ name value, a.normal.customValues.get? name = some value ↔
    customName name = name ∧ GreatestSpelling a.customValues name value
  /-- as it does in the set of custom variables. -/
  set_values : ∀ name value,
    a.customSet.get? name = some value ↔ GreatestSpelling a.customValues name value
  set_overlay : (a.overlay b).customSet = a.customSet.extend b.customSet

theorem overlayLaws (a b c : Settings) : OverlayLaws a b c where
  assoc := overlay_assoc a b c
  above_nothing := empty_overlay a
  below_nothing := overlay_empty a
  normal_values := get?_normalized_eq_some_iff a
  set_values := get?_customSet_eq_some_iff a
  set_overlay := customSet_overlay a b

/-! ## Any number of layers -/

theorem layered_append_singleton (layers : List Settings) (s : Settings) :
    layered (layers ++ [s]) = (layered layers).overlay s := List.foldl_append ..

theorem normal_layered (layers : List Settings) : (layered layers).normal = layered layers := by
  induction layers using List.reverseRecOn with
  | nil => rfl
  | append_singleton layers s _ =>
    rw [layered_append_singleton]
    exact eq_of_fields rfl rfl rfl (normalized_overlay _ s) rfl

/-- Groups of layers can be put together before they are laid over one another. -/
theorem layered_append (layers more : List Settings) :
    layered (layers ++ more) = (layered layers).overlay (layered more) := by
  induction more using List.reverseRecOn with
  | nil =>
    have hempty : (layered layers).overlay (layered []) = layered layers :=
      (overlay_empty _).trans (normal_layered layers)
    rw [List.append_nil, hempty]
  | append_singleton more s ih =>
    rw [← List.append_assoc, layered_append_singleton, ih, overlay_assoc,
      layered_append_singleton]

/-- A setting that a layer takes over from above comes from the last layer that has it. -/
theorem layered_eq_findSome? {α : Type} (setting : Settings → Option α) (hempty : setting ∅ = none)
    (hover : ∀ lower upper : Settings,
      setting (lower.overlay upper) = (setting upper).or (setting lower))
    (layers : List Settings) : setting (layered layers) = layers.reverse.findSome? setting := by
  induction layers using List.reverseRecOn with
  | nil => exact hempty
  | append_singleton layers s ih =>
    rw [layered_append_singleton, hover, ih, List.reverse_append, List.reverse_singleton,
      List.singleton_append, List.findSome?_cons]
    cases setting s <;> rfl

structure LastWins (layers : List Settings) (environment : Dict String) (s : Settings) : Prop where
  shell : s.shell = (nonblank? environment shellKey).or (layers.reverse.findSome? (·.shell))
  logLevel : s.logLevel =
    (nonblank? environment logLevelKey).or (layers.reverse.findSome? (·.logLevel))
  /-- A list without keys sets the exempt keys, too. -/
  exemptKeys : s.exemptKeys = layers.reverse.findSome? (·.exemptKeys)
  prompt : s.prompt = (layers.reverse.findSome? prompt?).getD []
  custom : ∀ name,
    s.customSet.get? name = layers.reverse.findSome? fun layer => layer.customSet.get? name

/-- Of many layers the last that sets something wins, by induction from the top. -/
theorem lastWins_layered (layers : List Settings) (environment : Dict String) :
    LastWins layers environment ((layered layers).withEnvironment environment) where
  shell := by
    rw [← layered_eq_findSome? (·.shell) rfl fun _ _ => rfl]
    rfl
  logLevel := by
    rw [← layered_eq_findSome? (·.logLevel) rfl fun _ _ => rfl]
    rfl
  exemptKeys := layered_eq_findSome? (·.exemptKeys) rfl (fun _ _ => rfl) layers
  prompt := by
    rw [← layered_eq_findSome? prompt? rfl prompt?_overlay, ← prompt_eq_getD]
    rfl
  custom name := by
    rw [← layered_eq_findSome? (·.customSet.get? name) rfl
      fun lower upper => get?_customSet_overlay lower upper name]
    rfl

/-! ## Files -/

def fileLayers (files : Files) (paths : List Path) : Except ProgramError (List Settings) :=
  (paths.filter files.present).mapM (ofFile files)

/-- Loading files one after the other is laying over those that are there. -/
theorem foldlM_overlayFile (files : Files) (paths : List Path) (s : Settings) :
    paths.foldlM (fun s path => overlayFile files path s) s =
      (fileLayers files paths).map fun layers => layers.foldl overlay s := by
  rw [fileLayers]
  induction paths generalizing s with
  | nil => rfl
  | cons path paths ih =>
    rw [List.foldlM_cons, overlayFile, List.filter_cons]
    split
    · rw [List.mapM_cons]
      cases ofFile files path with
      | error e => rfl
      | ok layer =>
        simp only [map_ok, ok_bind] at ih ⊢
        rw [ih]
        cases (paths.filter files.present).mapM (ofFile files) <;> rfl
    · exact ih s

/-- Loading lays the files over one another in order, and the environment over them. -/
theorem load_eq (files : Files) (userFile : Option Path) (folder : Path)
    (environment : Dict String) :
    load files userFile folder environment =
      (fileLayers files (userFile.toList ++ [pathIn folder projectFileName])).map fun layers =>
        (layered layers).withEnvironment environment := by
  have hpaths : load files userFile folder environment =
      ((userFile.toList ++ [pathIn folder projectFileName]).foldlM
        (fun s path => overlayFile files path s) ∅).map (·.withEnvironment environment) := by
    unfold load
    cases userFile with
    | none =>
      simp only [Option.toList_none, List.nil_append, List.foldlM_cons, List.foldlM_nil,
        pure_eq_ok, ok_bind]
      cases overlayFile files (pathIn folder projectFileName) ∅ <;> rfl
    | some path =>
      simp only [Option.toList_some, List.singleton_append, List.foldlM_cons, List.foldlM_nil,
        pure_eq_ok]
      cases overlayFile files path ∅ with
      | error e => rfl
      | ok s =>
        simp only [ok_bind]
        cases overlayFile files (pathIn folder projectFileName) s <;> rfl
  rw [hpaths, foldlM_overlayFile]
  cases fileLayers files (userFile.toList ++ [pathIn folder projectFileName]) <;> rfl

/-- Two spellings in one layer, and a third one in the layer above it. -/
example :
    let lower : Settings := { (∅ : Settings) with
      exemptKeys := some ["alias"]
      customValues := .ofList [("_a", "prefixed"), ("a", "bare"), ("b", "below")] }
    let upper : Settings := { (∅ : Settings) with
      exemptKeys := some []
      customValues := .ofList [(" b ", "above")] }
    let s := layered [lower, upper]
    (s.exempt, s.customSet.get? "a", s.customSet.get? "_b") =
      ([], some "bare", some "above") := by decide +kernel

end CommandTemplate.Settings
