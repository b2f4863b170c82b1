import CommandTemplate.Proofs.PathOptions
import CommandTemplate.Proofs.PathSteps

/-!
# Shown paths lead to the same file

Where a path is shown without the steps to a folder, these steps come back when it is joined to the
folder. What is shown is text. Reading it as a path gives the path that was shown if that is UTF-8,
and if not one of as many steps, with other names.
-/
namespace CommandTemplate

namespace Path

/-! ## Showing -/

theorem rendered_full (base p : Path) :
    (if isAbsolute p then p else join base p) = join base p := by
  by_cases hp : isAbsolute p <;> simp [join, hp]

theorem rendered_absolute (base p : Path) : rendered p .absolute base = join base p :=
  rendered_full base p

/-- Relative to a folder a path is shown without the steps to it, if it goes them. -/
theorem rendered_relative_cases {base : Path} (hbase : isAbsolute base) (p : Path) :
    (steps base <+: steps (join base p) ∧ isAbsolute (rendered p .relative base) = false ∧
        steps (rendered p .relative base) = (steps (join base p)).drop (steps base).length) ∨
      ¬steps base <+: steps (join base p) ∧ rendered p .relative base = join base p := by
  have hfull := isAbsolute_join hbase p
  rw [rendered.eq_def, rendered_full]
  dsimp only
  by_cases hinside : steps base <+: steps (join base p)
  · obtain ⟨rest, hrest, hrelative, hsteps⟩ := below?_of_prefix hbase hfull hinside
    rw [hrest]
    cases rest with
    | nil => exact .inl ⟨hinside, rfl, hsteps⟩
    | cons c rest => exact .inl ⟨hinside, hrelative, hsteps⟩
  · rw [below?_eq hbase hfull, if_neg hinside]
    exact .inr ⟨hinside, rfl⟩

/-- Joined to the folder that it is shown from, a shown path is the path again. -/
theorem components_join_rendered {base : Path} (hbase : isAbsolute base) (p : Path)
    (mode : Mode) : components (join base (rendered p mode base)) = components (join base p) := by
  have hfull := isAbsolute_join hbase p
  have habsolute : components (join base (join base p)) = components (join base p) := by
    rw [components_join hbase (join base p), if_pos hfull, components_of_isAbsolute hfull]
  cases mode with
  | absolute => rw [rendered_absolute, habsolute]
  | relative =>
    rcases rendered_relative_cases hbase p with ⟨hinside, hrelative, hsteps⟩ | ⟨-, hshown⟩
    · obtain ⟨rest, hrest⟩ := hinside
      rw [components_join hbase (rendered p .relative base), hrelative, hsteps, ← hrest,
        List.drop_left, components_of_isAbsolute hfull, ← hrest]
      rfl
    · rw [hshown, habsolute]

theorem isAbsolute_rendered_relative {base : Path} (hbase : isAbsolute base) (p : Path) :
    isAbsolute (rendered p .relative base) = false ↔
      components base <+: components (join base p) := by
  have hfull := isAbsolute_join hbase p
  rw [components_of_isAbsolute hbase, components_of_isAbsolute hfull, List.cons_prefix_cons]
  rcases rendered_relative_cases hbase p with ⟨hinside, hrelative, -⟩ | ⟨houtside, hshown⟩
  · simp [hinside, hrelative]
  · simp [houtside, hshown, hfull]

/-- What a folder is shown as and a name lead to what the file is shown as. -/
theorem components_folder_name {base p folder name : Path} (hbase : isAbsolute base)
    (hfolder : parent? p = some folder) (hname : fileName? p = some name) (mode mode' : Mode) :
    components (join base (rendered folder mode base)) ++ [.name name] =
      components (join base (rendered p mode' base)) := by
  obtain ⟨habsolute, hsteps⟩ := exists_steps_parent? hfolder hname
  rw [components_join_rendered hbase, components_join_rendered hbase, components_join hbase,
    components_join hbase, habsolute, hsteps]
  split
  · rfl
  · rw [List.cons_append, List.append_assoc]

/-! ## Reading what is shown -/

open Text (respelled IsUtf8 utf8)

/-- A name as it is read again after it was shown. -/
def Component.respelled : Component → Component
  | .name s => .name (Text.respelled s)
  | c => c

/-- An ASCII byte stands for itself, so segments are read one by one. -/
theorem respelled_joinSegments (ss : List Path) :
    respelled (joinSegments ss) = joinSegments (ss.map respelled) := by
  induction ss with
  | nil => exact Text.respelled_nil
  | cons s ss ih =>
    cases ss with
    | nil => simp
    | cons t ss =>
      rw [joinSegments_cons_cons, Text.respelled_append_cons s (by decide), ih]
      exact (joinSegments_cons_cons ..).symm

theorem segments_respelled (p : Path) :
    segments (respelled p) = (segments p).map respelled := by
  have hne : (segments p).map respelled ≠ [] := by simp [segments_ne_nil]
  have hwhole : ∀ s ∈ (segments p).map respelled, slash ∉ s := by
    intro s hs hslash
    obtain ⟨t, ht, rfl⟩ := List.mem_map.1 hs
    exact not_mem_of_mem_segments ht (Text.mem_of_mem_respelled (by decide) hslash)
  rw [← segments_joinSegments hne hwhole, ← respelled_joinSegments, joinSegments_segments]

theorem component?_respelled (s : Path) :
    component? (respelled s) = (component? s).map Component.respelled := by
  have hempty : respelled s = [] ↔ s = [] := Text.respelled_eq_utf8_iff (s := []) (by decide)
  have hhere : respelled s = [dot] ↔ s = [dot] :=
    Text.respelled_eq_utf8_iff (s := ['.']) (by decide)
  have hup : respelled s = [dot, dot] ↔ s = [dot, dot] :=
    Text.respelled_eq_utf8_iff (s := ['.', '.']) (by decide)
  have hvoid : isVoid (respelled s) = isVoid s := by
    rw [Bool.eq_iff_iff, isVoid, isVoid]
    simp [hempty, hhere]
  rw [component?, component?, hvoid]
  simp only [hup]
  split_ifs <;> rfl

/-- Reading what is shown again keeps the number of steps and where they go up. -/
theorem steps_respelled (p : Path) : steps (respelled p) = (steps p).map Component.respelled := by
  rw [steps, steps, segments_respelled, List.filterMap_map, List.map_filterMap]
  exact List.filterMap_congr fun s _ => component?_respelled s

theorem isAbsolute_respelled (p : Path) : isAbsolute (respelled p) = isAbsolute p := by
  rw [Bool.eq_iff_iff, isAbsolute, isAbsolute, beq_iff_eq, beq_iff_eq]
  exact Text.head?_respelled (by decide) p

theorem isUtf8_ofText (s : String) : IsUtf8 (ofText s) := ⟨s.toList, rfl⟩

/-- A path is UTF-8 if and only if its steps are read as they are. -/
theorem isUtf8_iff_steps {p : Path} :
    IsUtf8 p ↔ (steps p).map Component.respelled = steps p := by
  rw [Text.isUtf8_iff]
  constructor
  · intro h
    rw [← steps_respelled, h]
  · intro h
    have hsegments : ∀ s ∈ segments p, respelled s = s := by
      intro s hs
      by_cases hvoid : isVoid s
      · rw [isVoid, Bool.or_eq_true, beq_iff_eq, beq_iff_eq] at hvoid
        rcases hvoid with rfl | rfl <;> decide +kernel
      · obtain ⟨c, hc⟩ := exists_component? hvoid
        have hfixed : c.respelled = c :=
          List.map_inj_left.1 (h.trans (List.map_id _).symm) c (List.mem_filterMap.2 ⟨s, hs, hc⟩)
        rw [component?, if_neg hvoid] at hc
        split at hc
        · rename_i hup
          rw [hup]
          decide +kernel
        · rw [← Option.some.inj hc] at hfixed
          exact Component.name.inj hfixed
    rw [← joinSegments_segments p, respelled_joinSegments, List.map_congr_left hsegments,
      List.map_id']

/-- What was shown from a folder goes the steps of the path as they are read, behind those of the
folder if it was shown without them. -/
theorem components_join_respelled {base : Path} (hbase : isAbsolute base) (p : Path) :
    components (join base (respelled p)) =
      .root :: if isAbsolute p then (steps p).map Component.respelled
        else steps base ++ (steps p).map Component.respelled := by
  rw [components_join hbase, isAbsolute_respelled, steps_respelled]

/-- What is read again is the path just when it is UTF-8. -/
theorem components_join_respelled_eq_iff {base : Path} (hbase : isAbsolute base) (p : Path) :
    components (join base (respelled p)) = components (join base p) ↔ IsUtf8 p := by
  rw [components_join_respelled hbase, components_join hbase, isUtf8_iff_steps]
  split_ifs <;> simp

/-- Taking steps off the front of a path leaves UTF-8 as it is. -/
theorem isUtf8_rendered {base p : Path} (hbase : isAbsolute base) (hfolder : IsUtf8 base)
    (hp : IsUtf8 p) (mode : Mode) : IsUtf8 (rendered p mode base) := by
  rw [isUtf8_iff_steps] at hfolder hp
  have hjoin : (steps (join base p)).map Component.respelled = steps (join base p) := by
    rw [steps_join hbase]
    split_ifs
    · exact hp
    · rw [List.map_append, hfolder, hp]
  cases mode with
  | absolute => rwa [rendered_absolute, isUtf8_iff_steps]
  | relative =>
    rw [isUtf8_iff_steps]
    rcases rendered_relative_cases hbase p with ⟨-, -, hsteps⟩ | ⟨-, hshown⟩
    · rw [hsteps, List.map_drop, hjoin]
    · rwa [hshown]

/-- Read again, a folder and a name make up the file as it is read again, unless only one of the two
is shown without steps to the folder they are seen from that cannot be read. -/
theorem components_respelled_folder_name_iff {base p folder name : Path} (hbase : isAbsolute base)
    (hfolder : parent? p = some folder) (hname : fileName? p = some name) (mode mode' : Mode) :
    components (join base (respelled (rendered folder mode base))) ++ [.name (respelled name)] =
        components (join base (respelled (rendered p mode' base))) ↔
      IsUtf8 base ∨
        isAbsolute (rendered folder mode base) = isAbsolute (rendered p mode' base) := by
  have hwhole := components_folder_name hbase hfolder hname mode mode'
  rw [components_join hbase, components_join hbase, List.cons_append] at hwhole
  have hsteps := congrArg (List.map Component.respelled) (List.cons.inj hwhole).2
  have hname : Component.name (respelled name) = (Component.name name).respelled := rfl
  rw [components_join_respelled hbase, components_join_respelled hbase, isUtf8_iff_steps, hname,
    List.cons_append]
  -- on a side that is relative the steps to the folder are not read again
  cases hfolder : isAbsolute (rendered folder mode base) <;>
    cases hfile : isAbsolute (rendered p mode' base) <;>
    simp [hfolder, hfile] at hsteps ⊢
  case false.false | true.true => exact hsteps
  case true.false => rw [hsteps, List.append_left_inj]
  case false.true => rw [← hsteps, List.append_left_inj, eq_comm]

end Path

/-! ## The variables of the active file -/

namespace Builtin

variable {h : Host} {a : Arguments} {n : Nat} {shown : String}

theorem requireFile_eq_ok_iff {name : String} {file : Path} :
    requireFile h name = .ok file ↔ h.file = some file := by
  rw [requireFile]
  cases h.file <;> simp

theorem parent?_of_requireFolder {file folder : Path} {name : String}
    (h : requireFolder file name = .ok folder) : Path.parent? file = some folder := by
  rw [requireFolder] at h
  split at h
  · rename_i hparent
    rw [hparent, Except.ok.inj h]
  · cases h

theorem exists_of_filePath (hshown : (filePath h).generate a n = .ok shown) :
    ∃ file mode, h.file = some file ∧
      shown = String.ofList (Path.display file mode h.directory) := by
  obtain ⟨file, hfile, hrest⟩ := bind_eq_ok_iff.1 hshown
  obtain ⟨mode, -, hshown⟩ := bind_eq_ok_iff.1 hrest
  exact ⟨file, mode, requireFile_eq_ok_iff.1 hfile, (Except.ok.inj hshown).symm⟩

theorem exists_of_folderPath (hshown : (folderPath h).generate a n = .ok shown) :
    ∃ file folder mode, h.file = some file ∧ Path.parent? file = some folder ∧
      shown = String.ofList (Path.display folder mode h.directory) := by
  obtain ⟨file, hfile, hrest⟩ := bind_eq_ok_iff.1 hshown
  obtain ⟨folder, hfolder, hrest⟩ := bind_eq_ok_iff.1 hrest
  obtain ⟨mode, -, hshown⟩ := bind_eq_ok_iff.1 hrest
  exact ⟨file, folder, mode, requireFile_eq_ok_iff.1 hfile, parent?_of_requireFolder hfolder,
    (Except.ok.inj hshown).symm⟩

theorem exists_of_fileName (hshown : (fileName h).generate a n = .ok shown) :
    ∃ file name, h.file = some file ∧ Path.fileName? file = some name ∧ shown = name.text := by
  obtain ⟨file, hfile, hrest⟩ := bind_eq_ok_iff.1 hshown
  split at hrest
  · rename_i name hname
    exact ⟨file, name, requireFile_eq_ok_iff.1 hfile, hname, (Except.ok.inj hrest).symm⟩
  · cases hrest

end Builtin

structure PathsKept (base : Path) : Prop where
  /-- Seen from the folder, what is shown is the path again, in whatever mode, if what there is to
  be shown of it is UTF-8, and only then, -/
  same_iff : ∀ p mode, Path.components (Path.join base (Text.utf8 (Path.display p mode base))) =
    Path.components (Path.join base p) ↔ Text.IsUtf8 (Path.rendered p mode base)
  /-- which it is of a path and from a folder that are. -/
  isUtf8 : Text.IsUtf8 base → ∀ p mode, Text.IsUtf8 p → Text.IsUtf8 (Path.rendered p mode base)
  /-- It is shown as a relative path if the path lies inside the folder, and only then. -/
  relative_iff : ∀ p,
    Path.isAbsolute (Text.utf8 (Path.display p .relative base)) = false ↔
      Path.components base <+: Path.components (Path.join base p)
  /-- The folder of the active file and its name, where there are both, make up its path, unless
  the folder they are seen from is not UTF-8 and only one of the two is shown relative to it. -/
  fits_iff : ∀ (h : Host) (a b c : Arguments) (i j k : Nat) (folder name file : String),
    h.directory = base → (Builtin.folderPath h).generate a i = .ok folder →
    (Builtin.fileName h).generate b j = .ok name → (Builtin.filePath h).generate c k = .ok file →
    (Path.components (Path.join base (.ofText folder)) ++ [.name (.ofText name)] =
        Path.components (Path.join base (.ofText file)) ↔
      Text.IsUtf8 base ∨ Path.isAbsolute (.ofText folder) = Path.isAbsolute (.ofText file))

/-- From an absolute folder, what is shown of a path denotes the same file, as far as it is
UTF-8. -/
theorem paths_kept (base : Path) (hbase : Path.isAbsolute base = true) : PathsKept base where
  same_iff := by
    intro p mode
    rw [← Path.components_join_rendered hbase p mode]
    exact Path.components_join_respelled_eq_iff hbase (Path.rendered p mode base)
  isUtf8 hfolder _ mode hp := Path.isUtf8_rendered hbase hfolder hp mode
  relative_iff := by
    intro p
    rw [← Path.isAbsolute_rendered_relative hbase]
    exact iff_of_eq (congrArg (· = false) (Path.isAbsolute_respelled _))
  fits_iff := by
    rintro h a b c i j k folder name file rfl hfolder hname hfile
    obtain ⟨path, mode, hpath, rfl⟩ := Builtin.exists_of_filePath hfile
    obtain ⟨path', parent, mode', hpath', hparent, rfl⟩ := Builtin.exists_of_folderPath hfolder
    obtain ⟨path'', last, hpath'', hlast, rfl⟩ := Builtin.exists_of_fileName hname
    obtain rfl : path = path' := Option.some.inj (hpath.symm.trans hpath')
    obtain rfl : path = path'' := Option.some.inj (hpath.symm.trans hpath'')
    have hfits := Path.components_respelled_folder_name_iff hbase hparent hlast mode' mode
    rw [← Path.isAbsolute_respelled (Path.rendered parent mode' _),
      ← Path.isAbsolute_respelled (Path.rendered path mode _)] at hfits
    simp only [Path.ofText, Path.text, String.toList_ofList]
    exact hfits

def relativeMode : Arguments := .ofList [("mode", .text "relative")]

def workFolder : Path := .ofText "/work"

/-- A folder whose name only begins alike does not lie inside; `..` does not lead out. -/
theorem paths_kept_work :
    Path.isAbsolute workFolder = true ∧
      Path.isAbsolute
        (Text.utf8 (Path.display (.ofText "/workshop/x") .relative workFolder)) = true ∧
      Path.isAbsolute (Text.utf8 (Path.display (.ofText "../x") .relative workFolder)) = false ∧
      Path.components (Path.join workFolder
          (Text.utf8 (Path.display (.ofText "//work/./a/../x/.") .relative workFolder))) =
        [.root, .name (.ofText "work"), .name (.ofText "a"), .up, .name (.ofText "x")] ∧
      notesHost.directory = workFolder ∧
      (Builtin.folderPath notesHost).generate relativeMode 0 = .ok "notes" ∧
      (Builtin.fileName notesHost).generate ∅ 0 = .ok "today.md" ∧
      (Builtin.filePath notesHost).generate relativeMode 0 = .ok "notes/today.md" ∧
      Path.components (Path.join workFolder (.ofText "notes")) ++ [.name (.ofText "today.md")] =
        Path.components (Path.join workFolder (.ofText "notes/today.md")) := by
  have hwork : Path.isAbsolute workFolder = true := by decide +kernel
  have hutf8 : Text.IsUtf8 workFolder := Path.isUtf8_ofText "/work"
  have hkept := paths_kept workFolder hwork
  have hfolder : (Builtin.folderPath notesHost).generate relativeMode 0 = .ok "notes" := by
    decide +kernel
  have hname : (Builtin.fileName notesHost).generate ∅ 0 = .ok "today.md" := by decide +kernel
  have hfile : (Builtin.filePath notesHost).generate relativeMode 0 = .ok "notes/today.md" := by
    decide +kernel
  refine ⟨hwork, ?_, (hkept.relative_iff _).2 (by decide +kernel), ?_, rfl, hfolder, hname, hfile,
    ?_⟩
  · rw [← Bool.not_eq_false, hkept.relative_iff]
    decide +kernel
  · have hshown := hkept.isUtf8 hutf8 (Path.ofText "//work/./a/../x/.") .relative
      (Path.isUtf8_ofText _)
    rw [(hkept.same_iff _ _).2 hshown]
    decide +kernel
  · exact (hkept.fits_iff notesHost _ _ _ _ _ _ _ _ _ rfl hfolder hname hfile).2 (.inl hutf8)

/-- A byte that no text begins with. -/
def unreadable : Path := [0xFF]

def unreadableHost : Host :=
  { notesHost with
    directory := .ofText "/w" ++ unreadable
    file := some (.ofText "/w" ++ unreadable) }

/-- A replacement character has other bytes than what it stands for. Where the folder has such a
name and is the active file itself, it is shown as `.`, but the folder above it from the root. -/
theorem unreadable_paths_not_kept :
    Path.isAbsolute workFolder = true ∧
      Path.display unreadable .absolute workFolder = "/work/\uFFFD".toList ∧
      Path.components
          (Path.join workFolder (Text.utf8 (Path.display unreadable .absolute workFolder))) ≠
        Path.components (Path.join workFolder unreadable) ∧
      Path.isAbsolute unreadableHost.directory = true ∧
      (Builtin.folderPath unreadableHost).generate relativeMode 0 = .ok "/" ∧
      (Builtin.fileName unreadableHost).generate ∅ 0 = .ok "w\uFFFD" ∧
      (Builtin.filePath unreadableHost).generate relativeMode 0 = .ok "." ∧
      Path.components (Path.join unreadableHost.directory (.ofText "/")) ++
          [.name (.ofText "w\uFFFD")] ≠
        Path.components (Path.join unreadableHost.directory (.ofText ".")) := by
  decide +kernel

end CommandTemplate
