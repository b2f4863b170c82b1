import CommandTemplate.Proofs.Paths

/-!
# Steps of paths

Behind its start a path goes the steps that its segments say, and void segments say none. Joining
paths puts their steps one behind the other, and the folder and the name of a file are its steps up
to the last and this one.
-/
namespace CommandTemplate.Path

def steps (p : Path) : List Component := (segments p).filterMap component?

/-! ## Segments -/

theorem not_mem_of_mem_segments {p s : Path} (hs : s ∈ segments p) : slash ∉ s := by
  induction p generalizing s with
  | nil =>
    obtain rfl : s = [] := by simpa [segments] using hs
    exact List.not_mem_nil
  | cons c p ih =>
    obtain ⟨first, rest, hp⟩ := List.exists_cons_of_ne_nil (segments_ne_nil p)
    rw [hp] at ih
    rw [segments, hp] at hs
    split at hs
    · rcases List.mem_cons.1 hs with rfl | hs
      · exact List.not_mem_nil
      · exact ih hs
    · rename_i hc
      rcases List.mem_cons.1 hs with rfl | hs
      · exact List.not_mem_cons_of_ne_of_not_mem (Ne.symm hc) (ih (List.mem_cons_self ..))
      · exact ih (List.mem_cons_of_mem _ hs)

/-- A separator divides the segments. -/
theorem segments_append (a b : Path) :
    segments (a ++ slash :: b) = segments a ++ segments b := by
  induction a with
  | nil => simp [segments]
  | cons c a ih =>
    obtain ⟨first, rest, ha⟩ := List.exists_cons_of_ne_nil (segments_ne_nil a)
    rw [List.cons_append, segments, ih, segments, ha]
    split <;> rfl

theorem segments_eq_singleton {s : Path} (h : slash ∉ s) : segments s = [s] := by
  induction s with
  | nil => rfl
  | cons c s ih =>
    rw [List.mem_cons, not_or] at h
    rw [segments, ih h.2, if_neg (Ne.symm h.1)]

/-- The steps of a path are those on either side of a separator. -/
theorem steps_append (a b : Path) : steps (a ++ slash :: b) = steps a ++ steps b := by
  rw [steps, segments_append, List.filterMap_append]
  rfl

/-- Segments that were joined are read as they were. -/
theorem segments_joinSegments {ss : List Path} (hne : ss ≠ []) (h : ∀ s ∈ ss, slash ∉ s) :
    segments (joinSegments ss) = ss := by
  induction ss with
  | nil => exact absurd rfl hne
  | cons s ss ih =>
    obtain ⟨hs, hss⟩ := List.forall_mem_cons.1 h
    cases ss with
    | nil =>
      rw [joinSegments_singleton, segments_eq_singleton hs]
    | cons t ss =>
      rw [joinSegments_cons_cons, segments_append, segments_eq_singleton hs,
        ih (List.cons_ne_nil t ss) hss, List.singleton_append]

theorem steps_joinSegments {ss : List Path} (h : ∀ s ∈ ss, slash ∉ s) :
    steps (joinSegments ss) = ss.filterMap component? := by
  cases ss with
  | nil => rfl
  | cons s ss => rw [steps, segments_joinSegments (List.cons_ne_nil s ss) h]

theorem isAbsolute_joinSegments {ss : List Path} (h : ∀ s ∈ ss, slash ∉ s)
    (hfirst : ∀ s ∈ ss.head?, s ≠ []) : isAbsolute (joinSegments ss) = false := by
  cases ss with
  | nil => rfl
  | cons s ss =>
    obtain ⟨c, s, rfl⟩ := List.exists_cons_of_ne_nil (hfirst s rfl)
    have hc : c ≠ slash := fun hc => h _ (List.mem_cons_self ..) (hc ▸ List.mem_cons_self ..)
    cases ss <;> simp [isAbsolute, hc]

theorem prefix_joinSegments {ss ts : List Path} (h : ss <+: ts) :
    joinSegments ss <+: joinSegments ts := by
  induction ss generalizing ts with
  | nil => exact List.nil_prefix
  | cons s ss ih =>
    obtain ⟨rest, rfl⟩ := h
    have hrest := ih (List.prefix_append ss rest)
    rw [List.cons_append]
    cases ss with
    | nil =>
      cases rest with
      | nil => exact List.prefix_refl _
      | cons t rest =>
        rw [joinSegments_singleton, List.nil_append, joinSegments_cons_cons]
        exact List.prefix_append ..
    | cons t ss =>
      rw [List.cons_append, joinSegments_cons_cons, joinSegments_cons_cons, ← List.cons_append,
        List.prefix_append_right_inj, List.cons_prefix_cons]
      exact ⟨rfl, hrest⟩

/-! ## Void segments -/

theorem component?_eq_none {s : Path} (h : isVoid s) : component? s = none := if_pos h

theorem exists_component? {s : Path} (h : ¬isVoid s) : ∃ c, component? s = some c := by
  rw [component?, if_neg h]
  split <;> exact ⟨_, rfl⟩

theorem not_isVoid_of_dropWhile {body rest : List Path} {s : Path}
    (h : body.dropWhile isVoid = s :: rest) : ¬isVoid s := by
  have hhead := List.head?_dropWhile_not isVoid body
  rw [h] at hhead
  simpa using hhead

theorem filterMap_dropWhile_isVoid (body : List Path) :
    (body.dropWhile isVoid).filterMap component? = body.filterMap component? := by
  induction body with
  | nil => rfl
  | cons s body ih =>
    rw [List.dropWhile_cons]
    split
    · rename_i hs
      rw [ih, List.filterMap_cons_none (component?_eq_none hs)]
    · rfl

/-- Segments that mean nothing can be taken off without a change to the steps. -/
theorem filterMap_trimBack (body : List Path) :
    (trimBack body).filterMap component? = body.filterMap component? := by
  rw [trimBack, List.filterMap_reverse, filterMap_dropWhile_isVoid, List.filterMap_reverse,
    List.reverse_reverse]

theorem filterMap_dropNames (n : Nat) (body : List Path) :
    (dropNames n body).filterMap component? = (body.filterMap component?).drop n := by
  induction body generalizing n with
  | nil => cases n <;> simp [dropNames]
  | cons s body ih =>
    cases n with
    | zero => rfl
    | succ n =>
      rw [dropNames]
      split
      · rename_i hs
        rw [ih, List.filterMap_cons_none (component?_eq_none hs)]
      · rename_i hs
        obtain ⟨c, hc⟩ := exists_component? hs
        rw [ih, List.filterMap_cons_some hc, List.drop_succ_cons]

/-! ## Steps of a path -/

theorem filterMap_parts (p : Path) : (parts p).2.filterMap component? = steps p := by
  rw [steps]
  rcases parts_cases p with ⟨s, rfl, hparts⟩ | ⟨-, rest, hsegments, hparts⟩ | ⟨-, hparts⟩
  · rw [hparts, segments, if_pos rfl, List.filterMap_cons_none (component?_eq_none rfl)]
  · rw [hparts, hsegments, List.filterMap_cons_none (component?_eq_none rfl)]
  · rw [hparts]

/-- The components of a path are what it begins with and then its steps. -/
theorem components_eq (p : Path) : components p = (parts p).1.components ++ steps p := by
  rw [← filterMap_parts]
  rfl

theorem exists_of_isAbsolute {p : Path} (h : isAbsolute p) : ∃ s, p = slash :: s := by
  rw [isAbsolute, beq_iff_eq] at h
  exact (List.head?_eq_some_iff.1 h)

theorem components_of_isAbsolute {p : Path} (h : isAbsolute p) :
    components p = .root :: steps p := by
  obtain ⟨s, rfl⟩ := exists_of_isAbsolute h
  exact components_eq (slash :: s)

theorem isAbsolute_join {base : Path} (hbase : isAbsolute base) (p : Path) :
    isAbsolute (join base p) := by
  obtain ⟨s, rfl⟩ := exists_of_isAbsolute hbase
  rw [join]
  split
  · rename_i hp
    simpa using hp
  · split <;> rfl

/-- A relative path goes on from where the folder is, an absolute one starts anew. -/
theorem steps_join {base : Path} (hbase : isAbsolute base) (p : Path) :
    steps (join base p) = if isAbsolute p then steps p else steps base ++ steps p := by
  obtain ⟨s, rfl⟩ := exists_of_isAbsolute hbase
  rw [join, List.isEmpty_cons, Bool.or_false]
  split
  · rfl
  · split
    · rename_i hlast
      obtain ⟨front, hfront⟩ := List.getLast?_eq_some_iff.1 hlast
      have hempty : steps [] = [] := rfl
      rw [hfront, List.append_assoc, List.singleton_append, steps_append, steps_append, hempty,
        List.append_nil]
    · rw [steps_append]

/-- Joined to an absolute folder, a relative path goes its steps from there and an absolute one its
own. -/
theorem components_join {base : Path} (hbase : isAbsolute base) (p : Path) :
    components (join base p) =
      .root :: if isAbsolute p then steps p else steps base ++ steps p := by
  rw [components_of_isAbsolute (isAbsolute_join hbase p), steps_join hbase]

/-! ## Folder and name -/

theorem getLast?_steps {p name : Path} (h : fileName? p = some name) :
    (steps p).getLast? = some (.name name) := by
  rw [fileName?, components_eq, List.getLast?_append] at h
  cases hlast : (steps p).getLast? with
  | some last =>
    rw [hlast, Option.some_or] at h
    split at h
    · rename_i heq
      rw [heq, Option.some.inj h]
    · cases h
  | none =>
    rw [hlast, Option.none_or] at h
    generalize (parts p).1 = start at h
    cases start <;> cases h

/-- With fewer segments a path is absolute or relative as before. -/
theorem isAbsolute_ofParts {p : Path} {ss : List Path} (h : ss <+: (parts p).2) :
    isAbsolute (ofParts (parts p).1 ss) = isAbsolute p := by
  rcases parts_cases p with ⟨s, rfl, hparts⟩ | ⟨hp, rest, -, hparts⟩ | ⟨hp, hparts⟩
  · rw [hparts]
    rfl
  · rw [hparts, hp]
    cases ss <;> rfl
  · -- the segments are the front of a relative text
    rw [hparts] at h ⊢
    obtain ⟨rest, hrest⟩ := prefix_joinSegments h
    rw [joinSegments_segments] at hrest
    rw [hp]
    cases hstart : joinSegments ss with
    | nil => rw [ofParts, hstart]; rfl
    | cons c s =>
      rw [ofParts, hstart]
      rw [← hrest, hstart] at hp
      exact hp

theorem steps_ofParts {body : List Path} (h : ∀ s ∈ body, slash ∉ s) (start : Start) :
    steps (ofParts start body) = body.filterMap component? := by
  rw [← steps_joinSegments h]
  cases start with
  | root => exact steps_append [] (joinSegments body)
  | bare => rfl
  | here =>
    cases body with
    | nil => rfl
    | cons s body => exact steps_append [dot] (joinSegments (s :: body))

/-- The last segment that is not void says the last step; the folder has all before it. -/
theorem exists_steps_parent? {p folder name : Path} (hfolder : parent? p = some folder)
    (hname : fileName? p = some name) :
    isAbsolute folder = isAbsolute p ∧ steps p = steps folder ++ [.name name] := by
  have hlast := getLast?_steps hname
  rw [parent?] at hfolder
  dsimp only at hfolder
  split at hfolder
  · rename_i last before hbody
    obtain rfl := Option.some.inj hfolder
    have htrim : trimBack (parts p).2 = before.reverse ++ [last] := by
      rw [trimBack, hbody, List.reverse_cons]
    have hfront : trimBack before.reverse <+: (parts p).2 :=
      (prefix_trimBack _).trans
        ((List.prefix_append _ _).trans (htrim ▸ prefix_trimBack (parts p).2))
    have hwhole : ∀ s ∈ trimBack before.reverse, slash ∉ s := fun s hs =>
      not_mem_of_mem_segments ((parts_suffix p).subset (hfront.subset hs))
    obtain ⟨c, hc⟩ := exists_component? (not_isVoid_of_dropWhile hbody)
    have hsteps : steps p = before.reverse.filterMap component? ++ [c] := by
      rw [← filterMap_parts, ← filterMap_trimBack, htrim, List.filterMap_append,
        List.filterMap_cons_some hc, List.filterMap_nil]
    rw [hsteps, List.getLast?_concat, Option.some_inj] at hlast
    refine ⟨isAbsolute_ofParts hfront, ?_⟩
    rw [hsteps, hlast, steps_ofParts hwhole, filterMap_trimBack]
  · -- a path of void segments has no name
    rename_i hbody
    have htrim : trimBack (parts p).2 = [] := by rw [trimBack, hbody, List.reverse_nil]
    rw [← filterMap_parts, ← filterMap_trimBack, htrim] at hlast
    cases hlast

/-! ## Below a folder -/

/-- What is below a folder is what remains of the segments when the steps to the folder are
dropped. -/
theorem below?_eq {p base : Path} (hbase : isAbsolute base) (hp : isAbsolute p) :
    below? p base = if steps base <+: steps p then
      some (joinSegments (trimBack ((dropNames (steps base).length (parts p).2).dropWhile isVoid)))
    else none := by
  rw [below?, components_of_isAbsolute hbase, components_of_isAbsolute hp, filterMap_parts]
  simp

/-- What is left of a path inside a folder is relative and goes the steps behind it. -/
theorem below?_of_prefix {p base : Path} (hbase : isAbsolute base) (hp : isAbsolute p)
    (h : steps base <+: steps p) : ∃ rest, below? p base = some rest ∧
      isAbsolute rest = false ∧ steps rest = (steps p).drop (steps base).length := by
  rw [below?_eq hbase hp, if_pos h]
  refine ⟨_, rfl, ?_⟩
  generalize hleft : (dropNames (steps base).length (parts p).2).dropWhile isVoid = left
  have hwhole : ∀ s ∈ trimBack left, slash ∉ s := by
    intro s hs
    have hdropped := (prefix_trimBack left).subset hs
    rw [← hleft] at hdropped
    exact not_mem_of_mem_segments ((parts_suffix p).subset
      (dropNames_subset _ _ ((List.dropWhile_sublist isVoid).subset hdropped)))
  have hfirst : ∀ s ∈ (trimBack left).head?, s ≠ [] := by
    intro s hs
    obtain ⟨behind, hbehind⟩ := prefix_trimBack left
    obtain ⟨more, hmore⟩ := List.head?_eq_some_iff.1 hs
    rw [← hbehind, hmore, List.cons_append] at hleft
    rintro rfl
    exact not_isVoid_of_dropWhile hleft rfl
  refine ⟨isAbsolute_joinSegments hwhole hfirst, ?_⟩
  rw [steps_joinSegments hwhole, filterMap_trimBack, ← hleft, filterMap_dropWhile_isVoid,
    filterMap_dropNames, filterMap_parts]

end CommandTemplate.Path
