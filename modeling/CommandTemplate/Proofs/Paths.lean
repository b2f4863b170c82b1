import CommandTemplate.Path.Basic
import CommandTemplate.Proofs.Utf8

/-!
# Parts and characters of paths

A path begins in one of three ways and goes on with segments, and it is read segment by segment.
Taking paths apart and joining them brings in separators and dots only: any other character that is
read of the result is read of one of the paths that it was made from.
-/
namespace CommandTemplate.Path

/-! ## Parts -/

/-- A path begins with the root, with a dot, or with any other segment. -/
theorem parts_cases (p : Path) :
    (∃ s, p = slash :: s ∧ parts p = (.root, segments s)) ∨
      (isAbsolute p = false ∧ ∃ rest, segments p = [dot] :: rest ∧ parts p = (.here, rest)) ∨
      (isAbsolute p = false ∧ parts p = (.bare, segments p)) := by
  rw [parts.eq_def]
  split
  · exact .inl ⟨_, rfl, rfl⟩
  · rename_i hp
    have hrelative : isAbsolute p = false := by
      cases p with
      | nil => rfl
      | cons b s =>
        have hb : b ≠ slash := fun hb => hp s (hb ▸ rfl)
        simpa [isAbsolute] using hb
    split
    · rename_i hsegments
      exact .inr (.inl ⟨hrelative, _, hsegments, rfl⟩)
    · exact .inr (.inr ⟨hrelative, rfl⟩)

theorem parts_suffix (p : Path) : (parts p).2 <:+ segments p := by
  rcases parts_cases p with ⟨s, rfl, hparts⟩ | ⟨-, rest, hsegments, hparts⟩ | ⟨-, hparts⟩
  · rw [hparts, segments, if_pos rfl]
    exact List.suffix_cons ..
  · rw [hparts, hsegments]
    exact List.suffix_cons ..
  · exact hparts ▸ List.suffix_refl (segments p)

theorem prefix_trimBack (body : List Path) : trimBack body <+: body := by
  rw [trimBack, ← List.reverse_suffix, List.reverse_reverse]
  exact List.dropWhile_suffix isVoid

/-! ## What is read of a path -/

open Text (lossy)

theorem lossy_append_slash (p q : Path) :
    lossy (p ++ slash :: q) = lossy p ++ '/' :: lossy q :=
  Text.lossy_append_cons p (by decide) q

theorem lossy_append_dot (p q : Path) : lossy (p ++ dot :: q) = lossy p ++ '.' :: lossy q :=
  Text.lossy_append_cons p (by decide) q

@[simp] theorem lossy_slash_cons (p : Path) : lossy (slash :: p) = '/' :: lossy p := by
  simpa using lossy_append_slash [] p

@[simp] theorem lossy_dot_cons (p : Path) : lossy (dot :: p) = '.' :: lossy p := by
  simpa using lossy_append_dot [] p

section
variable {c : Char} (hslash : c ≠ '/') (hdot : c ≠ '.')
include hslash

/-- Only separators come in when segments are joined. -/
theorem mem_lossy_joinSegments_iff {ss : List Path} :
    c ∈ lossy (joinSegments ss) ↔ ∃ s ∈ ss, c ∈ lossy s := by
  induction ss with
  | nil => simp
  | cons s ss ih =>
    cases ss with
    | nil => simp
    | cons s' ss => simp [lossy_append_slash, ih, hslash]

theorem mem_lossy_of_mem_parts {p s : Path} (hs : s ∈ (parts p).2) (hc : c ∈ lossy s) :
    c ∈ lossy p := by
  rw [← joinSegments_segments p, mem_lossy_joinSegments_iff hslash]
  exact ⟨s, (parts_suffix p).subset hs, hc⟩

/-- The names among the components of a path are segments of it. -/
theorem mem_lossy_of_name_mem_components {p name : Path} (h : .name name ∈ components p)
    (hc : c ∈ lossy name) : c ∈ lossy p := by
  rw [components] at h
  dsimp only at h
  rcases List.mem_append.1 h with h | h
  · generalize (parts p).1 = start at h
    cases start <;> simp [Start.components] at h
  · obtain ⟨s, hs, hcomponent⟩ := List.mem_filterMap.1 h
    rw [component?] at hcomponent
    split at hcomponent
    · cases hcomponent
    · split at hcomponent
      · cases hcomponent
      · obtain rfl := Component.name.inj (Option.some.inj hcomponent)
        exact mem_lossy_of_mem_parts hslash hs hc

theorem mem_lossy_of_mem_fileName? {p name : Path} (h : fileName? p = some name)
    (hc : c ∈ lossy name) : c ∈ lossy p := by
  rw [fileName?] at h
  split at h
  · rename_i last hlast
    obtain rfl := Option.some.inj h
    exact mem_lossy_of_name_mem_components hslash (List.mem_of_getLast? hlast) hc
  · cases h

omit hslash in
theorem exists_of_extension? {name extension : Path} (h : extension? name = some extension) :
    ∃ front, name = front ++ dot :: extension := by
  rw [extension?] at h
  split at h
  · rename_i hshort
    obtain rfl := Option.some.inj h
    have hname : name = (name.reverse.dropWhile (· != dot)).reverse ++
        (name.reverse.takeWhile (· != dot)).reverse := by
      rw [← List.reverse_append, List.takeWhile_append_dropWhile, List.reverse_reverse]
    have hhead := List.head?_dropWhile_not (· != dot) name.reverse
    cases hfront : name.reverse.dropWhile (· != dot) with
    | nil =>
      have hlength := congrArg List.length hname
      rw [hfront, List.reverse_nil, List.nil_append] at hlength
      omega
    | cons b front =>
      rw [hfront] at hhead hname
      obtain rfl : b = dot := by simpa using hhead
      exact ⟨front.reverse, hname.trans (by simp)⟩
  · cases h

omit hslash in
theorem mem_lossy_of_mem_extension? {name extension : Path} (h : extension? name = some extension)
    (hc : c ∈ lossy extension) : c ∈ lossy name := by
  obtain ⟨front, rfl⟩ := exists_of_extension? h
  rw [lossy_append_dot]
  exact List.mem_append_right _ (List.mem_cons_of_mem _ hc)

include hdot

theorem mem_lossy_of_mem_ofParts {start : Start} {body : List Path}
    (h : c ∈ lossy (ofParts start body)) : ∃ s ∈ body, c ∈ lossy s := by
  rw [← mem_lossy_joinSegments_iff hslash]
  cases start with
  | root => simpa [ofParts, hslash] using h
  | bare => exact h
  | here =>
    cases body with
    | nil => simp [ofParts, hdot] at h
    | cons s body => simpa [ofParts, hslash, hdot] using h

omit hslash hdot in
theorem dropNames_subset (n : Nat) (body : List Path) : dropNames n body ⊆ body := by
  induction body generalizing n with
  | nil => cases n <;> exact List.Subset.refl _
  | cons s body ih =>
    cases n with
    | zero => exact List.Subset.refl _
    | succ n =>
      rw [dropNames]
      split <;> exact List.Subset.trans (ih _) (List.subset_cons_self ..)

/-- The folder of a path is written with characters of the path. -/
theorem mem_lossy_of_mem_parent? {p folder : Path} (h : parent? p = some folder)
    (hc : c ∈ lossy folder) : c ∈ lossy p := by
  rw [parent?] at h
  dsimp only at h
  split at h
  · rename_i last before hbody
    obtain rfl := Option.some.inj h
    obtain ⟨s, hs, hcs⟩ := mem_lossy_of_mem_ofParts hslash hdot hc
    have hbefore : s ∈ before := List.mem_reverse.1 ((prefix_trimBack _).subset hs)
    have hreverse : s ∈ (parts p).2.reverse :=
      (List.dropWhile_sublist isVoid).subset (hbody ▸ List.mem_cons_of_mem _ hbefore)
    exact mem_lossy_of_mem_parts hslash (List.mem_reverse.1 hreverse) hcs
  · split at h
    · obtain rfl := Option.some.inj h
      simp at hc
    · cases h

/-- What is shown of the rest of a path below a folder was shown of the path. -/
theorem mem_lossy_of_mem_below? {p base rest : Path} (h : below? p base = some rest)
    (hc : c ∈ lossy rest) : c ∈ lossy p := by
  rw [below?] at h
  dsimp only at h
  split at h
  · split at h
    · obtain rfl := Option.some.inj h
      obtain ⟨s, hs, hcs⟩ := mem_lossy_of_mem_ofParts hslash hdot hc
      exact mem_lossy_of_mem_parts hslash ((prefix_trimBack _).subset hs) hcs
    · obtain rfl := Option.some.inj h
      obtain ⟨s, hs, hcs⟩ := (mem_lossy_joinSegments_iff hslash).1 hc
      have hdropped := (List.dropWhile_sublist isVoid).subset ((prefix_trimBack _).subset hs)
      exact mem_lossy_of_mem_parts hslash (dropNames_subset _ _ hdropped) hcs
  · cases h

omit hdot in
/-- What is shown of two joined paths was shown of one of them. -/
theorem mem_lossy_of_mem_join {p base : Path} (h : c ∈ lossy (join base p)) :
    c ∈ lossy p ∨ c ∈ lossy base := by
  rw [join] at h
  split at h
  · exact .inl h
  · split at h
    · -- the folder ends with a separator
      rename_i hlast
      obtain ⟨front, rfl⟩ := List.getLast?_eq_some_iff.1 hlast
      rw [List.append_assoc, List.singleton_append, lossy_append_slash] at h
      rw [lossy_append_slash]
      simpa [hslash, or_comm] using h
    · rw [lossy_append_slash] at h
      simpa [hslash, or_comm] using h

/-- So is a path as it is shown, with those of the folder that it is shown from. -/
theorem mem_of_mem_display {p base : Path} {mode : Mode} (h : c ∈ display p mode base) :
    c ∈ lossy p ∨ c ∈ lossy base := by
  have hfull (h : c ∈ lossy (if isAbsolute p then p else join base p)) :
      c ∈ lossy p ∨ c ∈ lossy base := by
    split at h
    · exact .inl h
    · exact mem_lossy_of_mem_join hslash h
  rw [display, rendered.eq_def] at h
  dsimp only at h
  cases mode with
  | absolute => exact hfull h
  | relative =>
    dsimp only at h
    split at h
    · simp [hdot] at h
    · rename_i rest hne hbelow
      exact hfull (mem_lossy_of_mem_below? hslash hdot hbelow h)
    · exact hfull h

end
end CommandTemplate.Path
