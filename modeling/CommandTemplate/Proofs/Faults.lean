import CommandTemplate.Proofs.Occurrences
import CommandTemplate.Proofs.Results
import CommandTemplate.Run

/-!
# Malformed schemas

A parameter is malformed by the fields that its declaration fills. Of several faults in a set of
variables the first one is reported, by the order of the variables and then of their parameters.
-/
namespace CommandTemplate

/-- What is wrong with a declaration, by the fields that it fills. -/
inductive Parameter.HasFault (p : Parameter) : SchemaFault → Prop where
  | typeAndOptions : p.type.isSome → p.options.isSome → p.HasFault .typeAndOptions
  | neitherTypeNorOptions :
    p.type = none → p.options = none → p.HasFault .neitherTypeNorOptions
  | noOptions : p.type = none → p.options = some [] → p.HasFault .noOptions

/-- The first malformed parameter of a schema, and what is wrong with it. -/
def FirstFault (parameters : List Parameter) (p : Parameter) (fault : SchemaFault) : Prop :=
  ∃ sound more, parameters = sound ++ p :: more ∧ WellFormed sound ∧ p.HasFault fault

/-- The error names the first variable with a malformed parameter and its first such parameter. -/
def RefusedWith (vs : List Variable) (e : TemplateError) : Prop :=
  ∃ sound v more p fault, vs = sound ++ v :: more ∧ (∀ w ∈ sound, WellFormed w.parameters) ∧
    FirstFault v.parameters p fault ∧ e = .invalidParameter v.name p.name fault

/-! ## From a schema to its fault -/

/-- The fault that is reported is what is wrong with the declaration. -/
theorem Parameter.shape_eq_error_iff (p : Parameter) (fault : SchemaFault) :
    p.shape = .error fault ↔ p.HasFault fault := by
  obtain ⟨name, type, options, required⟩ := p
  constructor
  · intro h
    rw [Parameter.shape] at h
    split at h <;> cases h
    · rename_i htype hoptions
      exact .typeAndOptions (Option.isSome_of_eq_some htype) (Option.isSome_of_eq_some hoptions)
    · exact .neitherTypeNorOptions ‹_› ‹_›
    · exact .noOptions ‹_› ‹_›
  · rintro (⟨htype, hoptions⟩ | ⟨htype, hoptions⟩ | ⟨htype, hoptions⟩)
    · obtain ⟨t, rfl⟩ := Option.isSome_iff_exists.1 htype
      obtain ⟨o, rfl⟩ := Option.isSome_iff_exists.1 hoptions
      rfl
    · cases htype
      cases hoptions
      rfl
    · cases htype
      cases hoptions
      rfl

theorem Parameter.exists_slot_iff (name : String) (p : Parameter) :
    (∃ slot, p.slot name = .ok slot) ↔ ∃ shape, p.shape = .ok shape := by
  rw [Parameter.slot]
  cases p.shape <;> simp

theorem Parameter.slot_eq_error_iff (name : String) (p : Parameter) (e : TemplateError) :
    p.slot name = .error e ↔
      ∃ fault, p.HasFault fault ∧ e = .invalidParameter name p.name fault := by
  rw [Parameter.slot]
  constructor
  · intro h
    split at h
    · cases h
    · rename_i fault hshape
      exact ⟨fault, (p.shape_eq_error_iff fault).1 hshape, (Except.error.inj h).symm⟩
  · rintro ⟨fault, hfault, rfl⟩
    rw [(p.shape_eq_error_iff fault).2 hfault]

namespace Variable

/-- A variable has a pattern just when its schema is well-formed. -/
theorem exists_pattern_iff (v : Variable) : (∃ p, v.pattern = .ok p) ↔ WellFormed v.parameters := by
  rw [pattern, TokenPattern.ofSchema, exists_map_eq_ok_iff, exists_mapM_eq_ok_iff, WellFormed]
  simp only [Parameter.exists_slot_iff]

/-- The pattern of a variable fails at the first malformed parameter. -/
theorem pattern_eq_error_iff (v : Variable) (e : TemplateError) :
    v.pattern = .error e ↔
      ∃ p fault, FirstFault v.parameters p fault ∧ e = .invalidParameter v.name p.name fault := by
  rw [pattern, TokenPattern.ofSchema, map_eq_error_iff, mapM_eq_error_iff]
  simp only [Parameter.exists_slot_iff, Parameter.slot_eq_error_iff]
  constructor
  · rintro ⟨sound, p, more, hsplit, hsound, fault, hfault, he⟩
    exact ⟨p, fault, ⟨sound, more, hsplit, hsound, hfault⟩, he⟩
  · rintro ⟨p, fault, ⟨sound, more, hsplit, hsound, hfault⟩, he⟩
    exact ⟨sound, p, more, hsplit, hsound, fault, hfault, he⟩

end Variable

namespace Run

theorem checkSchemas_eq_mapM (vs : List Instance) :
    checkSchemas vs =
      (vs.mapM fun v : Instance => v.base.pattern.map fun _ => ()).map fun _ => () :=
  forM_eq_mapM _ vs

/-- A set passes the check if and only if all its schemas are well-formed. -/
theorem checkSchemas_eq_ok_iff (vs : List Instance) :
    checkSchemas vs = .ok () ↔ ∀ v ∈ vs, WellFormed v.base.parameters := by
  have hunit : checkSchemas vs = .ok () ↔ ∃ u, checkSchemas vs = .ok u :=
    ⟨fun h => ⟨(), h⟩, fun ⟨(), h⟩ => h⟩
  rw [hunit, checkSchemas_eq_mapM, exists_map_eq_ok_iff, exists_mapM_eq_ok_iff]
  simp only [exists_map_eq_ok_iff, Variable.exists_pattern_iff]

/-- The schemas of a set are refused for the first fault among them. -/
theorem checkSchemas_eq_error_iff (vs : List Instance) (e : TemplateError) :
    checkSchemas vs = .error e ↔ RefusedWith (vs.map (·.base)) e := by
  rw [checkSchemas_eq_mapM, map_eq_error_iff, mapM_eq_error_iff]
  simp only [exists_map_eq_ok_iff, map_eq_error_iff, Variable.exists_pattern_iff,
    Variable.pattern_eq_error_iff]
  constructor
  · rintro ⟨sound, v, more, rfl, hsound, p, fault, hfirst, he⟩
    exact ⟨sound.map (·.base), v.base, more.map (·.base), p, fault, by simp,
      by simpa using hsound, hfirst, he⟩
  · rintro ⟨sound, v, more, p, fault, hsplit, hsound, hfirst, he⟩
    obtain ⟨sound', rest, rfl, rfl, hrest⟩ := List.map_eq_append_iff.1 hsplit
    obtain ⟨v', more', rfl, rfl, -⟩ := List.map_eq_cons_iff.1 hrest
    exact ⟨sound', v', more', rfl, by simpa using hsound, p, fault, hfirst, he⟩

end Run
end CommandTemplate
