import CommandTemplate.Proofs.Occurrences
import CommandTemplate.Variable.Builtin

/-!
# Schemas and values of the built-in variables

All of them can be matched, and all but one make their values from the arguments alone.
-/
namespace CommandTemplate

theorem wellFormed_nil : WellFormed [] := fun _ hp => absurd hp List.not_mem_nil

theorem wellFormed_singleton {p : Parameter} {shape : Shape} (h : p.shape = .ok shape) :
    WellFormed [p] := by
  intro q hq
  rw [List.mem_singleton.1 hq]
  exact ⟨shape, h⟩

namespace Builtin

theorem wellFormed_newline : WellFormed newline.parameters := wellFormed_singleton rfl

theorem wellFormed_passthrough : WellFormed passthrough.parameters := wellFormed_singleton rfl

theorem determined_newline : newline.Determined := fun _ _ _ => rfl

theorem determined_passthrough : passthrough.Determined := fun _ _ _ => rfl

/-- Every built-in variable declares its parameters as it should. -/
theorem wellFormed_of_mem_all {h : Host} {v : Variable} (hv : v ∈ all h) :
    WellFormed v.parameters := by
  simp only [all, List.mem_cons, List.not_mem_nil, or_false] at hv
  rcases hv with rfl | rfl | rfl | rfl | rfl | rfl | rfl | rfl | rfl | rfl | rfl | rfl | rfl | rfl
  all_goals first | exact wellFormed_nil | exact wellFormed_singleton rfl

theorem names_all (h : Host) : (all h).map (·.name) =
    ["date", "environment", "workspace_path", "file_path", "file_name", "file_extension",
      "folder_path", "folder_name", "file_content", "clipboard", "event_type", "newline", "uuid",
      "passthrough"] := rfl

/-- Folding leads no built-in name to one that begins like those of custom variables. -/
theorem fold_head_ne {h : Host} {v : Variable} (hv : v ∈ all h) :
    ∃ c ∈ v.name.toList.head?, Text.fold c ≠ Text.fold '_' := by
  have hnames : ∀ name ∈ (all h).map (·.name),
      name.toList.head?.any (fun c => Text.fold c != Text.fold '_') := by
    rw [names_all]
    decide +kernel
  have hany := hnames v.name (List.mem_map_of_mem hv)
  simpa only [Option.any_eq_true, bne_iff_ne, Option.mem_def] using hany

end Builtin
end CommandTemplate
