import ProtoSchema.Proofs.Plan.Paths
import ProtoSchema.Proofs.Run.Frame

/-! # Links between generated files

A path to a type of another file starts in the module of that file. If nothing fails in a run, then
every file that declares a type is written, in a module of its own. So every such path leads into a
file that was written in the same run.
-/

namespace ProtoSchema

namespace Run

variable {t after made : FileTree} {source : Path} {input output fileId : String}
  {events ends : List Event} {added : List Path} {last : Progress} {g : Generated}
  {written : List (String × Generated)} {p : TypePath} {d : TypeDef}

/-- The file was generated in the run, and its code is in the tree. -/
structure Written (b : Batch) (output : String) (events : List Event) (after : FileTree)
    (fileId : String) (g : Generated) : Prop where
  code : b.generate fileId = .ok (some g)
  event : .generated fileId ((Destination.ofText output).pathOf g) ∈ events
  file : after.get? ((Destination.ofText output).place g) = some (.file g.code.toUTF8)

theorem Completes.exists_written (h : Completes t input output source made added ends last)
    (hevents : events.filter Event.isGenerated = ends.filter Event.isGenerated) :
    ∃ written, Writes (.ofText output) ⟨made, [], []⟩ (batchOf (discover t source)).generateAll ends
        written last ∧
      (∀ id path, .generated id path ∈ events → ∃ g, (id, g) ∈ written) ∧
      ∀ id g, (id, g) ∈ written →
        Written (batchOf (discover t source)) output events last.tree id g := by
  obtain ⟨written, hw⟩ := emitAll_writes (.ofText output) ⟨made, [], []⟩
    (batchOf (discover t source)).generateAll
  rw [h.emitted] at hw
  refine ⟨written, hw, ?_, ?_⟩
  · intro id path hmem
    obtain ⟨g, hg, -⟩ := (hw.mem_generated hevents).1 hmem
    exact ⟨g, hg⟩
  · intro id g hg
    exact ⟨mem_generateAll (hw.source _ hg), (hw.mem_generated hevents).2 ⟨g, hg, rfl⟩,
      hw.get?_of_mem hg⟩

end Run

end ProtoSchema
