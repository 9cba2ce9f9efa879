import ProtoSchema.Source
import ProtoSchema.Proofs.Naming.JsonName
import ProtoSchema.Proofs.Schema.WellFormed
import ProtoSchema.Proofs.TypeRef.Resolve

/-! # Keys of fields

A field is read under its JSON name and its schema name. The fields of an accepted message have
different schema names, so two of them share a key only if they have the same JSON name. This is
possible, but not for names without capitals in which a small letter follows each underscore.
-/

namespace ProtoSchema

open Naming (jsonName isSnake)

theorem Batch.Declares.fieldNames {b : Batch} {p : TypePath} {m : Message} (hb : b.Accepted)
    (h : b.Declares p (.message m)) : (m.allFields.map (·.name)).Nodup := by
  obtain ⟨s, hs, hd⟩ := h
  have hm : m.WellFormed := (Schema.wellFormed_iff.2 (hb.check hs)).types _ _ hd
  exact hm.fieldNames

namespace Source

variable {f g : Field} {key : String}

theorem mem_keys : key ∈ keys f ↔ key = jsonName f.name ∨ key = f.name := by
  rw [keys]
  split
  · next heq => simp [heq]
  · simp

/-- The first key is the one that is written; the others are only read. -/
theorem keyAttributes_eq (f : Field) : ∃ key aliases, keys f = key :: aliases ∧
    keyAttributes f = s!"rename = \"{key}\"" :: aliases.map fun k => s!"alias = \"{k}\"" := by
  rw [keys, keyAttributes]
  split
  · next heq => exact ⟨f.name, [], rfl, by rw [heq]; rfl⟩
  · exact ⟨jsonName f.name, [f.name], rfl, rfl⟩

theorem keys_disjoint_iff (h : f.name ≠ g.name) :
    (keys f).Disjoint (keys g) ↔ jsonName f.name ≠ jsonName g.name := by
  constructor
  · intro hdisjoint heq
    exact hdisjoint (mem_keys.2 (Or.inl rfl)) (mem_keys.2 (Or.inl heq))
  · intro hne key hf hg
    rcases mem_keys.1 hf with rfl | rfl
    · rcases mem_keys.1 hg with heq | heq
      · exact hne heq
      · exact hne (by rw [← heq, Naming.jsonName_jsonName])
    · rcases mem_keys.1 hg with heq | heq
      · exact hne (by rw [heq, Naming.jsonName_jsonName])
      · exact h heq

end Source

namespace Batch

variable {b : Batch} {p : TypePath} {m : Message}

/-- Two fields of an accepted message, oneof members included, share no key exactly if their JSON
names differ. They do where no name has a capital and a small letter follows each underscore. A
field is written under the first of its keys and read under all of them. -/
theorem keys_disjoint_iff_jsonName_ne (hb : b.Accepted) (hm : b.Declares p (.message m)) :
    (m.allFields.Pairwise fun f g =>
      (Source.keys f).Disjoint (Source.keys g) ↔ jsonName f.name ≠ jsonName g.name) ∧
    ((∀ f ∈ m.allFields, isSnake f.name.toList = true) →
      m.allFields.Pairwise fun f g => (Source.keys f).Disjoint (Source.keys g)) ∧
    ∀ f ∈ m.allFields, ∃ key aliases, Source.keys f = key :: aliases ∧
      Source.keyAttributes f =
        s!"rename = \"{key}\"" :: aliases.map fun k => s!"alias = \"{k}\"" := by
  have hnames : m.allFields.Pairwise (·.name ≠ ·.name) := List.pairwise_map.1 (hm.fieldNames hb)
  refine ⟨hnames.imp Source.keys_disjoint_iff, ?_, fun f _ => Source.keyAttributes_eq f⟩
  intro hsnake
  refine hnames.imp_of_mem fun {f g} hf hg hne => (Source.keys_disjoint_iff hne).2 ?_
  exact fun heq => hne (Naming.jsonName_injective (hsnake f hf) (hsnake g hg) heq)

/-- A nested message with a direct field and a oneof. -/
def nestedKeys : Batch :=
  ⟨[("a.proto", { messages := [⟨"Outer", ⟨1, 9⟩, [], [], [⟨"Inner", ⟨1, 25⟩,
    [⟨"user_id", ⟨1, 39⟩, "int32", 1, .implicit, false⟩],
    [⟨"kind", [⟨"display_name", ⟨1, 72⟩, "string", 2, .optional, false⟩]⟩], [], []⟩], []⟩] })],
    by decide⟩

theorem keys_disjoint_nested :
    nestedKeys.Accepted ∧ (Source.keys ⟨"user_id", ⟨1, 39⟩, "int32", 1, .implicit, false⟩).Disjoint
      (Source.keys ⟨"display_name", ⟨1, 72⟩, "string", 2, .optional, false⟩) := by
  have hb : nestedKeys.Accepted := by
    intro f hf
    obtain rfl := List.mem_singleton.1 hf
    exact ⟨"message Outer \x7b message Inner \x7b int32 user_id = 1; oneof kind \x7b string " ++
      "display_name = 2; \x7d \x7d \x7d", by decide +kernel⟩
  have hm : nestedKeys.Declares ⟨"a.proto", ["Outer", "Inner"]⟩ _ :=
    ⟨_, List.mem_singleton_self _,
      Schema.mem_types.1 (List.mem_cons_of_mem _ List.mem_cons_self)⟩
  have hpairwise := (keys_disjoint_iff_jsonName_ne hb hm).2.1 (by decide)
  exact ⟨hb, List.rel_of_pairwise_cons hpairwise (List.mem_singleton_self _)⟩

/-- Two fields that differ in the number of underscores. -/
def sharedJsonName : Batch :=
  ⟨[("a.proto", { messages := [⟨"M", ⟨1, 9⟩,
    [⟨"a_b", ⟨1, 19⟩, "int32", 1, .implicit, false⟩,
      ⟨"a__b", ⟨1, 34⟩, "int32", 2, .implicit, false⟩], [], [], []⟩] })], by decide⟩

/-- An accepted file can have a message in which one key is read into two fields. -/
theorem shared_jsonName_not_disjoint :
    sharedJsonName.Accepted ∧ (∃ g, sharedJsonName.generate "a.proto" = .ok (some g)) ∧
      ∃ m f g, sharedJsonName.Declares ⟨"a.proto", ["M"]⟩ (.message m) ∧ f ∈ m.allFields ∧
        g ∈ m.allFields ∧ f.name ≠ g.name ∧ "aB" ∈ Source.keys f ∧ "aB" ∈ Source.keys g := by
  refine ⟨?_, ⟨_, rfl⟩, _, _, _,
    ⟨_, List.mem_singleton_self _, .message (List.mem_singleton_self _)⟩, List.mem_cons_self,
    List.mem_cons_of_mem _ List.mem_cons_self, by decide, by decide, by decide⟩
  intro f hf
  obtain rfl := List.mem_singleton.1 hf
  exact ⟨"message M \x7b int32 a_b = 1; int32 a__b = 2; \x7d", by decide +kernel⟩

end Batch

end ProtoSchema
