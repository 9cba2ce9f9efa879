import ProtoSchema.Plan
import ProtoSchema.Proofs.TypeRef.Resolve

/-! # References name what they resolve to

A full name is a package and a path, joined by dots. What a reference resolves to is found again at
its path, and its full name ends with the segments of the reference. An absolute reference is the
whole name.
-/

namespace ProtoSchema

namespace Schema

theorem fullName_eq (s : Schema) {path : List String} (h : path ≠ []) :
    Plan.fullName s.package path = ".".intercalate (s.fullSegments path) := by
  rw [Plan.fullName, fullSegments, packageSegments]
  split
  · rfl
  · rw [String.intercalate_append_of_ne_nil (segmentsOf_ne_nil _) h, intercalate_segmentsOf,
      String.ofList_toList]

end Schema

namespace Reference

theorem Names.fullName_eq {reference : String} {s : Schema} {path : List String} (hp : path ≠ [])
    (h : (ofText reference).Names s path) (ha : reference.toList.head? = some '.') :
    Plan.fullName s.package path = String.ofList (Scalar.withoutDots reference) := by
  have hwhole : segmentsOf (Scalar.withoutDots reference) = s.fullSegments path :=
    h.whole (by simp [ofText, ha])
  rw [s.fullName_eq hp, ← hwhole, intercalate_segmentsOf]

end Reference

namespace Batch

variable {b : Batch}

theorem fits_of_resolve {reference fileId : String} {scope : List String} {c : Candidate}
    (h : b.resolve reference fileId scope = .ok c.resolved) :
    ∃ s, (c.path.fileId, s) ∈ b.files ∧ (Reference.ofText reference).Fits c.path.fileId s c := by
  obtain ⟨k, -, hk⟩ | ⟨s, c', hs, hfits, hc⟩ := resolve_eq_ok h
  · obtain ⟨path, d⟩ := c
    cases d <;> cases hk
  · obtain rfl := Candidate.resolved_injective hc
    exact ⟨s, hs, hfits⟩

/-- A type that a reference resolves to is the one at its path in a file of the batch, and its full
name ends with the segments of the reference; an absolute reference is its full name. So a reference
that ends no full name of the batch does not resolve. -/
theorem resolve_sound (hb : b.Accepted) (reference fileId : String) (scope : List String) :
    (∀ p d, b.resolve reference fileId scope = .ok (Candidate.resolved ⟨p, d⟩) →
      ∃ s, b.get? p.fileId = some s ∧ s.find? p.segments = some d ∧
        (Reference.ofText reference).segments <:+ s.fullSegments p.segments ∧
        (reference.toList.head? = some '.' →
          Plan.fullName s.package p.segments = String.ofList (Scalar.withoutDots reference))) ∧
    (Scalar.ofName? reference = none →
      (∀ (p : TypePath) s d, b.get? p.fileId = some s → s.Declares p.segments d →
        ¬ (Reference.ofText reference).segments <:+ s.fullSegments p.segments) →
      ∃ e, b.resolve reference fileId scope = .error e) := by
  constructor
  · intro p d h
    obtain ⟨s, hs, hfits⟩ := fits_of_resolve h
    refine ⟨s, get?_eq_some.2 hs, hfits.declares.find? (hb.check hs), hfits.names.ends, ?_⟩
    exact hfits.names.fullName_eq hfits.declares.ne_nil
  · intro hscalar hnone
    cases h : b.resolve reference fileId scope with
    | error e => exact ⟨e, rfl⟩
    | ok x =>
      obtain ⟨k, hk, -⟩ | ⟨s, c, hs, hfits, -⟩ := resolve_eq_ok h
      · rw [hscalar] at hk
        cases hk
      · exact absurd hfits.names.ends (hnone c.path s c.definition (get?_eq_some.2 hs)
          hfits.declares)

def crossPackage : Batch :=
  ⟨[("a.proto", { package := "a", messages := [⟨"User", ⟨1, 20⟩, [], [], [], []⟩] }),
    ("b.proto", { package := "b.v1", messages :=
      [⟨"Outer", ⟨1, 23⟩, [], [], [⟨"Inner", ⟨1, 39⟩, [], [], [], []⟩], []⟩] })], by decide⟩

theorem accepted_crossPackage : crossPackage.Accepted := by
  intro f hf
  rcases List.mem_pair.1 hf with rfl | rfl
  · exact ⟨"package a; message User \x7b \x7d", by decide +kernel⟩
  · exact ⟨"package b.v1; message Outer \x7b message Inner \x7b \x7d \x7d", by decide +kernel⟩

/-- The nested type by its full name, and a reference that leaves out a segment. -/
theorem resolve_sound_crossPackage :
    crossPackage.Accepted ∧
      crossPackage.resolve ".b.v1.Outer.Inner" "a.proto" ["User"] =
        .ok (.message ⟨"b.proto", ["Outer", "Inner"]⟩ ⟨"Inner", ⟨1, 39⟩, [], [], [], []⟩) ∧
      Plan.fullName "b.v1" ["Outer", "Inner"] = "b.v1.Outer.Inner" ∧
      ∃ e, crossPackage.resolve "v1.Inner" "a.proto" ["User"] = .error e := by
  have hresolve : crossPackage.resolve ".b.v1.Outer.Inner" "a.proto" ["User"] =
      .ok (Candidate.resolved ⟨⟨"b.proto", ["Outer", "Inner"]⟩,
        .message ⟨"Inner", ⟨1, 39⟩, [], [], [], []⟩⟩) := by rfl
  obtain ⟨s, hs, -, -, hname⟩ := (resolve_sound accepted_crossPackage _ _ _).1 _ _ hresolve
  obtain rfl : crossPackage.files[1].2 = s := Option.some.inj hs
  refine ⟨accepted_crossPackage, hresolve, hname rfl,
    (resolve_sound accepted_crossPackage _ _ _).2 rfl fun p s d hs hd hends => ?_⟩
  have hfiles : ∀ f ∈ crossPackage.files, ∀ t ∈ f.2.types,
      ¬ (Reference.ofText "v1.Inner").segments <:+ f.2.fullSegments t.1 := by decide
  exact hfiles _ (get?_eq_some.1 hs) _ (Schema.mem_types.2 hd) hends

end Batch

end ProtoSchema
