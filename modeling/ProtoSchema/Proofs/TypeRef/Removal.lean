import ProtoSchema.Proofs.TypeRef.Choice

/-! # Batches that lose a file

What a reference means in its own file does not depend on the others. Among the others, the loss of a
file that does not declare the answer changes nothing. Where the file of the answer is lost, the
reference fails, unless an import was what spoke for that file: then one other type may be left.
-/

namespace ProtoSchema

namespace Batch

variable {b : Batch} {fileId g : String}

theorem mem_erase {f : String × Schema} : f ∈ (b.erase g).files ↔ f ∈ b.files ∧ f.1 ≠ g := by
  rw [erase, List.mem_filter, decide_eq_true_eq]

end Batch

namespace Reference

variable {b : Batch} {s : Schema} {r : Reference} {fileId g : String} {c c' : Candidate}
  {cs : List Candidate}

theorem candidates_erase (r : Reference) (b : Batch) (fileId g : String) :
    r.candidates (b.erase g) fileId =
      (r.candidates b fileId).filter fun c => decide (c.path.fileId ≠ g) := by
  have hfiles : ∀ files : List (String × Schema),
      (files.filter fun f => decide (f.1 ≠ g)).flatMap (fun f => r.offers f.1 f.2) =
        (files.flatMap fun f => r.offers f.1 f.2).filter fun c => decide (c.path.fileId ≠ g) := by
    intro files
    induction files with
    | nil => rfl
    | cons f files ih =>
      have hfile : ∀ c ∈ r.offers f.1 f.2, c.path.fileId = f.1 :=
        fun c hc => (fits_of_mem_offers hc).file
      rw [List.flatMap_cons, List.filter_append, ← ih]
      by_cases hf : f.1 = g
      · have hnone : (r.offers f.1 f.2).filter (fun c => decide (c.path.fileId ≠ g)) = [] := by
          rw [List.filter_eq_nil_iff]
          intro c hc
          simp [hfile c hc, hf]
        rw [hnone, List.filter_cons_of_neg (by simp [hf]), List.nil_append]
      · have hall : (r.offers f.1 f.2).filter (fun c => decide (c.path.fileId ≠ g)) =
            r.offers f.1 f.2 := by
          rw [List.filter_eq_self]
          intro c hc
          simp [hfile c hc, hf]
        rw [hall, List.filter_cons_of_pos (by simp [hf]), List.flatMap_cons]
  rw [candidates, candidates, ← hfiles, Batch.erase, List.filter_filter, List.filter_filter]
  simp only [Bool.and_comm]

theorem Only.erase (h : Only s cs c) (hc : c.path.fileId ≠ g) :
    Only s (cs.filter fun c => decide (c.path.fileId ≠ g)) c := by
  have hkept : [c].filter (fun c => decide (c.path.fileId ≠ g)) = [c] := by simp [hc]
  rcases h with rfl | h
  · exact Or.inl hkept
  · right
    rw [List.filter_comm, h, hkept]

/-- After the loss of the one that was left, another is left only if imports had decided between the
two, and it is then the last. -/
theorem Only.erase_self (h : Only s cs c) (hc : c.path.fileId = g) :
    Only s (cs.filter fun c => decide (c.path.fileId ≠ g)) c' ↔
      s.importsFile g = true ∧ s.importsFile c'.path.fileId = false ∧
        cs.filter (fun c => decide (c.path.fileId ≠ g)) = [c'] := by
  have hlost : [c].filter (fun c => decide (c.path.fileId ≠ g)) = [] := by simp [hc]
  rcases h with rfl | h
  · rw [hlost]
    simp [Only]
  · have himports : s.importsFile g = true := by
      have hmem : c ∈ cs.filter fun c => s.importsFile c.path.fileId :=
        h ▸ List.mem_singleton_self c
      rw [← hc]
      exact (List.mem_filter.1 hmem).2
    have hnone : (cs.filter fun c => decide (c.path.fileId ≠ g)).filter
        (fun c => s.importsFile c.path.fileId) = [] := by
      rw [List.filter_comm, h, hlost]
    rw [Only, hnone]
    constructor
    · rintro (hlast | hlast)
      · have hunimported := List.filter_eq_nil_iff.1 hnone c' (hlast ▸ List.mem_singleton_self c')
        exact ⟨himports, by simpa using hunimported, hlast⟩
      · cases hlast
    · rintro ⟨-, -, hlast⟩
      exact Or.inl hlast

end Reference

namespace Batch

variable {b : Batch} {s : Schema} {reference fileId g : String} {scope : List String}
  {p : TypePath} {d : TypeDef}

/-- Without another file, a reference to a type that this file does not declare stays as it is. Any
other reference fails, unless an import decided for that file and one type is left to choose, in a
file that is not imported: then it means this type. -/
theorem resolve_erase (hs : (fileId, s) ∈ b.files) (hg : g ≠ fileId)
    (h : b.resolve reference fileId scope = .ok (Candidate.resolved ⟨p, d⟩)) :
    (p.fileId ≠ g →
      (b.erase g).resolve reference fileId scope = .ok (Candidate.resolved ⟨p, d⟩)) ∧
    (p.fileId = g → ∀ x, (b.erase g).resolve reference fileId scope = .ok x ↔
      s.importsFile g = true ∧ ∃ c, s.importsFile c.path.fileId = false ∧
        (Reference.ofText reference).candidates (b.erase g) fileId = [c] ∧ x = c.resolved) := by
  have hkept : (fileId, s) ∈ (b.erase g).files := mem_erase.2 ⟨hs, hg.symm⟩
  rw [resolve_eq hs] at h
  rw [resolve_eq hkept]
  cases hanswer : s.answer? reference fileId scope with
  | some answer =>
    rw [hanswer] at h
    obtain rfl : answer = .ok (Candidate.resolved ⟨p, d⟩) := h
    have hp : p.fileId = fileId := Schema.fileId_of_answer? hanswer
    exact ⟨fun _ => rfl, fun hpg => absurd (hpg.symm.trans hp) hg⟩
  | none =>
    rw [hanswer] at h
    obtain ⟨c, hc, heq⟩ := Reference.choose_eq_ok.1 h
    obtain rfl := Candidate.resolved_injective heq
    rw [Option.getD_none, Reference.candidates_erase]
    constructor
    · intro hpg
      exact Reference.choose_of_only (hc.erase hpg)
    · intro hpg x
      rw [Reference.choose_eq_ok]
      constructor
      · rintro ⟨c, hlast, rfl⟩
        obtain ⟨himports, hunimported, hcs⟩ := (hc.erase_self hpg).1 hlast
        exact ⟨himports, c, hunimported, hcs, rfl⟩
      · rintro ⟨himports, c, hunimported, hcs, rfl⟩
        exact ⟨c, (hc.erase_self hpg).2 ⟨himports, hunimported, hcs⟩, rfl⟩

/-- The first file imports the nested `T`. It keeps it if the other `T` is lost, and falls back on the
other if the nested one is. -/
theorem resolve_erase_severalFiles :
    severalFiles.resolve "T" "a.proto" [] =
        .ok (.message ⟨"b.proto", ["Outer", "T"]⟩ ⟨"T", ⟨1, 25⟩, [], [], [], []⟩) ∧
      (severalFiles.erase "c.proto").resolve "T" "a.proto" [] =
        .ok (.message ⟨"b.proto", ["Outer", "T"]⟩ ⟨"T", ⟨1, 25⟩, [], [], [], []⟩) ∧
      (severalFiles.erase "b.proto").resolve "T" "a.proto" [] =
        .ok (.message ⟨"c.proto", ["T"]⟩ ⟨"T", ⟨1, 9⟩, [], [], [], []⟩) := by
  have hs : ("a.proto", { imports := ["b.proto"] }) ∈ severalFiles.files := List.mem_cons_self
  have h : severalFiles.resolve "T" "a.proto" [] = .ok (Candidate.resolved
      ⟨⟨"b.proto", ["Outer", "T"]⟩, .message ⟨"T", ⟨1, 25⟩, [], [], [], []⟩⟩) := rfl
  have hlost := (resolve_erase (g := "b.proto") hs (by decide) h).2 rfl
  refine ⟨h, (resolve_erase hs (by decide) h).1 (by decide), (hlost _).2 ⟨by decide, ?_⟩⟩
  exact ⟨⟨⟨"c.proto", ["T"]⟩, .message ⟨"T", ⟨1, 9⟩, [], [], [], []⟩⟩, by decide, rfl, rfl⟩

/-- So the loss of a file can give a reference another meaning. -/
theorem not_forall_resolve_erase :
    ¬ ∀ b : Batch, b.Accepted → ∀ fileId ∈ b.fileIds, ∀ g ∈ b.fileIds, g ≠ fileId →
      ∀ reference scope p d,
        b.resolve reference fileId scope = .ok (Candidate.resolved ⟨p, d⟩) →
        (b.erase g).resolve reference fileId scope = .ok (Candidate.resolved ⟨p, d⟩) ∨
          ∃ e, (b.erase g).resolve reference fileId scope = .error e := by
  intro hall
  have hafter : (severalFiles.erase "b.proto").resolve "T" "a.proto" [] =
      .ok (.message ⟨"c.proto", ["T"]⟩ ⟨"T", ⟨1, 9⟩, [], [], [], []⟩) := rfl
  rcases hall severalFiles accepted_severalFiles "a.proto" (by decide) "b.proto" (by decide)
    (by decide) "T" [] ⟨"b.proto", ["Outer", "T"]⟩ (.message ⟨"T", ⟨1, 25⟩, [], [], [], []⟩) rfl
    with hsame | ⟨e, herror⟩
  · rw [hafter] at hsame
    simp [Candidate.resolved, Resolved.ofDef] at hsame
  · rw [hafter] at herror
    cases herror

end Batch

end ProtoSchema
