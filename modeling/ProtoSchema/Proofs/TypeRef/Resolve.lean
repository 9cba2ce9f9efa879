import ProtoSchema.Proofs.TypeRef.Lookup

/-! # What references resolve to

Wherever a reference is looked for, it resolves to a scalar or to a type that a file of the batch
declares at the path that is given for it. The full name of that type ends with the reference.
-/

namespace ProtoSchema

namespace Batch

variable {b : Batch}

theorem get?_eq_some {fileId : String} {s : Schema} :
    b.get? fileId = some s ↔ (fileId, s) ∈ b.files := by
  have hlookup : ∀ {files : List (String × Schema)}, files.Pairwise (·.1 < ·.1) →
      (files.lookup fileId = some s ↔ (fileId, s) ∈ files) := by
    intro files hsorted
    induction files with
    | nil => simp
    | cons f files ih =>
      obtain ⟨id, s'⟩ := f
      obtain ⟨hfirst, hrest⟩ := List.pairwise_cons.1 hsorted
      by_cases heq : fileId = id
      · subst heq
        have hnot : (fileId, s) ∉ files := fun hmem => String.lt_irrefl fileId (hfirst _ hmem)
        simp [hnot, eq_comm]
      · simp [List.lookup_cons, beq_false_of_ne heq, heq, ih hrest]
  exact hlookup b.sorted

theorem schema_unique {fileId : String} {s s' : Schema} (h : (fileId, s) ∈ b.files)
    (h' : (fileId, s') ∈ b.files) : s = s' :=
  Option.some.inj ((get?_eq_some.2 h).symm.trans (get?_eq_some.2 h'))

/-- The type that a file of the batch declares at the given path. -/
def Declares (b : Batch) (p : TypePath) (d : TypeDef) : Prop :=
  ∃ s, (p.fileId, s) ∈ b.files ∧ s.Declares p.segments d

/-- Every file of the batch was read from a text and is well formed. -/
def Accepted (b : Batch) : Prop := ∀ f ∈ b.files, ∃ text, Schema.compile text = .ok f.2

theorem Accepted.check (hb : b.Accepted) {fileId : String} {s : Schema}
    (h : (fileId, s) ∈ b.files) : s.check = .ok () := by
  obtain ⟨text, htext⟩ := hb _ h
  obtain ⟨s', -, hs'⟩ := bind_eq_ok.1 htext
  split at hs'
  · next hcheck =>
    cases hs'
    exact hcheck
  · cases hs'

theorem Declares.unique {p : TypePath} {d d' : TypeDef} (hb : b.Accepted) (h : b.Declares p d)
    (h' : b.Declares p d') : d = d' := by
  obtain ⟨s, hs, hd⟩ := h
  obtain ⟨s', hs', hd'⟩ := h'
  obtain rfl := schema_unique hs hs'
  exact Schema.Declares.unique (hb.check hs) hd hd'

end Batch

theorem Naming.splitAt_eq_splitOn (sep : Char) (cs : List Char) :
    splitAt sep cs = cs.splitOn sep := by
  induction cs with
  | nil => rfl
  | cons c cs ih =>
    obtain ⟨part, parts, hparts⟩ := List.exists_cons_of_ne_nil (List.splitOn_ne_nil sep cs)
    rw [splitAt, ih, hparts, List.splitOn_cons_eq_if_modifyHead, hparts]
    by_cases hc : c = sep <;> simp [hc]

theorem segmentsOf_ne_nil (cs : List Char) : segmentsOf cs ≠ [] := by
  rw [segmentsOf, Naming.splitAt_eq_splitOn, ne_eq, List.map_eq_nil_iff]
  exact List.splitOn_ne_nil '.' cs

theorem segmentsOf_undotted {cs : List Char} (h : '.' ∉ cs) :
    segmentsOf cs = [String.ofList cs] := by
  rw [segmentsOf, Naming.splitAt_eq_splitOn, List.splitOn_eq_singleton h, List.map_singleton]

theorem intercalate_segmentsOf (cs : List Char) :
    ".".intercalate (segmentsOf cs) = String.ofList cs := by
  have htexts : (segmentsOf cs).map String.toList = cs.splitOn '.' := by
    simp [segmentsOf, Naming.splitAt_eq_splitOn, Function.comp_def]
  apply String.toList_injective
  rw [String.toList_intercalate, htexts]
  exact (List.intercalate_splitOn '.').trans String.toList_ofList.symm

theorem dropLeading?_eq_some {α : Type} [DecidableEq α] {as bs rest : List α} :
    dropLeading? as bs = some rest ↔ bs = as ++ rest := by
  induction as generalizing bs with
  | nil => simp [dropLeading?]
  | cons a as ih =>
    cases bs with
    | nil => simp [dropLeading?]
    | cons b bs =>
      by_cases heq : a = b
      · simp [dropLeading?, heq, ih]
      · simp [dropLeading?, heq, Ne.symm heq]

namespace Schema

variable {s : Schema} {segments : List String}

/-- The segments of a type's full name: those of the package, then those of its path. -/
def fullSegments (s : Schema) (path : List String) : List String := s.packageSegments ++ path

theorem find?_declares {d : TypeDef} (h : s.find? segments = some d) : s.Declares segments d :=
  declared_of_findType h

theorem Declares.find? {d : TypeDef} (hs : s.check = .ok ()) (h : s.Declares segments d) :
    s.find? segments = some d :=
  Declared.findType h (typeNames hs)

theorem findQualified?_eq_some {t : List String × TypeDef} :
    s.findQualified? segments = some t ↔
      segments = s.fullSegments t.1 ∧ s.find? t.1 = some t.2 := by
  obtain ⟨path, d⟩ := t
  simp only [findQualified?, Option.bind_eq_bind, Option.bind_eq_some_iff, dropLeading?_eq_some]
  constructor
  · rintro ⟨inner, hinner, d', hd, ht⟩
    cases ht
    exact ⟨hinner, hd⟩
  · rintro ⟨hinner, hd⟩
    exact ⟨path, hinner, d, hd, rfl⟩

theorem mem_named {name : String} {path : List String} {d : TypeDef} :
    (path, d) ∈ s.named name ↔ s.Declares path d ∧ d.name = name := by
  rw [named, List.mem_filter, mem_types]
  refine and_congr_right fun hd => ?_
  simp [Declared.getLast? hd]

end Schema

namespace Reference

variable {r : Reference} {s : Schema} {fileId : String} {scope : List String}

/-- The full name of a type ends with the segments of the reference, and an absolute reference has
no fewer segments than that. -/
structure Names (r : Reference) (s : Schema) (path : List String) : Prop where
  ends : r.segments <:+ s.fullSegments path
  whole : r.absolute = true → r.segments = s.fullSegments path

theorem names_of_suffix {path : List String} (ha : ¬ r.absolute = true)
    (h : r.segments <:+ path) : r.Names s path :=
  ⟨h.trans (List.suffix_append _ _), fun habsolute => absurd habsolute ha⟩

/-- A candidate of a file stands for a type that the file declares and the reference names. -/
structure Fits (r : Reference) (fileId : String) (s : Schema) (c : Candidate) : Prop where
  file : c.path.fileId = fileId
  declares : s.Declares c.path.segments c.definition
  names : r.Names s c.path.segments

theorem fits_qualified {t : List String × TypeDef} (h : s.findQualified? r.segments = some t) :
    r.Fits fileId s (.ofFile fileId t) := by
  obtain ⟨hsegments, hd⟩ := Schema.findQualified?_eq_some.1 h
  exact ⟨rfl, Schema.find?_declares hd, hsegments ▸ List.suffix_refl _, fun _ => hsegments⟩

theorem fits_inScopes? {t : List String × TypeDef} (ha : ¬ r.absolute = true)
    (h : inScopes? s scope r.segments = some t) : r.Fits fileId s (.ofFile fileId t) := by
  obtain ⟨outer, -, houter⟩ := List.exists_of_findSome?_eq_some h
  obtain ⟨d, hd, rfl⟩ := Option.map_eq_some_iff.1 houter
  exact ⟨rfl, Schema.find?_declares hd, names_of_suffix ha (List.suffix_append _ _)⟩

theorem fits_named {name : String} {t : List String × TypeDef} (ha : ¬ r.absolute = true)
    (hr : r.segments = [name]) (h : t ∈ s.named name) : r.Fits fileId s (.ofFile fileId t) := by
  obtain ⟨hd, rfl⟩ := Schema.mem_named.1 h
  obtain ⟨outer, houter⟩ := List.getLast?_eq_some_iff.1 (Declared.getLast? hd)
  refine ⟨rfl, hd, names_of_suffix ha ?_⟩
  rw [hr]
  exact ⟨outer, houter.symm⟩

theorem fits_of_local? {c : Candidate} (h : r.local? s fileId scope = .ok (some c)) :
    r.Fits fileId s c := by
  have hqualified (h : (s.findQualified? r.segments).map (Candidate.ofFile fileId) = some c) :
      r.Fits fileId s c := by
    obtain ⟨t, ht, rfl⟩ := Option.map_eq_some_iff.1 h
    exact fits_qualified ht
  unfold local? at h
  dsimp only at h
  split at h
  · exact hqualified (Except.ok.inj h)
  next ha =>
  split at h
  · next t ht =>
    cases h
    exact fits_inScopes? ha ht
  split at h
  · next name hr =>
    split at h
    · exact hqualified (Except.ok.inj h)
    · next t ht =>
      cases h
      exact fits_named ha hr (ht ▸ List.mem_singleton_self t)
    · cases h
  · exact hqualified (Except.ok.inj h)

theorem fits_of_mem_offers {c : Candidate} (h : c ∈ r.offers fileId s) : r.Fits fileId s c := by
  unfold offers at h
  split at h
  · next t ht =>
    obtain rfl := List.mem_singleton.1 h
    exact fits_qualified ht
  split at h
  · simp at h
  next ha =>
  split at h
  · next d hd =>
    obtain rfl := List.mem_singleton.1 h
    exact ⟨rfl, Schema.find?_declares hd, names_of_suffix ha (List.suffix_refl _)⟩
  · next hr =>
    obtain ⟨t, ht, rfl⟩ := List.mem_map.1 h
    exact fits_named ha hr ht
  · simp at h

theorem fits_of_mem_candidates {b : Batch} {c : Candidate} (h : c ∈ r.candidates b fileId) :
    ∃ s, (c.path.fileId, s) ∈ b.files ∧ r.Fits c.path.fileId s c := by
  obtain ⟨f, hf, hc⟩ := List.mem_flatMap.1 h
  have hfits := fits_of_mem_offers hc
  rw [hfits.file]
  exact ⟨f.2, List.mem_of_mem_filter hf, hfits⟩

theorem exists_of_choose {cs : List Candidate} {x : Resolved}
    (h : r.choose s fileId scope cs = .ok x) : ∃ c ∈ cs, x = c.resolved := by
  unfold choose at h
  split at h
  · cases h
  · next c =>
    cases h
    exact ⟨c, List.mem_singleton_self c, rfl⟩
  · split at h
    · next c hc =>
      cases h
      exact ⟨c, List.mem_of_mem_filter (hc ▸ List.mem_singleton_self c), rfl⟩
    · cases h

end Reference

theorem Candidate.resolved_injective {c c' : Candidate} (h : c.resolved = c'.resolved) :
    c = c' := by
  obtain ⟨⟨id, path⟩, d⟩ := c
  obtain ⟨⟨id', path'⟩, d'⟩ := c'
  cases d <;> cases d' <;> cases h <;> rfl

theorem Candidate.resolved_ne_scalar (c : Candidate) (k : Scalar) : c.resolved ≠ .scalar k := by
  obtain ⟨path, d⟩ := c
  cases d <;> exact fun h => by cases h

/-- What a file says about a reference by itself; without an answer the other files are asked. -/
def Schema.answer? (s : Schema) (reference fileId : String) (scope : List String) :
    Option (Except Error Resolved) :=
  match Scalar.ofName? reference with
  | some k => some (.ok (.scalar k))
  | none =>
    match (Reference.ofText reference).local? s fileId scope with
    | .error e => some (.error e)
    | .ok (some c) => some (.ok c.resolved)
    | .ok none => none

theorem Schema.fileId_of_answer? {s : Schema} {reference fileId : String} {scope : List String}
    {c : Candidate} (h : s.answer? reference fileId scope = some (.ok c.resolved)) :
    c.path.fileId = fileId := by
  unfold answer? at h
  split at h
  · next k _ => exact absurd (Except.ok.inj (Option.some.inj h)).symm (c.resolved_ne_scalar k)
  split at h
  · cases h
  · next c' hc' =>
    obtain rfl := Candidate.resolved_injective (Except.ok.inj (Option.some.inj h))
    exact (Reference.fits_of_local? hc').file
  · cases h

namespace Batch

variable {b : Batch} {reference fileId : String} {scope : List String}

theorem resolve_eq {s : Schema} (hs : (fileId, s) ∈ b.files) :
    b.resolve reference fileId scope =
      (s.answer? reference fileId scope).getD ((Reference.ofText reference).choose s fileId scope
        ((Reference.ofText reference).candidates b fileId)) := by
  rw [resolve, get?_eq_some.2 hs, Schema.answer?]
  cases Scalar.ofName? reference with
  | some k => rfl
  | none =>
    dsimp only
    cases (Reference.ofText reference).local? s fileId scope with
    | error e => rfl
    | ok found => cases found <;> rfl

theorem resolve_eq_ok {x : Resolved} (h : b.resolve reference fileId scope = .ok x) :
    (∃ k, Scalar.ofName? reference = some k ∧ x = .scalar k) ∨
      ∃ s c, (c.path.fileId, s) ∈ b.files ∧ (Reference.ofText reference).Fits c.path.fileId s c ∧
        x = c.resolved := by
  unfold resolve at h
  split at h
  · next k hk =>
    cases h
    exact Or.inl ⟨k, hk, rfl⟩
  split at h
  · cases h
  · next s hs =>
    dsimp only at h
    split at h
    · cases h
    · next c hc =>
      cases h
      have hfits := Reference.fits_of_local? hc
      refine Or.inr ⟨s, c, ?_, hfits.file ▸ hfits, rfl⟩
      rw [hfits.file]
      exact get?_eq_some.1 hs
    · obtain ⟨c, hc, rfl⟩ := Reference.exists_of_choose h
      obtain ⟨s', hs', hfits⟩ := Reference.fits_of_mem_candidates hc
      exact Or.inr ⟨s', c, hs', hfits, rfl⟩

theorem declares_of_resolved {q : TypePath} {d : TypeDef}
    (h : b.resolve reference fileId scope = .ok (Candidate.resolved ⟨q, d⟩)) :
    b.Declares q d := by
  obtain ⟨k, -, hk⟩ | ⟨s, c, hs, hfits, hc⟩ := resolve_eq_ok h
  · exact absurd hk (Candidate.resolved_ne_scalar _ _)
  · obtain rfl := Candidate.resolved_injective hc
    exact ⟨s, hs, hfits.declares⟩

theorem declares_of_resolve {q : TypePath} {m : Message}
    (h : b.resolve reference fileId scope = .ok (.message q m)) : b.Declares q (.message m) :=
  declares_of_resolved (d := .message m) h

end Batch

end ProtoSchema
