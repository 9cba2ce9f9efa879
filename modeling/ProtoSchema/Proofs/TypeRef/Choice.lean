import Mathlib.Data.String.Basic
import ProtoSchema.Proofs.Schema.Word
import ProtoSchema.Proofs.TypeRef.Resolve

/-! # The choice between files

A name without dots that its own file does not declare is looked for in the other files. Each of
them offers its outermost type of that name, or else all its nested ones. The reference resolves
only if one file is left, by itself or among the imports, and that file leaves no choice either.
-/

namespace ProtoSchema

namespace Schema

variable {s : Schema} {name : String} {path : List String} {d : TypeDef}

/-- The file has a type of the given name, at whatever depth. -/
def Mentions (s : Schema) (name : String) : Prop := ∃ path d, s.Declares path d ∧ d.name = name

/-- What a file offers under a name: its outermost type of that name, or else every nested one. -/
inductive Offers (s : Schema) (name : String) : List String → TypeDef → Prop
  | outermost {d : TypeDef} (h : s.Declares [name] d) : Offers s name [name] d
  | nested {path : List String} {d : TypeDef} (hnone : ∀ d', ¬ s.Declares [name] d')
      (h : s.Declares path d) (hname : d.name = name) : Offers s name path d

/-- The type that a file gives for a name without a choice: the outermost, or the only one. -/
structure Gives (s : Schema) (name : String) (path : List String) (d : TypeDef) : Prop where
  offers : s.Offers name path d
  only : path = [name] ∨ ∀ path' d', s.Declares path' d' → d'.name = name → path' = path

theorem name_of_declares_singleton (h : s.Declares [name] d) : d.name = name := by
  simpa using (Declared.getLast? h).symm

theorem Offers.declares (h : s.Offers name path d) : s.Declares path d ∧ d.name = name := by
  cases h with
  | outermost h => exact ⟨h, name_of_declares_singleton h⟩
  | nested _ h hname => exact ⟨h, hname⟩

theorem Mentions.exists_offers (h : s.Mentions name) : ∃ path d, s.Offers name path d := by
  by_cases hout : ∃ d, s.Declares [name] d
  · obtain ⟨d, hd⟩ := hout
    exact ⟨[name], d, .outermost hd⟩
  · obtain ⟨path, d, hd, hname⟩ := h
    exact ⟨path, d, .nested (not_exists.1 hout) hd hname⟩

theorem Gives.eq_of_offers {path' : List String} {d' : TypeDef} (h : s.Gives name path d)
    (h' : s.Offers name path' d') : path' = path := by
  rcases h.only with rfl | honly
  · cases h' with
    | outermost => rfl
    | nested hnone => exact absurd h.offers.declares.1 (hnone d)
  · exact honly _ _ h'.declares.1 h'.declares.2

theorem gives_iff :
    s.Gives name path d ↔
      s.Offers name path d ∧ ∀ path' d', s.Offers name path' d' → path' = path := by
  constructor
  · exact fun h => ⟨h.offers, fun _ _ => h.eq_of_offers⟩
  · rintro ⟨hoffers, hunique⟩
    refine ⟨hoffers, ?_⟩
    cases hoffers with
    | outermost => exact Or.inl rfl
    | nested hnone => exact Or.inr fun path' d' hd hname => hunique _ _ (.nested hnone hd hname)

end Schema

namespace Reference

variable {b : Batch} {s u : Schema} {fileId g name : String} {scope path : List String}
  {c : Candidate} {cs : List Candidate} {x : Resolved}

def undotted (name : String) : Reference := ⟨name, false, [name]⟩

theorem ofText_undotted (h : Word.isIdentifier name = true) : ofText name = undotted name := by
  have hname := Word.isIdentifier_iff.1 h
  obtain ⟨c, cs, hcs⟩ : ∃ c cs, name.toList = c :: cs := by
    cases hcs : name.toList with
    | nil => simp [hcs, Piece.IsName] at hname
    | cons c cs => exact ⟨c, cs, rfl⟩
  rw [hcs] at hname
  obtain ⟨hstart, hrest⟩ := hname
  have hc : c ≠ '.' := by
    rintro rfl
    exact absurd hstart (by decide)
  have hdots : '.' ∉ name.toList := by
    rw [hcs, List.mem_cons, not_or]
    exact ⟨hc.symm, fun hmem => absurd (hrest _ hmem) (by decide)⟩
  have hwhole : Scalar.withoutDots name = name.toList := by simp [Scalar.withoutDots, hcs, hc]
  have hhead : (name.toList.head? == some '.') = false := by simp [hcs, hc]
  rw [ofText, hwhole, hhead, segmentsOf_undotted hdots, String.ofList_toList]
  rfl

theorem findQualified?_undotted {t : List String × TypeDef}
    (h : s.findQualified? [name] = some t) : t.1 = [name] ∧ s.find? [name] = some t.2 := by
  obtain ⟨hsegments, hd⟩ := Schema.findQualified?_eq_some.1 h
  have hne : t.1 ≠ [] := (Schema.find?_declares hd).ne_nil
  have hpath : t.1 = [name] := by
    rw [Schema.fullSegments, eq_comm, List.append_eq_singleton_iff] at hsegments
    rcases hsegments with ⟨-, hpath⟩ | ⟨-, hpath⟩
    · exact hpath
    · exact absurd hpath hne
  exact ⟨hpath, hpath ▸ hd⟩

theorem local?_undotted (h : ¬ s.Mentions name) :
    (undotted name).local? s fileId scope = .ok none := by
  have hfind (outer : List String) : s.find? (outer ++ [name]) = none := by
    refine Option.eq_none_iff_forall_ne_some.2 fun d hd => h ⟨_, d, Schema.find?_declares hd, ?_⟩
    simpa using (Declared.getLast? (Schema.find?_declares hd)).symm
  have hscopes : inScopes? s scope [name] = none := by
    simp [inScopes?, hfind]
  have hnamed : s.named name = [] := by
    refine List.eq_nil_iff_forall_not_mem.2 fun t ht => h ⟨t.1, t.2, Schema.mem_named.1 ht⟩
  have hqualified : s.findQualified? [name] = none := by
    refine Option.eq_none_iff_forall_ne_some.2 fun t ht => ?_
    have hd := (findQualified?_undotted ht).2
    rw [← List.nil_append [name], hfind] at hd
    cases hd
  simp [local?, undotted, hscopes, hnamed, hqualified]

theorem offers_undotted (u : Schema) (g : String) :
    (undotted name).offers g u =
      match u.find? [name] with
      | some d => [⟨⟨g, [name]⟩, d⟩]
      | none => (u.named name).map (.ofFile g) := by
  unfold offers
  cases hq : u.findQualified? (undotted name).segments with
  | some t =>
    obtain ⟨hpath, hd⟩ := findQualified?_undotted hq
    simp [hd, Candidate.ofFile, hpath]
  | none =>
    cases hd : u.find? [name] <;> simp [undotted, hd]

theorem mem_offers_undotted (hu : u.check = .ok ()) :
    c ∈ (undotted name).offers g u ↔
      c.path.fileId = g ∧ u.Offers name c.path.segments c.definition := by
  obtain ⟨⟨id, path⟩, d⟩ := c
  rw [offers_undotted]
  cases hout : u.find? [name] with
  | some d' =>
    have hd' := Schema.find?_declares hout
    constructor
    · intro h
      cases List.mem_singleton.1 h
      exact ⟨rfl, .outermost hd'⟩
    · rintro ⟨rfl, h⟩
      cases h with
      | outermost h =>
        obtain rfl := h.unique hu hd'
        exact List.mem_singleton_self _
      | nested hnone => exact absurd hd' (hnone d')
  | none =>
    have hnone (d' : TypeDef) : ¬ u.Declares [name] d' := fun hd' => by
      rw [hd'.find? hu] at hout
      cases hout
    constructor
    · intro h
      obtain ⟨t, ht, heq⟩ := List.mem_map.1 h
      cases heq
      obtain ⟨hd, hname⟩ := Schema.mem_named.1 ht
      exact ⟨rfl, .nested hnone hd hname⟩
    · rintro ⟨rfl, h⟩
      exact List.mem_map.2 ⟨(path, d), Schema.mem_named.2 h.declares, rfl⟩

theorem nodup_offers_undotted (hu : u.check = .ok ()) :
    (((undotted name).offers g u).map (·.path)).Nodup := by
  rw [offers_undotted]
  split
  · simp
  · have hpaths : ((u.named name).map (Candidate.ofFile g)).map (·.path) =
        ((u.named name).map Prod.fst).map (TypePath.mk g) := by
      simp [Candidate.ofFile]
    rw [hpaths]
    refine List.Nodup.map (fun _ _ heq => (TypePath.mk.inj heq).2) ?_
    exact (Schema.nodup_types hu).sublist (List.filter_sublist.map _)

/-- One candidate is left, by itself or among the imports. -/
def Only (s : Schema) (cs : List Candidate) (c : Candidate) : Prop :=
  cs = [c] ∨ (cs.filter fun c => s.importsFile c.path.fileId) = [c]

theorem choose_of_only {r : Reference} (h : Only s cs c) :
    r.choose s fileId scope cs = .ok c.resolved := by
  rcases h with rfl | h
  · rfl
  · match cs with
    | [] => cases h
    | [c₁] =>
      have hc : c ∈ [c₁] := List.mem_of_mem_filter (h ▸ List.mem_singleton_self c)
      rw [List.mem_singleton.1 hc]
      rfl
    | c₁ :: c₂ :: cs => simp only [choose, h]

theorem choose_of_many {r : Reference} (hne : cs ≠ []) (h : ∀ c, ¬ Only s cs c) :
    r.choose s fileId scope cs = .error (r.ambiguity fileId scope cs) := by
  match cs with
  | [] => exact absurd rfl hne
  | [c] => exact absurd (Or.inl rfl) (h c)
  | c₁ :: c₂ :: cs =>
    simp only [choose]
    split
    · next c hc => exact absurd (Or.inr hc) (h c)
    · rfl

theorem choose_eq_ok {r : Reference} :
    r.choose s fileId scope cs = .ok x ↔ ∃ c, Only s cs c ∧ x = c.resolved := by
  constructor
  · intro hx
    by_cases h : ∃ c, Only s cs c
    · obtain ⟨c, hc⟩ := h
      rw [choose_of_only hc] at hx
      cases hx
      exact ⟨c, hc, rfl⟩
    · by_cases hne : cs = []
      · subst hne
        cases hx
      · rw [choose_of_many hne (not_exists.1 h)] at hx
        cases hx
  · rintro ⟨c, hc, rfl⟩
    exact choose_of_only hc

theorem choose_eq_unresolved {r : Reference} :
    r.choose s fileId scope cs = .error (.unresolved r.text (origin fileId scope)) ↔ cs = [] := by
  constructor
  · intro hx
    by_contra hne
    by_cases h : ∃ c, Only s cs c
    · obtain ⟨c, hc⟩ := h
      rw [choose_of_only hc] at hx
      cases hx
    · rw [choose_of_many hne (not_exists.1 h)] at hx
      cases hx
  · rintro rfl
    rfl

end Reference

theorem eq_singleton_iff {α : Type} {a : α} {as : List α} (h : as.Nodup) :
    as = [a] ↔ a ∈ as ∧ ∀ a' ∈ as, a' = a := by
  constructor
  · rintro rfl
    simp
  · rintro ⟨ha, hall⟩
    refine List.perm_singleton.1 ((List.perm_ext_iff_of_nodup h (List.nodup_singleton a)).2 ?_)
    intro x
    constructor
    · exact fun hx => List.mem_singleton.2 (hall x hx)
    · intro hx
      rwa [List.mem_singleton.1 hx]

namespace Batch

open Reference (undotted origin)

variable {b : Batch} {fileId name : String} {c : Candidate}

/-- Another file of the batch that has a type of the given name. -/
structure Declarer (b : Batch) (fileId name g : String) (u : Schema) : Prop where
  mem : (g, u) ∈ b.files
  other : g ≠ fileId
  mentions : u.Mentions name

/-- No declarer but `g` is left: it is the only one, or the only one that the file imports. -/
def Leaves (b : Batch) (s : Schema) (fileId name g : String) : Prop :=
  (∀ g' u', b.Declarer fileId name g' u' → g' = g) ∨
    s.importsFile g = true ∧
      ∀ g' u', b.Declarer fileId name g' u' → s.importsFile g' = true → g' = g

theorem mem_candidates (hb : b.Accepted) :
    c ∈ (undotted name).candidates b fileId ↔
      ∃ u, b.Declarer fileId name c.path.fileId u ∧
        u.Offers name c.path.segments c.definition := by
  rw [Reference.candidates, List.mem_flatMap]
  constructor
  · rintro ⟨⟨g, u⟩, hf, hc⟩
    obtain ⟨hmem, hne⟩ := List.mem_filter.1 hf
    obtain ⟨rfl, hoffers⟩ := (Reference.mem_offers_undotted (hb.check hmem)).1 hc
    exact ⟨u, ⟨hmem, by simpa using hne, ⟨_, _, hoffers.declares⟩⟩, hoffers⟩
  · rintro ⟨u, hu, hoffers⟩
    refine ⟨(c.path.fileId, u), List.mem_filter.2 ⟨hu.mem, by simpa using hu.other⟩, ?_⟩
    exact (Reference.mem_offers_undotted (hb.check hu.mem)).2 ⟨rfl, hoffers⟩

theorem pairwise_candidates (hb : b.Accepted) :
    ((undotted name).candidates b fileId).Pairwise fun c c' =>
      c.path ≠ c'.path ∧ c.path.fileId ≤ c'.path.fileId := by
  rw [Reference.candidates, List.pairwise_flatMap]
  constructor
  · intro f hf
    have hnodup : ((undotted name).offers f.1 f.2).Pairwise (·.path ≠ ·.path) :=
      List.pairwise_map.1 (Reference.nodup_offers_undotted (hb.check (List.mem_of_mem_filter hf)))
    refine hnodup.imp_of_mem fun {c c'} hc hc' hne => ⟨hne, ?_⟩
    rw [(Reference.fits_of_mem_offers hc).file, (Reference.fits_of_mem_offers hc').file]
  · refine (b.sorted.filter _).imp fun {f g} hlt c hc c' hc' => ?_
    have hfiles : c.path.fileId < c'.path.fileId := by
      rwa [(Reference.fits_of_mem_offers hc).file, (Reference.fits_of_mem_offers hc').file]
    exact ⟨fun heq => String.lt_irrefl _ (heq ▸ hfiles), hfiles.le⟩

theorem nodup_candidates (hb : b.Accepted) : ((undotted name).candidates b fileId).Nodup :=
  (pairwise_candidates hb).imp fun hc heq => hc.1 (congrArg Candidate.path heq)

/-- The candidates of the files that satisfy `p` are down to one if one such declarer is left and it
gives a type. -/
theorem filter_candidates (hb : b.Accepted) (p : String → Bool) :
    (((undotted name).candidates b fileId).filter fun c => p c.path.fileId) = [c] ↔
      p c.path.fileId = true ∧
      (∀ g u, b.Declarer fileId name g u → p g = true → g = c.path.fileId) ∧
      ∃ u, b.Declarer fileId name c.path.fileId u ∧
        u.Gives name c.path.segments c.definition := by
  rw [eq_singleton_iff ((nodup_candidates hb).filter _)]
  simp only [List.mem_filter, mem_candidates hb]
  constructor
  · rintro ⟨⟨⟨u, hu, hoffers⟩, hp⟩, honly⟩
    refine ⟨hp, fun g v hv hg => ?_, u, hu, Schema.gives_iff.2 ⟨hoffers, fun path d hd => ?_⟩⟩
    · obtain ⟨path, d, hd⟩ := hv.mentions.exists_offers
      have heq := honly ⟨⟨g, path⟩, d⟩ ⟨⟨v, hv, hd⟩, hg⟩
      rw [← heq]
    · have heq := honly ⟨⟨c.path.fileId, path⟩, d⟩ ⟨⟨u, hu, hd⟩, hp⟩
      rw [← heq]
  · rintro ⟨hp, hfile, u, hu, hgives⟩
    refine ⟨⟨⟨u, hu, hgives.offers⟩, hp⟩, ?_⟩
    rintro ⟨⟨g, path⟩, d⟩ ⟨⟨v, hv, hd⟩, hg⟩
    obtain rfl := hfile g v hv hg
    obtain rfl := schema_unique hv.mem hu.mem
    obtain rfl := hgives.eq_of_offers hd
    obtain rfl := hd.declares.1.unique (hb.check hu.mem) hgives.offers.declares.1
    rfl

theorem candidates_eq_nil (hb : b.Accepted) :
    (undotted name).candidates b fileId = [] ↔ ∀ g u, ¬ b.Declarer fileId name g u := by
  rw [List.eq_nil_iff_forall_not_mem]
  constructor
  · intro h g u hu
    obtain ⟨path, d, hd⟩ := hu.mentions.exists_offers
    exact h ⟨⟨g, path⟩, d⟩ ((mem_candidates hb).2 ⟨u, hu, hd⟩)
  · intro h c hc
    obtain ⟨u, hu, -⟩ := (mem_candidates hb).1 hc
    exact h _ u hu

theorem only_candidates (hb : b.Accepted) (s : Schema) :
    Reference.Only s ((undotted name).candidates b fileId) c ↔
      b.Leaves s fileId name c.path.fileId ∧
        ∃ u, b.Declarer fileId name c.path.fileId u ∧
          u.Gives name c.path.segments c.definition := by
  have hall : (undotted name).candidates b fileId = [c] ↔
      (∀ g u, b.Declarer fileId name g u → g = c.path.fileId) ∧
        ∃ u, b.Declarer fileId name c.path.fileId u ∧
          u.Gives name c.path.segments c.definition := by
    simpa using filter_candidates (c := c) hb fun _ => true
  rw [Reference.Only, hall, filter_candidates hb s.importsFile, Leaves, ← and_assoc, or_and_right]

theorem resolve_undotted {s : Schema} (hs : (fileId, s) ∈ b.files)
    (hname : Word.isIdentifier name = true) (hscalar : Scalar.ofName? name = none)
    (hnone : ¬ s.Mentions name) (scope : List String) :
    b.resolve name fileId scope =
      (undotted name).choose s fileId scope ((undotted name).candidates b fileId) := by
  simp only [resolve, hscalar, get?_eq_some.2 hs, Reference.ofText_undotted hname,
    Reference.local?_undotted hnone]

/-- A name without dots that its own file does not declare resolves if one declarer is left and
that one gives a type, which is the answer. It is unresolved if there is no declarer, and otherwise
ambiguous, with all that the declarers offer in file order. -/
theorem resolve_across_files (hb : b.Accepted) {s : Schema} (hs : (fileId, s) ∈ b.files)
    (hname : Word.isIdentifier name = true) (hscalar : Scalar.ofName? name = none)
    (hnone : ¬ s.Mentions name) (scope : List String) :
    (∀ x, b.resolve name fileId scope = .ok x ↔
      ∃ g u path d, b.Declarer fileId name g u ∧ b.Leaves s fileId name g ∧ u.Gives name path d ∧
        x = Candidate.resolved ⟨⟨g, path⟩, d⟩) ∧
    (b.resolve name fileId scope = .error (.unresolved name (origin fileId scope)) ↔
      ∀ g u, ¬ b.Declarer fileId name g u) ∧
    ((∃ g u, b.Declarer fileId name g u) →
      (∀ g u path d, b.Declarer fileId name g u → b.Leaves s fileId name g →
        ¬ u.Gives name path d) →
      ∃ ps : List TypePath,
        b.resolve name fileId scope =
          .error (.ambiguous name (origin fileId scope) (ps.map TypePath.describe)) ∧
        ps.Nodup ∧ ps.Pairwise (·.fileId ≤ ·.fileId) ∧
        ∀ p, p ∈ ps ↔ ∃ u d, b.Declarer fileId name p.fileId u ∧ u.Offers name p.segments d) := by
  rw [resolve_undotted hs hname hscalar hnone]
  refine ⟨fun x => ?_, Reference.choose_eq_unresolved.trans (candidates_eq_nil hb), ?_⟩
  · rw [Reference.choose_eq_ok]
    constructor
    · rintro ⟨c, hc, rfl⟩
      obtain ⟨hleaves, u, hu, hgives⟩ := (only_candidates hb s).1 hc
      exact ⟨_, u, _, _, hu, hleaves, hgives, rfl⟩
    · rintro ⟨g, u, path, d, hu, hleaves, hgives, rfl⟩
      exact ⟨_, (only_candidates hb s).2 ⟨hleaves, u, hu, hgives⟩, rfl⟩
  · rintro ⟨g, u, hu⟩ hmany
    have hpairwise : ((undotted name).candidates b fileId).Pairwise _ := pairwise_candidates hb
    refine ⟨((undotted name).candidates b fileId).map (·.path), ?_, ?_, ?_, fun p => ?_⟩
    · rw [List.map_map]
      refine Reference.choose_of_many (fun hnil => (candidates_eq_nil hb).1 hnil g u hu) ?_
      intro c hc
      obtain ⟨hleaves, v, hv, hgives⟩ := (only_candidates hb s).1 hc
      exact hmany _ v _ _ hv hleaves hgives
    · exact List.pairwise_map.2 (hpairwise.imp And.left)
    · exact List.pairwise_map.2 (hpairwise.imp And.right)
    · rw [List.mem_map]
      constructor
      · rintro ⟨c, hc, rfl⟩
        obtain ⟨v, hv, hoffers⟩ := (mem_candidates hb).1 hc
        exact ⟨v, _, hv, hoffers⟩
      · rintro ⟨v, d, hv, hoffers⟩
        exact ⟨⟨p, d⟩, (mem_candidates hb).2 ⟨v, hv, hoffers⟩, rfl⟩

/-- Two files with a type `T`, one of them nested, and two files that refer to it; the first of
these imports the nested one. -/
def severalFiles : Batch :=
  ⟨[("a.proto", { imports := ["b.proto"] }),
    ("b.proto", { messages := [⟨"Outer", ⟨1, 9⟩, [], [], [⟨"T", ⟨1, 25⟩, [], [], [], []⟩], []⟩] }),
    ("c.proto", { messages := [⟨"T", ⟨1, 9⟩, [], [], [], []⟩] }),
    ("d.proto", {})], by decide⟩

theorem accepted_severalFiles : severalFiles.Accepted := by
  intro f hf
  rw [severalFiles, List.mem_cons, List.mem_cons, List.mem_pair] at hf
  rcases hf with rfl | rfl | rfl | rfl
  · exact ⟨"import \"b.proto\";", by decide +kernel⟩
  · exact ⟨"message Outer \x7b message T \x7b \x7d \x7d", by decide +kernel⟩
  · exact ⟨"message T \x7b \x7d", by decide +kernel⟩
  · exact ⟨"", by decide +kernel⟩

theorem declarer_nested {fileId : String} (h : "b.proto" ≠ fileId) :
    severalFiles.Declarer fileId "T" "b.proto" severalFiles.files[1].2 where
  mem := by simp [severalFiles]
  other := h
  mentions :=
    ⟨["Outer", "T"], _, Schema.mem_types.1 (List.mem_cons_of_mem _ List.mem_cons_self), rfl⟩

theorem declarer_outermost {fileId : String} (h : "c.proto" ≠ fileId) :
    severalFiles.Declarer fileId "T" "c.proto" severalFiles.files[2].2 where
  mem := by simp [severalFiles]
  other := h
  mentions := ⟨["T"], _, Schema.mem_types.1 List.mem_cons_self, rfl⟩

theorem gives_nested :
    severalFiles.files[1].2.Gives "T" ["Outer", "T"] (.message ⟨"T", ⟨1, 25⟩, [], [], [], []⟩) := by
  have hpaths : ∀ t ∈ severalFiles.files[1].2.types, t.2.name = "T" → t.1 = ["Outer", "T"] := by
    decide
  refine ⟨.nested (fun d hd => ?_) ?_ rfl, Or.inr fun path d hd => hpaths _ (Schema.mem_types.2 hd)⟩
  · have hpath : ["T"] = ["Outer", "T"] :=
      hpaths _ (Schema.mem_types.2 hd) (Schema.name_of_declares_singleton hd)
    exact absurd hpath (by decide)
  · exact Schema.mem_types.1 (List.mem_cons_of_mem _ List.mem_cons_self)

/-- The import settles the choice for the first file; the last one has none. -/
theorem resolve_across_files_nested :
    severalFiles.Accepted ∧
      severalFiles.resolve "T" "a.proto" [] =
        .ok (.message ⟨"b.proto", ["Outer", "T"]⟩ ⟨"T", ⟨1, 25⟩, [], [], [], []⟩) ∧
      severalFiles.resolve "U" "a.proto" [] = .error (.unresolved "U" "a.proto") ∧
      ∃ ps : List TypePath,
        severalFiles.resolve "T" "d.proto" [] =
          .error (.ambiguous "T" "d.proto" (ps.map TypePath.describe)) ∧
        ⟨"b.proto", ["Outer", "T"]⟩ ∈ ps := by
  have hnone (name : String) : ¬ ({ imports := ["b.proto"] } : Schema).Mentions name := by
    rintro ⟨path, d, hd, -⟩
    exact absurd (Schema.mem_types.2 hd) List.not_mem_nil
  have hempty (name : String) : ¬ ({} : Schema).Mentions name := by
    rintro ⟨path, d, hd, -⟩
    exact absurd (Schema.mem_types.2 hd) List.not_mem_nil
  have hT := resolve_across_files accepted_severalFiles List.mem_cons_self
    (by decide) (by decide) (hnone "T") []
  have hU := resolve_across_files accepted_severalFiles List.mem_cons_self
    (by decide) (by decide) (hnone "U") []
  have hlast : ("d.proto", {}) ∈ severalFiles.files := by simp [severalFiles]
  have hd := resolve_across_files accepted_severalFiles hlast
    (by decide) (by decide) (hempty "T") []
  refine ⟨accepted_severalFiles, (hT.1 _).2 ?_, hU.2.1.2 ?_, ?_⟩
  · refine ⟨_, _, _, _, declarer_nested (by decide), Or.inr ⟨by decide, ?_⟩, gives_nested, rfl⟩
    intro g u hu himports
    have hids : ∀ f ∈ severalFiles.files,
        Schema.importsFile { imports := ["b.proto"] } f.1 = true → f.1 = "b.proto" := by decide
    exact hids _ hu.mem himports
  · rintro g u ⟨hmem, -, path, d, hd, hname⟩
    have hnames : ∀ f ∈ severalFiles.files, ∀ t ∈ f.2.types, t.2.name ≠ "U" := by decide
    exact hnames _ hmem _ (Schema.mem_types.2 hd) hname
  · obtain ⟨ps, hps, -, -, hmem⟩ := hd.2.2 ⟨_, _, declarer_nested (by decide)⟩ (by
      rintro g u path d - (hall | ⟨himports, -⟩)
      · have hb := hall _ _ (declarer_nested (by decide))
        have hc := hall _ _ (declarer_outermost (by decide))
        exact absurd (hb.trans hc.symm) (by decide)
      · cases himports)
    exact ⟨ps, hps, (hmem _).2 ⟨_, _, declarer_nested (by decide), gives_nested.offers⟩⟩

end Batch

end ProtoSchema
