import Mathlib.Data.List.Perm.Basic
import ProtoSchema.Run
import ProtoSchema.Proofs.FileTree.Listing
import ProtoSchema.Proofs.TypeRef.Resolve

/-! # The files of a run

A run finds each schema file below its input folder once, in the order of the paths. Paths of names can
be read back from file ids, so no two files share one, and the batch holds all files that could be read.
-/

namespace ProtoSchema

open FileTree

theorem dropWhile_proto (stem : String) :
    (stem ++ ".proto").toList.reverse.dropWhile (· ≠ '.') = '.' :: stem.toList.reverse := by
  simp

theorem takeWhile_proto (stem : String) :
    (stem ++ ".proto").toList.reverse.takeWhile (· ≠ '.') = "proto".toList.reverse := by
  simp

theorem exists_reverse_eq_cons {stem : String} (h : stem ≠ "") :
    ∃ c before, stem.toList.reverse = c :: before :=
  List.exists_cons_of_ne_nil (by simpa using h)

theorem Path.extension?_eq_proto {name : String} :
    extension? name = some "proto".toList ↔ ∃ stem, stem ≠ "" ∧ name = stem ++ ".proto" := by
  constructor
  · intro h
    unfold extension? at h
    split at h
    · next dot c before hdrop =>
      have hdot := List.head?_dropWhile_not (fun c : Char => decide (c ≠ '.')) name.toList.reverse
      have hsplit := List.takeWhile_append_dropWhile
        (p := fun c : Char => decide (c ≠ '.')) (l := name.toList.reverse)
      rw [hdrop] at hdot hsplit
      obtain rfl : dot = '.' := by simpa using hdot
      refine ⟨String.ofList (c :: before).reverse, by simp, ?_⟩
      apply String.toList_injective
      have hname := congrArg List.reverse hsplit
      rw [List.reverse_append, Option.some.inj h, List.reverse_reverse] at hname
      simp [← hname]
    · cases h
  · rintro ⟨stem, hstem, rfl⟩
    obtain ⟨c, before, hstem⟩ := exists_reverse_eq_cons hstem
    rw [extension?, takeWhile_proto, dropWhile_proto, hstem, List.reverse_reverse]

theorem Naming.withoutExtension_proto {stem : String} (h : stem ≠ "") :
    withoutExtension (stem ++ ".proto").toList = stem.toList := by
  obtain ⟨c, before, hstem⟩ := exists_reverse_eq_cons h
  rw [withoutExtension, dropWhile_proto, hstem]
  dsimp only
  rw [← hstem, List.reverse_reverse]

namespace Run

variable {t : FileTree} {source p q : Path}

theorem splitAt_fileIdOf (hp : p ≠ []) (h : ∀ name ∈ p, Path.IsName name) :
    Naming.splitAt '/' (fileIdOf p).toList = p.map String.toList := by
  have hslash : ∀ cs ∈ p.map String.toList, '/' ∉ cs := by
    intro cs hcs
    obtain ⟨name, hname, rfl⟩ := List.mem_map.1 hcs
    exact (h name hname).slash
  rw [Naming.splitAt_eq_splitOn, fileIdOf, String.toList_intercalate]
  exact List.splitOn_intercalate '/' hslash (by simpa using hp)

theorem fileIdOf_inj (hp : p ≠ []) (hq : q ≠ []) (hp' : ∀ name ∈ p, Path.IsName name)
    (hq' : ∀ name ∈ q, Path.IsName name) (h : fileIdOf p = fileIdOf q) : p = q := by
  have hsplit := splitAt_fileIdOf hp hp'
  rw [h, splitAt_fileIdOf hq hq'] at hsplit
  exact (List.map_injective_iff.2 (fun _ _ => String.toList_injective) hsplit).symm

/-- A schema file below the input folder: the path from there, and the contents. -/
structure IsInput (t : FileTree) (source : Path) (f : Path × ByteArray) : Prop where
  names : ∀ name ∈ f.1, Path.IsName name
  extension : ∃ folder stem, stem ≠ "" ∧ f.1 = folder ++ [stem ++ ".proto"]
  contents : t.get? (source ++ f.1) = some (.file f.2)

variable {f g : Path × ByteArray}

theorem isSchemaFile_iff :
    isSchemaFile p = true ↔ ∃ folder stem, stem ≠ "" ∧ p = folder ++ [stem ++ ".proto"] := by
  rw [isSchemaFile, beq_iff_eq, Option.bind_eq_some_iff]
  constructor
  · rintro ⟨name, hlast, hname⟩
    obtain ⟨folder, rfl⟩ := List.getLast?_eq_some_iff.1 hlast
    obtain ⟨stem, hstem, rfl⟩ := Path.extension?_eq_proto.1 hname
    exact ⟨folder, stem, hstem, rfl⟩
  · rintro ⟨folder, stem, hstem, rfl⟩
    exact ⟨_, List.getLast?_concat, Path.extension?_eq_proto.2 ⟨stem, hstem, rfl⟩⟩

theorem IsInput.ne_nil (h : IsInput t source f) : f.1 ≠ [] := by
  obtain ⟨folder, stem, -, heq⟩ := h.extension
  simp [heq]

theorem IsInput.fileIdOf_inj (hf : IsInput t source f) (hg : IsInput t source g)
    (h : fileIdOf f.1 = fileIdOf g.1) : f = g := by
  have hpath := Run.fileIdOf_inj hf.ne_nil hg.ne_nil hf.names hg.names h
  have hcontents := hf.contents
  rw [hpath, hg.contents] at hcontents
  injection hcontents with hcontents
  injection hcontents with hcontents
  exact Prod.ext hpath hcontents.symm

theorem IsInput.fileStem (h : IsInput t source f) :
    (Naming.fileStem (fileIdOf f.1) ++ ".proto") ∈ f.1 := by
  obtain ⟨folder, stem, hstem, heq⟩ := h.extension
  have hbase : Naming.baseName (fileIdOf f.1).toList = (stem ++ ".proto").toList := by
    rw [Naming.baseName, splitAt_fileIdOf h.ne_nil h.names, heq, List.map_append]
    exact List.getLastD_concat ..
  rw [Naming.fileStem, hbase, Naming.withoutExtension_proto hstem, String.ofList_toList, heq]
  simp

theorem discover_eq {files : List (Path × ByteArray)}
    (hfiles : t.entries.filterMap (fileInside? source) = files)
    (hsorted : files.Pairwise fun f g => !(g.1 < f.1))
    (hschema : ∀ f ∈ files, isSchemaFile f.1 = true) :
    discover t source = files.map fun f => (fileIdOf f.1, f.2) := by
  rw [discover, filesBelow, hfiles, List.mergeSort_of_pairwise hsorted,
    List.filter_eq_self.2 hschema]

theorem exists_files (ht : t.Regular) (source : Path) : ∃ files : List (Path × ByteArray),
    discover t source = files.map (fun f => (fileIdOf f.1, f.2)) ∧
      files.Pairwise (·.1 < ·.1) ∧ ∀ f, f ∈ files ↔ IsInput t source f := by
  refine ⟨(t.filesBelow source).filter fun f => isSchemaFile f.1, rfl,
    (pairwise_filesBelow ht source).filter _, ?_⟩
  rintro ⟨p, contents⟩
  rw [List.mem_filter, mem_filesBelow ht, isSchemaFile_iff]
  constructor
  · rintro ⟨⟨hnames, hcontents⟩, hextension⟩
    exact ⟨hnames, hextension, hcontents⟩
  · rintro ⟨hnames, hextension, hcontents⟩
    exact ⟨⟨hnames, hcontents⟩, hextension⟩

end Run

theorem insertByKey_perm {α : Type} {key : String} {value : α} {entries : List (String × α)}
    (h : key ∉ entries.map (·.1)) : (insertByKey key value entries).Perm ((key, value) :: entries) := by
  fun_induction insertByKey key value entries with
  | case1 => exact .refl _
  | case2 => exact .refl _
  | case3 e rest _ heq => exact absurd (by simp [heq]) h
  | case4 e rest _ _ ih =>
    have hrest : key ∉ rest.map (·.1) := by
      intro hmem
      exact h (List.mem_cons_of_mem _ hmem)
    exact ((ih hrest).cons e).trans (.swap _ _ _)

theorem Batch.ofList_perm {files : List (String × Schema)} (h : (files.map (·.1)).Nodup) :
    (ofList files).files.Perm files := by
  have hfold : ∀ (b : Batch), ((b.files ++ files).map (·.1)).Nodup →
      (files.foldl (fun b f => b.insert f.1 f.2) b).files.Perm (b.files ++ files) := by
    clear h
    induction files with
    | nil => simp
    | cons f files ih =>
      intro b hdistinct
      have hnew : f.1 ∉ b.files.map (·.1) := by
        rw [List.map_append, List.map_cons] at hdistinct
        intro hmem
        exact (List.nodup_append.1 hdistinct).2.2 _ hmem _ List.mem_cons_self rfl
      have hinsert : (b.insert f.1 f.2).files.Perm (f :: b.files) := insertByKey_perm hnew
      have hperm : ((b.insert f.1 f.2).files ++ files).Perm (b.files ++ f :: files) :=
        (hinsert.append_right files).trans List.perm_middle.symm
      exact (ih _ ((hperm.map _).nodup_iff.2 hdistinct)).trans hperm
  exact hfold empty h

namespace Run

variable {t : FileTree} {source : Path} {files : List (String × ByteArray)} {id : String} {s : Schema}

theorem compileFile_toUTF8 (text : String) : compileFile text.toUTF8 = Schema.compile text := by
  have htext : String.fromUTF8? text.toUTF8 = some text := dif_pos text.isValidUTF8
  rw [compileFile, textOf, htext]

theorem compiled?_eq_some {f : String × ByteArray} :
    compiled? f = some (id, s) ↔ f.1 = id ∧ compileFile f.2 = .ok s := by
  cases h : compileFile f.2 with
  | error e => simp [compiled?, h, Except.toOption]
  | ok s' => simp [compiled?, h, Except.toOption]

theorem batchOf_perm (h : (files.map (·.1)).Nodup) :
    (batchOf files).files.Perm (files.filterMap compiled?) := by
  apply Batch.ofList_perm
  rw [List.Nodup, List.pairwise_map, List.pairwise_filterMap]
  apply (List.pairwise_map.1 h).imp
  rintro f f' hne ⟨id, s⟩ hf ⟨id', s'⟩ hf'
  rw [← (compiled?_eq_some.1 hf).1, ← (compiled?_eq_some.1 hf').1]
  exact hne

theorem nodup_discover (ht : t.Regular) (source : Path) :
    ((discover t source).map (·.1)).Nodup := by
  obtain ⟨files, hdiscover, hsorted, hfiles⟩ := exists_files ht source
  have hnodup : files.Nodup := by
    apply hsorted.imp
    rintro f _ hlt rfl
    exact List.lt_irrefl f.1 hlt
  rw [hdiscover, List.map_map]
  apply hnodup.map_on
  intro f hf g hg heq
  exact ((hfiles f).1 hf).fileIdOf_inj ((hfiles g).1 hg) heq

theorem get?_batchOf (ht : t.Regular) :
    (batchOf (discover t source)).get? id = some s ↔
      ∃ f, IsInput t source f ∧ fileIdOf f.1 = id ∧ compileFile f.2 = .ok s := by
  obtain ⟨files, hdiscover, -, hfiles⟩ := exists_files ht source
  rw [Batch.get?_eq_some, (batchOf_perm (nodup_discover ht source)).mem_iff, hdiscover,
    List.mem_filterMap]
  constructor
  · rintro ⟨f, hf, hread⟩
    obtain ⟨f, hmem, rfl⟩ := List.mem_map.1 hf
    exact ⟨f, (hfiles f).1 hmem, compiled?_eq_some.1 hread⟩
  · rintro ⟨f, hf, hread⟩
    exact ⟨_, List.mem_map_of_mem ((hfiles f).2 hf), compiled?_eq_some.2 hread⟩

end Run

end ProtoSchema
