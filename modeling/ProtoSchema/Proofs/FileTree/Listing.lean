import Mathlib.Data.List.Nodup
import ProtoSchema.Proofs.FileTree.Folders

/-! # Listing files

In a regular tree every entry has a path of its own, which leads from a base folder over names. There
the listing below a folder holds each file of the folder once, in the order of the paths.
-/

namespace ProtoSchema

namespace Path

/-- A name that something in a folder can have. -/
structure IsName (name : String) : Prop where
  ne_empty : name ≠ ""
  ne_dot : name ≠ "."
  ne_dots : name ≠ ".."
  slash : '/' ∉ name.toList
  short : name.utf8ByteSize ≤ longestName

theorem IsName.ne_slash {name : String} (h : IsName name) : name ≠ "/" := by
  rintro rfl
  exact h.slash (by decide)

instance (name : String) : Decidable (IsName name) :=
  decidable_of_iff (name ≠ "" ∧ name ≠ "." ∧ name ≠ ".." ∧ '/' ∉ name.toList ∧
      name.utf8ByteSize ≤ longestName)
    ⟨fun ⟨h₁, h₂, h₃, h₄, h₅⟩ => ⟨h₁, h₂, h₃, h₄, h₅⟩,
      fun ⟨h₁, h₂, h₃, h₄, h₅⟩ => ⟨h₁, h₂, h₃, h₄, h₅⟩⟩

theorem mem_of_isBase {base : Path} {name : String} (h : base.isBase = true) (hname : name ∈ base) :
    name = ".." ∨ name = "/" := by
  simp only [isBase, Bool.or_eq_true, decide_eq_true_eq, List.all_eq_true] at h
  rcases h with rfl | h
  · exact Or.inr (List.mem_singleton.1 hname)
  · exact Or.inl (h name hname)

end Path

namespace FileTree

variable {t : FileTree} {folder p q : Path} {contents : ByteArray}

/-- Every entry stands once, at names below a base folder. -/
structure Regular (t : FileTree) : Prop where
  distinct : (t.entries.map (·.1)).Nodup
  named : ∀ e ∈ t.entries, ∃ base names : Path, e.1 = base ++ names ∧ base.isBase = true ∧
    names ≠ [] ∧ ∀ name ∈ names, Path.IsName name

theorem regular_of_isName (hdistinct : (t.entries.map (·.1)).Nodup)
    (hnames : ∀ e ∈ t.entries, e.1 ≠ [] ∧ ∀ name ∈ e.1, Path.IsName name) : t.Regular :=
  ⟨hdistinct, fun e he => ⟨[], e.1, rfl, rfl, hnames e he⟩⟩

theorem Regular.not_isBase (h : t.Regular) {e : Path × Entry} (he : e ∈ t.entries) :
    e.1.isBase = false := by
  obtain ⟨base, names, heq, -, hne, hnames⟩ := h.named e he
  obtain ⟨name, rest, rfl⟩ := List.exists_cons_of_ne_nil hne
  have hname := hnames name List.mem_cons_self
  rw [Bool.eq_false_iff, heq]
  intro hbase
  have hmem : name ∈ base ++ name :: rest := by simp
  rcases Path.mem_of_isBase hbase hmem with h | h
  · exact hname.ne_dots h
  · exact hname.ne_slash h

theorem lookup_eq_some_of_nodup {entries : List (Path × Entry)} {e : Entry}
    (h : (entries.map (·.1)).Nodup) : entries.lookup p = some e ↔ (p, e) ∈ entries := by
  constructor
  · intro hlookup
    obtain ⟨before, after, rfl, -⟩ := List.lookup_eq_some_iff.1 hlookup
    exact List.mem_append_cons_self
  · intro hmem
    obtain ⟨before, after, rfl⟩ := List.append_of_mem hmem
    refine List.lookup_eq_some_iff.2 ⟨before, after, rfl, fun x hx => bne_iff_ne.2 ?_⟩
    rw [List.map_append] at h
    exact ((List.nodup_append.1 h).2.2 x.1 (List.mem_map_of_mem hx) p (by simp)).symm

theorem Regular.get?_eq_file (h : t.Regular) :
    t.get? p = some (.file contents) ↔ (p, .file contents) ∈ t.entries := by
  rw [← lookup_eq_some_of_nodup h.distinct]
  cases hbase : p.isBase with
  | false => rw [get?_of_not_isBase hbase]
  | true =>
    rw [get?_of_isBase hbase]
    constructor
    · rintro ⟨⟩
    · intro hlookup
      have hp := h.not_isBase ((lookup_eq_some_of_nodup h.distinct).1 hlookup)
      exact absurd hbase (by simp [hp])

theorem inside?_eq_some :
    inside? folder q = some p ↔ q = folder ++ p ∧ ∀ name ∈ p.head?, name ≠ ".." ∧ name ≠ "/" := by
  simp only [inside?]
  constructor
  · intro h
    split at h
    · next hcond =>
      cases h
      simp only [Bool.and_eq_true, List.isPrefixOf_iff_prefix] at hcond
      obtain ⟨⟨rest, rfl⟩, hhead⟩ := hcond
      rw [List.drop_left] at hhead ⊢
      refine ⟨rfl, fun name hname => ?_⟩
      rw [Option.mem_def] at hname
      simpa [hname] using hhead
    · cases h
  · rintro ⟨rfl, hhead⟩
    rw [List.drop_left, if_pos]
    cases p <;> simp_all

theorem fileInside?_eq_some {e : Path × Entry} :
    fileInside? folder e = some (p, contents) ↔ e = (folder ++ p, .file contents) ∧
      ∀ name ∈ p.head?, name ≠ ".." ∧ name ≠ "/" := by
  obtain ⟨q, e⟩ := e
  cases e with
  | folder => simp [fileInside?]
  | file c =>
    simp only [fileInside?, Option.map_eq_some_iff, inside?_eq_some, Prod.mk.injEq, Entry.file.injEq]
    grind

theorem mem_filesBelow_iff :
    (p, contents) ∈ t.filesBelow folder ↔ (folder ++ p, .file contents) ∈ t.entries ∧
      ∀ name ∈ p.head?, name ≠ ".." ∧ name ≠ "/" := by
  rw [filesBelow, List.mem_mergeSort, List.mem_filterMap]
  constructor
  · rintro ⟨e, hmem, hfound⟩
    obtain ⟨rfl, hhead⟩ := fileInside?_eq_some.1 hfound
    exact ⟨hmem, hhead⟩
  · rintro ⟨hmem, hhead⟩
    exact ⟨_, hmem, fileInside?_eq_some.2 ⟨rfl, hhead⟩⟩

theorem mem_filesBelow (ht : t.Regular) :
    (p, contents) ∈ t.filesBelow folder ↔
      (∀ name ∈ p, Path.IsName name) ∧ t.get? (folder ++ p) = some (.file contents) := by
  rw [mem_filesBelow_iff, ht.get?_eq_file]
  constructor
  · rintro ⟨hmem, hhead⟩
    refine ⟨?_, hmem⟩
    obtain ⟨base, names, heq, hbase, -, hnames⟩ := ht.named _ hmem
    rcases List.append_eq_append_iff.1 heq with ⟨rest, rfl, rfl⟩ | ⟨rest, rfl, rfl⟩
    · cases rest with
      | nil => exact hnames
      | cons first rest =>
        obtain ⟨hdots, hslash⟩ := hhead first rfl
        have hmem : first ∈ folder ++ first :: rest := by simp
        rcases Path.mem_of_isBase hbase hmem with h | h
        · exact absurd h hdots
        · exact absurd h hslash
    · exact fun name hname => hnames name (List.mem_append_right rest hname)
  · rintro ⟨hnames, hmem⟩
    refine ⟨hmem, fun name hname => ?_⟩
    have h := hnames name (List.mem_of_mem_head? hname)
    exact ⟨h.ne_dots, h.ne_slash⟩

theorem pairwise_filesBelow (ht : t.Regular) (folder : Path) :
    (t.filesBelow folder).Pairwise (·.1 < ·.1) := by
  have hne : (t.filesBelow folder).Pairwise (·.1 ≠ ·.1) := by
    rw [filesBelow, (List.mergeSort_perm _ _).pairwise_iff Ne.symm, List.pairwise_filterMap]
    apply (List.pairwise_map.1 ht.distinct).imp
    rintro e e' hne ⟨p, c⟩ hf ⟨p', c'⟩ hf' heq
    obtain ⟨rfl, -⟩ := fileInside?_eq_some.1 hf
    obtain ⟨rfl, -⟩ := fileInside?_eq_some.1 hf'
    exact hne (congrArg (folder ++ ·) heq)
  have hle : (t.filesBelow folder).Pairwise fun a b => !(b.1 < a.1) := by
    apply List.pairwise_mergeSort
    · intro a b c hab hbc
      rw [Bool.not_eq_true', decide_eq_false_iff_not, List.not_lt] at hab hbc ⊢
      exact List.le_trans hab hbc
    · intro a b
      rw [Bool.or_eq_true, Bool.not_eq_true', Bool.not_eq_true', decide_eq_false_iff_not,
        decide_eq_false_iff_not, List.not_lt, List.not_lt]
      exact List.le_total a.1 b.1
  apply hle.imp₂ _ hne
  intro a b hab hne
  rw [Bool.not_eq_true', decide_eq_false_iff_not, List.not_lt] at hab
  rw [← List.not_le]
  exact fun hba => hne (List.le_antisymm hab hba)

theorem Adds.filesBelow {t' : FileTree} {added : List Path} (h : t.Adds added t') (folder : Path) :
    t'.filesBelow folder = t.filesBelow folder := by
  have hadded : (added.map (·, Entry.folder)).filterMap (fileInside? folder) = [] := by
    rw [List.filterMap_eq_nil_iff]
    intro e he
    obtain ⟨q, -, rfl⟩ := List.mem_map.1 he
    rfl
  rw [FileTree.filesBelow, h.entries, List.filterMap_append, hadded, List.nil_append,
    FileTree.filesBelow]

end FileTree

end ProtoSchema
