import ProtoSchema.Naming
import ProtoSchema.Schema

/-! # Batches

The schema files of one run under their file ids, which are paths below the input directory. Ids are
distinct and in order, so the files of a batch have one order only.
-/

namespace ProtoSchema

/-- Puts an entry into an ordered list, in place of one with the same key. -/
def insertByKey {α : Type} (key : String) (value : α) : List (String × α) → List (String × α)
  | [] => [(key, value)]
  | e :: rest =>
    if key < e.1 then (key, value) :: e :: rest
    else if key = e.1 then (key, value) :: rest
    else e :: insertByKey key value rest

theorem mem_insertByKey {α : Type} {key : String} {value : α} {entries : List (String × α)}
    {x : String × α} (h : x ∈ insertByKey key value entries) : x = (key, value) ∨ x ∈ entries := by
  fun_induction insertByKey key value entries with
  | case1 => simpa using h
  | case2 e rest _ => simpa using h
  | case3 e rest _ _ =>
    rcases List.mem_cons.1 h with h | h
    · exact .inl h
    · exact .inr (List.mem_cons_of_mem _ h)
  | case4 e rest _ _ ih =>
    rcases List.mem_cons.1 h with h | h
    · exact .inr (h ▸ List.mem_cons_self)
    · exact (ih h).imp_right (List.mem_cons_of_mem _)

theorem insertByKey_sorted {α : Type} {key : String} {value : α} {entries : List (String × α)}
    (h : entries.Pairwise (·.1 < ·.1)) : (insertByKey key value entries).Pairwise (·.1 < ·.1) := by
  fun_induction insertByKey key value entries with
  | case1 => simp
  | case2 e rest hlt =>
    refine List.pairwise_cons.2 ⟨fun x hx => ?_, h⟩
    rcases List.mem_cons.1 hx with rfl | hx
    · exact hlt
    · exact String.lt_trans hlt ((List.pairwise_cons.1 h).1 x hx)
  | case3 e rest _ heq =>
    subst heq
    exact List.pairwise_cons.2 ⟨(List.pairwise_cons.1 h).1, (List.pairwise_cons.1 h).2⟩
  | case4 e rest hlt hne ih =>
    refine List.pairwise_cons.2 ⟨fun x hx => ?_, ih (List.pairwise_cons.1 h).2⟩
    rcases mem_insertByKey hx with rfl | hx
    · refine Decidable.byContradiction fun hnot => hne ?_
      exact String.le_antisymm (String.not_lt.1 hnot) (String.not_lt.1 hlt)
    · exact (List.pairwise_cons.1 h).1 x hx

structure Batch where
  files : List (String × Schema)
  sorted : files.Pairwise (·.1 < ·.1)

namespace Batch

def empty : Batch := ⟨[], .nil⟩

def insert (b : Batch) (fileId : String) (s : Schema) : Batch :=
  ⟨insertByKey fileId s b.files, insertByKey_sorted b.sorted⟩

/-- The batch of the given files; of two with one id the later counts. -/
def ofList (files : List (String × Schema)) : Batch :=
  files.foldl (fun b f => b.insert f.1 f.2) empty

def get? (b : Batch) (fileId : String) : Option Schema := b.files.lookup fileId

def erase (b : Batch) (fileId : String) : Batch :=
  ⟨b.files.filter (·.1 ≠ fileId), b.sorted.filter _⟩

def fileIds (b : Batch) : List String := b.files.map (·.1)

def size (b : Batch) : Nat := b.files.length

def isEmpty (b : Batch) : Bool := b.files.isEmpty

/-- The module that holds what a file declares: the one it asks for, or else one named like it. -/
def moduleName (b : Batch) (fileId : String) : String :=
  match (b.get? fileId).bind (·.moduleName) with
  | some name => Naming.moduleName name
  | none => Naming.moduleName (Naming.fileStem fileId)

end Batch

end ProtoSchema
