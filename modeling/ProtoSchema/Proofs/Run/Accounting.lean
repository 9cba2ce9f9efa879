import ProtoSchema.CommandLine
import ProtoSchema.Proofs.Results
import ProtoSchema.Proofs.Run.Discovery
import ProtoSchema.Proofs.Run.Emission
import ProtoSchema.Proofs.Text.ByteOrder

/-! # Accounting for all files

Every file that a run finds is read with one event. Every file that could be read is settled with one
more. So the summary, and with it the last line of the report, accounts for all files.
-/

namespace ProtoSchema

namespace Event

inductive Reads (f : Path × ByteArray) : Event → Prop
  | parsed (s : Schema) (h : Run.compileFile f.2 = .ok s) :
    Reads f (.parsed (Run.fileIdOf f.1) s.messages.length s.enums.length s.diagnostics)
  | unparsed (error : Error) (h : Run.compileFile f.2 = .error error) :
    Reads f (.unparsed (Run.fileIdOf f.1) error)

/-- The events that settle a file that was read, by what was generated from it. -/
inductive Settles (fileId : String) : Except Error (Option Generated) → Event → Prop
  | skipped : Settles fileId (.ok none) (.skipped fileId)
  | ungenerated (error : Error) : Settles fileId (.error error) (.failed fileId .generation error)
  | collided (g : Generated) (fault : InputFault) :
    Settles fileId (.ok (some g)) (.failed fileId .collision (.input fault))
  | unwritten (g : Generated) (path : String) (fault : StorageFault) :
    Settles fileId (.ok (some g)) (.failed fileId (.writing path) (.storage fault))
  | generated (g : Generated) (path : String) :
    Settles fileId (.ok (some g)) (.generated fileId path)

def parsedId? : Event → Option String
  | parsed fileId .. => some fileId
  | _ => none

def isLast : Event → Bool
  | found _ => false
  | parsed .. => false
  | _ => true

variable {f : Path × ByteArray} {fileId : String} {e : Event}
  {result : Except Error (Option Generated)}

theorem Reads.isLast (h : Reads f e) : e.isLast = !e.isParsed := by
  cases h <;> rfl

theorem Reads.foundCount (h : Reads f e) : e.foundCount = 0 := by
  cases h <;> rfl

theorem Settles.isLast (h : Settles fileId result e) : e.isLast = true := by
  cases h <;> rfl

theorem Settles.isParsed (h : Settles fileId result e) : e.isParsed = false := by
  cases h <;> rfl

theorem Settles.foundCount (h : Settles fileId result e) : e.foundCount = 0 := by
  cases h <;> rfl

theorem isLast_count (e : Event) :
    (if e.isParseFailure then 1 else 0) + (if e.isSkipped then 1 else 0) +
        (if e.isGenerated then 1 else 0) + (if e.isFailure then 1 else 0) +
        (if e.isStorageFailure then 1 else 0) = if e.isLast then 1 else 0 := by
  cases e with
  | found count => rfl
  | parsed fileId messages enums diagnostics => rfl
  | unparsed fileId error => cases error <;> rfl
  | skipped fileId => rfl
  | generated fileId path => rfl
  | failed fileId stage error => cases stage <;> rfl

end Event

section Counting

variable {files : List (Path × ByteArray)} {ids : List String} {reads ends : List Event}
  {results : String → Except Error (Option Generated)}

theorem Summary.ofEvents_isLast (es : List Event) :
    (ofEvents es).parseFailures + (ofEvents es).skipped + (ofEvents es).generated +
      (ofEvents es).failures + (ofEvents es).storageFailures = es.countP Event.isLast := by
  induction es with
  | nil => rfl
  | cons e es ih =>
    have hevent := e.isLast_count
    simp only [ofEvents, List.countP_cons] at ih ⊢
    omega

theorem length_parsedIds (es : List Event) :
    (es.filterMap Event.parsedId?).length = es.countP Event.isParsed := by
  rw [List.length_filterMap_eq_countP]
  apply List.countP_congr
  intro e _
  cases e <;> exact Iff.rfl

theorem countP_reads (h : List.Forall₂ Event.Reads files reads) :
    reads.countP Event.isParsed + reads.countP Event.isLast = files.length := by
  induction h with
  | nil => rfl
  | @cons f e files reads hevent _ ih =>
    rw [List.countP_cons, List.countP_cons, hevent.isLast, List.length_cons, ← ih]
    cases e.isParsed <;> simp <;> omega

theorem countP_isLast_ends
    (h : List.Forall₂ (fun id e => Event.Settles id (results id) e) ids ends) :
    ends.countP Event.isLast = ids.length := by
  rw [h.length_eq, List.countP_eq_length]
  intro e he
  obtain ⟨id, -, hid⟩ := exists_left_of_forall₂ h he
  exact hid.isLast

theorem countP_isParsed_ends
    (h : List.Forall₂ (fun id e => Event.Settles id (results id) e) ids ends) :
    ends.countP Event.isParsed = 0 := by
  rw [List.countP_eq_zero]
  intro e he
  obtain ⟨id, -, hid⟩ := exists_left_of_forall₂ h he
  simp [hid.isParsed]

theorem Summary.ofEvents_found {n : Nat} {es : List Event} (h : ∀ e ∈ es, e.foundCount = 0) :
    (ofEvents (.found n :: es)).found = n := by
  have hrest : es.foldr (fun e n => e.foundCount + n) 0 = 0 := by
    induction es with
    | nil => rfl
    | cons e es ih =>
      rw [List.forall_mem_cons] at h
      rw [List.foldr_cons, h.1, ih h.2]
  change n + es.foldr (fun e n => e.foundCount + n) 0 = n
  rw [hrest, Nat.add_zero]

end Counting

namespace Run

variable {t after : FileTree} {source : Path} {input output : String} {events : List Event}

/-- The files of a run in the order of their paths, the batch of those that could be read, and the
events: one for reading each file, and one for settling each file of the batch. -/
structure Accounts (t : FileTree) (source : Path) (files : List (Path × ByteArray)) (b : Batch)
    (reads ends : List Event) : Prop where
  isInput : ∀ f, f ∈ files ↔ IsInput t source f
  filesOrder : files.Pairwise fun f g => f.1.map Text.utf8 < g.1.map Text.utf8
  areRead : List.Forall₂ Event.Reads files reads
  batch : ∀ id s, b.get? id = some s ↔
    ∃ f, IsInput t source f ∧ fileIdOf f.1 = id ∧ compileFile f.2 = .ok s
  parsed : b.fileIds.Perm (reads.filterMap Event.parsedId?)
  idsOrder : b.fileIds.Pairwise fun id id' => Text.utf8 id < Text.utf8 id'
  areSettled : List.Forall₂ (fun id e => Event.Settles id (b.generate id) e) b.fileIds ends

end Run

/-- The counts of a summary account for all files, of which some could be read. -/
structure Summary.Covers (s : Summary) (files readable : Nat) : Prop where
  found : s.found = files
  parsed : s.parsed = readable
  total : s.found = s.parseFailures + s.skipped + s.generated + s.failures + s.storageFailures
  reported : s.generated + s.skipped + s.failed = files

namespace Run

variable {t after : FileTree} {source : Path} {files : List (Path × ByteArray)} {b : Batch}
  {input output : String} {events reads ends : List Event}

theorem Accounts.covers (h : Accounts t source files b reads ends) :
    (Summary.ofEvents (.found files.length :: reads ++ ends)).Covers files.length
      b.fileIds.length := by
  have hfound : ∀ e ∈ reads ++ ends, e.foundCount = 0 := by
    intro e he
    rcases List.mem_append.1 he with he | he
    · obtain ⟨f, -, hf⟩ := exists_left_of_forall₂ h.areRead he
      exact hf.foundCount
    · obtain ⟨id, -, hid⟩ := exists_left_of_forall₂ h.areSettled he
      exact hid.foundCount
  have hparsed : reads.countP Event.isParsed = b.fileIds.length := by
    rw [← length_parsedIds, h.parsed.length_eq]
  have hlast := Summary.ofEvents_isLast (.found files.length :: reads ++ ends)
  have htotal : (Event.found files.length :: reads ++ ends).countP Event.isLast = files.length := by
    rw [List.cons_append, List.countP_cons_of_neg (by simp [Event.isLast]), List.countP_append,
      countP_isLast_ends h.areSettled, ← hparsed, Nat.add_comm, countP_reads h.areRead]
  rw [htotal] at hlast
  have hcount := Summary.ofEvents_found (n := files.length) hfound
  constructor
  · exact hcount
  · change (Event.found files.length :: reads ++ ends).countP Event.isParsed = b.fileIds.length
    rw [List.cons_append, List.countP_cons_of_neg (by simp [Event.isParsed]), List.countP_append,
      countP_isParsed_ends h.areSettled, hparsed, Nat.add_zero]
  · exact hcount.trans hlast.symm
  · rw [Summary.failed]
    omega

/-- Schema files of every kind: two that share a stem, one that is not text, two that cannot be read,
one without types, one with a reference to nothing, and one whose place is taken by a folder. -/
def mixedFiles : List (Path × ByteArray) := [
  (["a", "user.proto"], "enum Kind \x7b NONE = 0; \x7d".toUTF8),
  (["a-b.proto"], ⟨#[255]⟩),
  (["b", "user.proto"], "enum Kind \x7b NONE = 0; \x7d".toUTF8),
  (["cut.proto"], "enum Kind \x7b".toUTF8),
  (["empty.proto"], "package p;".toUTF8),
  (["host.proto"], "message Host \x7b Missing m = 1; \x7d".toUTF8),
  (["net.proto"], "enum Kind \x7b NONE = 0; \x7d".toUTF8),
  (["one.proto"], "enum Kind \x7b ONE = 1; \x7d".toUTF8)]

def mixedTree : FileTree where
  entries := [(["in"], .folder), (["in", "a"], .folder), (["in", "b"], .folder), (["out"], .folder),
    (["out", "net.g.rs"], .folder)] ++ mixedFiles.map fun f => ("in" :: f.1, .file f.2)

def mixedEvents : List Event := [
  .found 8,
  .parsed "a/user.proto" 0 1 [],
  .unparsed "a-b.proto" (.storage .notUtf8),
  .parsed "b/user.proto" 0 1 [],
  .unparsed "cut.proto" (.grammar ⟨.endOfFile (.word "\x7d"), ⟨1, 12⟩⟩),
  .parsed "empty.proto" 0 0 [],
  .parsed "host.proto" 1 0 [],
  .parsed "net.proto" 0 1 [],
  .unparsed "one.proto" (.defect (.zeroCount "Kind" 0)),
  .generated "a/user.proto" "out/user.g.rs",
  .failed "b/user.proto" .collision (.input (.fileTaken "user.g.rs" "a/user.proto")),
  .skipped "empty.proto",
  .failed "host.proto" .generation (.unresolved "Missing" "Host"),
  .failed "net.proto" (.writing "out/net.g.rs") (.storage .isDirectory)]

theorem regular_mixedTree : mixedTree.Regular := by
  apply FileTree.regular_of_isName
  · decide
  · decide

theorem discover_mixedTree :
    discover mixedTree ["in"] = mixedFiles.map fun f => (fileIdOf f.1, f.2) := by
  have hfiles : mixedTree.entries.filterMap (FileTree.fileInside? ["in"]) = mixedFiles := rfl
  apply discover_eq hfiles
  · simp only [mixedFiles]
    decide
  · simp only [mixedFiles]
    decide

def kindSchema : Schema where
  enums := [⟨"Kind", ⟨1, 6⟩, [⟨"NONE", 0, false⟩]⟩]

def hostSchema : Schema where
  messages := [⟨"Host", ⟨1, 9⟩, [⟨"m", ⟨1, 24⟩, "Missing", 1, .implicit, false⟩], [], [], []⟩]

theorem compile_mixedTree : ∃ after, compile mixedTree "in" "out" = (.ok mixedEvents, after) := by
  have hsource : mixedTree.folderNamed? "in" = some ["in"] := by decide +kernel
  have houtput : mixedTree.makeFolders (Route.ofText "out") = (.ok ["out"], mixedTree) := rfl
  have hkind : Schema.compile "enum Kind \x7b NONE = 0; \x7d" = .ok kindSchema := by decide +kernel
  have hhost : Schema.compile "message Host \x7b Missing m = 1; \x7d" = .ok hostSchema := by
    decide +kernel
  have hempty : Schema.compile "package p;" = .ok { package := "p" } := by decide +kernel
  have hcut : Schema.compile "enum Kind \x7b" =
      .error (.grammar ⟨.endOfFile (.word "\x7d"), ⟨1, 12⟩⟩) := by decide +kernel
  have hone : Schema.compile "enum Kind \x7b ONE = 1; \x7d" =
      .error (.defect (.zeroCount "Kind" 0)) := by decide +kernel
  have hbytes : compileFile ⟨#[255]⟩ = .error (.storage .notUtf8) := by decide +kernel
  simp only [compile, hsource, houtput, discover_mixedTree, mixedFiles, batchOf, List.map_cons,
    List.map_nil, List.filterMap_cons, List.filterMap_nil, compiled?, readEvent, compileFile_toUTF8,
    hkind, hhost, hempty, hcut, hone, hbytes, Except.toOption, Option.map_some, Option.map_none]
  exact ⟨_, rfl⟩

end Run

end ProtoSchema
