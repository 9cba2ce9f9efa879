import ProtoSchema.FileTree
import ProtoSchema.Source

/-! # Runs

A run compiles every schema file below an input folder and writes the generated files into an output
folder. All files are read before any code is generated, since a type may stand in another file than
the reference to it. What happens to each file is an event; the summary counts events.
-/

namespace ProtoSchema

/-- The point at which a file that was read is lost. -/
inductive Stage where
  | generation
  | collision
  | writing (path : String)
deriving DecidableEq, Repr

inductive Event where
  | found (count : Nat)
  | parsed (fileId : String) (messages enums : Nat) (diagnostics : List Diagnostic)
  | unparsed (fileId : String) (error : Error)
  | skipped (fileId : String)
  | generated (fileId path : String)
  | failed (fileId : String) (stage : Stage) (error : Error)
deriving DecidableEq, Repr

namespace Event

def isParsed : Event → Bool
  | parsed .. => true
  | _ => false

/-- A file that could not be read as a schema. -/
def isParseFailure : Event → Bool
  | unparsed _ (.storage _) => false
  | unparsed .. => true
  | _ => false

def isSkipped : Event → Bool
  | skipped _ => true
  | _ => false

def isGenerated : Event → Bool
  | generated .. => true
  | _ => false

/-- A file whose code could not be made or had no place. -/
def isFailure : Event → Bool
  | failed _ (.writing _) _ => false
  | failed .. => true
  | _ => false

/-- A file whose contents could not be read or written. -/
def isStorageFailure : Event → Bool
  | unparsed _ (.storage _) => true
  | failed _ (.writing _) _ => true
  | _ => false

def foundCount : Event → Nat
  | found count => count
  | _ => 0

end Event

structure Summary where
  found : Nat
  parsed : Nat
  parseFailures : Nat
  skipped : Nat
  generated : Nat
  failures : Nat
  storageFailures : Nat
deriving DecidableEq, Repr

namespace Summary

def ofEvents (es : List Event) : Summary where
  found := es.foldr (fun e n => e.foundCount + n) 0
  parsed := es.countP Event.isParsed
  parseFailures := es.countP Event.isParseFailure
  skipped := es.countP Event.isSkipped
  generated := es.countP Event.isGenerated
  failures := es.countP Event.isFailure
  storageFailures := es.countP Event.isStorageFailure

def failed (s : Summary) : Nat := s.parseFailures + s.failures + s.storageFailures

end Summary

namespace Run

def fileIdOf (p : Path) : String := "/".intercalate p

def isSchemaFile (p : Path) : Bool :=
  (p.getLast?.bind Path.extension?) == some "proto".toList

/-- The schema files below the input folder, by their ids, in the order of their paths. -/
def discover (t : FileTree) (input : Path) : List (String × ByteArray) :=
  ((t.filesBelow input).filter fun f => isSchemaFile f.1).map fun f => (fileIdOf f.1, f.2)

def compileFile (contents : ByteArray) : Except Error Schema :=
  match FileTree.textOf contents with
  | .ok text => Schema.compile text
  | .error fault => .error (.storage fault)

def readEvent (f : String × ByteArray) : Event :=
  match compileFile f.2 with
  | .ok s => .parsed f.1 s.messages.length s.enums.length s.diagnostics
  | .error e => .unparsed f.1 e

def compiled? (f : String × ByteArray) : Option (String × Schema) :=
  (compileFile f.2).toOption.map (f.1, ·)

def batchOf (files : List (String × ByteArray)) : Batch := Batch.ofList (files.filterMap compiled?)

/-- What has been written so far: the tree, and which schema file each output and module is from. -/
structure Progress where
  tree : FileTree
  outputs : List (String × String) := []
  modules : List (String × String) := []

namespace Progress

/-- The schema file that has an output name or a module name already. -/
def taken? (p : Progress) (g : Generated) : Option InputFault :=
  match p.outputs.lookup g.fileName with
  | some owner => some (.fileTaken g.fileName owner)
  | none => (p.modules.lookup g.moduleName).map (.moduleTaken g.moduleName)

end Progress

/-- Where the generated files go: the folder, and the text that named it. -/
structure Destination where
  folder : Path
  text : String
deriving DecidableEq, Repr

def emit (output : Destination) (p : Progress) :
    String × Except Error (Option Generated) → Event × Progress
  | (fileId, .error e) => (.failed fileId .generation e, p)
  | (fileId, .ok none) => (.skipped fileId, p)
  | (fileId, .ok (some g)) =>
    match p.taken? g with
    | some fault => (.failed fileId .collision (.input fault), p)
    | none =>
      let path := Path.join output.text g.fileName
      match p.tree.write (output.folder ++ [g.fileName]) g.code with
      | .error fault => (.failed fileId (.writing path) (.storage fault), p)
      | .ok tree =>
        (.generated fileId path,
          ⟨tree, (g.fileName, fileId) :: p.outputs, (g.moduleName, fileId) :: p.modules⟩)

def emitAll (output : Destination) (p : Progress) :
    List (String × Except Error (Option Generated)) → List Event × Progress
  | [] => ([], p)
  | r :: rs =>
    let first := emit output p r
    let rest := emitAll output first.2 rs
    (first.1 :: rest.1, rest.2)

/-- Runs on a tree: the events, and the tree afterwards. Fails if there is no input folder or the
output folder cannot be made; folders that were made on the way to it stay. -/
def compile (t : FileTree) (input output : String) : Except Error (List Event) × FileTree :=
  match t.folderNamed? input with
  | none => (.error (.input (.noInputDirectory input)), t)
  | some source =>
    match t.makeFolders (Route.ofText output) with
    | (.error fault, made) => (.error (.storage fault), made)
    | (.ok folder, made) =>
      let files := discover made source
      let emitted := emitAll ⟨folder, output⟩ ⟨made, [], []⟩ (batchOf files).generateAll
      (.ok (.found files.length :: files.map readEvent ++ emitted.1), emitted.2.tree)

end Run

end ProtoSchema
