import ProtoSchema.Batch
import ProtoSchema.Error

/-! # Type references

A reference in a schema is a scalar, or it names a message or enum by some of its trailing name
segments. It is looked for in the enclosing scopes from the inside out, then anywhere in its own file,
then in the other files of the batch, where imports settle a choice between several.
-/

namespace ProtoSchema

inductive Scalar where
  | double | float
  | int32 | int64 | uint32 | uint64 | sint32 | sint64
  | fixed32 | fixed64 | sfixed32 | sfixed64
  | bool | string | bytes | timestamp
deriving DecidableEq, Repr

inductive JsonForm where
  | int64
  | bytes
  | timestamp
deriving DecidableEq, Repr

namespace JsonForm

def name : JsonForm → String
  | int64 => "int64"
  | bytes => "bytes"
  | timestamp => "timestamp"

end JsonForm

namespace Scalar

def names : List (String × Scalar) :=
  [("double", double), ("float", float), ("int32", int32), ("int64", int64), ("uint32", uint32),
    ("uint64", uint64), ("sint32", sint32), ("sint64", sint64), ("fixed32", fixed32),
    ("fixed64", fixed64), ("sfixed32", sfixed32), ("sfixed64", sfixed64), ("bool", bool),
    ("string", string), ("bytes", bytes)]

def withoutDots (reference : String) : List Char := reference.toList.dropWhile (· = '.')

/-- The scalar a reference names; the timestamp is written with its package and any leading dots. -/
def ofName? (reference : String) : Option Scalar :=
  match names.lookup reference with
  | some s => some s
  | none =>
    if withoutDots reference = "google.protobuf.Timestamp".toList then some timestamp else none

def rustType : Scalar → String
  | double => "f64"
  | float => "f32"
  | int32 | sint32 | sfixed32 => "i32"
  | int64 | sint64 | sfixed64 => "i64"
  | uint32 | fixed32 => "u32"
  | uint64 | fixed64 => "u64"
  | bool => "bool"
  | string => "::std::string::String"
  | bytes => "::std::vec::Vec<u8>"
  | timestamp => "::brine_proto::Timestamp"

def jsonForm? : Scalar → Option JsonForm
  | int64 | sint64 | sfixed64 | uint64 | fixed64 => some .int64
  | bytes => some .bytes
  | timestamp => some .timestamp
  | _ => none

end Scalar

/-- Where a message or enum is declared: its file, and its name behind those of the messages around
it. -/
structure TypePath where
  fileId : String
  segments : List String
deriving DecidableEq, Repr

namespace TypePath

def describe (p : TypePath) : String := p.fileId ++ ":" ++ ".".intercalate p.segments

end TypePath

inductive TypeDef where
  | message (m : Message)
  | enum (e : Enum)

namespace TypeDef

def name : TypeDef → String
  | message m => m.name
  | enum e => e.name

def position : TypeDef → Position
  | message m => m.position
  | enum e => e.position

end TypeDef

/-- The type with the given name segments below the given types; an enum goes before a message. -/
def findType (messages : List Message) (enums : List Enum) : List String → Option TypeDef
  | [] => none
  | [name] =>
    match enums.find? (·.name == name) with
    | some e => some (.enum e)
    | none => (messages.find? (·.name == name)).map .message
  | name :: rest =>
    match messages.find? (·.name == name) with
    | some m => findType m.messages m.enums rest
    | none => none

def walkEnums (scope : List String) (enums : List Enum) : List (List String × TypeDef) :=
  enums.map fun e => (scope ++ [e.name], .enum e)

mutual

/-- A message and the types inside it, outer ones first. -/
def walkMessage (scope : List String) : Message → List (List String × TypeDef)
  | ⟨name, position, fields, oneofs, messages, enums⟩ =>
    (scope ++ [name], .message ⟨name, position, fields, oneofs, messages, enums⟩)
      :: (walkMessages (scope ++ [name]) messages ++ walkEnums (scope ++ [name]) enums)

def walkMessages (scope : List String) : List Message → List (List String × TypeDef)
  | [] => []
  | m :: ms => walkMessage scope m ++ walkMessages scope ms

end

namespace Schema

def find? (s : Schema) (segments : List String) : Option TypeDef :=
  findType s.messages s.enums segments

def types (s : Schema) : List (List String × TypeDef) :=
  walkMessages [] s.messages ++ walkEnums [] s.enums

/-- The types of a file that have the given name, at any depth. -/
def named (s : Schema) (name : String) : List (List String × TypeDef) :=
  s.types.filter fun t => t.1.getLast? == some name

end Schema

def segmentsOf (cs : List Char) : List String := (Naming.splitAt '.' cs).map String.ofList

def dropLeading? {α : Type} [DecidableEq α] : List α → List α → Option (List α)
  | [], rest => some rest
  | _ :: _, [] => none
  | a :: as, b :: bs => if a = b then dropLeading? as bs else none

namespace Schema

def packageSegments (s : Schema) : List String :=
  if s.package.isEmpty then [] else segmentsOf s.package.toList

/-- The type whose full name, package included, has the given segments. -/
def findQualified? (s : Schema) (segments : List String) : Option (List String × TypeDef) := do
  let inner ← dropLeading? s.packageSegments segments
  let d ← s.find? inner
  return (inner, d)

/-- Whether one of a file's imports means the given file; either path may be the longer one. -/
def importsFile (s : Schema) (fileId : String) : Bool :=
  s.imports.any fun path =>
    path == fileId || ('/' :: path.toList).isSuffixOf fileId.toList
      || ('/' :: fileId.toList).isSuffixOf path.toList

end Schema

inductive Resolved where
  | scalar (s : Scalar)
  | message (path : TypePath) (m : Message)
  | enum (path : TypePath) (e : Enum)

namespace Resolved

def ofDef (fileId : String) (segments : List String) : TypeDef → Resolved
  | .message m => message ⟨fileId, segments⟩ m
  | .enum e => enum ⟨fileId, segments⟩ e

end Resolved

structure Candidate where
  path : TypePath
  definition : TypeDef

namespace Candidate

def ofFile (fileId : String) (t : List String × TypeDef) : Candidate := ⟨⟨fileId, t.1⟩, t.2⟩

def resolved (c : Candidate) : Resolved := Resolved.ofDef c.path.fileId c.path.segments c.definition

end Candidate

/-- A reference cut into its segments; a leading dot makes it absolute. -/
structure Reference where
  text : String
  absolute : Bool
  segments : List String
deriving DecidableEq, Repr

namespace Reference

def ofText (text : String) : Reference where
  text := text
  absolute := text.toList.head? == some '.'
  segments := segmentsOf (Scalar.withoutDots text)

def origin (fileId : String) (scope : List String) : String :=
  if scope.isEmpty then fileId else ".".intercalate scope

def enclosing (scope : List String) : List (List String) :=
  ((List.range (scope.length + 1)).map scope.take).reverse

def inScopes? (s : Schema) (scope segments : List String) : Option (List String × TypeDef) :=
  (enclosing scope).findSome? fun outer => (s.find? (outer ++ segments)).map (outer ++ segments, ·)

def offers (r : Reference) (fileId : String) (s : Schema) : List Candidate :=
  match s.findQualified? r.segments with
  | some t => [.ofFile fileId t]
  | none =>
    if r.absolute then []
    else
      match s.find? r.segments, r.segments with
      | some d, _ => [⟨⟨fileId, r.segments⟩, d⟩]
      | none, [name] => (s.named name).map (.ofFile fileId)
      | none, _ => []

/-- What the other files of the batch offer, in file order. -/
def candidates (b : Batch) (fileId : String) (r : Reference) : List Candidate :=
  (b.files.filter (·.1 ≠ fileId)).flatMap fun f => r.offers f.1 f.2

def ambiguity (r : Reference) (fileId : String) (scope : List String) (cs : List Candidate) : Error :=
  .ambiguous r.text (origin fileId scope) (cs.map (·.path.describe))

def choose (r : Reference) (s : Schema) (fileId : String) (scope : List String)
    (cs : List Candidate) : Except Error Resolved :=
  match cs with
  | [] => .error (.unresolved r.text (origin fileId scope))
  | [c] => .ok c.resolved
  | _ =>
    match cs.filter fun c => s.importsFile c.path.fileId with
    | [c] => .ok c.resolved
    | _ => .error (r.ambiguity fileId scope cs)

/-- What the file of a reference says about it: nothing, a type, or that it is ambiguous. -/
def local? (r : Reference) (s : Schema) (fileId : String) (scope : List String) :
    Except Error (Option Candidate) :=
  let qualified := (s.findQualified? r.segments).map (Candidate.ofFile fileId)
  if r.absolute then .ok qualified
  else
    match inScopes? s scope r.segments with
    | some t => .ok (some (.ofFile fileId t))
    | none =>
      match r.segments with
      | [name] =>
        match s.named name with
        | [] => .ok qualified
        | [t] => .ok (some (.ofFile fileId t))
        | ts => .error (r.ambiguity fileId scope (ts.map (.ofFile fileId)))
      | _ => .ok qualified

end Reference

namespace Batch

/-- Resolves a reference as written in a file, inside the message with the given name segments. -/
def resolve (b : Batch) (reference fileId : String) (scope : List String) :
    Except Error Resolved :=
  match Scalar.ofName? reference with
  | some s => .ok (.scalar s)
  | none =>
    match b.get? fileId with
    | none => .error (.input (.unknownFile fileId))
    | some s =>
      let r := Reference.ofText reference
      match r.local? s fileId scope with
      | .error e => .error e
      | .ok (some c) => .ok c.resolved
      | .ok none => r.choose s fileId scope (r.candidates b fileId)

end Batch

end ProtoSchema
