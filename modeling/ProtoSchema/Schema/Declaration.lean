import ProtoSchema.Schema.Statement
import ProtoSchema.Schema.Word

/-! # Declarations

The grammar of a schema file. Every statement has a reader; the blocks of messages, oneofs, enums and
services are read by `statements`. A schema is what its declarations say, in order.
-/

namespace ProtoSchema

open Reader

namespace Reader

def identifier (description : String) : Reader Token := token Word.isIdentifier (.kind description)

def typeName (description : String) : Reader Token := token Word.isTypeName (.kind description)

def stringLiteral (description : String) : Reader String := do
  let t ← token Word.isStringLiteral (.kind description)
  return Word.literalValue t.text

def integer (description : String) : Reader Int := do
  let t ← token Word.isInteger (.kind description)
  match Word.integerValue? t.text with
  | some n => return n
  | none => failAt t.position (.outOfRange t.text)

/-- The options in brackets after a field or value: whether they say that it is deprecated. The words
inside `depth` open braces are passed over. -/
def optionsFrom (deprecated : Bool) (depth : Nat) : Reader Bool
  | stop, [] => want (.word (if depth = 0 then "]" else "\x7d")) stop []
  | stop, t :: ts =>
    if depth ≠ 0 then
      if t.text == "\x7b" then optionsFrom deprecated (depth + 1) stop ts
      else if t.text == "\x7d" then optionsFrom deprecated (depth - 1) stop ts
      else optionsFrom deprecated depth stop ts
    else if t.text == "]" then .ok deprecated ts
    else if t.text == "deprecated" then
      match ts with
      | [] => want (.word "]") stop []
      | e :: rest =>
        if e.text == "=" then
          match rest with
          | [] => want (.word "]") stop []
          | v :: after => optionsFrom (v.text != "false") 0 stop after
        else optionsFrom true 0 stop (e :: rest)
    else if t.text == "\x7b" then optionsFrom deprecated 1 stop ts
    else if t.text == ";" || t.text == "\x7d" then want (.word "]") stop (t :: ts)
    else optionsFrom deprecated 0 stop ts

def options : Reader Bool := do
  if ← optionalWord "[" then optionsFrom false 0 else return false

end Reader

/-- The word in front of a field's type. A oneof's members are optional by nature. -/
def Label.reader (inOneof : Bool) : Reader Label := do
  let unmarked : Label := if inOneof then .optional else .implicit
  if ← isNext "repeated" then
    if inOneof then fail .repeatedInOneof
    else
      let _ ← word "repeated"
      return .repeated
  else if ← optionalWord "optional" then return .optional
  else
    let _ ← optionalWord "required"
    return unmarked

/-- Forms of field that are not part of the language. -/
def Field.unsupported? : List Token → Option String
  | [] => none
  | t :: ts =>
    if t.text == "map" && ts.head?.any (·.text == "<") then some "Map fields"
    else if t.text == "group" then some "Groups"
    else none

/-- `[optional | repeated] type name = number [options];` -/
def Field.reader (inOneof : Bool) : Reader Field := do
  let label ← Label.reader inOneof
  match ← (fun _ ts => .ok (Field.unsupported? ts) ts : Reader (Option String)) with
  | some what => fail (.unsupported what)
  | none =>
    let type ← typeName "field type"
    let name ← identifier "field name"
    let _ ← word "="
    let number ← integer "field number"
    let deprecated ← options
    let _ ← word ";"
    return ⟨name.text, name.position, type.text, number, label, deprecated⟩

/-- `name = number [options];` -/
def EnumValue.reader : Reader EnumValue := do
  let name ← identifier "enum value name"
  let _ ← word "="
  let number ← integer "enum value number"
  let deprecated ← options
  let _ ← word ";"
  return ⟨name.text, number, deprecated⟩

/-- `rpc name (request) returns (response)` and a semicolon or a block. -/
def Rpc.reader : Reader Rpc := do
  let start ← word "rpc"
  let name ← identifier "rpc name"
  let _ ← word "("
  let streamsIn ← optionalWord "stream"
  let request ← typeName "request type"
  let _ ← word ")"
  let _ ← word "returns"
  let _ ← word "("
  let streamsOut ← optionalWord "stream"
  let response ← typeName "response type"
  let _ ← word ")"
  if ← isNext "\x7b" then skipBlock
  else
    let _ ← word ";"
  if streamsIn || streamsOut then failAt start.position .streaming
  else return ⟨name.text, request.text, response.text⟩

def nothing {ι : Type} (r : Reader Unit) : Reader (Noted (Option ι)) := do
  r
  return ⟨none, []⟩

/-- A statement that declares one thing and skips nothing inside it. -/
def declares {ι : Type} (r : Reader ι) : Reader (Noted (Option ι)) := do
  let x ← r
  return ⟨some x, []⟩

def byWord {α : Type} (choose : String → Reader α) : Reader α := fun stop ts =>
  choose (ts.head?.elim "" (·.text)) stop ts

/-- `keyword name` and the statements of a block. -/
def block {ι : Type} (keyword description : String) (statement : Reader (Noted (Option ι))) :
    Reader (Token × Noted (List ι)) := do
  let _ ← word keyword
  let name ← identifier description
  let _ ← word "\x7b"
  let items ← statements true statement
  return (name, items)

def semicolon : Reader Unit := do
  let _ ← word ";"

def Oneof.statement : Reader (Noted (Option Field)) :=
  byWord fun w =>
    if w = "option" then nothing skipStatement
    else if w = ";" then nothing semicolon
    else declares (Field.reader true)

def Oneof.reader : Reader (Noted Oneof) := do
  let (name, items) ← block "oneof" "oneof name" Oneof.statement
  return ⟨⟨name.text, items.value⟩, items.notes⟩

def Enum.statement : Reader (Noted (Option EnumValue)) :=
  byWord fun w =>
    if w = "option" || w = "reserved" then nothing skipStatement
    else if w = ";" then nothing semicolon
    else declares EnumValue.reader

def Enum.reader : Reader (Noted Enum) := do
  let (name, items) ← block "enum" "enum name" Enum.statement
  return ⟨⟨name.text, name.position, items.value⟩, items.notes⟩

def Service.statement : Reader (Noted (Option Rpc)) :=
  byWord fun w =>
    if w = "option" then nothing skipStatement
    else if w = ";" then nothing semicolon
    else if w = "rpc" then declares Rpc.reader
    else fail (.unexpected w)

def Service.reader : Reader (Noted Service) := do
  let (name, items) ← block "service" "service name" Service.statement
  return ⟨⟨name.text, items.value⟩, items.notes⟩

inductive Member where
  | field (f : Field)
  | oneof (o : Oneof)
  | message (m : Message)
  | enum (e : Enum)

namespace Member

def field? : Member → Option Field
  | field f => some f
  | _ => none

def oneof? : Member → Option Oneof
  | oneof o => some o
  | _ => none

def message? : Member → Option Message
  | message m => some m
  | _ => none

def enum? : Member → Option Enum
  | enum e => some e
  | _ => none

/-- Keeps the notes of a declaration while it becomes a member. -/
def noted {α : Type} (wrap : α → Member) (r : Reader (Noted α)) : Reader (Noted (Option Member)) := do
  let x ← r
  return ⟨some (wrap x.value), x.notes⟩

/-- A statement inside a message, given a reader of nested messages. -/
def statement (nested : Reader (Noted Message)) : Reader (Noted (Option Member)) :=
  byWord fun w =>
    if w = "message" then noted message nested
    else if w = "enum" then noted enum Enum.reader
    else if w = "oneof" then noted oneof Oneof.reader
    else if w = "option" || w = "reserved" then nothing skipStatement
    else if w = "extensions" then fail (.unsupported "Extension ranges")
    else if w = "extend" then fail (.unsupported "Extend blocks")
    else if w = ";" then nothing semicolon
    else do
      let f ← Field.reader false
      return ⟨some (field f), []⟩

end Member

/-- A message with the given members, each kind in order. -/
def Message.ofMembers (name : Token) (members : List Member) : Message where
  name := name.text
  position := name.position
  fields := members.filterMap Member.field?
  oneofs := members.filterMap Member.oneof?
  messages := members.filterMap Member.message?
  enums := members.filterMap Member.enum?

/-- A message whose blocks nest at most `depth` deep. -/
def Message.readerWithin : Nat → Reader (Noted Message)
  | 0 => want (.word "message")
  | depth + 1 => do
    let (name, items) ← block "message" "message name" (Member.statement (readerWithin depth))
    return ⟨Message.ofMembers name items.value, items.notes⟩

/-- A message. No more blocks can be open than there are tokens. -/
def Message.reader : Reader (Noted Message) := fun stop ts => Message.readerWithin ts.length stop ts

/-- What a statement at the top of a file declares. -/
inductive Declaration where
  | dialect (name : String)
  | package (name : String)
  | path (imported : String)
  | moduleName (name : String)
  | message (m : Message)
  | enum (e : Enum)
  | service (s : Service)

namespace Declaration

def dialect? : Declaration → Option String
  | dialect name => some name
  | _ => none

def package? : Declaration → Option String
  | package name => some name
  | _ => none

def path? : Declaration → Option String
  | path imported => some imported
  | _ => none

def moduleName? : Declaration → Option String
  | moduleName name => some name
  | _ => none

def message? : Declaration → Option Message
  | message m => some m
  | _ => none

def enum? : Declaration → Option Enum
  | enum e => some e
  | _ => none

def service? : Declaration → Option Service
  | service s => some s
  | _ => none

/-- `syntax = "name";` or `edition = "name";` -/
def dialectReader : Reader Declaration := do
  let _ ← token (fun _ => true) (.kind "")
  let _ ← word "="
  let name ← stringLiteral "string literal"
  let _ ← word ";"
  return dialect name

def packageReader : Reader Declaration := do
  let _ ← word "package"
  let name ← token Word.isPackageName (.kind "package name")
  let _ ← word ";"
  return package name.text

def pathReader : Reader Declaration := do
  let _ ← word "import"
  let isPublic ← optionalWord "public"
  unless isPublic do
    let _ ← optionalWord "weak"
  let imported ← stringLiteral "import path"
  let _ ← word ";"
  return path imported

/-- `option rust_module = "name";` names the module; any other option is passed over. -/
def optionReader : Reader (Noted (Option Declaration)) := fun stop ts =>
  match ts with
  | _ :: key :: eq :: value :: semi :: rest =>
    if key.text == "rust_module" && eq.text == "=" && Word.isStringLiteral value.text
        && semi.text == ";" then
      .ok ⟨some (moduleName (Word.literalValue value.text)), []⟩ rest
    else nothing skipStatement stop ts
  | _ => nothing skipStatement stop ts

def noted {α : Type} (wrap : α → Declaration) (r : Reader (Noted α)) :
    Reader (Noted (Option Declaration)) := do
  let x ← r
  return ⟨some (wrap x.value), x.notes⟩

def statement : Reader (Noted (Option Declaration)) :=
  byWord fun w =>
    if w = "syntax" || w = "edition" then declares dialectReader
    else if w = "package" then declares packageReader
    else if w = "import" then declares pathReader
    else if w = "option" then optionReader
    else if w = "message" then noted message Message.reader
    else if w = "enum" then noted enum Enum.reader
    else if w = "service" then noted service Service.reader
    else if w = "extend" then fail (.unsupported "Extend blocks")
    else if w = ";" then nothing semicolon
    else fail (.unexpected w)

end Declaration

namespace Schema

/-- The schema its declarations describe; of several packages or module names the last counts. -/
def ofDeclarations (ds : List Declaration) (notes : List Diagnostic) : Schema where
  dialect := (ds.filterMap Declaration.dialect?).getLast?
  package := (ds.filterMap Declaration.package?).getLastD ""
  moduleName := (ds.filterMap Declaration.moduleName?).getLast?
  imports := ds.filterMap Declaration.path?
  messages := ds.filterMap Declaration.message?
  enums := ds.filterMap Declaration.enum?
  services := ds.filterMap Declaration.service?
  diagnostics := notes

inductive ReadError where
  | noEnd
  | unfinished (why : Diagnostic)
deriving DecidableEq, Repr

/-- Reads a token list up to its first end token; the list has to close with one. -/
def ofTokens (tokens : List Token) : Except ReadError Schema :=
  if tokens.getLast?.any Token.isEnd then
    let body := tokens.takeWhile (!·.isEnd)
    let stop := (tokens.dropWhile (!·.isEnd)).head?.elim Position.start (·.position)
    match statements false Declaration.statement stop body with
    | .ok ds _ => .ok (ofDeclarations ds.value ds.notes)
    | .failed why _ => .error (.unfinished why)
  else .error .noEnd

end Schema

end ProtoSchema
