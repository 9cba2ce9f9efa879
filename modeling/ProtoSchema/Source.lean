import ProtoSchema.Plan

/-! # Source text

Writes a plan as Rust source. A text is a list of lines with their depth; blocks are a head, deeper
lines and a closing brace. Blank lines separate items, and none is left at the end of the file.
-/

namespace ProtoSchema

structure Line where
  depth : Nat
  text : String
deriving DecidableEq, Repr

namespace Line

def render (l : Line) : String :=
  if l.text.isEmpty then "" else String.ofList (List.replicate (4 * l.depth) ' ') ++ l.text

end Line

namespace Source

def line (text : String) : Line := ⟨0, text⟩

def blank : Line := line ""

def deeper (ls : List Line) : List Line := ls.map fun l => { l with depth := l.depth + 1 }

/-- A head that ends in an opening brace, and a body. -/
def braces (head : String) (body : List Line) : List Line :=
  line (head ++ " \x7b") :: deeper body ++ [line "\x7d"]

/-- The lines of a file, each ended; blank lines at the end are left out. -/
def render (ls : List Line) : String :=
  let kept := (ls.reverse.dropWhile (·.text.isEmpty)).reverse
  "\n".intercalate (kept.map Line.render) ++ "\n"

def commaList (items : List String) : String := ", ".intercalate items

/-- The key of a field in JSON, and its schema name where that differs. -/
def keyAttributes (f : Field) : List String :=
  let key := s!"rename = \"{Naming.jsonName f.name}\""
  if Naming.jsonName f.name = f.name then [key] else [key, s!"alias = \"{f.name}\""]

def formAttribute (variant : String) (base : BaseType) : List String :=
  match base.jsonForm? with
  | some form => [s!"with = \"::brine_proto::json::{form.name}{variant}\""]
  | none => []

def boxText (boxed : Bool) (base : String) : String :=
  if boxed then s!"::std::boxed::Box<{base}>" else base

def optionText (base : String) : String := s!"::core::option::Option<{base}>"

/-- When a field is left out of its object, and which helper module writes it. -/
def storageAttributes (p : FieldPlan) : List String :=
  match p.field.label, p.base.isMessage with
  | .repeated, _ =>
    "skip_serializing_if = \"::std::vec::Vec::is_empty\"" :: formAttribute "::repeated" p.base
  | .implicit, true => ["skip_serializing_if = \"::core::option::Option::is_none\""]
  | .optional, true => []
  | .optional, false => formAttribute "::option" p.base
  | .implicit, false =>
    "skip_serializing_if = \"::brine_proto::is_default\"" :: formAttribute "" p.base

def fieldType (p : FieldPlan) : String :=
  match p.field.label, p.base.isMessage with
  | .repeated, _ => s!"::std::vec::Vec<{p.base.text}>"
  | _, true => optionText (boxText p.boxed p.base.text)
  | .optional, false => optionText p.base.text
  | .implicit, false => p.base.text

def labelText : Label → String
  | .repeated => "repeated "
  | .optional => "optional "
  | .implicit => ""

def deprecation (f : Field) : List Line := if f.deprecated then [line "#[deprecated]"] else []

def field (p : FieldPlan) : List Line :=
  [line s!"/// `{labelText p.field.label}{p.field.type} {p.field.name} = {p.field.number}`"]
    ++ deprecation p.field
    ++ [line s!"#[serde({commaList (keyAttributes p.field ++ storageAttributes p)})]",
      line s!"pub {Naming.fieldIdent p.field.name}: {fieldType p},"]

/-- A oneof's enum seen from the module of its struct. -/
def oneofPath (m : MessagePlan) (o : OneofPlan) : String :=
  Naming.moduleIdent m.name ++ "::" ++ o.ident

def oneofField (m : MessagePlan) (o : OneofPlan) : List Line :=
  let path := oneofPath m o
  [line s!"/// Oneof `{o.name}`: at most one member is set.",
    line s!"#[serde(flatten, deserialize_with = \"{path}::deserialize_flattened\")]",
    line s!"pub {Naming.fieldIdent o.name}: {optionText path},"]

def struct (m : MessagePlan) : List Line :=
  [line s!"/// Message `{m.fullName}`.",
    line "#[derive(Debug, Clone, PartialEq, Default, ::serde::Serialize, ::serde::Deserialize)]",
    line "#[serde(default)]"]
    ++ braces s!"pub struct {Naming.typeIdent m.name}"
      (m.fields.flatMap field ++ m.oneofs.flatMap (oneofField m))
    ++ [blank]

def memberAccessors (m : MessagePlan) (o : OneofPlan) (p : MemberPlan) : List Line :=
  let slot := Naming.fieldIdent o.name
  let variant := oneofPath m o ++ "::" ++ Naming.typeIdent p.field.name
  let seen := if p.boxed then "&**value" else "value"
  let stored := if p.boxed then "::std::boxed::Box::new(value)" else "value"
  let found := optionText ("&" ++ p.outer.text)
  [blank, line s!"/// `{p.field.name}`, if it is the member of `{o.name}` that is set."]
    ++ deprecation p.field
    ++ braces
      s!"pub fn {Naming.fieldIdent p.field.name}(&self) -> {found}"
      (braces s!"match &self.{slot}"
        [line s!"::core::option::Option::Some({variant}(value)) => ::core::option::Option::Some({seen}),",
          line "_ => ::core::option::Option::None,"])
    ++ [blank, line s!"/// Sets `{p.field.name}`, clearing any other member of `{o.name}`."]
    ++ deprecation p.field
    ++ braces s!"pub fn set_{Naming.snakeCase p.field.name}(&mut self, value: {p.outer.text})"
      [line s!"self.{slot} = ::core::option::Option::Some({variant}({stored}));"]

def oneofAccessors (m : MessagePlan) (o : OneofPlan) : List Line :=
  let slot := Naming.fieldIdent o.name
  let snake := Naming.snakeCase o.name
  let which := optionText (oneofPath m o ++ "Case")
  [line s!"/// Which member of `{o.name}` is set, if any."]
    ++ braces s!"pub fn {snake}_case(&self) -> {which}"
      [line s!"self.{slot}.as_ref().map(|value| value.case())"]
    ++ [blank]
    ++ braces s!"pub fn clear_{snake}(&mut self)"
      [line s!"self.{slot} = ::core::option::Option::None;"]
    ++ o.members.flatMap (memberAccessors m o)

/-- Lists of lines with a blank line between them. -/
def separated : List (List Line) → List Line
  | [] => []
  | [ls] => ls
  | ls :: rest => ls ++ blank :: separated rest

def accessors (m : MessagePlan) : List Line :=
  if m.oneofs.isEmpty then []
  else
    line "#[allow(deprecated)]"
      :: braces s!"impl {Naming.typeIdent m.name}" (separated (m.oneofs.map (oneofAccessors m)))
      ++ [blank]

def memberVariant (p : MemberPlan) : List Line :=
  let stored := boxText p.boxed p.inner.text
  let payload :=
    match formAttribute "" p.inner with
    | [] => stored
    | attributes => s!"#[serde({commaList attributes})] {stored}"
  [line s!"/// `{p.field.type} {p.field.name} = {p.field.number}`"]
    ++ deprecation p.field
    ++ [line s!"#[serde({commaList (keyAttributes p.field)})]",
      line s!"{Naming.typeIdent p.field.name}({payload}),"]

def keys (f : Field) : List String :=
  if Naming.jsonName f.name = f.name then [f.name] else [Naming.jsonName f.name, f.name]

def quoteAll (items : List String) : String := commaList (items.map fun k => s!"\"{k}\"")

/-- A oneof's enum, its `Case` twin and what can be asked of them. -/
def oneof (o : OneofPlan) : List Line :=
  let cases := o.ident ++ "Case"
  let variantOf (p : MemberPlan) : String := Naming.typeIdent p.field.name
  [line s!"/// Members of oneof `{o.name}`.",
    line "#[derive(Debug, Clone, PartialEq, ::serde::Serialize, ::serde::Deserialize)]"]
    ++ braces s!"pub enum {o.ident}" (o.members.flatMap memberVariant)
    ++ [blank, line s!"/// Which member of oneof `{o.name}` is set.",
      line "#[derive(Debug, Clone, Copy, PartialEq, Eq, Hash)]"]
    ++ braces s!"pub enum {cases}" (o.members.map fun p => line s!"{variantOf p},")
    ++ [blank, line "#[allow(deprecated)]"]
    ++ braces s!"impl {o.ident}"
      (braces s!"pub fn case(&self) -> {cases}"
        (braces "match self" (o.members.map fun p =>
          line s!"{o.ident}::{variantOf p}(_) => {cases}::{variantOf p},"))
      ++ [blank, line "/// Field number of the member that is set."]
      ++ braces "pub fn number(&self) -> i32"
        (braces "match self" (o.members.map fun p =>
          line s!"{o.ident}::{variantOf p}(_) => {p.field.number},"))
      ++ [blank, line "/// Reads the oneof from the owning message's remaining JSON keys.",
        line "/// A malformed member or a second member is an error."]
      ++ braces ("pub fn deserialize_flattened<'de, D: ::serde::Deserializer<'de>>(deserializer: D)"
          ++ " -> ::core::result::Result<::core::option::Option<Self>, D::Error>")
        [line ("::brine_proto::json::oneof::deserialize(deserializer, "
          ++ s!"\"{o.name}\", &[{quoteAll (o.members.flatMap fun p => keys p.field)}])")])
    ++ [blank]

def enumVariant (v : EnumValue × String) : List Line :=
  (if v.1.number = 0 then [line "#[default]"] else [])
    ++ (if v.1.deprecated then [line "#[deprecated]"] else [])
    ++ [line s!"{v.2} = {v.1.number},"]

def enum (e : EnumPlan) : List Line :=
  let some (variant : String) : String := s!"::core::option::Option::Some({e.ident}::{variant})"
  let none := line "_ => ::core::option::Option::None,"
  let all := commaList (e.values.map fun v => e.ident ++ "::" ++ v.2)
  [line s!"/// Enum `{e.fullName}`.",
    line "#[derive(Debug, Clone, Copy, PartialEq, Eq, Hash, PartialOrd, Ord, Default)]",
    line "#[repr(i32)]"]
    ++ braces s!"pub enum {e.ident}" (e.values.flatMap enumVariant)
    ++ [blank, line "#[allow(deprecated)]"]
    ++ braces s!"impl {e.ident}"
      ([line "/// Every value, in declaration order.",
        line s!"pub const VALUES: &'static [{e.ident}] = &[{all}];",
        blank, line "/// The value's name in the schema, which is also its JSON form."]
      ++ braces "pub fn as_str_name(&self) -> &'static str"
        (braces "match self" (e.values.map fun v => line s!"{e.ident}::{v.2} => \"{v.1.name}\","))
      ++ [blank]
      ++ braces "pub fn from_str_name(name: &str) -> ::core::option::Option<Self>"
        (braces "match name"
          ((e.values.map fun v => line s!"\"{v.1.name}\" => {some v.2},") ++ [none])))
    ++ [blank, line "#[allow(deprecated)]"]
    ++ braces s!"impl ::brine_proto::ProtoEnum for {e.ident}"
      (braces "fn number(&self) -> i32" [line "*self as i32"]
      ++ [blank]
      ++ braces "fn from_number(number: i32) -> ::core::option::Option<Self>"
        (braces "match number"
          ((e.values.map fun v => line s!"{v.1.number} => {some v.2},") ++ [none]))
      ++ [blank]
      ++ braces "fn name(&self) -> &'static str" [line "self.as_str_name()"]
      ++ [blank]
      ++ braces "fn from_name(name: &str) -> ::core::option::Option<Self>"
        [line "Self::from_str_name(name)"])
    ++ [blank]
    ++ braces s!"impl ::core::convert::From<{e.ident}> for i32"
      (braces s!"fn from(value: {e.ident}) -> i32" [line "value as i32"])
    ++ [blank]
    ++ braces s!"impl ::core::convert::TryFrom<i32> for {e.ident}"
      ([line "type Error = ::brine_proto::UnknownEnumValue;", blank]
      ++ braces "fn try_from(number: i32) -> ::core::result::Result<Self, Self::Error>"
        [line ("<Self as ::brine_proto::ProtoEnum>::from_number(number)"
          ++ ".ok_or(::brine_proto::UnknownEnumValue(number))")])
    ++ [blank]
    ++ braces s!"impl ::serde::Serialize for {e.ident}"
      (braces ("fn serialize<S: ::serde::Serializer>(&self, serializer: S)"
          ++ " -> ::core::result::Result<S::Ok, S::Error>")
        [line "::brine_proto::json::enumeration::serialize(self, serializer)"])
    ++ [blank]
    ++ braces s!"impl<'de> ::serde::Deserialize<'de> for {e.ident}"
      (braces ("fn deserialize<D: ::serde::Deserializer<'de>>(deserializer: D)"
          ++ " -> ::core::result::Result<Self, D::Error>")
        [line "::brine_proto::json::enumeration::deserialize(deserializer)"])
    ++ [blank]

mutual

def message : MessagePlan → List Line
  | ⟨fullName, name, fields, oneofs, messages, enums⟩ =>
    let m : MessagePlan := ⟨fullName, name, fields, oneofs, messages, enums⟩
    struct m ++ accessors m
      ++ (if oneofs.isEmpty && messages.isEmpty && enums.isEmpty then []
        else
          line s!"/// Nested types of `{fullName}`."
            :: braces s!"pub mod {Naming.moduleIdent name}"
              (oneofs.flatMap oneof ++ Source.messages messages ++ enums.flatMap enum)
            ++ [blank])

def messages : List MessagePlan → List Line
  | [] => []
  | m :: ms => message m ++ messages ms

end

def rpc (p : RpcPlan) : List Line :=
  line s!"/// `rpc {p.rpc.name}({p.rpc.request}) returns ({p.rpc.response})`"
    :: braces (s!"pub fn {p.method}(&self, request: &{p.request.text})"
        ++ s!" -> ::core::result::Result<{p.response.text}, T::Error>")
      [line s!"self.transport.call(Self::SERVICE_NAME, \"{p.rpc.name}\", request)"]

def service (s : ServicePlan) : List Line :=
  [line s!"/// Client for service `{s.fullName}`.", line "#[derive(Debug, Clone)]"]
    ++ braces s!"pub struct {s.client}<T>" [line "transport: T,"]
    ++ [blank]
    ++ braces s!"impl<T> {s.client}<T>"
      ([line s!"pub const SERVICE_NAME: &'static str = \"{s.fullName}\";", blank]
      ++ braces "pub fn new(transport: T) -> Self" [line "Self \x7b transport \x7d"]
      ++ [blank]
      ++ braces "pub fn transport(&self) -> &T" [line "&self.transport"]
      ++ [blank]
      ++ braces "pub fn into_inner(self) -> T" [line "self.transport"])
    ++ [blank]
    ++ (if s.rpcs.isEmpty then []
      else
        braces s!"impl<T: ::brine_proto::Transport> {s.client}<T>" (separated (s.rpcs.map rpc))
          ++ [blank])

def header (p : FilePlan) : List Line :=
  [line s!"// @generated by brine-proto from `{p.fileId}`. Do not edit."]
    ++ (if p.package.isEmpty then [] else [line s!"// Package: {p.package}"])
    ++ [line "//",
      line s!"// Mount as `mod {p.moduleName}` next to the other generated files of the same run.",
      blank]

def file (p : FilePlan) : List Line :=
  header p ++ messages p.messages ++ p.enums.flatMap enum ++ p.services.flatMap service

end Source

structure Generated where
  fileId : String
  fileName : String
  moduleName : String
  code : String
deriving DecidableEq, Repr

namespace Batch

/-- Generates the source of a file; one without messages and enums has none. -/
def generate (b : Batch) (fileId : String) : Except Error (Option Generated) :=
  match b.get? fileId with
  | none => .error (.input (.unknownFile fileId))
  | some s =>
    if s.messages.isEmpty && s.enums.isEmpty then .ok none
    else
      match Plan.file b fileId s with
      | .error e => .error e
      | .ok plan =>
        .ok (some ⟨fileId, Naming.fileStem fileId ++ ".g.rs", b.moduleName fileId,
          Source.render (Source.file plan)⟩)

def generateAll (b : Batch) : List (String × Except Error (Option Generated)) :=
  b.fileIds.map fun id => (id, b.generate id)

end Batch

end ProtoSchema
