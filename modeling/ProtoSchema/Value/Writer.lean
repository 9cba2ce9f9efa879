import ProtoSchema.Json.Writer
import ProtoSchema.Value.Reader

/-! # Writing values

A message becomes an object with its plain fields in order of declaration and the members of its
oneofs behind them. A field without a label is left out when it has its default, and so is an empty
list; an optional field is always written.
-/

namespace ProtoSchema

namespace Slot

def omits (s : Slot) (v : Value) : Bool := s.label ≠ .optional && v.same s.default

end Slot

namespace Catalog

mutual

def write (c : Catalog) (t : ValueType) : Value → Json
  | .list vs => .list (c.writeAll t vs)
  | .record vs ps =>
    match t with
    | .message name =>
      match c.message? name with
      | some m => .record (c.writeFields m.fields vs ++ c.writePicks m.oneofs ps)
      | none => .null
    | _ => .null
  | v => t.leaf v

def writeAll (c : Catalog) (t : ValueType) : List Value → List Json
  | [] => []
  | v :: vs => c.write t v :: c.writeAll t vs

def writeFields (c : Catalog) : List FieldType → List Value → List (String × Json)
  | f :: fs, v :: vs =>
    if f.slot.omits v then c.writeFields fs vs
    else (f.jsonName, c.write f.slot.type v) :: c.writeFields fs vs
  | _, _ => []

def writePicks (c : Catalog) : List OneofType → List Value → List (String × Json)
  | o :: os, .member name v :: ps =>
    match o.named? name with
    | some f => (f.jsonName, c.write f.slot.type v) :: c.writePicks os ps
    | none => c.writePicks os ps
  | _ :: os, _ :: ps => c.writePicks os ps
  | _, _ => []

end

def encode (c : Catalog) (t : ValueType) (v : Value) : String := (c.write t v).toText

def isDefault (c : Catalog) (t : ValueType) (v : Value) : Bool := v.same (c.default t)

def roundTrip (c : Catalog) (t : ValueType) (v : Value) : Except ReadFault Bool :=
  (c.decode t (c.encode t v)).map (·.same v)

end Catalog

end ProtoSchema
