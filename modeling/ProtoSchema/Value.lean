import ProtoSchema.Decimal.Binary
import ProtoSchema.Instant
import ProtoSchema.Plan

/-! # Values of messages

The types that values have at run time, and the values. A message is a record: one value for each
field in order of declaration, and one for each oneof, which is either absent or names the member that
is set.
-/

namespace ProtoSchema

/-- The type of one value; messages are found by name in a catalog. -/
inductive ValueType where
  | scalar (s : Scalar)
  | enum (e : EnumPlan)
  | message (name : String)
deriving DecidableEq, Repr

/-- A type with the label it is used under. -/
structure Slot where
  label : Label
  type : ValueType
deriving DecidableEq, Repr

structure FieldType where
  name : String
  number : Nat
  slot : Slot
deriving DecidableEq, Repr

structure OneofType where
  name : String
  members : List FieldType
deriving DecidableEq, Repr

structure MessageType where
  name : String
  fields : List FieldType
  oneofs : List OneofType
deriving DecidableEq, Repr

structure Catalog where
  messages : List (String × MessageType) := []
  enums : List (String × EnumPlan) := []
deriving DecidableEq, Repr

inductive Value where
  | number (x : Decimal.Binary)
  | int (n : Int)
  | bool (b : Bool)
  | text (s : String)
  | bytes (bs : List UInt8)
  | instant (t : Instant)
  | enum (number : Int)
  | absent
  | list (items : List Value)
  /-- The member of a oneof that is set. -/
  | member (name : String) (value : Value)
  | record (fields : List Value) (picks : List Value)
deriving Repr

namespace Catalog

def message? (c : Catalog) (name : String) : Option MessageType := c.messages.lookup name

def enum? (c : Catalog) (name : String) : Option EnumPlan := c.enums.lookup name

def type? (c : Catalog) (name : String) : Option ValueType :=
  match c.message? name, c.enum? name with
  | some _, _ => some (.message name)
  | none, some e => some (.enum e)
  | none, none => none

end Catalog

namespace EnumPlan

def ofName? (e : EnumPlan) (name : String) : Option (EnumValue × String) :=
  e.values.find? (·.1.name == name)

def ofNumber? (e : EnumPlan) (number : Int) : Option (EnumValue × String) :=
  e.values.find? (·.1.number == number)

/-- The value with a number, or the number itself if no value has it. -/
def tryOfNumber (e : EnumPlan) (number : Int) : Except Int (EnumValue × String) :=
  (e.ofNumber? number).elim (.error number) .ok

def default? (e : EnumPlan) : Option (EnumValue × String) := e.ofNumber? 0

def unknownNumber (number : Int) : String := s!"Unknown enum value: {number}"

end EnumPlan

namespace FieldType

def jsonName (f : FieldType) : String := Naming.jsonName f.name

/-- A field is read under its JSON name and under its schema name. -/
def accepts (f : FieldType) (key : String) : Bool := key == f.jsonName || key == f.name

end FieldType

namespace OneofType

def member? (o : OneofType) (key : String) : Option FieldType := o.members.find? (·.accepts key)

def named? (o : OneofType) (name : String) : Option FieldType := o.members.find? (·.name == name)

end OneofType

namespace MessageType

def ident (m : MessageType) : String := Naming.typeIdent m.name

def field? (m : MessageType) (key : String) : Option FieldType := m.fields.find? (·.accepts key)

end MessageType

def Scalar.zero : Scalar → Value
  | .double => .number (.zero .double)
  | .float => .number (.zero .single)
  | .bool => .bool false
  | .string => .text ""
  | .bytes => .bytes []
  | .timestamp => .instant .epoch
  | _ => .int 0

namespace ValueType

/-- What a field without a label holds at first. -/
def zero : ValueType → Value
  | scalar s => s.zero
  | enum _ => .enum 0
  | message _ => .absent

def isMessage : ValueType → Bool
  | message _ => true
  | _ => false

end ValueType

namespace Slot

def default (s : Slot) : Value :=
  match s.label with
  | .repeated => .list []
  | .optional => .absent
  | .implicit => s.type.zero

end Slot

namespace MessageType

def default (m : MessageType) : Value :=
  .record (m.fields.map (·.slot.default)) (m.oneofs.map fun _ => .absent)

end MessageType

namespace Catalog

/-- What a value of the given type is at first. -/
def default (c : Catalog) : ValueType → Value
  | .message name => (c.message? name).elim .absent MessageType.default
  | t => t.zero

end Catalog

namespace Value

mutual

/-- Equality of values; the two zeros of a binary number are one. -/
def same : Value → Value → Bool
  | number x, number y => x.same y
  | int m, int n => m = n
  | bool a, bool b => a = b
  | text s, text t => s = t
  | bytes a, bytes b => a = b
  | instant s, instant t => s = t
  | enum m, enum n => m = n
  | absent, absent => true
  | list a, list b => sameAll a b
  | member m a, member n b => m = n && same a b
  | record a p, record b q => sameAll a b && sameAll p q
  | _, _ => false

def sameAll : List Value → List Value → Bool
  | [], [] => true
  | a :: as, b :: bs => same a b && sameAll as bs
  | _, _ => false

end

end Value

namespace MessageType

def get? (m : MessageType) (name : String) : Value → Option Value
  | .record vs _ => ((m.fields.zip vs).find? (·.1.name == name)).map (·.2)
  | _ => none

def set (m : MessageType) (name : String) (x : Value) : Value → Value
  | .record vs ps =>
    .record ((m.fields.zip vs).map fun p => if p.1.name = name then x else p.2) ps
  | v => v

/-- The member of a oneof that is set, and its value. -/
def pick? (m : MessageType) (oneof : String) : Value → Option (FieldType × Value)
  | .record _ ps => do
    let (o, p) ← (m.oneofs.zip ps).find? (·.1.name == oneof)
    match p with
    | .member name x => return (← o.named? name, x)
    | _ => none
  | _ => none

/-- The value of a member, if it is the one that is set. -/
def member? (m : MessageType) (oneof name : String) (v : Value) : Option Value :=
  match m.pick? oneof v with
  | some (f, x) => if f.name = name then some x else none
  | none => none

def setPick (m : MessageType) (oneof : String) (x : Value) : Value → Value
  | .record vs ps =>
    .record vs ((m.oneofs.zip ps).map fun p => if p.1.name = oneof then x else p.2)
  | v => v

/-- Sets a member, which clears any other of its oneof. -/
def setMember (m : MessageType) (oneof name : String) (x : Value) (v : Value) : Value :=
  m.setPick oneof (.member name x) v

def clear (m : MessageType) (oneof : String) (v : Value) : Value := m.setPick oneof .absent v

end MessageType

end ProtoSchema
