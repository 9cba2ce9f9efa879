import ProtoSchema.Value

/-! # Describing types

Short forms for the descriptions of message types.
-/

namespace ProtoSchema

namespace ValueType

def string : ValueType := scalar .string

def int32 : ValueType := scalar .int32

def int64 : ValueType := scalar .int64

def bytes : ValueType := scalar .bytes

def timestamp : ValueType := scalar .timestamp

end ValueType

namespace FieldType

def single (name : String) (number : Nat) (t : ValueType) : FieldType :=
  ⟨name, number, ⟨.implicit, t⟩⟩

def optional (name : String) (number : Nat) (t : ValueType) : FieldType :=
  ⟨name, number, ⟨.optional, t⟩⟩

def repeated (name : String) (number : Nat) (t : ValueType) : FieldType :=
  ⟨name, number, ⟨.repeated, t⟩⟩

end FieldType

namespace EnumPlan

/-- An enum of a package from the names and numbers of its values. -/
def ofValues (package name : String) (values : List (String × Int)) : EnumPlan :=
  .ofEnum (Plan.fullName package [name])
    ⟨name, .start, values.map fun v => ⟨v.1, v.2, false⟩⟩

end EnumPlan

namespace Catalog

/-- Two catalogs as one; the names of the first go before. -/
def append (a b : Catalog) : Catalog := ⟨a.messages ++ b.messages, a.enums ++ b.enums⟩

end Catalog

end ProtoSchema
