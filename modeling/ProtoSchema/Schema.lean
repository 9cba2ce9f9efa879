import ProtoSchema.Token

/-! # Schemas

What one schema file declares: messages with their fields, oneofs and nested types, enums, and
services. Statements that do not fit the grammar are kept as diagnostics.
-/

namespace ProtoSchema

/-- What a statement lacks: a certain word, or a word of a certain kind. -/
inductive Wanted where
  | word (text : String)
  | kind (description : String)
deriving DecidableEq, Repr

namespace Wanted

def describe : Wanted → String
  | word text => Text.quote text
  | kind description => description

end Wanted

inductive Complaint where
  | expected (wanted : Wanted) (found : String)
  | endOfFile (wanted : Wanted)
  | unexpected (found : String)
  | unsupported (what : String)
  | outOfRange (number : String)
  | repeatedInOneof
  | streaming
deriving DecidableEq, Repr

namespace Complaint

def message : Complaint → String
  | expected wanted found => "Expected " ++ wanted.describe ++ " but found " ++ Text.quote found
  | endOfFile wanted => "Expected " ++ wanted.describe ++ " but reached end of file"
  | unexpected found => "Unexpected token " ++ Text.quote found
  | unsupported what => what ++ " are not supported"
  | outOfRange number => "Integer " ++ Text.quote number ++ " is out of range"
  | repeatedInOneof => "Repeated fields are not allowed in a oneof"
  | streaming => "Streaming rpcs are not supported"

end Complaint

structure Diagnostic where
  complaint : Complaint
  position : Position
deriving DecidableEq, Repr

namespace Diagnostic

def message (d : Diagnostic) : String := d.complaint.message

def describe (d : Diagnostic) : String :=
  s!"line {d.position.line}, column {d.position.column}: {d.message}"

end Diagnostic

/-- Whether a field is always there, may be missing, or is a list. -/
inductive Label where
  | implicit
  | optional
  | repeated
deriving DecidableEq, Repr

structure Field where
  name : String
  position : Position
  type : String
  number : Int
  label : Label
  deprecated : Bool
deriving DecidableEq, Repr

structure Oneof where
  name : String
  fields : List Field
deriving DecidableEq, Repr

structure EnumValue where
  name : String
  number : Int
  deprecated : Bool
deriving DecidableEq, Repr

structure Enum where
  name : String
  position : Position
  values : List EnumValue
deriving DecidableEq, Repr

structure Message where
  name : String
  position : Position
  fields : List Field
  oneofs : List Oneof
  messages : List Message
  enums : List Enum
deriving Repr

namespace Message

mutual

def decEq : (m n : Message) → Decidable (m = n)
  | ⟨name, position, fields, oneofs, messages, enums⟩,
    ⟨name', position', fields', oneofs', messages', enums'⟩ =>
    have := decEqAll messages messages'
    decidable_of_iff (name = name' ∧ position = position' ∧ fields = fields' ∧ oneofs = oneofs' ∧
      messages = messages' ∧ enums = enums') (by simp)

def decEqAll : (ms ns : List Message) → Decidable (ms = ns)
  | [], [] => .isTrue rfl
  | [], _ :: _ => .isFalse nofun
  | _ :: _, [] => .isFalse nofun
  | m :: ms, n :: ns =>
    have := decEq m n
    have := decEqAll ms ns
    decidable_of_iff (m = n ∧ ms = ns) (by simp)

end

instance : DecidableEq Message := decEq

def allFields (m : Message) : List Field := m.fields ++ m.oneofs.flatMap (·.fields)

end Message

structure Rpc where
  name : String
  request : String
  response : String
deriving DecidableEq, Repr

structure Service where
  name : String
  rpcs : List Rpc
deriving DecidableEq, Repr

/-- One schema file. `moduleName` is what the option `rust_module` asks for. -/
structure Schema where
  dialect : Option String := none
  package : String := ""
  moduleName : Option String := none
  imports : List String := []
  messages : List Message := []
  enums : List Enum := []
  services : List Service := []
  diagnostics : List Diagnostic := []
deriving DecidableEq, Repr

end ProtoSchema
