import ProtoSchema.Schema

/-! # Well-formed schemas

Names and numbers have to be distinct where one is looked up by them, field numbers lie in the range
of the wire format, and an enum has exactly one zero. `Schema.check` reports the first defect, in
declaration order and outer messages before inner ones.
-/

namespace ProtoSchema

inductive Defect where
  | typeTwice (name scope : String)
  | fieldTwice (name path : String)
  | numberTwice (number : Int) (name path : String)
  | numberOutside (name path : String)
  | numberReserved (number : Int) (name path : String)
  | oneofTwice (name path : String)
  | noValues (path : String)
  | zeroCount (path : String) (count : Nat)
  | valueTwice (name path : String)
  | valueNumberTwice (number : Int) (name path : String)
  | rpcTwice (name service : String)
  | methodTwice (service first second method : String)
deriving DecidableEq, Repr

namespace Defect

open Text

def maxFieldNumber : Int := 536870911

def message : Defect → String
  | typeTwice name scope => s!"The type {quote name} is defined twice in {quote scope}"
  | fieldTwice name path => s!"The field {quote name} is defined twice in {quote path}"
  | numberTwice n name path =>
    s!"The number {n} for field {quote name} in {quote path} is used twice"
  | numberOutside name path =>
    s!"The number for field {quote name} in {quote path} must be between 1 and {maxFieldNumber}"
  | numberReserved n name path =>
    s!"The number {n} for field {quote name} in {quote path} is reserved"
  | oneofTwice name path => s!"The oneof {quote name} is defined twice in {quote path}"
  | noValues path => s!"The enum {quote path} has no values"
  | zeroCount path count =>
    s!"The enum {quote path} must have exactly one value numbered 0, found {count}"
  | valueTwice name path => s!"The value {quote name} is defined twice in enum {quote path}"
  | valueNumberTwice n name path =>
    s!"The number {n} for value {quote name} in enum {quote path} is used twice"
  | rpcTwice name service => s!"The rpc {quote name} is defined twice in service {quote service}"
  | methodTwice service first second method =>
    s!"Service \"{service}\": rpcs \"{first}\" and \"{second}\" map to the same method \"{method}\""

end Defect

def checkDistinct {α : Type} [DecidableEq α] (defect : α → Defect) (seen : List α) :
    List α → Except Defect Unit
  | [] => .ok ()
  | a :: rest => if a ∈ seen then .error (defect a) else checkDistinct defect (a :: seen) rest

namespace Field

def isReservedNumber (n : Int) : Bool := 19000 ≤ n && n ≤ 19999

/-- One field after the names and numbers in `seen`. -/
def check (path : String) (names : List String) (numbers : List Int) (f : Field) :
    Except Defect Unit :=
  if f.name ∈ names then .error (.fieldTwice f.name path)
  else if f.number ∈ numbers then .error (.numberTwice f.number f.name path)
  else if f.number ≤ 0 || Defect.maxFieldNumber < f.number then
    .error (.numberOutside f.name path)
  else if isReservedNumber f.number then .error (.numberReserved f.number f.name path)
  else .ok ()

def checkAll (path : String) (names : List String) (numbers : List Int) :
    List Field → Except Defect Unit
  | [] => .ok ()
  | f :: fs => do
    f.check path names numbers
    checkAll path (f.name :: names) (f.number :: numbers) fs

end Field

namespace Enum

/-- One value after the names and numbers in `seen`. -/
def checkValues (path : String) (names : List String) (numbers : List Int) :
    List EnumValue → Except Defect Unit
  | [] => .ok ()
  | v :: vs =>
    if v.name ∈ names then .error (.valueTwice v.name path)
    else if v.number ∈ numbers then .error (.valueNumberTwice v.number v.name path)
    else checkValues path (v.name :: names) (v.number :: numbers) vs

def zeros (e : Enum) : Nat := e.values.countP (·.number == 0)

def check (path : String) (e : Enum) : Except Defect Unit :=
  if e.values.isEmpty then .error (.noValues path)
  else if e.zeros ≠ 1 then .error (.zeroCount path e.zeros)
  else checkValues path [] [] e.values

def checkAll (pathOf : String → String) : List Enum → Except Defect Unit
  | [] => .ok ()
  | e :: es => do
    e.check (pathOf e.name)
    checkAll pathOf es

end Enum

def checkTypeNames (scope : String) (messages : List Message) (enums : List Enum) :
    Except Defect Unit :=
  checkDistinct (.typeTwice · scope) [] (messages.map (·.name) ++ enums.map (·.name))

mutual

def Message.check (path : String) : Message → Except Defect Unit
  | ⟨_, _, fields, oneofs, messages, enums⟩ => do
    Field.checkAll path [] [] (fields ++ oneofs.flatMap (·.fields))
    checkDistinct (.oneofTwice · path) [] (oneofs.map (·.name))
    checkTypeNames path messages enums
    Message.checkAll (path ++ "." ++ ·) messages
    Enum.checkAll (path ++ "." ++ ·) enums

def Message.checkAll (pathOf : String → String) : List Message → Except Defect Unit
  | [] => .ok ()
  | m :: ms => do
    Message.check (pathOf m.name) m
    Message.checkAll pathOf ms

end

def Service.check (s : Service) : Except Defect Unit :=
  checkDistinct (.rpcTwice · s.name) [] (s.rpcs.map (·.name))

namespace Schema

def scopeName (s : Schema) : String := if s.package.isEmpty then "file scope" else s.package

def check (s : Schema) : Except Defect Unit := do
  checkTypeNames s.scopeName s.messages s.enums
  Message.checkAll id s.messages
  Enum.checkAll id s.enums
  s.services.forM Service.check

end Schema

end ProtoSchema
