import ProtoSchema.Base64
import ProtoSchema.Instant.Reader
import ProtoSchema.IntegerText
import ProtoSchema.Json

/-! # Faults of JSON texts

A text is malformed, or it is JSON whose value does not fit the type it is read as. A misfit says what
was found and what was expected.
-/

namespace ProtoSchema

inductive Found where
  | null
  | bool (b : Bool)
  | integer (n : Int)
  | double (x : Decimal.Binary)
  | string (s : String)
  | sequence
  | map
deriving DecidableEq, Repr

namespace Found

def describe : Found → String
  | null => "null"
  | bool b => if b then "boolean `true`" else "boolean `false`"
  | integer n => s!"integer `{n}`"
  | double x =>
    let text := String.ofList ((Decimal.Layout.double.text? x).getD [])
    s!"floating point `{text}`"
  | string s => "string " ++ Text.display s
  | sequence => "sequence"
  | map => "map"

end Found

inductive VariantKind where
  | tuple
  | struct
deriving DecidableEq, Repr

inductive Expected where
  | int32
  | uint32
  | single
  | double
  | boolean
  | string
  | sequence
  | struct (name : String)
  | enumValue
  | integer64
  | members (oneof : String)
  | variant (kind : VariantKind) (name : String)
deriving DecidableEq, Repr

namespace Expected

def describe : Expected → String
  | int32 => "i32"
  | uint32 => "u32"
  | single => "f32"
  | double => "f64"
  | boolean => "a boolean"
  | string => "a string"
  | sequence => "a sequence"
  | struct name => "struct " ++ name
  | enumValue => "an enum value name or number"
  | integer64 => "a 64-bit integer as a string or number"
  | members oneof => s!"an object with at most one member of oneof `{oneof}`"
  | variant .tuple name => "tuple variant " ++ name
  | variant .struct name => "struct variant " ++ name

end Expected

inductive ExpectedLength where
  | elements (n : Nat)
  | variant (kind : VariantKind) (name : String) (n : Nat)
deriving DecidableEq, Repr

namespace ExpectedLength

def describe : ExpectedLength → String
  | elements n => if n = 1 then "1 element in sequence" else s!"{n} elements in sequence"
  | variant kind name n => (Expected.variant kind name).describe ++ s!" with {n} elements"

end ExpectedLength

inductive Misfit where
  | type (found : Found) (expected : Expected)
  | value (n : Int) (expected : Expected)
  | length (n : Nat) (expected : ExpectedLength)
  | duplicate (key : String)
  | missing (key : String)
  | severalMembers (oneof first second : String)
  | unknownVariant (key : String) (known : List String)
  | integerText (text : String) (fault : IntegerFault)
  | integerRange (n : Int)
  | notInteger (x : Decimal.Binary)
  | base64 (fault : Base64.Fault)
  | instant (text : String) (fault : Instant.Fault)
  | enumName (name : String)
  | enumNumber (n : Int)
deriving DecidableEq, Repr

namespace Misfit

def message : Misfit → String
  | type found expected => s!"invalid type: {found.describe}, expected {expected.describe}"
  | value n expected => s!"invalid value: integer `{n}`, expected {expected.describe}"
  | length n expected => s!"invalid length {n}, expected {expected.describe}"
  | duplicate key => s!"duplicate field `{key}`"
  | missing key => s!"missing field `{key}`"
  | severalMembers oneof first second =>
    s!"oneof `{oneof}` has more than one member set: `{first}` and `{second}`"
  | unknownVariant key known =>
    let names := ", ".intercalate (known.map fun k => s!"`{k}`")
    s!"unknown variant `{key}`, expected one of {names}"
  | integerText text fault => s!"invalid integer {Text.display text}: {fault.message}"
  | integerRange n => s!"integer {n} is out of range"
  | notInteger x => String.ofList (Decimal.plainText x) ++ " is not an integer"
  | base64 fault => "invalid base64: " ++ fault.message
  | instant text fault => s!"invalid timestamp {Text.display text}: {fault.message}"
  | enumName name => "unknown enum value " ++ Text.display name
  | enumNumber n => s!"unknown enum value {n}"

end Misfit

inductive ReadFault where
  | malformed
  | misfit (m : Misfit)
deriving DecidableEq, Repr

namespace Json

/-- What a value is, which reads it if it has no parts. -/
def found : Json → Except ReadFault Found
  | null => .ok .null
  | bool b => .ok (.bool b)
  | number literal =>
    match Number.ofLiteral? literal with
    | some (.unsigned n) => .ok (.integer n)
    | some (.negative n) => .ok (.integer (-n))
    | some (.double x) => .ok (.double x)
    | none => .error .malformed
  | string (some s) => .ok (.string s)
  | string none => .error .malformed
  | array _ _ => .ok .sequence
  | object _ _ => .ok .map
  | cut => .error .malformed
  | bare => .error .malformed

def mismatch {α : Type} (j : Json) (expected : Expected) : Except ReadFault α := do
  let f ← j.found
  .error (.misfit (.type f expected))

def hasParts : Json → Bool
  | array _ _ => true
  | object _ _ => true
  | _ => false

def isNull : Json → Bool
  | null => true
  | _ => false

def isBare : Json → Bool
  | bare => true
  | _ => false

mutual

/-- Whether a value ends where it should. This is all that is asked of a value that is skipped. -/
def isWhole : Json → Bool
  | array items closed => closed && wholeItems items
  | object entries closed => closed && wholeEntries entries
  | cut => false
  | bare => false
  | _ => true

def wholeItems : List Json → Bool
  | [] => true
  | j :: js => isWhole j && wholeItems js

def wholeEntries : List (Option String × Json) → Bool
  | [] => true
  | (_, j) :: es => isWhole j && wholeEntries es

end

mutual

/-- Whether a value can be kept for later: it is whole, nests no deeper than the room there is, and
all its numbers and strings can be read. -/
def isReadable (room : Nat) : Json → Bool
  | number literal => (Number.ofLiteral? literal).isSome
  | string text => text.isSome
  | array items closed => room ≠ 0 && closed && readableItems (room - 1) items
  | object entries closed => room ≠ 0 && closed && readableEntries (room - 1) entries
  | cut => false
  | bare => false
  | _ => true

def readableItems (room : Nat) : List Json → Bool
  | [] => true
  | j :: js => isReadable room j && readableItems room js

def readableEntries (room : Nat) : List (Option String × Json) → Bool
  | [] => true
  | (key, j) :: es => key.isSome && isReadable room j && readableEntries room es

end

end Json

end ProtoSchema
