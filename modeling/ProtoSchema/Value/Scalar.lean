import ProtoSchema.Value
import ProtoSchema.Value.Misfit

/-! # Scalars and enums in JSON

Integers of 64 bits are written as text and read from text or numbers, bytes are base64, instants are
text, and enums are written as the names of their values and read from names or numbers.
-/

namespace ProtoSchema

namespace Found

def wrong {α : Type} (f : Found) (expected : Expected) : Except Misfit α :=
  .error (.type f expected)

def toBinary (f : Found) (format : Decimal.Format) (expected : Expected) :
    Except Misfit Decimal.Binary :=
  match f with
  | integer n => .ok (.ofInt format n)
  | double x => .ok (x.convert format)
  | _ => f.wrong expected

/-- An integer of 32 bits. -/
def toInteger (f : Found) (range : IntegerRange) (expected : Expected) : Except Misfit Int :=
  match f with
  | integer n => if range.contains n then .ok n else .error (.value n expected)
  | _ => f.wrong expected

def inRange (range : IntegerRange) (n : Int) : Except Misfit Int :=
  if range.contains n then .ok n else .error (.integerRange n)

/-- An integer of 64 bits. A double goes through the integers of its sign first. -/
def toInteger64 (f : Found) (range : IntegerRange) : Except Misfit Int :=
  match f with
  | integer n => inRange range n
  | double x =>
    match x.int? with
    | none => .error (.notInteger x)
    | some n =>
      if n < 0 then inRange range (IntegerRange.signed64.clamp n)
      else inRange range (IntegerRange.unsigned64.clamp n)
  | string s => (range.read s).mapError (.integerText s)
  | _ => f.wrong .integer64

def toBool (f : Found) : Except Misfit Bool :=
  match f with
  | bool b => .ok b
  | _ => f.wrong .boolean

def toText (f : Found) : Except Misfit String :=
  match f with
  | string s => .ok s
  | _ => f.wrong .string

def toBytes (f : Found) : Except Misfit (List UInt8) := do
  (Base64.decode (← f.toText)).mapError .base64

/-- An instant; the empty text is the epoch. -/
def toInstant (f : Found) : Except Misfit Instant := do
  let text ← f.toText
  if text.isEmpty then return .epoch else (Instant.read text).mapError (.instant text)

/-- The number of an enum's value, which has 32 bits; null is the default. -/
def toEnum (f : Found) (e : EnumPlan) : Except Misfit Int :=
  match f with
  | null => .ok 0
  | string name =>
    match e.ofName? name with
    | some v => .ok v.1.number
    | none => .error (.enumName name)
  | integer n =>
    match (Option.guard IntegerRange.signed32.contains n).bind e.ofNumber? with
    | some v => .ok v.1.number
    | none => .error (.enumNumber n)
  | _ => f.wrong .enumValue

end Found

namespace Scalar

def range64 : Scalar → IntegerRange
  | .uint64 => .unsigned64
  | .fixed64 => .unsigned64
  | _ => .signed64

def ofFound (s : Scalar) (f : Found) : Except Misfit Value :=
  match s with
  | .double => (f.toBinary .double .double).map .number
  | .float => (f.toBinary .single .single).map .number
  | .int32 | .sint32 | .sfixed32 => (f.toInteger .signed32 .int32).map .int
  | .uint32 | .fixed32 => (f.toInteger .unsigned32 .uint32).map .int
  | .int64 | .sint64 | .sfixed64 | .uint64 | .fixed64 => (f.toInteger64 s.range64).map .int
  | .bool => f.toBool.map .bool
  | .string => f.toText.map .text
  | .bytes => f.toBytes.map .bytes
  | .timestamp => f.toInstant.map .instant

/-- Whether a scalar is written as text although it is a number. -/
def isQuoted (s : Scalar) : Bool := s.jsonForm? = some .int64

def layout : Scalar → Decimal.Layout
  | .float => .single
  | _ => .double

end Scalar

namespace Json

def integer (n : Int) : Json := number (toString n)

/-- A number of a binary format; infinity has no JSON form. -/
def binary (l : Decimal.Layout) (x : Decimal.Binary) : Json :=
  match l.text? x with
  | some cs => number (String.ofList cs)
  | none => null

end Json

namespace ValueType

/-- Whether a value of the type is read without saying which kind is wanted, so that arrays and
objects are entered before they are refused. -/
def readsAnything : ValueType → Bool
  | scalar s => s.isQuoted
  | enum _ => true
  | message _ => false

def leaf (t : ValueType) (v : Value) : Json :=
  match t, v with
  | scalar s, .int n => if s.isQuoted then .text (toString n) else .integer n
  | scalar s, .number x => .binary s.layout x
  | _, .bool b => .bool b
  | _, .text s => .text s
  | _, .bytes bs => .text (Base64.encode bs)
  | _, .instant t => .text t.format
  | enum e, .enum n => (e.ofNumber? n).elim .null fun v => .text v.1.name
  | _, _ => .null

end ValueType

end ProtoSchema
