import ProtoSchema.Decimal.Shortest
import ProtoSchema.Text.Quoted

/-! # JSON texts

What can be seen of a JSON text from its start. A text may break off or go wrong anywhere; the tree
then ends there, with an array or object that is not closed. Numbers keep their literals, and a string
whose escapes do not name characters has no text.
-/

namespace ProtoSchema

inductive Json where
  | null
  | bool (b : Bool)
  | number (literal : String)
  | string (text : Option String)
  | array (items : List Json) (closed : Bool)
  | object (entries : List (Option String × Json)) (closed : Bool)
  /-- No value starts here. -/
  | cut
  /-- A key that no colon follows. -/
  | bare
deriving Repr

namespace Json

def text (s : String) : Json := string (some s)

def list (items : List Json) : Json := array items true

def record (entries : List (String × Json)) : Json :=
  object (entries.map fun e => (some e.1, e.2)) true

structure Literal where
  negative : Bool
  integer : List Char
  fraction : Option (List Char)
  exponent : Option Int
deriving DecidableEq, Repr

/-- The value of a literal as it is handed on. -/
inductive Number where
  | unsigned (n : Nat)
  | negative (n : Nat)
  | double (x : Decimal.Binary)
deriving DecidableEq, Repr

namespace Literal

def signed (negative : Bool) (digits : List Char) : Int :=
  let n : Int := (digits.foldl (fun n c => n * 10 + (c.toNat - '0'.toNat)) 0 : Nat)
  if negative then -n else n

def exponentOf : List Char → Int
  | '-' :: ds => signed true ds
  | '+' :: ds => signed false ds
  | ds => signed false ds

/-- Splits a literal at its sign, point and exponent mark. -/
def ofChars (cs : List Char) : Literal :=
  let negative := cs.head? = some '-'
  let unsigned := if negative then cs.drop 1 else cs
  let integer := unsigned.takeWhile Char.isDigit
  let rest := unsigned.dropWhile Char.isDigit
  match rest with
  | '.' :: more =>
    let tail := more.dropWhile Char.isDigit
    ⟨negative, integer, some (more.takeWhile Char.isDigit),
      if tail.isEmpty then none else some (exponentOf (tail.drop 1))⟩
  | _ :: more => ⟨negative, integer, none, some (exponentOf more)⟩
  | [] => ⟨negative, integer, none, none⟩

def maxUnsigned : Nat := 18446744073709551615

def maxNegative : Nat := 9223372036854775808

/-- Appends digits to a significand while it fits 64 bits; also counts the digits left over. -/
def accumulate (significand : Nat) : List Char → Nat × Nat
  | [] => (significand, 0)
  | c :: cs =>
    let next := significand * 10 + (c.toNat - '0'.toNat)
    if maxUnsigned < next then (significand, cs.length + 1) else accumulate next cs

/-- The double a literal with a fraction, an exponent or too many digits stands for. -/
def double? (l : Literal) : Option Decimal.Binary :=
  let (whole, skipped) := accumulate 0 l.integer
  let fraction := l.fraction.getD []
  let (significand, left) := accumulate whole fraction
  let places : Int := skipped - (fraction.length - left)
  (Decimal.ofParts significand (places + l.exponent.getD 0)).map fun m => ⟨l.negative, m⟩

def number? (l : Literal) : Option Number :=
  match l.fraction, l.exponent, accumulate 0 l.integer with
  | none, none, (n, 0) =>
    if !l.negative then some (.unsigned n)
    else if 0 < n ∧ n ≤ maxNegative then some (.negative n)
    else some (.double ⟨true, Decimal.Format.double.round (.ofNat n)⟩)
  | _, _, _ => l.double?.map .double

end Literal

namespace Number

/-- The value of a number literal; none if it is out of range. -/
def ofLiteral? (literal : String) : Option Number := (Literal.ofChars literal.toList).number?

end Number

end Json

end ProtoSchema
