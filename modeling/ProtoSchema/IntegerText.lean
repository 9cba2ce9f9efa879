import ProtoSchema.Text.Blank

/-! # Integers as text

A decimal integer with an optional sign, read for a range. The first fault from the left is the one
reported, so a number can leave the range before a wrong character is met.
-/

namespace ProtoSchema

structure IntegerRange where
  least : Int
  greatest : Int
deriving DecidableEq, Repr

namespace IntegerRange

def signed32 : IntegerRange := ⟨-2147483648, 2147483647⟩

def unsigned32 : IntegerRange := ⟨0, 4294967295⟩

def signed64 : IntegerRange := ⟨-9223372036854775808, 9223372036854775807⟩

def unsigned64 : IntegerRange := ⟨0, 18446744073709551615⟩

def contains (r : IntegerRange) (n : Int) : Bool := r.least ≤ n && n ≤ r.greatest

/-- The number of a range that is nearest to a given one. -/
def clamp (r : IntegerRange) (n : Int) : Int := max r.least (min n r.greatest)

end IntegerRange

inductive IntegerFault where
  | empty
  | digit
  | tooLarge
  | tooSmall
deriving DecidableEq, Repr

namespace IntegerFault

def message : IntegerFault → String
  | empty => "cannot parse integer from empty string"
  | digit => "invalid digit found in string"
  | tooLarge => "number too large to fit in target type"
  | tooSmall => "number too small to fit in target type"

end IntegerFault

namespace IntegerRange

/-- Appends digits to a number; `sign` is 1 or -1. -/
def readDigits (r : IntegerRange) (sign : Int) (n : Int) : List Char → Except IntegerFault Int
  | [] => .ok n
  | c :: cs =>
    if !c.isDigit then .error .digit
    else
      let next := n * 10 + sign * (c.toNat - '0'.toNat : Nat)
      if r.greatest < next then .error .tooLarge
      else if next < r.least then .error .tooSmall
      else r.readDigits sign next cs

/-- Reads a sign and at least one digit; only ranges with negative numbers take a minus. -/
def readChars (r : IntegerRange) : List Char → Except IntegerFault Int
  | [] => .error .empty
  | ['+'] => .error .digit
  | ['-'] => .error .digit
  | '+' :: cs => r.readDigits 1 0 cs
  | '-' :: cs => if r.least < 0 then r.readDigits (-1) 0 cs else .error .digit
  | cs => r.readDigits 1 0 cs

def read (r : IntegerRange) (text : String) : Except IntegerFault Int :=
  r.readChars (Text.trim text.toList)

end IntegerRange

end ProtoSchema
