/-! # Binary numbers

Floating point by exact arithmetic: a magnitude is `mantissa * 2 ^ exponent` with a bounded mantissa,
and every operation rounds the exact rational result to the nearest magnitude, a half to the even one.
-/

namespace ProtoSchema.Decimal

/-- A binary format: the bits of the mantissa, and the least and greatest exponent. -/
structure Format where
  precision : Nat
  least : Int
  greatest : Int
deriving DecidableEq, Repr

namespace Format

def double : Format := ⟨53, -1074, 971⟩

def single : Format := ⟨24, -149, 104⟩

end Format

/-- A magnitude. Finite ones have the largest mantissa that the format allows, or the least
exponent. -/
inductive Magnitude where
  | finite (mantissa : Nat) (exponent : Int)
  | infinite
deriving DecidableEq, Repr

structure Binary where
  negative : Bool
  magnitude : Magnitude
deriving DecidableEq, Repr

structure Ratio where
  num : Nat
  den : Nat
deriving DecidableEq, Repr

/-- `2 ^ n` -/
def twoTo (n : Nat) : Nat := Nat.pow 2 n

/-- `10 ^ n` -/
def tenTo (n : Nat) : Nat := Nat.pow 10 n

namespace Ratio

def ofNat (n : Nat) : Ratio := ⟨n, 1⟩

def mul (a b : Ratio) : Ratio := ⟨a.num * b.num, a.den * b.den⟩

def div (a b : Ratio) : Ratio := ⟨a.num * b.den, a.den * b.num⟩

/-- `r * 2 ^ e` -/
def scale (r : Ratio) (e : Int) : Ratio :=
  if 0 ≤ e then ⟨r.num * twoTo e.toNat, r.den⟩ else ⟨r.num, r.den * twoTo (-e).toNat⟩

def floor (r : Ratio) : Nat := r.num / r.den

/-- The nearest natural number, a half going to the even one. -/
def nearest (r : Ratio) : Nat :=
  let q := r.num / r.den
  let twice := 2 * (r.num % r.den)
  if twice < r.den then q
  else if r.den < twice then q + 1
  else if q % 2 = 0 then q else q + 1

def le (a b : Ratio) : Bool := a.num * b.den ≤ b.num * a.den

def lt (a b : Ratio) : Bool := a.num * b.den < b.num * a.den

end Ratio

namespace Format

/-- The exponent at which a rational fills the mantissa, but not less than the least. -/
def exponentOf (f : Format) (r : Ratio) : Int :=
  let guess := max ((r.num.log2 : Int) - r.den.log2 - f.precision) f.least
  if twoTo f.precision ≤ (r.scale (-guess)).floor then guess + 1 else guess

def round (f : Format) (r : Ratio) : Magnitude :=
  if r.num = 0 then .finite 0 f.least
  else
    let e := f.exponentOf r
    let m := (r.scale (-e)).nearest
    let m' := if m = twoTo f.precision then twoTo (f.precision - 1) else m
    let e' := if m = twoTo f.precision then e + 1 else e
    if f.greatest < e' then .infinite else .finite m' e'

end Format

namespace Magnitude

def value? : Magnitude → Option Ratio
  | finite m e => some ((Ratio.ofNat m).scale e)
  | infinite => none

def isZero : Magnitude → Bool
  | finite m _ => m = 0
  | infinite => false

def convert (f : Format) (m : Magnitude) : Magnitude :=
  match m.value? with
  | some r => f.round r
  | none => .infinite

def nat? : Magnitude → Option Nat
  | finite m e =>
    if 0 ≤ e then some (m * twoTo e.toNat)
    else if m % twoTo (-e).toNat = 0 then some (m / twoTo (-e).toNat) else none
  | infinite => none

end Magnitude

namespace Binary

def zero (f : Format) : Binary := ⟨false, .finite 0 f.least⟩

def convert (f : Format) (b : Binary) : Binary := ⟨b.negative, b.magnitude.convert f⟩

def ofInt (f : Format) (n : Int) : Binary := ⟨n < 0, f.round (.ofNat n.natAbs)⟩

/-- Equality of numbers; the two zeros are one. -/
def same (a b : Binary) : Bool :=
  a.magnitude = b.magnitude && (a.negative = b.negative || a.magnitude.isZero)

def int? (b : Binary) : Option Int :=
  b.magnitude.nat?.map fun n => if b.negative then -(n : Int) else n

end Binary

def powerOfTen (n : Nat) : Magnitude := Format.double.round (.ofNat (tenTo n))

def maxPower : Nat := 308

def combine (op : Ratio → Ratio → Ratio) (a b : Magnitude) : Magnitude :=
  match a.value?, b.value? with
  | some r, some s => Format.double.round (op r s)
  | _, _ => .infinite

/-- Divides by a power of ten, in steps of at most `maxPower`. -/
def divideByTens (a : Magnitude) (n : Nat) : Magnitude :=
  if n ≤ maxPower then combine Ratio.div a (powerOfTen n)
  else if a.isZero then a
  else divideByTens (combine Ratio.div a (powerOfTen maxPower)) (n - maxPower)
termination_by n
decreasing_by
  simp only [maxPower] at *
  omega

/-- `significand * 10 ^ exponent`, if it is in range. -/
def ofParts (significand : Nat) (exponent : Int) : Option Magnitude :=
  let s := Format.double.round (.ofNat significand)
  if exponent < 0 then some (divideByTens s (-exponent).toNat)
  else if exponent.toNat ≤ maxPower then
    match combine Ratio.mul s (powerOfTen exponent.toNat) with
    | .infinite => none
    | m => some m
  else if significand = 0 then some s else none

end ProtoSchema.Decimal
