import ProtoSchema.Decimal.Binary

/-! # Shortest decimals

The shortest decimal that reads back as a given magnitude, the nearest one if there are several, and
the ways in which it is laid out. Of two that are equally near, the layout says which.
-/

namespace ProtoSchema.Decimal

/-- `digits * 10 ^ exponent` -/
structure Digits where
  digits : Nat
  exponent : Int
deriving DecidableEq, Repr

namespace Digits

def trim (d : Digits) : Digits :=
  if h : d.digits ≠ 0 ∧ d.digits % 10 = 0 then
    have : d.digits / 10 < d.digits := Nat.div_lt_self (Nat.pos_of_ne_zero h.1) (by decide)
    trim ⟨d.digits / 10, d.exponent + 1⟩
  else d
termination_by d.digits

def chars (d : Digits) : List Char := Nat.toDigits 10 d.digits

def leading (d : Digits) : Int := d.exponent + d.chars.length - 1

end Digits

/-- `r * 10 ^ e` -/
def scaleTen (r : Ratio) (e : Int) : Ratio :=
  if 0 ≤ e then ⟨r.num * tenTo e.toNat, r.den⟩ else ⟨r.num, r.den * tenTo (-e).toNat⟩

def decimalLength (n : Nat) : Nat := (Nat.toDigits 10 n).length

/-- The power of ten of the first digit of a positive rational. -/
def leadingPower (r : Ratio) : Int :=
  if r.den ≤ r.num then (decimalLength (r.num / r.den) : Int) - 1
  else
    let n := decimalLength (r.den / r.num)
    if r.den ≤ r.num * tenTo (n - 1) then -((n : Int) - 1) else -(n : Int)

/-- Which of two integers equally near a rational is taken. -/
inductive Tie where
  | even
  | up
deriving DecidableEq, Repr

namespace Tie

def nearest : Tie → Ratio → Nat
  | even, r => r.nearest
  | up, r => (2 * r.num + r.den) / (2 * r.den)

end Tie

/-- The rationals that round to one magnitude: an interval, closed if the mantissa is even. -/
structure Neighbourhood where
  value : Ratio
  low : Ratio
  high : Ratio
  closed : Bool
deriving Repr

namespace Neighbourhood

/-- Below a power of two the next magnitude is only half as far. -/
def of (f : Format) (m : Nat) (e : Int) : Neighbourhood where
  value := (Ratio.ofNat (4 * m)).scale (e - 2)
  low :=
    (Ratio.ofNat (if m = twoTo (f.precision - 1) ∧ f.least < e then 4 * m - 1 else 4 * m - 2)).scale
      (e - 2)
  high := (Ratio.ofNat (4 * m + 2)).scale (e - 2)
  closed := m % 2 = 0

def contains (n : Neighbourhood) (r : Ratio) : Bool :=
  if n.closed then n.low.le r && r.le n.high else n.low.lt r && r.lt n.high

/-- The best decimal with the given last place, if one is in the neighbourhood. -/
def decimal? (n : Neighbourhood) (tie : Tie) (place : Int) : Option Digits :=
  let scaled := scaleTen n.value (-place)
  let below := scaled.floor
  let inside (d : Nat) : Bool := n.contains (scaleTen (.ofNat d) place)
  match inside below && below ≠ 0, inside (below + 1) with
  | true, true => some ⟨tie.nearest scaled, place⟩
  | true, false => some ⟨below, place⟩
  | false, true => some ⟨below + 1, place⟩
  | false, false => none

def search (n : Neighbourhood) (tie : Tie) (place : Int) : Nat → Digits
  | 0 => ⟨tie.nearest (scaleTen n.value (-place)), place⟩
  | more + 1 =>
    match n.decimal? tie place with
    | some d => d
    | none => n.search tie (place - 1) more

end Neighbourhood

def maxDigits : Nat := 17

/-- The shortest decimal of a magnitude `m * 2 ^ e`. -/
def shortest (f : Format) (tie : Tie) (m : Nat) (e : Int) : Digits :=
  if m = 0 then ⟨0, 0⟩
  else
    let n := Neighbourhood.of f m e
    (n.search tie (leadingPower n.value) (maxDigits - 1)).trim

/-- Digits with the point after `before` of them. -/
def positional (d : Digits) (fraction : Bool) : List Char :=
  let cs := d.chars
  let lead := d.leading
  if lead < 0 then '0' :: '.' :: List.replicate (-lead - 1).toNat '0' ++ cs
  else if 0 ≤ d.exponent then
    cs ++ List.replicate d.exponent.toNat '0' ++ (if fraction then ['.', '0'] else [])
  else cs.take (lead.toNat + 1) ++ '.' :: cs.drop (lead.toNat + 1)

def scientific (d : Digits) : List Char :=
  let mantissa :=
    match d.chars with
    | [] => []
    | [c] => [c]
    | c :: cs => c :: '.' :: cs
  let e := d.leading
  mantissa ++ 'e' :: (if e < 0 then '-' else '+') :: Nat.toDigits 10 e.natAbs

/-- How numbers of a format are written in JSON: positional between two powers of ten, and always
with a fraction or an exponent. Of two decimals equally near, the even one is written. -/
structure Layout where
  format : Format
  least : Int
  greatest : Int
deriving DecidableEq, Repr

namespace Layout

def double : Layout := ⟨.double, -5, 15⟩

def single : Layout := ⟨.single, -6, 12⟩

/-- The text of a finite number; infinity has none. -/
def text? (l : Layout) (b : Binary) : Option (List Char) :=
  match b.magnitude with
  | .infinite => none
  | .finite m e =>
    let d := shortest l.format .even m e
    let unsigned :=
      if l.least ≤ d.leading ∧ d.leading ≤ l.greatest then positional d true else scientific d
    some (if b.negative then '-' :: unsigned else unsigned)

end Layout

/-- A double without an exponent, as diagnostics show it. Of two decimals equally near, the one
further from zero is written. -/
def plainText (b : Binary) : List Char :=
  match b.magnitude with
  | .infinite => if b.negative then "-inf".toList else "inf".toList
  | .finite m e =>
    let unsigned := positional (shortest .double .up m e) false
    if b.negative then '-' :: unsigned else unsigned

end ProtoSchema.Decimal
