/-! # Tables of code points

A Unicode property is a list of ranges of code points. A stepped range `⟨a, b, s⟩` holds every `s`-th
code point from `a` to `b`; alternating capital and small letters are runs of step two.
-/

namespace ProtoSchema.Text

/-- The code points `first`, `first + step`, … up to `last`. -/
structure Stepped where
  first : Nat
  last : Nat
  step : Nat
deriving Repr, DecidableEq

namespace Stepped

def contains (r : Stepped) (n : Nat) : Bool :=
  r.first ≤ n && n ≤ r.last && (n - r.first) % r.step == 0

end Stepped

def inRanges (ranges : List (Nat × Nat)) (c : Char) : Bool :=
  ranges.any fun r => r.1 ≤ c.toNat && c.toNat ≤ r.2

def inStepped (ranges : List Stepped) (c : Char) : Bool :=
  ranges.any (·.contains c.toNat)

end ProtoSchema.Text
