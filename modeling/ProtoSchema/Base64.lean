/-! # Base64

Bytes as text, three bytes in four symbols. Writing uses the standard alphabet and pads the last group.
Reading takes the standard or the URL-safe alphabet, and any part of the padding may be missing.
-/

namespace ProtoSchema.Base64

inductive Alphabet where
  | standard
  | urlSafe
deriving DecidableEq, Repr

inductive Fault where
  | symbol (byte : UInt8) (offset : Nat)
  | lastSymbol (byte : UInt8) (offset : Nat)
  | length (n : Nat)
deriving DecidableEq, Repr

namespace Fault

def message : Fault → String
  | symbol byte offset => s!"Invalid symbol {byte.toNat}, offset {offset}."
  | lastSymbol byte offset => s!"Invalid last symbol {byte.toNat}, offset {offset}."
  | length n => s!"Invalid input length: {n}"

end Fault

def pad : UInt8 := 61

namespace Alphabet

/-- The symbols for 62 and 63. -/
def lastTwo : Alphabet → UInt8 × UInt8
  | standard => (43, 47)
  | urlSafe => (45, 95)

/-- The symbol of a number below 64. -/
def symbol (a : Alphabet) (n : Nat) : UInt8 :=
  if n < 26 then UInt8.ofNat (65 + n)
  else if n < 52 then UInt8.ofNat (97 + (n - 26))
  else if n < 62 then UInt8.ofNat (48 + (n - 52))
  else if n = 62 then a.lastTwo.1
  else a.lastTwo.2

def value? (a : Alphabet) (b : UInt8) : Option Nat :=
  let n := b.toNat
  if 65 ≤ n && n ≤ 90 then some (n - 65)
  else if 97 ≤ n && n ≤ 122 then some (n - 97 + 26)
  else if 48 ≤ n && n ≤ 57 then some (n - 48 + 52)
  else if b = a.lastTwo.1 then some 62
  else if b = a.lastTwo.2 then some 63
  else none

/-- The numbers of some symbols, the first at the given offset. -/
def values (a : Alphabet) (offset : Nat) : List UInt8 → Except Fault (List Nat)
  | [] => .ok []
  | b :: bs =>
    match a.value? b with
    | none => .error (.symbol b offset)
    | some n => (a.values (offset + 1) bs).map (n :: ·)

end Alphabet

def encodeWith (a : Alphabet) : List UInt8 → List UInt8
  | [] => []
  | [x] =>
    let n := x.toNat * 16
    [a.symbol (n / 64), a.symbol (n % 64), pad, pad]
  | [x, y] =>
    let n := (x.toNat * 256 + y.toNat) * 4
    [a.symbol (n / 4096), a.symbol (n / 64 % 64), a.symbol (n % 64), pad]
  | x :: y :: z :: rest =>
    let n := (x.toNat * 256 + y.toNat) * 256 + z.toNat
    a.symbol (n / 262144) :: a.symbol (n / 4096 % 64) :: a.symbol (n / 64 % 64)
      :: a.symbol (n % 64) :: encodeWith a rest

/-- Symbols are ASCII, so each byte is a character. -/
def encode (bytes : List UInt8) : String :=
  String.ofList ((encodeWith .standard bytes).map fun b => Char.ofNat b.toNat)

/-- The bytes of the numbers of a group; none if a bit is set that belongs to no byte. -/
def groupBytes : List Nat → Option (List UInt8)
  | [p, q] => if q % 16 = 0 then some [UInt8.ofNat (p * 4 + q / 16)] else none
  | [p, q, r] =>
    if r % 4 = 0 then
      some [UInt8.ofNat (p * 4 + q / 16), UInt8.ofNat (q % 16 * 16 + r / 4)]
    else none
  | [p, q, r, s] =>
    some [UInt8.ofNat (p * 4 + q / 16), UInt8.ofNat (q % 16 * 16 + r / 4),
      UInt8.ofNat (r % 4 * 64 + s)]
  | _ => none

/-- The last group: at least two symbols and nothing but padding behind them. -/
def decodeLast (a : Alphabet) (offset : Nat) (group : List UInt8) : Except Fault (List UInt8) := do
  let symbols := group.takeWhile (· ≠ pad)
  let padding := group.dropWhile (· ≠ pad)
  let ns ← a.values offset symbols
  if !padding.isEmpty && (symbols.length < 2 || padding.any (· ≠ pad)) then
    .error (.symbol pad (offset + symbols.length))
  else if symbols.length < 2 then .error (.length (offset + symbols.length))
  else
    match groupBytes ns with
    | some bytes => .ok bytes
    | none => .error (.lastSymbol (symbols.getLastD pad) (offset + symbols.length - 1))

/-- Reads groups of four; the last one is that which no byte follows. -/
def decodeGroups (a : Alphabet) (offset : Nat) : List UInt8 → Except Fault (List UInt8)
  | [] => .ok []
  | b₀ :: b₁ :: b₂ :: b₃ :: b₄ :: rest => do
    let ns ← a.values offset [b₀, b₁, b₂, b₃]
    let bytes ← decodeGroups a (offset + 4) (b₄ :: rest)
    return (groupBytes ns).getD [] ++ bytes
  | group => decodeLast a offset group

/-- A last symbol that stands alone in its group is looked at before all others. -/
def decodeWith (a : Alphabet) (symbols : List UInt8) : Except Fault (List UInt8) :=
  match symbols.getLast? with
  | none => .ok []
  | some last =>
    if symbols.length % 4 = 1 && last ≠ pad && (a.value? last).isNone then
      .error (.symbol last (symbols.length - 1))
    else decodeGroups a 0 symbols

/-- The bytes of a text in UTF-8. -/
def bytesOf (text : String) : List UInt8 := text.toList.flatMap String.utf8EncodeChar

/-- Reads the standard alphabet, else the URL-safe one. -/
def decode (text : String) : Except Fault (List UInt8) :=
  let symbols := bytesOf text
  match decodeWith .standard symbols with
  | .ok bytes => .ok bytes
  | .error fault =>
    match decodeWith .urlSafe symbols with
    | .ok bytes => .ok bytes
    | .error _ => .error fault

end ProtoSchema.Base64
