import ProtoSchema.Json
import ProtoSchema.Text.Digit

/-! # Reading JSON

Turns a text into the tree of what can be seen of it. Readers return what follows the value, or nothing
if the text goes wrong inside it; from there on nothing more is looked at.
-/

namespace ProtoSchema.Json

namespace Reader

def isSpace (c : Char) : Bool := c = ' ' || c = '\n' || c = '\t' || c = '\r'

def skipSpace (cs : List Char) : List Char := cs.dropWhile isSpace

/-- A part of a string: a character, or half of a surrogate pair. -/
inductive Part where
  | char (c : Char)
  | half (code : Nat)
deriving DecidableEq, Repr

namespace Part

def ofCode (n : Nat) : Part := if 0xd800 ≤ n && n ≤ 0xdfff then half n else char (Char.ofNat n)

def pair? (high low : Nat) : Option Char :=
  if high < 0xdc00 && 0xdc00 ≤ low then
    some (Char.ofNat (0x10000 + (high - 0xd800) * 0x400 + (low - 0xdc00)))
  else none

/-- Joins the halves; one on its own spoils the string. -/
def assemble : List Part → Option (List Char)
  | [] => some []
  | char c :: ps => (assemble ps).map (c :: ·)
  | half h :: half l :: ps => do
    let c ← pair? h l
    let cs ← assemble ps
    return c :: cs
  | half _ :: _ => none

end Part

def hexCode? (digits : List Char) : Option Nat :=
  if digits.length = 4 && digits.all Text.isHexDigit then some (Text.ofDigits 16 digits) else none

def simpleEscape? (c : Char) : Option Char :=
  if c = '"' || c = '\\' || c = '/' then some c
  else if c = 'b' then some '\x08'
  else if c = 'f' then some '\x0c'
  else if c = 'n' then some '\n'
  else if c = 'r' then some '\r'
  else if c = 't' then some '\t'
  else none

/-- The parts of a string after its opening quote, and what follows its closing one. -/
def parts : List Char → Option (List Part × List Char)
  | [] => none
  | '"' :: cs => some ([], cs)
  | '\\' :: 'u' :: a :: b :: c :: d :: cs => do
    let code ← hexCode? [a, b, c, d]
    let (ps, rest) ← parts cs
    return (Part.ofCode code :: ps, rest)
  | '\\' :: e :: cs => do
    let c ← simpleEscape? e
    let (ps, rest) ← parts cs
    return (.char c :: ps, rest)
  | c :: cs =>
    if c.toNat < 0x20 || c = '\\' then none
    else do
      let (ps, rest) ← parts cs
      return (.char c :: ps, rest)

/-- A string after its opening quote: its text, if it has one, and what follows. -/
def stringTail (cs : List Char) : Option (Option String × List Char) := do
  let (ps, rest) ← parts cs
  return ((Part.assemble ps).map String.ofList, rest)

def digits? (cs : List Char) : Option (List Char × List Char) :=
  match cs.takeWhile Char.isDigit with
  | [] => none
  | ds => some (ds, cs.dropWhile Char.isDigit)

/-- The digits in front of the point: no zero stands before another digit. -/
def integer? (cs : List Char) : Option (List Char × List Char) :=
  match cs with
  | '0' :: c :: rest => if c.isDigit then none else some (['0'], c :: rest)
  | _ => digits? cs

def fraction? : List Char → Option (List Char × List Char)
  | '.' :: cs => (digits? cs).map fun r => ('.' :: r.1, r.2)
  | cs => some ([], cs)

def exponent? (cs : List Char) : Option (List Char × List Char) :=
  match cs with
  | e :: rest =>
    if e = 'e' || e = 'E' then
      match rest with
      | s :: more =>
        if s = '+' || s = '-' then (digits? more).map fun r => (e :: s :: r.1, r.2)
        else (digits? rest).map fun r => (e :: r.1, r.2)
      | [] => none
    else some ([], cs)
  | [] => some ([], [])

def unsigned? (cs : List Char) : Option (List Char × List Char) := do
  let (i, cs) ← integer? cs
  let (f, cs) ← fraction? cs
  let (e, cs) ← exponent? cs
  return (i ++ f ++ e, cs)

def number? : List Char → Option (List Char × List Char)
  | '-' :: cs => (unsigned? cs).map fun r => ('-' :: r.1, r.2)
  | cs => unsigned? cs

/-- A value that is neither a string nor has parts. -/
def atom (cs : List Char) : Json × Option (List Char) :=
  match cs with
  | 'n' :: 'u' :: 'l' :: 'l' :: rest => (.null, some rest)
  | 't' :: 'r' :: 'u' :: 'e' :: rest => (.bool true, some rest)
  | 'f' :: 'a' :: 'l' :: 's' :: 'e' :: rest => (.bool false, some rest)
  | _ =>
    match number? cs with
    | some (literal, rest) => (.number (String.ofList literal), some rest)
    | none => (.cut, none)

mutual

/-- A value, after blanks. The first argument bounds the number of calls. -/
def value : Nat → List Char → Json × Option (List Char)
  | 0, _ => (.cut, none)
  | n + 1, cs =>
    match skipSpace cs with
    | [] => (.cut, none)
    | '"' :: r =>
      match stringTail r with
      | some (text, rest) => (.string text, some rest)
      | none => (.cut, none)
    | '[' :: r =>
      match skipSpace r with
      | ']' :: rest => (.array [] true, some rest)
      | r' =>
        let (js, rest) := items n r'
        (.array js rest.isSome, rest)
    | '\x7b' :: r =>
      match skipSpace r with
      | '\x7d' :: rest => (.object [] true, some rest)
      | r' =>
        let (es, rest) := entries n r'
        (.object es rest.isSome, rest)
    | r => atom r

def items : Nat → List Char → List Json × Option (List Char)
  | 0, _ => ([], none)
  | n + 1, cs =>
    match value n cs with
    | (j, none) => ([j], none)
    | (j, some rest) =>
      match skipSpace rest with
      | ']' :: r => ([j], some r)
      | ',' :: r =>
        let (js, after) := items n r
        (j :: js, after)
      | _ => ([j], none)

def entries : Nat → List Char → List (Option String × Json) × Option (List Char)
  | 0, _ => ([], none)
  | n + 1, cs =>
    match skipSpace cs with
    | '"' :: r =>
      match stringTail r with
      | none => ([], none)
      | some (key, r') =>
        match skipSpace r' with
        | ':' :: r'' =>
          match value n r'' with
          | (j, none) => ([(key, j)], none)
          | (j, some rest) =>
            match skipSpace rest with
            | '\x7d' :: after => ([(key, j)], some after)
            | ',' :: after =>
              let (es, last) := entries n after
              ((key, j) :: es, last)
            | _ => ([(key, j)], none)
        | _ => ([(key, .bare)], none)
    | _ => ([], none)

end

end Reader

/-- A text read as one value: the value, and whether the text ends with it. -/
structure Document where
  value : Json
  complete : Bool
deriving Repr

namespace Document

/-- Reads a text. Every two calls of a reader take a character. -/
def ofText (text : String) : Document :=
  let cs := text.toList
  let (j, rest) := Reader.value (2 * cs.length + 2) cs
  ⟨j, rest.any fun r => (Reader.skipSpace r).isEmpty⟩

end Document

end ProtoSchema.Json
