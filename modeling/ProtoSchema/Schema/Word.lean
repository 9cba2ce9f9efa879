import ProtoSchema.Token

/-! # Words

The kinds of word a statement is made of, and the values of integers and string literals.
-/

namespace ProtoSchema.Word

open Piece Text

def isIdentifier (text : String) : Bool :=
  match text.toList with
  | [] => false
  | c :: cs => isNameStart c && cs.all isNamePart

/-- Whether a splitting rule takes the whole of a text. -/
def covers (rule : List Char → Option (List Char × List Char)) (text : String) : Bool :=
  match rule text.toList with
  | some (_, []) => true
  | _ => false

def isTypeName (text : String) : Bool := covers typeName? text

def isPackageName (text : String) : Bool := covers name? text

/-- Digits in base sixteen after `0x`, if that is what the text is. -/
def hexDigits? : List Char → Option (List Char)
  | '0' :: x :: c :: cs =>
    if (x = 'x' || x = 'X') && (c :: cs).all isHexDigit then some (c :: cs) else none
  | _ => none

def isMagnitude (cs : List Char) : Bool := (hexDigits? cs).isSome || (!cs.isEmpty && cs.all isDigit)

def splitSign : List Char → Bool × List Char
  | '-' :: cs => (true, cs)
  | cs => (false, cs)

def isInteger (text : String) : Bool := isMagnitude (splitSign text.toList).2

/-- The digits of other scripts are digits without a value. -/
def magnitudeValue? (cs : List Char) : Option Nat :=
  match hexDigits? cs with
  | some digits => some (ofDigits 16 digits)
  | none => if cs.all Char.isDigit then some (ofDigits 10 cs) else none

def minInt32 : Int := -2147483648

def maxInt32 : Int := 2147483647

/-- The value of an integer word, if it fits 32 bits. -/
def integerValue? (text : String) : Option Int := do
  let (negative, digits) := splitSign text.toList
  let n ← magnitudeValue? digits
  let value : Int := if negative then -(n : Int) else n
  if minInt32 ≤ value ∧ value ≤ maxInt32 then some value else none

def afterLiteral (q : Char) : List Char → Option (List Char)
  | [] => none
  | '\\' :: c :: cs => if c = '\n' then none else afterLiteral q cs
  | c :: cs =>
    if c = q then some cs else if c = '\\' then none else afterLiteral q cs

def isStringLiteral (text : String) : Bool :=
  match text.toList with
  | [] => false
  | q :: cs => (q = '"' || q = '\'') && afterLiteral q cs == some []

def escaped (c : Char) : Char :=
  if c = 'n' then '\n' else if c = 't' then '\t' else if c = 'r' then '\r'
  else if c = '0' then '\x00' else c

def unescape : List Char → List Char
  | [] => []
  | '\\' :: c :: cs => escaped c :: unescape cs
  | c :: cs => if c = '\\' then unescape cs else c :: unescape cs

def literalValue (text : String) : String := String.ofList (unescape (text.toList.drop 1).dropLast)

end ProtoSchema.Word
