import ProtoSchema.Text.Printable

/-! # Quoted text

Two ways to show a text between double quotes. `quoted` is the string form of JSON, which leaves
everything but quotes, backslashes and control characters as it is. `shown` is for diagnostics and
also escapes the characters that have no appearance of their own.
-/

namespace ProtoSchema.Text

/-- The digits of `n` in base sixteen, at least `width` of them, in lower case. -/
def hex (width n : Nat) : List Char :=
  let digits := Nat.toDigits 16 n
  List.replicate (width - digits.length) '0' ++ digits

def quotedChar (c : Char) : List Char :=
  if c = '"' then ['\\', '"']
  else if c = '\\' then ['\\', '\\']
  else if c = '\n' then ['\\', 'n']
  else if c = '\r' then ['\\', 'r']
  else if c = '\t' then ['\\', 't']
  else if c = '\x08' then ['\\', 'b']
  else if c = '\x0c' then ['\\', 'f']
  else if c.toNat < 0x20 then ['\\', 'u'] ++ hex 4 c.toNat
  else [c]

def quoted (cs : List Char) : List Char := '"' :: cs.flatMap quotedChar ++ ['"']

def quote (s : String) : String := String.ofList (quoted s.toList)

def shownChar (c : Char) : List Char :=
  if c = '"' then ['\\', '"']
  else if c = '\\' then ['\\', '\\']
  else if c = '\n' then ['\\', 'n']
  else if c = '\r' then ['\\', 'r']
  else if c = '\t' then ['\\', 't']
  else if c = '\x00' then ['\\', '0']
  else if isPrintable c then [c]
  else ['\\', 'u', '\x7b'] ++ hex 1 c.toNat ++ ['\x7d']

def shown (cs : List Char) : List Char := '"' :: cs.flatMap shownChar ++ ['"']

def display (s : String) : String := String.ofList (shown s.toList)

end ProtoSchema.Text
