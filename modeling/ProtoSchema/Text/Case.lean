import ProtoSchema.Text.CaseTable

/-! # Letter case

Case mapping of characters and texts. A character may map to several (`ß` becomes `SS`), and a capital
sigma at the end of a word becomes the final small sigma. On ASCII the mappings are those of `Char`.
-/

namespace ProtoSchema.Text

/-- One case mapping, given its tables for the code points above U+007F. -/
def mapCase (shifts : List Shift) (expansions : List (Nat × List Nat)) (c : Char) : List Char :=
  match expansions.lookup c.toNat with
  | some codes => codes.map Char.ofNat
  | none =>
    match shifts.find? (·.run.contains c.toNat) with
    | some s => [Char.ofNat (c.toNat + s.offset).toNat]
    | none => [c]

def upperChar (c : Char) : List Char :=
  if c.toNat < 0x80 then [c.toUpper] else mapCase upperShifts upperExpansions c

def lowerChar (c : Char) : List Char :=
  if c.toNat < 0x80 then [c.toLower] else mapCase lowerShifts lowerExpansions c

def isUpper (c : Char) : Bool :=
  if c.toNat < 0x80 then c.isUpper else inStepped uppercaseRanges c

def isLower (c : Char) : Bool :=
  if c.toNat < 0x80 then c.isLower else inStepped lowercaseRanges c

def upper (cs : List Char) : List Char := cs.flatMap upperChar

/-- Whether the first character that is not ignorable for case is a cased one. -/
def startsCased (cs : List Char) : Bool :=
  match cs.dropWhile (inRanges caseIgnorableRanges) with
  | [] => false
  | c :: _ => inRanges casedRanges c

/-- Lower-cases what follows the characters `before`, given in reverse. -/
def lowerAfter (before : List Char) : List Char → List Char
  | [] => []
  | c :: cs =>
    let mapped :=
      if c = 'Σ' then
        if startsCased before && !startsCased cs then ['ς'] else ['σ']
      else lowerChar c
    mapped ++ lowerAfter (c :: before) cs

def lower (cs : List Char) : List Char := lowerAfter [] cs

end ProtoSchema.Text
