import Mathlib.Data.List.Basic
import ProtoSchema.Naming
import ProtoSchema.Proofs.Text.Digits
import ProtoSchema.Token

/-! # Identifiers

The identifiers made from plain names are plain: letters of ASCII, digits and underscores. Module
names are plain even if the names they are made from are not. None of them is a reserved word.
-/

namespace ProtoSchema

open Piece (isNamePart)

/-- Letters, digits and underscores. -/
def IsPlain (cs : List Char) : Prop := ∀ c ∈ cs, isNamePart c = true

theorem lt_of_isNamePart {c : Char} (h : isNamePart c = true) : c.toNat < 0x80 := by
  delta isNamePart Char.isAlphanum Char.isAlpha Char.isUpper Char.isLower Char.isDigit at h
  simp only [Bool.or_eq_true, Bool.and_eq_true, decide_eq_true_eq] at h
  change c.val.toNat < 128
  rcases h with ((h | h) | h) | rfl
  · exact Nat.lt_of_le_of_lt h.2 (by decide)
  · exact Nat.lt_of_le_of_lt h.2 (by decide)
  · exact Nat.lt_of_le_of_lt h.2 (by decide)
  · decide

theorem isNamePart_case {c : Char} (h : isNamePart c = true) :
    isNamePart c.toUpper = true ∧ isNamePart c.toLower = true := by
  have hall : ∀ c : Char, c.toNat < 0x80 → isNamePart c = true →
      isNamePart c.toUpper = true ∧ isNamePart c.toLower = true := forall_ascii (by decide +kernel)
  exact hall c (lt_of_isNamePart h) h

namespace IsPlain

variable {cs ds : List Char}

theorem append (h : IsPlain cs) (h' : IsPlain ds) : IsPlain (cs ++ ds) :=
  List.forall_mem_append.2 ⟨h, h'⟩

theorem cons {c : Char} (hc : isNamePart c = true) (h : IsPlain cs) : IsPlain (c :: cs) :=
  List.forall_mem_cons.2 ⟨hc, h⟩

theorem colon_not_mem (h : IsPlain cs) : ':' ∉ cs := by
  intro hmem
  exact absurd (h _ hmem) (by decide)

end IsPlain

namespace Text

variable {c : Char} {cs : List Char}

theorem upperChar_of_isNamePart (h : isNamePart c = true) : upperChar c = [c.toUpper] := by
  rw [upperChar, if_pos (lt_of_isNamePart h)]

theorem lowerChar_of_isNamePart (h : isNamePart c = true) : lowerChar c = [c.toLower] := by
  rw [lowerChar, if_pos (lt_of_isNamePart h)]

/-- Where there is no sigma, what stands before a letter does not matter. -/
theorem lowerAfter_eq_map (h : IsPlain cs) (before : List Char) :
    lowerAfter before cs = cs.map Char.toLower := by
  induction cs generalizing before with
  | nil => rfl
  | cons c cs ih =>
    obtain ⟨hc, hcs⟩ := List.forall_mem_cons.1 h
    have hsigma : c ≠ 'Σ' := by
      rintro rfl
      exact absurd hc (by decide)
    rw [lowerAfter, if_neg hsigma, lowerChar_of_isNamePart hc, ih hcs]
    rfl

theorem isPlain_upperChar (h : isNamePart c = true) : IsPlain (upperChar c) := by
  rw [upperChar_of_isNamePart h]
  exact List.forall_mem_singleton.2 (isNamePart_case h).1

theorem isPlain_lowerChar (h : isNamePart c = true) : IsPlain (lowerChar c) := by
  rw [lowerChar_of_isNamePart h]
  exact List.forall_mem_singleton.2 (isNamePart_case h).2

theorem isPlain_lowerAfter (h : IsPlain cs) (before : List Char) :
    IsPlain (lowerAfter before cs) := by
  rw [lowerAfter_eq_map h]
  intro c hc
  obtain ⟨d, hd, rfl⟩ := List.mem_map.1 hc
  exact (isNamePart_case (h d hd)).2

end Text

namespace Naming

open Text

variable {c : Char} {cs : List Char}

theorem isPlain_capitalize (h : IsPlain cs) : IsPlain (capitalize cs) := by
  cases cs with
  | nil => exact h
  | cons c cs =>
    obtain ⟨hc, hcs⟩ := List.forall_mem_cons.1 h
    rw [capitalize]
    apply (isPlain_upperChar hc).append
    split
    · exact isPlain_lowerAfter hcs []
    · exact hcs

theorem isPlain_splitAt (sep : Char) (h : IsPlain cs) : ∀ part ∈ splitAt sep cs, IsPlain part := by
  induction cs with
  | nil => exact List.forall_mem_singleton.2 h
  | cons c cs ih =>
    obtain ⟨hc, hcs⟩ := List.forall_mem_cons.1 h
    have hparts := ih hcs
    rw [splitAt]
    split
    · exact List.forall_mem_cons.2 ⟨by simp [IsPlain], hparts⟩
    split
    · exact List.forall_mem_singleton.2 (List.forall_mem_singleton.2 hc)
    · next part parts heq =>
      rw [heq] at hparts
      obtain ⟨hpart, hrest⟩ := List.forall_mem_cons.1 hparts
      exact List.forall_mem_cons.2 ⟨hpart.cons hc, hrest⟩

theorem isPlain_pascalChars (h : IsPlain cs) : IsPlain (pascalChars cs) := by
  rw [pascalChars]
  split
  · intro c hc
    obtain ⟨part, hpart, hc⟩ := List.mem_flatMap.1 hc
    exact isPlain_capitalize (isPlain_splitAt '_' h part (List.mem_of_mem_filter hpart)) c hc
  · exact isPlain_capitalize h

theorem isPlain_snakeFrom (h : IsPlain cs) (before : Option Char) :
    IsPlain (snakeFrom before cs) := by
  induction cs generalizing before with
  | nil => exact h
  | cons c cs ih =>
    obtain ⟨hc, hcs⟩ := List.forall_mem_cons.1 h
    rw [snakeFrom]
    refine IsPlain.append ?_ (ih hcs _)
    split
    · split
      · exact (isPlain_lowerChar hc).cons (by decide)
      · exact isPlain_lowerChar hc
    · exact List.forall_mem_singleton.2 hc

/-- A character of a file stem or an option, as it stands in the module name. -/
def cleanChar (c : Char) : Char := if c.isAlphanum || c = '_' then c else '_'

theorem isPlain_cleanChars (cs : List Char) : IsPlain (cs.map cleanChar) := by
  intro c hc
  obtain ⟨d, -, rfl⟩ := List.mem_map.1 hc
  rw [cleanChar]
  split
  · assumption
  · decide

def moduleChars : List Char → List Char
  | [] => ['_']
  | c :: cs => if c.isDigit then '_' :: c :: cs else c :: cs

theorem moduleName_eq (s : String) :
    moduleName s = escape (String.ofList (moduleChars (snakeChars (s.toList.map cleanChar)))) := by
  have hcleaned : (s.toList.map fun c => if c.isAlphanum || c = '_' then c else '_') =
      s.toList.map cleanChar := rfl
  simp only [moduleName, hcleaned]
  cases snakeChars (s.toList.map cleanChar) <;> rfl

theorem mem_moduleChars (h : c ∈ moduleChars cs) : c ∈ cs ∨ c = '_' := by
  cases cs with
  | nil => exact .inr (List.mem_singleton.1 h)
  | cons d ds =>
    rw [moduleChars] at h
    split at h
    · exact (List.mem_cons.1 h).symm
    · exact .inl h

theorem isPlain_moduleChars (h : IsPlain cs) : IsPlain (moduleChars cs) := by
  intro c hc
  rcases mem_moduleChars hc with hmem | rfl
  · exact h c hmem
  · decide

theorem mem_escape {s : String} (h : c ∈ (escape s).toList) : c ∈ s.toList ∨ c = '_' := by
  rw [escape] at h
  split at h
  · rw [String.toList_append] at h
    exact (List.mem_append.1 h).imp_right List.mem_singleton.1
  · exact .inl h

theorem isPlain_escape {s : String} (h : IsPlain s.toList) : IsPlain (escape s).toList := by
  intro c hc
  rcases mem_escape hc with hmem | rfl
  · exact h c hmem
  · decide

theorem escape_not_mem (s : String) : escape s ∉ reservedWords := by
  rw [escape]
  split
  · next h =>
    have hall : ∀ w ∈ reservedWords, w ++ "_" ∉ reservedWords := by decide +kernel
    exact hall s h
  · next h => exact h

theorem isPlain_typeIdent {name : String} (h : IsPlain name.toList) :
    IsPlain (typeIdent name).toList := by
  apply isPlain_escape
  rw [pascalCase, String.toList_ofList]
  exact isPlain_pascalChars h

theorem isPlain_moduleIdent {name : String} (h : IsPlain name.toList) :
    IsPlain (moduleIdent name).toList := by
  apply isPlain_escape
  rw [snakeCase, String.toList_ofList]
  exact isPlain_snakeFrom h none

theorem isPlain_moduleName (name : String) : IsPlain (moduleName name).toList := by
  rw [moduleName_eq]
  apply isPlain_escape
  rw [String.toList_ofList]
  exact isPlain_moduleChars (isPlain_snakeFrom (isPlain_cleanChars name.toList) none)

end Naming

end ProtoSchema
