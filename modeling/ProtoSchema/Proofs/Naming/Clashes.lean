import ProtoSchema.Proofs.Naming.Identifiers
import ProtoSchema.Proofs.Naming.JsonName

/-! # Names that become one

Different names can become the same identifier. Names of types do just if they are the same in
Pascal case, since the underscore behind a reserved word occurs nowhere else. Names of fields and
modules can also meet in that underscore.
-/

namespace ProtoSchema

open Piece (isNamePart)

namespace Text

variable {cs : List Char}

theorem toLower_ne_underscore {c : Char} (h : isNamePart c = true) (hc : c ≠ '_') :
    c.toLower ≠ '_' := by
  have hall : ∀ c : Char, c.toNat < 0x80 → c ≠ '_' → c.toLower ≠ '_' :=
    forall_ascii (by decide +kernel)
  exact hall c (lt_of_isNamePart h) hc

theorem underscore_not_mem_lowerAfter (h : IsPlain cs) (hcs : '_' ∉ cs) (before : List Char) :
    '_' ∉ lowerAfter before cs := by
  rw [lowerAfter_eq_map h]
  intro hmem
  obtain ⟨c, hc, heq⟩ := List.mem_map.1 hmem
  exact toLower_ne_underscore (h c hc) (ne_of_mem_of_not_mem hc hcs) heq

end Text

namespace Naming

open Text

variable {cs : List Char} {s t x y : String}

theorem not_mem_splitAt (sep : Char) (cs : List Char) : ∀ part ∈ splitAt sep cs, sep ∉ part := by
  induction cs with
  | nil => simp [splitAt]
  | cons c cs ih =>
    rw [splitAt]
    split
    · exact List.forall_mem_cons.2 ⟨by simp, ih⟩
    · next hc =>
      split
      · simpa using Ne.symm hc
      · next part parts heq =>
        rw [heq] at ih
        obtain ⟨hpart, hparts⟩ := List.forall_mem_cons.1 ih
        refine List.forall_mem_cons.2 ⟨?_, hparts⟩
        rw [List.mem_cons, not_or]
        exact ⟨Ne.symm hc, hpart⟩

theorem underscore_not_mem_capitalize (h : IsPlain cs) (hcs : '_' ∉ cs) : '_' ∉ capitalize cs := by
  cases cs with
  | nil => exact hcs
  | cons c cs =>
    obtain ⟨_, hrest⟩ := List.forall_mem_cons.1 h
    obtain ⟨hne, hcs⟩ := not_or.1 (List.mem_cons.not.1 hcs)
    rw [capitalize, List.mem_append, not_or]
    refine ⟨underscore_not_mem_upperChar (Ne.symm hne), ?_⟩
    split
    · exact underscore_not_mem_lowerAfter hrest hcs []
    · exact hcs

theorem underscore_not_mem_pascalChars (h : IsPlain cs) : '_' ∉ pascalChars cs := by
  rw [pascalChars]
  split
  · intro hmem
    obtain ⟨part, hpart, hmem⟩ := List.mem_flatMap.1 hmem
    have hsplit := List.mem_of_mem_filter hpart
    exact underscore_not_mem_capitalize (isPlain_splitAt '_' h part hsplit)
      (not_mem_splitAt '_' cs part hsplit) hmem
  · next hcs => exact underscore_not_mem_capitalize h hcs

theorem escape_eq_iff : escape s = escape t ↔ s = t ∨ s ∈ reservedWords ∧ t = s ++ "_" ∨
    t ∈ reservedWords ∧ s = t ++ "_" := by
  have hfree : ∀ w ∈ reservedWords, w ++ "_" ∉ reservedWords := by decide +kernel
  by_cases hs : s ∈ reservedWords <;> by_cases ht : t ∈ reservedWords
  · simp only [escape, hs, ht, if_true, String.append_left_inj, true_and]
    refine ⟨.inl, ?_⟩
    rintro (h | rfl | rfl)
    · exact h
    · exact absurd ht (hfree s hs)
    · exact absurd hs (hfree t ht)
  · simp only [escape, hs, ht, if_true, if_false, true_and, false_and, or_false]
    refine ⟨fun h => .inr h.symm, ?_⟩
    rintro (rfl | h)
    · exact absurd hs ht
    · exact h.symm
  · simp only [escape, hs, ht, if_true, if_false, true_and, false_and, false_or]
    refine ⟨.inr, ?_⟩
    rintro (rfl | h)
    · exact absurd ht hs
    · exact h
  · simp [escape, hs, ht]

theorem underscore_not_mem_pascalCase (h : IsPlain x.toList) : '_' ∉ (pascalCase x).toList := by
  rw [pascalCase, String.toList_ofList]
  exact underscore_not_mem_pascalChars h

theorem typeIdent_eq_iff (hx : IsPlain x.toList) (hy : IsPlain y.toList) :
    typeIdent x = typeIdent y ↔ pascalCase x = pascalCase y := by
  have hne {s t : String} (h : '_' ∉ t.toList) : t ≠ s ++ "_" := by
    rintro rfl
    simp at h
  rw [typeIdent, typeIdent, escape_eq_iff]
  simp [hne (underscore_not_mem_pascalCase hx), hne (underscore_not_mem_pascalCase hy)]

/-- Two names are the same in snake case, or one of them is a reserved word there and the other one
is that word with an underscore. -/
def Meet (x y : String) : Prop :=
  snakeCase x = snakeCase y ∨ snakeCase x ∈ reservedWords ∧ snakeCase y = snakeCase x ++ "_" ∨
    snakeCase y ∈ reservedWords ∧ snakeCase x = snakeCase y ++ "_"

instance (x y : String) : Decidable (Meet x y) := inferInstanceAs (Decidable (_ ∨ _))

theorem fieldIdent_eq_iff : fieldIdent x = fieldIdent y ↔ Meet x y := escape_eq_iff

theorem moduleIdent_eq_iff : moduleIdent x = moduleIdent y ↔ Meet x y := escape_eq_iff

theorem isPlain_snakeCase (h : IsPlain x.toList) : IsPlain (snakeCase x).toList := by
  rw [snakeCase, String.toList_ofList]
  exact isPlain_snakeFrom h none

theorem isPlain_fieldIdent (h : IsPlain x.toList) : IsPlain (fieldIdent x).toList :=
  isPlain_escape (isPlain_snakeCase h)

end Naming

end ProtoSchema
