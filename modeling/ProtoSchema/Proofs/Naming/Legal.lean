import ProtoSchema.Proofs.Naming.Clashes
import ProtoSchema.Proofs.Schema.Word

/-! # Identifiers that code can define

An identifier is legal if it has the form of a name, is not the lone underscore and is no keyword.
Reserved words are escaped, so a spelled name can only fail in its first character or by being the
lone underscore. Which names do so is said exactly: a type name drops its underscores, and what is
left can be empty or begin with a digit; the other names can only be the lone underscore.
-/

namespace ProtoSchema.Naming

open Text Word
open Piece (isNamePart isNameStart isNamePart_of_isNameStart)

variable {c : Char} {cs : List Char} {s name : String}

/-- The keywords of Rust in the edition of 2021: first those in use, then those held back. -/
def keywords : List String := [
    "as", "break", "const", "continue", "crate", "else", "enum", "extern", "false", "fn", "for",
    "if", "impl", "in", "let", "loop", "match", "mod", "move", "mut", "pub", "ref", "return", "self",
    "Self", "static", "struct", "super", "trait", "true", "type", "unsafe", "use", "where", "while",
    "async", "await", "dyn"] ++ [
    "abstract", "become", "box", "do", "final", "macro", "override", "priv", "typeof", "unsized",
    "virtual", "yield", "try"]

/-- Letters, digits and underscores that do not begin with a digit, other than the lone underscore
and the keywords. -/
structure IsLegal (s : String) : Prop where
  name : isIdentifier s = true
  ne_underscore : s ≠ "_"
  not_mem : s ∉ keywords

instance (s : String) : Decidable (IsLegal s) :=
  decidable_of_iff (isIdentifier s = true ∧ s ≠ "_" ∧ s ∉ keywords)
    ⟨fun ⟨h, h', h''⟩ => ⟨h, h', h''⟩, fun ⟨h, h', h''⟩ => ⟨h, h', h''⟩⟩

theorem isIdentifier_iff_head : isIdentifier s = true ↔
    s.toList.head?.any isNameStart = true ∧ IsPlain s.toList := by
  unfold isIdentifier IsPlain
  cases s.toList with
  | nil => simp
  | cons c cs =>
    simp only [Bool.and_eq_true, List.all_eq_true, List.head?_cons, Option.any_some,
      List.forall_mem_cons]
    exact ⟨fun ⟨hc, hcs⟩ => ⟨hc, isNamePart_of_isNameStart hc, hcs⟩, fun ⟨hc, _, hcs⟩ => ⟨hc, hcs⟩⟩

theorem head?_escape (s : String) : (escape s).toList.head? = s.toList.head? := by
  rw [escape]
  split
  · next h =>
    have hne : s ≠ "" := by
      rintro rfl
      exact absurd h (by decide)
    obtain ⟨c, cs, hs⟩ :=
      List.exists_cons_of_ne_nil fun hnil => hne (String.toList_eq_nil_iff.1 hnil)
    simp [hs]
  · rfl

theorem escape_eq_underscore : escape s = "_" ↔ s = "_" := by
  have hself : escape "_" = "_" := by decide
  rw [← hself, escape_eq_iff, hself]
  refine ⟨?_, Or.inl⟩
  rintro (h | ⟨hs, h⟩ | ⟨hs, -⟩)
  · exact h
  · obtain rfl : s = "" := by simpa using congrArg String.toList h
    exact absurd hs (by decide)
  · exact absurd hs (by decide)

theorem isLegal_escape_iff (h : IsPlain s.toList) :
    IsLegal (escape s) ↔ s.toList.head?.any isNameStart = true ∧ s ≠ "_" := by
  have hkeywords : ∀ w ∈ keywords, w ∈ reservedWords := by decide +kernel
  constructor
  · rintro ⟨hname, hne, -⟩
    rw [isIdentifier_iff_head, head?_escape] at hname
    exact ⟨hname.1, fun heq => hne (escape_eq_underscore.2 heq)⟩
  · rintro ⟨hhead, hne⟩
    refine ⟨isIdentifier_iff_head.2 ⟨?_, isPlain_escape h⟩, fun heq => ?_, fun hmem => ?_⟩
    · rwa [head?_escape]
    · exact hne (escape_eq_underscore.1 heq)
    · exact escape_not_mem s (hkeywords _ hmem)

theorem isNameStart_toUpper (h : isNamePart c = true) (hc : c ≠ '_') :
    isNameStart c.toUpper = c.isAlpha := by
  have hall : ∀ c : Char, c.toNat < 0x80 → isNamePart c = true → c ≠ '_' →
      isNameStart c.toUpper = c.isAlpha := forall_ascii (by decide +kernel)
  exact hall c (lt_of_isNamePart h) h hc

theorem head?_capitalize (h : IsPlain cs) : (capitalize cs).head? = cs.head?.map Char.toUpper := by
  cases cs with
  | nil => rfl
  | cons c cs =>
    rw [capitalize, upperChar_of_isNamePart (h c List.mem_cons_self)]
    rfl

theorem head?_splitAt (sep : Char) (cs : List Char) :
    ((splitAt sep cs).filter (!·.isEmpty)).head?.bind List.head? = cs.find? (· ≠ sep) := by
  induction cs with
  | nil => rfl
  | cons c cs ih =>
    by_cases hc : c = sep
    · simpa [splitAt, hc] using ih
    · rw [splitAt, if_neg hc]
      cases splitAt sep cs <;> simp [hc]

theorem head?_flatMap_capitalize {parts : List (List Char)} (h : ∀ part ∈ parts, IsPlain part)
    (hne : ∀ part ∈ parts, part ≠ []) :
    (parts.flatMap capitalize).head? = (parts.head?.bind List.head?).map Char.toUpper := by
  cases parts with
  | nil => rfl
  | cons part parts =>
    have hhead := head?_capitalize (h part List.mem_cons_self)
    obtain ⟨c, cs, rfl⟩ := List.exists_cons_of_ne_nil (hne part List.mem_cons_self)
    rw [List.flatMap_cons, List.head?_append, hhead]
    rfl

/-- A type name begins with the first letter or digit of the name, raised. -/
theorem head?_pascalChars (h : IsPlain cs) :
    (pascalChars cs).head? = (cs.find? (· ≠ '_')).map Char.toUpper := by
  rw [pascalChars]
  split
  · rw [head?_flatMap_capitalize, head?_splitAt]
    · exact fun part hpart => isPlain_splitAt '_' h part (List.mem_of_mem_filter hpart)
    · intro part hpart
      simpa using (List.mem_filter.1 hpart).2
  · next hcs =>
    rw [head?_capitalize h]
    cases cs with
    | nil => rfl
    | cons c cs =>
      have hc : c ≠ '_' := by
        rintro rfl
        exact hcs List.mem_cons_self
      simp [hc]

theorem isLegal_typeIdent_iff (h : isIdentifier name = true) :
    IsLegal (typeIdent name) ↔
      (name.toList.find? (· ≠ '_')).any Char.isAlpha = true := by
  have hplain := (isIdentifier_iff_head.1 h).2
  have hpascal : IsPlain (pascalCase name).toList := by
    rw [pascalCase, String.toList_ofList]
    exact isPlain_pascalChars hplain
  have hne : pascalCase name ≠ "_" := by
    intro heq
    exact underscore_not_mem_pascalCase hplain (by simp [heq])
  rw [typeIdent, isLegal_escape_iff hpascal, pascalCase, String.toList_ofList,
    head?_pascalChars hplain]
  cases hfind : name.toList.find? (· ≠ '_') with
  | none => simp
  | some c =>
    have hc : c ≠ '_' := by simpa using List.find?_some hfind
    have hpart := hplain c (List.mem_of_find?_eq_some hfind)
    simp only [Option.map_some, Option.any_some, isNameStart_toUpper hpart hc]
    exact and_iff_left hne

theorem length_le_snakeFrom (h : IsPlain cs) (before : Option Char) :
    cs.length ≤ (snakeFrom before cs).length := by
  induction cs generalizing before with
  | nil => exact Nat.le_refl 0
  | cons c cs ih =>
    obtain ⟨hc, hcs⟩ := List.forall_mem_cons.1 h
    have hrest := ih hcs (some c)
    rw [snakeFrom, lowerChar_of_isNamePart hc, List.length_append, List.length_cons]
    split
    · split
      · simp
        omega
      · simp
        omega
    · simp
      omega

theorem snakeChars_cons (hc : isNamePart c = true) (cs : List Char) :
    snakeChars (c :: cs) = (if isUpper c then c.toLower else c) :: snakeFrom (some c) cs := by
  rw [snakeChars, snakeFrom, lowerChar_of_isNamePart hc]
  split <;> simp [startsWord]

theorem snakeChars_eq_underscore (h : IsPlain cs) : snakeChars cs = ['_'] ↔ cs = ['_'] := by
  constructor
  · intro heq
    have hlength := length_le_snakeFrom h none
    rw [← snakeChars, heq] at hlength
    rcases cs with _ | ⟨c, _ | ⟨d, cs⟩⟩
    · cases heq
    · have hc := h c List.mem_cons_self
      rw [snakeChars_cons hc] at heq
      obtain ⟨hfirst, -⟩ := List.cons.inj heq
      by_contra hne
      have hunder : c ≠ '_' := fun heq => hne (by rw [heq])
      split at hfirst
      · exact toLower_ne_underscore hc hunder hfirst
      · exact hunder hfirst
    · simp at hlength
  · rintro rfl
    decide

theorem snakeCase_eq_underscore (h : IsPlain s.toList) : snakeCase s = "_" ↔ s = "_" := by
  rw [← String.toList_inj, ← String.toList_inj, snakeCase, String.toList_ofList]
  exact snakeChars_eq_underscore h

theorem isNameStart_toLower (h : isNameStart c = true) : isNameStart c.toLower = true := by
  have hall : ∀ c : Char, c.toNat < 0x80 → isNameStart c = true → isNameStart c.toLower = true :=
    forall_ascii (by decide +kernel)
  exact hall c (lt_of_isNamePart (isNamePart_of_isNameStart h)) h

theorem isLegal_escape_snakeCase_iff (h : isIdentifier name = true) :
    IsLegal (escape (snakeCase name)) ↔ name ≠ "_" := by
  obtain ⟨hhead, hplain⟩ := isIdentifier_iff_head.1 h
  have hstart : (snakeCase name).toList.head?.any isNameStart = true := by
    rw [snakeCase, String.toList_ofList]
    cases hcs : name.toList with
    | nil => simp [hcs] at hhead
    | cons c cs =>
      have hc : isNameStart c = true := by simpa [hcs] using hhead
      rw [snakeChars_cons (isNamePart_of_isNameStart hc), List.head?_cons, Option.any_some]
      split
      · exact isNameStart_toLower hc
      · exact hc
  rw [isLegal_escape_iff (isPlain_snakeCase hplain), and_iff_right hstart, Ne,
    snakeCase_eq_underscore hplain]

theorem head?_moduleChars (h : IsPlain cs) : (moduleChars cs).head?.any isNameStart = true := by
  cases cs with
  | nil => decide
  | cons c cs =>
    rw [moduleChars]
    split
    · rfl
    · next hdigit =>
      have hc := h c List.mem_cons_self
      simp only [isNamePart, Char.isAlphanum, hdigit, Bool.or_false] at hc
      simpa [isNameStart] using hc

theorem moduleChars_eq_underscore : moduleChars cs = ['_'] ↔ cs = [] ∨ cs = ['_'] := by
  cases cs with
  | nil => simp [moduleChars]
  | cons c cs =>
    rw [moduleChars]
    split
    · next hdigit =>
      have hne : c ≠ '_' := by
        rintro rfl
        exact absurd hdigit (by decide)
      simp [hne]
    · simp

theorem snakeChars_eq_nil (h : IsPlain cs) : snakeChars cs = [] ↔ cs = [] := by
  constructor
  · intro heq
    have hlength := length_le_snakeFrom h none
    rw [← snakeChars, heq] at hlength
    exact List.eq_nil_of_length_eq_zero (Nat.le_zero.1 hlength)
  · rintro rfl
    rfl

theorem cleanChar_eq_underscore : cleanChar c = '_' ↔ c.isAlphanum = false := by
  rw [cleanChar]
  split
  · next h =>
    by_cases hc : c = '_'
    · subst hc
      decide
    · simp_all
  · next h => simp_all

theorem isLegal_moduleName_iff (s : String) : IsLegal (moduleName s) ↔
    2 ≤ s.toList.length ∨ ∃ c, s.toList = [c] ∧ c.isAlphanum = true := by
  have hplain := isPlain_cleanChars s.toList
  have hsnake : IsPlain (snakeChars (s.toList.map cleanChar)) := isPlain_snakeFrom hplain none
  have hchars : IsPlain (String.ofList
      (moduleChars (snakeChars (s.toList.map cleanChar)))).toList := by
    rw [String.toList_ofList]
    exact isPlain_moduleChars hsnake
  rw [moduleName_eq, isLegal_escape_iff hchars, String.toList_ofList,
    and_iff_right (head?_moduleChars hsnake), Ne, ← String.toList_inj, String.toList_ofList]
  change ¬ moduleChars _ = ['_'] ↔ _
  rw [moduleChars_eq_underscore, snakeChars_eq_nil hplain, snakeChars_eq_underscore hplain]
  rcases s.toList with _ | ⟨c, _ | ⟨d, cs⟩⟩
  · simp
  · simp [cleanChar_eq_underscore]
  · simp

/-- When generated identifiers are legal. The identifier of a type is just if the first character of
its name other than an underscore is a letter, that of a field or of a module of nested types just
if the name is not the lone underscore, and a module name just if it is made from two characters or
from one letter or digit. -/
theorem idents_legal_iff {name : String} (h : isIdentifier name = true) (s : String) :
    (IsLegal (typeIdent name) ↔ (name.toList.find? (· ≠ '_')).any Char.isAlpha = true) ∧
    (IsLegal (fieldIdent name) ↔ name ≠ "_") ∧ (IsLegal (moduleIdent name) ↔ name ≠ "_") ∧
    (IsLegal (moduleName s) ↔
      2 ≤ s.toList.length ∨ ∃ c, s.toList = [c] ∧ c.isAlphanum = true) :=
  ⟨isLegal_typeIdent_iff h, isLegal_escape_snakeCase_iff h, isLegal_escape_snakeCase_iff h,
    isLegal_moduleName_iff s⟩

/-- Underscores on both sides of a reserved word, and a stem of a letter that is not one of
ASCII. -/
theorem idents_legal_reserved : isIdentifier "__self_" = true ∧ IsLegal (typeIdent "__self_") ∧
    IsLegal (fieldIdent "__self_") ∧ IsLegal (moduleIdent "__self_") ∧ IsLegal (moduleName "2é") := by
  have h : isIdentifier "__self_" = true := by decide
  obtain ⟨htype, hfield, hmodule, hfile⟩ := idents_legal_iff h "2é"
  exact ⟨h, htype.2 (by decide), hfield.2 (by decide), hmodule.2 (by decide),
    hfile.2 (Or.inl (by decide))⟩

/-- Names whose type is empty or begins with a digit, and whose field or module is the lone
underscore. -/
theorem idents_not_legal :
    (isIdentifier "_1" = true ∧ typeIdent "_1" = "1" ∧ ¬ IsLegal (typeIdent "_1")) ∧
    (isIdentifier "_" = true ∧ typeIdent "_" = "" ∧ fieldIdent "_" = "_" ∧ moduleIdent "_" = "_" ∧
      ¬ IsLegal (typeIdent "_") ∧ ¬ IsLegal (fieldIdent "_") ∧ ¬ IsLegal (moduleIdent "_")) ∧
    moduleName "" = "_" ∧ moduleName "-" = "_" ∧ ¬ IsLegal (moduleName "") := by
  decide +kernel

end ProtoSchema.Naming
