import ProtoSchema.Proofs.Naming.Legal

/-! # What a spelling keeps of a name

Whatever a name is spelled as, its letters and digits stay, in their order: only underscores come or
go, and only case changes. So names that become one are the same up to case and underscores. Names
in snake case, JSON names and module names are spelled as they are if they are spelled again.
-/

namespace ProtoSchema.Naming

open Text
open Piece (isNamePart isNameStart isNamePart_of_isNameStart)

variable {c : Char} {cs : List Char} {s t : String}

/-- A name without its underscores and in small letters. -/
def bareChars (cs : List Char) : List Char := (cs.filter (· ≠ '_')).map Char.toLower

def bare (s : String) : String := String.ofList (bareChars s.toList)

theorem bareChars_append (cs ds : List Char) :
    bareChars (cs ++ ds) = bareChars cs ++ bareChars ds := by
  rw [bareChars, List.filter_append, List.map_append]
  rfl

theorem bareChars_cons (c : Char) (cs : List Char) :
    bareChars (c :: cs) = bareChars [c] ++ bareChars cs :=
  bareChars_append [c] cs

theorem bareChars_case (h : isNamePart c = true) :
    bareChars [c.toUpper] = bareChars [c] ∧ bareChars [c.toLower] = bareChars [c] := by
  have hall : ∀ c : Char, c.toNat < 0x80 →
      bareChars [c.toUpper] = bareChars [c] ∧ bareChars [c.toLower] = bareChars [c] :=
    forall_ascii (by decide +kernel)
  exact hall c (lt_of_isNamePart h)

theorem bareChars_map_toLower (h : IsPlain cs) : bareChars (cs.map Char.toLower) = bareChars cs := by
  induction cs with
  | nil => rfl
  | cons c cs ih =>
    obtain ⟨hc, hcs⟩ := List.forall_mem_cons.1 h
    rw [List.map_cons, bareChars_cons, (bareChars_case hc).2, ih hcs, ← bareChars_cons]

theorem bareChars_capitalize (h : IsPlain cs) : bareChars (capitalize cs) = bareChars cs := by
  cases cs with
  | nil => rfl
  | cons c cs =>
    obtain ⟨hc, hcs⟩ := List.forall_mem_cons.1 h
    rw [capitalize, upperChar_of_isNamePart hc, bareChars_append, (bareChars_case hc).1,
      bareChars_cons c cs]
    congr 1
    split
    · rw [lower, lowerAfter_eq_map hcs, bareChars_map_toLower hcs]
    · rfl

theorem flatten_splitAt (sep : Char) (cs : List Char) :
    (splitAt sep cs).flatten = cs.filter (· ≠ sep) := by
  induction cs with
  | nil => rfl
  | cons c cs ih =>
    by_cases hc : c = sep
    · simpa [splitAt, hc] using ih
    · rw [splitAt, if_neg hc, List.filter_cons_of_pos (by simpa using hc), ← ih]
      cases splitAt sep cs <;> rfl

theorem bareChars_filter (cs : List Char) : bareChars (cs.filter (· ≠ '_')) = bareChars cs := by
  rw [bareChars, List.filter_filter]
  simp [bareChars]

theorem bareChars_flatMap_capitalize {parts : List (List Char)} (h : ∀ part ∈ parts, IsPlain part) :
    bareChars (parts.flatMap capitalize) = bareChars parts.flatten := by
  induction parts with
  | nil => rfl
  | cons part parts ih =>
    obtain ⟨hpart, hparts⟩ := List.forall_mem_cons.1 h
    rw [List.flatMap_cons, bareChars_append, bareChars_capitalize hpart, ih hparts,
      List.flatten_cons, bareChars_append]

theorem bareChars_pascalChars (h : IsPlain cs) : bareChars (pascalChars cs) = bareChars cs := by
  rw [pascalChars]
  split
  · rw [bareChars_flatMap_capitalize, List.flatten_filter_not_isEmpty, flatten_splitAt,
      bareChars_filter]
    exact fun part hpart => isPlain_splitAt '_' h part (List.mem_of_mem_filter hpart)
  · exact bareChars_capitalize h

theorem bare_pascalCase (h : IsPlain s.toList) : bare (pascalCase s) = bare s := by
  rw [bare, bare, pascalCase, String.toList_ofList, bareChars_pascalChars h]

theorem bareChars_snakeFrom (h : IsPlain cs) (before : Option Char) :
    bareChars (snakeFrom before cs) = bareChars cs := by
  induction cs generalizing before with
  | nil => rfl
  | cons c cs ih =>
    obtain ⟨hc, hcs⟩ := List.forall_mem_cons.1 h
    rw [snakeFrom, lowerChar_of_isNamePart hc, bareChars_append, ih hcs, bareChars_cons c cs]
    congr 1
    split
    · split
      · rw [bareChars_cons, (bareChars_case hc).2]
        rfl
      · exact (bareChars_case hc).2
    · rfl

theorem bare_snakeCase (h : IsPlain s.toList) : bare (snakeCase s) = bare s := by
  rw [bare, bare, snakeCase, String.toList_ofList, snakeChars, bareChars_snakeFrom h]

theorem isUpper_toLower (h : isNamePart c = true) : isUpper c.toLower = false := by
  have hall : ∀ c : Char, c.toNat < 0x80 → isUpper c.toLower = false :=
    forall_ascii (by decide +kernel)
  exact hall c (lt_of_isNamePart h)

theorem isUpper_of_mem_snakeFrom (h : IsPlain cs) (before : Option Char) :
    ∀ c ∈ snakeFrom before cs, isUpper c = false := by
  induction cs generalizing before with
  | nil => simp [snakeFrom]
  | cons c cs ih =>
    obtain ⟨hc, hcs⟩ := List.forall_mem_cons.1 h
    rw [snakeFrom, lowerChar_of_isNamePart hc, List.forall_mem_append]
    refine ⟨?_, ih hcs _⟩
    have hlower := isUpper_toLower hc
    split
    · split
      · exact List.forall_mem_cons.2 ⟨by decide, List.forall_mem_singleton.2 hlower⟩
      · exact List.forall_mem_singleton.2 hlower
    · next hupper => exact List.forall_mem_singleton.2 (by simpa using hupper)

theorem isUpper_of_mem_snakeCase (h : IsPlain s.toList) :
    ∀ c ∈ (snakeCase s).toList, isUpper c = false := by
  rw [snakeCase, String.toList_ofList]
  exact isUpper_of_mem_snakeFrom h none

/-- Without capitals there is nothing to spell in another way. -/
theorem snakeFrom_of_not_isUpper (h : ∀ c ∈ cs, isUpper c = false) (before : Option Char) :
    snakeFrom before cs = cs := by
  induction cs generalizing before with
  | nil => rfl
  | cons c cs ih =>
    obtain ⟨hc, hcs⟩ := List.forall_mem_cons.1 h
    rw [snakeFrom, ih hcs]
    simp [hc]

theorem snakeCase_snakeCase (h : IsPlain s.toList) : snakeCase (snakeCase s) = snakeCase s := by
  rw [snakeCase, snakeChars, snakeFrom_of_not_isUpper (isUpper_of_mem_snakeCase h),
    String.ofList_toList]

theorem bareChars_camelFrom (raise : Bool) (h : IsPlain cs) :
    bareChars (camelFrom raise cs) = bareChars cs := by
  induction cs generalizing raise with
  | nil => rfl
  | cons c cs ih =>
    obtain ⟨hc, hcs⟩ := List.forall_mem_cons.1 h
    rw [camelFrom, bareChars_cons c cs]
    split
    · next hunder =>
      rw [ih _ hcs, hunder]
      rfl
    split
    · rw [upperChar_of_isNamePart hc, bareChars_append, (bareChars_case hc).1, ih _ hcs]
    · rw [bareChars_cons, ih _ hcs]

theorem bare_jsonName (h : IsPlain s.toList) : bare (jsonName s) = bare s := by
  rw [bare, bare, jsonName, String.toList_ofList, bareChars_camelFrom false h]

theorem underscore_not_mem_jsonName (s : String) : '_' ∉ (jsonName s).toList := by
  rw [jsonName, String.toList_ofList]
  exact underscore_not_mem_camelFrom false s.toList

theorem bare_escape (s : String) : bare (escape s) = bare s := by
  rw [escape]
  split
  · rw [bare, bare, String.toList_append, bareChars_append]
    exact congrArg String.ofList (List.append_nil _)
  · rfl

theorem bare_typeIdent (h : IsPlain s.toList) : bare (typeIdent s) = bare s :=
  (bare_escape _).trans (bare_pascalCase h)

theorem bare_fieldIdent (h : IsPlain s.toList) : bare (fieldIdent s) = bare s :=
  (bare_escape _).trans (bare_snakeCase h)

theorem map_cleanChar (h : IsPlain cs) : cs.map cleanChar = cs := by
  have hself : ∀ c ∈ cs, cleanChar c = c := fun c hc => if_pos (h c hc)
  rw [List.map_congr_left hself, List.map_id']

theorem bareChars_moduleChars (cs : List Char) : bareChars (moduleChars cs) = bareChars cs := by
  cases cs with
  | nil => rfl
  | cons c cs =>
    rw [moduleChars]
    split
    · rw [bareChars_cons]
      rfl
    · rfl

theorem bare_moduleName (h : IsPlain s.toList) : bare (moduleName s) = bare s := by
  rw [moduleName_eq, bare_escape, bare, bare, String.toList_ofList, bareChars_moduleChars,
    map_cleanChar h, snakeChars, bareChars_snakeFrom h]

theorem bare_eq_of_eq {f : String → String}
    (hf : ∀ {s : String}, IsPlain s.toList → bare (f s) = bare s) (hs : IsPlain s.toList)
    (ht : IsPlain t.toList) (h : f s = f t) : bare s = bare t := by
  rw [← hf hs, h, hf ht]

theorem moduleChars_of_head (h : cs.head?.any isNameStart = true) : moduleChars cs = cs := by
  cases cs with
  | nil => simp at h
  | cons c cs =>
    have hc : isNameStart c = true := by simpa using h
    have hall : ∀ c : Char, c.toNat < 0x80 → isNameStart c = true → c.isDigit = false :=
      forall_ascii (by decide +kernel)
    have hdigit := hall c (lt_of_isNamePart (isNamePart_of_isNameStart hc)) hc
    simp [moduleChars, hdigit]

theorem isUpper_of_mem_moduleName (s : String) :
    ∀ c ∈ (moduleName s).toList, isUpper c = false := by
  have hsnake := isUpper_of_mem_snakeFrom (isPlain_cleanChars s.toList) none
  intro c hc
  rw [moduleName_eq] at hc
  rcases mem_escape hc with hmem | rfl
  · rw [String.toList_ofList] at hmem
    rcases mem_moduleChars hmem with hmem | rfl
    · exact hsnake c hmem
    · decide
  · decide

theorem moduleName_moduleName (s : String) : moduleName (moduleName s) = moduleName s := by
  have hhead : (moduleName s).toList.head?.any isNameStart = true := by
    rw [moduleName_eq, head?_escape, String.toList_ofList]
    exact head?_moduleChars (isPlain_snakeFrom (isPlain_cleanChars s.toList) none)
  rw [moduleName_eq (moduleName s), map_cleanChar (isPlain_moduleName s), snakeChars,
    snakeFrom_of_not_isUpper (isUpper_of_mem_moduleName s), moduleChars_of_head hhead,
    String.ofList_toList, moduleName_eq s]
  exact if_neg (escape_not_mem _)

/-- What spelling does to a name. In Pascal case, in snake case, as a JSON name and with reserved
words escaped it stays the same up to case and underscores, so that two names which become the same
type, field, module or JSON key are the same up to case and underscores. Snake case has no capitals,
JSON names have no underscores, and names in snake case, JSON names and module names are left alone
when they are spelled again. -/
theorem bare_of_spelled (hs : IsPlain s.toList) (ht : IsPlain t.toList) (x : String) :
    (bare (pascalCase s) = bare s ∧ bare (snakeCase s) = bare s ∧ bare (jsonName s) = bare s ∧
      bare (escape s) = bare s) ∧
    (typeIdent s = typeIdent t ∨ fieldIdent s = fieldIdent t ∨ moduleIdent s = moduleIdent t ∨
      moduleName s = moduleName t ∨ jsonName s = jsonName t → bare s = bare t) ∧
    (∀ c ∈ (snakeCase s).toList, isUpper c = false) ∧ '_' ∉ (jsonName x).toList ∧
    snakeCase (snakeCase s) = snakeCase s ∧ jsonName (jsonName x) = jsonName x ∧
    moduleName (moduleName x) = moduleName x := by
  refine ⟨⟨bare_pascalCase hs, bare_snakeCase hs, bare_jsonName hs, bare_escape s⟩, ?_,
    isUpper_of_mem_snakeCase hs, underscore_not_mem_jsonName x, snakeCase_snakeCase hs,
    jsonName_jsonName x, moduleName_moduleName x⟩
  rintro (h | h | h | h | h)
  · exact bare_eq_of_eq bare_typeIdent hs ht h
  · exact bare_eq_of_eq bare_fieldIdent hs ht h
  · exact bare_eq_of_eq bare_fieldIdent hs ht h
  · exact bare_eq_of_eq bare_moduleName hs ht h
  · exact bare_eq_of_eq bare_jsonName hs ht h

/-- Two names with an acronym that become the same type, and a file stem with a dash. -/
theorem bare_of_spelled_acronym :
    IsPlain "_HTTPServer_ID2".toList ∧ IsPlain "HTTPServer__Id2_".toList ∧
    typeIdent "_HTTPServer_ID2" = "HTTPServerId2" ∧ typeIdent "HTTPServer__Id2_" = "HTTPServerId2" ∧
    bare "_HTTPServer_ID2" = bare "HTTPServer__Id2_" ∧
    snakeCase (snakeCase "_HTTPServer_ID2") = "_http_server_id2" ∧
    moduleName (moduleName "2-Factor") = "_2_factor" := by
  have hs : IsPlain "_HTTPServer_ID2".toList := List.all_eq_true.1 rfl
  have ht : IsPlain "HTTPServer__Id2_".toList := List.all_eq_true.1 rfl
  have htype : typeIdent "_HTTPServer_ID2" = "HTTPServerId2" := by decide +kernel
  have htype' : typeIdent "HTTPServer__Id2_" = "HTTPServerId2" := by decide +kernel
  obtain ⟨-, hbare, -, -, hsnake, -, hmodule⟩ := bare_of_spelled hs ht "2-Factor"
  refine ⟨hs, ht, htype, htype', hbare (.inl (htype.trans htype'.symm)), hsnake.trans ?_,
    hmodule.trans ?_⟩ <;> decide +kernel

/-- Not every capital beyond ASCII has a small letter: one that stays starts a word the next time. -/
example : snakeCase "A𝐀" = "a𝐀" ∧ snakeCase "a𝐀" = "a_𝐀" := by
  decide +kernel

end ProtoSchema.Naming
