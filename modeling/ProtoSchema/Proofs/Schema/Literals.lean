import ProtoSchema.Proofs.Schema.Acceptance
import ProtoSchema.Proofs.Token.Longest

/-! # Any text as a string literal

A text between quotes, with the quote, the backslash and the line break escaped, is one word
whatever else it contains, and the declaration it stands in gets the text back.
-/

namespace ProtoSchema

open Piece Text Word

variable {cs : List Char} {ws : List String} {gap w : String}

theorem scans_blanks {bs : List Char} (h : ∀ c ∈ bs, isBlank c = true) :
    Scans (bs ++ cs) ws ↔ Scans cs ws := by
  induction bs with
  | nil => rfl
  | cons b bs ih =>
    obtain ⟨hb, hbs⟩ := List.forall_mem_cons.1 h
    rw [List.cons_append, scans_blank hb, ih hbs]

theorem scans_symbol {c : Char} (hc : c ∈ symbols) (h : Scans cs ws) :
    Scans (c :: cs) (String.singleton c :: ws) :=
  scans_word (next?_symbol hc cs) h

theorem scans_literal {s : List Char} (hw : Literal s w.toList) (h : Scans cs ws) :
    Scans (w.toList ++ cs) (w :: ws) := by
  have hstring : IsString w.toList := by
    generalize w.toList = ds at hw
    obtain ⟨hq, hw⟩ := hw
    exact .mk hq (hw.between hq)
  have hscans := scans_word (next?_of_isString hstring cs) h
  rwa [String.ofList_toList] at hscans

theorem scans_name (hw : isIdentifier w = true) (hr : nameTail cs = ([], cs)) (h : Scans cs ws) :
    Scans (w.toList ++ cs) (w :: ws) := by
  have hscans := scans_word (next?_dotted (.name (isIdentifier_iff.1 hw)) hr) h
  rwa [String.ofList_toList] at hscans

theorem nameTail_blanks {bs : List Char} (h : ∀ c ∈ bs, isBlank c = true)
    (hr : nameTail cs = ([], cs)) : nameTail (bs ++ cs) = ([], bs ++ cs) := by
  cases bs with
  | nil => exact hr
  | cons b bs => exact nameTail_stops fun c hc => by simp_all

theorem scans_value {s : List Char} (hw : Literal s w.toList)
    (hgap : ∀ c ∈ gap.toList, isBlank c = true) :
    Scans (w.toList ++ (gap.toList ++ [';'])) [w, ";", ""] :=
  scans_literal hw ((scans_blanks hgap).2 (scans_symbol (by decide) scans_nil))

namespace Schema

variable {s u : Schema} {φ : Position → Position}

theorem eq_of_move (h : s.move φ = u.move φ) (hm : u.messages = []) (he : u.enums = [])
    (hs : s.diagnostics = []) (hu : u.diagnostics = []) : s = u := by
  obtain ⟨dialect, package, moduleName, imports, messages, enums, services, diagnostics⟩ := s
  obtain ⟨dialect', package', moduleName', imports', messages', enums', services', _⟩ := u
  dsimp only at hm he hs hu
  subst hm he hs hu
  simpa [move] using h

theorem Spelled.read_eq {words : List String} {text : String} (h : u.Spelled words)
    (ht : Scans text.toList (words ++ [""])) (hm : u.messages = []) (he : u.enums = [])
    (hu : u.diagnostics = []) : Schema.read text = .ok u := by
  obtain ⟨s, hread, hmove, hs⟩ := h.read ht
  rw [hread, eq_of_move hmove hm he hs hu]

/-- Whatever text a literal is made from, the declaration that it stands in has this text: an
import, a dialect or a module name, with or without blanks between the words. -/
theorem read_literal {q : Char} (hq : q = '"' ∨ q = '\'') (s gap : String)
    (hgap : ∀ c ∈ gap.toList, isBlank c = true) :
    Schema.read ("import" ++ gap ++ literal q s ++ gap ++ ";") = .ok { imports := [s] } ∧
    Schema.read ("syntax" ++ gap ++ "=" ++ gap ++ literal q s ++ gap ++ ";") =
      .ok { dialect := some s } ∧
    Schema.read
        ("option " ++ gap ++ "rust_module" ++ gap ++ "=" ++ gap ++ literal q s ++ gap ++ ";") =
      .ok { moduleName := some s } := by
  have hw := literal_spells hq s
  have hvalue := scans_value hw hgap
  have hequals : Scans ('=' :: (gap.toList ++ ((literal q s).toList ++ (gap.toList ++ [';']))))
      ["=", literal q s, ";", ""] :=
    scans_symbol (by decide) ((scans_blanks hgap).2 hvalue)
  refine ⟨?_, ?_, ?_⟩
  · have hquote : nameTail ((literal q s).toList ++ (gap.toList ++ [';'])) =
        ([], (literal q s).toList ++ (gap.toList ++ [';'])) := by
      rw [literal, String.toList_ofList]
      rcases hq with rfl | rfl <;> rfl
    have himport := scans_name (w := "import") (by decide) (nameTail_blanks hgap hquote)
      ((scans_blanks hgap).2 hvalue)
    exact Spelled.read_eq (.path .nil (Or.inl rfl) hw) (by simpa using himport) rfl rfl rfl
  · have hsyntax := scans_name (w := "syntax") (by decide) (nameTail_blanks hgap rfl)
      ((scans_blanks hgap).2 hequals)
    exact Spelled.read_eq (.dialect .nil rfl hw) (by simpa using hsyntax) rfl rfl rfl
  · have hkey := scans_name (w := "rust_module") (by decide) (nameTail_blanks hgap rfl)
      ((scans_blanks hgap).2 hequals)
    have hblank : isBlank ' ' = true := by decide
    have hoption := scans_name (w := "option") (by decide) (by rfl)
      ((scans_blank hblank).2 ((scans_blanks hgap).2 hkey))
    exact Spelled.read_eq (.moduleName .nil rfl hw) (by simpa using hoption) rfl rfl rfl

/-- Comment marks, both quotes, a backslash, braces and a line break, without a blank in front. -/
theorem read_literal_marks :
    Schema.read "import'//\"/*\\'\\\\\x7b;\x7d\\n*/';" =
      .ok { imports := ["//\"/*'\\\x7b;\x7d\n*/"] } :=
  (read_literal (Or.inr rfl) "//\"/*'\\\x7b;\x7d\n*/" "" (by simp)).1

end Schema

end ProtoSchema
