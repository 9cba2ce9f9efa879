import ProtoSchema.Json.Reader
import ProtoSchema.Json.Writer
import ProtoSchema.Proofs.Text.Digits

/-! # JSON texts read back

The reader takes the text of a tree apart again, whatever follows it, as long as the tree has a text
of its own: strings with characters, number literals of the grammar, and arrays and objects that are
closed.
-/

namespace ProtoSchema.Json

namespace Reader

theorem hex_eq {n : Nat} (h : n < 0x20) :
    Text.hex 4 n = ['0', '0', Nat.digitChar (n / 16), Nat.digitChar (n % 16)] := by
  revert n
  decide

theorem hexCode?_hex {n : Nat} (h : n < 0x20) :
    hexCode? ['0', '0', Nat.digitChar (n / 16), Nat.digitChar (n % 16)] = some n := by
  revert n
  decide

theorem ofCode_toNat {c : Char} (h : c.toNat < 0x20) : Part.ofCode c.toNat = .char c := by
  rw [Part.ofCode, if_neg (by simp; omega), Char.ofNat_toNat]

theorem parts_cons {c : Char} (h₁ : c ≠ '"') (h₂ : c ≠ '\\') (h₃ : ¬ c.toNat < 0x20)
    (cs : List Char) : parts (c :: cs) = (parts cs).map fun r => (.char c :: r.1, r.2) := by
  rw [parts]
  · simp [h₂, h₃, Option.map_eq_bind]
  all_goals simp [h₁, h₂]

theorem parts_quotedChar (c : Char) (cs : List Char) :
    parts (Text.quotedChar c ++ cs) = (parts cs).map fun r => (.char c :: r.1, r.2) := by
  unfold Text.quotedChar
  split_ifs with h₁ h₂ h₃ h₄ h₅ h₆ h₇ h₈
  · subst h₁; simp [parts, simpleEscape?, Option.map_eq_bind]
  · subst h₂; simp [parts, simpleEscape?, Option.map_eq_bind]
  · subst h₃; simp [parts, simpleEscape?, Option.map_eq_bind]
  · subst h₄; simp [parts, simpleEscape?, Option.map_eq_bind]
  · subst h₅; simp [parts, simpleEscape?, Option.map_eq_bind]
  · subst h₆; simp [parts, simpleEscape?, Option.map_eq_bind]
  · subst h₇; simp [parts, simpleEscape?, Option.map_eq_bind]
  · rw [hex_eq h₈]
    simp [parts, hexCode?_hex h₈, ofCode_toNat h₈, Option.map_eq_bind]
  · exact parts_cons h₁ h₂ h₈ cs

theorem parts_quoted (cs rest : List Char) :
    parts (cs.flatMap Text.quotedChar ++ '"' :: rest) = some (cs.map .char, rest) := by
  induction cs with
  | nil => simp [parts]
  | cons c cs ih =>
    rw [List.flatMap_cons, List.append_assoc, parts_quotedChar, ih]
    rfl

theorem assemble_map_char (cs : List Char) : Part.assemble (cs.map .char) = some cs := by
  induction cs with
  | nil => rfl
  | cons c cs ih => simp [Part.assemble, ih]

theorem stringTail_quoted (s : String) (rest : List Char) :
    stringTail (s.toList.flatMap Text.quotedChar ++ '"' :: rest) = some (some s, rest) := by
  simp [stringTail, parts_quoted, assemble_map_char]

/-- What can follow a value: the end, a comma, or a closing bracket or brace. -/
def Delimits (rest : List Char) : Prop := ∀ c ∈ rest.head?, c = ',' ∨ c = ']' ∨ c = '\x7d'

theorem delimits_nil : Delimits [] := by simp [Delimits]

theorem delimits_comma (cs : List Char) : Delimits (',' :: cs) := by simp [Delimits]

theorem delimits_bracket (cs : List Char) : Delimits (']' :: cs) := by simp [Delimits]

theorem delimits_brace (cs : List Char) : Delimits ('\x7d' :: cs) := by simp [Delimits]

variable {cs a b rest : List Char}

theorem Delimits.not_isDigit (h : Delimits rest) : ∀ c ∈ rest.head?, c.isDigit = false := by
  intro c hc
  rcases h c hc with rfl | rfl | rfl <;> rfl

theorem digits?_append (hr : Delimits rest) (h : digits? cs = some (a, b)) :
    digits? (cs ++ rest) = some (a, b ++ rest) := by
  unfold digits? at h ⊢
  rw [takeWhile_append_of_stop hr.not_isDigit, dropWhile_append_of_stop hr.not_isDigit]
  split at h
  · simp at h
  · simp only [Option.some.injEq, Prod.mk.injEq] at h
    obtain ⟨rfl, rfl⟩ := h
    rfl

theorem integer?_of_ne {c : Char} (h : c ≠ '0') (cs : List Char) :
    integer? (c :: cs) = digits? (c :: cs) := by
  rw [integer?]
  simp [h]

theorem integer?_append (hr : Delimits rest) (h : integer? cs = some (a, b)) :
    integer? (cs ++ rest) = some (a, b ++ rest) := by
  cases cs with
  | nil => simp [integer?, digits?] at h
  | cons c cs =>
    by_cases hc : c = '0'
    · subst hc
      cases cs with
      | nil =>
        obtain ⟨rfl, rfl⟩ : ['0'] = a ∧ [] = b := by simpa [integer?, digits?] using h
        cases rest with
        | nil => simp [integer?, digits?]
        | cons d rest => simp [integer?, hr.not_isDigit d rfl]
      | cons d cs =>
        simp only [integer?, List.cons_append] at h ⊢
        split at h
        · simp at h
        · next hd =>
          obtain ⟨rfl, rfl⟩ : ['0'] = a ∧ d :: cs = b := by simpa using h
          simp [hd]
    · rw [integer?_of_ne hc] at h
      rw [List.cons_append, integer?_of_ne hc]
      exact digits?_append hr h

theorem fraction?_append (hr : Delimits rest) (h : fraction? cs = some (a, b)) :
    fraction? (cs ++ rest) = some (a, b ++ rest) := by
  have hother {ds : List Char} (hds : ∀ c ∈ ds.head?, c ≠ '.') : fraction? ds = some ([], ds) := by
    rw [fraction?]
    rintro es rfl
    exact hds '.' rfl rfl
  cases cs with
  | nil =>
    obtain ⟨rfl, rfl⟩ : [] = a ∧ [] = b := by simpa [fraction?] using h
    refine hother fun c hc => ?_
    rcases hr c hc with rfl | rfl | rfl <;> decide
  | cons c cs =>
    by_cases hc : c = '.'
    · subst hc
      obtain ⟨⟨a', b'⟩, hd, heq⟩ := Option.map_eq_some_iff.1 h
      cases heq
      simp [fraction?, digits?_append hr hd]
    · rw [hother (by simpa using hc)] at h
      cases h
      exact hother (by simpa using hc)

theorem exponent?_append (hr : Delimits rest) (h : exponent? cs = some (a, b)) :
    exponent? (cs ++ rest) = some (a, b ++ rest) := by
  cases cs with
  | nil =>
    obtain ⟨rfl, rfl⟩ : [] = a ∧ [] = b := by simpa [exponent?] using h
    cases rest with
    | nil => rfl
    | cons c rest => rcases hr c rfl with rfl | rfl | rfl <;> simp [exponent?]
  | cons e cs =>
    simp only [exponent?, List.cons_append] at h ⊢
    split at h
    · next he =>
      simp only [he, if_true]
      cases cs with
      | nil => simp at h
      | cons s cs =>
        simp only [List.cons_append] at h ⊢
        split at h
        · next hs =>
          obtain ⟨⟨a', b'⟩, hd, heq⟩ := Option.map_eq_some_iff.1 h
          cases heq
          simp [hs, digits?_append hr hd]
        · next hs =>
          obtain ⟨⟨a', b'⟩, hd, heq⟩ := Option.map_eq_some_iff.1 h
          cases heq
          have := digits?_append hr hd
          simp_all
    · next he =>
      cases h
      simp [he]

theorem unsigned?_append (hr : Delimits rest) (h : unsigned? cs = some (a, b)) :
    unsigned? (cs ++ rest) = some (a, b ++ rest) := by
  simp only [unsigned?, Option.bind_eq_bind, Option.bind_eq_some_iff] at h
  obtain ⟨⟨i, cs₁⟩, hi, ⟨f, cs₂⟩, hf, ⟨e, cs₃⟩, he, heq⟩ := h
  cases heq
  simp [unsigned?, integer?_append hr hi, fraction?_append hr hf, exponent?_append hr he]

theorem number?_append (hr : Delimits rest) (h : number? cs = some (a, b)) :
    number? (cs ++ rest) = some (a, b ++ rest) := by
  cases cs with
  | nil => simp [number?, unsigned?, integer?, digits?] at h
  | cons c cs =>
    by_cases hc : c = '-'
    · subst hc
      obtain ⟨⟨a', b'⟩, hu, heq⟩ := Option.map_eq_some_iff.1 h
      cases heq
      simp [number?, unsigned?_append hr hu]
    · have hother (ds : List Char) : number? (c :: ds) = unsigned? (c :: ds) := by
        rw [number?]
        simp [hc]
      rw [hother] at h
      rw [List.cons_append, hother, ← List.cons_append]
      exact unsigned?_append hr h

theorem number?_head {c : Char} (h : number? (c :: cs) = some (a, b)) :
    c = '-' ∨ c.isDigit = true := by
  by_cases hc : c = '-'
  · exact .inl hc
  · refine .inr ?_
    rw [number?] at h
    · simp only [unsigned?, Option.bind_eq_bind, Option.bind_eq_some_iff] at h
      obtain ⟨⟨i, cs₁⟩, hi, -⟩ := h
      by_cases hz : c = '0'
      · subst hz; rfl
      · rw [integer?_of_ne hz] at hi
        by_contra hd
        simp [digits?, hd] at hi
    · simp [hc]

end Reader

mutual

/-- Whether a tree is what its own text says. -/
def HasText : Json → Prop
  | number literal => Reader.number? literal.toList = some (literal.toList, [])
  | string text => text.isSome = true
  | array items closed => closed = true ∧ ItemsHaveText items
  | object entries closed => closed = true ∧ EntriesHaveText entries
  | cut => False
  | bare => False
  | _ => True

def ItemsHaveText : List Json → Prop
  | [] => True
  | j :: js => j.HasText ∧ ItemsHaveText js

def EntriesHaveText : List (Option String × Json) → Prop
  | [] => True
  | (key, j) :: es => key.isSome = true ∧ j.HasText ∧ EntriesHaveText es

end

namespace Reader

theorem skipSpace_cons {c : Char} (h : isSpace c = false) (cs : List Char) :
    skipSpace (c :: cs) = c :: cs := by
  simp [skipSpace, h]

theorem isSpace_of_isDigit {c : Char} (h : c.isDigit = true) : isSpace c = false := by
  by_contra hs
  simp only [isSpace, Bool.or_eq_true, decide_eq_true_eq, Bool.not_eq_false] at hs
  rcases hs with ((rfl | rfl) | rfl) | rfl <;> simp at h

/-- A value starts with something that is neither a blank nor the end of a list. -/
theorem render_head {j : Json} (h : j.HasText) :
    ∃ c cs, j.render = c :: cs ∧ isSpace c = false ∧ c ≠ ']' := by
  cases j with
  | null => exact ⟨'n', _, rfl, rfl, by decide⟩
  | bool b => cases b <;> exact ⟨_, _, rfl, rfl, by decide⟩
  | number literal =>
    simp only [HasText] at h
    cases hl : literal.toList with
    | nil => simp [hl, number?, unsigned?, integer?, digits?] at h
    | cons c cs =>
      rw [hl] at h
      refine ⟨c, cs, by simp [render, hl], ?_⟩
      rcases number?_head h with rfl | hd
      · decide
      · exact ⟨isSpace_of_isDigit hd, by rintro rfl; simp at hd⟩
  | string text => exact ⟨'"', _, rfl, rfl, by decide⟩
  | array items closed => exact ⟨'[', _, rfl, rfl, by decide⟩
  | object entries closed => exact ⟨'\x7b', _, rfl, rfl, by decide⟩
  | cut => simp [HasText] at h
  | bare => simp [HasText] at h

theorem atom_number {literal rest : List Char} (h : number? literal = some (literal, []))
    (hr : Delimits rest) :
    atom (literal ++ rest) = (.number (String.ofList literal), some rest) := by
  cases literal with
  | nil => simp [number?, unsigned?, integer?, digits?] at h
  | cons c cs =>
    have hn := number?_append hr h
    have hc := number?_head h
    rw [List.cons_append] at hn ⊢
    unfold atom
    split
    · simp_all
    · simp_all
    · simp_all
    · simp [hn]

theorem value_number {literal rest : List Char} (h : number? literal = some (literal, []))
    (hr : Delimits rest) (n : Nat) :
    value (n + 1) (literal ++ rest) = (.number (String.ofList literal), some rest) := by
  have ha := atom_number h hr
  cases literal with
  | nil => simp [number?, unsigned?, integer?, digits?] at h
  | cons c cs =>
    have hc : isSpace c = false ∧ c ≠ '"' ∧ c ≠ '[' ∧ c ≠ '\x7b' := by
      rcases number?_head h with rfl | hd
      · decide
      · exact ⟨isSpace_of_isDigit hd, by rintro rfl; simp at hd, by rintro rfl; simp at hd,
          by rintro rfl; simp at hd⟩
    rw [List.cons_append] at ha ⊢
    rw [value, skipSpace_cons hc.1]
    split
    · simp_all
    · simp_all
    · simp_all
    · simp_all
    · exact ha

theorem length_render_pos {j : Json} (h : j.HasText) : 0 < j.render.length := by
  obtain ⟨c, cs, hj, -⟩ := render_head h
  simp [hj]

theorem value_array {c : Char} (hs : isSpace c = false) (hc : c ≠ ']') (n : Nat) (cs : List Char) :
    value (n + 1) ('[' :: c :: cs) =
      (.array (items n (c :: cs)).1 (items n (c :: cs)).2.isSome, (items n (c :: cs)).2) := by
  rw [value, skipSpace_cons (by decide)]
  simp [skipSpace_cons hs, hc]

theorem value_object (n : Nat) (cs : List Char) :
    value (n + 1) ('\x7b' :: '"' :: cs) =
      (.object (entries n ('"' :: cs)).1 (entries n ('"' :: cs)).2.isSome,
        (entries n ('"' :: cs)).2) := by
  rw [value, skipSpace_cons (by decide)]
  simp [skipSpace_cons (show isSpace '"' = false by decide)]

theorem renderItems_head {j : Json} (h : j.HasText) (js : List Json) :
    ∃ c cs, renderItems (j :: js) = c :: cs ∧ isSpace c = false ∧ c ≠ ']' := by
  obtain ⟨c, cs, hj, hc⟩ := render_head h
  cases js with
  | nil => exact ⟨c, cs, by simpa [renderItems] using hj, hc⟩
  | cons k js => exact ⟨c, cs ++ ',' :: renderItems (k :: js), by simp [renderItems, hj], hc⟩

theorem renderEntries_head (e : Option String × Json) (es : List (Option String × Json)) :
    ∃ cs, renderEntries (e :: es) = '"' :: cs := by
  cases es <;> simp [renderEntries, Text.quoted]

theorem entries_quoted {n : Nat} {key : String} {j : Json} {cs after : List Char} {c : Char}
    (hc : isSpace c = false) (hv : value n cs = (j, some (c :: after))) :
    entries (n + 1) (Text.quoted key.toList ++ ':' :: cs) =
      if c = '\x7d' then ([(some key, j)], some after)
      else if c = ',' then ((some key, j) :: (entries n after).1, (entries n after).2)
      else ([(some key, j)], none) := by
  rw [entries, Text.quoted, List.cons_append, List.cons_append, skipSpace_cons (by decide),
    List.append_assoc, List.singleton_append]
  simp only [stringTail_quoted]
  rw [skipSpace_cons (by decide)]
  simp only [hv, skipSpace_cons hc]
  by_cases hclose : c = '\x7d'
  · subst hclose
    rfl
  by_cases hcomma : c = ','
  · subst hcomma
    rfl
  · rw [if_neg hclose, if_neg hcomma]
    simp [hclose, hcomma]

mutual

theorem value_render :
    (j : Json) → j.HasText → ∀ {n : Nat} {rest : List Char}, 2 * j.render.length ≤ n →
    Delimits rest → value n (j.render ++ rest) = (j, some rest)
  | .null, _, n, rest, hn, _ => by
    obtain ⟨n, rfl⟩ := Nat.exists_eq_add_one_of_ne_zero (n := n) (by simp [render] at hn; omega)
    simp [render, value, skipSpace, isSpace, atom]
  | .bool b, _, n, rest, hn, _ => by
    obtain ⟨n, rfl⟩ :=
      Nat.exists_eq_add_one_of_ne_zero (n := n) (by cases b <;> simp [render] at hn <;> omega)
    cases b <;> simp [render, value, skipSpace, isSpace, atom]
  | .number literal, h, n, rest, hn, hr => by
    have hpos := length_render_pos h
    obtain ⟨n, rfl⟩ := Nat.exists_eq_add_one_of_ne_zero (n := n) (by omega)
    simp only [HasText] at h
    simpa [render] using value_number h hr n
  | .string text, h, n, rest, hn, _ => by
    obtain ⟨s, rfl⟩ := Option.isSome_iff_exists.1 h
    obtain ⟨n, rfl⟩ :=
      Nat.exists_eq_add_one_of_ne_zero (n := n) (by simp [render, Text.quoted] at hn; omega)
    simp [render, Text.quoted, value, skipSpace, isSpace, stringTail_quoted]
  | .array items closed, h, n, rest, hn, _ => by
    obtain ⟨rfl, hi⟩ := h
    obtain ⟨n, rfl⟩ := Nat.exists_eq_add_one_of_ne_zero (n := n) (by simp [render] at hn; omega)
    cases items with
    | nil => simp [render, renderItems, value, skipSpace, isSpace]
    | cons j js =>
      have ih := @items_render (j :: js) hi (by simp) n rest (by simp [render] at hn; omega)
      obtain ⟨c, cs, hcs, hc⟩ := renderItems_head hi.1 js
      simp only [render, List.cons_append, List.append_assoc, List.nil_append, hcs] at ih ⊢
      rw [value_array hc.1 hc.2, ih]
      rfl
  | .object entries closed, h, n, rest, hn, _ => by
    obtain ⟨rfl, he⟩ := h
    obtain ⟨n, rfl⟩ := Nat.exists_eq_add_one_of_ne_zero (n := n) (by simp [render] at hn; omega)
    cases entries with
    | nil => simp [render, renderEntries, value, skipSpace, isSpace]
    | cons e es =>
      have ih := @entries_render (e :: es) he (by simp) n rest (by simp [render] at hn; omega)
      obtain ⟨cs, hcs⟩ := renderEntries_head e es
      simp only [render, List.cons_append, List.append_assoc, List.nil_append, hcs] at ih ⊢
      rw [value_object, ih]
      rfl
  | .cut, h, _, _, _, _ => by simp [HasText] at h
  | .bare, h, _, _, _, _ => by simp [HasText] at h

theorem items_render :
    (js : List Json) → ItemsHaveText js → js ≠ [] → ∀ {n : Nat} {rest : List Char},
    2 * (renderItems js).length + 1 ≤ n →
    items n (renderItems js ++ ']' :: rest) = (js, some rest)
  | [], _, hne, _, _, _ => absurd rfl hne
  | [j], h, _, n, rest, hn => by
    simp only [renderItems] at hn ⊢
    obtain ⟨n, rfl⟩ := Nat.exists_eq_add_one_of_ne_zero (n := n) (by omega)
    rw [items, value_render j h.1 (by omega) (delimits_bracket rest)]
    simp only [skipSpace_cons (show isSpace ']' = false by decide)]
  | j :: k :: js, h, _, n, rest, hn => by
    have hlen := length_render_pos h.1
    simp only [renderItems, List.append_assoc, List.cons_append] at hn ⊢
    simp only [List.length_append, List.length_cons] at hn
    obtain ⟨n, rfl⟩ := Nat.exists_eq_add_one_of_ne_zero (n := n) (by omega)
    rw [items, value_render j h.1 (by omega) (delimits_comma _)]
    simp only [skipSpace_cons (show isSpace ',' = false by decide)]
    rw [items_render (k :: js) h.2 (by simp) (by omega)]

theorem entries_render : (es : List (Option String × Json)) → EntriesHaveText es → es ≠ [] →
    ∀ {n : Nat} {rest : List Char}, 2 * (renderEntries es).length + 1 ≤ n →
    entries n (renderEntries es ++ '\x7d' :: rest) = (es, some rest)
  | [], _, hne, _, _, _ => absurd rfl hne
  | [(key, j)], h, _, n, rest, hn => by
    obtain ⟨s, rfl⟩ := Option.isSome_iff_exists.1 h.1
    simp only [renderEntries, List.append_assoc, List.cons_append, Option.getD_some] at hn ⊢
    simp only [List.length_append, List.length_cons] at hn
    obtain ⟨n, rfl⟩ := Nat.exists_eq_add_one_of_ne_zero (n := n) (by omega)
    rw [entries_quoted (by decide) (value_render j h.2.1 (by omega) (delimits_brace rest))]
    rfl
  | (key, j) :: e :: es, h, _, n, rest, hn => by
    obtain ⟨s, rfl⟩ := Option.isSome_iff_exists.1 h.1
    simp only [renderEntries, List.append_assoc, List.cons_append, Option.getD_some] at hn ⊢
    simp only [List.length_append, List.length_cons] at hn
    obtain ⟨n, rfl⟩ := Nat.exists_eq_add_one_of_ne_zero (n := n) (by omega)
    rw [entries_quoted (by decide) (value_render j h.2.1 (by omega) (delimits_comma _)),
      if_neg (by decide), if_pos rfl]
    simp only [entries_render (e :: es) h.2.2 (by simp) (show _ ≤ n by omega)]

end

end Reader

theorem Document.ofText_toText {j : Json} (h : j.HasText) :
    Document.ofText j.toText = ⟨j, true⟩ := by
  have hv := Reader.value_render j h (n := 2 * j.render.length + 2) (by omega) Reader.delimits_nil
  rw [List.append_nil] at hv
  simp [Document.ofText, toText, hv, Reader.skipSpace]

end ProtoSchema.Json
