import ProtoSchema.Proofs.Token.Lexeme
import ProtoSchema.Schema.Word

/-! # Words as statements take them

A word that is spelled as a name, an integer or a literal passes the test for its kind, and integers
and literals have the value that they are spelled from.
-/

namespace ProtoSchema.Word

open Piece Text

variable {text : String} {cs : List Char}

theorem isIdentifier_iff : isIdentifier text = true ↔ IsName text.toList := by
  unfold isIdentifier
  cases text.toList with
  | nil => simp [IsName]
  | cons c cs => simp [IsName]

theorem covers_of_dotted (h : Dotted cs) : name? cs = some (cs, []) := by
  simpa using name?_dotted h (show nameTail [] = ([], []) from rfl)

theorem isPackageName_of_dotted (h : Dotted text.toList) : isPackageName text = true := by
  simp [isPackageName, covers, covers_of_dotted h]

/-- A type reference: a dotted name, or one with a dot in front. -/
def IsReference (text : String) : Prop :=
  Dotted text.toList ∨ ∃ cs, Dotted cs ∧ text.toList = '.' :: cs

theorem IsReference.isLexeme (h : IsReference text) : IsLexeme text.toList := by
  rcases h with h | ⟨cs, h, heq⟩
  · exact isLexeme_dotted h
  · rw [heq]
    exact isLexeme_dot_cons h

theorem IsReference.isTypeName (h : IsReference text) : Word.isTypeName text = true := by
  rcases h with h | ⟨cs, h, heq⟩
  · obtain ⟨c, ds, hcs, hc⟩ := h.exists_cons
    have hdot : c ≠ '.' := by
      rintro rfl
      exact absurd hc (by decide)
    have hname := covers_of_dotted h
    rw [hcs] at hname
    simp [Word.isTypeName, covers, hcs, typeName?_of_ne hdot, hname]
  · simp [Word.isTypeName, covers, heq, typeName?, covers_of_dotted h]

theorem digitValue_toLower {c : Char} (h : isHexDigit c = true) :
    digitValue c.toLower = digitValue c := by
  by_cases hc : c.toNat < 128
  · have hall : ∀ c : Char, c.toNat < 128 → isHexDigit c = true →
        digitValue c.toLower = digitValue c := forall_ascii (by decide +kernel)
    exact hall c hc h
  · rw [toLower_eq_self hc]

theorem ofDigits_map_toLower (base : Nat) {ds : List Char} (h : ∀ c ∈ ds, isHexDigit c = true) :
    ofDigits base (ds.map Char.toLower) = ofDigits base ds := by
  induction ds using List.reverseRecOn with
  | nil => rfl
  | append_singleton ds c ih =>
    obtain ⟨hds, hc⟩ := List.forall_mem_append.1 h
    rw [List.map_append, List.map_singleton, ofDigits_concat, ofDigits_concat, ih hds,
      digitValue_toLower (hc c (by simp))]

theorem ofDigits_zeros {base : Nat} (h : 1 < base) (h' : base ≤ 16) (zeros n : Nat) :
    ofDigits base (List.replicate zeros '0' ++ Nat.toDigits base n) = n := by
  rw [ofDigits_append, ofDigits_replicate_zero, ofDigits_toDigits h h', Nat.zero_mul, Nat.zero_add]

theorem hexDigits?_of_digits (h : ∀ c ∈ cs, c.isDigit = true) : hexDigits? cs = none := by
  unfold hexDigits?
  split
  · next x c ds =>
    have hx : x.isDigit = true := h x (by simp)
    rw [if_neg]
    simp only [Bool.and_eq_true, Bool.or_eq_true, decide_eq_true_eq, not_and]
    rintro (rfl | rfl) <;> simp at hx
  · rfl

theorem hexDigits?_hexadecimal {x : Char} {ds : List Char} (hx : x = 'x' ∨ x = 'X') (hne : ds ≠ [])
    (h : ∀ c ∈ ds, isHexDigit c = true) : hexDigits? ('0' :: x :: ds) = some ds := by
  cases ds with
  | nil => exact absurd rfl hne
  | cons d ds =>
    rw [hexDigits?, if_pos]
    simp only [Bool.and_eq_true, Bool.or_eq_true, decide_eq_true_eq, List.all_eq_true]
    exact ⟨hx, h⟩

theorem isMagnitude_of_magnitude {n : Nat} (h : Magnitude n cs) : isMagnitude cs = true := by
  cases h with
  | decimal zeros =>
    have hall := isDigit_decimal zeros n
    have hdigits : (List.replicate zeros '0' ++ Nat.toDigits 10 n).all isDigit = true :=
      List.all_eq_true.2 fun c hc => isDigit_of_ascii (hall c hc)
    rw [isMagnitude, hdigits]
    simp
  | hexadecimal zeros hx h =>
    simp [isMagnitude,
      hexDigits?_hexadecimal hx (ne_nil_of_map_toLower h) (isHexDigit_of_map_toLower h)]

theorem magnitudeValue?_of_magnitude {n : Nat} (h : Magnitude n cs) :
    magnitudeValue? cs = some n := by
  cases h with
  | decimal zeros =>
    have hall := isDigit_decimal zeros n
    rw [magnitudeValue?, hexDigits?_of_digits hall]
    dsimp only
    rw [if_pos (List.all_eq_true.2 hall), ofDigits_zeros (by decide) (by decide)]
  | hexadecimal zeros hx h =>
    have hall := isHexDigit_of_map_toLower h
    rw [magnitudeValue?, hexDigits?_hexadecimal hx (ne_nil_of_map_toLower h) hall]
    dsimp only
    rw [← ofDigits_map_toLower 16 hall, h, ofDigits_zeros (by decide) (by decide)]

theorem splitSign_of_magnitude {n : Nat} (h : Magnitude n cs) : splitSign cs = (false, cs) := by
  obtain ⟨c, ds, rfl, hc⟩ := h.exists_cons
  rw [splitSign]
  rintro es heq
  rw [(List.cons.inj heq).1] at hc
  simp at hc

theorem isInteger_of_numeral {n : Int} (h : Numeral n text.toList) : isInteger text = true := by
  unfold isInteger
  generalize text.toList = cs at h
  cases h with
  | plain h =>
    rw [splitSign_of_magnitude h]
    exact isMagnitude_of_magnitude h
  | minus h => exact isMagnitude_of_magnitude h

/-- The integers of 32 bits. -/
def IsInt32 (n : Int) : Prop := minInt32 ≤ n ∧ n ≤ maxInt32

instance (n : Int) : Decidable (IsInt32 n) := inferInstanceAs (Decidable (_ ∧ _))

theorem integerValue?_of_numeral {n : Int} (h : Numeral n text.toList) (hn : IsInt32 n) :
    integerValue? text = some n := by
  unfold integerValue?
  generalize text.toList = cs at h
  cases h with
  | plain h =>
    rw [splitSign_of_magnitude h]
    simp only [magnitudeValue?_of_magnitude h, Option.bind_eq_bind, Option.bind_some,
      Bool.false_eq_true, if_false]
    exact if_pos hn
  | minus h =>
    simp only [splitSign, magnitudeValue?_of_magnitude h, Option.bind_eq_bind, Option.bind_some,
      if_true]
    exact if_pos hn

theorem afterLiteral_escaped {q : Char} {s body : List Char} (hq : q = '"' ∨ q = '\'')
    (h : Escaped q s body) (rest : List Char) : afterLiteral q (body ++ q :: rest) = some rest := by
  have hqn : q ≠ '\n' := by rcases hq with rfl | rfl <;> decide
  have hqb : q ≠ '\\' := by rcases hq with rfl | rfl <;> decide
  have hescape {c : Char} {body : List Char} (hc : c ≠ '\n')
      (ih : afterLiteral q (body ++ q :: rest) = some rest) :
      afterLiteral q ('\\' :: c :: body ++ q :: rest) = some rest := by
    rw [List.cons_append, List.cons_append, afterLiteral, if_neg hc, ih]
  induction h with
  | nil =>
    rw [List.nil_append, afterLiteral]
    · simp
    · intro c cs heq
      exact absurd heq hqb
  | plain hcq hb _ _ ih =>
    rw [List.cons_append, afterLiteral]
    · simp [hcq, hb, ih]
    · intro c cs heq
      exact absurd heq hb
  | quote _ ih => exact hescape hqn ih
  | backslash _ ih => exact hescape (by decide) ih
  | newline _ ih => exact hescape (by decide) ih

theorem unescape_escaped {q : Char} {s body : List Char} (hq : q = '"' ∨ q = '\'')
    (h : Escaped q s body) : unescape body = s := by
  have hself : escaped q = q := by rcases hq with rfl | rfl <;> rfl
  induction h with
  | nil => rfl
  | plain _ hb _ _ ih =>
    rw [unescape]
    · simp [hb, ih]
    · intro c cs heq
      exact absurd heq hb
  | quote _ ih => rw [unescape, ih, hself]
  | backslash _ ih =>
    rw [unescape, ih]
    rfl
  | newline _ ih =>
    rw [unescape, ih]
    rfl

theorem isStringLiteral_of_literal {s : List Char} (h : Literal s text.toList) :
    isStringLiteral text = true := by
  unfold isStringLiteral
  generalize text.toList = cs at h
  obtain @⟨q, body, hq, h⟩ := h
  simp only [afterLiteral_escaped hq h, beq_self_eq_true, Bool.and_true, Bool.or_eq_true,
    decide_eq_true_eq]
  exact hq

theorem literalValue_of_literal {s : List Char} (h : Literal s text.toList) :
    literalValue text = String.ofList s := by
  unfold literalValue
  generalize text.toList = cs at h
  obtain @⟨q, body, hq, h⟩ := h
  simp [unescape_escaped hq h]

/-- A character between the quotes `q`. -/
def literalChar (q c : Char) : List Char :=
  if c = '\\' ∨ c = q then ['\\', c] else if c = '\n' then ['\\', 'n'] else [c]

/-- The literal of a text in the quotes `q`. -/
def literal (q : Char) (s : String) : String :=
  String.ofList (q :: (s.toList.flatMap (literalChar q) ++ [q]))

theorem escaped_literalChars (q : Char) (s : List Char) :
    Escaped q s (s.flatMap (literalChar q)) := by
  induction s with
  | nil => exact .nil
  | cons c s ih =>
    rw [List.flatMap_cons, literalChar]
    split
    · next h =>
      rcases h with rfl | rfl
      · exact .backslash ih
      · exact .quote ih
    · next h =>
      obtain ⟨hb, hq⟩ := not_or.1 h
      split
      · next hn =>
        subst hn
        exact .newline ih
      · next hn => exact .plain hq hb hn ih

theorem literal_spells {q : Char} (hq : q = '"' ∨ q = '\'') (s : String) :
    Literal s.toList (literal q s).toList := by
  rw [literal, String.toList_ofList]
  exact .mk hq (escaped_literalChars q s.toList)

end ProtoSchema.Word
