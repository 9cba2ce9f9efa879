import ProtoSchema.Text.Blank
import ProtoSchema.Text.Digit
import ProtoSchema.Text.Quoted

/-! # Tokens

A schema text is cut from left to right into pieces: runs of blanks, comments, and words. The words
with their positions are the tokens; a last token with no text marks where the input ends. Each piece
is read by the first rule that applies, so a number is tried before a lone minus sign.
-/

namespace ProtoSchema

/-- A place in a text, counted in lines and characters from one. -/
structure Position where
  line : Nat
  column : Nat
deriving DecidableEq, Repr, Inhabited

namespace Position

def start : Position := ⟨1, 1⟩

def step (p : Position) (c : Char) : Position :=
  if c = '\n' then ⟨p.line + 1, 1⟩ else ⟨p.line, p.column + 1⟩

def advance (p : Position) (cs : List Char) : Position := cs.foldl step p

end Position

structure Token where
  text : String
  position : Position
deriving DecidableEq, Repr, Inhabited

namespace Token

/-- The end of the input is the token without text. -/
def isEnd (t : Token) : Bool := t.text.isEmpty

end Token

inductive PieceKind where
  | blank
  | comment
  | word
deriving DecidableEq, Repr

structure Piece where
  kind : PieceKind
  text : List Char
deriving DecidableEq, Repr

namespace Piece

open Text

/-- Splits after the first `*/`. -/
def closeComment : List Char → Option (List Char × List Char)
  | [] => none
  | '*' :: '/' :: cs => some (['*', '/'], cs)
  | c :: cs => (closeComment cs).map fun r => (c :: r.1, r.2)

/-- Splits after the quote `q` that ends a string; a backslash protects one character of the line. -/
def closeString (q : Char) : List Char → Option (List Char × List Char)
  | [] => none
  | '\\' :: c :: cs =>
    if c = '\n' then none else (closeString q cs).map fun r => ('\\' :: c :: r.1, r.2)
  | c :: cs =>
    if c = q then some ([c], cs)
    else if c = '\n' || c = '\\' then none
    else (closeString q cs).map fun r => (c :: r.1, r.2)

def isNameStart (c : Char) : Bool := c.isAlpha || c = '_'

def isNamePart (c : Char) : Bool := c.isAlphanum || c = '_'

def startsName (cs : List Char) : Bool := cs.head?.any isNameStart

/-- The rest of a dotted name; a dot belongs to it only in front of another name. -/
def nameTail : List Char → List Char × List Char
  | [] => ([], [])
  | c :: cs =>
    if isNamePart c || (c = '.' && startsName cs) then
      let r := nameTail cs
      (c :: r.1, r.2)
    else ([], c :: cs)

def name? : List Char → Option (List Char × List Char)
  | [] => none
  | c :: cs =>
    if isNameStart c then
      let r := nameTail cs
      some (c :: r.1, r.2)
    else none

def typeName? : List Char → Option (List Char × List Char)
  | '.' :: cs => (name? cs).map fun r => ('.' :: r.1, r.2)
  | cs => name? cs

/-- The fraction of a number: a dot and any digits. -/
def fraction : List Char → List Char × List Char
  | '.' :: cs => ('.' :: cs.takeWhile isDigit, cs.dropWhile isDigit)
  | cs => ([], cs)

/-- The digits of an exponent after its mark and sign, if there are any. -/
def exponentDigits (mark : List Char) (all cs : List Char) : List Char × List Char :=
  match cs.takeWhile isDigit with
  | [] => ([], all)
  | ds => (mark ++ ds, cs.dropWhile isDigit)

def exponent (cs : List Char) : List Char × List Char :=
  match cs with
  | e :: s :: r =>
    if e = 'e' || e = 'E' then
      if s = '+' || s = '-' then exponentDigits [e, s] cs r else exponentDigits [e] cs (s :: r)
    else ([], cs)
  | _ => ([], cs)

def decimal? (cs : List Char) : Option (List Char × List Char) :=
  match cs.takeWhile isDigit with
  | [] => none
  | ds =>
    let f := fraction (cs.dropWhile isDigit)
    let e := exponent f.2
    some (ds ++ f.1 ++ e.1, e.2)

def magnitude? (cs : List Char) : Option (List Char × List Char) :=
  match cs with
  | '0' :: x :: r =>
    if (x = 'x' || x = 'X') && (r.takeWhile isHexDigit).length ≠ 0 then
      some ('0' :: x :: r.takeWhile isHexDigit, r.dropWhile isHexDigit)
    else decimal? cs
  | _ => decimal? cs

def number? : List Char → Option (List Char × List Char)
  | '-' :: cs => (magnitude? cs).map fun r => ('-' :: r.1, r.2)
  | cs => magnitude? cs

def punctuation : List Char :=
  ['=', ';', '\x7b', '\x7d', '(', ')', '[', ']', ',', '<', '>', ':', '+', '-']

def symbol? : List Char → Option (List Char × List Char)
  | [] => none
  | c :: cs => if c ∈ punctuation then some ([c], cs) else none

def comment? : List Char → Option (List Char × List Char)
  | '/' :: '*' :: cs => (closeComment cs).map fun r => ('/' :: '*' :: r.1, r.2)
  | '/' :: '/' :: cs => some ('/' :: '/' :: cs.takeWhile (· ≠ '\n'), cs.dropWhile (· ≠ '\n'))
  | _ => none

def string? : List Char → Option (List Char × List Char)
  | [] => none
  | c :: cs =>
    if c = '"' || c = '\'' then (closeString c cs).map fun r => (c :: r.1, r.2) else none

def blank? (cs : List Char) : Option (List Char × List Char) :=
  match cs.takeWhile isBlank with
  | [] => none
  | bs => some (bs, cs.dropWhile isBlank)

def word? (cs : List Char) : Option (List Char × List Char) :=
  string? cs <|> number? cs <|> typeName? cs <|> symbol? cs

/-- The piece a text starts with, and what follows it. -/
def next? (cs : List Char) : Option (Piece × List Char) :=
  match comment? cs with
  | some (text, rest) => some (⟨.comment, text⟩, rest)
  | none =>
    match word? cs with
    | some (text, rest) => some (⟨.word, text⟩, rest)
    | none =>
      match blank? cs with
      | some (text, rest) => some (⟨.blank, text⟩, rest)
      | none => none

theorem closeComment_append {cs a b : List Char} (h : closeComment cs = some (a, b)) :
    a ++ b = cs := by
  fun_induction closeComment cs generalizing a b with
  | case1 => simp at h
  | case2 cs => simp at h; obtain ⟨rfl, rfl⟩ := h; rfl
  | case3 c cs _ ih =>
    obtain ⟨⟨a', b'⟩, hr, heq⟩ := Option.map_eq_some_iff.1 h
    cases heq
    simp [ih hr]

theorem closeString_append {q : Char} {cs a b : List Char} (h : closeString q cs = some (a, b)) :
    a ++ b = cs := by
  fun_induction closeString q cs generalizing a b with
  | case1 => simp at h
  | case2 => simp at h
  | case3 c cs _ ih =>
    obtain ⟨⟨a', b'⟩, hr, heq⟩ := Option.map_eq_some_iff.1 h
    cases heq
    simp [ih hr]
  | case4 => simp at h; obtain ⟨rfl, rfl⟩ := h; rfl
  | case5 => simp at h
  | case6 c cs _ _ _ ih =>
    obtain ⟨⟨a', b'⟩, hr, heq⟩ := Option.map_eq_some_iff.1 h
    cases heq
    simp [ih hr]

theorem nameTail_append (cs : List Char) : (nameTail cs).1 ++ (nameTail cs).2 = cs := by
  fun_induction nameTail cs with
  | case1 => rfl
  | case2 c cs _ r ih => simpa using ih
  | case3 => rfl

theorem name?_append {cs a b : List Char} (h : name? cs = some (a, b)) : a ++ b = cs ∧ a ≠ [] := by
  unfold name? at h
  split at h
  · simp at h
  · split at h
    · simp at h; obtain ⟨rfl, rfl⟩ := h; simp [nameTail_append]
    · simp at h

theorem typeName?_append {cs a b : List Char} (h : typeName? cs = some (a, b)) :
    a ++ b = cs ∧ a ≠ [] := by
  unfold typeName? at h
  split at h
  · obtain ⟨⟨a', b'⟩, hr, heq⟩ := Option.map_eq_some_iff.1 h
    cases heq
    simp [(name?_append hr).1]
  · exact name?_append h

theorem fraction_append (cs : List Char) : (fraction cs).1 ++ (fraction cs).2 = cs := by
  unfold fraction
  split <;> simp [List.takeWhile_append_dropWhile]

theorem exponentDigits_append {mark all cs : List Char} (h : mark ++ cs = all) :
    (exponentDigits mark all cs).1 ++ (exponentDigits mark all cs).2 = all := by
  unfold exponentDigits
  split
  · simp
  · simp [List.takeWhile_append_dropWhile, h]

theorem exponent_append (cs : List Char) : (exponent cs).1 ++ (exponent cs).2 = cs := by
  unfold exponent
  split
  · split
    · split <;> exact exponentDigits_append rfl
    · simp
  · simp

theorem decimal?_append {cs a b : List Char} (h : decimal? cs = some (a, b)) :
    a ++ b = cs ∧ a ≠ [] := by
  unfold decimal? at h
  split at h
  · simp at h
  · next ds hds =>
    simp only [Option.some.injEq, Prod.mk.injEq] at h
    obtain ⟨rfl, rfl⟩ := h
    refine ⟨?_, fun h => hds (List.append_eq_nil_iff.1 (List.append_eq_nil_iff.1 h).1).1⟩
    rw [List.append_assoc, exponent_append, List.append_assoc, fraction_append,
      List.takeWhile_append_dropWhile]

theorem magnitude?_append {cs a b : List Char} (h : magnitude? cs = some (a, b)) :
    a ++ b = cs ∧ a ≠ [] := by
  unfold magnitude? at h
  split at h
  · split at h
    · simp at h; obtain ⟨rfl, rfl⟩ := h; simp [List.takeWhile_append_dropWhile]
    · exact decimal?_append h
  · exact decimal?_append h

theorem number?_append {cs a b : List Char} (h : number? cs = some (a, b)) :
    a ++ b = cs ∧ a ≠ [] := by
  unfold number? at h
  split at h
  · obtain ⟨⟨a', b'⟩, hr, heq⟩ := Option.map_eq_some_iff.1 h
    cases heq
    simp [(magnitude?_append hr).1]
  · exact magnitude?_append h

theorem symbol?_append {cs a b : List Char} (h : symbol? cs = some (a, b)) :
    a ++ b = cs ∧ a ≠ [] := by
  unfold symbol? at h
  split at h
  · simp at h
  · split at h
    · simp at h; obtain ⟨rfl, rfl⟩ := h; simp
    · simp at h

theorem comment?_append {cs a b : List Char} (h : comment? cs = some (a, b)) :
    a ++ b = cs ∧ a ≠ [] := by
  unfold comment? at h
  split at h
  · obtain ⟨⟨a', b'⟩, hr, heq⟩ := Option.map_eq_some_iff.1 h
    cases heq
    simp [closeComment_append hr]
  · simp at h; obtain ⟨rfl, rfl⟩ := h; simp [List.takeWhile_append_dropWhile]
  · simp at h

theorem string?_append {cs a b : List Char} (h : string? cs = some (a, b)) :
    a ++ b = cs ∧ a ≠ [] := by
  unfold string? at h
  split at h
  · simp at h
  · split at h
    · obtain ⟨⟨a', b'⟩, hr, heq⟩ := Option.map_eq_some_iff.1 h
      cases heq
      simp [closeString_append hr]
    · simp at h

theorem blank?_append {cs a b : List Char} (h : blank? cs = some (a, b)) :
    a ++ b = cs ∧ a ≠ [] := by
  unfold blank? at h
  split at h
  · simp at h
  · next bs hbs =>
    simp only [Option.some.injEq, Prod.mk.injEq] at h
    obtain ⟨rfl, rfl⟩ := h
    exact ⟨List.takeWhile_append_dropWhile, fun h => hbs h⟩

theorem word?_append {cs a b : List Char} (h : word? cs = some (a, b)) :
    a ++ b = cs ∧ a ≠ [] := by
  simp only [word?, Option.orElse_eq_orElse, Option.orElse_eq_or, Option.or_eq_some_iff] at h
  rcases h with h | ⟨_, h | ⟨_, h | ⟨_, h⟩⟩⟩
  · exact string?_append h
  · exact number?_append h
  · exact typeName?_append h
  · exact symbol?_append h

theorem next?_append {cs rest : List Char} {p : Piece} (h : next? cs = some (p, rest)) :
    p.text ++ rest = cs ∧ p.text ≠ [] := by
  unfold next? at h
  split at h
  · next hc => simp at h; obtain ⟨rfl, rfl⟩ := h; exact comment?_append hc
  · split at h
    · next hw => simp at h; obtain ⟨rfl, rfl⟩ := h; exact word?_append hw
    · split at h
      · next hb => simp at h; obtain ⟨rfl, rfl⟩ := h; exact blank?_append hb
      · simp at h

theorem next?_length {cs rest : List Char} {p : Piece} (h : next? cs = some (p, rest)) :
    rest.length < cs.length := by
  obtain ⟨happ, hne⟩ := next?_append h
  have := congrArg List.length happ
  have := List.length_pos_iff.2 hne
  simp at *
  omega

end Piece

inductive LexicalFault where
  | openComment
  | openString
  | stray (snippet : String)
deriving DecidableEq, Repr

namespace LexicalFault

/-- The fault of a text that starts with no piece; twenty characters of it are kept. -/
def ofRest : List Char → LexicalFault
  | '/' :: '*' :: _ => openComment
  | '"' :: _ => openString
  | '\'' :: _ => openString
  | cs => stray (String.ofList (cs.take 20))

def message : LexicalFault → String
  | openComment => "Unterminated block comment"
  | openString => "Unterminated string literal"
  | stray snippet => "Syntax error: " ++ Text.quote snippet

end LexicalFault

namespace Token

/-- The tokens of a text that begins at `p`. -/
def scanFrom (p : Position) (cs : List Char) : Except (LexicalFault × Position) (List Token) :=
  match cs with
  | [] => .ok [⟨"", p⟩]
  | c :: r =>
    match _h : Piece.next? (c :: r) with
    | none => .error (LexicalFault.ofRest (c :: r), p)
    | some (piece, rest) =>
      match scanFrom (p.advance piece.text) rest with
      | .error e => .error e
      | .ok tokens =>
        if piece.kind = .word then .ok (⟨String.ofList piece.text, p⟩ :: tokens) else .ok tokens
termination_by cs.length
decreasing_by exact Piece.next?_length _h

/-- The tokens of a text, the end of the input last. -/
def scan (text : String) : Except (LexicalFault × Position) (List Token) :=
  scanFrom Position.start text.toList

end Token

end ProtoSchema
