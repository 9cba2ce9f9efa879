import Mathlib.Data.Bool.AllAny
import Mathlib.Data.List.TakeWhile
import ProtoSchema.Proofs.Text.Digits
import ProtoSchema.Token

/-! # Words of a schema text

Names, integers, string literals and symbols, as they are spelled. Each of them is cut off a text as
one word wherever a blank, a comment, a symbol or the end of the text follows.
-/

namespace ProtoSchema.Piece

open Text

def symbols : List Char := ['=', ';', ',', '\x7b', '\x7d', '(', ')', '[', ']']

/-- A text goes on with a blank, a comment or a symbol, or it ends. -/
def Stops (rest : List Char) : Prop :=
  ∀ c ∈ rest.head?, isBlank c = true ∨ c = '/' ∨ c ∈ symbols

/-- A word that is cut off any text which it starts, if the text then stops. -/
def IsLexeme (w : List Char) : Prop :=
  ∀ rest, Stops rest → next? (w ++ rest) = some (⟨.word, w⟩, rest)

def blanks : List Char :=
  (List.range' 9 5 ++ [0x20, 0x85, 0xa0, 0x1680] ++ List.range' 0x2000 11 ++
    [0x2028, 0x2029, 0x202f, 0x205f, 0x3000]).map Char.ofNat

theorem mem_blanks {c : Char} (h : isBlank c = true) : c ∈ blanks := by
  refine List.mem_map.2 ⟨c.toNat, ?_, Char.ofNat_toNat c⟩
  simp only [isBlank, inRanges, blankRanges, List.any_cons, List.any_nil, Bool.or_false,
    Bool.or_eq_true, Bool.and_eq_true, decide_eq_true_eq] at h
  simp only [List.mem_append, List.mem_range'_1, List.mem_cons, List.not_mem_nil, or_false]
  omega

/-- What a character that ends a word is not. -/
structure Ends (c : Char) : Prop where
  namePart : isNamePart c = false
  digit : isDigit c = false
  hexDigit : isHexDigit c = false
  mark : c ∉ ['.', 'e', 'E', 'x', 'X']

theorem Stops.ends {rest : List Char} (h : Stops rest) : ∀ c ∈ rest.head?, Ends c := by
  have hblank : ∀ c ∈ blanks ++ '/' :: symbols, isNamePart c = false ∧ isDigit c = false ∧
      isHexDigit c = false ∧ c ∉ ['.', 'e', 'E', 'x', 'X'] :=
    List.all_iff_forall_prop.1 (by decide +kernel)
  intro c hc
  have hmem : c ∈ blanks ++ '/' :: symbols := by
    rcases h c hc with hb | rfl | hs
    · exact List.mem_append_left _ (mem_blanks hb)
    · simp
    · exact List.mem_append_right _ (List.mem_cons_of_mem _ hs)
  obtain ⟨h₁, h₂, h₃, h₄⟩ := hblank c hmem
  exact ⟨h₁, h₂, h₃, h₄⟩

theorem stops_nil : Stops [] := by simp [Stops]

/-- What the first character of a name is not. -/
structure Starts (c : Char) : Prop where
  digit : isDigit c = false
  mark : c ∉ ['/', '"', '\'', '-', '.']

theorem starts_of_isNameStart {c : Char} (h : isNameStart c = true) : Starts c := by
  have hascii : c.toNat < 128 := by
    delta isNameStart Char.isAlpha Char.isUpper Char.isLower at h
    simp only [Bool.or_eq_true, Bool.and_eq_true, decide_eq_true_eq, UInt32.le_iff_toNat_le] at h
    rcases h with (⟨-, hle⟩ | ⟨-, hle⟩) | rfl
    · exact lt_of_le_of_lt hle (by decide)
    · exact lt_of_le_of_lt hle (by decide)
    · decide
  have hall : ∀ c : Char, c.toNat < 128 → isNameStart c = true →
      isDigit c = false ∧ c ∉ ['/', '"', '\'', '-', '.'] := forall_ascii (by decide +kernel)
  obtain ⟨hdigit, hmark⟩ := hall c hascii h
  exact ⟨hdigit, hmark⟩

def IsName : List Char → Prop
  | [] => False
  | c :: cs => isNameStart c = true ∧ ∀ d ∈ cs, isNamePart d = true

inductive Dotted : List Char → Prop
  | name {cs : List Char} (h : IsName cs) : Dotted cs
  | cons {cs ds : List Char} (h : IsName cs) (hd : Dotted ds) : Dotted (cs ++ '.' :: ds)

variable {cs rest : List Char}

theorem Dotted.exists_cons (h : Dotted cs) : ∃ c ds, cs = c :: ds ∧ isNameStart c = true := by
  have hname {ds : List Char} (h : IsName ds) : ∃ c es, ds = c :: es ∧ isNameStart c = true := by
    cases ds with
    | nil => exact absurd h id
    | cons c es => exact ⟨c, es, rfl, h.1⟩
  cases h with
  | name h => exact hname h
  | cons h hd =>
    obtain ⟨c, es, rfl, hc⟩ := hname h
    exact ⟨c, _, rfl, hc⟩

theorem nameTail_append_of_all {ds : List Char} (h : ∀ d ∈ ds, isNamePart d = true) :
    nameTail (ds ++ rest) = (ds ++ (nameTail rest).1, (nameTail rest).2) := by
  induction ds with
  | nil => rfl
  | cons d ds ih =>
    obtain ⟨hd, hds⟩ := List.forall_mem_cons.1 h
    rw [List.cons_append, nameTail, if_pos (by simp [hd]), ih hds]
    rfl

theorem nameTail_of_head (h : ∀ c ∈ rest.head?, isNamePart c = false ∧ c ≠ '.') :
    nameTail rest = ([], rest) := by
  cases rest with
  | nil => rfl
  | cons c rest => rw [nameTail, if_neg (by simp [h c rfl])]

theorem nameTail_stops (h : Stops rest) : nameTail rest = ([], rest) := by
  refine nameTail_of_head fun c hc => ⟨(h.ends c hc).namePart, ?_⟩
  rintro rfl
  exact (h.ends '.' hc).mark (by simp)

theorem isNamePart_of_isNameStart {c : Char} (h : isNameStart c = true) : isNamePart c = true := by
  simp only [isNameStart, Bool.or_eq_true] at h
  rcases h with halpha | hline
  · simp [isNamePart, Char.isAlphanum, halpha]
  · simp [isNamePart, hline]

theorem name?_dotted (h : Dotted cs) (hr : nameTail rest = ([], rest)) :
    name? (cs ++ rest) = some (cs, rest) := by
  induction h with
  | @name cs h =>
    cases cs with
    | nil => exact absurd h id
    | cons c cs =>
      rw [List.cons_append, name?, if_pos h.1, nameTail_append_of_all h.2, hr]
      simp
  | @cons cs ds h hd ih =>
    obtain ⟨d, es, rfl, hstart⟩ := hd.exists_cons
    have htail : nameTail (d :: es ++ rest) = (d :: es, rest) := by
      have hd' := ih
      rw [List.cons_append, name?, if_pos hstart] at hd'
      simp only [Option.some.injEq, Prod.mk.injEq, List.cons.injEq, true_and] at hd'
      rw [List.cons_append, nameTail, if_pos (by simp [isNamePart_of_isNameStart hstart])]
      exact Prod.ext (by simp [hd'.1]) hd'.2
    have hdot : nameTail ('.' :: (d :: es ++ rest)) = ('.' :: d :: es, rest) := by
      rw [nameTail, if_pos (by simp [startsName, hstart]), htail]
    cases cs with
    | nil => exact absurd h id
    | cons c cs =>
      rw [List.append_assoc, List.cons_append, List.cons_append, name?, if_pos h.1,
        nameTail_append_of_all h.2, hdot]
      rfl

theorem comment?_eq_none {c : Char} (h : c ≠ '/') (cs : List Char) : comment? (c :: cs) = none := by
  rw [comment?]
  · intro ds heq
    exact h (List.cons.inj heq).1
  · intro ds heq
    exact h (List.cons.inj heq).1

theorem string?_eq_none {c : Char} (h : c ≠ '"') (h' : c ≠ '\'') (cs : List Char) :
    string? (c :: cs) = none := by
  simp [string?, h, h']

theorem decimal?_eq_none {c : Char} (h : isDigit c = false) (cs : List Char) :
    decimal? (c :: cs) = none := by
  simp [decimal?, h]

theorem number?_eq_none {c : Char} (h : isDigit c = false) (h' : c ≠ '-') (cs : List Char) :
    number? (c :: cs) = none := by
  have hzero : c ≠ '0' := by
    rintro rfl
    exact absurd h (by decide)
  have hmagnitude : magnitude? (c :: cs) = none := by
    rw [magnitude?, decimal?_eq_none h]
    intro x r heq
    exact hzero (List.cons.inj heq).1
  rw [number?, hmagnitude]
  intro ds heq
  exact h' (List.cons.inj heq).1

theorem typeName?_of_ne {c : Char} (h : c ≠ '.') (cs : List Char) :
    typeName? (c :: cs) = name? (c :: cs) := by
  rw [typeName?]
  intro ds heq
  exact h (List.cons.inj heq).1

theorem next?_of_word? {a : List Char} (hc : comment? cs = none) (hw : word? cs = some (a, rest)) :
    next? cs = some (⟨.word, a⟩, rest) := by
  simp [next?, hc, hw]

theorem next?_dotted (h : Dotted cs) (hr : nameTail rest = ([], rest)) :
    next? (cs ++ rest) = some (⟨.word, cs⟩, rest) := by
  have hname := name?_dotted h hr
  obtain ⟨c, ds, rfl, hc⟩ := h.exists_cons
  obtain ⟨hdigit, hmark⟩ := starts_of_isNameStart hc
  simp only [List.mem_cons, List.not_mem_nil, or_false, not_or] at hmark
  obtain ⟨hslash, hquote, hquote', hminus, hdot⟩ := hmark
  refine next?_of_word? (comment?_eq_none hslash _) ?_
  rw [List.cons_append] at hname ⊢
  rw [word?, string?_eq_none hquote hquote', number?_eq_none hdigit hminus, typeName?_of_ne hdot,
    hname]
  rfl

theorem isLexeme_dotted (h : Dotted cs) : IsLexeme cs :=
  fun _ hr => next?_dotted h (nameTail_stops hr)

theorem isLexeme_dot_cons (h : Dotted cs) : IsLexeme ('.' :: cs) := by
  intro rest hr
  refine next?_of_word? (comment?_eq_none (by decide) _) ?_
  have hname : typeName? ('.' :: (cs ++ rest)) = some ('.' :: cs, rest) := by
    rw [typeName?, name?_dotted h (nameTail_stops hr)]
    rfl
  rw [List.cons_append, word?, string?_eq_none (by decide) (by decide),
    number?_eq_none (by decide) (by decide), hname]
  rfl

theorem next?_symbol {c : Char} (h : c ∈ symbols) (rest : List Char) :
    next? (c :: rest) = some (⟨.word, [c]⟩, rest) := by
  have hall : ∀ c ∈ symbols, c ≠ '/' ∧ c ≠ '"' ∧ c ≠ '\'' ∧ c ≠ '-' ∧ c ≠ '.' ∧
      isDigit c = false ∧ isNameStart c = false ∧ c ∈ punctuation :=
    List.all_iff_forall_prop.1 (by decide +kernel)
  obtain ⟨hslash, hquote, hquote', hminus, hdot, hdigit, hname, hmem⟩ := hall c h
  refine next?_of_word? (comment?_eq_none hslash _) ?_
  have hno : name? (c :: rest) = none := by simp [name?, hname]
  rw [word?, string?_eq_none hquote hquote', number?_eq_none hdigit hminus, typeName?_of_ne hdot,
    hno]
  simp [symbol?, hmem]

theorem isLexeme_symbol {c : Char} (h : c ∈ symbols) : IsLexeme [c] :=
  fun rest _ => next?_symbol h rest

/-- The digits of a number, in base ten or behind `0x` in base sixteen, with any zeros in front. -/
inductive Magnitude (n : Nat) : List Char → Prop
  | decimal (zeros : Nat) : Magnitude n (List.replicate zeros '0' ++ Nat.toDigits 10 n)
  | hexadecimal (zeros : Nat) {x : Char} {ds : List Char} (hx : x = 'x' ∨ x = 'X')
      (h : ds.map Char.toLower = List.replicate zeros '0' ++ Nat.toDigits 16 n) :
      Magnitude n ('0' :: x :: ds)

theorem isDigit_of_ascii {c : Char} (h : c.isDigit = true) : isDigit c = true := by
  have hc := toNat_of_isDigit h
  simp [isDigit, inRanges, digitRanges, hc]

theorem isDigit_decimal (zeros n : Nat) :
    ∀ c ∈ List.replicate zeros '0' ++ Nat.toDigits 10 n, c.isDigit = true := by
  intro c hc
  rcases List.mem_append.1 hc with hc | hc
  · obtain rfl := List.eq_of_mem_replicate hc
    rfl
  · exact isDigit_toDigits c hc

theorem toLower_eq_self {c : Char} (h : ¬ c.toNat < 128) : c.toLower = c := by
  refine dif_neg ?_
  simp only [UInt32.le_iff_toNat_le, not_and, not_le]
  intro _
  exact lt_of_lt_of_le (by decide) (not_lt.1 h)

theorem isHexDigit_toLower (c : Char) : isHexDigit c.toLower = isHexDigit c := by
  by_cases hc : c.toNat < 128
  · have hall : ∀ c : Char, c.toNat < 128 → isHexDigit c.toLower = isHexDigit c :=
      forall_ascii (by decide +kernel)
    exact hall c hc
  · rw [toLower_eq_self hc]

theorem ne_nil_of_map_toLower {zeros n : Nat} {ds : List Char}
    (h : ds.map Char.toLower = List.replicate zeros '0' ++ Nat.toDigits 16 n) : ds ≠ [] := by
  rintro rfl
  simp at h

theorem isHexDigit_of_map_toLower {zeros n : Nat} {ds : List Char}
    (h : ds.map Char.toLower = List.replicate zeros '0' ++ Nat.toDigits 16 n) :
    ∀ c ∈ ds, isHexDigit c = true := by
  intro c hc
  rw [← isHexDigit_toLower]
  have hmem : c.toLower ∈ List.replicate zeros '0' ++ Nat.toDigits 16 n :=
    h ▸ List.mem_map_of_mem hc
  rcases List.mem_append.1 hmem with hm | hm
  · rw [List.eq_of_mem_replicate hm]
    rfl
  · exact isHexDigit_of_mem_toDigits hm

theorem decimal?_digits (hne : cs ≠ []) (h : ∀ c ∈ cs, c.isDigit = true) (hr : Stops rest) :
    decimal? (cs ++ rest) = some (cs, rest) := by
  have hstop : ∀ c ∈ rest.head?, isDigit c = false := fun c hc => (hr.ends c hc).digit
  have hall : ∀ c ∈ cs, isDigit c = true := fun c hc => isDigit_of_ascii (h c hc)
  have hfraction : fraction rest = ([], rest) := by
    rw [fraction]
    rintro ds rfl
    exact (hr.ends '.' rfl).mark (by simp)
  have hexponent : exponent rest = ([], rest) := by
    rcases rest with _ | ⟨c, _ | ⟨d, ds⟩⟩
    · rfl
    · rfl
    · have hmark := (hr.ends c rfl).mark
      simp only [List.mem_cons, List.not_mem_nil, or_false, not_or] at hmark
      simp [exponent, hmark]
  unfold decimal?
  rw [takeWhile_append_of_stop hstop, dropWhile_append_of_stop hstop,
    List.takeWhile_eq_self_iff.2 hall, List.dropWhile_eq_nil_iff.2 hall, List.nil_append, hfraction]
  cases cs with
  | nil => exact absurd rfl hne
  | cons c cs => simp [hexponent]

theorem magnitude?_digits (hne : cs ≠ []) (h : ∀ c ∈ cs, c.isDigit = true) (hr : Stops rest) :
    magnitude? (cs ++ rest) = some (cs, rest) := by
  rw [← decimal?_digits hne h hr, magnitude?.eq_def]
  split
  · next x r heq =>
    have hx : x ∉ ['x', 'X'] := by
      intro hmem
      rcases cs with _ | ⟨c, _ | ⟨d, ds⟩⟩
      · exact hne rfl
      · obtain rfl : rest = x :: r := (List.cons.inj heq).2
        exact (hr.ends x rfl).mark (by simp_all)
      · have hd : x.isDigit = true := h x (by simp [(List.cons.inj (List.cons.inj heq).2).1])
        have hmark : x = 'x' ∨ x = 'X' := by simpa using hmem
        rcases hmark with rfl | rfl <;> simp at hd
    simp only [List.mem_cons, List.not_mem_nil, or_false, not_or] at hx
    simp [hx]
  · rfl

theorem magnitude?_append_of_magnitude {n : Nat} (h : Magnitude n cs) (hr : Stops rest) :
    magnitude? (cs ++ rest) = some (cs, rest) := by
  cases h with
  | decimal zeros => exact magnitude?_digits (by simp) (isDigit_decimal zeros n) hr
  | @hexadecimal zeros x ds hx h =>
    have hall := isHexDigit_of_map_toLower h
    have hstop : ∀ c ∈ rest.head?, isHexDigit c = false := fun c hc => (hr.ends c hc).hexDigit
    have hne := ne_nil_of_map_toLower h
    rw [List.cons_append, List.cons_append, magnitude?, takeWhile_append_of_stop hstop,
      dropWhile_append_of_stop hstop, List.takeWhile_eq_self_iff.2 hall,
      List.dropWhile_eq_nil_iff.2 hall, List.nil_append]
    simp [hx, hne]

inductive Numeral : Int → List Char → Prop
  | plain {n : Nat} {cs : List Char} (h : Magnitude n cs) : Numeral n cs
  | minus {n : Nat} {cs : List Char} (h : Magnitude n cs) : Numeral (-n) ('-' :: cs)

theorem Magnitude.exists_cons {n : Nat} (h : Magnitude n cs) :
    ∃ c ds, cs = c :: ds ∧ c.isDigit = true := by
  cases h with
  | decimal zeros =>
    have hall := isDigit_decimal zeros n
    cases hcs : List.replicate zeros '0' ++ Nat.toDigits 10 n with
    | nil => simp at hcs
    | cons c ds => exact ⟨c, ds, rfl, hall c (by simp [hcs])⟩
  | hexadecimal => exact ⟨'0', _, rfl, rfl⟩

theorem isLexeme_numeral {n : Int} (h : Numeral n cs) : IsLexeme cs := by
  intro rest hr
  cases h with
  | plain h =>
    have hmagnitude := magnitude?_append_of_magnitude h hr
    obtain ⟨c, ds, rfl, hc⟩ := h.exists_cons
    have hne {d : Char} (hd : d.isDigit = false) : c ≠ d := by
      rintro rfl
      simp [hd] at hc
    have hnumber : number? (c :: ds ++ rest) = some (c :: ds, rest) := by
      rw [← hmagnitude, List.cons_append, number?]
      intro es heq
      exact hne rfl (List.cons.inj heq).1
    refine next?_of_word? (comment?_eq_none (hne rfl) _) ?_
    rw [word?, List.cons_append, string?_eq_none (hne rfl) (hne rfl), ← List.cons_append, hnumber]
    rfl
  | @minus n ds h =>
    have hnumber : number? ('-' :: ds ++ rest) = some ('-' :: ds, rest) := by
      rw [List.cons_append, number?, magnitude?_append_of_magnitude h hr]
      rfl
    refine next?_of_word? (comment?_eq_none (by decide) _) ?_
    rw [word?, List.cons_append, string?_eq_none (by decide) (by decide), ← List.cons_append,
      hnumber]
    rfl

/-- A text as it stands between quotes: the quote, the backslash and the line break are escaped. -/
inductive Escaped (q : Char) : List Char → List Char → Prop
  | nil : Escaped q [] []
  | plain {c : Char} {s body : List Char} (hq : c ≠ q) (hb : c ≠ '\\') (hn : c ≠ '\n')
      (h : Escaped q s body) : Escaped q (c :: s) (c :: body)
  | quote {s body : List Char} (h : Escaped q s body) : Escaped q (q :: s) ('\\' :: q :: body)
  | backslash {s body : List Char} (h : Escaped q s body) :
      Escaped q ('\\' :: s) ('\\' :: '\\' :: body)
  | newline {s body : List Char} (h : Escaped q s body) :
      Escaped q ('\n' :: s) ('\\' :: 'n' :: body)

/-- A literal of a text, in either kind of quotes. -/
inductive Literal (s : List Char) : List Char → Prop
  | mk {q : Char} {body : List Char} (hq : q = '"' ∨ q = '\'') (h : Escaped q s body) :
      Literal s (q :: (body ++ [q]))

/-- What can stand between the quotes `q`: no line break, and the quote and the backslash only behind a
backslash. -/
inductive Between (q : Char) : List Char → Prop
  | nil : Between q []
  | plain {c : Char} {body : List Char} (hq : c ≠ q) (hb : c ≠ '\\') (hn : c ≠ '\n')
      (h : Between q body) : Between q (c :: body)
  | escape {c : Char} {body : List Char} (hn : c ≠ '\n') (h : Between q body) :
      Between q ('\\' :: c :: body)

theorem Escaped.between {q : Char} {s body : List Char} (hq : q = '"' ∨ q = '\'')
    (h : Escaped q s body) : Between q body := by
  induction h with
  | nil => exact .nil
  | plain hcq hb hn _ ih => exact .plain hcq hb hn ih
  | quote _ ih => exact .escape (by rcases hq with rfl | rfl <;> decide) ih
  | backslash _ ih => exact .escape (by decide) ih
  | newline _ ih => exact .escape (by decide) ih

theorem closeString_between {q : Char} {body : List Char} (hq : q = '"' ∨ q = '\'')
    (h : Between q body) (rest : List Char) :
    closeString q (body ++ q :: rest) = some (body ++ [q], rest) := by
  induction h with
  | nil =>
    rw [List.nil_append, closeString]
    · simp
    · intro c cs heq
      rcases hq with rfl | rfl <;> exact absurd heq (by decide)
  | plain hcq hb hn _ ih =>
    rw [List.cons_append, closeString]
    · simp [hcq, hb, hn, ih]
    · intro c cs heq
      exact absurd heq hb
  | escape hn _ ih =>
    rw [List.cons_append, List.cons_append, closeString, if_neg hn, ih]
    rfl

theorem isLexeme_literal {s : List Char} (h : Literal s cs) : IsLexeme cs := by
  intro rest _
  obtain @⟨q, body, hq, h⟩ := h
  have hslash : q ≠ '/' := by rcases hq with rfl | rfl <;> decide
  have hstring : string? (q :: (body ++ [q]) ++ rest) = some (q :: (body ++ [q]), rest) := by
    rw [List.cons_append, List.append_assoc, List.singleton_append, string?,
      if_pos (by simpa using hq), closeString_between hq (h.between hq)]
    rfl
  refine next?_of_word? (comment?_eq_none hslash _) ?_
  rw [word?, hstring]
  rfl

end ProtoSchema.Piece
