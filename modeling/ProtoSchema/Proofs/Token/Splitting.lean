import ProtoSchema.Proofs.Token.Longest

/-! # Splitting a text

A text splits into pieces, each the longest one that begins where the one before it ends, up to its
end or to a place where no piece begins. The tokens of a text are the words among its pieces, at the
places where they begin.
-/

namespace ProtoSchema

open Piece

namespace Position

/-- The place behind a text: a line for each line break, and a column for each character after the
last of them. -/
def after (before : List Char) : Position :=
  ⟨1 + before.count '\n', 1 + (before.reverse.takeWhile (· ≠ '\n')).length⟩

theorem step_after (before : List Char) (c : Char) :
    (after before).step c = after (before ++ [c]) := by
  by_cases hc : c = '\n'
  · subst hc
    simp [step, after]
    omega
  · simp [step, after, hc]
    omega

theorem advance_after (before cs : List Char) :
    (after before).advance cs = after (before ++ cs) := by
  induction cs generalizing before with
  | nil => rw [List.append_nil, advance, List.foldl_nil]
  | cons c cs ih =>
    change ((after before).step c).advance cs = _
    rw [step_after, ih, List.append_assoc, List.singleton_append]

end Position

/-- The pieces of a text in order, and what is left of it: no piece begins there. -/
inductive Splits : List Char → List Piece → List Char → Prop
  | stop {rest : List Char} (h : ∀ q : Piece, q.IsPiece → ¬ q.text <+: rest) : Splits rest [] rest
  | cons {p : Piece} {ps : List Piece} {cs rest : List Char} (h : p.Leads (p.text ++ cs))
      (hs : Splits cs ps rest) : Splits (p.text ++ cs) (p :: ps) rest

/-- The words among pieces that follow the text `before`, each at its place. -/
def wordsAfter (before : List Char) : List Piece → List Token
  | [] => []
  | p :: ps =>
    if p.kind = .word then
      ⟨String.ofList p.text, .after before⟩ :: wordsAfter (before ++ p.text) ps
    else wordsAfter (before ++ p.text) ps

namespace Splits

variable {cs rest : List Char} {ps : List Piece}

theorem of_next? {p : Piece} {more : List Char} (h : next? cs = some (p, more))
    (hs : Splits more ps rest) : Splits cs (p :: ps) rest := by
  obtain ⟨hlead, rfl⟩ := next?_eq_some_iff.1 h
  exact .cons hlead hs

theorem append (h : Splits cs ps rest) : ps.flatMap (·.text) ++ rest = cs := by
  induction h with
  | stop => rfl
  | cons _ _ ih => rw [List.flatMap_cons, List.append_assoc, ih]

theorem of_append {front back : List Piece} (h : Splits cs (front ++ back) rest) :
    Splits (back.flatMap (·.text) ++ rest) back rest := by
  induction front generalizing cs with
  | nil =>
    rw [List.nil_append] at h
    rwa [h.append]
  | cons p front ih =>
    cases h with
    | cons _ hs => exact ih hs

theorem exists_splits (cs : List Char) : ∃ ps rest, Splits cs ps rest := by
  induction hn : cs.length using Nat.strongRecOn generalizing cs with
  | ind n ih =>
    subst hn
    cases hnext : next? cs with
    | none => exact ⟨[], cs, .stop (next?_eq_none_iff.1 hnext)⟩
    | some r =>
      obtain ⟨ps, rest, hs⟩ := ih _ (next?_length hnext) r.2 rfl
      exact ⟨r.1 :: ps, rest, .of_next? hnext hs⟩

/-- A text splits in one way: the first piece is the one that is cut off. -/
theorem eq_cons_of_next? {p : Piece} {more : List Char} (h : Splits cs ps rest)
    (hnext : next? cs = some (p, more)) : ∃ others, ps = p :: others ∧ Splits more others rest := by
  cases h with
  | stop h =>
    rw [next?_eq_none_iff.2 h] at hnext
    cases hnext
  | cons hlead hs =>
    rw [next?_eq_some_iff.2 ⟨hlead, rfl⟩] at hnext
    cases hnext
    exact ⟨_, rfl, hs⟩

theorem eq_string_cons {literal more : List Char} (h : Splits (literal ++ more) ps rest)
    (hl : IsString literal) : ∃ others, ps = ⟨.word, literal⟩ :: others := by
  obtain ⟨others, rfl, -⟩ := h.eq_cons_of_next? (next?_of_isString hl more)
  exact ⟨others, rfl⟩

end Splits

namespace Token

theorem scanFrom_stuck {p : Position} {cs : List Char} (hne : cs ≠ []) (h : next? cs = none) :
    scanFrom p cs = .error (.ofRest cs, p) := by
  obtain ⟨c, cs, rfl⟩ := List.exists_cons_of_ne_nil hne
  rw [scanFrom]
  split
  · rfl
  · next hsome => simp [h] at hsome

theorem scanFrom_of_splits {cs rest : List Char} {ps : List Piece} (h : Splits cs ps rest)
    (before : List Char) :
    scanFrom (.after before) cs =
      if rest = [] then .ok (wordsAfter before ps ++ [⟨"", .after (before ++ cs)⟩])
      else .error (.ofRest rest, .after (before ++ ps.flatMap (·.text))) := by
  induction h generalizing before with
  | @stop rest h =>
    split
    · next hnil =>
      subst hnil
      rw [scanFrom, List.append_nil]
      rfl
    · next hne =>
      rw [scanFrom_stuck hne (next?_eq_none_iff.2 h), List.flatMap_nil, List.append_nil]
  | @cons p ps cs rest h hs ih =>
    rw [scanFrom_next (next?_eq_some_iff.2 ⟨h, rfl⟩), Position.advance_after, ih, wordsAfter,
      List.flatMap_cons]
    simp only [List.append_assoc]
    by_cases hnil : rest = []
    · by_cases hk : p.kind = .word
      · simp only [hnil, hk, if_true, List.cons_append]
      · simp only [hnil, hk, if_true, if_false]
    · simp only [hnil, if_false]

theorem scan_of_splits {text : String} {rest : List Char} {ps : List Piece}
    (h : Splits text.toList ps rest) :
    scan text =
      if rest = [] then .ok (wordsAfter [] ps ++ [⟨"", .after text.toList⟩])
      else .error (.ofRest rest, .after (ps.flatMap (·.text))) :=
  scanFrom_of_splits h []

theorem splits_of_scan {text : String} {ts : List Token} (h : scan text = .ok ts) :
    ∃ ps, Splits text.toList ps [] ∧ ts = wordsAfter [] ps ++ [⟨"", .after text.toList⟩] := by
  obtain ⟨ps, rest, hsplits⟩ := Splits.exists_splits text.toList
  rw [scan_of_splits hsplits] at h
  split at h
  · next hnil =>
    subst hnil
    cases h
    exact ⟨ps, hsplits, rfl⟩
  · cases h

theorem splits_of_scan_error {text : String} {fault : LexicalFault} {p : Position}
    (h : scan text = .error (fault, p)) : ∃ ps rest, Splits text.toList ps rest ∧ rest ≠ [] ∧
      fault = .ofRest rest ∧ p = .after (ps.flatMap (·.text)) := by
  obtain ⟨ps, rest, hsplits⟩ := Splits.exists_splits text.toList
  rw [scan_of_splits hsplits] at h
  split at h
  · cases h
  · next hne =>
    cases h
    exact ⟨ps, rest, hsplits, hne, rfl, rfl⟩

theorem getLast?_of_scan {text : String} {ts : List Token} (h : scan text = .ok ts) :
    ts.getLast?.any isEnd = true := by
  obtain ⟨ps, -, rfl⟩ := splits_of_scan h
  simp [isEnd]

/-- A scan succeeds exactly if the text splits into pieces to its end. The tokens are then the words
among the pieces, each at its place, and an empty one at the place where the text ends. Otherwise
the error is at the first place where no piece begins. A string literal is one piece, whatever comment
marks it contains. -/
theorem scan_splits (text : String) :
    (∀ tokens, scan text = .ok tokens ↔ ∃ pieces, Splits text.toList pieces [] ∧
      tokens = wordsAfter [] pieces ++ [⟨"", .after text.toList⟩]) ∧
    (∀ fault p, scan text = .error (fault, p) ↔ ∃ pieces rest, Splits text.toList pieces rest ∧
      rest ≠ [] ∧ fault = .ofRest rest ∧ p = .after (pieces.flatMap (·.text))) ∧
    ∀ front back rest literal more, Splits text.toList (front ++ back) rest →
      back.flatMap (·.text) ++ rest = literal ++ more → IsString literal →
        ∃ others, back = ⟨.word, literal⟩ :: others := by
  refine ⟨fun tokens => ⟨splits_of_scan, ?_⟩, fun fault p => ⟨splits_of_scan_error, ?_⟩, ?_⟩
  · rintro ⟨pieces, hsplits, rfl⟩
    rw [scan_of_splits hsplits, if_pos rfl]
  · rintro ⟨pieces, rest, hsplits, hne, rfl, rfl⟩
    rw [scan_of_splits hsplits, if_neg hne]
  · intro front back rest literal more hsplits heq hl
    have hback := hsplits.of_append
    rw [heq] at hback
    exact hback.eq_string_cons hl

/-- A literal with comment marks, a comment with a line break, and a place where nothing begins. -/
theorem scan_splits_marks : ∃ others rest,
    Splits "\"//\"/*\n*/ @".toList (⟨.word, ['"', '/', '/', '"']⟩ :: others) rest ∧
      scan "\"//\"/*\n*/ @" = .error (.stray "@", ⟨2, 4⟩) := by
  have herror : scan "\"//\"/*\n*/ @" = .error (.stray "@", ⟨2, 4⟩) := by decide +kernel
  have hliteral : IsString ['"', '/', '/', '"'] :=
    .mk (Or.inl rfl) (.plain (by decide) (by decide) (by decide)
      (.plain (by decide) (by decide) (by decide) .nil))
  obtain ⟨pieces, rest, hsplits, -⟩ := ((scan_splits _).2.1 _ _).1 herror
  obtain ⟨others, rfl⟩ := (scan_splits _).2.2 [] pieces rest _ "/*\n*/ @".toList hsplits
    (by rw [hsplits.append]; decide) hliteral
  exact ⟨others, rest, hsplits, herror⟩

end Token

end ProtoSchema
