import ProtoSchema.Proofs.Token.Lexeme

/-! # Layout

Words are laid out with blanks and comments between them. Two words need something in between unless
one of them is a symbol. However they are laid out, the words come back as the tokens of the text.
-/

namespace ProtoSchema

open Piece Text

/-- The words of a text are the given ones, the empty word at its end included. -/
def Scans (cs : List Char) (ws : List String) : Prop :=
  ∃ ts, Token.scanFrom .start cs = .ok ts ∧ ts.map (·.text) = ws

namespace Token

theorem scanFrom_next {p : Position} {cs rest : List Char} {piece : Piece}
    (h : next? cs = some (piece, rest)) :
    scanFrom p cs =
      match scanFrom (p.advance piece.text) rest with
      | .error e => .error e
      | .ok tokens =>
        if piece.kind = .word then .ok (⟨String.ofList piece.text, p⟩ :: tokens)
        else .ok tokens := by
  cases cs with
  | nil => simp [next?, comment?, word?, string?, number?, magnitude?, decimal?, typeName?, name?,
      symbol?, blank?] at h
  | cons c cs =>
    rw [scanFrom]
    split
    · next hnone => simp [hnone] at h
    · next piece' rest' hsome =>
      obtain ⟨rfl, rfl⟩ : piece' = piece ∧ rest' = rest := by simpa [hsome] using h
      rfl

theorem scanFrom_position {p : Position} {cs : List Char} {ts : List Token}
    (h : scanFrom p cs = .ok ts) (q : Position) :
    ∃ ts', scanFrom q cs = .ok ts' ∧ ts'.map (·.text) = ts.map (·.text) := by
  induction hn : cs.length using Nat.strongRecOn generalizing p q cs ts with
  | ind n ih =>
    subst hn
    cases cs with
    | nil =>
      rw [scanFrom] at h
      cases h
      exact ⟨[⟨"", q⟩], by rw [scanFrom], rfl⟩
    | cons c cs =>
      cases hnext : next? (c :: cs) with
      | none =>
        rw [scanFrom] at h
        split at h
        · cases h
        · next hsome => simp [hnext] at hsome
      | some r =>
        obtain ⟨piece, rest⟩ := r
        rw [scanFrom_next hnext] at h ⊢
        cases hrest : scanFrom (p.advance piece.text) rest with
        | error e =>
          rw [hrest] at h
          cases h
        | ok tokens =>
          obtain ⟨tokens', hq, htexts⟩ := ih _ (next?_length hnext) hrest (q.advance piece.text) rfl
          rw [hrest] at h
          rw [hq]
          by_cases hk : piece.kind = .word
          · obtain rfl : ⟨String.ofList piece.text, p⟩ :: tokens = ts := by simpa [hk] using h
            exact ⟨⟨String.ofList piece.text, q⟩ :: tokens', by simp [hk], by simp [htexts]⟩
          · obtain rfl : tokens = ts := by simpa [hk] using h
            exact ⟨tokens', by simp [hk], htexts⟩

end Token

variable {cs rest : List Char} {ws : List String}

theorem scans_nil : Scans [] [""] := ⟨[⟨"", .start⟩], by rw [Token.scanFrom], rfl⟩

theorem scans_word {w : List Char} (h : next? cs = some (⟨.word, w⟩, rest)) (hr : Scans rest ws) :
    Scans cs (String.ofList w :: ws) := by
  obtain ⟨ts, hts, rfl⟩ := hr
  obtain ⟨ts', hts', htexts⟩ := Token.scanFrom_position hts (Position.start.advance w)
  refine ⟨⟨String.ofList w, .start⟩ :: ts', ?_, by simp [htexts]⟩
  rw [Token.scanFrom_next h, hts']
  rfl

theorem scans_skip {piece : Piece} (h : next? cs = some (piece, rest)) (hk : piece.kind ≠ .word) :
    Scans cs ws ↔ Scans rest ws := by
  constructor
  · rintro ⟨ts, hts, rfl⟩
    rw [Token.scanFrom_next h] at hts
    cases hrest : Token.scanFrom (Position.start.advance piece.text) rest with
    | error e =>
      rw [hrest] at hts
      cases hts
    | ok tokens =>
      rw [hrest] at hts
      obtain rfl : tokens = ts := by simpa [hk] using hts
      exact Token.scanFrom_position hrest .start
  · rintro ⟨ts, hts, rfl⟩
    obtain ⟨ts', hts', htexts⟩ := Token.scanFrom_position hts (Position.start.advance piece.text)
    refine ⟨ts', ?_, htexts⟩
    rw [Token.scanFrom_next h, hts']
    simp [hk]

theorem next?_blank {c : Char} (h : isBlank c = true) (cs : List Char) :
    next? (c :: cs) = some (⟨.blank, c :: cs.takeWhile isBlank⟩, cs.dropWhile isBlank) := by
  have hall : ∀ c ∈ blanks, c ≠ '/' ∧ c ≠ '"' ∧ c ≠ '\'' ∧ c ≠ '-' ∧ c ≠ '.' ∧
      isDigit c = false ∧ isNameStart c = false ∧ c ∉ punctuation :=
    List.all_iff_forall_prop.1 (by decide +kernel)
  obtain ⟨hslash, hquote, hquote', hminus, hdot, hdigit, hname, hmem⟩ := hall c (mem_blanks h)
  have hword : word? (c :: cs) = none := by
    have hno : name? (c :: cs) = none := by simp [name?, hname]
    rw [word?, string?_eq_none hquote hquote', number?_eq_none hdigit hminus, typeName?_of_ne hdot,
      hno]
    simp [symbol?, hmem]
  simp [next?, comment?_eq_none hslash, hword, blank?, h]

theorem scans_blank {c : Char} (h : isBlank c = true) : Scans (c :: cs) ws ↔ Scans cs ws := by
  rw [scans_skip (next?_blank h cs) (by simp)]
  cases cs with
  | nil => rfl
  | cons d cs =>
    by_cases hd : isBlank d = true
    · rw [scans_skip (next?_blank hd cs) (by simp), List.dropWhile_cons_of_pos hd]
    · rw [List.dropWhile_cons_of_neg hd]

theorem closeComment_append_end {body : List Char} (h : ¬ ['*', '/'] <:+: body) (rest : List Char) :
    closeComment (body ++ '*' :: '/' :: rest) = some (body ++ ['*', '/'], rest) := by
  induction body with
  | nil => rfl
  | cons c body ih =>
    have hbody : ¬ ['*', '/'] <:+: body :=
      fun hb => h (hb.trans (List.infix_cons (List.infix_refl _)))
    rw [List.cons_append, closeComment, ih hbody]
    · rfl
    · rintro cs rfl heq
      cases body with
      | nil => simp at heq
      | cons d body =>
        obtain rfl : d = '/' := (List.cons.inj heq).1
        exact h ⟨[], body, rfl⟩

theorem scans_blockComment {body : List Char} (h : ¬ ['*', '/'] <:+: body) :
    Scans ('/' :: '*' :: (body ++ '*' :: '/' :: cs)) ws ↔ Scans cs ws := by
  have hnext : next? ('/' :: '*' :: (body ++ '*' :: '/' :: cs)) =
      some (⟨.comment, '/' :: '*' :: (body ++ ['*', '/'])⟩, cs) := by
    simp [next?, comment?, closeComment_append_end h]
  exact scans_skip hnext (by simp)

theorem scans_lineComment {body : List Char} (h : '\n' ∉ body)
    (hcs : ∀ c ∈ cs.head?, c = '\n') :
    Scans ('/' :: '/' :: (body ++ cs)) ws ↔ Scans cs ws := by
  have hstop : ∀ c ∈ cs.head?, decide (c ≠ '\n') = false := fun c hc => by simp [hcs c hc]
  have hbody : ∀ c ∈ body, decide (c ≠ '\n') = true := by
    intro c hc
    rw [decide_eq_true_eq]
    rintro rfl
    exact h hc
  have hnext : next? ('/' :: '/' :: (body ++ cs)) = some (⟨.comment, '/' :: '/' :: body⟩, cs) := by
    simp only [next?, comment?]
    rw [takeWhile_append_of_stop hstop, dropWhile_append_of_stop hstop,
      List.takeWhile_eq_self_iff.2 hbody, List.dropWhile_eq_nil_iff.2 hbody, List.nil_append]
  exact scans_skip hnext (by simp)

/-- Words laid out as a text. After a word that is no symbol, the text stops before it goes on. -/
inductive Layout : List String → List Char → Prop
  | nil : Layout [] []
  | blank {c : Char} {ws : List String} {cs : List Char} (hc : isBlank c = true)
      (h : Layout ws cs) : Layout ws (c :: cs)
  | blockComment {body : List Char} {ws : List String} {cs : List Char}
      (hb : ¬ ['*', '/'] <:+: body) (h : Layout ws cs) :
      Layout ws ('/' :: '*' :: (body ++ '*' :: '/' :: cs))
  | lineComment {body : List Char} {ws : List String} {cs : List Char} (hb : '\n' ∉ body)
      (hcs : ∀ c ∈ cs.head?, c = '\n') (h : Layout ws cs) : Layout ws ('/' :: '/' :: (body ++ cs))
  | word {w : String} {ws : List String} {cs : List Char}
      (hw : (∃ c ∈ symbols, w.toList = [c]) ∨ Stops cs) (h : Layout ws cs) :
      Layout (w :: ws) (w.toList ++ cs)

theorem Layout.scans (h : Layout ws cs) (hws : ∀ w ∈ ws, IsLexeme w.toList) :
    Scans cs (ws ++ [""]) := by
  induction h with
  | nil => exact scans_nil
  | blank hc _ ih => exact (scans_blank hc).2 (ih hws)
  | blockComment hb _ ih => exact (scans_blockComment hb).2 (ih hws)
  | lineComment hb hcs _ ih => exact (scans_lineComment hb hcs).2 (ih hws)
  | @word w ws cs hw _ ih =>
    obtain ⟨hword, hrest⟩ := List.forall_mem_cons.1 hws
    have hnext : next? (w.toList ++ cs) = some (⟨.word, w.toList⟩, cs) := by
      rcases hw with ⟨c, hc, heq⟩ | hstops
      · rw [heq]
        exact next?_symbol hc cs
      · exact hword cs hstops
    have hscans := scans_word hnext (ih hrest)
    rwa [String.ofList_toList] at hscans

theorem Layout.spaced (ws : List String) : Layout ws (ws.flatMap fun w => w.toList ++ [' ']) := by
  induction ws with
  | nil => exact .nil
  | cons w ws ih =>
    rw [List.flatMap_cons, List.append_assoc]
    exact .word (Or.inr (by simp [Stops, isBlank, inRanges, blankRanges])) (.blank rfl ih)

end ProtoSchema
