import ProtoSchema.Proofs.Schema.Position
import ProtoSchema.Proofs.Token.Splitting

/-! # Texts joined by a line break

A line break stands only in blanks and in block comments. A text that splits to its end leaves no
comment open, so no piece of it grows over a line break behind it, except that blanks on both sides
become one piece. The tokens of two texts joined by a line break are therefore those of the first
and then those of the second, further down by the lines of the first.
-/

namespace ProtoSchema

open Piece Text

namespace Piece

variable {cs w rest : List Char}

theorem ne_newline_of_all {p : Char → Bool} (hp : p '\n' = false) (h : ∀ c ∈ cs, p c = true) :
    ∀ c ∈ cs, c ≠ '\n' := by
  rintro c hc rfl
  rw [h _ hc] at hp
  cases hp

theorem Between.ne_newline {q : Char} (h : Between q cs) : ∀ c ∈ cs, c ≠ '\n' := by
  induction h with
  | nil => simp
  | plain _ _ hn _ ih => exact List.forall_mem_cons.2 ⟨hn, ih⟩
  | escape hn _ ih => exact List.forall_mem_cons.2 ⟨by decide, List.forall_mem_cons.2 ⟨hn, ih⟩⟩

theorem IsString.ne_newline (h : IsString w) : ∀ c ∈ w, c ≠ '\n' := by
  obtain @⟨q, body, hq, h⟩ := h
  have hquote : q ≠ '\n' := by rcases hq with rfl | rfl <;> decide
  exact List.forall_mem_cons.2 ⟨hquote,
    List.forall_mem_append.2 ⟨h.ne_newline, List.forall_mem_singleton.2 hquote⟩⟩

theorem IsExponent.ne_newline (h : IsExponent w) : ∀ c ∈ w, c ≠ '\n' := by
  have hmark {e : Char} (he : e = 'e' ∨ e = 'E') : e ≠ '\n' := by
    rcases he with rfl | rfl <;> decide
  have hsign {s : Char} (hs : s = '+' ∨ s = '-') : s ≠ '\n' := by
    rcases hs with rfl | rfl <;> decide
  cases h with
  | plain he hds =>
    exact List.forall_mem_cons.2 ⟨hmark he, ne_newline_of_all (by decide) hds.2⟩
  | signed he hs hds =>
    exact List.forall_mem_cons.2 ⟨hmark he,
      List.forall_mem_cons.2 ⟨hsign hs, ne_newline_of_all (by decide) hds.2⟩⟩

theorem IsDecimal.ne_newline (h : IsDecimal w) : ∀ c ∈ w, c ≠ '\n' := by
  obtain ⟨hds, hf, he⟩ := h
  refine List.forall_mem_append.2 ⟨ne_newline_of_all (by decide) hds.2,
    List.forall_mem_append.2 ⟨?_, ?_⟩⟩
  · rcases hf with rfl | @⟨ds, hf⟩
    · simp
    · exact List.forall_mem_cons.2 ⟨by decide, ne_newline_of_all (by decide) hf⟩
  · rcases he with rfl | he
    · simp
    · exact he.ne_newline

theorem IsMagnitude.ne_newline (h : IsMagnitude w) : ∀ c ∈ w, c ≠ '\n' := by
  cases h with
  | @hexadecimal x _ hx _ hds =>
    have hmark : x ≠ '\n' := by rcases hx with rfl | rfl <;> decide
    exact List.forall_mem_cons.2 ⟨by decide,
      List.forall_mem_cons.2 ⟨hmark, ne_newline_of_all (by decide) hds⟩⟩
  | decimal h => exact h.ne_newline

theorem IsNumber.ne_newline (h : IsNumber w) : ∀ c ∈ w, c ≠ '\n' := by
  cases h with
  | plain h => exact h.ne_newline
  | minus h => exact List.forall_mem_cons.2 ⟨by decide, h.ne_newline⟩

theorem IsName.ne_newline (h : IsName w) : ∀ c ∈ w, c ≠ '\n' := by
  cases w with
  | nil => simp
  | cons c cs =>
    refine ne_newline_of_all (p := isNamePart) (by decide) (List.forall_mem_cons.2 ⟨?_, h.2⟩)
    exact isNamePart_of_isNameStart h.1

theorem Dotted.ne_newline (h : Dotted w) : ∀ c ∈ w, c ≠ '\n' := by
  induction h with
  | name h => exact h.ne_newline
  | cons h _ ih =>
    exact List.forall_mem_append.2 ⟨h.ne_newline, List.forall_mem_cons.2 ⟨by decide, ih⟩⟩

theorem IsWord.ne_newline (h : IsWord w) : ∀ c ∈ w, c ≠ '\n' := by
  rcases h with h | h | h | ⟨c, hc, rfl⟩
  · exact h.ne_newline
  · exact h.ne_newline
  · cases h with
    | plain h => exact h.ne_newline
    | dot h => exact List.forall_mem_cons.2 ⟨by decide, h.ne_newline⟩
  · rw [List.forall_mem_singleton]
    rintro rfl
    exact absurd hc (by decide)

theorem next?_blanks (hne : w ≠ []) (hw : ∀ c ∈ w, isBlank c = true) (rest : List Char) :
    next? (w ++ rest) = some (⟨.blank, w ++ rest.takeWhile isBlank⟩, rest.dropWhile isBlank) := by
  obtain ⟨c, w, rfl⟩ := List.exists_cons_of_ne_nil hne
  obtain ⟨hc, hw⟩ := List.forall_mem_cons.1 hw
  rw [List.cons_append, next?_blank hc, List.takeWhile_append_of_pos hw,
    List.dropWhile_append_of_pos hw, List.cons_append]

theorem eq_of_blockComments {body body' more more' : List Char} (h : ¬ ['*', '/'] <:+: body)
    (h' : ¬ ['*', '/'] <:+: body')
    (heq : body ++ '*' :: '/' :: more = body' ++ '*' :: '/' :: more') : body = body' := by
  have hclose := closeComment_append_end h more
  rw [heq, closeComment_append_end h' more'] at hclose
  simpa using (congrArg Prod.fst (Option.some.inj hclose)).symm

theorem Leads.not_over {p : Piece} (hp : p.Leads cs) (hw : IsComment (cs ++ '\n' :: rest)) :
    False := by
  obtain ⟨more, rfl⟩ := hp.begins
  have hpiece := hp.isPiece
  generalize hcs : p.text ++ more ++ '\n' :: rest = w at hw
  cases hw with
  | line h => exact h (by simpa using congrArg ('\n' ∈ ·) hcs)
  | @block body h =>
    have hfirst {c : Char} {ds : List Char} (htext : p.text = c :: ds) : c = '/' := by
      rw [htext] at hcs
      exact (List.cons.inj hcs).1
    obtain ⟨kind, text⟩ := p
    cases kind with
    | blank =>
      obtain ⟨c, ds, rfl⟩ := List.exists_cons_of_ne_nil hpiece.1
      obtain rfl := hfirst rfl
      exact absurd (hpiece.2 _ List.mem_cons_self) (by decide)
    | word =>
      obtain ⟨c, ds, rfl, hslash⟩ := IsWord.exists_cons hpiece
      exact hslash (hfirst rfl)
    | comment =>
      cases hpiece with
      | line => exact absurd (List.cons.inj (List.cons.inj hcs).2).1 (by decide)
      | @block body' h' =>
        have htail := (List.cons.inj (List.cons.inj hcs).2).2
        have hmarks : body' ++ '*' :: '/' :: (more ++ '\n' :: rest) = body ++ ['*', '/'] := by
          simpa using htail
        obtain rfl := eq_of_blockComments h' h hmarks
        simp at htail

/-- A piece ends with the text or before it, or else it goes on behind the line break. -/
theorem prefix_or_over (h : w <+: cs ++ '\n' :: rest) :
    w <+: cs ∨ ∃ more, w = cs ++ '\n' :: more := by
  have hline : cs ++ ['\n'] <+: cs ++ '\n' :: rest := by simp
  rcases List.prefix_or_prefix_of_prefix h hline with hw | ⟨more, rfl⟩
  · rcases List.prefix_concat_iff.1 hw with rfl | hw
    · exact Or.inr ⟨[], rfl⟩
    · exact Or.inl hw
  · exact Or.inr ⟨more, by simp⟩

/-- The longest piece stays the longest in front of a line break, unless it is blanks up to
there. -/
theorem Leads.append_newline {p : Piece} (h : p.Leads cs) (hp : p ≠ ⟨.blank, cs⟩)
    (rest : List Char) : p.Leads (cs ++ '\n' :: rest) := by
  refine ⟨h.isPiece, h.begins.trans (List.prefix_append _ _), fun q hq hbegins => ?_⟩
  rcases prefix_or_over hbegins with hwithin | ⟨more, hover⟩
  · exact h.longest q hq hwithin
  obtain ⟨kind, text⟩ := q
  subst hover
  cases kind with
  | word => exact absurd rfl (IsWord.ne_newline hq '\n' (by simp))
  | comment => exact (h.not_over hq).elim
  | blank =>
    have hall : ∀ c ∈ cs, isBlank c = true := fun c hc => hq.2 c (List.mem_append_left _ hc)
    obtain ⟨after, hcs⟩ := h.begins
    have hne : cs ≠ [] := by
      rintro rfl
      exact (next?_append (next?_eq_some_iff.2 ⟨h, hcs⟩)).2 (List.append_eq_nil_iff.1 hcs).1
    have hnext := next?_blanks hne hall []
    rw [List.append_nil, next?_eq_some_iff.2 ⟨h, hcs⟩] at hnext
    exact absurd (congrArg Prod.fst (Option.some.inj hnext)) (by simpa using hp)

end Piece

namespace Position

def below (lines : Nat) (p : Position) : Position := ⟨p.line + lines, p.column⟩

theorem after_newline (before cs : List Char) :
    after (before ++ '\n' :: cs) = (after cs).below (1 + before.count '\n') := by
  have hcolumn : (cs.reverse ++ '\n' :: before.reverse).takeWhile (· ≠ '\n') =
      cs.reverse.takeWhile (· ≠ '\n') :=
    takeWhile_append_of_stop (by simp)
  simp only [after, below, List.reverse_append, List.reverse_cons, List.append_assoc,
    List.singleton_append, hcolumn, List.count_append, List.count_cons_self]
  congr 1
  omega

end Position

theorem wordsAfter_newline (before cs : List Char) (ps : List Piece) :
    wordsAfter (before ++ '\n' :: cs) ps =
      (wordsAfter cs ps).map (Token.move (Position.below (1 + before.count '\n'))) := by
  induction ps generalizing cs with
  | nil => rfl
  | cons p ps ih =>
    rw [wordsAfter, wordsAfter, List.append_assoc, List.cons_append, ih, Position.after_newline]
    split <;> rfl

namespace Splits

variable {as bs w rest : List Char} {ps qs : List Piece}

theorem blanks_append (h : Splits bs qs rest) (hne : w ≠ []) (hw : ∀ c ∈ w, isBlank c = true) :
    ∃ rs, Splits (w ++ bs) rs rest ∧
      ∀ before, wordsAfter before rs = wordsAfter (before ++ w) qs := by
  have hnext := next?_blanks hne hw bs
  by_cases hblank : ∃ c cs, bs = c :: cs ∧ isBlank c = true
  · obtain ⟨c, cs, rfl, hc⟩ := hblank
    obtain ⟨others, rfl, hmore⟩ := h.eq_cons_of_next? (next?_blank hc cs)
    rw [List.takeWhile_cons_of_pos hc, List.dropWhile_cons_of_pos hc] at hnext
    exact ⟨_, .of_next? hnext hmore, fun before => by simp [wordsAfter]⟩
  · have hstop : ∀ c ∈ bs.head?, isBlank c = false := by
      intro c hc
      obtain ⟨cs, rfl⟩ := List.head?_eq_some_iff.1 hc
      exact Bool.eq_false_iff.2 fun hblank' => hblank ⟨c, cs, rfl, hblank'⟩
    have htake : ([] ++ bs).takeWhile isBlank = [] := takeWhile_append_of_stop hstop
    have hdrop : ([] ++ bs).dropWhile isBlank = bs := dropWhile_append_of_stop hstop
    rw [List.nil_append] at htake hdrop
    rw [htake, hdrop, List.append_nil] at hnext
    exact ⟨_, .of_next? hnext h, fun before => by simp [wordsAfter]⟩

theorem newline_append (ha : Splits as ps []) (hb : Splits bs qs rest) :
    ∃ rs, Splits (as ++ '\n' :: bs) rs rest ∧
      ∀ before, wordsAfter before rs =
        wordsAfter before ps ++ wordsAfter (before ++ (as ++ ['\n'])) qs := by
  have hline : isBlank '\n' = true := by decide
  generalize hnil : ([] : List Char) = stop at ha
  induction ha with
  | stop =>
    subst hnil
    exact hb.blanks_append (w := ['\n']) (by simp) (by simpa using hline)
  | @cons p ps cs _ hlead hs ih =>
    obtain ⟨rs, hrs, hwords⟩ := ih hnil
    by_cases hp : p = ⟨.blank, p.text ++ cs⟩
    · obtain rfl : cs = [] := by simpa using congrArg Piece.text hp
      have hkind : p.kind = .blank := congrArg Piece.kind hp
      have hblanks : IsBlanks p.text := by simpa [IsPiece, hkind] using hlead.isPiece
      obtain ⟨rs', hrs', hwords'⟩ := hrs.blanks_append hblanks.1 hblanks.2
      refine ⟨rs', by simpa using hrs', fun before => ?_⟩
      rw [hwords', hwords, wordsAfter, if_neg (by simp [hkind])]
      simp
    · refine ⟨p :: rs, ?_, fun before => ?_⟩
      · have hlonger := hlead.append_newline hp bs
        rw [List.append_assoc] at hlonger ⊢
        exact .cons hlonger hrs
      · rw [wordsAfter, wordsAfter, hwords]
        split <;> simp

end Splits

namespace Token

/-- The tokens of two texts joined by a line break are those of the first, without its end, and then
those of the second, in the same columns and further down by the lines of the first. Where the
second text cannot be split, the fault is the same, as much further down. -/
theorem scan_newline_append {a : String} {ts : List Token} (ha : scan a = .ok ts) (b : String) :
    (∀ us, scan b = .ok us → scan (a ++ "\n" ++ b) =
      .ok (ts.dropLast ++ us.map (Token.move (Position.below (1 + a.toList.count '\n'))))) ∧
    ∀ fault p, scan b = .error (fault, p) → scan (a ++ "\n" ++ b) =
      .error (fault, p.below (1 + a.toList.count '\n')) := by
  obtain ⟨ps, hps, rfl⟩ := splits_of_scan ha
  have htext : (a ++ "\n" ++ b).toList = a.toList ++ '\n' :: b.toList := by simp
  have hplace := Position.after_newline a.toList
  constructor
  · intro us hb
    obtain ⟨qs, hqs, rfl⟩ := splits_of_scan hb
    obtain ⟨rs, hrs, hwords⟩ := hps.newline_append hqs
    rw [← htext] at hrs
    rw [scan_of_splits hrs, if_pos rfl, hwords, htext, hplace, List.nil_append,
      wordsAfter_newline a.toList [] qs]
    simp [Token.move]
  · intro fault p hb
    obtain ⟨qs, rest, hqs, hne, rfl, rfl⟩ := splits_of_scan_error hb
    obtain ⟨rs, hrs, -⟩ := hps.newline_append hqs
    have hpieces : rs.flatMap (·.text) = a.toList ++ '\n' :: qs.flatMap (·.text) := by
      have hall := hrs.append
      rw [← hqs.append, ← List.cons_append, ← List.append_assoc] at hall
      exact List.append_cancel_right hall
    rw [← htext] at hrs
    rw [scan_of_splits hrs, if_neg hne, hpieces, hplace]

/-- The first text ends in a line comment and the second begins with blanks. -/
theorem scan_newline_append_seam :
    scan "a\n-1 // b" = .ok [⟨"a", ⟨1, 1⟩⟩, ⟨"-1", ⟨2, 1⟩⟩, ⟨"", ⟨2, 8⟩⟩] ∧
    scan " \n c;" = .ok [⟨"c", ⟨2, 2⟩⟩, ⟨";", ⟨2, 3⟩⟩, ⟨"", ⟨2, 4⟩⟩] ∧
    scan "a\n-1 // b\n \n c;" = .ok [⟨"a", ⟨1, 1⟩⟩, ⟨"-1", ⟨2, 1⟩⟩, ⟨"c", ⟨4, 2⟩⟩, ⟨";", ⟨4, 3⟩⟩,
      ⟨"", ⟨4, 4⟩⟩] := by
  have ha : scan "a\n-1 // b" = .ok [⟨"a", ⟨1, 1⟩⟩, ⟨"-1", ⟨2, 1⟩⟩, ⟨"", ⟨2, 8⟩⟩] := by
    decide +kernel
  have hb : scan " \n c;" = .ok [⟨"c", ⟨2, 2⟩⟩, ⟨";", ⟨2, 3⟩⟩, ⟨"", ⟨2, 4⟩⟩] := by decide +kernel
  exact ⟨ha, hb, (scan_newline_append ha " \n c;").1 _ hb⟩

end Token

end ProtoSchema
