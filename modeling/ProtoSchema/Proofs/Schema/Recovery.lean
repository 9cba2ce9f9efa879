import ProtoSchema.Proofs.Schema.Malformed

/-! # Recovery from malformed statements

A message with any tokens between its fields. The fields before and after them are read as they
would be without these tokens, except where the options of a broken field await a value: such a
field can take the options of the next field for its own, and then the next field is lost.
-/

namespace ProtoSchema

open Reader Word

/-- The semicolon is taken for the value, and the options go on behind it. -/
theorem Dangling.reader {f : Field} {s : List Token} {c : Token} (h : Dangling f s) (hs : Inline s)
    (hc : c.text = ";") (stop : Position) (rest : List Token) :
    Field.reader false stop (s ++ c :: rest) = (optionsFrom true 0 >>= f.closed) stop rest := by
  obtain ⟨head, o, body, rfl, hheads, ho, hbody⟩ := h
  have hinline : Inline body := fun t ht => hs t (by simp [ht])
  have hoptions : options stop (o :: body ++ c :: rest) = optionsFrom true 0 stop rest := by
    refine (bind_ok (optionalWord_cons ho)).trans ((hbody.optionsFrom hinline rfl _ _ _ _).trans ?_)
    rw [hc]
    rfl
  rw [List.append_assoc, hheads.reader_append]
  exact bind_congr hoptions

theorem Label.Spelled.optionsFrom {label : Label} {inOneof : Bool} {ls : List Token}
    (h : label.Spelled inOneof (ls.map (·.text))) (b : Bool) (stop : Position) (rest : List Token) :
    Reader.optionsFrom b 0 stop (ls ++ rest) = Reader.optionsFrom b 0 stop rest := by
  generalize hw : ls.map (·.text) = ws at h
  cases h with
  | implicit | member =>
    obtain rfl := List.map_eq_nil_iff.1 hw
    rfl
  | required | requiredMember | optional | repeated =>
    simp only [List.map_eq_cons_iff, List.map_eq_nil_iff] at hw
    obtain ⟨l, _, rfl, hl, rfl⟩ := hw
    exact optionsFrom_other (by simp [hl])

theorem Field.Heads.optionsFrom {inOneof : Bool} {f : Field} {head : List Token}
    (h : f.Heads inOneof head) (stop : Position) (rest : List Token) :
    Reader.optionsFrom true 0 stop (head ++ rest) = Reader.optionsFrom true 0 stop rest := by
  obtain @⟨ls, t, n, e, i, hl, hfirst, hgroup, ht, htype, hn, hname, hplace, he, hi, hnumber⟩ := h
  have hnumber : Reader.optionsFrom true 0 stop (i :: rest) = Reader.optionsFrom true 0 stop rest :=
    optionsFrom_other (passed_of_test hi (ne_of_test hi (by decide)) (by decide))
  have hname : Reader.optionsFrom true 0 stop (n :: e :: i :: rest) =
      Reader.optionsFrom true 0 stop rest := by
    by_cases hd : n.text = "deprecated"
    · have hvalue : (i.text != "false") = true := bne_iff_ne.2 (ne_of_test hi (by decide))
      rw [optionsFrom_value hd he, hvalue]
    · rw [optionsFrom_other (passed_of_test hn hd (by decide)), optionsFrom_other (by simp [he]),
        hnumber]
  rw [List.append_assoc, hl.optionsFrom]
  by_cases hd : t.text = "deprecated"
  · exact (optionsFrom_noValue hd (ne_of_test hn (by decide))).trans hname
  · exact (optionsFrom_other (passed_of_test ht hd (by decide))).trans hname

theorem Settings.exists_from {b d : Bool} {ws : List String} (h : Settings b d ws) (b' : Bool) :
    ∃ d', Settings b' d' ws := by
  have hsetting {b d : Bool} {ws : List String} (h : Setting b d ws) (b' : Bool) :
      ∃ d', Setting b' d' ws := by
    cases h with
    | flag => exact ⟨_, .flag⟩
    | yes => exact ⟨_, .yes⟩
    | no => exact ⟨_, .no⟩
    | other hname hne hvalue => exact ⟨_, .other hname hne hvalue⟩
  induction h generalizing b' with
  | last h =>
    obtain ⟨d', h'⟩ := hsetting h b'
    exact ⟨d', .last h'⟩
  | cons h _ ih =>
    obtain ⟨c', h'⟩ := hsetting h b'
    obtain ⟨d', hs'⟩ := ih c'
    exact ⟨d', .cons h' hs'⟩

/-- A bracket is closed before the next semicolon. -/
def ClosesFirst (ts : List Token) : Prop := "]" ∈ (ts.map (·.text)).takeWhile (· != ";")

theorem Label.Spelled.ordinary {label : Label} {inOneof : Bool} {ws : List String}
    (h : label.Spelled inOneof ws) : ∀ w ∈ ws, w ≠ ";" ∧ w ≠ "]" := by
  cases h with
  | implicit | member => simp
  | required | requiredMember | optional | repeated => decide

theorem Field.Heads.ordinary {inOneof : Bool} {f : Field} {head : List Token}
    (h : f.Heads inOneof head) : ∀ t ∈ head, t.text ≠ ";" ∧ t.text ≠ "]" := by
  obtain @⟨ls, t, n, e, i, hl, hfirst, hgroup, ht, htype, hn, hname, hplace, he, hi, hnumber⟩ := h
  have htest {test : String → Bool} {w : String} (hw : test w = true) (hsemi : test ";" = false)
      (hclose : test "]" = false) : w ≠ ";" ∧ w ≠ "]" :=
    ⟨ne_of_test hw hsemi, ne_of_test hw hclose⟩
  have hlabel := hl.ordinary
  simp only [List.forall_mem_map] at hlabel
  simp only [List.forall_mem_append, List.forall_mem_cons]
  refine ⟨hlabel, htest ht (by decide) (by decide), htest hn (by decide) (by decide), ?_,
    htest hi (by decide) (by decide), by simp⟩
  simp [he]

theorem Settings.ordinary {b d : Bool} {ws : List String} (h : Settings b d ws) : ";" ∉ ws := by
  have hsetting {b d : Bool} {ws : List String} (h : Setting b d ws) : ";" ∉ ws := by
    cases h with
    | flag | yes | no => decide
    | @other name value hname hne hvalue =>
      have hn : name ≠ ";" := ne_of_test hname.isTypeName (by decide)
      have hv : value ≠ ";" := fun heq => hvalue.passed (by simp [heq])
      simp [hn.symm, hv.symm]
  induction h with
  | last h => exact hsetting h
  | cons h _ ih => simpa [hsetting h] using ih

theorem Deprecation.exists_takes {b : Bool} {os : List Token} (h : Deprecation b (os.map (·.text)))
    (hne : os ≠ []) : ∃ d, (optionsFrom true 0).Takes d os [] := by
  generalize hw : os.map (·.text) = ws at h
  cases h with
  | unsaid => exact absurd (List.map_eq_nil_iff.1 hw) hne
  | said hsettings =>
    simp only [List.map_eq_append_iff, List.map_eq_cons_iff, List.map_eq_nil_iff] at hw
    obtain ⟨o, _, rfl, ho, xs, _, rfl, rfl, k, _, rfl, hk, rfl⟩ := hw
    obtain ⟨d, hd⟩ := hsettings.exists_from true
    exact ⟨d, fun stop rest => (optionsFrom_other (by simp [ho])).trans (hd.takes hk stop rest)⟩

theorem Deprecation.ordinary {b : Bool} {ws : List String} (h : Deprecation b ws) : ";" ∉ ws := by
  cases h with
  | unsaid => simp
  | said h => simpa using h.ordinary

theorem Deprecation.closes_iff {b : Bool} {ws : List String} (h : Deprecation b ws) :
    "]" ∈ ws ↔ ws ≠ [] := by
  cases h with
  | unsaid => simp
  | said h => simp

/-- A bracket that closes before the next semicolon is that of the next field's options. -/
theorem closesFirst_iff {inOneof b : Bool} {f : Field} {head os us : List Token} {c : Token}
    (h : f.Heads inOneof head) (ho : Deprecation b (os.map (·.text))) (hc : c.text = ";") :
    ClosesFirst (head ++ (os ++ [c]) ++ us) ↔ os ≠ [] := by
  have hhead : ∀ w ∈ head.map (·.text), (w != ";") = true := by
    simpa using fun t ht => (h.ordinary t ht).1
  have hclose : "]" ∉ head.map (·.text) := by
    simpa using fun t ht => (h.ordinary t ht).2
  have hopts : ∀ w ∈ os.map (·.text), (w != ";") = true := by
    rintro w hw
    exact bne_iff_ne.2 fun heq => ho.ordinary (heq ▸ hw)
  have htake : ((head ++ (os ++ [c]) ++ us).map (·.text)).takeWhile (· != ";") =
      head.map (·.text) ++ os.map (·.text) := by
    simp only [List.map_append, List.append_assoc]
    rw [List.takeWhile_append_of_pos hhead, List.takeWhile_append_of_pos hopts]
    simp [hc]
  rw [ClosesFirst, htake, List.mem_append, or_iff_right hclose, ho.closes_iff, ne_eq,
    List.map_eq_nil_iff]

section Dangling

variable {f : Field} {s q : List Token} {c e : Token} {Q : List Field}

/-- If the next field has options, they end those of the broken field, which takes its place. -/
theorem Dangling.takes (h : Dangling f s) (hs : Inline s) (hc : c.text = ";")
    (hq : Listed (Field.Spelled false) Q (q.map (·.text))) (hcloses : ClosesFirst q) :
    ∃ d q₁ q₂, q = q₁ ++ q₂ ∧ Listed (Field.Spelled false) Q.tail (q₂.map (·.text)) ∧
      (Field.reader false).Takes { f with deprecated := d } (s ++ c :: q₁) [] := by
  generalize hw : q.map (·.text) = ws at hq
  cases hq with
  | nil =>
    obtain rfl := List.map_eq_nil_iff.1 hw
    exact absurd hcloses (by simp [ClosesFirst])
  | cons hg hgs =>
    obtain ⟨q₁, q₂, rfl, rfl, rfl⟩ := List.map_eq_append_iff.1 hw
    obtain ⟨head, os, c', rfl, ⟨t, ht, hheads⟩, ho, hc'⟩ := hg.exists_heads
    obtain ⟨d, hoptions⟩ := ho.exists_takes ((closesFirst_iff hheads ho hc').1 hcloses)
    refine ⟨d, _, q₂, rfl, hgs, fun stop rest => ?_⟩
    have htokens : s ++ c :: (head ++ (os ++ [c'])) ++ rest =
        s ++ c :: (head ++ (os ++ c' :: rest)) := by simp
    rw [htokens, h.reader hs hc, bind_ok ((hheads.optionsFrom _ _).trans (hoptions _ _))]
    exact bind_ok (word_cons hc')

theorem Dangling.fails (h : Dangling f s) (hs : Inline s) (hc : c.text = ";")
    (hq : Listed (Field.Spelled false) Q (q.map (·.text))) (he : e.text = "\x7d")
    (hcloses : ¬ ClosesFirst q) :
    ∃ t ∈ q ++ [e], ∀ stop rest, Field.reader false stop (s ++ c :: (q ++ e :: rest)) =
      .failed ⟨.expected (.word "]") t.text, t.position⟩ false := by
  generalize hw : q.map (·.text) = ws at hq
  cases hq with
  | nil =>
    obtain rfl := List.map_eq_nil_iff.1 hw
    refine ⟨e, by simp, fun stop rest => ?_⟩
    rw [h.reader hs hc]
    exact bind_failed (optionsFrom_broken (Or.inr he))
  | cons hg hgs =>
    obtain ⟨q₁, q₂, rfl, rfl, rfl⟩ := List.map_eq_append_iff.1 hw
    obtain ⟨head, os, c', rfl, ⟨t, ht, hheads⟩, ho, hc'⟩ := hg.exists_heads
    obtain rfl : os = [] := by
      by_contra hne
      exact hcloses ((closesFirst_iff hheads ho hc').2 hne)
    refine ⟨c', by simp, fun stop rest => ?_⟩
    have htokens : head ++ ([] ++ [c']) ++ q₂ ++ e :: rest = head ++ c' :: (q₂ ++ e :: rest) := by
      simp
    rw [h.reader hs hc, htokens]
    exact bind_failed ((hheads.optionsFrom _ _).trans (optionsFrom_broken (Or.inl hc')))

theorem Dangling.bracket (h : Dangling f s) : "[" ∈ s.map (·.text) := by
  obtain ⟨head, o, body, rfl, -, ho, -⟩ := h
  simp [ho]

theorem Label.Spelled.not_keyword {label : Label} {inOneof : Bool} {ws : List String}
    (h : label.Spelled inOneof ws) : ∀ w ∈ ws, w ∉ Member.keywords := by
  cases h with
  | implicit | member => simp
  | required | requiredMember | optional | repeated => decide

theorem Dangling.statement {t : Token} (h : Dangling f (t :: s)) (hs : Inline (t :: s))
    (nested : Reader (Noted Message)) (stop : Position) (rest : List Token) :
    Member.statement nested stop (t :: s ++ rest) =
      (Field.reader false >>= fun f => pure ⟨some (.field f), []⟩ : Reader _) stop
        (t :: s ++ rest) := by
  refine Member.statement_field nested ?_ hs.cons.1.1 stop _
  obtain ⟨head, o, body, heq, hheads, -, -⟩ := h
  obtain @⟨ls, u, n, e, i, hl, hfirst⟩ := hheads
  cases ls with
  | nil =>
    obtain rfl : t = u := (List.cons.inj heq).1
    exact fun hmem => hfirst rfl (List.mem_append_left _ hmem)
  | cons l ls =>
    obtain rfl : t = l := (List.cons.inj heq).1
    exact hl.not_keyword t.text (by simp)

end Dangling

/-- The same fields in the same order, wherever they stand in a text. -/
def SameFields (fs gs : List Field) : Prop :=
  fs.map (Field.move .forget) = gs.map (Field.move .forget)

theorem SameFields.refl (fs : List Field) : SameFields fs fs := rfl

theorem SameFields.append {fs gs fs' gs' : List Field} (h : SameFields fs gs)
    (h' : SameFields fs' gs') : SameFields (fs ++ fs') (gs ++ gs') := by
  simp only [SameFields, List.map_append] at *
  rw [h, h']

section Statements

variable (nested : Reader (Noted Message)) {t c : Token} {s : List Token}

theorem Field.Spelled.statements_append {f : Field} {ts : List Token}
    (h : f.Spelled false (ts.map (·.text))) :
    ∃ g, SameFields [g] [f] ∧ ∀ stop rest,
      statements true (Member.statement nested) stop (ts ++ rest) =
        (statements true (Member.statement nested) stop rest).prepend [.field g] [] := by
  obtain ⟨w, vs, hw, hkeyword, hsemi, hclose⟩ := h.exists_cons
  obtain ⟨t, ht, htakes⟩ := h.takes
  obtain ⟨u, us, rfl, rfl, -⟩ := List.map_eq_cons_iff.1 hw
  have hmember : (Member.statement nested).Takes
      ⟨some (.field { f with position := t.position }), []⟩ (u :: us) [] := fun stop rest =>
    (Member.statement_field nested hkeyword hsemi stop _).trans (bind_ok (htakes stop rest))
  exact ⟨{ f with position := t.position }, rfl, statements_cons (Or.inr hclose) hmember⟩

theorem Listed.statements_append {fs : List Field} {ts : List Token}
    (h : Listed (Field.Spelled false) fs (ts.map (·.text))) :
    ∃ gs, SameFields gs fs ∧ ∀ stop rest,
      statements true (Member.statement nested) stop (ts ++ rest) =
        (statements true (Member.statement nested) stop rest).prepend (gs.map .field) [] := by
  generalize hw : ts.map (·.text) = ws at h
  induction h generalizing ts with
  | nil =>
    obtain rfl := List.map_eq_nil_iff.1 hw
    exact ⟨[], rfl, fun stop rest => (Outcome.prepend_nil _).symm⟩
  | cons hf _ ih =>
    obtain ⟨us, vs, rfl, rfl, hvs⟩ := List.map_eq_append_iff.1 hw
    obtain ⟨g, hg, hstep⟩ := hf.statements_append nested
    obtain ⟨gs, hgs, hrun⟩ := ih hvs
    refine ⟨g :: gs, hg.append hgs, fun stop rest => ?_⟩
    rw [List.append_assoc, hstep, hrun, Outcome.prepend_prepend]
    rfl

theorem Listed.statements_concat {fs : List Field} {ts : List Token}
    (h : Listed (Field.Spelled false) fs (ts.map (·.text))) (hc : c.text = "\x7d")
    (stop : Position) :
    ∃ gs, SameFields gs fs ∧
      statements true (Member.statement nested) stop (ts ++ [c]) = .ok ⟨gs.map .field, []⟩ [] := by
  obtain ⟨gs, hgs, hrun⟩ := h.statements_append nested
  refine ⟨gs, hgs, ?_⟩
  rw [hrun, statements_close hc]
  simp [Outcome.prepend]

theorem statements_recover {ι : Type} {statement : Reader (Noted (Option ι))} {why : Diagnostic}
    {stop : Position} {rest : List Token} (hs : Inline (t :: s)) (hc : c.text = ";")
    (h : statement stop (t :: s ++ c :: rest) = .failed why false) :
    statements true statement stop (t :: s ++ c :: rest) =
      (statements true statement stop rest).prepend [] [why] := by
  have hskip := takes_skipStatement hs hc stop rest
  rw [List.append_assoc, List.cons_append] at hskip
  rw [List.cons_append] at h
  have hafter : afterFirst (s ++ c :: rest) rest = rest :=
    if_pos (by simp only [List.length_append, List.length_cons]; omega)
  rw [List.cons_append, statements_skip (Or.inr hs.cons.1.2.2) h hskip, List.nil_append, hafter]

theorem Dangling.statements_takes {f : Field} {q : List Token} {e : Token} {Q : List Field}
    (h : Dangling f (t :: s)) (hs : Inline (t :: s)) (hc : c.text = ";")
    (hq : Listed (Field.Spelled false) Q (q.map (·.text))) (he : e.text = "\x7d")
    (hcloses : ClosesFirst q) (stop : Position) :
    ∃ d gs, SameFields gs Q.tail ∧
      statements true (Member.statement nested) stop (t :: s ++ c :: (q ++ [e])) =
        .ok ⟨.field { f with deprecated := d } :: gs.map .field, []⟩ [] := by
  obtain ⟨d, q₁, q₂, rfl, hrest, htakes⟩ := h.takes hs hc hq hcloses
  obtain ⟨gs, hgs, hrun⟩ := hrest.statements_concat nested he stop
  have hmember : (Member.statement nested).Takes ⟨some (.field { f with deprecated := d }), []⟩
      (t :: (s ++ c :: q₁)) [] := fun stop rest => by
    have hread := htakes stop rest
    rw [List.append_assoc] at hread
    rw [← List.cons_append, List.append_assoc]
    exact (h.statement hs nested stop _).trans (bind_ok hread)
  have htokens : t :: s ++ c :: (q₁ ++ q₂ ++ [e]) = t :: (s ++ c :: q₁) ++ (q₂ ++ [e]) := by simp
  refine ⟨d, gs, hgs, ?_⟩
  rw [htokens, statements_cons (Or.inr hs.cons.1.2.2) hmember, hrun]
  rfl

theorem Dangling.statements_fails {f : Field} {q : List Token} {e : Token} {Q : List Field}
    (h : Dangling f (t :: s)) (hs : Inline (t :: s)) (hc : c.text = ";")
    (hq : Listed (Field.Spelled false) Q (q.map (·.text))) (he : e.text = "\x7d")
    (hcloses : ¬ ClosesFirst q) (stop : Position) :
    ∃ u ∈ q ++ [e], ∃ gs, SameFields gs Q ∧
      statements true (Member.statement nested) stop (t :: s ++ c :: (q ++ [e])) =
        .ok ⟨gs.map .field, [⟨.expected (.word "]") u.text, u.position⟩]⟩ [] := by
  obtain ⟨u, hu, hfails⟩ := h.fails hs hc hq he hcloses
  obtain ⟨gs, hgs, hrun⟩ := hq.statements_concat nested he stop
  refine ⟨u, hu, gs, hgs, ?_⟩
  rw [statements_recover hs hc
    ((h.statement hs nested stop _).trans (bind_failed (hfails stop []))), hrun]
  rfl

theorem statements_contained (depth : Nat) {q : List Token} {e : Token} {Q : List Field}
    (hs : Inline (t :: s)) (hc : c.text = ";") (h : ∀ f, ¬ Dangling f (t :: s))
    (hq : Listed (Field.Spelled false) Q (q.map (·.text))) (he : e.text = "\x7d")
    (stop : Position) :
    ∃ (found : Option Field) (gs : List Field) (notes : List Diagnostic),
      (∀ f ∈ found, f.From (t :: s)) ∧ SameFields gs Q ∧
      (notes = [] ∨ ∃ complaint, ∃ u ∈ t :: s ++ [c], notes = [⟨complaint, u.position⟩]) ∧
      statements true (Member.statement (Message.readerWithin depth)) stop
          (t :: s ++ c :: (q ++ [e])) = .ok ⟨(found.toList ++ gs).map .field, notes⟩ [] := by
  obtain ⟨gs, hgs, hrun⟩ := hq.statements_concat (Message.readerWithin depth) he stop
  rcases Member.statement_cases hs hc depth with ⟨f, hf⟩ | ⟨found, hfound, htakes⟩ | hfails
  · exact absurd hf (h f)
  · refine ⟨found, gs, [], hfound, hgs, Or.inl rfl, ?_⟩
    rw [List.cons_append] at htakes
    rw [List.append_cons, List.cons_append, statements_cons (Or.inr hs.cons.1.2.2) htakes, hrun]
    cases found <;> rfl
  · obtain ⟨complaint, u, hu, hfails⟩ := hfails
    refine ⟨none, gs, _, by simp, hgs, Or.inr ⟨complaint, u, hu, rfl⟩, ?_⟩
    have hread := hfails stop (q ++ [e])
    rw [← List.append_cons] at hread
    rw [statements_recover hs hc hread, hrun]
    rfl

end Statements

/-- The tokens `message name { earlier broken ; later }` of a file, where `broken` is any tokens
without braces and semicolons. -/
structure Interrupted where
  keyword : Token
  name : Token
  opening : Token
  before : List Token
  broken : List Token
  semicolon : Token
  after : List Token
  closing : Token
  final : Token
  earlier : List Field
  later : List Field
  keyword_text : keyword.text = "message"
  name_text : isIdentifier name.text = true
  opening_text : opening.text = "\x7b"
  earlier_spelled : Listed (Field.Spelled false) earlier (before.map (·.text))
  broken_ne_nil : broken ≠ []
  broken_inline : Inline broken
  semicolon_text : semicolon.text = ";"
  later_spelled : Listed (Field.Spelled false) later (after.map (·.text))
  closing_text : closing.text = "\x7d"
  final_text : final.text = ""

namespace Interrupted

variable (m : Interrupted)

/-- What stands between the braces, with the closing one. -/
def body : List Token :=
  m.before ++ (m.broken ++ m.semicolon :: (m.after ++ [m.closing]))

def tokens : List Token := m.keyword :: m.name :: m.opening :: m.body ++ [m.final]

/-- The fields before and after the malformed statement are all there, and between them at most one
from the statement itself. There is at most one diagnostic, and it is in the statement. -/
def Contained (fields : List Field) (notes : List Diagnostic) : Prop :=
  (∃ found : Option Field, (∀ f ∈ found, f.From m.broken) ∧
    SameFields fields (m.earlier ++ (found.toList ++ m.later))) ∧
  (notes = [] ∨ ∃ complaint, ∃ t ∈ m.broken ++ [m.semicolon], notes = [⟨complaint, t.position⟩])

/-- The fields before and after the malformed statement are all there, but the diagnostic is at a
token that follows the statement. -/
def Misplaced (fields : List Field) (notes : List Diagnostic) : Prop :=
  SameFields fields (m.earlier ++ m.later) ∧
    ∃ t ∈ m.after ++ [m.closing], notes = [⟨.expected (.word "]") t.text, t.position⟩]

/-- The field of the malformed statement stands in the place of the next one, unreported. -/
def Displaced (f : Field) (fields : List Field) (notes : List Diagnostic) : Prop :=
  (∃ d, SameFields fields (m.earlier ++ { f with deprecated := d } :: m.later.tail)) ∧ notes = []

/-- What comes of the message, by the tokens of the malformed statement and those behind it. -/
inductive Recovers (fields : List Field) (notes : List Diagnostic) : Prop
  | contained (h : ∀ f, ¬ Dangling f m.broken) (hc : m.Contained fields notes)
  | misplaced {f : Field} (h : Dangling f m.broken) (hn : ¬ ClosesFirst m.after)
      (hm : m.Misplaced fields notes)
  | displaced {f : Field} (h : Dangling f m.broken) (hy : ClosesFirst m.after)
      (hd : m.Displaced f fields notes)

theorem statements_body (depth : Nat) (stop : Position) :
    ∃ fields notes, statements true (Member.statement (Message.readerWithin depth)) stop m.body =
        .ok ⟨fields.map .field, notes⟩ [] ∧ m.Recovers fields notes := by
  obtain ⟨t, s, hts⟩ := List.exists_cons_of_ne_nil m.broken_ne_nil
  have hs : Inline (t :: s) := hts ▸ m.broken_inline
  obtain ⟨fs, hfs, hearlier⟩ := m.earlier_spelled.statements_append (Message.readerWithin depth)
  by_cases hdangling : ∃ f, Dangling f m.broken
  · obtain ⟨f, hf⟩ := hdangling
    rw [hts] at hf
    by_cases hcloses : ClosesFirst m.after
    · obtain ⟨d, gs, hgs, hrun⟩ := hf.statements_takes (Message.readerWithin depth) hs
        m.semicolon_text m.later_spelled m.closing_text hcloses stop
      refine ⟨fs ++ { f with deprecated := d } :: gs, [], ?_, .displaced (hts ▸ hf) hcloses
        ⟨⟨d, hfs.append ((SameFields.refl [_]).append hgs)⟩, rfl⟩⟩
      rw [body, hearlier, hts, hrun]
      simp [Outcome.prepend]
    · obtain ⟨u, hu, gs, hgs, hrun⟩ := hf.statements_fails (Message.readerWithin depth) hs
        m.semicolon_text m.later_spelled m.closing_text hcloses stop
      refine ⟨fs ++ gs, _, ?_, .misplaced (hts ▸ hf) hcloses ⟨hfs.append hgs, u, hu, rfl⟩⟩
      rw [body, hearlier, hts, hrun]
      simp [Outcome.prepend]
  · have hnone : ∀ f, ¬ Dangling f m.broken := fun f hf => hdangling ⟨f, hf⟩
    obtain ⟨found, gs, notes, hfound, hgs, hnotes, hrun⟩ := statements_contained depth hs
      m.semicolon_text (hts ▸ hnone) m.later_spelled m.closing_text stop
    refine ⟨fs ++ (found.toList ++ gs), notes, ?_, .contained hnone ⟨⟨found, hts ▸ hfound,
      hfs.append ((SameFields.refl _).append hgs)⟩, hts ▸ hnotes⟩⟩
    rw [body, hearlier, hts, hrun]
    simp [Outcome.prepend]

/-- The message with the given fields, as it is named here. -/
def message (fields : List Field) : Message where
  name := m.name.text
  position := m.name.position
  fields
  oneofs := []
  messages := []
  enums := []

theorem ofMembers_fields (fields : List Field) :
    Message.ofMembers m.name (fields.map .field) = m.message fields := by
  simp [Message.ofMembers, message, List.filterMap_map, Function.comp_def, Member.field?,
    Member.oneof?, Member.message?, Member.enum?]

theorem statement_message (stop : Position) :
    ∃ fields notes, m.Recovers fields notes ∧
      Declaration.statement stop (m.keyword :: m.name :: m.opening :: m.body) =
        .ok ⟨some (.message (m.message fields)), notes⟩ [] := by
  obtain ⟨fields, notes, hrun, hrecovers⟩ := m.statements_body (m.body.length + 2) stop
  refine ⟨fields, notes, hrecovers, ?_⟩
  have hblock : block "message" "message name"
      (Member.statement (Message.readerWithin (m.body.length + 2))) stop
      (m.keyword :: m.name :: m.opening :: m.body) =
        .ok (m.name, ⟨fields.map .field, notes⟩) [] :=
    (bind_ok (word_cons m.keyword_text)).trans <| (bind_ok (token_cons _ m.name_text)).trans <|
      (bind_ok (word_cons m.opening_text)).trans (bind_ok hrun)
  have hreader : Message.reader stop (m.keyword :: m.name :: m.opening :: m.body) =
      .ok ⟨m.message fields, notes⟩ [] := by
    refine (bind_ok hblock).trans ?_
    rw [← m.ofMembers_fields]
    rfl
  have hstatement : Declaration.statement stop (m.keyword :: m.name :: m.opening :: m.body) =
      Declaration.noted .message Message.reader stop
        (m.keyword :: m.name :: m.opening :: m.body) := by
    simp [Declaration.statement, byWord, m.keyword_text]
  rw [hstatement]
  exact bind_ok hreader

theorem text_ne_empty : ∀ t ∈ m.keyword :: m.name :: m.opening :: m.body, t.text ≠ "" := by
  have hspelled {fs : List Field} {ts : List Token}
      (h : Listed (Field.Spelled false) fs (ts.map (·.text))) : ∀ t ∈ ts, t.text ≠ "" := fun t ht =>
    (Lexemes.listed h fun _ _ => Field.Spelled.lexemes).ne_empty _ (List.mem_map_of_mem ht)
  have hbroken : ∀ t ∈ m.broken, t.text ≠ "" := fun t ht heq =>
    m.broken_inline t ht (by simp [heq])
  simp only [body, List.forall_mem_cons, List.forall_mem_append, m.keyword_text, m.opening_text,
    m.semicolon_text, m.closing_text]
  exact ⟨by decide, ne_of_test m.name_text (by decide), by decide, hspelled m.earlier_spelled,
    hbroken, by decide, hspelled m.later_spelled, by decide, by simp⟩

/-- Every such file is read as one message. A malformed statement leaves the fields around it alone,
if its tokens do not break off where the value of `deprecated` is due. -/
theorem ofTokens_recovers :
    ∃ fields notes, m.Recovers fields notes ∧
      Schema.ofTokens m.tokens =
        .ok { messages := [m.message fields], diagnostics := notes } := by
  obtain ⟨fields, notes, hrecovers, hstatement⟩ := m.statement_message m.final.position
  refine ⟨fields, notes, hrecovers, ?_⟩
  have hrun : statements false Declaration.statement m.final.position
      (m.keyword :: m.name :: m.opening :: m.body) =
        .ok ⟨[.message (m.message fields)], notes⟩ [] := by
    rw [statements_ok (Or.inl rfl) hstatement]
    simp [afterFirst, statements_nil_file, Outcome.prepend]
  exact Schema.ofTokens_concat m.text_ne_empty m.final_text hrun

/-- `message M { int32 a = 1 [deprecated = ; int32 b = 2 [deprecated = true]; }` -/
def unfinished : Interrupted where
  keyword := ⟨"message", ⟨1, 1⟩⟩
  name := ⟨"M", ⟨1, 9⟩⟩
  opening := ⟨"\x7b", ⟨1, 11⟩⟩
  before := []
  broken := [⟨"int32", ⟨1, 13⟩⟩, ⟨"a", ⟨1, 19⟩⟩, ⟨"=", ⟨1, 21⟩⟩, ⟨"1", ⟨1, 23⟩⟩, ⟨"[", ⟨1, 25⟩⟩,
    ⟨"deprecated", ⟨1, 26⟩⟩, ⟨"=", ⟨1, 37⟩⟩]
  semicolon := ⟨";", ⟨1, 39⟩⟩
  after := [⟨"int32", ⟨1, 41⟩⟩, ⟨"b", ⟨1, 47⟩⟩, ⟨"=", ⟨1, 49⟩⟩, ⟨"2", ⟨1, 51⟩⟩, ⟨"[", ⟨1, 53⟩⟩,
    ⟨"deprecated", ⟨1, 54⟩⟩, ⟨"=", ⟨1, 65⟩⟩, ⟨"true", ⟨1, 67⟩⟩, ⟨"]", ⟨1, 71⟩⟩, ⟨";", ⟨1, 72⟩⟩]
  closing := ⟨"\x7d", ⟨1, 74⟩⟩
  final := ⟨"", ⟨1, 75⟩⟩
  earlier := []
  later := [⟨"b", ⟨1, 47⟩, "int32", 2, .implicit, true⟩]
  keyword_text := rfl
  name_text := by decide
  opening_text := rfl
  earlier_spelled := .nil
  broken_ne_nil := by simp
  broken_inline := by
    unfold Inline
    decide
  semicolon_text := rfl
  later_spelled := by
    have hf : Field.Allowed ⟨"b", ⟨1, 47⟩, "int32", 2, .implicit, true⟩ :=
      ⟨isIdentifier_iff.1 (by decide), .inl (.name (isIdentifier_iff.1 (by decide))), by decide,
        by decide⟩
    have hn : Piece.Numeral 2 "2".toList := .plain (.decimal (n := 2) 0)
    have hb : Field.Spelled false ⟨"b", ⟨1, 47⟩, "int32", 2, .implicit, true⟩ _ :=
      .mk hf .implicit hn (.said (.last .yes))
    exact .cons hb .nil
  closing_text := rfl
  final_text := rfl

/-- `message M { int32 a 1; int32 b = 2 [deprecated = true]; }` -/
def withoutEquals : Interrupted :=
  { unfinished with
    broken := [⟨"int32", ⟨1, 13⟩⟩, ⟨"a", ⟨1, 19⟩⟩, ⟨"1", ⟨1, 23⟩⟩]
    broken_ne_nil := by simp
    broken_inline := by
      unfold Inline
      decide }

theorem ofTokens_recovers_withoutEquals :
    ∃ fields notes, withoutEquals.Contained fields notes ∧
      Schema.ofTokens withoutEquals.tokens =
        .ok { messages := [withoutEquals.message fields], diagnostics := notes } := by
  obtain ⟨fields, notes, hrecovers, hread⟩ := withoutEquals.ofTokens_recovers
  have hnone (f : Field) : ¬ Dangling f withoutEquals.broken := fun h =>
    absurd h.bracket (by decide)
  refine ⟨fields, notes, ?_, hread⟩
  cases hrecovers with
  | contained _ hc => exact hc
  | misplaced h => exact absurd h (hnone _)
  | displaced h => exact absurd h (hnone _)

/-- The field `a` takes the options of `b`, and `b` is lost without a diagnostic. -/
theorem unfinished_not_contained :
    Token.scan
        "message M \x7b int32 a = 1 [deprecated = ; int32 b = 2 [deprecated = true]; \x7d" =
      .ok unfinished.tokens ∧
    Schema.ofTokens unfinished.tokens =
      .ok { messages := [unfinished.message [⟨"a", ⟨1, 19⟩, "int32", 1, .implicit, true⟩]] } ∧
    ¬ unfinished.Contained [⟨"a", ⟨1, 19⟩, "int32", 1, .implicit, true⟩] [] := by
  refine ⟨by decide +kernel, by decide +kernel, ?_⟩
  rintro ⟨⟨found, -, hfields⟩, -⟩
  have hnames := congrArg (List.map Field.name) hfields
  cases found <;> simp [unfinished, Field.move] at hnames

end Interrupted

end ProtoSchema
