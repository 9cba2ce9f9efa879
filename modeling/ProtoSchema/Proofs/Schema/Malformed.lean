import ProtoSchema.Proofs.Schema.Acceptance

/-! # Malformed statements

What the readers do with any tokens up to a semicolon, as long as no brace is among them. They fail
at one of these tokens or stop at the semicolon. The one exception is an option list that breaks off
where the value of `deprecated` is due: there the semicolon is taken for the value.
-/

namespace ProtoSchema

open Reader Word

def Inline (s : List Token) : Prop := ∀ t ∈ s, t.text ∉ ["", ";", "\x7b", "\x7d"]

theorem Inline.cons {t : Token} {s : List Token} (h : Inline (t :: s)) :
    (t.text ≠ ";" ∧ t.text ≠ "\x7b" ∧ t.text ≠ "\x7d") ∧ Inline s := by
  obtain ⟨ht, hs⟩ := List.forall_mem_cons.1 h
  simp only [List.mem_cons, List.not_mem_nil, or_false, not_or] at ht
  exact ⟨ht.2, hs⟩

theorem Inline.other {t : Token} {s : List Token} (hs : Inline (t :: s))
    (ht : t.text ∉ ["]", "deprecated"]) : t.text ∉ ["]", "deprecated", "\x7b", ";", "\x7d"] := by
  obtain ⟨⟨hsemi, hopen, hclose⟩, -⟩ := hs.cons
  simp only [List.mem_cons, List.not_mem_nil, or_false, not_or] at ht ⊢
  exact ⟨ht.1, ht.2, hopen, hsemi, hclose⟩

namespace Reader

variable {α β : Type} {r : Reader α} {f : α → Reader β} {a : α} {t c : Token}
  {s ts us : List Token}

/-- The reader fails at one of the tokens, whatever follows them. -/
def FailsIn (r : Reader α) (ts : List Token) : Prop :=
  ∃ complaint, ∃ t ∈ ts, ∀ stop rest, r stop (ts ++ rest) = .failed ⟨complaint, t.position⟩ false

theorem FailsIn.imp {r' : Reader β} (h : r.FailsIn us) (hsub : us ⊆ ts)
    (hr : ∀ stop rest why, r stop (us ++ rest) = .failed why false →
      r' stop (ts ++ rest) = .failed why false) : r'.FailsIn ts := by
  obtain ⟨complaint, t, ht, h⟩ := h
  exact ⟨complaint, t, hsub ht, fun stop rest => hr stop rest _ (h stop rest)⟩

theorem FailsIn.bind (h : r.FailsIn ts) : (r >>= f).FailsIn ts :=
  h.imp (List.Subset.refl ts) fun _ _ _ => bind_failed

theorem Takes.bind_failsIn (hr : r.Takes a ts us) (hsub : us ⊆ ts) (hf : (f a).FailsIn us) :
    (r >>= f).FailsIn ts :=
  hf.imp hsub fun stop rest _ h => (bind_ok (hr stop rest)).trans h

theorem failsIn_fail (complaint : Complaint) : (fail complaint : Reader α).FailsIn (t :: ts) :=
  ⟨complaint, t, List.mem_cons_self, fun _ _ => rfl⟩

theorem failsIn_want (w : Wanted) : (want w : Reader α).FailsIn (t :: ts) :=
  ⟨.expected w t.text, t, List.mem_cons_self, fun _ _ => rfl⟩

theorem failsIn_token {test : String → Bool} (w : Wanted) (h : test t.text = false) :
    (token test w).FailsIn (t :: ts) :=
  ⟨.expected w t.text, t, List.mem_cons_self, fun _ _ => by simp [token, h, want]⟩

theorem failsIn_byWord {choose : String → Reader α} (h : (choose t.text).FailsIn (t :: ts)) :
    (byWord choose).FailsIn (t :: ts) :=
  h

/-- A token that the semicolon cannot be is one of those in front of it, or the reader fails. -/
theorem token_cases (test : String → Bool) (w : Wanted) (hc : test c.text = false)
    (s : List Token) :
    (∃ t s', s = t :: s' ∧ test t.text = true ∧ (token test w).Takes t (s ++ [c]) (s' ++ [c])) ∨
      (token test w).FailsIn (s ++ [c]) := by
  cases s with
  | nil => exact Or.inr (failsIn_token w hc)
  | cons t s =>
    cases ht : test t.text with
    | true => exact Or.inl ⟨t, s, rfl, ht, takes_token w ht⟩
    | false => exact Or.inr (failsIn_token w ht)

theorem failsIn_brace (hs : Inline s) (hc : c.text = ";") : (word "\x7b").FailsIn (s ++ [c]) := by
  have hne : (c.text == "\x7b") = false := by simp [hc]
  rcases token_cases (· == "\x7b") (.word "\x7b") hne s with ⟨t, s', rfl, ht, -⟩ | h
  · exact absurd (eq_of_beq ht) hs.cons.1.2.1
  · exact h

theorem takes_skipStatement (hs : Inline s) (hc : c.text = ";") :
    skipStatement.Takes () (s ++ [c]) [] := by
  intro stop rest
  induction s with
  | nil => simp [skipStatement, hc]
  | cons t s ih =>
    obtain ⟨⟨hsemi, hopen, hclose⟩, hs⟩ := hs.cons
    rw [List.cons_append, List.cons_append, skipStatement]
    simp only [beq_iff_eq, hsemi, hopen, hclose, if_false]
    exact ih hs

theorem failsIn_block {ι : Type} {statement : Reader (Noted (Option ι))}
    {keyword description : String} (hs : Inline (t :: s)) (ht : t.text = keyword)
    (hc : c.text = ";") :
    (block keyword description statement).FailsIn (t :: s ++ [c]) := by
  refine (takes_word ht).bind_failsIn (List.subset_cons_self _ _) ?_
  have hne : isIdentifier c.text = false := by
    rw [hc]
    decide
  rcases token_cases isIdentifier (.kind description) hne s with ⟨n, s', rfl, -, hn⟩ | h
  · exact hn.bind_failsIn (List.subset_cons_self _ _) (failsIn_brace hs.cons.2.cons.2 hc).bind
  · exact h.bind

/-- The words of an option list that breaks off where the value of `deprecated` is due. -/
inductive AwaitsValue : List String → Prop
  | here : AwaitsValue ["deprecated", "="]
  | value {v : String} {ws : List String} (h : AwaitsValue ws) :
      AwaitsValue ("deprecated" :: "=" :: v :: ws)
  | flag {w : String} {ws : List String} (hw : w ≠ "=") (h : AwaitsValue (w :: ws)) :
      AwaitsValue ("deprecated" :: w :: ws)
  | other {w : String} {ws : List String} (hw : w ∉ ["]", "deprecated"]) (h : AwaitsValue ws) :
      AwaitsValue (w :: ws)

theorem AwaitsValue.optionsFrom {ws : List String} (h : AwaitsValue ws) (hs : Inline s)
    (hw : s.map (·.text) = ws) (b : Bool) (v : Token) (stop : Position) (rest : List Token) :
    Reader.optionsFrom b 0 stop (s ++ v :: rest) =
      Reader.optionsFrom (v.text != "false") 0 stop rest := by
  induction h generalizing s b with
  | here =>
    simp only [List.map_eq_cons_iff, List.map_eq_nil_iff] at hw
    obtain ⟨d, _, rfl, hd, e, _, rfl, he, rfl⟩ := hw
    exact optionsFrom_value hd he
  | value _ ih =>
    simp only [List.map_eq_cons_iff] at hw
    obtain ⟨d, _, rfl, hd, e, _, rfl, he, u, s, rfl, -, hws⟩ := hw
    exact (optionsFrom_value hd he).trans (ih hs.cons.2.cons.2.cons.2 hws _)
  | flag hne _ ih =>
    obtain ⟨d, s, rfl, hd, hws⟩ := List.map_eq_cons_iff.1 hw
    obtain ⟨e, s, rfl, he, -⟩ := List.map_eq_cons_iff.1 hws
    exact (optionsFrom_noValue hd (he ▸ hne)).trans (ih hs.cons.2 hws _)
  | other hne _ ih =>
    obtain ⟨t, s, rfl, ht, hws⟩ := List.map_eq_cons_iff.1 hw
    exact (optionsFrom_other (hs.other (ht ▸ hne))).trans (ih hs.cons.2 hws _)

/-- What can come of an option list: it awaits a value, the reader fails, or the list ends. -/
def OptionsCases (b : Bool) (s : List Token) (c : Token) : Prop :=
  AwaitsValue (s.map (·.text)) ∨ (Reader.optionsFrom b 0).FailsIn (s ++ [c]) ∨
    ∃ d s', s' <:+ s ∧ (Reader.optionsFrom b 0).Takes d (s ++ [c]) (s' ++ [c])

theorem OptionsCases.append {b b' : Bool} (h : OptionsCases b' s c) (pre : List Token)
    (heq : ∀ stop rest, Reader.optionsFrom b 0 stop (pre ++ (s ++ [c]) ++ rest) =
      Reader.optionsFrom b' 0 stop (s ++ [c] ++ rest))
    (hawaits : AwaitsValue (s.map (·.text)) → AwaitsValue ((pre ++ s).map (·.text))) :
    OptionsCases b (pre ++ s) c := by
  rcases h with h | h | ⟨d, s', hs', h⟩
  · exact Or.inl (hawaits h)
  · refine Or.inr (Or.inl ?_)
    rw [List.append_assoc]
    exact h.imp (List.subset_append_right _ _) fun stop rest _ h => (heq stop rest).trans h
  · refine Or.inr (Or.inr ⟨d, s', hs'.trans (List.suffix_append _ _), fun stop rest => ?_⟩)
    rw [List.append_assoc pre, heq, h]

theorem optionsCases (hs : Inline s) (hc : c.text = ";") (b : Bool) : OptionsCases b s c := by
  have hbroken (b : Bool) : OptionsCases b [] c :=
    Or.inr (Or.inl ⟨.expected (.word "]") c.text, c, List.mem_singleton_self c,
      fun _ _ => optionsFrom_broken (Or.inl hc)⟩)
  -- A value takes three tokens at once, so the induction is on the length.
  induction hn : s.length using Nat.strongRecOn generalizing s b with
  | ind n ih =>
    subst hn
    cases s with
    | nil => exact hbroken b
    | cons t s =>
      by_cases hclose : t.text = "]"
      · exact Or.inr (Or.inr ⟨b, s, List.suffix_cons _ _, fun _ _ => optionsFrom_end hclose⟩)
      by_cases hd : t.text = "deprecated"
      · cases s with
        | nil =>
          refine (hbroken true).append [t] (fun stop rest => ?_) (fun h => nomatch h)
          exact optionsFrom_noValue hd (by simp [hc])
        | cons e s =>
          by_cases he : e.text = "="
          · cases s with
            | nil => exact Or.inl (by simpa [hd, he] using AwaitsValue.here)
            | cons v s =>
              refine (ih s.length (by simp; omega) hs.cons.2.cons.2.cons.2 (v.text != "false")
                rfl).append [t, e, v] (fun stop rest => optionsFrom_value hd he) fun h => ?_
              simpa [hd, he] using h.value
          · refine (ih (e :: s).length (by simp) hs.cons.2 true rfl).append [t]
              (fun stop rest => optionsFrom_noValue hd he) fun h => ?_
            simpa [hd] using h.flag he
      · have hother : t.text ∉ ["]", "deprecated"] := by simp [hclose, hd]
        exact (ih s.length (by simp) hs.cons.2 b rfl).append [t]
          (fun stop rest => optionsFrom_other (hs.other hother)) fun h => h.other hother

end Reader

section Fields

variable {c : Token} {s : List Token}

theorem Label.exists_spelled (hc : c.text = ";") (s : List Token) :
    ∃ label : Label, ∃ ls s', s = ls ++ s' ∧ label.Spelled false (ls.map (·.text)) ∧
      (ls = [] → ∀ t ∈ s'.head?, t.text ∉ ["repeated", "optional", "required"]) ∧
      (Label.reader false).Takes label (s ++ [c]) (s' ++ [c]) := by
  have hnone : Label.implicit.Spelled false (([] : List Token).map (·.text)) := .implicit
  cases s with
  | nil => exact ⟨.implicit, [], [], rfl, hnone, by simp, hnone.takes (by simp [hc])⟩
  | cons t s =>
    by_cases ht : t.text ∈ ["repeated", "optional", "required"]
    · obtain ⟨label, hl⟩ : ∃ label : Label, label.Spelled false ([t].map (·.text)) := by
        simp only [List.mem_cons, List.not_mem_nil, or_false] at ht
        rw [List.map_singleton]
        rcases ht with ht | ht | ht <;> rw [ht]
        · exact ⟨_, .repeated⟩
        · exact ⟨_, .optional false⟩
        · exact ⟨_, .required⟩
      refine ⟨label, [t], s, rfl, hl, by simp, ?_⟩
      cases s <;> exact hl.takes (by simp)
    · exact ⟨.implicit, [], t :: s, rfl, hnone, by simpa using ht, hnone.takes fun _ => ht⟩

theorem Field.unsupported?_append (hc : c.text = ";") (s rest : List Token) :
    Field.unsupported? (s ++ [c] ++ rest) = Field.unsupported? (s ++ [c]) := by
  match s with
  | [] => simp [Field.unsupported?, hc]
  | [t] => simp [Field.unsupported?, hc]
  | t :: u :: s => simp [Field.unsupported?]

theorem integer_cases (description : String) (hc : c.text = ";") (s : List Token) :
    (∃ t s' n, s = t :: s' ∧ isInteger t.text = true ∧ integerValue? t.text = some n ∧
      (integer description).Takes n (s ++ [c]) (s' ++ [c])) ∨
      (integer description).FailsIn (s ++ [c]) := by
  have hne : isInteger c.text = false := by
    rw [hc]
    decide
  rcases token_cases isInteger (.kind description) hne s with ⟨t, s, rfl, ht, htakes⟩ | hfails
  · cases hvalue : integerValue? t.text with
    | some n =>
      refine Or.inl ⟨t, s, n, rfl, ht, hvalue, htakes.bind ?_⟩
      rw [hvalue]
      exact .pure n _
    | none =>
      refine Or.inr ⟨.outOfRange t.text, t, by simp, fun stop rest => ?_⟩
      refine (bind_ok (htakes stop rest)).trans ?_
      rw [hvalue]
      simp [failAt]
  · exact Or.inr hfails.bind

theorem Field.reader_cases (hc : c.text = ";") (s : List Token)
    (hs : ∀ t ∈ s.head?, t.text ∉ Member.keywords) :
    (∃ f head s', s = head ++ s' ∧ Field.Heads false f head) ∨
      (Field.reader false).FailsIn (s ++ [c]) := by
  have htest {test : String → Bool} (h : test ";" = false) : test c.text = false := by rwa [hc]
  obtain ⟨label, ls, s, rfl, hl, hfirst, hlabel⟩ := Label.exists_spelled hc s
  refine Or.imp_right (hlabel.bind_failsIn (by simp)) ?_
  refine Or.imp_right ((takes_look (Field.unsupported?_append hc s)).bind_failsIn (by simp)) ?_
  cases hform : Field.unsupported? (s ++ [c]) with
  | some what => cases s <;> exact Or.inr (failsIn_fail _)
  | none =>
    dsimp only
    rcases token_cases isTypeName (.kind "field type") (htest (by decide)) s with
      ⟨t, s, rfl, ht, htype⟩ | hfails
    swap
    · exact Or.inr hfails.bind
    refine Or.imp_right (htype.bind_failsIn (List.subset_cons_self _ _)) ?_
    rcases token_cases isIdentifier (.kind "field name") (htest (by decide)) s with
      ⟨n, s, rfl, hn, hname⟩ | hfails
    swap
    · exact Or.inr hfails.bind
    refine Or.imp_right (hname.bind_failsIn (List.subset_cons_self _ _)) ?_
    rcases token_cases (c := c) (· == "=") (.word "=") (by simp [hc]) s with
      ⟨e, s, rfl, he, hequals⟩ | hfails
    swap
    · exact Or.inr (FailsIn.bind hfails)
    refine Or.imp_right (Takes.bind_failsIn hequals (List.subset_cons_self _ _)) ?_
    rcases integer_cases "field number" hc s with ⟨i, s, number, rfl, hi, hnumber, -⟩ | hfails
    swap
    · exact Or.inr hfails.bind
    have hgroup : t.text ≠ "group" := by
      rintro heq
      simp [Field.unsupported?, heq] at hform
    refine Or.inl ⟨⟨n.text, n.position, t.text, number, label, false⟩, ls ++ [t, n, e, i], s,
      by simp, .mk hl ?_ hgroup ht rfl hn rfl rfl (eq_of_beq he) hi hnumber⟩
    rintro rfl hmem
    rcases List.mem_append.1 hmem with hmem | hmem
    · exact hs t rfl hmem
    · have hmark := hfirst rfl t rfl
      simp only [List.mem_cons, List.not_mem_nil, or_false] at hmark hmem
      tauto

theorem failsIn_semicolon (hs : Inline s) (hne : s ≠ []) (us : List Token) :
    (word ";").FailsIn (s ++ us) := by
  cases s with
  | nil => exact absurd rfl hne
  | cons t s => exact failsIn_token _ (beq_false_of_ne hs.cons.1.1)

theorem Field.ending_cases (hs : Inline s) (hc : c.text = ";") (f : Field) :
    (∃ o body, s = o :: body ∧ o.text = "[" ∧ AwaitsValue (body.map (·.text))) ∨
      (∃ d, f.ending.Takes { f with deprecated := d } (s ++ [c]) []) ∨
      f.ending.FailsIn (s ++ [c]) := by
  cases s with
  | nil =>
    have hoptions : options.Takes false [c] [c] :=
      (takes_optionalWord_of_ne (by simp [hc])).bind (.pure _ _)
    exact Or.inr (Or.inl ⟨false, hoptions.bind ((takes_word hc).bind (.pure _ _))⟩)
  | cons o body =>
    by_cases ho : o.text = "["
    · rcases optionsCases hs.cons.2 hc false with h | h | ⟨d, s', hsuffix, h⟩
      · exact Or.inl ⟨o, body, rfl, ho, h⟩
      · refine Or.inr (Or.inr (FailsIn.bind ?_))
        exact (takes_optionalWord ho).bind_failsIn (List.subset_cons_self _ _) h
      · have hoptions : options.Takes d (o :: body ++ [c]) (s' ++ [c]) :=
          (takes_optionalWord ho).bind h
        by_cases hs' : s' = []
        · subst hs'
          exact Or.inr (Or.inl ⟨d, hoptions.bind ((takes_word hc).bind (.pure _ _))⟩)
        · have hsub : s' ⊆ o :: body := List.subset_cons_of_subset o hsuffix.subset
          have hfails := failsIn_semicolon (fun t ht => hs t (hsub ht)) hs' [c]
          refine Or.inr (Or.inr (hoptions.bind_failsIn (List.append_subset.2 ⟨?_, ?_⟩) hfails.bind))
          · exact List.subset_append_of_subset_left _ hsub
          · exact List.subset_append_right _ _
    · have hoptions : options.Takes false (o :: body ++ [c]) (o :: body ++ [c]) :=
        (takes_optionalWord_of_ne ho).bind (.pure _ _)
      refine Or.inr (Or.inr (hoptions.bind_failsIn (List.Subset.refl _) ?_))
      exact (failsIn_semicolon hs (List.cons_ne_nil o body) [c]).bind

theorem Field.Heads.deprecated {inOneof : Bool} {f : Field} {head : List Token}
    (h : f.Heads inOneof head) (d : Bool) :
    Field.Heads inOneof { f with deprecated := d } head := by
  obtain ⟨hl, hfirst, hgroup, ht, htype, hn, hname, hplace, he, hi, hnumber⟩ := h
  exact .mk hl hfirst hgroup ht htype hn hname hplace he hi hnumber

/-- The tokens start with those of the field up to its number. -/
def Field.From (f : Field) (s : List Token) : Prop := ∃ head, head <+: s ∧ Field.Heads false f head

/-- The tokens are those of a field whose options await the value of `deprecated`. -/
def Dangling (f : Field) (s : List Token) : Prop :=
  ∃ head o body, s = head ++ o :: body ∧ Field.Heads false f head ∧ o.text = "[" ∧
    AwaitsValue (body.map (·.text))

/-- The reader of fields takes tokens that do not dangle up to the semicolon, or it fails. -/
theorem Field.reader_takes_or_fails (hs : Inline s) (hc : c.text = ";")
    (hfirst : ∀ t ∈ s.head?, t.text ∉ Member.keywords) :
    (∃ f, Dangling f s) ∨
      (∃ f : Field, f.From s ∧ (Field.reader false).Takes f (s ++ [c]) []) ∨
      (Field.reader false).FailsIn (s ++ [c]) := by
  rcases Field.reader_cases hc s hfirst with ⟨f, head, s, rfl, hheads⟩ | hfails
  · have hreader (stop : Position) (rest : List Token) :
        Field.reader false stop (head ++ s ++ [c] ++ rest) = f.ending stop (s ++ [c] ++ rest) := by
      rw [List.append_assoc, List.append_assoc, hheads.reader_append, List.append_assoc]
    have hinline : Inline s := fun t ht => hs t (List.mem_append_right _ ht)
    rcases f.ending_cases hinline hc with ⟨o, body, rfl, ho, hbody⟩ | ⟨d, htakes⟩ | hfails
    · exact Or.inl ⟨f, head, o, body, rfl, hheads, ho, hbody⟩
    · refine Or.inr (Or.inl ⟨{ f with deprecated := d }, ⟨head, List.prefix_append _ _, ?_⟩, ?_⟩)
      · exact hheads.deprecated d
      · exact fun stop rest => (hreader stop rest).trans (htakes stop rest)
    · refine Or.inr (Or.inr (hfails.imp ?_ fun stop rest _ h => (hreader stop rest).trans h))
      rw [List.append_assoc]
      exact List.subset_append_right _ _
  · exact Or.inr (Or.inr hfails)

end Fields

section Members

variable {t c : Token} {s : List Token}

theorem Message.failsIn_readerWithin (hs : Inline (t :: s)) (ht : t.text = "message")
    (hc : c.text = ";") (depth : Nat) : (readerWithin depth).FailsIn (t :: s ++ [c]) := by
  cases depth with
  | zero => exact failsIn_want _
  | succ depth => exact (failsIn_block hs ht hc).bind

theorem Member.statement_cases (hs : Inline (t :: s)) (hc : c.text = ";") (depth : Nat) :
    (∃ f, Dangling f (t :: s)) ∨
      (∃ found : Option Field, (∀ f ∈ found, f.From (t :: s)) ∧
        (Member.statement (Message.readerWithin depth)).Takes ⟨found.map .field, []⟩
          (t :: s ++ [c]) []) ∨
      (Member.statement (Message.readerWithin depth)).FailsIn (t :: s ++ [c]) := by
  by_cases hkeyword : t.text ∈ Member.keywords
  · have hskip : (nothing skipStatement : Reader (Noted (Option Member))).Takes ⟨none, []⟩
        (t :: s ++ [c]) [] :=
      (takes_skipStatement hs hc).bind (.pure _ _)
    simp only [Member.keywords, List.mem_cons, List.not_mem_nil, or_false] at hkeyword
    rcases hkeyword with ht | ht | ht | ht | ht | ht | ht
    · refine Or.inr (Or.inr (failsIn_byWord ?_))
      rw [ht]
      exact (Message.failsIn_readerWithin hs ht hc depth).bind
    · refine Or.inr (Or.inr (failsIn_byWord ?_))
      rw [ht]
      exact (failsIn_block hs ht hc).bind.bind
    · refine Or.inr (Or.inr (failsIn_byWord ?_))
      rw [ht]
      exact (failsIn_block hs ht hc).bind.bind
    · refine Or.inr (Or.inl ⟨none, by simp, takes_byWord ?_⟩)
      rw [ht]
      exact hskip
    · refine Or.inr (Or.inl ⟨none, by simp, takes_byWord ?_⟩)
      rw [ht]
      exact hskip
    · refine Or.inr (Or.inr (failsIn_byWord ?_))
      rw [ht]
      exact failsIn_fail _
    · refine Or.inr (Or.inr (failsIn_byWord ?_))
      rw [ht]
      exact failsIn_fail _
  · have hstatement := Member.statement_field (Message.readerWithin depth) hkeyword hs.cons.1.1
    rcases Field.reader_takes_or_fails hs hc (by simpa using hkeyword) with h | ⟨f, hf, h⟩ | h
    · exact Or.inl h
    · refine Or.inr (Or.inl ⟨some f, by simpa using hf, fun stop rest => ?_⟩)
      exact (hstatement stop _).trans (bind_ok (h stop rest))
    · refine Or.inr (Or.inr (h.imp (List.Subset.refl _) fun stop rest _ hfails => ?_))
      exact (hstatement stop _).trans (bind_failed hfails)

end Members

end ProtoSchema
