import ProtoSchema.Proofs.Schema.Concatenation

/-! # Truncated declarations

A reader that does not look past what it takes cannot be content with less: cut short, its input runs
out. So a message, enum or service that breaks off anywhere makes the whole file an error, wherever
the cut falls and whatever was skipped in front of it.
-/

namespace ProtoSchema

open Reader

namespace Reader

variable {α : Type} {r : Reader α} {ts us : List Token}

/-- Started in front of the tokens, none of which ends the input, the reader stops right behind
them. -/
def Spans (r : Reader α) (ts : List Token) : Prop :=
  (∀ t ∈ ts, t.isEnd = false) ∧ ∃ stop rest a, r stop (ts ++ rest) = .ok a rest

/-- A firm reader that takes some tokens as a whole runs out of them on every shorter part. -/
theorem Spans.failed_of_prefix (h : r.Spans ts) (hr : r.Firm) (hus : us <+: ts) (hne : us ≠ ts)
    (stop : Position) : ∃ why, r stop us = .failed why true := by
  obtain ⟨-, stop', rest, a, ha⟩ := h
  obtain ⟨vs, rfl⟩ := hus
  rw [List.append_assoc] at ha
  cases hcut : r stop us with
  | ok b ws =>
    have hb := (hr us).takes_all hcut stop' (vs ++ rest)
    rw [ha] at hb
    have hlength := congrArg List.length (Outcome.ok.inj hb).2
    simp only [List.length_append] at hlength
    have hvs : vs = [] := List.eq_nil_of_length_eq_zero (by omega)
    exact absurd (by rw [hvs, List.append_nil]) hne
  | failed why atEnd =>
    cases atEnd with
    | true => exact ⟨why, rfl⟩
    | false =>
      have hfails := ((hr us).fails hcut).2 stop' (vs ++ rest)
      rw [ha] at hfails
      cases hfails

end Reader

theorem text_of_block {ι α : Type} {keyword description : String}
    {statement : Reader (Noted (Option ι))} {f : Token × Noted (List ι) → Reader α}
    {stop : Position} {t : Token} {ts us : List Token} {a : α}
    (h : (block keyword description statement >>= f) stop (t :: ts) = .ok a us) :
    t.text = keyword := by
  obtain ⟨x, vs, hblock, -⟩ := Reader.bind_eq_ok h
  obtain ⟨u, ws, hu, -⟩ := Reader.bind_eq_ok hblock
  have hword := yields_token _ _ _ _ _ _ hu
  cases token_eq_ok hu
  simpa using hword

namespace Declaration

variable {α : Type} {r : Reader (Noted α)} {wrap : α → Declaration} {keyword : String}
  {ts us : List Token}

/-- Statements of a file that start with the keyword are left to the reader, which asks for it. -/
structure Heads (keyword : String) (wrap : α → Declaration) (r : Reader (Noted α)) : Prop where
  closes : r.Closes
  keyword_of_ok : ∀ {stop t ts a us}, r stop (t :: ts) = .ok a us → t.text = keyword
  statement_eq : ∀ {stop t ts}, t.text = keyword →
    statement stop (t :: ts) = noted wrap r stop (t :: ts)

theorem heads_message : Heads "message" message Message.reader :=
  ⟨Message.closes_reader, fun h => text_of_block h, fun ht => by simp [statement, byWord, ht]⟩

theorem heads_enum : Heads "enum" enum Enum.reader :=
  ⟨Enum.closes_reader, fun h => text_of_block h, fun ht => by simp [statement, byWord, ht]⟩

theorem heads_service : Heads "service" service Service.reader :=
  ⟨Service.closes_reader, fun h => text_of_block h, fun ht => by simp [statement, byWord, ht]⟩

theorem Heads.statement_failed (hr : Heads keyword wrap r) (h : r.Spans ts) (hus : us <+: ts)
    (hne : us ≠ []) (hcut : us ≠ ts) (stop : Position) :
    ∃ why, statement stop us = .failed why true := by
  obtain ⟨why, hwhy⟩ := h.failed_of_prefix hr.closes.firm hus hcut stop
  obtain ⟨t, us, rfl⟩ := List.exists_cons_of_ne_nil hne
  obtain ⟨vs, rfl⟩ := hus
  obtain ⟨-, stop', rest, a, ha⟩ := h
  use why
  rw [hr.statement_eq (hr.keyword_of_ok ha)]
  exact bind_failed hwhy

end Declaration

/-- The tokens are a whole message, enum or service. -/
def IsBlock (ts : List Token) : Prop :=
  Message.reader.Spans ts ∨ Enum.reader.Spans ts ∨ Service.reader.Spans ts

namespace IsBlock

variable {ts us : List Token}

theorem text_ne_empty (h : IsBlock ts) {t : Token} (ht : t ∈ ts) : t.text ≠ "" := by
  have hend : t.isEnd = false := by
    rcases h with h | h | h <;> exact h.1 t ht
  rintro heq
  rw [Token.isEnd, heq] at hend
  exact absurd hend (by decide)

theorem statements_failed (h : IsBlock ts) (hus : us <+: ts) (hne : us ≠ []) (hcut : us ≠ ts)
    (stop : Position) :
    ∃ why, statements false Declaration.statement stop us = .failed why true := by
  have hstatement : ∃ why, Declaration.statement stop us = .failed why true := by
    rcases h with h | h | h
    · exact Declaration.heads_message.statement_failed h hus hne hcut stop
    · exact Declaration.heads_enum.statement_failed h hus hne hcut stop
    · exact Declaration.heads_service.statement_failed h hus hne hcut stop
  obtain ⟨why, hwhy⟩ := hstatement
  obtain ⟨t, us, rfl⟩ := List.exists_cons_of_ne_nil hne
  exact ⟨why, statements_fatal (Or.inl rfl) hwhy⟩

end IsBlock

namespace Schema

/-- A message, enum or service that breaks off is an error of the file, and the same error behind any
file that ends with a semicolon or a closing brace. -/
theorem parse_truncated {ts us : List Token} {z : Token} (h : IsBlock ts) (hus : us <+: ts)
    (hne : us ≠ []) (hcut : us ≠ ts) (hz : z.text = "") :
    ∃ why, Schema.parse (us ++ [z]) = .error (.grammar why) ∧
      ∀ (as : List Token) (y : Token) (s : Schema), (∀ t ∈ as, t.text ≠ "") → Terminated as →
        y.text = "" → Schema.parse (as ++ [y]) = .ok s →
        Schema.parse (as ++ us ++ [z]) = .error (.grammar why) := by
  obtain ⟨why, hwhy⟩ := h.statements_failed hus hne hcut z.position
  have htexts : ∀ t ∈ us, t.text ≠ "" := fun t ht => h.text_ne_empty (hus.subset ht)
  refine ⟨why, by rw [parse_end htexts hz, hwhy], ?_⟩
  intro as y s has hend hy hs
  have hall : ∀ t ∈ as ++ us, t.text ≠ "" := fun t ht =>
    (List.mem_append.1 ht).elim (has t) (htexts t)
  rw [parse_end has hy] at hs
  rw [parse_end hall hz]
  cases hds : ProtoSchema.statements false Declaration.statement y.position as with
  | failed why' atEnd =>
    rw [hds] at hs
    cases hs
  | ok ds rest =>
    rw [statements_append hend hds, hwhy]
    rfl

/-- A message with a nested enum behind a statement that cannot be read, and the part of it that ends
in the options of the enum's value. -/
def nestedEnum : List Token :=
  ["message", "M", "\x7b", "int32", "a", ";", "enum", "E", "\x7b", "Z", "=", "0", "[", "deprecated",
    "=", "true", "]", ";", "\x7d", "\x7d"].map Token.plain

theorem parse_truncated_nestedEnum :
    IsBlock nestedEnum ∧ ∃ why,
      Schema.parse (nestedEnum.take 15 ++ [Token.plain ""]) = .error (.grammar why) ∧
      Schema.parse (onlyPackage ++ nestedEnum.take 15 ++ [Token.plain ""]) =
        .error (.grammar why) := by
  have hread : Message.reader .start (nestedEnum ++ []) =
      .ok ⟨⟨"M", .start, [], [], [], [⟨"E", .start, [⟨"Z", 0, true⟩]⟩]⟩,
        [⟨.expected (.word "=") ";", .start⟩]⟩ [] := by decide +kernel
  have hblock : IsBlock nestedEnum := Or.inl ⟨by decide, .start, [], _, hread⟩
  have hpackage : Schema.parse (onlyPackage ++ [Token.plain ""]) = .ok { package := "p" } := by
    decide +kernel
  obtain ⟨why, halone, hbehind⟩ :=
    parse_truncated hblock (List.take_prefix 15 _) (by decide) (by decide) (z := Token.plain "") rfl
  refine ⟨hblock, why, halone, hbehind _ _ _ (by decide) (fun t ht => ?_) rfl hpackage⟩
  cases ht
  exact Or.inl rfl

end Schema

end ProtoSchema
