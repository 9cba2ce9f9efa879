import ProtoSchema.Error
import ProtoSchema.Proofs.Schema.Position
import ProtoSchema.Proofs.Schema.Spelling

/-! # Reading what is spelled

Every reader takes what the grammar spells and yields what it was spelled from. So a schema that is
spelled and laid out as a text is read back without a diagnostic.
-/

namespace ProtoSchema

open Piece Word Reader

theorem takes_identifier (description : String) {t : Token} {ts : List Token}
    (h : IsName t.text.toList) : (identifier description).Takes t (t :: ts) ts :=
  takes_token _ (isIdentifier_iff.2 h)

theorem takes_typeName (description : String) {t : Token} {ts : List Token}
    (h : IsReference t.text) : (typeName description).Takes t (t :: ts) ts :=
  takes_token _ h.isTypeName

theorem takes_integer (description : String) {t : Token} {ts : List Token} {n : Int}
    (h : Numeral n t.text.toList) (h32 : IsInt32 n) :
    (integer description).Takes n (t :: ts) ts := by
  refine (takes_token _ (isInteger_of_numeral h)).bind ?_
  rw [integerValue?_of_numeral h h32]
  exact .pure n ts

theorem takes_stringLiteral (description : String) {t : Token} {ts : List Token} {s : String}
    (h : Literal s.toList t.text.toList) : (stringLiteral description).Takes s (t :: ts) ts := by
  refine (takes_token _ (isStringLiteral_of_literal h)).bind ?_
  rw [literalValue_of_literal h, String.ofList_toList]
  exact .pure s ts

theorem Label.Spelled.takes {inOneof : Bool} {label : Label} {ls ts : List Token} {t : Token}
    (h : label.Spelled inOneof (ls.map (·.text)))
    (ht : ls = [] → t.text ∉ ["repeated", "optional", "required"]) :
    (Label.reader inOneof).Takes label (ls ++ t :: ts) (t :: ts) := by
  generalize hw : ls.map (·.text) = ws at h
  cases h with
  | implicit | member =>
    obtain rfl := List.map_eq_nil_iff.1 hw
    have hne := ht rfl
    simp only [List.mem_cons, List.not_mem_nil, or_false, not_or] at hne
    refine (takes_isNext "repeated").bind ?_
    rw [beq_false_of_ne hne.1]
    exact (takes_optionalWord_of_ne hne.2.1).bind
      ((takes_optionalWord_of_ne hne.2.2).bind (.pure _ _))
  | required | requiredMember =>
    obtain ⟨l, ls, rfl, hl, hls⟩ := List.map_eq_cons_iff.1 hw
    obtain rfl := List.map_eq_nil_iff.1 hls
    refine (takes_isNext "repeated").bind ?_
    rw [hl]
    exact (takes_optionalWord_of_ne (by simp [hl])).bind ((takes_optionalWord hl).bind (.pure _ _))
  | optional =>
    obtain ⟨l, ls, rfl, hl, hls⟩ := List.map_eq_cons_iff.1 hw
    obtain rfl := List.map_eq_nil_iff.1 hls
    refine (takes_isNext "repeated").bind ?_
    rw [hl]
    exact (takes_optionalWord hl).bind (.pure _ _)
  | repeated =>
    obtain ⟨l, ls, rfl, hl, hls⟩ := List.map_eq_cons_iff.1 hw
    obtain rfl := List.map_eq_nil_iff.1 hls
    refine (takes_isNext "repeated").bind ?_
    rw [hl]
    exact (takes_word hl).bind (.pure _ _)

theorem ne_of_test {test : String → Bool} {w v : String} (hw : test w = true)
    (hv : test v = false) : w ≠ v := by
  rintro rfl
  rw [hw] at hv
  cases hv

theorem passed_of_test {test : String → Bool} {w : String} (hw : test w = true)
    (hne : w ≠ "deprecated") (hv : ∀ v ∈ ["]", "\x7b", ";", "\x7d"], test v = false) :
    w ∉ ["]", "deprecated", "\x7b", ";", "\x7d"] := by
  intro hmem
  rcases List.mem_cons.1 hmem with heq | hmem
  · exact ne_of_test hw (hv "]" List.mem_cons_self) heq
  rcases List.mem_cons.1 hmem with heq | hmem
  · exact hne heq
  · exact ne_of_test hw (hv w (List.mem_cons_of_mem _ hmem)) rfl

theorem Constant.passed {w : String} (h : Constant w) :
    w ∉ ["]", "deprecated", "\x7b", ";", "\x7d"] := by
  cases h with
  | name h hne => exact passed_of_test h.isTypeName hne (by decide)
  | numeral h =>
    have hw := isInteger_of_numeral h
    exact passed_of_test hw (ne_of_test hw (by decide)) (by decide)
  | literal h =>
    have hw := isStringLiteral_of_literal h
    exact passed_of_test hw (ne_of_test hw (by decide)) (by decide)

theorem Setting.optionsFrom {b d : Bool} {ts : List Token} {t : Token}
    (h : Setting b d (ts.map (·.text))) (ht : t.text ≠ "=") (stop : Position) (rest : List Token) :
    Reader.optionsFrom b 0 stop (ts ++ t :: rest) = Reader.optionsFrom d 0 stop (t :: rest) := by
  generalize hw : ts.map (·.text) = ws at h
  cases h with
  | flag =>
    simp only [List.map_eq_cons_iff, List.map_eq_nil_iff] at hw
    obtain ⟨k, _, rfl, hk, rfl⟩ := hw
    exact optionsFrom_noValue hk ht
  | yes | no =>
    simp only [List.map_eq_cons_iff, List.map_eq_nil_iff] at hw
    obtain ⟨k, _, rfl, hk, e, _, rfl, he, v, _, rfl, hv, rfl⟩ := hw
    refine (optionsFrom_value hk he).trans ?_
    rw [hv]
    rfl
  | other hname hne hvalue =>
    simp only [List.map_eq_cons_iff, List.map_eq_nil_iff] at hw
    obtain ⟨k, _, rfl, rfl, e, _, rfl, he, v, _, rfl, rfl, rfl⟩ := hw
    have hpassed := passed_of_test hname.isTypeName hne (by decide)
    exact (optionsFrom_other hpassed).trans
      ((optionsFrom_other (by simp [he])).trans (optionsFrom_other hvalue.passed))

theorem Settings.takes {b d : Bool} {ts us : List Token} {t : Token}
    (h : Settings b d (ts.map (·.text))) (ht : t.text = "]") :
    (Reader.optionsFrom b 0).Takes d (ts ++ t :: us) us := by
  generalize hw : ts.map (·.text) = ws at h
  induction h generalizing ts with
  | last h =>
    subst hw
    intro stop rest
    rw [List.append_assoc, List.cons_append, h.optionsFrom (by simp [ht])]
    exact optionsFrom_end ht
  | cons h _ ih =>
    obtain ⟨xs, ys, rfl, rfl, hys⟩ := List.map_eq_append_iff.1 hw
    obtain ⟨k, ys, rfl, hk, rfl⟩ := List.map_eq_cons_iff.1 hys
    intro stop rest
    rw [List.append_assoc, List.append_assoc, List.cons_append, h.optionsFrom (by simp [hk]),
      optionsFrom_other (by simp [hk]), ← List.append_assoc]
    exact ih rfl stop rest

theorem Deprecation.takes {b : Bool} {os ts : List Token} {t : Token}
    (h : Deprecation b (os.map (·.text))) (ht : t.text ≠ "[") :
    options.Takes b (os ++ t :: ts) (t :: ts) := by
  generalize hw : os.map (·.text) = ws at h
  cases h with
  | unsaid =>
    obtain rfl := List.map_eq_nil_iff.1 hw
    exact (takes_optionalWord_of_ne ht).bind (.pure _ _)
  | said h =>
    simp only [List.map_eq_append_iff, List.map_eq_cons_iff, List.map_eq_nil_iff] at hw
    obtain ⟨o, _, rfl, ho, xs, _, rfl, rfl, c, _, rfl, hc, rfl⟩ := hw
    have hoptions : (Reader.optionsFrom false 0).Takes b (xs ++ [c] ++ t :: ts) (t :: ts) := by
      rw [List.append_assoc]
      exact h.takes hc
    exact (takes_optionalWord ho).bind hoptions

/-- The tokens of a field up to its number; its place is that of its name. -/
inductive Field.Heads (inOneof : Bool) (f : Field) : List Token → Prop
  | mk {ls : List Token} {t n e i : Token} (hl : f.label.Spelled inOneof (ls.map (·.text)))
      (hfirst : ls = [] → t.text ∉ keywords) (hgroup : t.text ≠ "group")
      (ht : isTypeName t.text = true) (htype : t.text = f.type)
      (hn : isIdentifier n.text = true) (hname : n.text = f.name) (hplace : n.position = f.position)
      (he : e.text = "=")
      (hi : isInteger i.text = true) (hnumber : integerValue? i.text = some f.number) :
      Heads inOneof f (ls ++ [t, n, e, i])

/-- What is left to read of a field after its options. -/
def Field.closed (f : Field) (deprecated : Bool) : Reader Field := do
  let _ ← word ";"
  return { f with deprecated }

/-- What is left to read of a field after its number. -/
def Field.ending (f : Field) : Reader Field := do
  let deprecated ← options
  f.closed deprecated

theorem Field.Heads.reader_append {inOneof : Bool} {f : Field} {head : List Token}
    (h : f.Heads inOneof head) (stop : Position) (rest : List Token) :
    Field.reader inOneof stop (head ++ rest) = f.ending stop rest := by
  obtain @⟨ls, t, n, e, i, hl, hfirst, hgroup, ht, htype, hn, hname, hplace, he, hi, hnumber⟩ := h
  have hlabel : ls = [] → t.text ∉ ["repeated", "optional", "required"] := fun hls hmem =>
    hfirst hls (List.mem_append_right _ (List.mem_append_left ["group"] hmem))
  have hangle : n.text ≠ "<" := ne_of_test hn (by decide)
  have hform : ∀ us, Field.unsupported? (t :: n :: us) = none := fun us => by
    simp [Field.unsupported?, hgroup, hangle]
  have hinteger : (integer "field number").Takes f.number [i] [] := by
    refine (takes_token _ hi).bind ?_
    rw [hnumber]
    exact .pure _ _
  calc Field.reader inOneof stop (ls ++ [t, n, e, i] ++ rest)
    _ = _ := bind_ok (hl.takes hlabel stop rest)
    _ = _ := bind_ok (takes_look (fun us => hform (e :: i :: us)) stop rest)
    _ = _ := bind_ok (takes_token _ ht stop rest)
    _ = _ := bind_ok (takes_token _ hn stop rest)
    _ = _ := bind_ok (takes_word he stop rest)
    _ = _ := bind_ok (hinteger stop rest)
    _ = f.ending stop rest := by
      rw [htype, hname, hplace]
      rfl

theorem Field.Spelled.exists_heads {inOneof : Bool} {f : Field} {ts : List Token}
    (h : f.Spelled inOneof (ts.map (·.text))) :
    ∃ head os c, ts = head ++ (os ++ [c]) ∧
      (∃ t ∈ ts, Field.Heads inOneof { f with position := t.position } head) ∧
      Deprecation f.deprecated (os.map (·.text)) ∧ c.text = ";" := by
  generalize hw : ts.map (·.text) = ws at h
  obtain @⟨label, options, number, hf, hl, hn, ho⟩ := h
  simp only [List.map_eq_append_iff, List.map_eq_cons_iff, List.map_eq_nil_iff] at hw
  obtain ⟨ls, _, rfl, rfl, t, _, rfl, htype, n, _, rfl, hname, e, _, rfl, he, i, _, rfl, rfl, os, _,
    rfl, rfl, c, _, rfl, hc, rfl⟩ := hw
  refine ⟨ls ++ [t, n, e, i], os, c, by simp, ⟨n, by simp, ?_⟩, ho, hc⟩
  have hgroup : t.text ≠ "group" := fun heq => hf.ordinary (by simp [keywords, ← htype, heq])
  exact .mk hl (fun _ => htype ▸ hf.ordinary) hgroup (htype ▸ hf.type.isTypeName) htype
    (isIdentifier_iff.2 (hname ▸ hf.name)) hname rfl he (isInteger_of_numeral hn)
    (integerValue?_of_numeral hn hf.number)

theorem Field.Spelled.takes {inOneof : Bool} {f : Field} {ts : List Token}
    (h : f.Spelled inOneof (ts.map (·.text))) :
    ∃ t ∈ ts, (Field.reader inOneof).Takes { f with position := t.position } ts [] := by
  obtain ⟨head, os, c, heq, ⟨t, ht, hheads⟩, ho, hc⟩ := h.exists_heads
  refine ⟨t, ht, fun stop rest => ?_⟩
  have hending : (Field.ending { f with position := t.position }).Takes
      { f with position := t.position } (os ++ [c]) [] :=
    (ho.takes (by simp [hc])).bind ((takes_word hc).bind (.pure _ _))
  rw [heq, List.append_assoc, hheads.reader_append]
  exact hending stop rest

/-- The token of a word at the start of a text. -/
def Token.plain (w : String) : Token := ⟨w, .start⟩

theorem map_text_plain (ws : List String) : (ws.map Token.plain).map (·.text) = ws := by
  rw [List.map_map]
  exact List.map_id ws

theorem takes_plain (w : String) (ts : List Token) :
    (word w).Takes (Token.plain w) (Token.plain w :: ts) ts :=
  takes_word rfl

section Blocks

variable {ι : Type} {statement : Reader (Noted (Option ι))} {x : ι} {xs : List ι}
  {ws : List String} {us : List Token}

/-- The words, which do not begin with a closing brace, are one statement that declares `x`. -/
def Declares (statement : Reader (Noted (Option ι))) (x : ι) (ws : List String) : Prop :=
  ∃ w vs, ws = w :: vs ∧ w ≠ "\x7d" ∧ statement.Takes ⟨some x, []⟩ (ws.map Token.plain) []

theorem Declares.statements_append (h : Declares statement x ws) (inBlock : Bool) (stop : Position)
    (us : List Token) :
    statements inBlock statement stop (ws.map Token.plain ++ us) =
      (statements inBlock statement stop us).prepend [x] [] := by
  obtain ⟨w, vs, rfl, hw, h⟩ := h
  exact statements_cons (t := Token.plain w) (Or.inr hw) h stop us

theorem Declares.takes_append {vs : List String} (h : Declares statement x ws)
    (hs : Takes (statements true statement) ⟨xs, []⟩ (vs.map Token.plain ++ us) []) :
    Takes (statements true statement) ⟨x :: xs, []⟩ ((ws ++ vs).map Token.plain ++ us) [] := by
  intro stop rest
  rw [List.map_append, List.append_assoc, List.append_assoc, h.statements_append,
    ← List.append_assoc, hs stop rest]
  rfl

theorem takes_close : Takes (statements true statement) ⟨[], []⟩ [Token.plain "\x7d"] [] :=
  fun _ _ => statements_close rfl

theorem Listed.takes {κ : Type} {e : κ → ι} {R : κ → List String → Prop} {ys : List κ}
    (h : Listed R ys ws) (hR : ∀ y vs, R y vs → Declares statement (e y) vs) :
    Takes (statements true statement) ⟨ys.map e, []⟩ (ws.map Token.plain ++ [Token.plain "\x7d"])
      [] := by
  induction h with
  | nil => exact takes_close
  | cons hy _ ih => exact (hR _ _ hy).takes_append ih

theorem takes_block {keyword description name : String} {items : Noted (List ι)}
    (hname : IsName name.toList)
    (h : Takes (statements true statement) items (ws.map Token.plain ++ [Token.plain "\x7d"]) []) :
    (block keyword description statement).Takes (Token.plain name, items)
      ((Braced keyword name ws).map Token.plain) [] := by
  simp only [Braced, List.map_cons, List.map_append, List.map_nil]
  refine (takes_plain _ _).bind ((takes_identifier _ hname).bind ((takes_plain _ _).bind ?_))
  exact Takes.bind h (.pure _ _)

end Blocks

abbrev Position.forget : Position → Position := fun _ => .start

theorem Field.Spelled.takes_plain {inOneof : Bool} {f : Field} {ws : List String}
    (h : f.Spelled inOneof ws) :
    (Field.reader inOneof).Takes (f.move .forget) (ws.map Token.plain) [] := by
  rw [← map_text_plain ws] at h
  obtain ⟨t, ht, htakes⟩ := h.takes
  obtain ⟨w, -, rfl⟩ := List.mem_map.1 ht
  exact htakes

/-- The first word of a field is a label or a type, and no other statement begins with it. -/
theorem Field.Spelled.exists_cons {inOneof : Bool} {f : Field} {ws : List String}
    (h : f.Spelled inOneof ws) :
    ∃ w vs, ws = w :: vs ∧ w ∉ Member.keywords ∧ w ≠ ";" ∧ w ≠ "\x7d" := by
  obtain ⟨hf, hl, -, -⟩ := h
  have htype : f.type ∉ Member.keywords ∧ f.type ≠ ";" ∧ f.type ≠ "\x7d" :=
    ⟨fun hmem => hf.ordinary (List.mem_append_left _ hmem),
      ne_of_test hf.type.isTypeName (by decide), ne_of_test hf.type.isTypeName (by decide)⟩
  generalize f.label = l at hl
  cases hl with
  | implicit | member => exact ⟨_, _, rfl, htype⟩
  | required | requiredMember | optional | repeated => exact ⟨_, _, rfl, by decide⟩

theorem takes_declares {ι : Type} {r : Reader ι} {x : ι} {ts : List Token} (h : r.Takes x ts []) :
    (declares r).Takes ⟨some x, []⟩ ts [] :=
  h.bind (.pure _ _)

theorem Field.Spelled.declares {f : Field} {ws : List String} (h : f.Spelled true ws) :
    Declares Oneof.statement (f.move .forget) ws := by
  obtain ⟨w, vs, rfl, hkeyword, hsemi, hclose⟩ := h.exists_cons
  have hoption : w ≠ "option" := fun heq => hkeyword (by simp [Member.keywords, heq])
  refine ⟨w, vs, rfl, hclose, takes_byWord ?_⟩
  simp only [Token.plain, hoption, hsemi, if_false]
  exact takes_declares h.takes_plain

theorem Oneof.Spelled.takes {o : Oneof} {ws : List String} (h : o.Spelled ws) :
    Oneof.reader.Takes ⟨o.move .forget, []⟩ (ws.map Token.plain) [] := by
  obtain ⟨hname, h⟩ := h
  exact (takes_block hname (h.takes fun _ _ => Field.Spelled.declares)).bind (.pure _ _)

theorem Deprecation.takes_plain {b : Bool} {ws : List String} {w : String} {ts : List Token}
    (h : Deprecation b ws) (hw : w ≠ "[") :
    options.Takes b (ws.map Token.plain ++ Token.plain w :: ts) (Token.plain w :: ts) := by
  rw [← map_text_plain ws] at h
  exact h.takes hw

theorem EnumValue.Spelled.takes {v : EnumValue} {ws : List String} (h : v.Spelled ws) :
    EnumValue.reader.Takes v (ws.map Token.plain) [] := by
  obtain ⟨hv, hn, ho⟩ := h
  simp only [List.map_cons, List.map_append, List.map_nil]
  refine (takes_identifier _ hv.name).bind ((takes_plain _ _).bind ?_)
  refine (takes_integer _ hn hv.number).bind ?_
  exact (ho.takes_plain (by decide)).bind ((takes_plain _ _).bind (.pure _ _))

theorem EnumValue.Spelled.declares {v : EnumValue} {ws : List String} (h : v.Spelled ws) :
    Declares Enum.statement v ws := by
  have htakes := h.takes
  obtain ⟨hv, -, -⟩ := h
  have hsymbol {w : String} := ne_of_test (v := w) (isIdentifier_iff.2 hv.name)
  have hsemi : v.name ≠ ";" := hsymbol (by decide)
  have hk := hv.ordinary
  simp only [List.mem_cons, List.not_mem_nil, or_false, not_or] at hk
  refine ⟨_, _, rfl, hsymbol (by decide), takes_byWord ?_⟩
  simp only [Token.plain, hk, hsemi, decide_false, Bool.or_self, Bool.false_eq_true, if_false]
  exact takes_declares htakes

theorem Enum.Spelled.takes {e : Enum} {ws : List String} (h : e.Spelled ws) :
    Enum.reader.Takes ⟨e.move .forget, []⟩ (ws.map Token.plain) [] := by
  obtain ⟨hname, h⟩ := h
  have hvalues := h.takes (e := id) fun _ _ => EnumValue.Spelled.declares
  rw [List.map_id] at hvalues
  exact (takes_block hname hvalues).bind (.pure _ _)

theorem Rpc.Spelled.takes {r : Rpc} {ws : List String} (h : r.Spelled ws) :
    Rpc.reader.Takes r (ws.map Token.plain) [] := by
  obtain ⟨⟨hname, hreq, hres⟩, hc⟩ := h
  have hstream {w : String} {ts : List Token} (hw : w ≠ "stream") :
      (optionalWord "stream").Takes false (Token.plain w :: ts) (Token.plain w :: ts) :=
    takes_optionalWord_of_ne hw
  refine (takes_plain _ _).bind ((takes_identifier _ hname).bind ((takes_plain _ _).bind ?_))
  refine (hstream hreq.2).bind ((takes_typeName _ hreq.1).bind ((takes_plain _ _).bind ?_))
  refine (takes_plain _ _).bind ((takes_plain _ _).bind ?_)
  refine (hstream hres.2).bind ((takes_typeName _ hres.1).bind ((takes_plain _ _).bind ?_))
  rcases hc with rfl | rfl
  · exact (takes_isNext _).bind ((takes_plain _ _).bind (.pure _ _))
  · have hblock : skipBlock.Takes () [Token.plain "\x7b", Token.plain "\x7d"] [] :=
      (takes_plain _ _).bind fun stop rest => rfl
    exact (takes_isNext _).bind (hblock.bind (.pure _ _))

theorem Rpc.Spelled.declares {r : Rpc} {ws : List String} (h : r.Spelled ws) :
    Declares Service.statement r ws := by
  have htakes := h.takes
  cases h
  exact ⟨_, _, rfl, by decide, takes_byWord (takes_declares htakes)⟩

theorem Service.Spelled.takes {s : Service} {ws : List String} (h : s.Spelled ws) :
    Service.reader.Takes ⟨s, []⟩ (ws.map Token.plain) [] := by
  obtain ⟨hname, h⟩ := h
  have hrpcs := h.takes (e := id) fun _ _ => Rpc.Spelled.declares
  rw [List.map_id] at hrpcs
  exact (takes_block hname hrpcs).bind (.pure _ _)

structure Sorted (members : List Member) (fs : List Field) (os : List Oneof) (ms : List Message)
    (es : List Enum) : Prop where
  fields : members.filterMap Member.field? = fs
  oneofs : members.filterMap Member.oneof? = os
  messages : members.filterMap Member.message? = ms
  enums : members.filterMap Member.enum? = es

namespace Sorted

variable {members : List Member} {fs : List Field} {os : List Oneof} {ms : List Message}
  {es : List Enum}

theorem field (h : Sorted members fs os ms es) (f : Field) :
    Sorted (.field f :: members) (f :: fs) os ms es :=
  ⟨congrArg (f :: ·) h.fields, h.oneofs, h.messages, h.enums⟩

theorem oneof (h : Sorted members fs os ms es) (o : Oneof) :
    Sorted (.oneof o :: members) fs (o :: os) ms es :=
  ⟨h.fields, congrArg (o :: ·) h.oneofs, h.messages, h.enums⟩

theorem message (h : Sorted members fs os ms es) (m : Message) :
    Sorted (.message m :: members) fs os (m :: ms) es :=
  ⟨h.fields, h.oneofs, congrArg (m :: ·) h.messages, h.enums⟩

theorem enum (h : Sorted members fs os ms es) (e : Enum) :
    Sorted (.enum e :: members) fs os ms (e :: es) :=
  ⟨h.fields, h.oneofs, h.messages, congrArg (e :: ·) h.enums⟩

end Sorted

def Nests (nested : Reader (Noted Message)) (m : Message) (ws : List String) : Prop :=
  (∃ vs, ws = "message" :: vs) ∧ nested.Takes ⟨m.move .forget, []⟩ (ws.map Token.plain) []

section Members

variable {nested : Reader (Noted Message)} {ws : List String}

theorem Member.statement_field (nested : Reader (Noted Message)) {t : Token}
    (ht : t.text ∉ Member.keywords) (hsemi : t.text ≠ ";") (stop : Position) (ts : List Token) :
    Member.statement nested stop (t :: ts) =
      (Field.reader false >>= fun f => pure ⟨some (.field f), []⟩ : Reader _) stop (t :: ts) := by
  simp only [Member.keywords, List.mem_cons, List.not_mem_nil, or_false, not_or] at ht
  simp [Member.statement, byWord, ht, hsemi]

theorem Field.Spelled.declares_member {f : Field} (h : f.Spelled false ws) :
    Declares (Member.statement nested) (.field (f.move .forget)) ws := by
  obtain ⟨w, vs, rfl, hkeyword, hsemi, hclose⟩ := h.exists_cons
  refine ⟨w, vs, rfl, hclose, fun stop rest => ?_⟩
  exact (Member.statement_field nested hkeyword hsemi stop _).trans
    (bind_ok (h.takes_plain stop rest))

theorem takes_noted {α : Type} {wrap : α → Member} {r : Reader (Noted α)} {x : α} {ts : List Token}
    (h : r.Takes ⟨x, []⟩ ts []) : (Member.noted wrap r).Takes ⟨some (wrap x), []⟩ ts [] :=
  h.bind (.pure _ _)

theorem Oneof.Spelled.declares_member {o : Oneof} (h : o.Spelled ws) :
    Declares (Member.statement nested) (.oneof (o.move .forget)) ws := by
  have htakes := h.takes
  cases h
  exact ⟨_, _, rfl, by decide, takes_byWord (takes_noted htakes)⟩

theorem Enum.Spelled.declares_member {e : Enum} (h : e.Spelled ws) :
    Declares (Member.statement nested) (.enum (e.move .forget)) ws := by
  have htakes := h.takes
  cases h
  exact ⟨_, _, rfl, by decide, takes_byWord (takes_noted htakes)⟩

theorem Nests.declares_member {m : Message} (h : Nests nested m ws) :
    Declares (Member.statement nested) (.message (m.move .forget)) ws := by
  obtain ⟨⟨vs, rfl⟩, htakes⟩ := h
  exact ⟨_, _, rfl, by decide, takes_byWord (takes_noted htakes)⟩

theorem Members.takes {R : Message → List String → Prop} {fs : List Field} {os : List Oneof}
    {ms : List Message} {es : List Enum} (h : Members R fs os ms es ws)
    (nested : Reader (Noted Message))
    (hR : ∀ m vs, vs.length ≤ ws.length → R m vs → Nests nested m vs) :
    ∃ members, Sorted members (fs.map (.move .forget)) (os.map (.move .forget))
        (ms.map (.move .forget)) (es.map (.move .forget)) ∧
      Takes (statements true (Member.statement nested)) ⟨members, []⟩
        (ws.map Token.plain ++ [Token.plain "\x7d"]) [] := by
  induction h with
  | nil => exact ⟨[], ⟨rfl, rfl, rfl, rfl⟩, takes_close⟩
  | field h _ ih =>
    obtain ⟨members, hsorted, htakes⟩ := ih fun m vs hle => hR m vs (by simp; omega)
    exact ⟨_, hsorted.field _, h.declares_member.takes_append htakes⟩
  | oneof h _ ih =>
    obtain ⟨members, hsorted, htakes⟩ := ih fun m vs hle => hR m vs (by simp; omega)
    exact ⟨_, hsorted.oneof _, h.declares_member.takes_append htakes⟩
  | message h _ ih =>
    obtain ⟨members, hsorted, htakes⟩ := ih fun m vs hle => hR m vs (by simp; omega)
    exact ⟨_, hsorted.message _, (hR _ _ (by simp) h).declares_member.takes_append htakes⟩
  | enum h _ ih =>
    obtain ⟨members, hsorted, htakes⟩ := ih fun m vs hle => hR m vs (by simp; omega)
    exact ⟨_, hsorted.enum _, h.declares_member.takes_append htakes⟩

end Members

theorem Message.Spelled.nests {m : Message} {ws : List String} (h : m.Spelled ws) (depth : Nat)
    (hd : ws.length ≤ depth) : Nests (readerWithin depth) m ws := by
  induction depth generalizing m ws with
  | zero =>
    cases h
    simp [Braced] at hd
  | succ depth ih =>
    obtain @⟨m, body, hname, h⟩ := h
    have hlength : body.length < depth := by
      simp only [Braced, List.length_cons, List.length_append, List.length_nil] at hd
      omega
    obtain ⟨members, hsorted, htakes⟩ :=
      h.takes (readerWithin depth) fun m' vs hle hm' => ih hm' (by omega)
    refine ⟨⟨_, rfl⟩, (takes_block hname htakes).bind ?_⟩
    have hmessage : Message.ofMembers (Token.plain m.name) members = m.move .forget := by
      obtain ⟨name, position, fields, oneofs, messages, enums⟩ := m
      simp only [Message.ofMembers, Message.move, Message.moveAll_eq_map, hsorted.fields,
        hsorted.oneofs, hsorted.messages, hsorted.enums]
      rfl
    rw [← hmessage]
    exact .pure _ _

theorem Message.Spelled.takes {m : Message} {ws : List String} (h : m.Spelled ws) :
    Message.reader.Takes ⟨m.move .forget, []⟩ (ws.map Token.plain) [] := fun stop rest =>
  (h.nests (ws.map Token.plain ++ rest).length (by simp)).2 stop rest

theorem takes_notedDeclaration {α : Type} {wrap : α → Declaration} {r : Reader (Noted α)} {x : α}
    {ts : List Token} (h : r.Takes ⟨x, []⟩ ts []) :
    (Declaration.noted wrap r).Takes ⟨some (wrap x), []⟩ ts [] :=
  h.bind (.pure _ _)

section Declarations

variable {name w : String}

theorem declares_dialect (hw : Literal name.toList w.toList) :
    Declares Declaration.statement (.dialect name) ["syntax", "=", w, ";"] := by
  refine ⟨_, _, rfl, by decide, takes_byWord (takes_declares ?_)⟩
  refine (takes_token _ rfl).bind ((takes_plain _ _).bind ?_)
  exact (takes_stringLiteral _ hw).bind ((takes_plain _ _).bind (.pure _ _))

theorem declares_package (hname : Dotted name.toList) :
    Declares Declaration.statement (.package name) ["package", name, ";"] := by
  refine ⟨_, _, rfl, by decide, takes_byWord (takes_declares ?_)⟩
  refine (takes_plain _ _).bind ((takes_token _ (isPackageName_of_dotted hname)).bind ?_)
  exact (takes_plain _ _).bind (.pure _ _)

theorem declares_moduleName (hw : Literal name.toList w.toList) :
    Declares Declaration.statement (.moduleName name) ["option", "rust_module", "=", w, ";"] := by
  refine ⟨_, _, rfl, by decide, takes_byWord fun stop rest => ?_⟩
  have hvalue : literalValue w = name := by rw [literalValue_of_literal hw, String.ofList_toList]
  have hoption : Declaration.optionReader stop
      (["option", "rust_module", "=", w, ";"].map Token.plain ++ rest) =
      .ok ⟨some (.moduleName name), []⟩ rest := by
    simp [Declaration.optionReader, Token.plain, isStringLiteral_of_literal hw, hvalue]
  exact hoption

theorem declares_path {mark : List String} (hm : mark = [] ∨ mark = ["public"] ∨ mark = ["weak"])
    (hw : Literal name.toList w.toList) :
    Declares Declaration.statement (.path name) ("import" :: (mark ++ [w, ";"])) := by
  have hlast {ts : List Token} : Takes (do
      let imported ← stringLiteral "import path"
      let _ ← word ";"
      return Declaration.path imported) (.path name) (Token.plain w :: Token.plain ";" :: ts) ts :=
    (takes_stringLiteral _ hw).bind ((takes_plain _ _).bind (.pure _ _))
  have hmark (v : String) {ts : List Token} :
      (optionalWord v).Takes true (Token.plain v :: ts) ts :=
    takes_optionalWord rfl
  have hquote : w ≠ "public" ∧ w ≠ "weak" := by
    have hliteral := isStringLiteral_of_literal hw
    constructor
    · rintro rfl
      exact absurd hliteral (by decide)
    · rintro rfl
      exact absurd hliteral (by decide)
  refine ⟨_, _, rfl, by decide, takes_byWord (takes_declares ((takes_plain _ _).bind ?_))⟩
  rcases hm with rfl | rfl | rfl
  · exact (takes_optionalWord_of_ne hquote.1).bind
      ((takes_optionalWord_of_ne hquote.2).bind hlast)
  · exact (hmark "public").bind hlast
  · exact (takes_optionalWord_of_ne (by decide)).bind ((hmark "weak").bind hlast)

theorem Message.Spelled.declares {m : Message} {ws : List String} (h : m.Spelled ws) :
    Declares Declaration.statement (.message (m.move .forget)) ws := by
  have htakes := h.takes
  cases h
  exact ⟨_, _, rfl, by decide, takes_byWord (takes_notedDeclaration htakes)⟩

theorem Enum.Spelled.declares {e : Enum} {ws : List String} (h : e.Spelled ws) :
    Declares Declaration.statement (.enum (e.move .forget)) ws := by
  have htakes := h.takes
  cases h
  exact ⟨_, _, rfl, by decide, takes_byWord (takes_notedDeclaration htakes)⟩

theorem Service.Spelled.declares {s : Service} {ws : List String} (h : s.Spelled ws) :
    Declares Declaration.statement (.service s) ws := by
  have htakes := h.takes
  cases h
  exact ⟨_, _, rfl, by decide, takes_byWord (takes_notedDeclaration htakes)⟩

end Declarations

structure Schema.Sorted (s : Schema) (ds : List Declaration) : Prop where
  dialect : ds.filterMap Declaration.dialect? = s.dialect.toList
  package : ds.filterMap Declaration.package? = if s.package = "" then [] else [s.package]
  moduleName : ds.filterMap Declaration.moduleName? = s.moduleName.toList
  imports : ds.filterMap Declaration.path? = s.imports
  messages : ds.filterMap Declaration.message? = s.messages.map (Message.move .forget)
  enums : ds.filterMap Declaration.enum? = s.enums.map (Enum.move .forget)
  services : ds.filterMap Declaration.service? = s.services
  diagnostics : s.diagnostics = []

theorem Schema.Sorted.ofDeclarations {s : Schema} {ds : List Declaration} (h : s.Sorted ds) :
    Schema.ofDeclarations ds [] = s.move .forget := by
  have hlast {o : Option String} : o.toList.getLast? = o := by cases o <;> rfl
  have hpackage : (if s.package = "" then [] else [s.package]).getLastD "" = s.package := by
    split
    · next hempty => exact hempty.symm
    · rfl
  simp only [Schema.ofDeclarations, Schema.move, h.dialect, h.package, h.moduleName, h.imports,
    h.messages, h.enums, h.services, h.diagnostics, hlast, hpackage, List.map_nil]

theorem Schema.Spelled.statements {s : Schema} {ws : List String} (h : s.Spelled ws)
    (stop : Position) :
    ∃ ds, ProtoSchema.statements false Declaration.statement stop (ws.map Token.plain) =
      .ok ⟨ds, []⟩ [] ∧ s.Sorted ds := by
  have hstep {d : Declaration} {us vs : List String} {ds : List Declaration}
      (hd : Declares Declaration.statement d us)
      (hs : ProtoSchema.statements false Declaration.statement stop (vs.map Token.plain) =
        .ok ⟨ds, []⟩ []) :
      ProtoSchema.statements false Declaration.statement stop ((us ++ vs).map Token.plain) =
        .ok ⟨d :: ds, []⟩ [] := by
    rw [List.map_append, hd.statements_append, hs]
    rfl
  induction h with
  | nil => exact ⟨[], statements_nil_file, rfl, rfl, rfl, rfl, rfl, rfl, rfl, rfl⟩
  | dialect _ hnone hw ih =>
    obtain ⟨ds, hds, hs⟩ := ih
    refine ⟨_, hstep (declares_dialect hw) hds, { hs with dialect := ?_ }⟩
    have hempty := hs.dialect
    rw [hnone] at hempty
    exact congrArg (_ :: ·) hempty
  | @package s vs name _ hnone hname ih =>
    obtain ⟨ds, hds, hs⟩ := ih
    refine ⟨_, hstep (declares_package hname) hds, { hs with package := ?_ }⟩
    have hempty := hs.package
    have hne : name ≠ "" := by
      rintro rfl
      obtain ⟨c, cs, heq, -⟩ := hname.exists_cons
      cases heq
    rw [if_pos hnone] at hempty
    rw [if_neg hne]
    exact congrArg (name :: ·) hempty
  | moduleName _ hnone hw ih =>
    obtain ⟨ds, hds, hs⟩ := ih
    refine ⟨_, hstep (declares_moduleName hw) hds, { hs with moduleName := ?_ }⟩
    have hempty := hs.moduleName
    rw [hnone] at hempty
    exact congrArg (_ :: ·) hempty
  | path _ hm hw ih =>
    obtain ⟨ds, hds, hs⟩ := ih
    exact ⟨_, hstep (declares_path hm hw) hds, { hs with imports := congrArg (_ :: ·) hs.imports }⟩
  | message _ h ih =>
    obtain ⟨ds, hds, hs⟩ := ih
    exact ⟨_, hstep h.declares hds, { hs with messages := congrArg (_ :: ·) hs.messages }⟩
  | enum _ h ih =>
    obtain ⟨ds, hds, hs⟩ := ih
    exact ⟨_, hstep h.declares hds, { hs with enums := congrArg (_ :: ·) hs.enums }⟩
  | service _ h ih =>
    obtain ⟨ds, hds, hs⟩ := ih
    exact ⟨_, hstep h.declares hds, { hs with services := congrArg (_ :: ·) hs.services }⟩

theorem Schema.ofTokens_end {ts : List Token} {z : Token} (ht : ∀ t ∈ ts, t.text ≠ "")
    (hz : z.text = "") :
    Schema.ofTokens (ts ++ [z]) =
      match ProtoSchema.statements false Declaration.statement z.position ts with
      | .ok ds _ => .ok (Schema.ofDeclarations ds.value ds.notes)
      | .failed why _ => .error (.unfinished why) := by
  have hend : ∀ t ∈ ts, t.isEnd = false := by simpa [Token.isEnd, String.isEmpty_iff] using ht
  have hz : z.isEnd = true := by simp [Token.isEnd, hz]
  exact Schema.ofTokens_cut hend hz (by simp [hz])

theorem Schema.ofTokens_concat {ts rest : List Token} {z : Token} {ds : Noted (List Declaration)}
    (ht : ∀ t ∈ ts, t.text ≠ "") (hz : z.text = "")
    (h : ProtoSchema.statements false Declaration.statement z.position ts = .ok ds rest) :
    Schema.ofTokens (ts ++ [z]) = .ok (Schema.ofDeclarations ds.value ds.notes) := by
  rw [Schema.ofTokens_end ht hz, h]

theorem Schema.Spelled.ofTokens {s : Schema} {ws : List String} (h : s.Spelled ws) :
    Schema.ofTokens ((ws ++ [""]).map Token.plain) = .ok (s.move .forget) := by
  have hne : ∀ t ∈ ws.map Token.plain, t.text ≠ "" := by
    simpa [Token.plain] using h.lexemes.ne_empty
  obtain ⟨ds, hds, hsorted⟩ := h.statements .start
  rw [List.map_append, List.map_singleton, Schema.ofTokens_concat hne rfl hds]
  exact congrArg Except.ok hsorted.ofDeclarations

/-- A text with the words of a schema is read as that schema, up to positions. -/
theorem Schema.Spelled.read {u : Schema} {words : List String} {text : String}
    (hu : u.Spelled words) (ht : Scans text.toList (words ++ [""])) :
    ∃ s, Schema.read text = .ok s ∧ s.move .forget = u.move .forget ∧ s.diagnostics = [] := by
  obtain ⟨ts, hscan, htexts⟩ := ht
  have hplain : ts.map (Token.move .forget) = (words ++ [""]).map Token.plain := by
    rw [← htexts, List.map_map]
    rfl
  have hmoved := Schema.ofTokens_move (φ := Position.forget) ts
  rw [hplain, hu.ofTokens] at hmoved
  cases hts : Schema.ofTokens ts with
  | error e =>
    rw [hts] at hmoved
    cases hmoved
  | ok s =>
    rw [hts] at hmoved
    have hs : s.move .forget = u.move .forget := (Except.ok.inj hmoved).symm
    refine ⟨s, by simp [Schema.read, Token.scan, hscan, Schema.parse, hts], hs, ?_⟩
    obtain ⟨ds, -, hsorted⟩ := hu.statements .start
    have hnotes := congrArg Schema.diagnostics hs
    rw [Schema.move, Schema.move, hsorted.diagnostics] at hnotes
    exact List.map_eq_nil_iff.1 hnotes

theorem Schema.Written.read {u : Schema} {text : String} (h : u.Written text) :
    ∃ s, Schema.read text = .ok s ∧ s.move .forget = u.move .forget ∧ s.diagnostics = [] := by
  obtain ⟨words, hu, ht⟩ := h
  exact hu.read (ht.scans hu.lexemes)

/-- A schema within the grammar can be written, and every way to write it is read back as the same
schema up to positions, without a diagnostic. -/
theorem Schema.read_written {u : Schema} (hu : u.Allowed) :
    (∃ text, u.Written text) ∧ ∀ text, u.Written text →
      ∃ s, Schema.read text = .ok s ∧ s.move .forget = u.move .forget ∧ s.diagnostics = [] :=
  ⟨hu.exists_written, fun _ h => h.read⟩

/-- A nested message in front of the fields, a field with the name of a keyword, and both bases. -/
theorem Schema.read_written_nested :
    ∃ s, Schema.read ("/* M */message M \x7b message N \x7b \x7d optional .a.N message = 0x1F " ++
        "[ deprecated = true ] ; enum E \x7b A = -1 ; \x7d \x7d ") = .ok s ∧
      s.move .forget =
        { messages := [⟨"M", .start, [⟨"message", .start, ".a.N", 31, .optional, true⟩], [],
            [⟨"N", .start, [], [], [], []⟩], [⟨"E", .start, [⟨"A", -1, false⟩]⟩]⟩] } ∧
      s.diagnostics = [] := by
  have hname {w : String} (h : isIdentifier w = true) : IsName w.toList := isIdentifier_iff.1 h
  have hfield : Field.Allowed ⟨"message", .start, ".a.N", 31, .optional, true⟩ := by
    refine ⟨hname (by decide), Or.inr ⟨_, .cons (hname (w := "a") (by decide)) (.name ?_), rfl⟩,
      by decide, by decide⟩
    exact hname (w := "N") (by decide)
  have hvalue : EnumValue.Allowed ⟨"A", -1, false⟩ := ⟨hname (by decide), by decide, by decide⟩
  have hnested : Message.Allowed ⟨"N", .start, [], [], [], []⟩ :=
    .mk (hname (by decide)) (by simp) (by simp) (by simp) (by simp)
  have henum : Enum.Allowed ⟨"E", .start, [⟨"A", -1, false⟩]⟩ :=
    ⟨hname (by decide), by simpa using hvalue⟩
  have hnumber : Numeral 31 "0x1F".toList :=
    .plain (.hexadecimal (n := 31) 0 (Or.inl rfl) (by decide))
  have hnegative : Numeral (-1) "-1".toList := .minus (.decimal (n := 1) 0)
  have hmessage : Message.Allowed
      ⟨"M", .start, [⟨"message", .start, ".a.N", 31, .optional, true⟩], [],
        [⟨"N", .start, [], [], [], []⟩], [⟨"E", .start, [⟨"A", -1, false⟩]⟩]⟩ :=
    .mk (hname (by decide)) (by simpa using hfield) (by simp) (by simpa using hnested)
      (by simpa using henum)
  have hallowed : Schema.Allowed { messages := [_] } :=
    ⟨Or.inl rfl, List.forall_mem_singleton.2 hmessage, by simp, by simp, rfl⟩
  refine (Schema.read_written hallowed).2 _ ⟨_, .message .nil (.mk (hname (by decide))
    (.message (.mk (hname (by decide)) .nil)
      (.field (.mk hfield (.optional false) hnumber (.said (.last .yes)))
        (.enum (.mk (hname (by decide)) (.cons (.mk hvalue hnegative .unsaid) .nil)) .nil)))), ?_⟩
  have hbody : ¬ ['*', '/'] <:+: [' ', 'M', ' '] := by decide
  exact Layout.blockComment hbody (Layout.spaced _)

end ProtoSchema
