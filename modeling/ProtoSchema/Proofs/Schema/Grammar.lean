import ProtoSchema.Proofs.Schema.Word
import ProtoSchema.Schema.Declaration

/-! # The grammar of schemas

How the parts of a schema are spelled as words. A number or a string can be spelled in several ways,
and the members of a block can follow each other in any order that keeps the order of each kind.
-/

namespace ProtoSchema

open Piece Word

inductive Listed {ι : Type} (R : ι → List String → Prop) : List ι → List String → Prop
  | nil : Listed R [] []
  | cons {x : ι} {xs : List ι} {ws vs : List String} (h : R x ws) (hs : Listed R xs vs) :
      Listed R (x :: xs) (ws ++ vs)

/-- A keyword, a name, and what stands in braces. -/
def Braced (keyword name : String) (body : List String) : List String :=
  keyword :: name :: "\x7b" :: (body ++ ["\x7d"])

inductive Constant (w : String) : Prop
  | name (h : IsReference w) (hne : w ≠ "deprecated")
  | numeral {n : Int} (h : Numeral n w.toList)
  | literal {s : List Char} (h : Literal s w.toList)

/-- One option, with whether something is deprecated before it and after it. -/
inductive Setting (b : Bool) : Bool → List String → Prop
  | flag : Setting b true ["deprecated"]
  | yes : Setting b true ["deprecated", "=", "true"]
  | no : Setting b false ["deprecated", "=", "false"]
  | other {name value : String} (hname : IsReference name) (hne : name ≠ "deprecated")
      (hvalue : Constant value) : Setting b b [name, "=", value]

inductive Settings : Bool → Bool → List String → Prop
  | last {b d : Bool} {ws : List String} (h : Setting b d ws) : Settings b d ws
  | cons {b c d : Bool} {ws vs : List String} (h : Setting b c ws) (hs : Settings c d vs) :
      Settings b d (ws ++ "," :: vs)

/-- Whether something is deprecated, by the options in brackets. -/
inductive Deprecation : Bool → List String → Prop
  | unsaid : Deprecation false []
  | said {b : Bool} {ws : List String} (h : Settings false b ws) :
      Deprecation b ("[" :: (ws ++ ["]"]))

/-- The word in front of a field's type. A oneof's members are optional without it. -/
inductive Label.Spelled : Bool → Label → List String → Prop
  | implicit : Spelled false .implicit []
  | required : Spelled false .implicit ["required"]
  | member : Spelled true .optional []
  | requiredMember : Spelled true .optional ["required"]
  | optional (inOneof : Bool) : Spelled inOneof .optional ["optional"]
  | repeated : Spelled false .repeated ["repeated"]

/-- Words that start a statement of a message other than a field. -/
def Member.keywords : List String :=
  ["message", "enum", "oneof", "option", "reserved", "extensions", "extend"]

/-- Words that start another statement or another form of field. -/
def Field.keywords : List String :=
  Member.keywords ++ ["repeated", "optional", "required", "group"]

structure Field.Allowed (f : Field) : Prop where
  name : IsName f.name.toList
  type : IsReference f.type
  ordinary : f.type ∉ keywords
  number : IsInt32 f.number

/-- `[optional | repeated] type name = number [options];` -/
inductive Field.Spelled (inOneof : Bool) (f : Field) : List String → Prop
  | mk {label options : List String} {number : String} (hf : f.Allowed)
      (hl : f.label.Spelled inOneof label) (hn : Numeral f.number number.toList)
      (ho : Deprecation f.deprecated options) :
      Spelled inOneof f (label ++ f.type :: f.name :: "=" :: number :: (options ++ [";"]))

/-- `oneof name { fields }` -/
inductive Oneof.Spelled (o : Oneof) : List String → Prop
  | mk {body : List String} (hname : IsName o.name.toList)
      (h : Listed (Field.Spelled true) o.fields body) : Spelled o (Braced "oneof" o.name body)

structure EnumValue.Allowed (v : EnumValue) : Prop where
  name : IsName v.name.toList
  ordinary : v.name ∉ ["option", "reserved"]
  number : IsInt32 v.number

/-- `name = number [options];` -/
inductive EnumValue.Spelled (v : EnumValue) : List String → Prop
  | mk {options : List String} {number : String} (hv : v.Allowed)
      (hn : Numeral v.number number.toList) (ho : Deprecation v.deprecated options) :
      Spelled v (v.name :: "=" :: number :: (options ++ [";"]))

/-- `enum name { values }` -/
inductive Enum.Spelled (e : Enum) : List String → Prop
  | mk {body : List String} (hname : IsName e.name.toList)
      (h : Listed EnumValue.Spelled e.values body) : Spelled e (Braced "enum" e.name body)

structure Rpc.Allowed (r : Rpc) : Prop where
  name : IsName r.name.toList
  request : IsReference r.request ∧ r.request ≠ "stream"
  response : IsReference r.response ∧ r.response ≠ "stream"

/-- `rpc name (request) returns (response);` or with an empty block at its end. -/
inductive Rpc.Spelled (r : Rpc) : List String → Prop
  | mk {close : List String} (hr : r.Allowed) (hc : close = [";"] ∨ close = ["\x7b", "\x7d"]) :
      Spelled r ("rpc" :: r.name :: "(" :: r.request :: ")" :: "returns" :: "(" :: r.response ::
        ")" :: close)

/-- `service name { rpcs }` -/
inductive Service.Spelled (s : Service) : List String → Prop
  | mk {body : List String} (hname : IsName s.name.toList)
      (h : Listed Rpc.Spelled s.rpcs body) : Spelled s (Braced "service" s.name body)

/-- The members of a message, the four kinds in any order, given how nested messages are spelled. -/
inductive Members (R : Message → List String → Prop) :
    List Field → List Oneof → List Message → List Enum → List String → Prop
  | nil : Members R [] [] [] [] []
  | field {f fs os ms es ws vs} (h : Field.Spelled false f ws) (hs : Members R fs os ms es vs) :
      Members R (f :: fs) os ms es (ws ++ vs)
  | oneof {o fs os ms es ws vs} (h : Oneof.Spelled o ws) (hs : Members R fs os ms es vs) :
      Members R fs (o :: os) ms es (ws ++ vs)
  | message {m fs os ms es ws vs} (h : R m ws) (hs : Members R fs os ms es vs) :
      Members R fs os (m :: ms) es (ws ++ vs)
  | enum {e fs os ms es ws vs} (h : Enum.Spelled e ws) (hs : Members R fs os ms es vs) :
      Members R fs os ms (e :: es) (ws ++ vs)

/-- `message name { members }` -/
inductive Message.Spelled : Message → List String → Prop
  | mk {m : Message} {body : List String} (hname : IsName m.name.toList)
      (h : Members Spelled m.fields m.oneofs m.messages m.enums body) :
      Spelled m (Braced "message" m.name body)

/-- The declarations of a file in any order: at most one dialect, package and module name. -/
inductive Schema.Spelled : Schema → List String → Prop
  | nil : Spelled {} []
  | dialect {s vs} {name w : String} (hs : Spelled s vs) (h : s.dialect = none)
      (hw : Literal name.toList w.toList) :
      Spelled { s with dialect := some name } (["syntax", "=", w, ";"] ++ vs)
  | package {s vs} {name : String} (hs : Spelled s vs) (h : s.package = "")
      (hname : Dotted name.toList) :
      Spelled { s with package := name } (["package", name, ";"] ++ vs)
  | moduleName {s vs} {name w : String} (hs : Spelled s vs) (h : s.moduleName = none)
      (hw : Literal name.toList w.toList) :
      Spelled { s with moduleName := some name } (["option", "rust_module", "=", w, ";"] ++ vs)
  | path {s vs mark} {imported w : String} (hs : Spelled s vs)
      (hm : mark = [] ∨ mark = ["public"] ∨ mark = ["weak"])
      (hw : Literal imported.toList w.toList) :
      Spelled { s with imports := imported :: s.imports } ("import" :: (mark ++ [w, ";"]) ++ vs)
  | message {s m ws vs} (hs : Spelled s vs) (h : Message.Spelled m ws) :
      Spelled { s with messages := m :: s.messages } (ws ++ vs)
  | enum {s e ws vs} (hs : Spelled s vs) (h : Enum.Spelled e ws) :
      Spelled { s with enums := e :: s.enums } (ws ++ vs)
  | service {s x ws vs} (hs : Spelled s vs) (h : Service.Spelled x ws) :
      Spelled { s with services := x :: s.services } (ws ++ vs)

/-- Words that are each cut off a text as one. -/
def Lexemes (ws : List String) : Prop := ∀ w ∈ ws, IsLexeme w.toList

namespace Lexemes

variable {w : String} {ws vs : List String}

theorem nil : Lexemes [] := by simp [Lexemes]

theorem cons (h : IsLexeme w.toList) (hs : Lexemes ws) : Lexemes (w :: ws) :=
  List.forall_mem_cons.2 ⟨h, hs⟩

theorem append (h : Lexemes ws) (hs : Lexemes vs) : Lexemes (ws ++ vs) :=
  List.forall_mem_append.2 ⟨h, hs⟩

theorem name (h : IsName w.toList) (hs : Lexemes ws) : Lexemes (w :: ws) :=
  hs.cons (isLexeme_dotted (.name h))

theorem reference (h : IsReference w) (hs : Lexemes ws) : Lexemes (w :: ws) := hs.cons h.isLexeme

theorem keyword (h : isIdentifier w = true) (hs : Lexemes ws) : Lexemes (w :: ws) :=
  hs.name (isIdentifier_iff.1 h)

theorem symbol {c : Char} (h : c ∈ symbols ∧ w.toList = [c]) (hs : Lexemes ws) :
    Lexemes (w :: ws) :=
  hs.cons (h.2 ▸ isLexeme_symbol h.1)

theorem numeral {n : Int} (h : Numeral n w.toList) (hs : Lexemes ws) : Lexemes (w :: ws) :=
  hs.cons (isLexeme_numeral h)

theorem literal {s : List Char} (h : Literal s w.toList) (hs : Lexemes ws) : Lexemes (w :: ws) :=
  hs.cons (isLexeme_literal h)

theorem semicolon (h : Lexemes ws) : Lexemes (";" :: ws) := h.symbol (c := ';') (by decide)

theorem equals (h : Lexemes ws) : Lexemes ("=" :: ws) := h.symbol (c := '=') (by decide)

theorem braced {name : String} (hw : isIdentifier w = true) (hname : IsName name.toList)
    (h : Lexemes ws) : Lexemes (Braced w name ws) :=
  ((h.append (nil.symbol (c := '\x7d') (by decide))).symbol (c := '\x7b') (by decide)).name hname
    |>.keyword hw

theorem ne_empty (h : Lexemes ws) : ∀ w ∈ ws, w ≠ "" := by
  rintro w hw rfl
  exact (next?_append (h "" hw [] stops_nil)).2 rfl

theorem listed {ι : Type} {R : ι → List String → Prop} {xs : List ι} (h : Listed R xs ws)
    (hR : ∀ x vs, R x vs → Lexemes vs) : Lexemes ws := by
  induction h with
  | nil => exact nil
  | cons hx _ ih => exact (hR _ _ hx).append ih

end Lexemes

theorem Constant.isLexeme {w : String} (h : Constant w) : IsLexeme w.toList := by
  cases h with
  | name h => exact h.isLexeme
  | numeral h => exact isLexeme_numeral h
  | literal h => exact isLexeme_literal h

theorem Setting.lexemes {b d : Bool} {ws : List String} (h : Setting b d ws) : Lexemes ws := by
  cases h with
  | flag => exact Lexemes.nil.keyword (by decide)
  | yes | no => exact (Lexemes.nil.keyword (by decide)).equals.keyword (by decide)
  | other hname _ hvalue => exact (Lexemes.nil.cons hvalue.isLexeme).equals.reference hname

theorem Settings.lexemes {b d : Bool} {ws : List String} (h : Settings b d ws) : Lexemes ws := by
  induction h with
  | last h => exact h.lexemes
  | cons h _ ih => exact h.lexemes.append (ih.symbol (c := ',') (by decide))

theorem Deprecation.lexemes {b : Bool} {ws : List String} (h : Deprecation b ws) : Lexemes ws := by
  cases h with
  | unsaid => exact .nil
  | said h =>
    have hclose : Lexemes ["]"] := Lexemes.nil.symbol (c := ']') (by decide)
    exact (h.lexemes.append hclose).symbol (c := '[') (by decide)

theorem Label.Spelled.lexemes {inOneof : Bool} {label : Label} {ws : List String}
    (h : label.Spelled inOneof ws) : Lexemes ws := by
  cases h with
  | implicit | member => exact .nil
  | required | requiredMember | optional | repeated => exact Lexemes.nil.keyword (by decide)

theorem Field.Spelled.lexemes {inOneof : Bool} {f : Field} {ws : List String}
    (h : f.Spelled inOneof ws) : Lexemes ws := by
  obtain ⟨hf, hl, hn, ho⟩ := h
  exact hl.lexemes.append
    ((((ho.lexemes.append Lexemes.nil.semicolon).numeral hn).equals.name hf.name).reference hf.type)

theorem Oneof.Spelled.lexemes {o : Oneof} {ws : List String} (h : o.Spelled ws) : Lexemes ws := by
  obtain ⟨hname, h⟩ := h
  exact .braced (by decide) hname (.listed h fun _ _ => Field.Spelled.lexemes)

theorem EnumValue.Spelled.lexemes {v : EnumValue} {ws : List String} (h : v.Spelled ws) :
    Lexemes ws := by
  obtain ⟨hv, hn, ho⟩ := h
  exact ((ho.lexemes.append Lexemes.nil.semicolon).numeral hn).equals.name hv.name

theorem Enum.Spelled.lexemes {e : Enum} {ws : List String} (h : e.Spelled ws) : Lexemes ws := by
  obtain ⟨hname, h⟩ := h
  exact .braced (by decide) hname (.listed h fun _ _ => EnumValue.Spelled.lexemes)

theorem Rpc.Spelled.lexemes {r : Rpc} {ws : List String} (h : r.Spelled ws) : Lexemes ws := by
  obtain @⟨close, hr, hc⟩ := h
  have hclose : Lexemes close := by
    rcases hc with rfl | rfl
    · exact Lexemes.nil.semicolon
    · exact (Lexemes.nil.symbol (c := '\x7d') (by decide)).symbol (c := '\x7b') (by decide)
  have hparen {w : String} {vs : List String} (hw : IsReference w) (hv : Lexemes vs) :
      Lexemes ("(" :: w :: ")" :: vs) :=
    ((hv.symbol (c := ')') (by decide)).reference hw).symbol (c := '(') (by decide)
  have hreturns := (hparen hr.response.1 hclose).keyword (w := "returns") (by decide)
  exact ((hparen hr.request.1 hreturns).name hr.name).keyword (by decide)

theorem Service.Spelled.lexemes {s : Service} {ws : List String} (h : s.Spelled ws) :
    Lexemes ws := by
  obtain ⟨hname, h⟩ := h
  exact .braced (by decide) hname (.listed h fun _ _ => Rpc.Spelled.lexemes)

theorem Members.lexemes {R : Message → List String → Prop} {fs : List Field} {os : List Oneof}
    {ms : List Message} {es : List Enum} {ws : List String} (h : Members R fs os ms es ws)
    (hR : ∀ m vs, vs.length ≤ ws.length → R m vs → Lexemes vs) : Lexemes ws := by
  induction h with
  | nil => exact .nil
  | field h _ ih => exact h.lexemes.append (ih fun m vs hle => hR m vs (by simp; omega))
  | oneof h _ ih => exact h.lexemes.append (ih fun m vs hle => hR m vs (by simp; omega))
  | message h _ ih =>
    exact (hR _ _ (by simp) h).append (ih fun m vs hle => hR m vs (by simp; omega))
  | enum h _ ih => exact h.lexemes.append (ih fun m vs hle => hR m vs (by simp; omega))

theorem Message.Spelled.lexemes {m : Message} {ws : List String} (h : m.Spelled ws) :
    Lexemes ws := by
  induction hn : ws.length using Nat.strongRecOn generalizing m ws with
  | ind n ih =>
    obtain ⟨hname, h⟩ := h
    refine .braced (by decide) hname (h.lexemes fun m' vs hle hm' => ih vs.length ?_ hm' rfl)
    simp only [Braced, List.length_cons, List.length_append] at hn
    omega

theorem Schema.Spelled.lexemes {s : Schema} {ws : List String} (h : s.Spelled ws) : Lexemes ws := by
  induction h with
  | nil => exact .nil
  | dialect _ _ hw ih => exact ((ih.semicolon.literal hw).equals).keyword (by decide)
  | package _ _ hname ih =>
    exact (ih.semicolon.cons (isLexeme_dotted hname)).keyword (by decide)
  | moduleName _ _ hw ih =>
    exact ((ih.semicolon.literal hw).equals.keyword (by decide)).keyword (by decide)
  | @path s vs mark imported w _ hm hw ih =>
    have hmark : Lexemes mark := by
      rcases hm with rfl | rfl | rfl
      · exact .nil
      · exact Lexemes.nil.keyword (w := "public") (by decide)
      · exact Lexemes.nil.keyword (w := "weak") (by decide)
    exact ((hmark.append (Lexemes.nil.semicolon.literal hw)).keyword (by decide)).append ih
  | message _ h ih => exact h.lexemes.append ih
  | enum _ h ih => exact h.lexemes.append ih
  | service _ h ih => exact h.lexemes.append ih

end ProtoSchema
