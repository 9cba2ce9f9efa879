import ProtoSchema.Proofs.Schema.Grammar
import ProtoSchema.Proofs.Token.Layout

/-! # Schemas that can be spelled

Every schema whose names, references and numbers are allowed has a spelling, and every spelling can
be laid out as a text.
-/

namespace ProtoSchema

open Piece Word

theorem exists_literal (s : String) : ∃ w : String, Literal s.toList w.toList :=
  ⟨literal '"' s, literal_spells (Or.inl rfl) s⟩

theorem exists_numeral (n : Int) : ∃ w : String, Numeral n w.toList := by
  obtain ⟨m, rfl | rfl⟩ := n.eq_nat_or_neg
  · refine ⟨String.ofList (Nat.toDigits 10 m), ?_⟩
    rw [String.toList_ofList]
    exact .plain (.decimal 0)
  · refine ⟨String.ofList ('-' :: Nat.toDigits 10 m), ?_⟩
    rw [String.toList_ofList]
    exact .minus (.decimal 0)

theorem exists_deprecation (b : Bool) : ∃ ws, Deprecation b ws := by
  cases b with
  | false => exact ⟨_, .unsaid⟩
  | true => exact ⟨_, .said (.last .yes)⟩

theorem forall_induction {ι : Type} {P : List ι → Prop} {Q : ι → Prop} {xs : List ι} (hnil : P [])
    (hcons : ∀ x xs, Q x → P xs → P (x :: xs)) (h : ∀ x ∈ xs, Q x) : P xs := by
  induction xs with
  | nil => exact hnil
  | cons x xs ih =>
    obtain ⟨hx, hxs⟩ := List.forall_mem_cons.1 h
    exact hcons x xs hx (ih hxs)

theorem exists_listed {ι : Type} {R : ι → List String → Prop} {xs : List ι}
    (h : ∀ x ∈ xs, ∃ ws, R x ws) : ∃ ws, Listed R xs ws := by
  refine forall_induction (P := fun xs => ∃ ws, Listed R xs ws) ⟨[], .nil⟩ ?_ h
  rintro x xs ⟨ws, hx⟩ ⟨vs, hxs⟩
  exact ⟨_, .cons hx hxs⟩

theorem Field.Allowed.exists_spelled {f : Field} (h : f.Allowed) {inOneof : Bool}
    {label : List String} (hl : f.label.Spelled inOneof label) : ∃ ws, f.Spelled inOneof ws := by
  obtain ⟨number, hn⟩ := exists_numeral f.number
  obtain ⟨options, ho⟩ := exists_deprecation f.deprecated
  exact ⟨_, .mk h hl hn ho⟩

theorem EnumValue.Allowed.exists_spelled {v : EnumValue} (h : v.Allowed) : ∃ ws, v.Spelled ws := by
  obtain ⟨number, hn⟩ := exists_numeral v.number
  obtain ⟨options, ho⟩ := exists_deprecation v.deprecated
  exact ⟨_, .mk h hn ho⟩

/-- Members of a oneof are optional and not repeated. -/
structure Oneof.Allowed (o : Oneof) : Prop where
  name : IsName o.name.toList
  fields : ∀ f ∈ o.fields, f.Allowed ∧ f.label = .optional

theorem Oneof.Allowed.exists_spelled {o : Oneof} (h : o.Allowed) : ∃ ws, o.Spelled ws := by
  have hfields : ∀ f ∈ o.fields, ∃ ws, f.Spelled true ws := by
    intro f hf
    obtain ⟨hallowed, hlabel⟩ := h.fields f hf
    have hmember : f.label.Spelled true [] := by
      rw [hlabel]
      exact .member
    exact hallowed.exists_spelled hmember
  obtain ⟨body, hbody⟩ := exists_listed hfields
  exact ⟨_, .mk h.name hbody⟩

structure Enum.Allowed (e : Enum) : Prop where
  name : IsName e.name.toList
  values : ∀ v ∈ e.values, v.Allowed

theorem Enum.Allowed.exists_spelled {e : Enum} (h : e.Allowed) : ∃ ws, e.Spelled ws := by
  obtain ⟨body, hbody⟩ := exists_listed fun v hv => (h.values v hv).exists_spelled
  exact ⟨_, .mk h.name hbody⟩

structure Service.Allowed (s : Service) : Prop where
  name : IsName s.name.toList
  rpcs : ∀ r ∈ s.rpcs, r.Allowed

theorem Service.Allowed.exists_spelled {s : Service} (h : s.Allowed) : ∃ ws, s.Spelled ws := by
  have hrpcs : ∀ r ∈ s.rpcs, ∃ ws, r.Spelled ws := fun r hr => ⟨_, .mk (h.rpcs r hr) (Or.inl rfl)⟩
  obtain ⟨body, hbody⟩ := exists_listed hrpcs
  exact ⟨_, .mk h.name hbody⟩

inductive Message.Allowed : Message → Prop
  | mk {m : Message} (name : IsName m.name.toList) (fields : ∀ f ∈ m.fields, f.Allowed)
      (oneofs : ∀ o ∈ m.oneofs, o.Allowed) (messages : ∀ n ∈ m.messages, Allowed n)
      (enums : ∀ e ∈ m.enums, e.Allowed) : Allowed m

theorem exists_members {fs : List Field} {os : List Oneof} {ms : List Message} {es : List Enum}
    (hf : ∀ f ∈ fs, ∃ ws, f.Spelled false ws) (ho : ∀ o ∈ os, ∃ ws, o.Spelled ws)
    (hm : ∀ m ∈ ms, ∃ ws, m.Spelled ws) (he : ∀ e ∈ es, ∃ ws, e.Spelled ws) :
    ∃ ws, Members Message.Spelled fs os ms es ws := by
  have henums : ∃ ws, Members Message.Spelled [] [] [] es ws := by
    refine forall_induction (P := fun es => ∃ ws, Members Message.Spelled [] [] [] es ws)
      ⟨_, .nil⟩ ?_ he
    rintro e es ⟨ws, h⟩ ⟨vs, hs⟩
    exact ⟨_, .enum h hs⟩
  have hmessages : ∃ ws, Members Message.Spelled [] [] ms es ws := by
    refine forall_induction
      (P := fun ms => ∃ ws, Members Message.Spelled [] [] ms es ws) henums ?_ hm
    rintro m ms ⟨ws, h⟩ ⟨vs, hs⟩
    exact ⟨_, .message h hs⟩
  have honeofs : ∃ ws, Members Message.Spelled [] os ms es ws := by
    refine forall_induction
      (P := fun os => ∃ ws, Members Message.Spelled [] os ms es ws) hmessages ?_ ho
    rintro o os ⟨ws, h⟩ ⟨vs, hs⟩
    exact ⟨_, .oneof h hs⟩
  refine forall_induction
    (P := fun fs => ∃ ws, Members Message.Spelled fs os ms es ws) honeofs ?_ hf
  rintro f fs ⟨ws, h⟩ ⟨vs, hs⟩
  exact ⟨_, .field h hs⟩

theorem Message.Allowed.exists_spelled {m : Message} (h : m.Allowed) : ∃ ws, m.Spelled ws := by
  induction h with
  | mk name fields oneofs _ enums ih =>
    have hlabel (label : Label) : ∃ ws, label.Spelled false ws := by
      cases label with
      | implicit => exact ⟨_, .implicit⟩
      | optional => exact ⟨_, .optional false⟩
      | repeated => exact ⟨_, .repeated⟩
    obtain ⟨body, hbody⟩ := exists_members
      (fun f hf => (fields f hf).exists_spelled (hlabel f.label).choose_spec)
      (fun o ho => (oneofs o ho).exists_spelled) ih (fun e he => (enums e he).exists_spelled)
    exact ⟨_, .mk name hbody⟩

/-- Schemas with allowed declarations; the package is missing or a dotted name. -/
structure Schema.Allowed (s : Schema) : Prop where
  package : s.package = "" ∨ Dotted s.package.toList
  messages : ∀ m ∈ s.messages, m.Allowed
  enums : ∀ e ∈ s.enums, e.Allowed
  services : ∀ x ∈ s.services, x.Allowed
  diagnostics : s.diagnostics = []

theorem Schema.Allowed.exists_spelled {s : Schema} (h : s.Allowed) : ∃ ws, s.Spelled ws := by
  obtain ⟨dialect, package, moduleName, imports, messages, enums, services, diagnostics⟩ := s
  obtain ⟨hpackage, hmessages, henums, hservices, hdiagnostics⟩ := h
  subst hdiagnostics
  have hdeclared : ∃ ws, Schema.Spelled { services } ws := by
    refine forall_induction (P := fun services => ∃ ws, Schema.Spelled { services } ws) ⟨_, .nil⟩ ?_
      fun x hx => (hservices x hx).exists_spelled
    rintro x xs ⟨ws, h⟩ ⟨vs, hs⟩
    exact ⟨_, hs.service h⟩
  have hdeclared : ∃ ws, Schema.Spelled { enums, services } ws := by
    refine forall_induction (P := fun enums => ∃ ws, Schema.Spelled { enums, services } ws)
      hdeclared ?_ fun e he => (henums e he).exists_spelled
    rintro e es ⟨ws, h⟩ ⟨vs, hs⟩
    exact ⟨_, hs.enum h⟩
  have hdeclared : ∃ ws, Schema.Spelled { messages, enums, services } ws := by
    refine forall_induction
      (P := fun messages => ∃ ws, Schema.Spelled { messages, enums, services } ws)
      hdeclared ?_ fun m hm => (hmessages m hm).exists_spelled
    rintro m ms ⟨ws, h⟩ ⟨vs, hs⟩
    exact ⟨_, hs.message h⟩
  have hdeclared : ∃ ws, Schema.Spelled { imports, messages, enums, services } ws := by
    refine forall_induction
      (P := fun imports => ∃ ws, Schema.Spelled { imports, messages, enums, services } ws)
      hdeclared ?_ fun i _ => exists_literal i
    rintro i is ⟨w, hw⟩ ⟨vs, hs⟩
    exact ⟨_, hs.path (Or.inl rfl) hw⟩
  have hdeclared : ∃ ws, Schema.Spelled { moduleName, imports, messages, enums, services } ws := by
    cases moduleName with
    | none => exact hdeclared
    | some name =>
      obtain ⟨ws, hws⟩ := hdeclared
      obtain ⟨w, hw⟩ := exists_literal name
      exact ⟨_, hws.moduleName rfl hw⟩
  have hdeclared : ∃ ws, Schema.Spelled
      { package, moduleName, imports, messages, enums, services } ws := by
    dsimp only at hpackage
    rcases hpackage with rfl | hname
    · exact hdeclared
    · obtain ⟨ws, hws⟩ := hdeclared
      exact ⟨_, hws.package rfl hname⟩
  cases dialect with
  | none => exact hdeclared
  | some name =>
    obtain ⟨ws, hws⟩ := hdeclared
    obtain ⟨w, hw⟩ := exists_literal name
    exact ⟨_, hws.dialect rfl hw⟩

/-- The text is the schema, spelled and laid out. -/
def Schema.Written (s : Schema) (text : String) : Prop :=
  ∃ ws, s.Spelled ws ∧ Layout ws text.toList

theorem Schema.Allowed.exists_written {s : Schema} (h : s.Allowed) : ∃ text, s.Written text := by
  obtain ⟨ws, hws⟩ := h.exists_spelled
  refine ⟨String.ofList (ws.flatMap fun w => w.toList ++ [' ']), ws, hws, ?_⟩
  rw [String.toList_ofList]
  exact .spaced ws

end ProtoSchema
