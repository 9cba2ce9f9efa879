import ProtoSchema.Proofs.Schema.Concatenation
import ProtoSchema.Proofs.Token.Longest
import ProtoSchema.Proofs.TypeRef.Resolve

/-! # Names and types that are read

Whatever is declared has an identifier for its name: types and their parts, services and rpcs. The
types of fields and rpcs are references, a package is a dotted name, and the members of a oneof are
optional. So the path to a type that was read is made of identifiers.
-/

namespace ProtoSchema

open Reader Word

theorem yields_block {ι : Type} {P : ι → Prop} {statement : Reader (Noted (Option ι))}
    (hs : statement.Yields fun item => ∀ x ∈ item.value, P x) (keyword description : String) :
    (block keyword description statement).Yields fun x =>
      isIdentifier x.1.text = true ∧ ∀ y ∈ x.2.value, P y :=
  (yields_any _).bind fun _ _ => (yields_token _ _).bind fun _ hname =>
    (yields_any _).bind fun _ _ => (yields_statements hs true).bind fun _ hitems =>
      .pure ⟨hname, hitems⟩

theorem exists_of_covers {rule : List Char → Option (List Char × List Char)} {text : String}
    (h : covers rule text = true) : ∃ cs, rule text.toList = some (cs, []) := by
  unfold covers at h
  split at h
  · next cs hcs => exact ⟨cs, hcs⟩
  · cases h

theorem dotted_of_isPackageName {text : String} (h : isPackageName text = true) :
    Piece.Dotted text.toList := by
  obtain ⟨cs, hcs⟩ := exists_of_covers h
  obtain ⟨heq, -⟩ := Piece.name?_append hcs
  rw [← heq, List.append_nil]
  exact Piece.takesLongest_name.sound hcs

theorem isReference_of_isTypeName {text : String} (h : isTypeName text = true) :
    IsReference text := by
  obtain ⟨cs, hcs⟩ := exists_of_covers h
  obtain ⟨heq, -⟩ := Piece.typeName?_append hcs
  rw [List.append_nil] at heq
  rcases Piece.takesLongest_typeName.sound hcs with hd | hd
  · exact .inl (heq ▸ hd)
  · exact .inr ⟨_, hd, heq.symm⟩

theorem yields_typeName (description : String) :
    (typeName description).Yields fun t => IsReference t.text :=
  fun _ _ _ _ h => isReference_of_isTypeName (yields_token _ _ _ _ _ _ h)

/-- A field has an identifier for its name and a reference for its type. -/
structure Field.Shaped (f : Field) : Prop where
  name : isIdentifier f.name = true
  type : IsReference f.type

structure Rpc.Shaped (r : Rpc) : Prop where
  name : isIdentifier r.name = true
  request : IsReference r.request
  response : IsReference r.response

theorem Label.yields_reader (inOneof : Bool) :
    (Label.reader inOneof).Yields fun label => inOneof = true → label = .optional := by
  refine (yields_any _).bind fun isRepeated _ => ?_
  cases isRepeated with
  | true =>
    cases inOneof with
    | true => exact yields_fail _
    | false => exact (yields_any _).bind fun _ _ => .pure (by simp)
  | false =>
    refine (yields_any _).bind fun isOptional _ => ?_
    cases isOptional with
    | true => exact .pure fun _ => rfl
    | false => exact (yields_any _).bind fun _ _ => .pure fun h => by rw [h]; rfl

/-- The members of a oneof are optional, whether they say so or not. -/
theorem Field.yields_reader (inOneof : Bool) :
    (Field.reader inOneof).Yields fun f => f.Shaped ∧ (inOneof = true → f.label = .optional) := by
  refine (Label.yields_reader inOneof).bind fun _ hlabel => (yields_any _).bind fun what _ => ?_
  cases what with
  | some what => exact yields_fail _
  | none =>
    exact (yields_typeName _).bind fun _ htype => (yields_token _ _).bind fun _ hname =>
      (yields_any _).bind fun _ _ => (yields_any _).bind fun _ _ => (yields_any _).bind fun _ _ =>
        (yields_any _).bind fun _ _ => .pure ⟨⟨hname, htype⟩, hlabel⟩

theorem EnumValue.yields_reader : EnumValue.reader.Yields fun v => isIdentifier v.name = true :=
  (yields_token _ _).bind fun _ hname => (yields_any _).bind fun _ _ =>
    (yields_any _).bind fun _ _ => (yields_any _).bind fun _ _ => (yields_any _).bind fun _ _ =>
      .pure hname

theorem Rpc.yields_reader : Rpc.reader.Yields Rpc.Shaped := by
  refine (yields_any _).bind fun start _ => (yields_token _ _).bind fun name hname => ?_
  refine (yields_any _).bind fun _ _ => (yields_any _).bind fun streamsIn _ => ?_
  refine (yields_typeName _).bind fun request hrequest => (yields_any _).bind fun _ _ => ?_
  refine (yields_any _).bind fun _ _ => (yields_any _).bind fun _ _ => ?_
  refine (yields_any _).bind fun streamsOut _ =>
    (yields_typeName _).bind fun response hresponse => ?_
  refine (yields_any _).bind fun _ _ => (yields_any _).bind fun next _ => ?_
  have hlast : Reader.Yields (if streamsIn || streamsOut then failAt start.position .streaming
      else return (⟨name.text, request.text, response.text⟩ : Rpc)) Rpc.Shaped := by
    split
    · exact fun _ _ _ _ h => nomatch h
    · exact .pure ⟨hname, hrequest, hresponse⟩
  cases next with
  | true => exact (yields_any _).bind fun _ _ => hlast
  | false => exact (yields_any _).bind fun _ _ => hlast

/-- A oneof and its members have identifiers for names. -/
structure Oneof.Named (o : Oneof) : Prop where
  name : isIdentifier o.name = true
  fields : ∀ f ∈ o.fields, isIdentifier f.name = true

structure Enum.Named (e : Enum) : Prop where
  name : isIdentifier e.name = true
  values : ∀ v ∈ e.values, isIdentifier v.name = true

structure Service.Named (s : Service) : Prop where
  name : isIdentifier s.name = true
  rpcs : ∀ r ∈ s.rpcs, isIdentifier r.name = true

/-- A message and its own parts have identifiers for names. The types inside are not looked at. -/
structure Message.Named (m : Message) : Prop where
  name : isIdentifier m.name = true
  fields : ∀ f ∈ m.fields, isIdentifier f.name = true
  oneofs : ∀ o ∈ m.oneofs, o.Named

def TypeDef.Named : TypeDef → Prop
  | message m => m.Named
  | enum e => e.Named

/-- A oneof has members of the right shape, and all of them are optional. -/
structure Oneof.Shaped (o : Oneof) : Prop where
  name : isIdentifier o.name = true
  members : ∀ f ∈ o.fields, f.Shaped ∧ f.label = .optional

structure Service.Shaped (v : Service) : Prop where
  name : isIdentifier v.name = true
  rpcs : ∀ r ∈ v.rpcs, r.Shaped

/-- A message has parts of the right shape. The types inside are not looked at. -/
structure Message.Shaped (m : Message) : Prop where
  name : isIdentifier m.name = true
  fields : ∀ f ∈ m.fields, f.Shaped
  labels : ∀ f ∈ m.fields, ¬ (f.label = .optional ∧ f.label = .repeated)
  oneofs : ∀ o ∈ m.oneofs, o.Shaped

def TypeDef.Shaped : TypeDef → Prop
  | message m => m.Shaped
  | enum e => e.Named

theorem Oneof.Shaped.named {o : Oneof} (h : o.Shaped) : o.Named :=
  ⟨h.name, fun f hf => (h.members f hf).1.name⟩

theorem Service.Shaped.named {v : Service} (h : v.Shaped) : v.Named :=
  ⟨h.name, fun r hr => (h.rpcs r hr).name⟩

theorem TypeDef.Shaped.named {d : TypeDef} (h : d.Shaped) : d.Named := by
  cases d with
  | message m => exact ⟨h.name, fun f hf => (h.fields f hf).name, fun o ho => (h.oneofs o ho).named⟩
  | enum e => exact h

theorem Oneof.yields_reader : Oneof.reader.Yields fun o => o.value.Shaped := by
  have hstatement : Oneof.statement.Yields fun item => ∀ f ∈ item.value,
      f.Shaped ∧ (true = true → f.label = .optional) := by
    refine yields_byWord fun w => ?_
    split
    · exact yields_nothing _
    · split
      · exact yields_nothing _
      · exact yields_declares (Field.yields_reader true)
  refine (yields_block hstatement _ _).bind fun _ h => .pure ⟨h.1, fun f hf => ?_⟩
  exact ⟨(h.2 f hf).1, (h.2 f hf).2 rfl⟩

theorem Enum.yields_reader : Enum.reader.Yields fun e => e.value.Named := by
  have hstatement : Enum.statement.Yields fun item => ∀ v ∈ item.value,
      isIdentifier v.name = true := by
    refine yields_byWord fun w => ?_
    split
    · exact yields_nothing _
    · split
      · exact yields_nothing _
      · exact yields_declares EnumValue.yields_reader
  exact (yields_block hstatement _ _).bind fun _ h => .pure ⟨h.1, h.2⟩

theorem Service.yields_reader : Service.reader.Yields fun s => s.value.Shaped := by
  have hstatement : Service.statement.Yields fun item => ∀ r ∈ item.value, r.Shaped := by
    refine yields_byWord fun w => ?_
    split
    · exact yields_nothing _
    · split
      · exact yields_nothing _
      · split
        · exact yields_declares Rpc.yields_reader
        · exact yields_fail _
  exact (yields_block hstatement _ _).bind fun _ h => .pure ⟨h.1, h.2⟩

theorem Declared.shaped {ms : List Message} {es : List Enum} {path : List String} {d : TypeDef}
    (h : Declared ms es path d) (hms : ∀ m ∈ ms, ∀ path d, Declared [m] [] path d → d.Shaped)
    (hes : ∀ e ∈ es, e.Named) : d.Shaped := by
  cases h with
  | message hm => exact hms _ hm _ _ (.message (List.mem_singleton_self _))
  | enum he => exact hes _ he
  | inner hm h => exact hms _ hm _ _ (.inner (List.mem_singleton_self _) h)

theorem Declared.isIdentifier {ms : List Message} {es : List Enum} {path : List String}
    {d : TypeDef} (h : Declared ms es path d)
    (hnamed : ∀ path d, Declared ms es path d → d.Named) :
    ∀ name ∈ path, Word.isIdentifier name = true := by
  induction h with
  | message hm => exact List.forall_mem_singleton.2 (hnamed _ _ (.message hm)).name
  | enum he => exact List.forall_mem_singleton.2 (hnamed _ _ (.enum he)).name
  | inner hm _ ih =>
    exact List.forall_mem_cons.2 ⟨(hnamed _ _ (.message hm)).name,
      ih fun path d hd => hnamed _ d (.inner hm hd)⟩

namespace Member

def Shaped : Member → Prop
  | field f => f.Shaped
  | oneof o => o.Shaped
  | message m => ∀ path d, Declared [m] [] path d → d.Shaped
  | enum e => e.Named

theorem yields_noted {α : Type} {wrap : α → Member} {r : Reader (Noted α)}
    (hr : r.Yields fun x => (wrap x.value).Shaped) :
    (noted wrap r).Yields fun item => ∀ x ∈ item.value, x.Shaped :=
  hr.bind fun _ hx => .pure (by simpa using hx)

theorem yields_statement {nested : Reader (Noted Message)}
    (h : nested.Yields fun m => (message m.value).Shaped) :
    (statement nested).Yields fun item => ∀ x ∈ item.value, x.Shaped := by
  refine yields_byWord fun w => ?_
  split
  · exact yields_noted h
  · split
    · exact yields_noted Enum.yields_reader
    · split
      · exact yields_noted Oneof.yields_reader
      · split
        · exact yields_nothing _
        · split
          · exact yields_fail _
          · split
            · exact yields_fail _
            · split
              · exact yields_nothing _
              · exact (Field.yields_reader false).bind fun f hf =>
                  .pure (by simpa [Shaped] using hf.1)

theorem Shaped.ofMembers {name : Token} {xs : List Member} (hname : isIdentifier name.text = true)
    (h : ∀ x ∈ xs, x.Shaped) : (message (Message.ofMembers name xs)).Shaped := by
  intro path d hd
  cases hd with
  | message hm =>
    obtain rfl := List.mem_singleton.1 hm
    refine ⟨hname, List.forall_mem_filterMap.2 fun x hx f hf => ?_, fun f _ hlabels => ?_,
      List.forall_mem_filterMap.2 fun x hx o ho => ?_⟩
    · cases x <;> cases hf
      exact h _ hx
    · cases hlabels.1.symm.trans hlabels.2
    · cases x <;> cases ho
      exact h _ hx
  | enum he => cases he
  | inner hm hd =>
    obtain rfl := List.mem_singleton.1 hm
    refine hd.shaped (List.forall_mem_filterMap.2 fun x hx m hm => ?_)
      (List.forall_mem_filterMap.2 fun x hx e he => ?_)
    · cases x <;> cases hm
      exact h _ hx
    · cases x <;> cases he
      exact h _ hx

end Member

theorem Message.yields_readerWithin (depth : Nat) :
    (Message.readerWithin depth).Yields fun m => (Member.message m.value).Shaped := by
  induction depth with
  | zero =>
    intro stop ts m us h
    cases ts <;> cases h
  | succ depth ih =>
    exact (yields_block (Member.yields_statement ih) _ _).bind fun _ h =>
      .pure (Member.Shaped.ofMembers h.1 h.2)

theorem Message.yields_reader :
    Message.reader.Yields fun m => (Member.message m.value).Shaped :=
  fun stop ts => Message.yields_readerWithin ts.length stop ts

def Declaration.Shaped : Declaration → Prop
  | package name => Piece.Dotted name.toList
  | message m => ∀ path d, Declared [m] [] path d → d.Shaped
  | enum e => e.Named
  | service s => s.Shaped
  | _ => True

theorem Declaration.yields_shaped :
    Declaration.statement.Yields fun item => ∀ x ∈ item.value, x.Shaped :=
  yields_statement_of (fun _ => trivial) (fun _ => dotted_of_isPackageName) (fun _ => trivial)
    (fun _ => trivial) Message.yields_reader Enum.yields_reader Service.yields_reader

namespace Schema

theorem exists_statements {tokens : List Token} {s : Schema} (h : Schema.parse tokens = .ok s) :
    ∃ stop body ds rest,
      ProtoSchema.statements false Declaration.statement stop body = .ok ds rest ∧
      s = ofDeclarations ds.value ds.notes := by
  rw [parse, ofTokens] at h
  split at h
  · next hs =>
    cases h
    split at hs
    · dsimp only at hs
      split at hs
      · next ds rest hds =>
        cases hs
        exact ⟨_, _, ds, rest, hds, rfl⟩
      · cases hs
    · cases hs
  · cases h
  · cases h

/-- All types, at any depth, and all services have identifiers for names, and so do their parts. -/
structure Named (s : Schema) : Prop where
  types : ∀ path d, s.Declares path d → d.Named
  services : ∀ v ∈ s.services, v.Named

/-- All types, at any depth, and all services have the right shape, and the package is a dotted
name. -/
structure Shaped (s : Schema) : Prop where
  package : s.package = "" ∨ Piece.Dotted s.package.toList
  types : ∀ path d, s.Declares path d → d.Shaped
  services : ∀ v ∈ s.services, v.Shaped

theorem Shaped.named {s : Schema} (h : s.Shaped) : s.Named :=
  ⟨fun path d hd => (h.types path d hd).named, fun v hv => (h.services v hv).named⟩

theorem Shaped.ofDeclarations {ds : List Declaration} (h : ∀ x ∈ ds, x.Shaped)
    (notes : List Diagnostic) : (Schema.ofDeclarations ds notes).Shaped := by
  refine ⟨?_, fun path d hd => ?_, List.forall_mem_filterMap.2 fun x hx v hv => ?_⟩
  · rcases List.eq_nil_or_concat (ds.filterMap Declaration.package?) with hnil | ⟨front, name, hlast⟩
    · exact .inl (by simp [Schema.ofDeclarations, hnil])
    · have hpackage : (Schema.ofDeclarations ds notes).package = name := by
        simp [Schema.ofDeclarations, hlast]
      have hname : name ∈ ds.filterMap Declaration.package? := by simp [hlast]
      obtain ⟨x, hx, hxname⟩ := List.mem_filterMap.1 hname
      rw [hpackage]
      cases x <;> cases hxname
      exact .inr (h _ hx)
  · refine Declared.shaped hd (List.forall_mem_filterMap.2 fun x hx m hm => ?_)
      (List.forall_mem_filterMap.2 fun x hx e he => ?_)
    · cases x <;> cases hm
      exact h _ hx
    · cases x <;> cases he
      exact h _ hx
  · cases x <;> cases hv
    exact h _ hx

theorem shaped_of_parse {tokens : List Token} {s : Schema} (h : Schema.parse tokens = .ok s) :
    s.Shaped := by
  obtain ⟨stop, body, ds, rest, hds, rfl⟩ := exists_statements h
  exact .ofDeclarations (yields_statements Declaration.yields_shaped false _ _ _ _ hds) _

end Schema

namespace Batch

variable {b : Batch}

theorem Accepted.named (hb : b.Accepted) {fileId : String} {s : Schema}
    (hs : (fileId, s) ∈ b.files) : s.Named := by
  obtain ⟨text, htext⟩ := hb _ hs
  obtain ⟨u, hread, hcheck⟩ := bind_eq_ok.1 htext
  obtain rfl : u = s := by
    split at hcheck <;> cases hcheck
    rfl
  rw [Schema.read] at hread
  split at hread
  · exact (Schema.shaped_of_parse hread).named
  · cases hread

theorem Declares.isIdentifier {p : TypePath} {d : TypeDef} (hb : b.Accepted)
    (h : b.Declares p d) : ∀ name ∈ p.segments, Word.isIdentifier name = true := by
  obtain ⟨s, hs, hd⟩ := h
  exact Declared.isIdentifier hd (hb.named hs).types

end Batch

end ProtoSchema
