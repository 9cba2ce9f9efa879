import ProtoSchema.Proofs.Plan.Distinct

/-! # Why a file is not generated

A plan fails for the sake of one reference that does not resolve, or of two rpcs that become one
method. If there is no such thing in a file, its plan is made, and all the types in it are those of
resolved references.
-/

namespace ProtoSchema

/-- A reference of a message or of the messages inside it. -/
def Message.Refers (m : Message) : List String → List String → String → Prop :=
  Schema.Refers { messages := [m] }

namespace Message.Refers

variable {m n : Message} {scope mods : List String} {reference : String}

theorem ofSchema {s : Schema} (hm : m ∈ s.messages) (h : m.Refers scope mods reference) :
    s.Refers scope mods reference := by
  have hdeclares {path : List String} {d : TypeDef}
      (hd : Schema.Declares { messages := [m] } path d) : s.Declares path d :=
    Declared.mono hd (by simpa using hm) (List.nil_subset _)
  cases h with
  | field hd hf => exact .field (hdeclares hd) hf
  | accessor hd ho hf => exact .accessor (hdeclares hd) ho hf
  | variant hd ho hf => exact .variant (hdeclares hd) ho hf
  | request hv => cases hv
  | response hv => cases hv

theorem inside (hn : n ∈ m.messages) (h : n.Refers scope mods reference) :
    m.Refers (m.name :: scope) (Naming.moduleIdent m.name :: mods) reference := by
  have hdeclares {path : List String} {d : TypeDef}
      (hd : Schema.Declares { messages := [n] } path d) :
      Schema.Declares { messages := [m] } (m.name :: path) d :=
    .inner (List.mem_singleton_self m)
      (Declared.mono hd (by simpa using hn) (List.nil_subset _))
  have hmods {path : List String} {d : TypeDef}
      (hd : Schema.Declares { messages := [n] } path d) :
      Naming.moduleIdent m.name :: path.dropLast.map Naming.moduleIdent =
        (m.name :: path).dropLast.map Naming.moduleIdent := by
    rw [List.dropLast_cons_of_ne_nil hd.ne_nil, List.map_cons]
  cases h with
  | field hd hf =>
    rw [hmods hd]
    exact .field (hdeclares hd) hf
  | accessor hd ho hf =>
    rw [hmods hd]
    exact .accessor (hdeclares hd) ho hf
  | variant hd ho hf => exact .variant (hdeclares hd) ho hf
  | request hv => cases hv
  | response hv => cases hv

theorem own_field {f : Field} (hf : f ∈ m.fields) : m.Refers [m.name] [] f.type :=
  .field (.message (List.mem_singleton_self m)) hf

theorem own_accessor {o : Oneof} {f : Field} (ho : o ∈ m.oneofs) (hf : f ∈ o.fields) :
    m.Refers [m.name] [] f.type :=
  .accessor (.message (List.mem_singleton_self m)) ho hf

theorem own_variant {o : Oneof} {f : Field} (ho : o ∈ m.oneofs) (hf : f ∈ o.fields) :
    m.Refers [m.name] [Naming.moduleIdent m.name] f.type :=
  .variant (.message (List.mem_singleton_self m)) ho hf

end Message.Refers

namespace Plan

variable {b : Batch} {fileId package : String} {parents scope mods : List String} {e : Error}

theorem field_eq_error {f : Field} :
    field b fileId scope mods f = .error e ↔ b.resolve f.type fileId scope = .error e := by
  simp [field, bind_eq_error, pure, Except.pure]

theorem member_eq_error {f : Field} {innerMods : List String} :
    member b fileId scope mods innerMods f = .error e ↔
      b.resolve f.type fileId scope = .error e := by
  simp [member, bind_eq_error, pure, Except.pure]

theorem exists_of_oneof_error {m : Message} {o : Oneof}
    (h : oneof b fileId parents m o = .error e) :
    ∃ f ∈ o.fields, b.resolve f.type fileId (parents ++ [m.name]) = .error e := by
  rcases bind_eq_error.1 h with h | ⟨members, -, h⟩
  · obtain ⟨f, hf, he⟩ := exists_of_mapM_error h
    exact ⟨f, hf, member_eq_error.1 he⟩
  · cases h

theorem message_eq_error {m : Message} (h : message b fileId package parents m = .error e) :
    (∃ mods reference, m.Refers [m.name] mods reference ∧
      b.resolve reference fileId (parents ++ [m.name]) = .error e) ∨
    messages b fileId package (parents ++ [m.name]) m.messages = .error e := by
  obtain ⟨name, position, fields, oneofs, messages, enums⟩ := m
  rw [message] at h
  rcases bind_eq_error.1 h with hfields | ⟨fields', -, h⟩
  · obtain ⟨f, hf, he⟩ := exists_of_mapM_error hfields
    exact .inl ⟨_, _, .own_field hf, field_eq_error.1 he⟩
  rcases bind_eq_error.1 h with honeofs | ⟨oneofs', -, h⟩
  · obtain ⟨o, ho, he⟩ := exists_of_mapM_error honeofs
    have honeof : oneof b fileId parents ⟨name, position, fields, oneofs, messages, enums⟩ o =
      .error e := he
    obtain ⟨f, hf, he⟩ := exists_of_oneof_error honeof
    exact .inl ⟨_, _, .own_accessor ho hf, he⟩
  rcases bind_eq_error.1 h with hmessages | ⟨messages', -, h⟩
  · exact .inr hmessages
  · cases h

mutual

/-- Behind the error of a message is a reference of it, or of a message inside it at any depth. -/
theorem exists_of_message_error : ∀ (m : Message) (parents : List String),
    message b fileId package parents m = .error e → ∃ scope mods reference,
      m.Refers scope mods reference ∧ b.resolve reference fileId (parents ++ scope) = .error e
  | ⟨name, position, fields, oneofs, messages, enums⟩, parents, h => by
    rcases message_eq_error h with ⟨mods, reference, hr, he⟩ | h
    · exact ⟨_, mods, reference, hr, he⟩
    · obtain ⟨n, hn, scope, mods, reference, hr, he⟩ := exists_of_messages_error messages _ h
      rw [List.append_assoc, List.singleton_append] at he
      exact ⟨_, _, reference, hr.inside hn, he⟩

theorem exists_of_messages_error : ∀ (ms : List Message) (parents : List String),
    messages b fileId package parents ms = .error e → ∃ m ∈ ms, ∃ scope mods reference,
      m.Refers scope mods reference ∧ b.resolve reference fileId (parents ++ scope) = .error e
  | [], _, h => by cases h
  | m :: ms, parents, h => by
    rw [messages] at h
    rcases bind_eq_error.1 h with hm | ⟨first, -, h⟩
    · exact ⟨m, List.mem_cons_self, exists_of_message_error m parents hm⟩
    rcases bind_eq_error.1 h with hms | ⟨rest, -, h⟩
    · obtain ⟨n, hn, hrest⟩ := exists_of_messages_error ms parents hms
      exact ⟨n, List.mem_cons_of_mem m hn, hrest⟩
    · cases h

end

theorem exists_of_rpc_error {service : String} {r : Rpc}
    (h : rpc b fileId service r = .error e) :
    b.resolve r.request fileId [service, r.name] = .error e ∨
      b.resolve r.response fileId [service, r.name] = .error e := by
  rcases bind_eq_error.1 h with h | ⟨x, -, h⟩
  · exact .inl h
  rcases bind_eq_error.1 h with h | ⟨y, -, h⟩
  · exact .inr h
  · cases h

/-- Two rpcs of a service, in their order, become one method. -/
inductive Clash (v : Service) : Error → Prop
  | mk {r r' : Rpc} (hr : [r, r'].Sublist v.rpcs) (h : rpcIdent r.name = rpcIdent r'.name) :
      Clash v (.defect (.methodTwice v.name r.name r'.name (rpcIdent r'.name)))

theorem Clash.not_nodup {v : Service} (h : Clash v e) :
    ¬ (v.rpcs.map (rpcIdent ·.name)).Nodup := by
  obtain ⟨hr, hname⟩ := h
  intro hnodup
  have hpair := hnodup.sublist (hr.map _)
  rw [List.map_cons, List.map_singleton, List.nodup_cons] at hpair
  exact hpair.1 (List.mem_singleton.2 hname)

/-- The methods seen so far are those of the rpcs before, the last one first. -/
theorem exists_of_checkMethods_error {service : String} {rs : List Rpc} (before : List Rpc)
    (h : checkMethods service (before.map fun r => (rpcIdent r.name, r.name)) rs = .error e) :
    Clash ⟨service, before.reverse ++ rs⟩ e := by
  induction rs generalizing before with
  | nil => cases h
  | cons r rs ih =>
    rw [checkMethods] at h
    split at h
    · next other hother =>
      cases h
      obtain ⟨front, rest, hsplit, -⟩ := List.lookup_eq_some_iff.1 hother
      obtain ⟨q, hq, heq⟩ := List.mem_map.1 (hsplit ▸ List.mem_append_right front List.mem_cons_self)
      obtain ⟨hident, rfl⟩ := Prod.mk.inj heq
      refine .mk ?_ hident
      have hfirst : [q].Sublist before.reverse := List.singleton_sublist.2 (List.mem_reverse.2 hq)
      have hsecond : [r].Sublist (r :: rs) := List.singleton_sublist.2 List.mem_cons_self
      exact hfirst.append hsecond
    · have hnext := ih (r :: before) h
      rwa [List.reverse_cons, List.append_assoc, List.singleton_append] at hnext

theorem checkMethods_eq_ok_iff {v : Service} :
    checkMethods v.name [] v.rpcs = .ok () ↔ (v.rpcs.map (rpcIdent ·.name)).Nodup := by
  constructor
  · exact fun h => (nodup_of_checkMethods h).1
  · intro hnodup
    cases h : checkMethods v.name [] v.rpcs with
    | ok u => rfl
    | error e => exact absurd hnodup (exists_of_checkMethods_error [] h).not_nodup

end Plan

namespace Batch

/-- All that the code of a file needs is there. -/
structure Complete (b : Batch) (fileId : String) (s : Schema) : Prop where
  references : ∀ scope mods reference, s.Refers scope mods reference →
    ∃ x, b.resolve reference fileId scope = .ok x
  methods : ∀ v ∈ s.services, (v.rpcs.map (Plan.rpcIdent ·.name)).Nodup

/-- What keeps a file from being generated, with the error that says so. -/
inductive Fault (b : Batch) (fileId : String) (s : Schema) : Error → Prop
  | reference {scope mods : List String} {reference : String} {e : Error}
      (hr : s.Refers scope mods reference) (he : b.resolve reference fileId scope = .error e) :
      Fault b fileId s e
  | methods {v : Service} {e : Error} (hv : v ∈ s.services) (he : Plan.Clash v e) :
      Fault b fileId s e

variable {b : Batch} {fileId : String} {s : Schema} {e : Error}

theorem Fault.not_complete (h : b.Fault fileId s e) : ¬ b.Complete fileId s := by
  rintro ⟨hreferences, hmethods⟩
  cases h with
  | reference hr he =>
    obtain ⟨x, hx⟩ := hreferences _ _ _ hr
    rw [he] at hx
    cases hx
  | methods hv he => exact he.not_nodup (hmethods _ hv)

theorem fault_of_file_error (h : Plan.file b fileId s = .error e) : b.Fault fileId s e := by
  rcases bind_eq_error.1 h with hms | ⟨ms, -, h⟩
  · obtain ⟨m, hm, scope, mods, reference, hr, he⟩ := Plan.exists_of_messages_error _ _ hms
    exact .reference (hr.ofSchema hm) he
  rcases bind_eq_error.1 h with hvs | ⟨vs, -, h⟩
  · obtain ⟨v, hv, he⟩ := exists_of_mapM_error hvs
    rcases bind_eq_error.1 he with hmethods | ⟨_, -, he⟩
    · exact .methods hv (Plan.exists_of_checkMethods_error [] hmethods)
    rcases bind_eq_error.1 he with hrpcs | ⟨rpcs, -, he⟩
    · obtain ⟨r, hr, he⟩ := exists_of_mapM_error hrpcs
      rcases Plan.exists_of_rpc_error he with he | he
      · exact .reference (.request hv hr) he
      · exact .reference (.response hv hr) he
    · cases he
  · cases h

theorem complete_of_file {plan : FilePlan} (h : Plan.file b fileId s = .ok plan) :
    b.Complete fileId s := by
  constructor
  · intro scope mods reference hr
    obtain ⟨x, -, hx, -, -⟩ := Plan.file_renders h hr
    exact ⟨x, hx⟩
  · intro v hv
    obtain ⟨ms, vs, -, hvs, -⟩ := Plan.file_ok_iff.1 h
    obtain ⟨p, hp⟩ := exists_of_mapM hvs hv
    exact Plan.checkMethods_eq_ok_iff.1 (Plan.service_ok_iff.1 hp).1

end Batch

/-- The code of a message, or of one inside it, is written with the type. -/
inductive MessagePlan.Writes : MessagePlan → BaseType → Prop
  | field {p : MessagePlan} {q : FieldPlan} (hq : q ∈ p.fields) : Writes p q.base
  | accessor {p : MessagePlan} {o : OneofPlan} {q : MemberPlan} (ho : o ∈ p.oneofs)
      (hq : q ∈ o.members) : Writes p q.outer
  | variant {p : MessagePlan} {o : OneofPlan} {q : MemberPlan} (ho : o ∈ p.oneofs)
      (hq : q ∈ o.members) : Writes p q.inner
  | inside {p q : MessagePlan} {base : BaseType} (hq : q ∈ p.messages) (h : Writes q base) :
      Writes p base

/-- The code of a file is written with the type. -/
inductive FilePlan.Writes (p : FilePlan) : BaseType → Prop
  | message {q : MessagePlan} {base : BaseType} (hq : q ∈ p.messages) (h : q.Writes base) :
      Writes p base
  | request {v : ServicePlan} {q : RpcPlan} (hv : v ∈ p.services) (hq : q ∈ v.rpcs) :
      Writes p q.request
  | response {v : ServicePlan} {q : RpcPlan} (hv : v ∈ p.services) (hq : q ∈ v.rpcs) :
      Writes p q.response

namespace Plan

variable {b : Batch} {fileId package : String} {base : BaseType}

theorem exists_of_mem_members {m : Message} {p : MessagePlan} {parents : List String}
    {o : OneofPlan} {q : MemberPlan} (hp : message b fileId package parents m = .ok p)
    (ho : o ∈ p.oneofs) (hq : q ∈ o.members) :
    ∃ o' ∈ m.oneofs, ∃ f ∈ o'.fields, ∃ x,
      b.resolve f.type fileId (parents ++ [m.name]) = .ok x ∧
      q.outer = b.baseType fileId (parents.map Naming.moduleIdent) x ∧
      q.inner = b.baseType fileId ((parents ++ [m.name]).map Naming.moduleIdent) x := by
  obtain ⟨o', ho', ho⟩ := (mem_mapM (message_ok_iff.1 hp).oneofs).1 ho
  obtain ⟨members, hmembers, rfl⟩ := oneof_ok_iff.1 ho
  obtain ⟨f, hf, hq⟩ := (mem_mapM hmembers).1 hq
  obtain ⟨x, hx, rfl⟩ := member_ok_iff.1 hq
  exact ⟨o', ho', f, hf, x, hx, rfl, rfl⟩

theorem exists_of_message_writes {m : Message} {p : MessagePlan} {parents : List String}
    (h : p.Writes base) (hp : message b fileId package parents m = .ok p) :
    ∃ scope mods reference x, m.Refers scope mods reference ∧
      b.resolve reference fileId (parents ++ scope) = .ok x ∧
      base = b.baseType fileId (parents.map Naming.moduleIdent ++ mods) x := by
  induction h generalizing m parents with
  | @field p q hq =>
    obtain ⟨f, hf, hq⟩ := (mem_mapM (message_ok_iff.1 hp).fields).1 hq
    obtain ⟨x, hx, rfl⟩ := field_ok_iff.1 hq
    exact ⟨_, _, _, x, .own_field hf, hx, by rw [List.append_nil]⟩
  | @accessor p o q ho hq =>
    obtain ⟨o', ho', f, hf, x, hx, houter, -⟩ := exists_of_mem_members hp ho hq
    exact ⟨_, _, _, x, .own_accessor ho' hf, hx, by rw [houter, List.append_nil]⟩
  | @variant p o q ho hq =>
    obtain ⟨o', ho', f, hf, x, hx, -, hinner⟩ := exists_of_mem_members hp ho hq
    refine ⟨_, _, _, x, .own_variant ho' hf, hx, ?_⟩
    rw [hinner, List.map_append, List.map_singleton]
  | @inside p q base hq _ ih =>
    obtain ⟨n, hn, hq⟩ := (mem_mapM (message_ok_iff.1 hp).messages).1 hq
    obtain ⟨scope, mods, reference, x, hr, hx, rfl⟩ := ih hq
    refine ⟨_, _, reference, x, hr.inside hn, ?_, ?_⟩
    · rwa [List.append_assoc, List.singleton_append] at hx
    · rw [List.map_append, List.map_singleton, List.append_assoc, List.singleton_append]

theorem exists_of_file_writes {s : Schema} {plan : FilePlan} (h : file b fileId s = .ok plan)
    (hw : plan.Writes base) : ∃ scope mods reference x, s.Refers scope mods reference ∧
      b.resolve reference fileId scope = .ok x ∧ base = b.baseType fileId mods x := by
  obtain ⟨ms, vs, hms, hvs, rfl⟩ := file_ok_iff.1 h
  have hrpc {v : ServicePlan} {q : RpcPlan} (hv : v ∈ vs) (hq : q ∈ v.rpcs) :
      ∃ w ∈ s.services, ∃ r ∈ w.rpcs, rpc b fileId w.name r = .ok q := by
    obtain ⟨w, hw, hv⟩ := (mem_mapM hvs).1 hv
    obtain ⟨-, rpcs, hrpcs, rfl⟩ := service_ok_iff.1 hv
    exact ⟨w, hw, (mem_mapM hrpcs).1 hq⟩
  cases hw with
  | message hq hw =>
    obtain ⟨m, hm, hq⟩ := (mem_mapM hms).1 hq
    obtain ⟨scope, mods, reference, x, hr, hx, rfl⟩ := exists_of_message_writes hw hq
    exact ⟨scope, mods, reference, x, hr.ofSchema hm, hx, rfl⟩
  | request hv hq =>
    obtain ⟨w, hw, r, hr, hq⟩ := hrpc hv hq
    obtain ⟨x, y, hx, -, rfl⟩ := rpc_ok_iff.1 hq
    exact ⟨_, _, _, x, .request hw hr, hx, rfl⟩
  | response hv hq =>
    obtain ⟨w, hw, r, hr, hq⟩ := hrpc hv hq
    obtain ⟨x, y, -, hy, rfl⟩ := rpc_ok_iff.1 hq
    exact ⟨_, _, _, y, .response hw hr, hy, rfl⟩

end Plan

namespace Batch

variable {b : Batch} {fileId : String} {s : Schema}

/-- The code of a plan has for every reference, in the module where it stands, lines with the type it
resolves to at the place of a type. The plan has no other types. -/
structure WritesResolved (b : Batch) (fileId : String) (s : Schema) (plan : FilePlan) : Prop where
  every : ∀ scope mods reference, s.Refers scope mods reference →
    ∃ x part, b.resolve reference fileId scope = .ok x ∧
      Source.Renders (b.baseType fileId mods x) part ∧
      Source.Typed (b.baseType fileId mods x).text part ∧
      Source.Mentions (b.baseType fileId mods x).text part ∧
      Source.Stands part mods (Source.file plan)
  only : ∀ base, plan.Writes base → ∃ scope mods reference x, s.Refers scope mods reference ∧
    b.resolve reference fileId scope = .ok x ∧ base = b.baseType fileId mods x

/-- A file with types is generated exactly if it is complete, and else the error names one of its
faults; the code has the types of resolved references only. A file without types has no code. -/
theorem generate_exactly (hs : b.get? fileId = some s) :
    (b.generate fileId = .ok none ↔ s.messages = [] ∧ s.enums = []) ∧
    (s.messages ≠ [] ∨ s.enums ≠ [] →
      ((∃ g, b.generate fileId = .ok (some g)) ↔ b.Complete fileId s) ∧
      (¬ b.Complete fileId s → ∃ e, b.generate fileId = .error e ∧ b.Fault fileId s e)) ∧
    ∀ g, b.generate fileId = .ok (some g) →
      ∃ plan, g.code = Source.render (Source.file plan) ∧ b.WritesResolved fileId s plan := by
  refine ⟨⟨fun h => ?_, fun ⟨hms, hes⟩ => ?_⟩, fun htypes => ?_, fun g hg => ?_⟩
  · obtain ⟨u, hu, htypes⟩ := generate_eq_none h
    obtain rfl := Option.some.inj (hs.symm.trans hu)
    exact htypes
  · simp [generate, hs, hms, hes]
  · cases hplan : Plan.file b fileId s with
    | ok plan =>
      have hcomplete := complete_of_file hplan
      refine ⟨iff_of_true ⟨_, generate_ok_iff.2 ⟨s, plan, hs, htypes, hplan, rfl⟩⟩ hcomplete, ?_⟩
      exact fun hnot => absurd hcomplete hnot
    | error e =>
      have hfault := fault_of_file_error hplan
      refine ⟨iff_of_false ?_ hfault.not_complete, fun _ => ⟨e, ?_, hfault⟩⟩
      · rintro ⟨g, hg⟩
        obtain ⟨u, plan, hu, -, hok, -⟩ := generate_ok_iff.1 hg
        obtain rfl := Option.some.inj (hs.symm.trans hu)
        rw [hplan] at hok
        cases hok
      · have hne : (s.messages.isEmpty && s.enums.isEmpty) = false := by
          rw [← Bool.not_eq_true, Bool.and_eq_true, List.isEmpty_iff, List.isEmpty_iff]
          exact not_and_or.2 htypes
        rw [generate, hs]
        simp [hne, hplan]
  · obtain ⟨u, plan, hu, -, hplan, rfl⟩ := generate_ok_iff.1 hg
    obtain rfl := Option.some.inj (hs.symm.trans hu)
    refine ⟨plan, rfl, fun scope mods reference hr => ?_,
      fun _ hw => Plan.exists_of_file_writes hplan hw⟩
    obtain ⟨x, part, hx, hrenders, hstands⟩ := Plan.file_renders hplan hr
    exact ⟨x, part, hx, hrenders, hrenders.typed, hrenders.mentions, hstands⟩

/-- The type of a oneof's member, two messages deep, is not declared. In another file two rpcs differ
in case only. A third file is generated, with a type of the second. -/
theorem generate_exactly_faulty :
    let inner : Message := ⟨"Inner", ⟨1, 25⟩, [],
      [⟨"pick", [⟨"item", ⟨1, 54⟩, "Missing", 1, .optional, false⟩]⟩], [], []⟩
    let outer : Message := ⟨"Outer", ⟨1, 9⟩, [], [], [inner], []⟩
    let nested : Schema := { messages := [outer] }
    let served : Schema := { messages := [⟨"Item", ⟨1, 9⟩, [], [], [], []⟩]
                             services := [⟨"Items", [⟨"Get", "Item", "Item"⟩,
                               ⟨"get", "Item", "Item"⟩]⟩] }
    let order : Message :=
      ⟨"Order", ⟨1, 9⟩, [⟨"item", ⟨1, 17⟩, "Item", 1, .implicit, false⟩], [], [], []⟩
    let ordered : Schema := { messages := [order] }
    let b : Batch := ⟨[("a.proto", nested), ("b.proto", served), ("c.proto", ordered)], by decide⟩
    (b.generate "a.proto" = .error (.unresolved "Missing" "Outer.Inner") ∧
      ∃ e, b.generate "a.proto" = .error e ∧ b.Fault "a.proto" nested e) ∧
    (b.generate "b.proto" = .error (.defect (.methodTwice "Items" "Get" "get" "get")) ∧
      ∃ e, b.generate "b.proto" = .error e ∧ b.Fault "b.proto" served e) ∧
    ∃ g plan, b.generate "c.proto" = .ok (some g) ∧ g.code = Source.render (Source.file plan) ∧
      b.WritesResolved "c.proto" ordered plan := by
  intro inner outer nested served order ordered b
  have hinner : nested.Declares ["Outer", "Inner"] (.message inner) :=
    .inner (m := outer) List.mem_cons_self (.message List.mem_cons_self)
  have hmissing : ¬ b.Complete "a.proto" nested := by
    intro h
    obtain ⟨x, hx⟩ := h.references _ _ _ (.variant hinner List.mem_cons_self List.mem_cons_self)
    cases hx
  have hmethods : ¬ b.Complete "b.proto" served := by
    intro h
    exact absurd (h.methods _ List.mem_cons_self) (by decide)
  obtain ⟨g, hg⟩ : ∃ g, b.generate "c.proto" = .ok (some g) := ⟨_, rfl⟩
  have hordered : b.get? "c.proto" = some ordered := rfl
  obtain ⟨plan, hcode, hwrites⟩ := (generate_exactly hordered).2.2 g hg
  exact ⟨⟨rfl, ((generate_exactly rfl).2.1 (.inl (List.cons_ne_nil _ _))).2 hmissing⟩,
    ⟨rfl, ((generate_exactly rfl).2.1 (.inl (List.cons_ne_nil _ _))).2 hmethods⟩,
    g, plan, hg, hcode, hwrites⟩

end Batch

end ProtoSchema
