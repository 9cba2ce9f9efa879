import ProtoSchema.Proofs.TypeRef.Resolve

/-! # References of rpcs

The types of an rpc are looked up in a scope of two names, that of the service and that of the rpc.
Neither declares a type. But scopes are looked up as messages, and a message may have the name of the
service: then the types inside it go before those of the file.
-/

namespace ProtoSchema

def Error.seenFrom (place : String) : Error → Error
  | unresolved reference _ => unresolved reference place
  | ambiguous reference _ candidates => ambiguous reference place candidates
  | e => e

namespace Reference

variable {r : Reference} {s : Schema} {fileId service rpc : String} {scope : List String}

theorem choose_seenFrom (cs : List Candidate) :
    r.choose s fileId scope cs =
      (r.choose s fileId [] cs).mapError (Error.seenFrom (origin fileId scope)) := by
  unfold choose
  split
  · rfl
  · rfl
  · split <;> rfl

theorem local?_seenFrom
    (h : r.absolute = true ∨ inScopes? s scope r.segments = inScopes? s [] r.segments) :
    r.local? s fileId scope =
      (r.local? s fileId []).mapError (Error.seenFrom (origin fileId scope)) := by
  unfold local?
  dsimp only
  split
  · rfl
  next ha =>
  rw [h.resolve_left ha]
  split
  · rfl
  split
  · split <;> rfl
  · rfl

/-- The scopes around an rpc are its own name behind that of the service, and that of the service. -/
theorem inScopes?_rpc (segments : List String) :
    inScopes? s [service, rpc] segments =
      (((s.find? (service :: rpc :: segments)).map (service :: rpc :: segments, ·)).or
        ((s.find? (service :: segments)).map (service :: segments, ·))).or
          (inScopes? s [] segments) := by
  have houter : enclosing [service, rpc] = [[service, rpc], [service], []] := rfl
  have hempty : enclosing [] = [[]] := rfl
  rw [inScopes?, inScopes?, houter, hempty]
  simp only [List.findSome?_cons, List.findSome?_nil, List.cons_append, List.nil_append]
  cases s.find? (service :: rpc :: segments) <;> cases s.find? (service :: segments) <;> rfl

end Reference

/-- A type inside a message that is named like the service, where an rpc finds it before the types
of the file. Scalars and absolute references are not looked for in scopes. -/
structure Schema.Captures (s : Schema) (service rpc reference : String) (path : List String)
    (d : TypeDef) : Prop where
  named : Scalar.ofName? reference = none
  relative : (Reference.ofText reference).absolute = false
  declares : s.Declares path d
  innermost : path = service :: rpc :: (Reference.ofText reference).segments ∨
    path = service :: (Reference.ofText reference).segments ∧
      ∀ d', ¬ s.Declares (service :: rpc :: (Reference.ofText reference).segments) d'

namespace Schema.Captures

variable {s : Schema} {service rpc reference : String} {path : List String} {d : TypeDef}

theorem exists_message (h : s.Captures service rpc reference path d) :
    ∃ m ∈ s.messages, m.name = service := by
  have hpath : ∃ rest, rest ≠ [] ∧ path = service :: rest := by
    rcases h.innermost with hpath | ⟨hpath, -⟩
    · exact ⟨_, List.cons_ne_nil _ _, hpath⟩
    · exact ⟨_, segmentsOf_ne_nil _, hpath⟩
  obtain ⟨rest, hne, rfl⟩ := hpath
  generalize hp : service :: rest = p at h
  cases h.declares with
  | message => exact absurd (List.cons.inj hp).2 hne
  | enum => exact absurd (List.cons.inj hp).2 hne
  | inner hm => exact ⟨_, hm, (List.cons.inj hp).1.symm⟩

theorem inScopes? (hs : s.check = .ok ()) (h : s.Captures service rpc reference path d) :
    Reference.inScopes? s [service, rpc] (Reference.ofText reference).segments =
      some (path, d) := by
  rw [Reference.inScopes?_rpc]
  rcases h.innermost with rfl | ⟨rfl, hnone⟩
  · rw [h.declares.find? hs]
    rfl
  · have hinner : s.find? (service :: rpc :: (Reference.ofText reference).segments) = none :=
      Option.eq_none_iff_forall_ne_some.2 fun d' hd' => hnone d' (find?_declares hd')
    rw [hinner, h.declares.find? hs]
    rfl

end Schema.Captures

theorem Schema.inScopes?_of_not_captures {s : Schema} {service rpc reference : String}
    (hn : Scalar.ofName? reference = none) (hr : (Reference.ofText reference).absolute = false)
    (h : ∀ path d, ¬ s.Captures service rpc reference path d) :
    Reference.inScopes? s [service, rpc] (Reference.ofText reference).segments =
      Reference.inScopes? s [] (Reference.ofText reference).segments := by
  have hinner : s.find? (service :: rpc :: (Reference.ofText reference).segments) = none :=
    Option.eq_none_iff_forall_ne_some.2 fun d hd => h _ d ⟨hn, hr, find?_declares hd, .inl rfl⟩
  have houter : s.find? (service :: (Reference.ofText reference).segments) = none := by
    refine Option.eq_none_iff_forall_ne_some.2 fun d hd => ?_
    refine h _ d ⟨hn, hr, find?_declares hd, .inr ⟨rfl, fun d' hd' => ?_⟩⟩
    exact h _ d' ⟨hn, hr, hd', .inl rfl⟩
  rw [Reference.inScopes?_rpc, hinner, houter]
  rfl

namespace Batch

variable {b : Batch} {s : Schema} {fileId service rpc reference : String} {scope : List String}

/-- A reference resolves in its scope as it does at the top of its file; an error names the scope. -/
def FileWide (b : Batch) (reference fileId : String) (scope : List String) : Prop :=
  b.resolve reference fileId scope =
    (b.resolve reference fileId []).mapError (Error.seenFrom (Reference.origin fileId scope))

theorem fileWide_of_inScopes? (hs : (fileId, s) ∈ b.files)
    (h : Scalar.ofName? reference = none → (Reference.ofText reference).absolute = true ∨
      Reference.inScopes? s scope (Reference.ofText reference).segments =
        Reference.inScopes? s [] (Reference.ofText reference).segments) :
    b.FileWide reference fileId scope := by
  rw [FileWide, resolve, resolve, get?_eq_some.2 hs]
  cases hn : Scalar.ofName? reference with
  | some k => rfl
  | none =>
    dsimp only
    rw [Reference.local?_seenFrom (h hn), Reference.choose_seenFrom]
    rcases (Reference.ofText reference).local? s fileId [] with e | _ | c <;> rfl

theorem resolve_of_captures (hb : b.Accepted) (hs : (fileId, s) ∈ b.files) {path : List String}
    {d : TypeDef} (h : s.Captures service rpc reference path d) :
    b.resolve reference fileId [service, rpc] = .ok (Candidate.resolved ⟨⟨fileId, path⟩, d⟩) := by
  have hlocal : (Reference.ofText reference).local? s fileId [service, rpc] =
      .ok (some ⟨⟨fileId, path⟩, d⟩) := by
    simp only [Reference.local?, h.relative, h.inScopes? (hb.check hs)]
    rfl
  rw [resolve, h.named, get?_eq_some.2 hs]
  dsimp only
  rw [hlocal]

/-- An rpc finds what a message with the name of its service captures. Everything else it finds as
the file does, and so it finds everything as the file does exactly if the file gives the captured
types as well. Nothing is captured if no message has the name of the service. -/
theorem resolve_rpc_types (hb : b.Accepted) (hs : (fileId, s) ∈ b.files)
    (service rpc reference : String) :
    (∀ path d, s.Captures service rpc reference path d →
      b.resolve reference fileId [service, rpc] =
        .ok (Candidate.resolved ⟨⟨fileId, path⟩, d⟩)) ∧
    (b.FileWide reference fileId [service, rpc] ↔
      ∀ path d, s.Captures service rpc reference path d →
        b.resolve reference fileId [] = .ok (Candidate.resolved ⟨⟨fileId, path⟩, d⟩)) ∧
    ((∀ m ∈ s.messages, m.name ≠ service) → b.FileWide reference fileId [service, rpc]) := by
  have hfree (h : ∀ path d, ¬ s.Captures service rpc reference path d) :
      b.FileWide reference fileId [service, rpc] := by
    refine fileWide_of_inScopes? hs fun hn => ?_
    cases hr : (Reference.ofText reference).absolute with
    | true => exact .inl rfl
    | false => exact .inr (Schema.inScopes?_of_not_captures hn hr h)
  refine ⟨fun path d h => resolve_of_captures hb hs h, ⟨fun hwide path d h => ?_, fun h => ?_⟩,
    fun hnames => hfree fun path d h => ?_⟩
  · rw [FileWide, resolve_of_captures hb hs h] at hwide
    cases hfile : b.resolve reference fileId [] with
    | ok x =>
      rw [hfile] at hwide
      exact hwide.symm
    | error e =>
      rw [hfile] at hwide
      cases hwide
  · by_cases hcaptured : ∃ path d, s.Captures service rpc reference path d
    · obtain ⟨path, d, hcaptures⟩ := hcaptured
      rw [FileWide, resolve_of_captures hb hs hcaptures, h path d hcaptures]
      rfl
    · exact hfree fun path d hcaptures => hcaptured ⟨path, d, hcaptures⟩
  · obtain ⟨m, hm, hname⟩ := h.exists_message
    exact hnames m hm hname

/-- A message and a service of one name, and two types `Request`, one of them in the message. -/
def sharedName : Schema where
  messages := [⟨"Query", ⟨1, 9⟩, [], [], [⟨"Request", ⟨1, 25⟩, [], [], [], []⟩], []⟩,
    ⟨"Request", ⟨1, 47⟩, [], [], [], []⟩]
  services := [⟨"Query", [⟨"Get", "Request", "Request"⟩]⟩]

theorem compile_sharedName : Schema.compile ("message Query \x7b message Request \x7b \x7d \x7d " ++
    "message Request \x7b \x7d service Query \x7b rpc Get (Request) returns (Request); \x7d") =
      .ok sharedName := by
  decide +kernel

def sharedNameAlone : Batch := ⟨[("a.proto", sharedName)], by decide⟩

theorem accepted_sharedNameAlone : sharedNameAlone.Accepted := by
  intro f hf
  obtain rfl := List.mem_singleton.1 hf
  exact ⟨_, compile_sharedName⟩

theorem captures_request : sharedName.Captures "Query" "Get" "Request" ["Query", "Request"]
    (.message ⟨"Request", ⟨1, 25⟩, [], [], [], []⟩) where
  named := rfl
  relative := by decide
  declares := .inner (m := ⟨"Query", ⟨1, 9⟩, [], [], [⟨"Request", ⟨1, 25⟩, [], [], [], []⟩], []⟩)
    List.mem_cons_self (.message List.mem_cons_self)
  innermost := by
    refine .inr ⟨rfl, fun d hd => ?_⟩
    have hfind := hd.find? (accepted_sharedNameAlone.check List.mem_cons_self)
    cases hfind

theorem resolve_request_file : sharedNameAlone.resolve "Request" "a.proto" [] =
    .ok (.message ⟨"a.proto", ["Request"]⟩ ⟨"Request", ⟨1, 47⟩, [], [], [], []⟩) := rfl

/-- The rpc finds the type inside the message. In a service of another name it would find the other,
as the file does. -/
theorem resolve_rpc_types_sharedName :
    sharedNameAlone.Accepted ∧
      sharedNameAlone.resolve "Request" "a.proto" ["Query", "Get"] =
        .ok (.message ⟨"a.proto", ["Query", "Request"]⟩ ⟨"Request", ⟨1, 25⟩, [], [], [], []⟩) ∧
      ¬ sharedNameAlone.FileWide "Request" "a.proto" ["Query", "Get"] ∧
      sharedNameAlone.FileWide "Request" "a.proto" ["Queries", "Get"] := by
  have hs : ("a.proto", sharedName) ∈ sharedNameAlone.files := List.mem_singleton_self _
  obtain ⟨hcaptured, hexact, -⟩ :=
    resolve_rpc_types accepted_sharedNameAlone hs "Query" "Get" "Request"
  obtain ⟨-, -, hother⟩ := resolve_rpc_types accepted_sharedNameAlone hs "Queries" "Get" "Request"
  refine ⟨accepted_sharedNameAlone, hcaptured _ _ captures_request, fun hwide => ?_, hother ?_⟩
  · have hfile := hexact.1 hwide _ _ captures_request
    rw [resolve_request_file] at hfile
    simp [Candidate.resolved, Resolved.ofDef] at hfile
  · intro m hm
    rcases List.mem_pair.1 hm with rfl | rfl <;> decide

/-- So an rpc can mean another type than the same reference at the top of its file. -/
theorem not_forall_rpc_types_fileWide :
    ¬ ∀ b : Batch, b.Accepted → ∀ fileId s, (fileId, s) ∈ b.files → ∀ v ∈ s.services,
      ∀ r ∈ v.rpcs, ∀ reference x, b.resolve reference fileId [v.name, r.name] = .ok x →
        b.resolve reference fileId [] = .ok x := by
  intro hall
  have hfile := hall sharedNameAlone accepted_sharedNameAlone "a.proto" sharedName
    List.mem_cons_self _ List.mem_cons_self _ List.mem_cons_self "Request"
    (.message ⟨"a.proto", ["Query", "Request"]⟩ ⟨"Request", ⟨1, 25⟩, [], [], [], []⟩) rfl
  rw [resolve_request_file] at hfile
  simp at hfile

end Batch

end ProtoSchema
