import ProtoSchema.Proofs.Plan.Distinct
import ProtoSchema.Proofs.Plan.Paths

/-! # Names that stay apart

Different names of a schema can become one identifier, and then two fields, variants, methods, types
or modules of the generated code have the same name. The code is clear just if the schema keeps its
names apart.
-/

namespace ProtoSchema

open Naming (fieldIdent typeIdent moduleIdent pascalCase Meet)

section Identifiers

variable {names : List String}

theorem nodup_map_fieldIdent :
    (names.map fieldIdent).Nodup ↔ names.Pairwise fun x y => ¬ Meet x y := by
  simp only [List.Nodup, List.pairwise_map, ne_eq, Naming.fieldIdent_eq_iff]

theorem nodup_map_moduleIdent :
    (names.map moduleIdent).Nodup ↔ names.Pairwise fun x y => ¬ Meet x y := by
  simp only [List.Nodup, List.pairwise_map, ne_eq, Naming.moduleIdent_eq_iff]

theorem nodup_map_typeIdent (h : ∀ x ∈ names, IsPlain x.toList) :
    (names.map typeIdent).Nodup ↔ (names.map pascalCase).Nodup := by
  simp only [List.Nodup, List.pairwise_map, ne_eq]
  constructor
  · refine fun hp => hp.imp_of_mem fun hx hy hne => ?_
    rwa [← Naming.typeIdent_eq_iff (h _ hx) (h _ hy)]
  · refine fun hp => hp.imp_of_mem fun hx hy hne => ?_
    rwa [Naming.typeIdent_eq_iff (h _ hx) (h _ hy)]

end Identifiers

namespace Enum

variable (e : Enum)

def valueNames : List String := e.values.map (·.name)

def shortNames : List String := e.values.map fun v => EnumPlan.shortName e.name v.name

/-- The values of an enum are different in Pascal case, with or without the name of the enum. -/
def Apart : Prop := (e.shortNames.map pascalCase).Nodup ∨ (e.valueNames.map pascalCase).Nodup

instance : Decidable e.Apart := inferInstanceAs (Decidable (_ ∨ _))

end Enum

namespace Message

/-- Whether there is a module for what is inside a message. -/
def hasModule (m : Message) : Bool := !(m.oneofs.isEmpty && m.messages.isEmpty && m.enums.isEmpty)

/-- The names of a message lead to different identifiers. Fields and oneofs share a struct, the
oneofs share one block of methods, and their enums stand in one module with the types inside. -/
structure Apart (m : Message) : Prop where
  fields : (m.fields.map (·.name) ++ m.oneofs.map (·.name)).Pairwise fun x y => ¬ Meet x y
  methods : (m.oneofs.flatMap (·.accessors)).Nodup
  members : ∀ o ∈ m.oneofs, ((o.fields.map (·.name)).map pascalCase).Nodup
  oneofs : (m.oneofs.flatMap fun o =>
    [OneofPlan.identOf m o, OneofPlan.identOf m o ++ "Case"]).Nodup
  types : ((m.messages.map (·.name) ++ m.enums.map (·.name)).map pascalCase).Nodup
  modules : ((m.messages.filter (·.hasModule)).map (·.name)).Pairwise fun x y => ¬ Meet x y

instance (m : Message) : Decidable m.Apart :=
  decidable_of_iff (_ ∧ _ ∧ _ ∧ _ ∧ _ ∧ _)
    ⟨fun ⟨hfields, hmethods, hmembers, honeofs, htypes, hmodules⟩ =>
      ⟨hfields, hmethods, hmembers, honeofs, htypes, hmodules⟩,
    fun ⟨hfields, hmethods, hmembers, honeofs, htypes, hmodules⟩ =>
      ⟨hfields, hmethods, hmembers, honeofs, htypes, hmodules⟩⟩

end Message

namespace TypeDef

def Apart : TypeDef → Prop
  | message m => m.Apart
  | enum e => e.Apart

instance : (d : TypeDef) → Decidable d.Apart
  | message m => inferInstanceAs (Decidable m.Apart)
  | enum e => inferInstanceAs (Decidable e.Apart)

end TypeDef

namespace Schema

/-- The types and clients of a file and its modules are different, and all declared types keep their
names apart. -/
structure Apart (s : Schema) : Prop where
  types : ((s.messages.map (·.name) ++ s.enums.map (·.name)).map typeIdent ++
    s.services.map (typeIdent ·.name ++ "Client")).Nodup
  modules : ((s.messages.filter (·.hasModule)).map (·.name)).Pairwise fun x y => ¬ Meet x y
  inside : ∀ path d, s.Declares path d → d.Apart

instance (s : Schema) : Decidable s.Apart :=
  decidable_of_iff (_ ∧ _ ∧ ∀ t ∈ s.types, t.2.Apart)
    ⟨fun ⟨htypes, hmodules, hinside⟩ =>
      ⟨htypes, hmodules, fun _ _ hd => hinside _ (mem_types.2 hd)⟩,
    fun ⟨htypes, hmodules, hinside⟩ =>
      ⟨htypes, hmodules, fun _ ht => hinside _ _ (mem_types.1 ht)⟩⟩

end Schema

namespace EnumPlan

variable {e : Enum}

theorem isPlain_shortName (enumName : String) {valueName : String} (h : IsPlain valueName.toList) :
    IsPlain (shortName enumName valueName).toList := by
  rw [shortName]
  split
  · next c cs heq =>
    split
    · rw [String.toList_ofList]
      rw [dropLeading?_eq_some.1 heq] at h
      exact fun x hx => h x (List.mem_append_right _ hx)
    · exact h
  · exact h

theorem isPlain_valueNames (he : e.Named) : ∀ x ∈ e.valueNames, IsPlain x.toList := by
  intro x hx
  obtain ⟨v, hv, rfl⟩ := List.mem_map.1 hx
  exact isPlain_of_isIdentifier (he.values v hv)

theorem isPlain_shortNames (he : e.Named) : ∀ x ∈ e.shortNames, IsPlain x.toList := by
  intro x hx
  obtain ⟨v, hv, rfl⟩ := List.mem_map.1 hx
  exact isPlain_shortName e.name (isPlain_of_isIdentifier (he.values v hv))

theorem variants_eq (e : Enum) : variants e = if (e.shortNames.map typeIdent).Nodup then
    e.shortNames.map typeIdent else e.valueNames.map typeIdent := by
  simp only [variants, Enum.shortNames, Enum.valueNames, List.map_map, Function.comp_def]

theorem nodup_variants (he : e.Named) : (variants e).Nodup ↔ e.Apart := by
  rw [Enum.Apart, ← nodup_map_typeIdent (isPlain_valueNames he),
    ← nodup_map_typeIdent (isPlain_shortNames he), variants_eq]
  split
  · next h => exact ⟨.inl, fun _ => h⟩
  · next h => exact ⟨.inr, fun h' => h'.resolve_left h⟩

theorem map_values_ofEnum (fullName : String) (e : Enum) :
    (ofEnum fullName e).values.map (·.2) = variants e := by
  apply List.map_snd_zip
  rw [variants_eq]
  split <;> simp [Enum.shortNames, Enum.valueNames]

theorem plain_ofEnum (fullName : String) (he : e.Named) : (ofEnum fullName e).Plain := by
  have hident := Naming.isPlain_typeIdent (isPlain_of_isIdentifier he.name)
  refine ⟨by rwa [ofEnum], fun v hv => ?_⟩
  have hmem : v.2 ∈ variants e := by
    rw [← map_values_ofEnum fullName]
    exact List.mem_map_of_mem hv
  rw [variants_eq] at hmem
  split at hmem
  · obtain ⟨x, hx, heq⟩ := List.mem_map.1 hmem
    exact heq ▸ Naming.isPlain_typeIdent (isPlain_shortNames he x hx)
  · obtain ⟨x, hx, heq⟩ := List.mem_map.1 hmem
    exact heq ▸ Naming.isPlain_typeIdent (isPlain_valueNames he x hx)

end EnumPlan

/-- The enums of the oneofs stand beside the types, and never clash with them. -/
theorem Message.nodup_typeNames {m : Message}
    (hnames : ∀ x ∈ m.messages.map (·.name) ++ m.enums.map (·.name), IsPlain x.toList) :
    (Source.typeNames (m.oneofs.map (OneofPlan.identOf m))
      ((m.messages.map (·.name) ++ m.enums.map (·.name)).map typeIdent) []).Nodup ↔
    (m.oneofs.flatMap fun o => [OneofPlan.identOf m o, OneofPlan.identOf m o ++ "Case"]).Nodup ∧
      ((m.messages.map (·.name) ++ m.enums.map (·.name)).map pascalCase).Nodup := by
  have htaken : (m.messages.map (·.name) ++ m.enums.map (·.name)).map typeIdent =
      OneofPlan.takenBy m := by
    simp only [OneofPlan.takenBy, List.map_append, List.map_map, Function.comp_def]
  have hdisjoint : (m.oneofs.flatMap fun o =>
      [OneofPlan.identOf m o, OneofPlan.identOf m o ++ "Case"]).Disjoint (OneofPlan.takenBy m) := by
    intro x hx hmem
    obtain ⟨o, -, hx⟩ := List.mem_flatMap.1 hx
    obtain ⟨hident, hcase⟩ := OneofPlan.identOf_not_mem m o
    rcases List.mem_pair.1 hx with rfl | rfl
    · exact hident hmem
    · exact hcase hmem
  rw [Source.typeNames, List.append_nil, List.flatMap_map, ← nodup_map_typeIdent hnames, htaken,
    List.nodup_append']
  exact ⟨fun h => ⟨h.1, h.2.1⟩, fun h => ⟨h.1, h.2, hdisjoint⟩⟩

namespace Plan

variable {b : Batch} {fileId package : String} {parents scope mods : List String} {m : Message}
  {p : MessagePlan}

theorem fields_of_mapM {fs : List Field} {ps : List FieldPlan}
    (h : fs.mapM (field b fileId scope mods) = .ok ps) : ps.map (·.field) = fs := by
  rw [map_of_mapM (k := id) h, List.map_id]
  intro f q hq
  obtain ⟨x, -, rfl⟩ := field_ok_iff.1 hq
  rfl

theorem members_of_mapM {inner : List String} {fs : List Field} {ps : List MemberPlan}
    (h : fs.mapM (member b fileId scope mods inner) = .ok ps) : ps.map (·.field) = fs := by
  rw [map_of_mapM (k := id) h, List.map_id]
  intro f q hq
  obtain ⟨x, -, rfl⟩ := member_ok_iff.1 hq
  rfl

theorem oneof_of_ok {o : Oneof} {q : OneofPlan} (h : oneof b fileId parents m o = .ok q) :
    q.oneof = o ∧ q.ident = OneofPlan.identOf m o := by
  obtain ⟨members, hmembers, rfl⟩ := oneof_ok_iff.1 h
  rw [OneofPlan.oneof, members_of_mapM hmembers]
  exact ⟨rfl, rfl⟩

namespace IsMessage

theorem oneofs_eq (h : IsMessage b fileId package parents m p) :
    p.oneofs.map (·.oneof) = m.oneofs := by
  rw [map_of_mapM (k := id) h.oneofs fun _ _ ho => (oneof_of_ok ho).1, List.map_id]

theorem idents_eq (h : IsMessage b fileId package parents m p) :
    p.oneofs.map (·.ident) = m.oneofs.map (OneofPlan.identOf m) :=
  map_of_mapM h.oneofs fun _ _ ho => (oneof_of_ok ho).2

theorem hasModule_eq (h : IsMessage b fileId package parents m p) : p.hasModule = m.hasModule := by
  have hmessages : p.messages.map (·.name) = m.messages.map (·.name) :=
    map_of_mapM h.messages fun _ _ hn => (message_ok_iff.1 hn).name
  have honeofs : p.oneofs.isEmpty = m.oneofs.isEmpty := by rw [← h.oneofs_eq, List.isEmpty_map]
  have hempty : p.messages.isEmpty = m.messages.isEmpty := by
    rw [← List.isEmpty_map (f := (·.name)), hmessages, List.isEmpty_map]
  rw [MessagePlan.hasModule, Message.hasModule, honeofs, hempty, h.enums, List.isEmpty_map]

theorem plain (h : IsMessage b fileId package parents m p) (hm : m.Named) : p.Plain := by
  refine ⟨?_, fun q hq => ?_, fun q hq => ?_⟩
  · rw [h.name]
    exact isPlain_of_isIdentifier hm.name
  · obtain ⟨f, hf, hfield⟩ := (mem_mapM h.fields).1 hq
    obtain ⟨x, -, rfl⟩ := field_ok_iff.1 hfield
    exact isPlain_of_isIdentifier (hm.fields f hf)
  · obtain ⟨o, ho, honeof⟩ := (mem_mapM h.oneofs).1 hq
    obtain ⟨rfl, hident⟩ := oneof_of_ok honeof
    refine ⟨isPlain_of_isIdentifier (hm.oneofs _ ho).name, ?_, fun r hr => ?_⟩
    · rw [hident]
      apply OneofPlan.isPlain_freshName
      exact Naming.isPlain_typeIdent (isPlain_of_isIdentifier (hm.oneofs _ ho).name)
    · exact isPlain_of_isIdentifier ((hm.oneofs _ ho).fields _ (List.mem_map_of_mem hr))

end IsMessage

theorem modules_of_mapM {ms : List Message} {ps : List MessagePlan}
    (h : ms.mapM (message b fileId package parents) = .ok ps) :
    (ps.filter (·.hasModule)).map (moduleIdent ·.name) =
      ((ms.filter (·.hasModule)).map (·.name)).map moduleIdent := by
  have hpairs : ps.map (fun q => (q.hasModule, q.name)) = ms.map (fun n => (n.hasModule, n.name)) :=
    map_of_mapM h fun n q hq => by
      rw [(message_ok_iff.1 hq).hasModule_eq, (message_ok_iff.1 hq).name]
  have hfilter := congrArg (fun xs => ((xs.filter (·.1)).map (·.2)).map moduleIdent) hpairs
  simpa [List.filter_map, Function.comp_def] using hfilter

namespace IsMessage

theorem fieldNames_eq (h : IsMessage b fileId package parents m p) : p.fieldNames =
    (m.fields.map (·.name) ++ m.oneofs.map (·.name)).map fieldIdent := by
  have hfields : p.fields.map (·.field.name) = m.fields.map (·.name) := by
    rw [← fields_of_mapM h.fields, List.map_map]
    rfl
  have honeofs : p.oneofs.map (·.name) = m.oneofs.map (·.name) := by
    rw [← h.oneofs_eq, List.map_map]
    rfl
  rw [MessagePlan.fieldNames, hfields, honeofs]

theorem accessors_eq (h : IsMessage b fileId package parents m p) :
    p.accessors = m.oneofs.flatMap (·.accessors) := by
  rw [← h.oneofs_eq, List.flatMap_map, MessagePlan.accessors]

theorem forall_variants (h : IsMessage b fileId package parents m p) (hm : m.Named) :
    (∀ o ∈ p.oneofs, o.oneof.variants.Nodup) ↔
      ∀ o ∈ m.oneofs, ((o.fields.map (·.name)).map pascalCase).Nodup := by
  have hone : ∀ o ∈ m.oneofs,
      (o.variants.Nodup ↔ ((o.fields.map (·.name)).map pascalCase).Nodup) := by
    intro o ho
    rw [← nodup_map_typeIdent]
    · simp only [Oneof.variants, List.map_map, Function.comp_def]
    · intro x hx
      obtain ⟨f, hf, rfl⟩ := List.mem_map.1 hx
      exact isPlain_of_isIdentifier ((hm.oneofs o ho).fields f hf)
  calc (∀ o ∈ p.oneofs, o.oneof.variants.Nodup)
    _ ↔ ∀ o ∈ p.oneofs.map (·.oneof), o.variants.Nodup := by rw [List.forall_mem_map]
    _ ↔ ∀ o ∈ m.oneofs, o.variants.Nodup := by rw [h.oneofs_eq]
    _ ↔ _ := forall₂_congr hone

end IsMessage

theorem clear_planned_iff {os : List OneofPlan} {vs : List ServicePlan} {ms : List Message}
    {es : List Enum} {ps : List MessagePlan} (hos : ∀ o ∈ os, o.Plain)
    (hps : ms.mapM (message b fileId package parents) = .ok ps) (hvs : ∀ v ∈ vs, v.Plain ∧ v.Clear)
    (hnamed : ∀ path d, Declared ms es path d → d.Named) (fullName : Enum → String) :
    Source.Clear (Source.level os ps (es.map fun e => EnumPlan.ofEnum (fullName e) e) vs) ↔
      (Source.typeNames (os.map (·.ident)) ((ms.map (·.name) ++ es.map (·.name)).map typeIdent)
        (vs.map (·.client))).Nodup ∧
      ((ms.filter (·.hasModule)).map (·.name)).Pairwise (fun x y => ¬ Meet x y) ∧
      (∀ o ∈ os, o.oneof.variants.Nodup) ∧ (∀ e ∈ es, e.Apart) ∧
      ∀ p ∈ ps, Source.ClearMessage p := by
  have henums : ∀ e ∈ es, e.Named := fun e he => hnamed _ _ (.enum he)
  have hmessages : ∀ p ∈ ps, p.Plain := by
    intro p hp
    obtain ⟨m, hm, hp⟩ := (mem_mapM hps).1 hp
    exact (message_ok_iff.1 hp).plain (hnamed _ _ (.message hm))
  have hplanned : ∀ e ∈ es.map fun e => EnumPlan.ofEnum (fullName e) e, e.Plain := by
    rw [List.forall_mem_map]
    exact fun e he => EnumPlan.plain_ofEnum _ (henums e he)
  have htypes : ps.map (typeIdent ·.name) ++
      (es.map fun e => EnumPlan.ofEnum (fullName e) e).map (·.ident) =
      (ms.map (·.name) ++ es.map (·.name)).map typeIdent := by
    have hnames : ps.map (typeIdent ·.name) = ms.map (typeIdent ·.name) :=
      map_of_mapM hps fun _ _ hp => by rw [(message_ok_iff.1 hp).name]
    simp only [hnames, EnumPlan.ofEnum, List.map_append, List.map_map, Function.comp_def]
  have hvalues : (∀ e ∈ es.map fun e => EnumPlan.ofEnum (fullName e) e,
      (e.values.map (·.2)).Nodup) ↔ ∀ e ∈ es, e.Apart := by
    rw [List.forall_mem_map]
    exact forall₂_congr fun e he => by
      rw [EnumPlan.map_values_ofEnum, EnumPlan.nodup_variants (henums e he)]
  rw [Source.clear_level_iff hos hmessages hplanned (fun v hv => (hvs v hv).1)
    (fun v hv => (hvs v hv).2), htypes, hvalues, modules_of_mapM hps, nodup_map_moduleIdent]

theorem clearMessage_step (h : IsMessage b fileId package parents m p)
    (hnamed : ∀ path d, Declared [m] [] path d → d.Named) :
    Source.ClearMessage p ↔
      m.Apart ∧ (∀ e ∈ m.enums, e.Apart) ∧ ∀ q ∈ p.messages, Source.ClearMessage q := by
  have hm : m.Named := hnamed _ _ (.message (List.mem_singleton_self m))
  have hinside : ∀ path d, Declared m.messages m.enums path d → d.Named :=
    fun path d hd => hnamed _ d (.inner (List.mem_singleton_self m) hd)
  have hnames : ∀ x ∈ m.messages.map (·.name) ++ m.enums.map (·.name), IsPlain x.toList := by
    rw [List.forall_mem_append, List.forall_mem_map, List.forall_mem_map]
    exact ⟨fun n hn => isPlain_of_isIdentifier (hinside _ _ (.message hn)).name,
      fun e he => isPlain_of_isIdentifier (hinside _ _ (.enum he)).name⟩
  have hlevel := clear_planned_iff (h.plain hm).oneofs h.messages (List.forall_mem_nil _) hinside
    fun e => fullName package (parents ++ [m.name] ++ [e.name])
  rw [List.map_nil, h.idents_eq, Message.nodup_typeNames hnames, h.forall_variants hm,
    ← h.enums] at hlevel
  constructor
  · rintro ⟨hfields, hmethods, hclear⟩
    rw [h.fieldNames_eq, nodup_map_fieldIdent] at hfields
    rw [h.accessors_eq] at hmethods
    obtain ⟨⟨honeofs, htypes⟩, hmodules, hmembers, hvalues, hmessages⟩ := hlevel.1 hclear
    exact ⟨⟨hfields, hmethods, hmembers, honeofs, htypes, hmodules⟩, hvalues, hmessages⟩
  · rintro ⟨⟨hfields, hmethods, hmembers, honeofs, htypes, hmodules⟩, hvalues, hmessages⟩
    rw [← nodup_map_fieldIdent, ← h.fieldNames_eq] at hfields
    rw [← h.accessors_eq] at hmethods
    exact ⟨hfields, hmethods,
      hlevel.2 ⟨⟨honeofs, htypes⟩, hmodules, hmembers, hvalues, hmessages⟩⟩

theorem forall_declared {ms : List Message} {es : List Enum} {P : TypeDef → Prop} :
    (∀ path d, Declared ms es path d → P d) ↔
      (∀ e ∈ es, P (.enum e)) ∧ ∀ path d, Declared ms [] path d → P d := by
  constructor
  · intro h
    refine ⟨fun e he => h _ _ (.enum he), fun path d hd => ?_⟩
    exact h path d (hd.mono (List.Subset.refl _) (List.nil_subset _))
  · rintro ⟨hes, hms⟩ path d hd
    cases hd with
    | message hm => exact hms _ _ (.message hm)
    | enum he => exact hes _ he
    | inner hm hd => exact hms _ _ (.inner hm hd)

theorem forall_declared_singleton {P : TypeDef → Prop} :
    (∀ path d, Declared [m] [] path d → P d) ↔ P (.message m) ∧ (∀ e ∈ m.enums, P (.enum e)) ∧
      ∀ path d, Declared m.messages [] path d → P d := by
  rw [← forall_declared]
  constructor
  · intro h
    exact ⟨h _ _ (.message (List.mem_singleton_self m)),
      fun path d hd => h _ d (.inner (List.mem_singleton_self m) hd)⟩
  · rintro ⟨hm, hinside⟩ path d hd
    rcases Declared.singleton_iff.1 hd with ⟨-, rfl⟩ | ⟨inner, -, hd⟩
    · exact hm
    · exact hinside inner d hd

theorem forall_declared_cons {ms : List Message} {P : TypeDef → Prop} :
    (∀ path d, Declared (m :: ms) [] path d → P d) ↔
      (∀ path d, Declared [m] [] path d → P d) ∧ ∀ path d, Declared ms [] path d → P d := by
  constructor
  · intro h
    exact ⟨fun path d hd => h path d (Declared.cons_iff.2 (.inl hd)),
      fun path d hd => h path d (Declared.cons_iff.2 (.inr hd))⟩
  · rintro ⟨hm, hms⟩ path d hd
    rcases Declared.cons_iff.1 hd with hd | hd
    · exact hm path d hd
    · exact hms path d hd

mutual

/-- A message is clear just if all types in it, and it itself, keep their names apart. -/
theorem clearMessage_iff : ∀ (m : Message) {parents : List String} {p : MessagePlan},
    IsMessage b fileId package parents m p → (∀ path d, Declared [m] [] path d → d.Named) →
      (Source.ClearMessage p ↔ ∀ path d, Declared [m] [] path d → d.Apart)
  -- The messages inside are smaller, whatever their parents are.
  | ⟨name, position, fields, oneofs, messages, enums⟩, parents, p, h, hnamed => by
    have hinside := (forall_declared_singleton.1 hnamed).2.2
    rw [clearMessage_step h hnamed, clearMessages_iff messages h.messages hinside,
      forall_declared_singleton]
    rfl

theorem clearMessages_iff : ∀ (ms : List Message) {parents : List String} {ps : List MessagePlan},
    ms.mapM (message b fileId package parents) = .ok ps →
    (∀ path d, Declared ms [] path d → d.Named) →
      ((∀ p ∈ ps, Source.ClearMessage p) ↔ ∀ path d, Declared ms [] path d → d.Apart)
  | [], parents, ps, h, _ => by
    obtain rfl := List.forall₂_nil_left_iff.1 (mapM_eq_ok.1 h)
    refine iff_of_true (List.forall_mem_nil _) fun path d hd => ?_
    cases hd with
    | message hm => exact absurd hm List.not_mem_nil
    | enum he => exact absurd he List.not_mem_nil
    | inner hm _ => exact absurd hm List.not_mem_nil
  | m :: ms, parents, ps, h, hnamed => by
    obtain ⟨p, rest, hp, hrest, rfl⟩ := List.forall₂_cons_left_iff.1 (mapM_eq_ok.1 h)
    obtain ⟨hfirst, hothers⟩ := forall_declared_cons.1 hnamed
    rw [List.forall_mem_cons, clearMessage_iff m (message_ok_iff.1 hp) hfirst,
      clearMessages_iff ms (mapM_eq_ok.2 hrest) hothers]
    exact forall_declared_cons.symm

end

theorem service_of_ok {v : Service} {q : ServicePlan} (h : service b fileId package v = .ok q)
    (hv : v.Named) : q.Plain ∧ q.Clear ∧ q.client = typeIdent v.name ++ "Client" := by
  obtain ⟨hcheck, rpcs, hrpcs, rfl⟩ := service_ok_iff.1 h
  have hmethod : ∀ r q, rpc b fileId v.name r = .ok q → q.method = rpcIdent r.name := by
    intro r q hq
    obtain ⟨x, y, -, -, heq⟩ := rpc_ok_iff.1 hq
    rw [heq]
  have hmethods : rpcs.map (·.method) = v.rpcs.map (rpcIdent ·.name) := map_of_mapM hrpcs hmethod
  have hclient : IsPlain (typeIdent v.name ++ "Client").toList :=
    Source.isPlain_append (Naming.isPlain_typeIdent (isPlain_of_isIdentifier hv.name))
      (List.all_eq_true.1 rfl)
  refine ⟨⟨hclient, fun q hq => ?_⟩, ⟨?_, ?_⟩, rfl⟩
  · obtain ⟨r, hr, hq⟩ := (mem_mapM hrpcs).1 hq
    rw [hmethod r q hq]
    exact isPlain_rpcIdent (isPlain_of_isIdentifier (hv.rpcs r hr))
  · rw [hmethods]
    exact (nodup_of_checkMethods hcheck).1
  · rw [hmethods]
    intro x hx hmem
    obtain ⟨r, -, rfl⟩ := List.mem_map.1 hmem
    exact rpcIdent_not_mem r.name hx

theorem clear_file_iff {s : Schema} {plan : FilePlan} (h : file b fileId s = .ok plan)
    (hs : s.Named) : Source.Clear (Source.file plan) ↔ s.Apart := by
  obtain ⟨ms, vs, hms, hvs, rfl⟩ := file_ok_iff.1 h
  have hservices : ∀ q ∈ vs, q.Plain ∧ q.Clear := by
    intro q hq
    obtain ⟨v, hv, hq⟩ := (mem_mapM hvs).1 hq
    obtain ⟨hplain, hclear, -⟩ := service_of_ok hq (hs.services v hv)
    exact ⟨hplain, hclear⟩
  have hclients : vs.map (·.client) = s.services.map (typeIdent ·.name ++ "Client") :=
    map_of_mapM hvs fun v q hq => (service_ok_iff.1 hq).2.elim fun _ hq => by rw [hq.2]
  have hmessages := clearMessages_iff s.messages hms (forall_declared.1 hs.types).2
  rw [Source.clear_iff, Source.outline_file, ← Source.clear_iff,
    clear_planned_iff (List.forall_mem_nil _) hms hservices hs.types, hclients, hmessages]
  constructor
  · rintro ⟨htypes, hmodules, -, henums, hmessages⟩
    exact ⟨htypes, hmodules, forall_declared.2 ⟨henums, hmessages⟩⟩
  · rintro ⟨htypes, hmodules, hinside⟩
    obtain ⟨henums, hmessages⟩ := forall_declared.1 hinside
    exact ⟨htypes, hmodules, List.forall_mem_nil _, henums, hmessages⟩

end Plan

namespace Batch

variable {b : Batch} {fileId : String} {g : Generated}

/-- The code generated for a file of an accepted batch is clear just if the names of the schema stay
apart. Rpcs are not asked about: the methods of clients are distinct in any case. -/
theorem clear_iff_apart (hb : b.Accepted) (hg : b.generate fileId = .ok (some g)) :
    ∃ s plan, b.get? fileId = some s ∧ Plan.file b fileId s = .ok plan ∧
      g.code = Source.render (Source.file plan) ∧
      (Source.Clear (Source.file plan) ↔ s.Apart) := by
  obtain ⟨s, plan, hs, -, hplan, rfl⟩ := generate_ok_iff.1 hg
  exact ⟨s, plan, hs, hplan, rfl, Plan.clear_file_iff hplan (hb.named (get?_eq_some.1 hs))⟩

/-- A oneof beside an enum of the same name, a field that is a reserved word, and an rpc that is
named like a method of every client. -/
def besideEnum : Schema where
  messages := [⟨"Reply", ⟨1, 9⟩, [⟨"type", ⟨1, 24⟩, "string", 1, .implicit, false⟩],
    [⟨"result", [⟨"code", ⟨1, 55⟩, "int32", 2, .optional, false⟩]⟩], [],
    [⟨"Result", ⟨1, 72⟩, [⟨"OK", 0, false⟩]⟩]⟩]
  services := [⟨"Query", [⟨"New", "Reply", "Reply"⟩]⟩]

theorem clear_besideEnum :
    Batch.Accepted ⟨[("a.proto", besideEnum)], by decide⟩ ∧
      ∃ g plan, Batch.generate ⟨[("a.proto", besideEnum)], by decide⟩ "a.proto" = .ok (some g) ∧
        g.code = Source.render (Source.file plan) ∧ Source.Clear (Source.file plan) := by
  have hb : Batch.Accepted ⟨[("a.proto", besideEnum)], by decide⟩ := by
    intro f hf
    obtain rfl := List.mem_singleton.1 hf
    exact ⟨"message Reply \x7b string type = 1; oneof result \x7b int32 code = 2; \x7d enum " ++
      "Result \x7b OK = 0; \x7d \x7d service Query \x7b rpc New(Reply) returns (Reply); \x7d",
      by decide +kernel⟩
  have hg : ∃ g, Batch.generate ⟨[("a.proto", besideEnum)], by decide⟩ "a.proto" = .ok (some g) :=
    ⟨_, rfl⟩
  have hapart : besideEnum.Apart := by decide +kernel
  obtain ⟨g, hg⟩ := hg
  obtain ⟨s, plan, hs, -, hcode, hclear⟩ := clear_iff_apart hb hg
  obtain rfl : besideEnum = s := Option.some.inj hs
  exact ⟨hb, g, plan, hg, hcode, hclear.2 hapart⟩

def sharedField : Schema where
  messages := [⟨"M", ⟨1, 9⟩, [⟨"x", ⟨1, 19⟩, "int32", 1, .implicit, false⟩],
    [⟨"x", [⟨"y", ⟨1, 42⟩, "int32", 2, .optional, false⟩]⟩], [], []⟩]

/-- A file can be accepted and generated though a struct of its code has two fields of one name. -/
theorem sharedField_not_clear :
    Batch.Accepted ⟨[("a.proto", sharedField)], by decide⟩ ∧
      ∃ g plan, Batch.generate ⟨[("a.proto", sharedField)], by decide⟩ "a.proto" = .ok (some g) ∧
        g.code = Source.render (Source.file plan) ∧ ¬ Source.Clear (Source.file plan) := by
  have hb : Batch.Accepted ⟨[("a.proto", sharedField)], by decide⟩ := by
    intro f hf
    obtain rfl := List.mem_singleton.1 hf
    exact ⟨"message M \x7b int32 x = 1; oneof x \x7b int32 y = 2; \x7d \x7d", by decide +kernel⟩
  have hg : ∃ g, Batch.generate ⟨[("a.proto", sharedField)], by decide⟩ "a.proto" = .ok (some g) :=
    ⟨_, rfl⟩
  have hnot : ¬ sharedField.Apart := by decide +kernel
  obtain ⟨g, hg⟩ := hg
  obtain ⟨s, plan, hs, -, hplan, rfl⟩ := generate_ok_iff.1 hg
  obtain rfl : sharedField = s := Option.some.inj hs
  refine ⟨hb, _, plan, hg, rfl, fun hclear => hnot ?_⟩
  exact (Plan.clear_file_iff hplan (hb.named (List.mem_singleton_self _))).1 hclear

end Batch

end ProtoSchema
