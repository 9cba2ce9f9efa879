import ProtoSchema.Proofs.Plan.Outline
import ProtoSchema.Proofs.Plan.Places

/-! # What generated code defines

The blocks that the code of a plan consists of: the names they define, and the fields, variants and
methods inside them.
-/

namespace ProtoSchema

open Naming (fieldIdent typeIdent moduleIdent snakeCase)
open Source (Block Outlines BlockKind isRemark toString_text)
open Piece (isNamePart)

/-- The names that a oneof brings into the code are made of plain ones. -/
structure OneofPlan.Plain (o : OneofPlan) : Prop where
  name : IsPlain o.name.toList
  ident : IsPlain o.ident.toList
  members : ∀ p ∈ o.members, IsPlain p.field.name.toList

structure EnumPlan.Plain (e : EnumPlan) : Prop where
  ident : IsPlain e.ident.toList
  values : ∀ v ∈ e.values, IsPlain v.2.toList

structure MessagePlan.Plain (m : MessagePlan) : Prop where
  name : IsPlain m.name.toList
  fields : ∀ p ∈ m.fields, IsPlain p.field.name.toList
  oneofs : ∀ o ∈ m.oneofs, o.Plain

structure ServicePlan.Plain (v : ServicePlan) : Prop where
  client : IsPlain v.client.toList
  rpcs : ∀ p ∈ v.rpcs, IsPlain p.method.toList

namespace Oneof

variable (o : Oneof)

/-- The variants of the enum of a oneof and of its `Case` twin. -/
def variants : List String := o.fields.map (typeIdent ·.name)

def accessors : List String :=
  [snakeCase o.name ++ "_case", "clear_" ++ snakeCase o.name] ++
    o.fields.flatMap fun f => [fieldIdent f.name, "set_" ++ snakeCase f.name]

end Oneof

namespace OneofPlan

variable (o : OneofPlan)

def oneof : Oneof := ⟨o.name, o.members.map (·.field)⟩

def blocks : List Block :=
  [{ kind := .enum, name := o.ident, names := o.oneof.variants },
    { kind := .enum, name := o.ident ++ "Case", names := o.oneof.variants },
    { kind := .methods, name := o.ident, names := ["case", "number", "deserialize_flattened"] }]

end OneofPlan

namespace EnumPlan

variable (e : EnumPlan)

def blocks : List Block :=
  { kind := .enum, name := e.ident, names := e.values.map (·.2) } ::
    { kind := .methods, name := e.ident, names := ["as_str_name", "from_str_name"] } ::
    List.replicate 4 { kind := .methods, name := "", names := [] }

end EnumPlan

namespace MessagePlan

variable (m : MessagePlan)

def fieldNames : List String :=
  (m.fields.map (·.field.name) ++ m.oneofs.map (·.name)).map fieldIdent

def accessors : List String := m.oneofs.flatMap (·.oneof.accessors)

/-- Whether there is a module for what is inside a message. -/
def hasModule : Bool := !(m.oneofs.isEmpty && m.messages.isEmpty && m.enums.isEmpty)

end MessagePlan

namespace Source

def level (os : List OneofPlan) (ms : List MessagePlan) (es : List EnumPlan)
    (vs : List ServicePlan) : List Line :=
  os.flatMap oneof ++ messages ms ++ es.flatMap enum ++ vs.flatMap service

end Source

namespace MessagePlan

variable (m : MessagePlan)

def blocks : List Block :=
  { kind := .struct, name := typeIdent m.name, names := m.fieldNames } ::
    (if m.oneofs.isEmpty then []
      else [{ kind := .methods, name := typeIdent m.name, names := m.accessors }]) ++
    if m.hasModule then
      [{ kind := .module, name := moduleIdent m.name, names := []
         inside := Source.level m.oneofs m.messages m.enums [] }]
    else []

end MessagePlan

namespace ServicePlan

variable (v : ServicePlan)

def blocks : List Block :=
  { kind := .struct, name := v.client, names := [] } ::
    { kind := .clientMethods, name := v.client, names := Plan.clientMethods } ::
    if v.rpcs.isEmpty then []
    else [{ kind := .transportMethods, name := v.client, names := v.rpcs.map (·.method) }]

end ServicePlan

namespace Source

def levelBlocks (os : List OneofPlan) (ms : List MessagePlan) (es : List EnumPlan)
    (vs : List ServicePlan) : List Block :=
  os.flatMap (·.blocks) ++ ms.flatMap (·.blocks) ++ es.flatMap (·.blocks) ++ vs.flatMap (·.blocks)

open BlockKind

variable {name text : String} {c : Char} {k : BlockKind} {ls : List Line} {ns : List String}

theorem names_deprecation (f : Field) (hls : k.names ls = ns) :
    k.names (deprecation f ++ ls) = ns := by
  rw [deprecation]
  split
  · exact names_remark rfl hls
  · exact hls

theorem names_field {p : FieldPlan} (h : IsPlain p.field.name.toList) :
    BlockKind.struct.names (field p) = [fieldIdent p.field.name] := by
  simp only [field, List.singleton_append]
  refine names_remark ?_ (names_deprecation p.field (names_remark ?_ (names_name ?_ rfl)))
  · simp [isRemark, toString_text]
  · simp [isRemark, toString_text]
  · apply nameAfter?_eq_some (c := ':') (Naming.isPlain_fieldIdent h) (by decide)
    simp [toString_text]

theorem names_oneofField (m : MessagePlan) {o : OneofPlan} (h : IsPlain o.name.toList) :
    BlockKind.struct.names (oneofField m o) = [fieldIdent o.name] := by
  simp only [oneofField]
  refine names_remark ?_ (names_remark ?_ (names_name ?_ rfl))
  · simp [isRemark, toString_text]
  · simp [isRemark, toString_text]
  · apply nameAfter?_eq_some (c := ':') (Naming.isPlain_fieldIdent h) (by decide)
    simp [toString_text]

theorem defines?_variant (hname : IsPlain name.toList)
    (hc : isNamePart c = false ∧ c ≠ '/' ∧ c ≠ '#') (h : name.toList ++ [c] <+: text.toList) :
    BlockKind.enum.defines? text = some name := by
  have hcons : ∃ d ds, text.toList = d :: ds ∧ d ≠ '/' ∧ d ≠ '#' := by
    obtain ⟨rest, hrest⟩ := h
    rw [← hrest]
    cases hcs : name.toList with
    | nil => exact ⟨c, rest, rfl, hc.2⟩
    | cons d ds =>
      have hd : isNamePart d = true := hname d (by simp [hcs])
      refine ⟨d, _, rfl, ?_, ?_⟩
      · rintro rfl
        exact absurd hd (by decide)
      · rintro rfl
        exact absurd hd (by decide)
  obtain ⟨d, ds, htext, hd, hd'⟩ := hcons
  have hremark : isRemark text = false := by simp [isRemark, htext, hd, hd']
  rw [defines?, hremark, leadingName_eq hname hc.1 h]
  rfl

theorem names_memberVariant {p : MemberPlan} (h : IsPlain p.field.name.toList) :
    BlockKind.enum.names (memberVariant p) = [typeIdent p.field.name] := by
  simp only [memberVariant, List.singleton_append]
  refine names_remark ?_ (names_deprecation p.field (names_remark ?_ (names_name ?_ rfl)))
  · simp [isRemark, toString_text]
  · simp [isRemark, toString_text]
  · apply defines?_variant (c := '(') (Naming.isPlain_typeIdent h) (by decide)
    simp [toString_text]

theorem names_enumVariant {v : EnumValue × String} (h : IsPlain v.2.toList) :
    BlockKind.enum.names (enumVariant v) = [v.2] := by
  have hattributes : BlockKind.enum.names ((if v.1.number = 0 then [line "#[default]"] else []) ++
      (if v.1.deprecated then [line "#[deprecated]"] else [])) = [] := by
    rw [names_append]
    split <;> split <;> rfl
  rw [enumVariant, names_append, hattributes, List.nil_append]
  refine names_name ?_ rfl
  apply defines?_variant (c := ' ') h (by decide)
  simp [toString_text]

theorem isPlain_append {x y : String} (hx : IsPlain x.toList) (hy : IsPlain y.toList) :
    IsPlain (x ++ y).toList := by
  rw [String.toList_append]
  exact hx.append hy

section Method

variable {head : String} {body : List Line}

theorem names_method (hk : k.defines? = nameAfter? "pub fn ") (hname : IsPlain name.toList)
    (hc : isNamePart c = false) (h : "pub fn ".toList ++ (name.toList ++ [c]) <+: head.toList)
    (hls : k.names ls = ns) : k.names (braces head body ++ ls) = name :: ns := by
  have hopen : nameAfter? "pub fn " (head ++ " \x7b") = some name := by
    apply nameAfter?_eq_some hname hc
    rw [String.toList_append]
    exact h.trans (List.prefix_append _ _)
  have hclose : k.defines? "\x7d" = none := by
    rw [hk]
    rfl
  rw [names_braces hclose hls, hk, hopen]
  rfl

theorem names_fixedMethod {cs rest : List Char} (hk : k.defines? = nameAfter? "pub fn ")
    (hname : name.toList = cs) (hplain : cs.all isNamePart = true) (hc : isNamePart c = false)
    (h : head.toList = 'p' :: 'u' :: 'b' :: ' ' :: 'f' :: 'n' :: ' ' :: (cs ++ c :: rest))
    (hls : k.names ls = ns) : k.names (braces head body ++ ls) = name :: ns := by
  apply names_method hk _ hc _ hls
  · rw [hname]
    exact List.all_eq_true.1 hplain
  · rw [hname, h]
    simp

theorem names_lastMethod (h : k.names (braces head body ++ []) = ns) :
    k.names (braces head body) = ns := by
  rwa [List.append_nil] at h

end Method

theorem names_memberAccessors (m : MessagePlan) (o : OneofPlan) {p : MemberPlan}
    (h : IsPlain p.field.name.toList) :
    BlockKind.methods.names (memberAccessors m o p) =
      [fieldIdent p.field.name, "set_" ++ snakeCase p.field.name] := by
  have hset : IsPlain ("set_" ++ snakeCase p.field.name).toList :=
    isPlain_append (List.all_eq_true.1 rfl) (Naming.isPlain_snakeCase h)
  simp only [memberAccessors, List.append_assoc, List.cons_append, List.nil_append]
  refine names_blank <| names_remark ?_ <| names_deprecation p.field <|
    names_method (c := '(') rfl (Naming.isPlain_fieldIdent h) (by decide) ?_ <|
    names_blank <| names_remark ?_ <| names_deprecation p.field <|
    names_lastMethod <| names_method (c := '(') rfl hset (by decide) ?_ rfl
  · simp [isRemark, toString_text]
  · simp [toString_text]
  · simp [isRemark, toString_text]
  · simp [toString_text]

theorem names_oneofAccessors (m : MessagePlan) {o : OneofPlan} (h : o.Plain) :
    BlockKind.methods.names (oneofAccessors m o) = o.oneof.accessors := by
  have hmembers : BlockKind.methods.names (o.members.flatMap (memberAccessors m o)) =
      (o.members.map (·.field)).flatMap fun f =>
        [fieldIdent f.name, "set_" ++ snakeCase f.name] := by
    rw [names_flatMap fun p hp => names_memberAccessors m o (h.members p hp), List.flatMap_map]
  have hsnake := Naming.isPlain_snakeCase h.name
  have hcase : IsPlain (snakeCase o.name ++ "_case").toList :=
    isPlain_append hsnake (List.all_eq_true.1 rfl)
  have hclear : IsPlain ("clear_" ++ snakeCase o.name).toList :=
    isPlain_append (List.all_eq_true.1 rfl) hsnake
  simp only [oneofAccessors, Oneof.accessors, OneofPlan.oneof, List.append_assoc, List.cons_append,
    List.nil_append]
  refine names_remark ?_ <| names_method (c := '(') rfl hcase (by decide) ?_ <|
    names_blank <| names_method (c := '(') rfl hclear (by decide) ?_ hmembers
  · simp [isRemark, toString_text]
  · simp [toString_text]
  · simp [toString_text]

theorem outlines_accessors {m : MessagePlan} (h : m.Plain) :
    Outlines (accessors m) (if m.oneofs.isEmpty then []
      else [{ kind := .methods, name := typeIdent m.name, names := m.accessors }]) := by
  have hnames : BlockKind.methods.names (separated (m.oneofs.map (oneofAccessors m))) =
      m.accessors :=
    names_separated fun o ho => names_oneofAccessors m (h.oneofs o ho)
  rw [accessors]
  split
  · exact .nil
  · exact .attr String.toList_ofList <|
      .named (Naming.isPlain_typeIdent h.name) rfl hnames <| .blank .nil

theorem outlines_struct {m : MessagePlan} (h : m.Plain) :
    Outlines (struct m) [{ kind := .struct, name := typeIdent m.name, names := m.fieldNames }] := by
  have hnames : BlockKind.struct.names (m.fields.flatMap field ++ m.oneofs.flatMap (oneofField m)) =
      m.fieldNames := by
    rw [names_append, names_flatMap_eq_map fun p hp => names_field (h.fields p hp),
      names_flatMap_eq_map fun o ho => names_oneofField m (h.oneofs o ho).name]
    simp only [MessagePlan.fieldNames, List.map_append, List.map_map, Function.comp_def]
  simp only [struct, List.cons_append, List.nil_append]
  refine .remark ?_ <| .attr String.toList_ofList <| .attr String.toList_ofList <|
    .named (Naming.isPlain_typeIdent h.name) rfl hnames <| .blank .nil
  simp [isRemark, toString_text]

theorem names_caseVariant {p : MemberPlan} (h : IsPlain p.field.name.toList) :
    BlockKind.enum.names [line s!"{typeIdent p.field.name},"] = [typeIdent p.field.name] := by
  refine names_name ?_ rfl
  apply defines?_variant (c := ',') (Naming.isPlain_typeIdent h) (by decide)
  simp [toString_text]

theorem outlines_oneof {o : OneofPlan} (h : o.Plain) : Outlines (oneof o) o.blocks := by
  have hvariants : BlockKind.enum.names (o.members.flatMap memberVariant) = o.oneof.variants := by
    rw [names_flatMap_eq_map fun p hp => names_memberVariant (h.members p hp)]
    simp only [Oneof.variants, OneofPlan.oneof, List.map_map, Function.comp_def]
  have hcases : BlockKind.enum.names
      (o.members.map fun p => line s!"{typeIdent p.field.name},") = o.oneof.variants := by
    rw [List.map_eq_flatMap, names_flatMap_eq_map fun p hp => names_caseVariant (h.members p hp)]
    simp only [Oneof.variants, OneofPlan.oneof, List.map_map, Function.comp_def]
  have hcaseIdent : IsPlain (o.ident ++ "Case").toList :=
    isPlain_append h.ident (List.all_eq_true.1 rfl)
  simp only [oneof, List.append_assoc, List.cons_append, List.nil_append]
  -- Only the start of a fixed line counts, so its characters are not computed.
  refine .remark ?_ <| .attr String.toList_ofList <| .named h.ident rfl hvariants <| .blank <|
    .remark ?_ <| .attr String.toList_ofList <| .named hcaseIdent rfl hcases <| .blank <|
    .attr String.toList_ofList <| .named h.ident rfl ?_ <| .blank .nil
  · simp [isRemark, toString_text]
  · simp [isRemark, toString_text]
  · refine names_method (c := '(') rfl (List.all_eq_true.1 rfl) (by decide) ?_ <|
      names_blank <| names_comment String.toList_ofList <|
      names_fixedMethod rfl String.toList_ofList rfl rfl String.toList_ofList <|
      names_blank <| names_comment String.toList_ofList <| names_comment String.toList_ofList <|
      names_lastMethod <| names_method (c := '<') rfl (List.all_eq_true.1 rfl) (by decide) ?_ rfl
    · simp [toString_text]
    · rw [String.toList_append]
      refine List.IsPrefix.trans ?_ (List.prefix_append _ _)
      rw [String.toList_ofList, String.toList_ofList, String.toList_ofList]
      exact ⟨_, rfl⟩

section Trait

-- The methods of a trait have no visibility of their own, so they are not among the names.

variable {head : String} {body : List Line} {cs : List Char}

theorem names_traitMethod (h : head.toList = 'f' :: 'n' :: ' ' :: cs)
    (hls : BlockKind.methods.names ls = ns) :
    BlockKind.methods.names (braces head body ++ ls) = ns := by
  have hopen : BlockKind.methods.defines? (head ++ " \x7b") = none := by
    apply nameAfter?_eq_none "fn " (by decide)
    rw [String.toList_append, h]
    simp
  rw [names_braces rfl hls, hopen]
  rfl

theorem names_lastTraitMethod (h : head.toList = 'f' :: 'n' :: ' ' :: cs) :
    BlockKind.methods.names (braces head body) = [] :=
  names_lastMethod (names_traitMethod h rfl)

theorem outlines_trait (h : ['i', 'm', 'p', 'l', ' ', ':'] <+: head.toList)
    (hbody : BlockKind.methods.names body = []) {bs : List Block} (hls : Outlines ls bs) :
    Outlines (braces head body ++ ls) ({ kind := .methods, name := "", names := [] } :: bs) := by
  apply Outlines.block (c := ':') (List.all_eq_true.1 rfl) (by decide) _ hbody hls
  rw [String.toList_append]
  exact h.trans (List.prefix_append _ _)

end Trait

theorem outlines_enum {e : EnumPlan} (h : e.Plain) : Outlines (enum e) e.blocks := by
  have hvariants : BlockKind.enum.names (e.values.flatMap enumVariant) = e.values.map (·.2) :=
    names_flatMap_eq_map fun v hv => names_enumVariant (h.values v hv)
  simp only [enum, List.append_assoc, List.cons_append, List.nil_append]
  refine .remark ?_ <| .attr String.toList_ofList <| .attr String.toList_ofList <|
    .named h.ident rfl hvariants <| .blank <|
    .attr String.toList_ofList <| .named h.ident rfl ?_ <| .blank <|
    .attr String.toList_ofList <| outlines_trait ?_ ?_ <| .blank <|
    outlines_trait ?_ ?_ <| .blank <| outlines_trait ?_ ?_ <| .blank <|
    outlines_trait ?_ ?_ <| .blank <| .skip ?_ _ <| .blank .nil
  · simp [isRemark, toString_text]
  · refine names_comment String.toList_ofList <| names_skip ?_ <| names_blank <|
      names_comment String.toList_ofList <|
      names_fixedMethod rfl String.toList_ofList rfl rfl String.toList_ofList <| names_blank <|
      names_lastMethod <|
      names_fixedMethod rfl String.toList_ofList rfl rfl String.toList_ofList rfl
    apply nameAfter?_eq_none "pub const" (by decide)
    simp [toString_text]
  · simp [toString_text]
  · exact names_traitMethod String.toList_ofList <| names_blank <|
      names_traitMethod String.toList_ofList <| names_blank <|
      names_traitMethod String.toList_ofList <| names_blank <|
      names_lastTraitMethod String.toList_ofList
  · simp [toString_text]
  · apply names_lastTraitMethod
    rw [String.toList_append, String.toList_append, toString_text, String.toList_ofList]
    rfl
  · simp [toString_text]
  · refine names_skip ?_ <| names_blank <| names_lastTraitMethod String.toList_ofList
    rfl
  · simp [toString_text]
  · apply names_lastTraitMethod
    rw [String.toList_append, String.toList_ofList]
    rfl
  · apply Block.ofHead?_eq_none "impl<'" (by decide)
    simp [toString_text]

theorem names_rpc {p : RpcPlan} (h : IsPlain p.method.toList) :
    BlockKind.transportMethods.names (rpc p) = [p.method] := by
  refine names_remark ?_ <| names_lastMethod <| names_method (c := '(') rfl h (by decide) ?_ rfl
  · simp [isRemark, toString_text]
  · simp [toString_text]

theorem outlines_service {v : ServicePlan} (h : v.Plain) : Outlines (service v) v.blocks := by
  simp only [service, List.append_assoc, List.cons_append, List.nil_append]
  refine .remark ?_ <| .attr String.toList_ofList <|
    .block (c := '<') h.client (by decide) ?_ rfl <| .blank <|
    .block (c := '<') h.client (by decide) ?_ ?_ <| .blank ?_
  · simp [isRemark, toString_text]
  · simp [toString_text, keyword]
  · simp [toString_text, keyword]
  · refine names_skip ?_ <| names_blank <|
      names_fixedMethod rfl String.toList_ofList rfl rfl String.toList_ofList <| names_blank <|
      names_fixedMethod rfl String.toList_ofList rfl rfl String.toList_ofList <| names_blank <|
      names_lastMethod <|
      names_fixedMethod rfl String.toList_ofList rfl rfl String.toList_ofList rfl
    apply nameAfter?_eq_none "pub const" (by decide)
    simp [toString_text]
  · split
    · exact .nil
    · refine .block (c := '<') h.client (by decide) ?_ ?_ (.blank .nil)
      · simp [toString_text, keyword]
      · rw [names_separated fun p hp => names_rpc (h.rpcs p hp), ← List.map_eq_flatMap]

theorem outlines_message {m : MessagePlan} (h : m.Plain) : Outlines (message m) m.blocks := by
  have hmodule : Outlines (if m.oneofs.isEmpty && m.messages.isEmpty && m.enums.isEmpty then [] else
      line s!"/// Nested types of `{m.fullName}`." :: braces s!"pub mod {moduleIdent m.name}"
        (m.oneofs.flatMap oneof ++ messages m.messages ++ m.enums.flatMap enum) ++ [blank])
      (if m.hasModule then
        [{ kind := .module, name := moduleIdent m.name, names := []
           inside := level m.oneofs m.messages m.enums [] }]
      else []) := by
    cases hnone : m.oneofs.isEmpty && m.messages.isEmpty && m.enums.isEmpty with
    | true =>
      simp only [MessagePlan.hasModule, hnone]
      exact .nil
    | false =>
      simp only [MessagePlan.hasModule, hnone, level, List.flatMap_nil, List.append_nil]
      refine .remark ?_ <| .named (Naming.isPlain_moduleIdent h.name) rfl ?_ <| .blank .nil
      · simp [isRemark, toString_text]
      · simp [names, defines?]
  rw [message_eq, List.append_assoc]
  exact (outlines_struct h).append ((outlines_accessors h).append hmodule)

theorem outlines_level {os : List OneofPlan} {ms : List MessagePlan} {es : List EnumPlan}
    {vs : List ServicePlan} (hos : ∀ o ∈ os, o.Plain) (hms : ∀ m ∈ ms, m.Plain)
    (hes : ∀ e ∈ es, e.Plain) (hvs : ∀ v ∈ vs, v.Plain) :
    Outlines (level os ms es vs) (levelBlocks os ms es vs) := by
  rw [level, levelBlocks, messages_eq_flatMap]
  exact (((Outlines.flatMap fun o ho => outlines_oneof (hos o ho)).append
    (.flatMap fun m hm => outlines_message (hms m hm))).append
      (.flatMap fun e he => outlines_enum (hes e he))).append
        (.flatMap fun v hv => outlines_service (hvs v hv))

theorem outlines_header (p : FilePlan) : Outlines (header p) [] := by
  have hpackage : Outlines (if p.package.isEmpty then [] else [line s!"// Package: {p.package}"])
      [] := by
    split
    · exact .nil
    · refine .remark ?_ .nil
      simp [isRemark, toString_text]
  rw [header, List.append_assoc]
  refine .remark ?_ <| hpackage.append <| .remark rfl <| .remark ?_ <| .blank .nil
  · simp [isRemark, toString_text]
  · simp [isRemark, toString_text]

/-- The comments at the start of a file are in front of its first module. -/
theorem outline_file (p : FilePlan) :
    outline (file p) = outline (level [] p.messages p.enums p.services) := by
  have hlines : file p = header p ++ level [] p.messages p.enums p.services := by
    simp only [file, level, List.flatMap_nil, List.nil_append, List.append_assoc]
  rw [hlines]
  exact outlines_header p _

end Source

end ProtoSchema
