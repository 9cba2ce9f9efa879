import ProtoSchema.Source
import ProtoSchema.Proofs.Plan.Boxing

/-! # Where code stands

The types inside a message are defined in a module named after it, and so are the variants of its
oneofs. Everything else about a message stands beside its struct. So the path of a type tells the
module of its definition, and a reference is written with the module in mind that it is written in.
-/

namespace ProtoSchema

namespace Source

/-- The lines of an item are among some lines, inside the given modules, the outermost first. -/
inductive Stands (item : List Line) : List String → List Line → Prop
  | here (before after : List Line) : Stands item [] (before ++ item ++ after)
  | inside {name : String} {mods : List String} {body : List Line} (before after : List Line)
      (h : Stands item mods body) :
      Stands item (name :: mods) (before ++ braces s!"pub mod {name}" body ++ after)

namespace Stands

variable {item part ls : List Line} {mods inner : List String}

theorem append_left (h : Stands item mods ls) (before : List Line) :
    Stands item mods (before ++ ls) := by
  cases h with
  | here front after =>
    rw [List.append_assoc front, ← List.append_assoc, ← List.append_assoc]
    exact .here _ _
  | inside front after h =>
    rw [List.append_assoc front, ← List.append_assoc, ← List.append_assoc]
    exact .inside _ _ h

theorem append_right (h : Stands item mods ls) (after : List Line) :
    Stands item mods (ls ++ after) := by
  cases h with
  | here before rest =>
    rw [List.append_assoc]
    exact .here _ _
  | inside before rest h =>
    rw [List.append_assoc]
    exact .inside _ _ h

theorem trans (h : Stands item mods ls) (hpart : Stands part inner item) :
    Stands part (mods ++ inner) ls := by
  induction h with
  | here before after => exact (hpart.append_left before).append_right after
  | inside before after _ ih => exact .inside before after ih

theorem flatMap {α : Type} {f : α → List Line} {xs : List α} {x : α} (hx : x ∈ xs)
    (h : Stands item mods (f x)) : Stands item mods (xs.flatMap f) := by
  obtain ⟨front, rest, rfl⟩ := List.append_of_mem hx
  rw [List.flatMap_append, List.flatMap_cons]
  exact (h.append_right _).append_left _

end Stands

theorem stands_self (item : List Line) : Stands item [] item := by
  have h : Stands item [] ([] ++ item ++ []) := .here [] []
  rwa [List.nil_append, List.append_nil] at h

/-- The head of the block that defines a type. -/
def definitionHead : TypeDef → String
  | .message m => s!"pub struct {Naming.typeIdent m.name}"
  | .enum e => s!"pub enum {Naming.typeIdent e.name}"

/-- The item is written with the type of some value, as it is seen from the module of the item. -/
inductive Renders : BaseType → List Line → Prop
  | field {m : MessagePlan} {p : FieldPlan} (hp : p ∈ m.fields) : Renders p.base (struct m)
  | accessor {m : MessagePlan} {o : OneofPlan} {p : MemberPlan} (ho : o ∈ m.oneofs)
      (hp : p ∈ o.members) : Renders p.outer (accessors m)
  | variant {o : OneofPlan} {p : MemberPlan} (hp : p ∈ o.members) : Renders p.inner (oneof o)
  | request {v : ServicePlan} {p : RpcPlan} (hp : p ∈ v.rpcs) : Renders p.request (service v)
  | response {v : ServicePlan} {p : RpcPlan} (hp : p ∈ v.rpcs) : Renders p.response (service v)

def IsPart (text whole : String) : Prop := ∃ before after, whole = before ++ text ++ after

theorem IsPart.refl (text : String) : IsPart text text := ⟨"", "", by simp⟩

theorem IsPart.trans {a b c : String} (h : IsPart a b) (h' : IsPart b c) : IsPart a c := by
  obtain ⟨x, y, rfl⟩ := h
  obtain ⟨z, w, rfl⟩ := h'
  exact ⟨z ++ x, y ++ w, by simp only [String.append_assoc]⟩

theorem IsPart.append_left {a b : String} (h : IsPart a b) (before : String) :
    IsPart a (before ++ b) :=
  h.trans ⟨before, "", by simp⟩

theorem IsPart.append_right {a b : String} (h : IsPart a b) (after : String) :
    IsPart a (b ++ after) :=
  h.trans ⟨"", after, by simp⟩

def Mentions (text : String) (ls : List Line) : Prop := ∃ l ∈ ls, IsPart text l.text

/-- What is written where a value of a type is stored, and whether the value is boxed. -/
inductive Stored (text : String) : Bool → String → Prop
  | plain : Stored text false text
  | optional : Stored text false (optionText text)
  | list : Stored text false s!"::std::vec::Vec<{text}>"
  | box : Stored text true (boxText true text)
  | optionalBox : Stored text true (optionText (boxText true text))

/-- What a variant of a oneof holds: a stored type, with attributes in front of it or without. -/
inductive Payload (shape : String) : String → Prop
  | plain : Payload shape shape
  | marked (attributes : String) : Payload shape s!"#[serde({attributes})] {shape}"

def texts (ls : List Line) : List String := ls.map (·.text)

/-- There are lines that give the type with the text to a field, to the getter and the setter of a
oneof's member, to its variant, or to what an rpc takes or gives. -/
inductive Typed (text : String) (ls : List Line) : Prop
  | field {name shape : String} {boxed : Bool} (hs : Stored text boxed shape)
      (h : s!"pub {name}: {shape}," ∈ texts ls)
  | accessors {getter setter : String}
      (hget : s!"pub fn {getter}(&self) -> " ++ optionText ("&" ++ text) ++ " \x7b" ∈ texts ls)
      (hset : s!"pub fn set_{setter}(&mut self, value: {text})" ++ " \x7b" ∈ texts ls)
  | variant {name payload shape : String} {boxed : Bool} (hs : Stored text boxed shape)
      (hp : Payload shape payload) (h : s!"{name}({payload})," ∈ texts ls)
  | request {method result : String}
      (h : s!"pub fn {method}(&self, request: &{text})" ++ result ++ " \x7b" ∈ texts ls)
  | response {call : String}
      (h : call ++ s!" -> ::core::result::Result<{text}, T::Error>" ++ " \x7b" ∈ texts ls)

/-- The lines have a field of a struct or a variant of a oneof for `f`, with the type that has the
text. -/
inductive Stores (f : Field) (text : String) (boxed : Bool) (ls : List Line) : Prop
  | field {shape : String} (hs : Stored text boxed shape)
      (h : s!"pub {Naming.fieldIdent f.name}: {shape}," ∈ texts ls)
  | variant {shape payload : String} (hs : Stored text boxed shape) (hp : Payload shape payload)
      (h : s!"{Naming.typeIdent f.name}({payload})," ∈ texts ls)

theorem Stored.isPart {text shape : String} {boxed : Bool} (h : Stored text boxed shape) :
    IsPart text shape := by
  cases h with
  | plain => exact .refl text
  | optional => exact ⟨_, _, rfl⟩
  | list => exact ⟨_, _, rfl⟩
  | box => exact ⟨_, _, rfl⟩
  | optionalBox => exact .trans (b := boxText true text) ⟨_, _, rfl⟩ ⟨_, _, rfl⟩

theorem length_around (before text after : String) :
    (before ++ text ++ after).length = text.length + (before.length + after.length) := by
  rw [String.length_append, String.length_append]
  omega

/-- A box is told from what else may stand around a type by its length. -/
theorem Stored.exists_length {text shape : String} {boxed : Bool} (h : Stored text boxed shape) :
    ∃ n, shape.length = text.length + n ∧ (boxed = true ↔ n = 19 ∨ n = 43) := by
  have hoption (t : String) : (optionText t).length = t.length + 24 :=
    length_around "::core::option::Option<" t ">"
  have hbox : (boxText true text).length = text.length + 19 :=
    length_around "::std::boxed::Box<" text ">"
  cases h with
  | plain => exact ⟨0, rfl, by decide⟩
  | optional => exact ⟨24, hoption text, by decide⟩
  | list => exact ⟨17, length_around "::std::vec::Vec<" text ">", by decide⟩
  | box => exact ⟨19, hbox, by decide⟩
  | optionalBox => exact ⟨43, (hoption _).trans (by rw [hbox]), by decide⟩

theorem Stored.unique {text shape : String} {boxed boxed' : Bool} (h : Stored text boxed shape)
    (h' : Stored text boxed' shape) : boxed' = boxed := by
  obtain ⟨n, hn, hboxed⟩ := h.exists_length
  obtain ⟨n', hn', hboxed'⟩ := h'.exists_length
  obtain rfl : n' = n := by omega
  exact Bool.eq_iff_iff.2 (hboxed'.trans hboxed.symm)

theorem mentions_of_mem_texts {text part : String} {ls : List Line} (hpart : IsPart text part)
    (h : part ∈ texts ls) : Mentions text ls := by
  obtain ⟨l, hl, rfl⟩ := List.mem_map.1 h
  exact ⟨l, hl, hpart⟩

theorem Typed.mentions {text : String} {ls : List Line} (h : Typed text ls) : Mentions text ls := by
  have hpart (before after : String) : IsPart text (before ++ text ++ after) := ⟨_, _, rfl⟩
  cases h with
  | field hs h => exact mentions_of_mem_texts (hs.isPart.trans ⟨_, _, rfl⟩) h
  | accessors _ hset => exact mentions_of_mem_texts ((hpart _ _).append_right _) hset
  | @variant name payload shape boxed hs hp h =>
    have hpayload : IsPart text payload := by
      cases hp with
      | plain => exact hs.isPart
      | marked attributes => exact hs.isPart.append_left _
    exact mentions_of_mem_texts (hpayload.trans ⟨_, _, rfl⟩) h
  | request h =>
    exact mentions_of_mem_texts (((hpart _ _).append_right _).append_right _) h
  | response h =>
    exact mentions_of_mem_texts (((hpart _ _).append_left _).append_right _) h

theorem Typed.mono {text : String} {ls ls' : List Line} (h : Typed text ls)
    (hsub : texts ls ⊆ texts ls') : Typed text ls' := by
  cases h with
  | field hs h => exact .field hs (hsub h)
  | accessors hget hset => exact .accessors (hsub hget) (hsub hset)
  | variant hs hp h => exact .variant hs hp (hsub h)
  | request h => exact .request (hsub h)
  | response h => exact .response (hsub h)

theorem texts_append (ls ls' : List Line) : texts (ls ++ ls') = texts ls ++ texts ls' :=
  List.map_append

theorem texts_braces (head : String) (body : List Line) :
    texts (braces head body) = (head ++ " \x7b") :: (texts body ++ ["\x7d"]) := by
  simp [texts, braces, deeper, line, Function.comp_def]

theorem texts_subset_flatMap {α : Type} {f : α → List Line} {xs : List α} {x : α} (hx : x ∈ xs) :
    texts (f x) ⊆ texts (xs.flatMap f) := by
  apply List.map_subset
  exact fun l hl => List.mem_flatMap.2 ⟨x, hx, hl⟩

theorem texts_subset_separated {parts : List (List Line)} {part : List Line} (h : part ∈ parts) :
    texts part ⊆ texts (separated parts) := by
  apply List.map_subset
  fun_induction separated parts with
  | case1 => cases h
  | case2 ls =>
    obtain rfl := List.mem_singleton.1 h
    exact List.Subset.refl _
  | case3 ls rest _ ih =>
    rcases List.mem_cons.1 h with rfl | h
    · exact List.subset_append_left _ _
    · intro l hl
      exact List.mem_append_right _ (List.mem_cons_of_mem _ (ih h hl))

theorem stored_boxText (boxed : Bool) (text : String) : Stored text boxed (boxText boxed text) := by
  cases boxed with
  | false => exact .plain
  | true => exact .box

/-- The type of a field is written with a box just if the field is marked and holds one message. -/
theorem stored_fieldType (p : FieldPlan) :
    Stored p.base.text (p.boxed && p.base.isMessage && p.field.label ≠ .repeated) (fieldType p) := by
  have hoption : Stored p.base.text p.boxed (optionText (boxText p.boxed p.base.text)) := by
    cases p.boxed with
    | false => exact .optional
    | true => exact .optionalBox
  rw [fieldType]
  cases hl : p.field.label <;> cases hm : p.base.isMessage
  · simpa using .plain
  · simpa using hoption
  · simpa using .optional
  · simpa using hoption
  · simpa using .list
  · simpa using .list

theorem mem_texts_field (p : FieldPlan) :
    s!"pub {Naming.fieldIdent p.field.name}: {fieldType p}," ∈ texts (field p) := by
  rw [field, texts_append]
  exact List.mem_append_right _ (List.mem_cons_of_mem _ (List.mem_singleton_self _))

theorem exists_mem_texts_memberVariant (p : MemberPlan) :
    ∃ payload : String, Payload (boxText p.boxed p.inner.text) payload ∧
      s!"{Naming.typeIdent p.field.name}({payload})," ∈ texts (memberVariant p) := by
  rw [memberVariant, texts_append]
  refine ⟨_, ?_, List.mem_append_right _ (List.mem_cons_of_mem _ (List.mem_singleton_self _))⟩
  split
  · exact .plain
  · exact .marked _

theorem typed_memberAccessors (m : MessagePlan) (o : OneofPlan) (p : MemberPlan) :
    Typed p.outer.text (memberAccessors m o p) := by
  have hget : s!"pub fn {Naming.fieldIdent p.field.name}(&self) -> " ++
      optionText ("&" ++ p.outer.text) ++ " \x7b" ∈ texts (memberAccessors m o p) := by
    simp only [memberAccessors, texts_append, texts_braces]
    iterate 3 apply List.mem_append_left
    exact List.mem_append_right _ List.mem_cons_self
  have hset : s!"pub fn set_{Naming.snakeCase p.field.name}(&mut self, value: {p.outer.text})" ++
      " \x7b" ∈ texts (memberAccessors m o p) := by
    simp only [memberAccessors, texts_append, texts_braces]
    exact List.mem_append_right _ List.mem_cons_self
  exact .accessors hget hset

theorem typed_rpc (p : RpcPlan) :
    Typed p.request.text (rpc p) ∧ Typed p.response.text (rpc p) := by
  have hhead : s!"pub fn {p.method}(&self, request: &{p.request.text})" ++
      s!" -> ::core::result::Result<{p.response.text}, T::Error>" ++ " \x7b" ∈ texts (rpc p) := by
    rw [rpc, texts, List.map_cons, ← texts, texts_braces]
    exact List.mem_cons_of_mem _ List.mem_cons_self
  exact ⟨.request hhead, .response hhead⟩

theorem texts_field_subset {m : MessagePlan} {p : FieldPlan} (hp : p ∈ m.fields) :
    texts (field p) ⊆ texts (struct m) := by
  intro text h
  simp only [struct, texts_append, texts_braces]
  apply List.mem_append_left
  apply List.mem_append_right
  apply List.mem_cons_of_mem
  apply List.mem_append_left
  exact List.mem_append_left _ (texts_subset_flatMap hp h)

theorem texts_memberAccessors_subset {m : MessagePlan} {o : OneofPlan} {p : MemberPlan}
    (ho : o ∈ m.oneofs) (hp : p ∈ o.members) :
    texts (memberAccessors m o p) ⊆ texts (accessors m) := by
  intro text h
  have hne : m.oneofs.isEmpty = false := List.isEmpty_eq_false_iff_exists_mem.2 ⟨o, ho⟩
  have honeof : text ∈ texts (oneofAccessors m o) := by
    rw [oneofAccessors, texts_append]
    exact List.mem_append_right _ (texts_subset_flatMap hp h)
  rw [accessors, hne, if_neg (by decide), texts_append]
  apply List.mem_append_left
  apply List.mem_cons_of_mem
  rw [← texts, texts_braces]
  apply List.mem_cons_of_mem
  apply List.mem_append_left
  exact texts_subset_separated (List.mem_map_of_mem ho) honeof

theorem texts_memberVariant_subset {o : OneofPlan} {p : MemberPlan} (hp : p ∈ o.members) :
    texts (memberVariant p) ⊆ texts (oneof o) := by
  intro text h
  rw [oneof]
  simp only [List.append_assoc]
  rw [texts_append, texts_append, texts_braces]
  apply List.mem_append_right
  apply List.mem_append_left
  apply List.mem_cons_of_mem
  exact List.mem_append_left _ (texts_subset_flatMap hp h)

theorem texts_rpc_subset {v : ServicePlan} {p : RpcPlan} (hp : p ∈ v.rpcs) :
    texts (rpc p) ⊆ texts (service v) := by
  intro text h
  have hne : v.rpcs.isEmpty = false := List.isEmpty_eq_false_iff_exists_mem.2 ⟨p, hp⟩
  rw [service, hne, texts_append]
  apply List.mem_append_right
  rw [if_neg (by decide), texts_append, texts_braces]
  apply List.mem_append_left
  apply List.mem_cons_of_mem
  apply List.mem_append_left
  exact texts_subset_separated (List.mem_map_of_mem hp) h

theorem Renders.typed {base : BaseType} {item : List Line} (h : Renders base item) :
    Typed base.text item := by
  cases h with
  | @field m p hp =>
    exact .field (stored_fieldType p) (texts_field_subset hp (mem_texts_field p))
  | @accessor m o p ho hp =>
    exact (typed_memberAccessors m o p).mono (texts_memberAccessors_subset ho hp)
  | @variant o p hp =>
    obtain ⟨payload, hpayload, hmem⟩ := exists_mem_texts_memberVariant p
    exact .variant (stored_boxText p.boxed p.inner.text) hpayload
      (texts_memberVariant_subset hp hmem)
  | @request v p hp => exact (typed_rpc p).1.mono (texts_rpc_subset hp)
  | @response v p hp => exact (typed_rpc p).2.mono (texts_rpc_subset hp)

theorem Renders.mentions {base : BaseType} {item : List Line} (h : Renders base item) :
    Mentions base.text item :=
  h.typed.mentions

variable {p : MessagePlan} {item : List Line} {mods : List String}

theorem messages_eq_flatMap (ps : List MessagePlan) : messages ps = ps.flatMap message := by
  induction ps with
  | nil => rfl
  | cons p ps ih => rw [messages, ih, List.flatMap_cons]

theorem message_eq (p : MessagePlan) :
    message p = struct p ++ accessors p ++
      (if p.oneofs.isEmpty && p.messages.isEmpty && p.enums.isEmpty then []
        else
          line s!"/// Nested types of `{p.fullName}`."
            :: braces s!"pub mod {Naming.moduleIdent p.name}"
              (p.oneofs.flatMap oneof ++ messages p.messages ++ p.enums.flatMap enum)
            ++ [blank]) := by
  cases p
  rw [message]

theorem stands_struct (p : MessagePlan) : Stands (struct p) [] (message p) := by
  rw [message_eq]
  exact ((stands_self _).append_right _).append_right _

theorem stands_accessors (p : MessagePlan) : Stands (accessors p) [] (message p) := by
  rw [message_eq]
  exact ((stands_self _).append_left _).append_right _

theorem stands_nested
    (h : Stands item mods
      (p.oneofs.flatMap oneof ++ messages p.messages ++ p.enums.flatMap enum))
    (hne : p.oneofs ≠ [] ∨ p.messages ≠ [] ∨ p.enums ≠ []) :
    Stands item (Naming.moduleIdent p.name :: mods) (message p) := by
  have hfull : (p.oneofs.isEmpty && p.messages.isEmpty && p.enums.isEmpty) = false := by
    rw [← Bool.not_eq_true, Bool.and_eq_true, Bool.and_eq_true, List.isEmpty_iff, List.isEmpty_iff,
      List.isEmpty_iff]
    tauto
  rw [message_eq, hfull]
  exact (Stands.inside [line s!"/// Nested types of `{p.fullName}`."] [blank] h).append_left _

theorem stands_oneof {o : OneofPlan} (ho : o ∈ p.oneofs) :
    Stands (oneof o) [Naming.moduleIdent p.name] (message p) := by
  apply stands_nested
  · rw [List.append_assoc]
    exact (Stands.flatMap ho (stands_self _)).append_right _
  · exact Or.inl (List.ne_nil_of_mem ho)

theorem stands_enum (e : EnumPlan) :
    Stands (braces s!"pub enum {e.ident}" (e.values.flatMap enumVariant)) [] (enum e) := by
  unfold enum
  simp only [List.append_assoc]
  rw [← List.append_assoc]
  exact .here _ _

end Source

namespace Plan

variable {b : Batch} {fileId package : String} {parents scope mods : List String}

theorem field_ok_iff {f : Field} {p : FieldPlan} :
    field b fileId scope mods f = .ok p ↔ ∃ x, b.resolve f.type fileId scope = .ok x ∧
      p = ⟨f, b.baseType fileId mods x, isBoxed b fileId scope f x⟩ := by
  simp only [field, bind_eq_ok, pure_eq_ok]

theorem member_ok_iff {f : Field} {innerMods : List String} {p : MemberPlan} :
    member b fileId scope mods innerMods f = .ok p ↔
      ∃ x, b.resolve f.type fileId scope = .ok x ∧
        p = ⟨f, b.baseType fileId mods x, b.baseType fileId innerMods x,
          isBoxed b fileId scope f x⟩ := by
  simp only [member, bind_eq_ok, pure_eq_ok]

/-- A oneof of the message `m` inside the messages `parents`. -/
def oneof (b : Batch) (fileId : String) (parents : List String) (m : Message) (o : Oneof) :
    Except Error OneofPlan := do
  let members ← o.fields.mapM (member b fileId (parents ++ [m.name])
    (parents.map Naming.moduleIdent) ((parents ++ [m.name]).map Naming.moduleIdent))
  return ⟨o.name, OneofPlan.identOf m o, members⟩

theorem oneof_ok_iff {m : Message} {o : Oneof} {p : OneofPlan} :
    oneof b fileId parents m o = .ok p ↔ ∃ members,
      o.fields.mapM (member b fileId (parents ++ [m.name]) (parents.map Naming.moduleIdent)
        ((parents ++ [m.name]).map Naming.moduleIdent)) = .ok members ∧
      p = ⟨o.name, OneofPlan.identOf m o, members⟩ := by
  simp only [oneof, bind_eq_ok, pure_eq_ok]

/-- The parts of the plan of a message inside the messages `parents`. -/
structure IsMessage (b : Batch) (fileId package : String) (parents : List String) (m : Message)
    (p : MessagePlan) : Prop where
  fullName : p.fullName = Plan.fullName package (parents ++ [m.name])
  name : p.name = m.name
  fields : m.fields.mapM (field b fileId (parents ++ [m.name]) (parents.map Naming.moduleIdent)) =
    .ok p.fields
  oneofs : m.oneofs.mapM (oneof b fileId parents m) = .ok p.oneofs
  messages : m.messages.mapM (message b fileId package (parents ++ [m.name])) = .ok p.messages
  enums : p.enums = m.enums.map fun e =>
    EnumPlan.ofEnum (Plan.fullName package (parents ++ [m.name] ++ [e.name])) e

theorem messages_eq_mapM (ms : List Message) :
    messages b fileId package parents ms = ms.mapM (message b fileId package parents) := by
  induction ms with
  | nil => rfl
  | cons m ms ih => rw [messages, ih, List.mapM_cons]

theorem message_ok_iff {m : Message} {p : MessagePlan} :
    message b fileId package parents m = .ok p ↔ IsMessage b fileId package parents m p := by
  obtain ⟨name, position, fields, oneofs, messages, enums⟩ := m
  rw [message]
  constructor
  · intro h
    obtain ⟨fields', hfields, h⟩ := bind_eq_ok.1 h
    obtain ⟨oneofs', honeofs, h⟩ := bind_eq_ok.1 h
    obtain ⟨messages', hmessages, h⟩ := bind_eq_ok.1 h
    obtain rfl := Except.ok.inj h
    rw [messages_eq_mapM] at hmessages
    exact ⟨rfl, rfl, hfields, honeofs, hmessages, rfl⟩
  · rintro ⟨hfullName, hname, hfields, honeofs, hmessages, henums⟩
    obtain ⟨fullName, name', fields', oneofs', messages', enums'⟩ := p
    obtain rfl : fullName = _ := hfullName
    obtain rfl : name' = name := hname
    obtain rfl : enums' = _ := henums
    rw [← messages_eq_mapM] at hmessages
    exact bind_eq_ok.2 ⟨_, hfields, bind_eq_ok.2 ⟨_, honeofs, bind_eq_ok.2 ⟨_, hmessages, rfl⟩⟩⟩

theorem rpc_ok_iff {service : String} {r : Rpc} {p : RpcPlan} :
    rpc b fileId service r = .ok p ↔ ∃ x y,
      b.resolve r.request fileId [service, r.name] = .ok x ∧
      b.resolve r.response fileId [service, r.name] = .ok y ∧
      p = ⟨r, rpcIdent r.name, b.baseType fileId [] x, b.baseType fileId [] y⟩ := by
  simp only [rpc, bind_eq_ok, pure_eq_ok, exists_and_left]

theorem service_ok_iff {v : Service} {p : ServicePlan} :
    service b fileId package v = .ok p ↔ checkMethods v.name [] v.rpcs = .ok () ∧ ∃ rpcs,
      v.rpcs.mapM (rpc b fileId v.name) = .ok rpcs ∧
      p = ⟨fullName package [v.name], Naming.typeIdent v.name ++ "Client", rpcs⟩ := by
  simp only [service, bind_eq_ok, pure_eq_ok]
  constructor
  · rintro ⟨⟨⟩, hmethods, hrpcs⟩
    exact ⟨hmethods, hrpcs⟩
  · rintro ⟨hmethods, hrpcs⟩
    exact ⟨(), hmethods, hrpcs⟩

theorem file_ok_iff {s : Schema} {p : FilePlan} :
    file b fileId s = .ok p ↔ ∃ ms vs,
      s.messages.mapM (message b fileId s.package []) = .ok ms ∧
      s.services.mapM (service b fileId s.package) = .ok vs ∧
      p = ⟨fileId, s.package, b.moduleName fileId, ms,
        s.enums.map fun e => EnumPlan.ofEnum (fullName s.package [e.name]) e, vs⟩ := by
  simp only [file, messages_eq_mapM, bind_eq_ok, pure_eq_ok, exists_and_left]

/-- The code that is made of a type inside the messages `parents`. -/
def CodeOf (b : Batch) (fileId package : String) (parents : List String) :
    TypeDef → List Line → Prop
  | .message m, item => ∃ p, message b fileId package parents m = .ok p ∧ item = Source.message p
  | .enum e, item =>
    item = Source.enum (EnumPlan.ofEnum (fullName package (parents ++ [e.name])) e)

theorem IsMessage.nested_ne_nil {m : Message} {p : MessagePlan} {path : List String} {d : TypeDef}
    (h : IsMessage b fileId package parents m p) (hd : Declared m.messages m.enums path d) :
    p.messages ≠ [] ∨ p.enums ≠ [] := by
  obtain ⟨name, rest, rfl, hname⟩ := hd.exists_cons
  rcases List.mem_append.1 hname with hname | hname
  · obtain ⟨n, hn, -⟩ := List.mem_map.1 hname
    obtain ⟨q, hq⟩ := exists_of_mapM h.messages hn
    exact Or.inl (List.ne_nil_of_mem ((mem_mapM h.messages).2 ⟨n, hn, hq⟩))
  · obtain ⟨e, he, -⟩ := List.mem_map.1 hname
    rw [h.enums]
    exact Or.inr (List.ne_nil_of_mem (List.mem_map_of_mem he))

/-- The code of a declared type stands in the modules of the messages around it. -/
theorem exists_stands {ms : List Message} {es : List Enum} {path : List String} {d : TypeDef}
    (h : Declared ms es path d) {plans : List MessagePlan}
    (hplans : ms.mapM (message b fileId package parents) = .ok plans) :
    ∃ item, CodeOf b fileId package (parents ++ path.dropLast) d item ∧
      Source.Stands item (path.dropLast.map Naming.moduleIdent) (Source.messages plans ++
        (es.map fun e => EnumPlan.ofEnum (fullName package (parents ++ [e.name])) e).flatMap
          Source.enum) := by
  induction h generalizing parents plans with
  | @message ms es m hm =>
    obtain ⟨p, hp⟩ := exists_of_mapM hplans hm
    have hmem : p ∈ plans := (mem_mapM hplans).2 ⟨m, hm, hp⟩
    refine ⟨Source.message p, ⟨p, by simpa using hp, rfl⟩, ?_⟩
    rw [Source.messages_eq_flatMap]
    exact (Source.Stands.flatMap hmem (Source.stands_self _)).append_right _
  | @enum ms es e he =>
    refine ⟨Source.enum (EnumPlan.ofEnum (fullName package (parents ++ [e.name])) e),
      by simp [CodeOf], ?_⟩
    apply Source.Stands.append_left
    exact Source.Stands.flatMap (List.mem_map_of_mem he) (Source.stands_self _)
  | @inner ms es m path d hm hd ih =>
    obtain ⟨p, hp⟩ := exists_of_mapM hplans hm
    have hmem : p ∈ plans := (mem_mapM hplans).2 ⟨m, hm, hp⟩
    have hparts := message_ok_iff.1 hp
    obtain ⟨item, hitem, hstands⟩ := ih hparts.messages
    have hpath : (m.name :: path).dropLast = m.name :: path.dropLast :=
      List.dropLast_cons_of_ne_nil hd.ne_nil
    refine ⟨item, by simpa [hpath] using hitem, ?_⟩
    rw [hpath, List.map_cons, Source.messages_eq_flatMap, ← hparts.name]
    apply Source.Stands.append_right
    apply Source.Stands.flatMap hmem
    apply Source.stands_nested
    · rw [List.append_assoc, hparts.enums]
      exact hstands.append_left _
    · exact Or.inr (hparts.nested_ne_nil hd)

theorem CodeOf.defines {d : TypeDef} {item : List Line}
    (h : CodeOf b fileId package parents d item) :
    ∃ body, Source.Stands (Source.braces (Source.definitionHead d) body) [] item := by
  cases d with
  | message m =>
    obtain ⟨p, hp, rfl⟩ := h
    have hstruct := Source.stands_struct p
    rw [Source.struct, (message_ok_iff.1 hp).name] at hstruct
    exact ⟨_, hstruct.trans (.here _ _)⟩
  | enum e =>
    obtain rfl := h
    exact ⟨_, Source.stands_enum (EnumPlan.ofEnum (fullName package (parents ++ [e.name])) e)⟩

variable {m : Message} {item : List Line}

theorem CodeOf.exists_field (h : CodeOf b fileId package parents (.message m) item) {f : Field}
    (hf : f ∈ m.fields) : ∃ p x, item = Source.message p ∧
      b.resolve f.type fileId (parents ++ [m.name]) = .ok x ∧
      ⟨f, b.baseType fileId (parents.map Naming.moduleIdent) x,
        isBoxed b fileId (parents ++ [m.name]) f x⟩ ∈ p.fields := by
  obtain ⟨p, hp, rfl⟩ := h
  have hfields := (message_ok_iff.1 hp).fields
  obtain ⟨q, hq⟩ := exists_of_mapM hfields hf
  have hmem : q ∈ p.fields := (mem_mapM hfields).2 ⟨f, hf, hq⟩
  obtain ⟨x, hx, rfl⟩ := field_ok_iff.1 hq
  exact ⟨p, x, rfl, hx, hmem⟩

theorem CodeOf.exists_member (h : CodeOf b fileId package parents (.message m) item) {o : Oneof}
    {f : Field} (ho : o ∈ m.oneofs) (hf : f ∈ o.fields) :
    ∃ p x, item = Source.message p ∧ p.name = m.name ∧
      b.resolve f.type fileId (parents ++ [m.name]) = .ok x ∧ ∃ q ∈ p.oneofs,
        ⟨f, b.baseType fileId (parents.map Naming.moduleIdent) x,
          b.baseType fileId ((parents ++ [m.name]).map Naming.moduleIdent) x,
          isBoxed b fileId (parents ++ [m.name]) f x⟩ ∈ q.members := by
  obtain ⟨p, hp, rfl⟩ := h
  have hparts := message_ok_iff.1 hp
  obtain ⟨q, hq⟩ := exists_of_mapM hparts.oneofs ho
  have hmem : q ∈ p.oneofs := (mem_mapM hparts.oneofs).2 ⟨o, ho, hq⟩
  obtain ⟨members, hmembers, rfl⟩ := oneof_ok_iff.1 hq
  obtain ⟨r, hr⟩ := exists_of_mapM hmembers hf
  have hmember : r ∈ members := (mem_mapM hmembers).2 ⟨f, hf, hr⟩
  obtain ⟨x, hx, rfl⟩ := member_ok_iff.1 hr
  exact ⟨p, x, rfl, hparts.name, hx, _, hmem, hmember⟩

theorem CodeOf.renders_field (h : CodeOf b fileId package parents (.message m) item) {f : Field}
    (hf : f ∈ m.fields) : ∃ x part, b.resolve f.type fileId (parents ++ [m.name]) = .ok x ∧
      Source.Renders (b.baseType fileId (parents.map Naming.moduleIdent) x) part ∧
      Source.Stands part [] item := by
  obtain ⟨p, x, rfl, hx, hmem⟩ := h.exists_field hf
  exact ⟨x, _, hx, .field hmem, Source.stands_struct p⟩

theorem CodeOf.renders_member (h : CodeOf b fileId package parents (.message m) item) {o : Oneof}
    {f : Field} (ho : o ∈ m.oneofs) (hf : f ∈ o.fields) :
    ∃ x outer inner, b.resolve f.type fileId (parents ++ [m.name]) = .ok x ∧
      Source.Renders (b.baseType fileId (parents.map Naming.moduleIdent) x) outer ∧
      Source.Stands outer [] item ∧
      Source.Renders (b.baseType fileId ((parents ++ [m.name]).map Naming.moduleIdent) x) inner ∧
      Source.Stands inner [Naming.moduleIdent m.name] item := by
  obtain ⟨p, x, rfl, hname, hx, q, hq, hmember⟩ := h.exists_member ho hf
  exact ⟨x, _, _, hx, .accessor hq hmember, Source.stands_accessors p, .variant hmember,
    hname ▸ Source.stands_oneof hq⟩

theorem isBoxed_eq (b : Batch) (fileId : String) (scope mods : List String) (f : Field)
    (x : Resolved) : (isBoxed b fileId scope f x && (b.baseType fileId mods x).isMessage &&
      f.label ≠ .repeated) = isBoxed b fileId scope f x := by
  cases x with
  | scalar s => rfl
  | enum path e => rfl
  | message path n => cases h : f.label <;> simp [isBoxed, Batch.baseType, BaseType.isMessage, h]

theorem CodeOf.stores (h : CodeOf b fileId package parents (.message m) item) {f : Field}
    {boxed : Bool} (hm : Marks b fileId m (parents ++ [m.name]) f boxed) :
    ∃ x inner part, b.resolve f.type fileId (parents ++ [m.name]) = .ok x ∧
      inner <+: [m.name] ∧
      Source.Stores f (b.baseType fileId ((parents ++ inner).map Naming.moduleIdent) x).text boxed
        part ∧
      Source.Stands part (inner.map Naming.moduleIdent) item := by
  obtain ⟨hf, r, hr, rfl⟩ := hm
  rcases List.mem_append.1 hf with hf | hf
  · obtain ⟨p, x, rfl, hx, hmem⟩ := h.exists_field hf
    obtain rfl := Except.ok.inj (hr.symm.trans hx)
    have hstored := Source.stored_fieldType
      ⟨f, b.baseType fileId (parents.map Naming.moduleIdent) r,
        isBoxed b fileId (parents ++ [m.name]) f r⟩
    rw [isBoxed_eq] at hstored
    refine ⟨r, [], _, hr, List.nil_prefix, .field (by simpa using hstored) ?_,
      Source.stands_struct p⟩
    exact Source.texts_field_subset hmem (Source.mem_texts_field _)
  · obtain ⟨o, ho, hf⟩ := List.mem_flatMap.1 hf
    obtain ⟨p, x, rfl, hname, hx, q, hq, hmember⟩ := h.exists_member ho hf
    obtain rfl := Except.ok.inj (hr.symm.trans hx)
    obtain ⟨payload, hpayload, hmem⟩ := Source.exists_mem_texts_memberVariant _
    refine ⟨r, [m.name], _, hr, List.prefix_rfl, .variant (Source.stored_boxText _ _) hpayload
      (Source.texts_memberVariant_subset hmember hmem), hname ▸ Source.stands_oneof hq⟩

end Plan

namespace Schema

/-- A reference of a schema, with the scope in which it is resolved and a module in which the code of
the file has it. Fields stand beside the struct of their message. So do the accessors of a oneof, but
its variants stand inside the message's module. -/
inductive Refers (s : Schema) : List String → List String → String → Prop
  | field {path : List String} {m : Message} {f : Field} (hm : s.Declares path (.message m))
      (hf : f ∈ m.fields) : Refers s path (path.dropLast.map Naming.moduleIdent) f.type
  | accessor {path : List String} {m : Message} {o : Oneof} {f : Field}
      (hm : s.Declares path (.message m)) (ho : o ∈ m.oneofs) (hf : f ∈ o.fields) :
      Refers s path (path.dropLast.map Naming.moduleIdent) f.type
  | variant {path : List String} {m : Message} {o : Oneof} {f : Field}
      (hm : s.Declares path (.message m)) (ho : o ∈ m.oneofs) (hf : f ∈ o.fields) :
      Refers s path (path.map Naming.moduleIdent) f.type
  | request {v : Service} {r : Rpc} (hv : v ∈ s.services) (hr : r ∈ v.rpcs) :
      Refers s [v.name, r.name] [] r.request
  | response {v : Service} {r : Rpc} (hv : v ∈ s.services) (hr : r ∈ v.rpcs) :
      Refers s [v.name, r.name] [] r.response

end Schema

namespace Plan

variable {b : Batch} {fileId : String} {s : Schema} {plan : FilePlan}

theorem file_stands (h : file b fileId s = .ok plan) {path : List String} {d : TypeDef}
    (hd : s.Declares path d) : ∃ item, CodeOf b fileId s.package path.dropLast d item ∧
      Source.Stands item (path.dropLast.map Naming.moduleIdent) (Source.file plan) := by
  obtain ⟨ms, vs, hms, -, rfl⟩ := file_ok_iff.1 h
  obtain ⟨item, hitem, hstands⟩ := exists_stands hd hms
  refine ⟨item, hitem, ?_⟩
  rw [Source.file, List.append_assoc (Source.header _)]
  exact (hstands.append_left _).append_right _

theorem file_defines (h : file b fileId s = .ok plan) {path : List String} {d : TypeDef}
    (hd : s.Declares path d) : ∃ body, Source.Stands (Source.braces (Source.definitionHead d) body)
      (path.dropLast.map Naming.moduleIdent) (Source.file plan) := by
  obtain ⟨item, hitem, hstands⟩ := file_stands h hd
  obtain ⟨body, hbody⟩ := hitem.defines
  exact ⟨body, by simpa using hstands.trans hbody⟩

theorem file_renders_rpc (h : file b fileId s = .ok plan) {v : Service} {r : Rpc}
    (hv : v ∈ s.services) (hr : r ∈ v.rpcs) : ∃ x y part,
      b.resolve r.request fileId [v.name, r.name] = .ok x ∧
      b.resolve r.response fileId [v.name, r.name] = .ok y ∧
      Source.Renders (b.baseType fileId [] x) part ∧ Source.Renders (b.baseType fileId [] y) part ∧
      Source.Stands part [] (Source.file plan) := by
  obtain ⟨ms, vs, -, hvs, rfl⟩ := file_ok_iff.1 h
  obtain ⟨p, hp⟩ := exists_of_mapM hvs hv
  have hmem : p ∈ vs := (mem_mapM hvs).2 ⟨v, hv, hp⟩
  obtain ⟨-, rpcs, hrpcs, rfl⟩ := service_ok_iff.1 hp
  obtain ⟨q, hq⟩ := exists_of_mapM hrpcs hr
  have hrpc : q ∈ rpcs := (mem_mapM hrpcs).2 ⟨r, hr, hq⟩
  have hrequest := Source.Renders.request
    (v := ⟨fullName s.package [v.name], Naming.typeIdent v.name ++ "Client", rpcs⟩) hrpc
  have hresponse := Source.Renders.response
    (v := ⟨fullName s.package [v.name], Naming.typeIdent v.name ++ "Client", rpcs⟩) hrpc
  obtain ⟨x, y, hx, hy, rfl⟩ := rpc_ok_iff.1 hq
  refine ⟨x, y, _, hx, hy, hrequest, hresponse, ?_⟩
  exact (Source.Stands.flatMap hmem (Source.stands_self _)).append_left _

/-- Every reference of a planned file resolves, and is written in the module it stands in. -/
theorem file_renders (h : file b fileId s = .ok plan) {scope mods : List String}
    {reference : String} (hr : s.Refers scope mods reference) :
    ∃ x part, b.resolve reference fileId scope = .ok x ∧
      Source.Renders (b.baseType fileId mods x) part ∧
      Source.Stands part mods (Source.file plan) := by
  have hpath : ∀ {path : List String} {m : Message}, s.Declares path (.message m) →
      path.dropLast ++ [m.name] = path :=
    fun hm => List.dropLast_append_getLast? _ (Declared.getLast? hm)
  cases hr with
  | @field path m f hm hf =>
    obtain ⟨item, hitem, hstands⟩ := file_stands h hm
    obtain ⟨x, part, hx, hrenders, hpart⟩ := hitem.renders_field hf
    rw [hpath hm] at hx
    exact ⟨x, part, hx, hrenders, by simpa using hstands.trans hpart⟩
  | @accessor path m o f hm ho hf =>
    obtain ⟨item, hitem, hstands⟩ := file_stands h hm
    obtain ⟨x, part, -, hx, hrenders, hpart, -, -⟩ := hitem.renders_member ho hf
    rw [hpath hm] at hx
    exact ⟨x, part, hx, hrenders, by simpa using hstands.trans hpart⟩
  | @variant path m o f hm ho hf =>
    obtain ⟨item, hitem, hstands⟩ := file_stands h hm
    obtain ⟨x, -, part, hx, -, -, hrenders, hpart⟩ := hitem.renders_member ho hf
    rw [hpath hm] at hx hrenders
    refine ⟨x, part, hx, hrenders, ?_⟩
    have hmods := hstands.trans hpart
    rwa [← List.map_singleton, ← List.map_append, hpath hm] at hmods
  | @request v r hv hr =>
    obtain ⟨x, -, part, hx, -, hrenders, -, hpart⟩ := file_renders_rpc h hv hr
    exact ⟨x, part, hx, hrenders, hpart⟩
  | @response v r hv hr =>
    obtain ⟨-, y, part, -, hy, -, hrenders, hpart⟩ := file_renders_rpc h hv hr
    exact ⟨y, part, hy, hrenders, hpart⟩

/-- Every field of a planned file is written with a box just if it is marked. -/
theorem file_stores (h : file b fileId s = .ok plan) {path : List String} {f : Field} {boxed : Bool}
    (hm : (path, f, boxed) ∈ plan.marks) :
    ∃ x mods part, b.resolve f.type fileId path = .ok x ∧
      (mods = path.dropLast.map Naming.moduleIdent ∨ mods = path.map Naming.moduleIdent) ∧
      Source.Stores f (b.baseType fileId mods x).text boxed part ∧
      Source.Stands part mods (Source.file plan) := by
  obtain ⟨m, hd, hmarks⟩ := (file_marks h).1 hm
  obtain ⟨item, hitem, hstands⟩ := file_stands h hd
  have hpath : path.dropLast ++ [m.name] = path :=
    List.dropLast_append_getLast? _ (Declared.getLast? hd)
  rw [← hpath] at hmarks
  obtain ⟨x, inner, part, hx, hinner, hstores, hpart⟩ := hitem.stores hmarks
  rw [hpath] at hx
  refine ⟨x, (path.dropLast ++ inner).map Naming.moduleIdent, part, hx, ?_, hstores, ?_⟩
  · rcases List.prefix_cons_iff.1 hinner with rfl | ⟨rest, rfl, hrest⟩
    · exact .inl (by rw [List.append_nil])
    · obtain rfl := List.prefix_nil.1 hrest
      exact .inr (by rw [hpath])
  · rw [List.map_append]
    exact hstands.trans hpart

end Plan

namespace Batch

variable {b : Batch} {fileId : String}

theorem generate_ok_iff {g : Generated} :
    b.generate fileId = .ok (some g) ↔ ∃ s plan, b.get? fileId = some s ∧
      (s.messages ≠ [] ∨ s.enums ≠ []) ∧ Plan.file b fileId s = .ok plan ∧
      g = ⟨fileId, Naming.fileStem fileId ++ ".g.rs", b.moduleName fileId,
        Source.render (Source.file plan)⟩ := by
  rw [generate]
  cases hs : b.get? fileId with
  | none => simp
  | some s =>
    by_cases htypes : s.messages = [] ∧ s.enums = []
    · simp [htypes]
    · have hne := not_and_or.1 htypes
      cases hplan : Plan.file b fileId s with
      | error e => simp [htypes, hplan]
      | ok plan => simp [htypes, hne, hplan, eq_comm (a := g)]

theorem generate_eq_none (h : b.generate fileId = .ok none) :
    ∃ s, b.get? fileId = some s ∧ s.messages = [] ∧ s.enums = [] := by
  rw [generate] at h
  cases hs : b.get? fileId with
  | none => simp [hs] at h
  | some s =>
    by_cases htypes : s.messages = [] ∧ s.enums = []
    · exact ⟨s, rfl, htypes⟩
    · cases hplan : Plan.file b fileId s <;> simp [hs, htypes, hplan] at h

end Batch

end ProtoSchema
