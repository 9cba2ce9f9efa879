import ProtoSchema.Proofs.Plan.Places

/-! # Files that need no other

A file that can be generated alone answers all its references by itself. In a batch the other files
are then never asked, neither for a reference nor in the search that finds the boxes. So its code is
the same in every batch.
-/

namespace ProtoSchema

namespace Batch

def alone (fileId : String) (s : Schema) : Batch := ofList [(fileId, s)]

variable {b : Batch} {s : Schema} {fileId reference : String} {scope mods : List String}
  {x : Resolved}

theorem mem_alone (fileId : String) (s : Schema) : (fileId, s) ∈ (alone fileId s).files :=
  List.mem_singleton_self _

theorem get?_alone : (alone fileId s).get? fileId = some s :=
  get?_eq_some.2 (mem_alone fileId s)

theorem moduleName_congr {b' : Batch} (h : b.get? fileId = b'.get? fileId) :
    b.moduleName fileId = b'.moduleName fileId := by
  rw [moduleName, moduleName, h]

theorem answer?_of_alone (h : (alone fileId s).resolve reference fileId scope = .ok x) :
    s.answer? reference fileId scope = some (.ok x) := by
  rw [resolve_eq (mem_alone fileId s)] at h
  cases hanswer : s.answer? reference fileId scope with
  | some answer =>
    rw [hanswer] at h
    exact congrArg some h
  | none =>
    have hnone : (Reference.ofText reference).candidates (alone fileId s) fileId = [] := by
      have hfiles : (alone fileId s).files.filter (·.1 ≠ fileId) = [] :=
        List.filter_cons_of_neg (by simp)
      rw [Reference.candidates, hfiles, List.flatMap_nil]
    rw [hanswer, hnone] at h
    cases h

theorem resolve_of_alone (hs : (fileId, s) ∈ b.files)
    (h : (alone fileId s).resolve reference fileId scope = .ok x) :
    b.resolve reference fileId scope = .ok x := by
  rw [resolve_eq hs, answer?_of_alone h, Option.getD_some]

theorem pathTo_own {p : TypePath} (b b' : Batch) (h : p.fileId = fileId) :
    b.pathTo fileId mods p = b'.pathTo fileId mods p := by
  rw [pathTo, pathTo]
  simp only [h, if_true]

theorem baseType_of_alone (b : Batch) (mods : List String)
    (h : (alone fileId s).resolve reference fileId scope = .ok x) :
    b.baseType fileId mods x = (alone fileId s).baseType fileId mods x := by
  have hanswer := answer?_of_alone h
  cases x with
  | scalar k => rfl
  | message p m =>
    have hp : p.fileId = fileId := Schema.fileId_of_answer? (c := ⟨p, .message m⟩) hanswer
    exact congrArg BaseType.message (pathTo_own b _ hp)
  | enum p e =>
    have hp : p.fileId = fileId := Schema.fileId_of_answer? (c := ⟨p, .enum e⟩) hanswer
    exact congrArg BaseType.enum (pathTo_own b _ hp)

/-- Two batches in which the messages of a closed set contain the same messages find the same boxes
from there. -/
theorem holds_congr {b b' : Batch} {P : TypePath → Message → Prop}
    (hsame : ∀ p m, P p m → b'.contained p m = b.contained p m)
    (hclosed : ∀ p m, P p m → ∀ x ∈ b.contained p m, P x.1 x.2) {goal : TypePath}
    {fresh fresh' : List TypePath} {visit : List (TypePath × Message)}
    (hfresh : ∀ p m, P p m → (p ∈ fresh' ↔ p ∈ fresh)) (hvisit : ∀ x ∈ visit, P x.1 x.2) :
    b'.holds goal fresh' visit = b.holds goal fresh visit := by
  fun_induction Batch.holds b goal fresh visit generalizing fresh' with
  | case1 => rw [holds]
  | case2 fresh m rest => rw [holds, if_pos rfl]
  | case3 fresh p m rest hne hmem _ ih =>
    obtain ⟨hp, hrest⟩ := List.forall_mem_cons.1 hvisit
    rw [holds, if_neg hne, dif_pos ((hfresh p m hp).2 hmem), hsame p m hp]
    apply ih
    · intro q n hq
      simp only [strike, List.mem_filter, hfresh q n hq]
    · exact List.forall_mem_append.2 ⟨hclosed p m hp, hrest⟩
  | case4 fresh p m rest hne hmem ih =>
    obtain ⟨hp, hrest⟩ := List.forall_mem_cons.1 hvisit
    rw [holds, if_neg hne, dif_neg fun h => hmem ((hfresh p m hp).1 h)]
    exact ih hfresh hrest

/-- A file that resolves the fields of all its messages by itself. -/
def Settled (fileId : String) (s : Schema) : Prop :=
  ∀ path m, s.Declares path (.message m) → ∀ f ∈ m.allFields,
    ∃ x, (alone fileId s).resolve f.type fileId path = .ok x

theorem needsBox_of_alone (hs : (fileId, s) ∈ b.files) (hsettled : Settled fileId s)
    {container target : TypePath} {m : Message}
    (hm : (alone fileId s).Declares target (.message m)) :
    b.needsBox container target m = (alone fileId s).needsBox container target m := by
  have hfile {p : TypePath} {d : TypeDef} (h : (alone fileId s).Declares p d) :
      p.fileId = fileId ∧ s.Declares p.segments d := by
    obtain ⟨u, hu, hd⟩ := h
    obtain ⟨rfl, rfl⟩ := Prod.mk.inj (List.mem_singleton.1 hu)
    exact ⟨rfl, hd⟩
  apply holds_congr (P := fun p m => (alone fileId s).Declares p (.message m))
  · intro p m hp
    obtain ⟨rfl, hd⟩ := hfile hp
    apply List.filterMap_congr
    intro f hf
    obtain ⟨x, hx⟩ := hsettled _ m hd f hf
    rw [hx, resolve_of_alone hs hx]
  · intro p m _ x hx
    obtain ⟨f, -, -, hr⟩ := mem_contained.1 hx
    exact declares_of_resolve hr
  · intro p m hp
    obtain ⟨rfl, hd⟩ := hfile hp
    exact iff_of_true (mem_messagePaths.2 ⟨m, s, hs, hd⟩) (mem_messagePaths.2 ⟨m, hp⟩)
  · exact List.forall_mem_singleton.2 hm

end Batch

namespace Plan

open Batch (alone Settled)

variable {b : Batch} {s : Schema} {fileId package : String} {parents scope mods : List String}

theorem settled_of_file {plan : FilePlan} (h : file (alone fileId s) fileId s = .ok plan) :
    Settled fileId s := by
  intro path m hm f hf
  rcases List.mem_append.1 hf with hf | hf
  · obtain ⟨x, -, hx, -⟩ := file_renders h (.field hm hf)
    exact ⟨x, hx⟩
  · obtain ⟨o, ho, hf⟩ := List.mem_flatMap.1 hf
    obtain ⟨x, -, hx, -⟩ := file_renders h (.accessor hm ho hf)
    exact ⟨x, hx⟩

theorem isBoxed_of_alone (hs : (fileId, s) ∈ b.files) (hsettled : Settled fileId s)
    {reference : String} {f : Field} {x : Resolved}
    (h : (alone fileId s).resolve reference fileId scope = .ok x) :
    isBoxed b fileId scope f x = isBoxed (alone fileId s) fileId scope f x := by
  cases x with
  | scalar k => rfl
  | enum p e => rfl
  | message p m =>
    rw [isBoxed, isBoxed, Batch.needsBox_of_alone hs hsettled (Batch.declares_of_resolve h)]

theorem field_of_alone (hs : (fileId, s) ∈ b.files) (hsettled : Settled fileId s) {f : Field}
    {p : FieldPlan} (h : field (alone fileId s) fileId scope mods f = .ok p) :
    field b fileId scope mods f = .ok p := by
  obtain ⟨x, hx, rfl⟩ := field_ok_iff.1 h
  rw [← Batch.baseType_of_alone b mods hx, ← isBoxed_of_alone hs hsettled hx]
  exact field_ok_iff.2 ⟨x, Batch.resolve_of_alone hs hx, rfl⟩

theorem member_of_alone (hs : (fileId, s) ∈ b.files) (hsettled : Settled fileId s) {f : Field}
    {inner : List String} {p : MemberPlan}
    (h : member (alone fileId s) fileId scope mods inner f = .ok p) :
    member b fileId scope mods inner f = .ok p := by
  obtain ⟨x, hx, rfl⟩ := member_ok_iff.1 h
  rw [← Batch.baseType_of_alone b mods hx, ← Batch.baseType_of_alone b inner hx,
    ← isBoxed_of_alone hs hsettled hx]
  exact member_ok_iff.2 ⟨x, Batch.resolve_of_alone hs hx, rfl⟩

theorem oneof_of_alone (hs : (fileId, s) ∈ b.files) (hsettled : Settled fileId s) {m : Message}
    {o : Oneof} {p : OneofPlan} (h : oneof (alone fileId s) fileId parents m o = .ok p) :
    oneof b fileId parents m o = .ok p := by
  obtain ⟨members, hmembers, rfl⟩ := oneof_ok_iff.1 h
  have hmembers' := mapM_eq_ok_of_imp (fun _ _ _ => member_of_alone hs hsettled) hmembers
  exact oneof_ok_iff.2 ⟨members, hmembers', rfl⟩

mutual

theorem message_of_alone (hs : (fileId, s) ∈ b.files) (hsettled : Settled fileId s) :
    ∀ (m : Message) {parents : List String} {p : MessagePlan},
      message (alone fileId s) fileId package parents m = .ok p →
      message b fileId package parents m = .ok p
  | ⟨name, position, fields, oneofs, messages, enums⟩, parents, p, h => by
    obtain ⟨hfullName, hname, hfields, honeofs, hmessages, henums⟩ := message_ok_iff.1 h
    apply message_ok_iff.2
    exact ⟨hfullName, hname,
      mapM_eq_ok_of_imp (fun _ _ _ => field_of_alone hs hsettled) hfields,
      mapM_eq_ok_of_imp (fun _ _ _ => oneof_of_alone hs hsettled) honeofs,
      mapM_eq_ok_of_imp (fun _ hn _ => message_of_alone_mem hs hsettled messages _ hn) hmessages,
      henums⟩

theorem message_of_alone_mem (hs : (fileId, s) ∈ b.files) (hsettled : Settled fileId s) :
    ∀ (ms : List Message), ∀ m ∈ ms, ∀ {parents : List String} {p : MessagePlan},
      message (alone fileId s) fileId package parents m = .ok p →
      message b fileId package parents m = .ok p
  | [], _, hm, _, _, _ => by cases hm
  | n :: ms, m, hm, parents, p, h => by
    rcases List.mem_cons.1 hm with heq | hm
    · rw [heq] at h ⊢
      exact message_of_alone hs hsettled n h
    · exact message_of_alone_mem hs hsettled ms m hm h

end

theorem service_of_alone (hs : (fileId, s) ∈ b.files) {v : Service} {p : ServicePlan}
    (h : service (alone fileId s) fileId package v = .ok p) :
    service b fileId package v = .ok p := by
  obtain ⟨hmethods, rpcs, hrpcs, rfl⟩ := service_ok_iff.1 h
  refine service_ok_iff.2 ⟨hmethods, rpcs, mapM_eq_ok_of_imp ?_ hrpcs, rfl⟩
  intro r _ q hq
  obtain ⟨x, y, hx, hy, rfl⟩ := rpc_ok_iff.1 hq
  rw [← Batch.baseType_of_alone b [] hx, ← Batch.baseType_of_alone b [] hy]
  exact rpc_ok_iff.2 ⟨x, y, Batch.resolve_of_alone hs hx, Batch.resolve_of_alone hs hy, rfl⟩

theorem file_of_alone (hs : (fileId, s) ∈ b.files) {plan : FilePlan}
    (h : file (alone fileId s) fileId s = .ok plan) : file b fileId s = .ok plan := by
  have hsettled := settled_of_file h
  obtain ⟨ms, vs, hms, hvs, rfl⟩ := file_ok_iff.1 h
  rw [Batch.moduleName_congr (Batch.get?_alone.trans (Batch.get?_eq_some.2 hs).symm)]
  exact file_ok_iff.2 ⟨ms, vs,
    mapM_eq_ok_of_imp (fun m _ _ => message_of_alone hs hsettled m) hms,
    mapM_eq_ok_of_imp (fun _ _ _ => service_of_alone hs) hvs, rfl⟩

end Plan

namespace Batch

variable {b : Batch} {s : Schema} {fileId : String} {g : Generated}

/-- Code that is generated for a file alone is generated for it in every batch. -/
theorem generate_of_alone (h : (alone fileId s).generate fileId = .ok (some g))
    (hs : b.get? fileId = some s) : b.generate fileId = .ok (some g) := by
  obtain ⟨u, plan, hu, htypes, hplan, rfl⟩ := generate_ok_iff.1 h
  obtain rfl := Option.some.inj (get?_alone.symm.trans hu)
  have hplan' := Plan.file_of_alone (get?_eq_some.1 hs) hplan
  rw [moduleName_congr (hu.trans hs.symm)]
  exact generate_ok_iff.2 ⟨s, plan, hs, htypes, hplan', rfl⟩

/-- A message that holds itself through a oneof and is nested in another, and a service. The other
file offers the same names, at the top level and nested. -/
theorem generate_of_alone_tree :
    let node : Message := ⟨"Node", ⟨3, 11⟩, [⟨"kind", ⟨4, 10⟩, "Kind", 1, .implicit, false⟩],
      [⟨"child", [⟨"left", ⟨6, 12⟩, "Node", 2, .optional, false⟩,
        ⟨"owner", ⟨7, 12⟩, "Tree", 3, .optional, false⟩]⟩], [], []⟩
    let tree : Message := ⟨"Tree", ⟨2, 9⟩, [⟨"root", ⟨10, 8⟩, "Node", 1, .implicit, false⟩], [],
      [node], []⟩
    let own : Schema := { messages := [tree], enums := [⟨"Kind", ⟨1, 6⟩, [⟨"LEAF", 0, false⟩]⟩]
                          services := [⟨"Trees", [⟨"Find", "Tree.Node", "Tree"⟩]⟩] }
    let other : Schema := { messages := [⟨"Node", ⟨2, 9⟩, [], [], [], []⟩, tree]
                            imports := ["a.proto"] }
    let b : Batch := ⟨[("a.proto", own), ("b.proto", other)], by decide⟩
    ∃ g, (alone "a.proto" own).generate "a.proto" = .ok (some g) ∧
      b.generate "a.proto" = .ok (some g) := by
  intro node tree own other b
  have halone : ∃ g, (alone "a.proto" own).generate "a.proto" = .ok (some g) := ⟨_, rfl⟩
  obtain ⟨g, hg⟩ := halone
  exact ⟨g, hg, generate_of_alone hg rfl⟩

end Batch

end ProtoSchema
