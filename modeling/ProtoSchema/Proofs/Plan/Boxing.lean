import Mathlib.Logic.Relation
import ProtoSchema.Plan
import ProtoSchema.Proofs.Results
import ProtoSchema.Proofs.TypeRef.Resolve

/-! # Boxes

Messages hold other messages in the fields that are not lists. A field is put in a box exactly when
its message leads back to the one it stands in, so the fields without a box never form a cycle.
-/

namespace ProtoSchema

open Relation

/-- A path that is cut behind its last visit to `p`. -/
theorem reflTransGen_avoiding {α : Type} {R : α → α → Prop} {x z : α} (p : α)
    (h : ReflTransGen R x z) :
    ReflTransGen (fun a b => a ≠ p ∧ R a b) x z ∨
      ∃ y, R p y ∧ ReflTransGen (fun a b => a ≠ p ∧ R a b) y z := by
  induction h using ReflTransGen.head_induction_on with
  | refl => exact Or.inl .refl
  | @head a c hac _ ih =>
    rcases ih with hc | hy
    · by_cases hap : a = p
      · subst hap
        exact Or.inr ⟨c, hac, hc⟩
      · exact Or.inl (.head ⟨hap, hac⟩ hc)
    · exact Or.inr hy

namespace Batch

variable {b : Batch}

/-- The message at `p` has the field `f`, no list, whose type is the message `m` at `q`. -/
def Edge (b : Batch) (p : TypePath) (f : Field) (q : TypePath) (m : Message) : Prop :=
  ∃ container, b.Declares p (.message container) ∧ f ∈ container.allFields ∧ f.label ≠ .repeated ∧
    b.resolve f.type p.fileId p.segments = .ok (.message q m)

def Contains (b : Batch) (p q : TypePath) : Prop := ∃ f m, b.Edge p f q m

theorem mem_contained {p q : TypePath} {container m : Message} :
    (q, m) ∈ b.contained p container ↔ ∃ f ∈ container.allFields, f.label ≠ .repeated ∧
      b.resolve f.type p.fileId p.segments = .ok (.message q m) := by
  unfold contained
  rw [List.mem_filterMap]
  refine exists_congr fun f => and_congr_right fun _ => ?_
  by_cases hl : f.label = .repeated
  · simp [hl]
  · simp only [hl, if_false, ne_eq, not_false_eq_true, true_and]
    split
    · next q' m' heq => simp [heq]
    · next hne => simpa using fun heq => (hne q m heq).elim

theorem mem_messagePaths {p : TypePath} :
    p ∈ b.messagePaths ↔ ∃ m, b.Declares p (.message m) := by
  unfold messagePaths
  rw [List.mem_flatMap]
  constructor
  · rintro ⟨f, hf, hp⟩
    obtain ⟨⟨path, d⟩, ht, hd⟩ := List.mem_filterMap.1 hp
    cases d with
    | message m =>
      obtain rfl := Option.some.inj hd
      exact ⟨m, f.2, hf, Schema.mem_types.1 ht⟩
    | enum e => cases hd
  · rintro ⟨m, s, hs, hd⟩
    exact ⟨_, hs, List.mem_filterMap.2 ⟨_, Schema.mem_types.2 hd, rfl⟩⟩

def Within (b : Batch) (fresh : List TypePath) (p q : TypePath) : Prop := p ∈ fresh ∧ b.Contains p q

theorem within_strike {fresh : List TypePath} {p : TypePath} :
    b.Within (strike p fresh) = fun a c => a ≠ p ∧ b.Within fresh a c := by
  funext a c
  simp only [Within, strike, List.mem_filter, decide_eq_true_eq]
  exact propext ⟨fun h => ⟨h.1.2, h.1.1, h.2⟩, fun h => ⟨⟨h.2.1, h.1⟩, h.2.2⟩⟩

theorem contains_iff (hb : b.Accepted) {p q : TypePath} {container : Message}
    (hp : b.Declares p (.message container)) :
    b.Contains p q ↔ ∃ m, (q, m) ∈ b.contained p container := by
  constructor
  · rintro ⟨f, m, container', hp', hf, hl, hr⟩
    obtain rfl : container' = container := TypeDef.message.inj (hp'.unique hb hp)
    exact ⟨m, mem_contained.2 ⟨f, hf, hl, hr⟩⟩
  · rintro ⟨m, hm⟩
    obtain ⟨f, hf, hl, hr⟩ := mem_contained.1 hm
    exact ⟨f, m, container, hp, hf, hl, hr⟩

/-- Opening a fresh message: what it contains takes its place, and it need not be visited again. -/
theorem reaches_opened (hb : b.Accepted) {goal p : TypePath} {m : Message} {fresh : List TypePath}
    {rest : List (TypePath × Message)} (hp : b.Declares p (.message m)) (hne : p ≠ goal)
    (hfresh : p ∈ fresh) :
    (∃ x ∈ b.contained p m ++ rest, ReflTransGen (b.Within (strike p fresh)) x.1 goal) ↔
      ∃ x ∈ (p, m) :: rest, ReflTransGen (b.Within fresh) x.1 goal := by
  have hmono {x : TypePath} (h : ReflTransGen (b.Within (strike p fresh)) x goal) :
      ReflTransGen (b.Within fresh) x goal := by
    rw [within_strike] at h
    exact h.lift id fun _ _ hac => hac.2
  constructor
  · rintro ⟨x, hx, hreach⟩
    rcases List.mem_append.1 hx with hx | hx
    · have hstep : b.Within fresh p x.1 := ⟨hfresh, (contains_iff hb hp).2 ⟨x.2, hx⟩⟩
      exact ⟨_, List.mem_cons_self, .head hstep (hmono hreach)⟩
    · exact ⟨x, List.mem_cons_of_mem _ hx, hmono hreach⟩
  · rintro ⟨x, hx, hreach⟩
    rcases reflTransGen_avoiding p hreach with havoid | ⟨y, ⟨-, hpy⟩, havoid⟩
    · rcases List.mem_cons.1 hx with rfl | hx
      · rcases havoid.cases_head with heq | ⟨_, ⟨hself, -⟩, -⟩
        · exact absurd heq hne
        · exact absurd rfl hself
      · exact ⟨x, List.mem_append_right _ hx, within_strike ▸ havoid⟩
    · obtain ⟨m', hm'⟩ := (contains_iff hb hp).1 hpy
      exact ⟨(y, m'), List.mem_append_left _ hm', within_strike ▸ havoid⟩

theorem holds_iff (hb : b.Accepted) {goal : TypePath} {fresh : List TypePath}
    {visit : List (TypePath × Message)} (hv : ∀ x ∈ visit, b.Declares x.1 (.message x.2)) :
    b.holds goal fresh visit = true ↔ ∃ x ∈ visit, ReflTransGen (b.Within fresh) x.1 goal := by
  fun_induction Batch.holds b goal fresh visit with
  | case1 => simp
  | case2 fresh m rest => exact iff_of_true rfl ⟨_, List.mem_cons_self, .refl⟩
  | case3 fresh p m rest hne hfresh _ ih =>
    obtain ⟨hp, hrest⟩ := List.forall_mem_cons.1 hv
    rw [ih, reaches_opened hb hp hne hfresh]
    refine List.forall_mem_append.2 ⟨fun x hx => ?_, hrest⟩
    obtain ⟨f, -, -, hr⟩ := mem_contained.1 hx
    exact declares_of_resolve hr
  | case4 fresh p m rest hne hfresh ih =>
    obtain ⟨-, hrest⟩ := List.forall_mem_cons.1 hv
    rw [ih hrest]
    refine ⟨fun ⟨x, hx, hreach⟩ => ⟨x, List.mem_cons_of_mem _ hx, hreach⟩, ?_⟩
    rintro ⟨x, hx, hreach⟩
    rcases List.mem_cons.1 hx with rfl | hx
    · rcases hreach.cases_head with heq | ⟨_, ⟨hmem, -⟩, -⟩
      · exact absurd heq hne
      · exact absurd hmem hfresh
    · exact ⟨x, hx, hreach⟩

theorem needsBox_iff (hb : b.Accepted) {container target : TypePath} {m : Message}
    (hm : b.Declares target (.message m)) :
    b.needsBox container target m = true ↔ ReflTransGen b.Contains target container := by
  have hwithin : b.Within b.messagePaths = b.Contains := by
    funext p q
    refine propext ⟨And.right, fun h => ⟨?_, h⟩⟩
    obtain ⟨_, _, c, hc, -⟩ := h
    exact mem_messagePaths.2 ⟨c, hc⟩
  rw [needsBox, holds_iff hb (List.forall_mem_singleton.2 hm), hwithin]
  simp

end Batch

/-- A field with the path of the message it stands in, and whether it is put in a box. -/
abbrev Mark : Type := List String × Field × Bool

mutual

/-- The fields of a planned message and of the messages inside it. -/
def MessagePlan.marks (parents : List String) : MessagePlan → List Mark
  | ⟨_, name, fields, oneofs, messages, _⟩ =>
    (fields.map fun p => (parents ++ [name], p.field, p.boxed)) ++
      (oneofs.flatMap fun o => o.members.map fun p => (parents ++ [name], p.field, p.boxed)) ++
      MessagePlan.marksAll (parents ++ [name]) messages

def MessagePlan.marksAll (parents : List String) : List MessagePlan → List Mark
  | [] => []
  | p :: ps => MessagePlan.marks parents p ++ MessagePlan.marksAll parents ps

end

def FilePlan.marks (p : FilePlan) : List Mark := MessagePlan.marksAll [] p.messages

namespace Declared

variable {ms : List Message} {es : List Enum} {path : List String} {d : TypeDef} {m n : Message}

theorem message_iff : Declared ms es path (.message m) ↔ Declared ms [] path (.message m) := by
  constructor
  · intro h
    cases h with
    | message hm => exact .message hm
    | inner hm h => exact .inner hm h
  · exact fun h => h.mono (List.Subset.refl _) (List.nil_subset _)

theorem singleton_iff : Declared [m] [] path d ↔
    path = [m.name] ∧ d = .message m ∨
      ∃ inner, path = m.name :: inner ∧ Declared m.messages m.enums inner d := by
  constructor
  · intro h
    cases h with
    | message hm =>
      obtain rfl := List.mem_singleton.1 hm
      exact Or.inl ⟨rfl, rfl⟩
    | enum he => simp at he
    | inner hm h =>
      obtain rfl := List.mem_singleton.1 hm
      exact Or.inr ⟨_, rfl, h⟩
  · rintro (⟨rfl, rfl⟩ | ⟨inner, rfl, h⟩)
    · exact .message (List.mem_singleton_self _)
    · exact .inner (List.mem_singleton_self _) h

theorem cons_iff :
    Declared (m :: ms) [] path d ↔ Declared [m] [] path d ∨ Declared ms [] path d := by
  constructor
  · intro h
    cases h with
    | message hm =>
      rcases List.mem_cons.1 hm with rfl | hm
      · exact Or.inl (.message (List.mem_singleton_self _))
      · exact Or.inr (.message hm)
    | enum he => simp at he
    | inner hm h =>
      rcases List.mem_cons.1 hm with rfl | hm
      · exact Or.inl (.inner (List.mem_singleton_self _) h)
      · exact Or.inr (.inner hm h)
  · rintro (h | h)
    · exact h.mono (by simp) (List.Subset.refl _)
    · exact h.mono (List.subset_cons_self _ _) (List.Subset.refl _)

end Declared

namespace Plan

variable {b : Batch} {fileId package : String}

/-- The mark that the field `f` of a message at `path` has to carry. -/
def Marks (b : Batch) (fileId : String) (m : Message) (path : List String) (f : Field)
    (boxed : Bool) : Prop :=
  f ∈ m.allFields ∧ ∃ r, b.resolve f.type fileId path = .ok r ∧ boxed = isBoxed b fileId path f r

theorem field_eq_ok {scope mods : List String} {f g : Field} {boxed : Bool} :
    (∃ p : FieldPlan, field b fileId scope mods f = .ok p ∧ p.field = g ∧ p.boxed = boxed) ↔
      f = g ∧ ∃ r, b.resolve f.type fileId scope = .ok r ∧ boxed = isBoxed b fileId scope f r := by
  cases hr : b.resolve f.type fileId scope with
  | error e => simp [field, hr, bind, Except.bind]
  | ok r => simp [field, hr, bind, Except.bind, pure, Except.pure, eq_comm]

theorem member_eq_ok {scope outer inner : List String} {f g : Field} {boxed : Bool} :
    (∃ p : MemberPlan, member b fileId scope outer inner f = .ok p ∧ p.field = g ∧
      p.boxed = boxed) ↔
      f = g ∧ ∃ r, b.resolve f.type fileId scope = .ok r ∧ boxed = isBoxed b fileId scope f r := by
  cases hr : b.resolve f.type fileId scope with
  | error e => simp [member, hr, bind, Except.bind]
  | ok r => simp [member, hr, bind, Except.bind, pure, Except.pure, eq_comm]

theorem mem_marks_of_mapM {π : Type} {plan : Field → Except Error π} {fieldOf : π → Field}
    {boxedOf : π → Bool} {scope path : List String} {fields : List Field} {plans : List π}
    {f : Field} {boxed : Bool}
    (hplan : ∀ {f g : Field} {boxed : Bool},
      (∃ p, plan f = .ok p ∧ fieldOf p = g ∧ boxedOf p = boxed) ↔
        f = g ∧ ∃ r, b.resolve f.type fileId scope = .ok r ∧ boxed = isBoxed b fileId scope f r)
    (h : fields.mapM plan = .ok plans) :
    (path, f, boxed) ∈ plans.map (fun p => (scope, fieldOf p, boxedOf p)) ↔
      path = scope ∧ f ∈ fields ∧
        ∃ r, b.resolve f.type fileId scope = .ok r ∧ boxed = isBoxed b fileId scope f r := by
  rw [List.mem_map]
  constructor
  · rintro ⟨p, hp, heq⟩
    obtain ⟨rfl, rfl, rfl⟩ : scope = path ∧ fieldOf p = f ∧ boxedOf p = boxed := by simpa using heq
    obtain ⟨g, hg, hgp⟩ := (mem_mapM h).1 hp
    obtain ⟨rfl, hr⟩ := hplan.1 ⟨p, hgp, rfl, rfl⟩
    exact ⟨rfl, hg, hr⟩
  · rintro ⟨rfl, hf, hr⟩
    obtain ⟨p, hp, rfl, rfl⟩ := hplan.2 ⟨rfl, hr⟩
    exact ⟨p, (mem_mapM h).2 ⟨_, hf, hp⟩, rfl⟩

theorem mem_ownMarks {m : Message} {scope mods inner path : List String} {fields : List FieldPlan}
    {oneofs : List OneofPlan} {ident : Oneof → String} {f : Field} {boxed : Bool}
    (hf : m.fields.mapM (field b fileId scope mods) = .ok fields)
    (ho : (m.oneofs.mapM fun o => do
      let members ← o.fields.mapM (member b fileId scope mods inner)
      return (⟨o.name, ident o, members⟩ : OneofPlan)) = .ok oneofs) :
    (path, f, boxed) ∈ (fields.map fun p => (scope, p.field, p.boxed)) ++
        (oneofs.flatMap fun o => o.members.map fun p => (scope, p.field, p.boxed)) ↔
      path = scope ∧ Marks b fileId m scope f boxed := by
  rw [List.mem_append, mem_marks_of_mapM field_eq_ok hf, List.mem_flatMap, Marks, Message.allFields,
    List.mem_append, List.mem_flatMap]
  constructor
  · rintro (⟨hpath, hmem, hr⟩ | ⟨p, hp, hmark⟩)
    · exact ⟨hpath, Or.inl hmem, hr⟩
    · obtain ⟨o, hmem, hplan⟩ := (mem_mapM ho).1 hp
      obtain ⟨members, hmembers, heq⟩ := bind_eq_ok.1 hplan
      obtain rfl := Except.ok.inj heq
      obtain ⟨hpath, hfield, hr⟩ := (mem_marks_of_mapM member_eq_ok hmembers).1 hmark
      exact ⟨hpath, Or.inr ⟨o, hmem, hfield⟩, hr⟩
  · rintro ⟨hpath, hmem | ⟨o, hmem, hfield⟩, hr⟩
    · exact Or.inl ⟨hpath, hmem, hr⟩
    · obtain ⟨p, hplan⟩ := exists_of_mapM ho hmem
      have hp := (mem_mapM ho).2 ⟨o, hmem, hplan⟩
      obtain ⟨members, hmembers, heq⟩ := bind_eq_ok.1 hplan
      obtain rfl := Except.ok.inj heq
      exact Or.inr ⟨_, hp, (mem_marks_of_mapM member_eq_ok hmembers).2 ⟨hpath, hfield, hr⟩⟩

mutual

theorem mem_marks : ∀ (m : Message) {parents : List String} {plan : MessagePlan},
    message b fileId package parents m = .ok plan →
    ∀ {path : List String} {f : Field} {boxed : Bool},
    (path, f, boxed) ∈ plan.marks parents ↔ ∃ inner n, path = parents ++ inner ∧
      Declared [m] [] inner (.message n) ∧ Marks b fileId n path f boxed
  | ⟨name, position, fields, oneofs, messages, enums⟩, parents, plan, h, path, f, boxed => by
    rw [message] at h
    obtain ⟨fields', hfields, h⟩ := bind_eq_ok.1 h
    obtain ⟨oneofs', honeofs, h⟩ := bind_eq_ok.1 h
    obtain ⟨messages', hmessages, h⟩ := bind_eq_ok.1 h
    obtain rfl := Except.ok.inj h
    have hown : (path, f, boxed) ∈ _ ↔ _ :=
      mem_ownMarks (m := ⟨name, position, fields, oneofs, messages, enums⟩) hfields honeofs
    rw [MessagePlan.marks, List.mem_append, hown, mem_marksAll messages hmessages]
    constructor
    · rintro (⟨rfl, hmarks⟩ | ⟨inner, n, rfl, hd, hmarks⟩)
      · exact ⟨[name], _, rfl, .message (List.mem_singleton_self _), hmarks⟩
      · refine ⟨name :: inner, n, by simp, Declared.singleton_iff.2 (Or.inr ⟨inner, rfl, ?_⟩),
          hmarks⟩
        exact Declared.message_iff.2 hd
    · rintro ⟨inner, n, rfl, hd, hmarks⟩
      rcases Declared.singleton_iff.1 hd with ⟨rfl, hn⟩ | ⟨rest, rfl, hrest⟩
      · obtain rfl := TypeDef.message.inj hn
        exact Or.inl ⟨rfl, hmarks⟩
      · exact Or.inr ⟨rest, n, by simp, Declared.message_iff.1 hrest, hmarks⟩

theorem mem_marksAll : ∀ (ms : List Message) {parents : List String} {plans : List MessagePlan},
    messages b fileId package parents ms = .ok plans →
    ∀ {path : List String} {f : Field} {boxed : Bool},
    (path, f, boxed) ∈ MessagePlan.marksAll parents plans ↔ ∃ inner n, path = parents ++ inner ∧
      Declared ms [] inner (.message n) ∧ Marks b fileId n path f boxed
  | [], parents, plans, h, path, f, boxed => by
    obtain rfl := Except.ok.inj h
    refine ⟨by simp [MessagePlan.marksAll], ?_⟩
    rintro ⟨inner, n, -, hd, -⟩
    cases hd with
    | message hm => simp at hm
    | inner hm _ => simp at hm
  | m :: ms, parents, plans, h, path, f, boxed => by
    rw [messages] at h
    obtain ⟨first, hfirst, h⟩ := bind_eq_ok.1 h
    obtain ⟨rest, hrest, h⟩ := bind_eq_ok.1 h
    obtain rfl := Except.ok.inj h
    rw [MessagePlan.marksAll, List.mem_append, mem_marks m hfirst, mem_marksAll ms hrest]
    constructor
    · rintro (⟨inner, n, rfl, hd, hmarks⟩ | ⟨inner, n, rfl, hd, hmarks⟩)
      · exact ⟨inner, n, rfl, Declared.cons_iff.2 (Or.inl hd), hmarks⟩
      · exact ⟨inner, n, rfl, Declared.cons_iff.2 (Or.inr hd), hmarks⟩
    · rintro ⟨inner, n, rfl, hd, hmarks⟩
      rcases Declared.cons_iff.1 hd with hd | hd
      · exact Or.inl ⟨inner, n, rfl, hd, hmarks⟩
      · exact Or.inr ⟨inner, n, rfl, hd, hmarks⟩

end

theorem file_marks {s : Schema} {plan : FilePlan} (h : file b fileId s = .ok plan)
    {path : List String} {f : Field} {boxed : Bool} :
    (path, f, boxed) ∈ plan.marks ↔
      ∃ m, s.Declares path (.message m) ∧ Marks b fileId m path f boxed := by
  obtain ⟨messages', hmessages, h⟩ := bind_eq_ok.1 h
  obtain ⟨services', -, h⟩ := bind_eq_ok.1 h
  obtain rfl := Except.ok.inj h
  rw [FilePlan.marks, mem_marksAll s.messages hmessages]
  constructor
  · rintro ⟨inner, m, rfl, hd, hmarks⟩
    exact ⟨m, Declared.message_iff.2 hd, hmarks⟩
  · rintro ⟨m, hd, hmarks⟩
    exact ⟨path, m, rfl, Declared.message_iff.1 hd, hmarks⟩

end Plan

namespace Batch

variable {b : Batch}

theorem Edge.isBoxed_iff (hb : b.Accepted) {p q : TypePath} {f : Field} {m : Message}
    (h : b.Edge p f q m) :
    Plan.isBoxed b p.fileId p.segments f (.message q m) = true ↔ ReflTransGen b.Contains q p := by
  obtain ⟨-, -, -, hl, hr⟩ := h
  rw [← needsBox_iff hb (declares_of_resolve hr)]
  simp [Plan.isBoxed, hl]

/-- The message at `p` has a field without a box for the message at `q`. -/
def Unboxed (b : Batch) (p q : TypePath) : Prop :=
  ∃ f m, b.Edge p f q m ∧ Plan.isBoxed b p.fileId p.segments f (.message q m) = false

theorem not_unboxed_cycle (hb : b.Accepted) (p : TypePath) : ¬ TransGen b.Unboxed p p := by
  intro h
  obtain ⟨q, ⟨f, m, hedge, hbox⟩, hback⟩ := TransGen.head'_iff.1 h
  have hreach : ReflTransGen b.Contains q p :=
    hback.lift id fun _ _ ⟨f, m, hedge, _⟩ => ⟨f, m, hedge⟩
  rw [(hedge.isBoxed_iff hb).2 hreach] at hbox
  cases hbox

theorem Edge.mem_marks_iff {p q : TypePath} {f : Field} {m : Message} (h : b.Edge p f q m)
    {s : Schema} {plan : FilePlan} (hs : (p.fileId, s) ∈ b.files)
    (hplan : Plan.file b p.fileId s = .ok plan) {boxed : Bool} :
    (p.segments, f, boxed) ∈ plan.marks ↔
      boxed = Plan.isBoxed b p.fileId p.segments f (.message q m) := by
  obtain ⟨container, ⟨s', hs', hd⟩, hf, -, hr⟩ := h
  obtain rfl : s' = s := Option.some.inj ((get?_eq_some.2 hs').symm.trans (get?_eq_some.2 hs))
  rw [Plan.file_marks hplan]
  constructor
  · rintro ⟨_, -, -, r, hr', hbox⟩
    obtain rfl := Except.ok.inj (hr'.symm.trans hr)
    exact hbox
  · exact fun hbox => ⟨container, hd, hf, _, hr, hbox⟩

/-- A field for another message is boxed, as the plan of its file marks it, if and only if that
message leads back to its own. So no cycle is free of boxes, within a file or across files. -/
theorem boxed_iff_leads_back (hb : b.Accepted) :
    (∀ p f q m, b.Edge p f q m →
      (Plan.isBoxed b p.fileId p.segments f (.message q m) = true ↔ ReflTransGen b.Contains q p) ∧
      ∀ s plan, (p.fileId, s) ∈ b.files → Plan.file b p.fileId s = .ok plan →
        ∀ boxed, (p.segments, f, boxed) ∈ plan.marks ↔
          boxed = Plan.isBoxed b p.fileId p.segments f (.message q m)) ∧
    ∀ p, ¬ TransGen b.Unboxed p p :=
  ⟨fun _ _ _ _ h => ⟨h.isBoxed_iff hb, fun _ _ hs hplan _ => h.mem_marks_iff hs hplan⟩,
    not_unboxed_cycle hb⟩

/-- Two messages that hold each other, in different files and through a oneof. -/
theorem boxed_iff_leads_back_mutual :
    let back : Field := ⟨"a", ⟨1, 25⟩, "A", 1, .optional, false⟩
    let forth : Field := ⟨"b", ⟨1, 15⟩, "B", 1, .implicit, false⟩
    let first : Message := ⟨"A", ⟨1, 9⟩, [forth], [], [], []⟩
    let second : Message := ⟨"B", ⟨1, 9⟩, [], [⟨"o", [back]⟩], [], []⟩
    let b : Batch :=
      ⟨[("a.proto", { messages := [first] }), ("b.proto", { messages := [second] })], by decide⟩
    b.Accepted ∧ b.Edge ⟨"a.proto", ["A"]⟩ forth ⟨"b.proto", ["B"]⟩ second ∧
      Plan.isBoxed b "a.proto" ["A"] forth (.message ⟨"b.proto", ["B"]⟩ second) = true ∧
      ∀ p, ¬ TransGen b.Unboxed p p := by
  intro back forth first second b
  have hfirst : Schema.compile "message A \x7b B b = 1; \x7d" = .ok { messages := [first] } := by
    decide +kernel
  have hsecond : Schema.compile "message B \x7b oneof o \x7b A a = 1; \x7d \x7d" =
      .ok { messages := [second] } := by decide +kernel
  have hb : b.Accepted := by
    intro f hf
    rcases List.mem_pair.1 hf with rfl | rfl
    · exact ⟨_, hfirst⟩
    · exact ⟨_, hsecond⟩
  have hforth : b.resolve "B" "a.proto" ["A"] = .ok (.message ⟨"b.proto", ["B"]⟩ second) := by rfl
  have hback : b.resolve "A" "b.proto" ["B"] = .ok (.message ⟨"a.proto", ["A"]⟩ first) := by rfl
  have hedge : b.Edge ⟨"a.proto", ["A"]⟩ forth ⟨"b.proto", ["B"]⟩ second :=
    ⟨first, ⟨_, List.mem_cons_self, .message (List.mem_singleton_self _)⟩,
      List.mem_singleton_self _, by decide, hforth⟩
  have hreturn : b.Edge ⟨"b.proto", ["B"]⟩ back ⟨"a.proto", ["A"]⟩ first :=
    ⟨second, ⟨_, List.mem_cons_of_mem _ (List.mem_singleton_self _),
      .message (List.mem_singleton_self _)⟩, List.mem_singleton_self _, by decide, hback⟩
  obtain ⟨hedges, hacyclic⟩ := boxed_iff_leads_back hb
  exact ⟨hb, hedge, (hedges _ _ _ _ hedge).1.2 (.single ⟨back, first, hreturn⟩), hacyclic⟩

end Batch

end ProtoSchema
